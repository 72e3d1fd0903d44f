import NvidiaGsp.Falcon.Run
import NvidiaGsp.Lib.Triples
import NvidiaGsp.Lib.Words

/-!
# Bar1.Walk

How a BAR1 offset is resolved through the page tables in video memory (`bar1_walk.zig`), and the
translation that the memory unit makes of it. The video memory is fixed; the reader is asked step by
step for its generation, the time, the control registers and whether a read succeeds.
-/

namespace NvidiaGsp
namespace Bar1

open Bytes Call

/-- The errors of the walk and of the capture; `reader` are those of the reader itself. -/
inductive Fault where
  | Profile | Bounds | Stale | Clock | Deadline | Identity | Inaccessible | BindPending | State
  | Unstable | Unmapped | Pte | Alignment | Pde | Aperture | Ambiguous | Instance | Format | Overflow
  | Capacity | Buffer
  | reader (code : Nat)
  deriving DecidableEq, Repr

def maxEntries : Nat := 7

structure Control where
  boot0 : Word
  boot1 : Word
  block : Word
  bindStatus : Word
  deriving DecidableEq

/-- The answers of the reader, by how many came before. -/
structure Reader where
  generation : Nat → Nat
  now : Nat → Nat
  controls : Nat → Except Nat Control
  readFails : Nat → Option Nat

inductive BarKind where
  | absent | io | memory32 | memory64 | upper | invalid
  deriving DecidableEq, Repr

structure Bar where
  kind : BarKind
  prefetchable : Bool
  base : Nat
  bytes : Nat

/-- A request; `chip` is what `identity.chip` makes of the boot registers. -/
structure Request where
  epoch : Nat
  deadline : Nat
  boot0 : Word
  boot1 : Word
  chip : Option Nat
  bar : Bar
  framebufferBytes : Nat
  cpuPhysical : Nat
  bytes : Nat

def Request.offset (q : Request) : Nat := q.cpuPhysical - q.bar.base

inductive Format where
  | physical | v2
  deriving DecidableEq, Repr

inductive Level where
  | instanceBlock | pd3 | pd2 | pd1 | pd0 | big | small
  deriving DecidableEq, Repr

structure Entry where
  address : Nat
  bytes : Nat
  level : Level
  value : List Byte
  deriving DecidableEq

structure Span where
  address : Nat
  bytes : Nat
  deriving DecidableEq, Repr

structure Mapped where
  span : Span
  leafShift : Nat

structure Report where
  control : Control
  format : Format
  barOffset : Nat
  mapped : Span
  leafShift : Nat
  entries : List Entry

structure World where
  step : Nat := 0
  previous : Nat := 0
  entries : List Entry := []

abbrev Step (α : Type) := Call Fault World α

/-! ## The reader -/

def tick {α : Type} (answer : Nat → α) : Step α := do
  let w ← get
  set { w with step := w.step + 1 }
  pure (answer w.step)

def guard (q : Request) (reader : Reader) : Step Unit := do
  let generation ← tick reader.generation
  failIf (generation ≠ q.epoch) .Stale
  let now ← tick reader.now
  let w ← get
  failIf (now = 0 ∨ now = 2 ^ 64 - 1 ∨ now < w.previous) .Clock
  failIf (now ≥ q.deadline) .Deadline
  set { w with previous := now }

def checkControls (q : Request) (value : Control) : Except Fault Control :=
  if value.boot0 ≠ q.boot0 ∨ value.boot1 ≠ q.boot1 then .error .Identity
  else if ¬ Falcon.Run.readable value.block ∨ ¬ Falcon.Run.readable value.bindStatus then
    .error .Inaccessible
  else if value.bindStatus &&& 3 ≠ 0 then .error .BindPending
  else .ok value

/-- What the reader answers, with its errors among those of the walk. -/
def answered {α : Type} : Except Nat α → Except Fault α
  | .ok a => .ok a
  | .error code => .error (.reader code)

def controls (q : Request) (reader : Reader) : Step Control := do
  guard q reader
  let answer ← tick reader.controls
  let value ← lift (answered answer)
  guard q reader
  lift (checkControls q value)

def checkSpan (q : Request) (address bytes : Nat) : Except Fault Unit :=
  if bytes = 0 ∨ address > q.framebufferBytes ∨ bytes > q.framebufferBytes - address then .error .Bounds
  else .ok ()

/-- A part of the video memory. -/
def content (vram : Nat → Byte) (address bytes : Nat) : List Byte :=
  (List.range bytes).map fun i => vram (address + i)

/-- One access to the video memory, which may fail. -/
def access (vram : Nat → Byte) (q : Request) (reader : Reader) (address bytes : Nat) :
    Step (List Byte) := do
  guard q reader
  let failure ← tick reader.readFails
  failIf (failure ≠ none) (.reader (failure.getD 0))
  guard q reader
  pure (content vram address bytes)

def read (vram : Nat → Byte) (q : Request) (reader : Reader) (address bytes : Nat) (level : Level) :
    Step Entry := do
  let w ← get
  failIf ((bytes ≠ 8 ∧ bytes ≠ 16) ∨ address % 8 ≠ 0 ∨ w.entries.length = maxEntries) .State
  lift (checkSpan q address bytes)
  let value ← access vram q reader address bytes
  let entry : Entry := ⟨address, bytes, level, value⟩
  modify fun w => { w with entries := w.entries ++ [entry] }
  pure entry

def word (entry : Entry) (offset : Nat) : Nat := number entry.value offset 8

/-! ## The entries -/

/-- The bits of a word outside a mask. -/
def outside (raw mask : Nat) : Nat := raw &&& (0xffffffffffffffff ^^^ mask)

def leafAddress (raw : Nat) : Nat := (raw >>> 8 &&& 0x1ffffff) <<< 12

def leaf (q : Request) (raw shift : Nat) : Except Fault Mapped :=
  if raw &&& 1 = 0 then .error .Unmapped
  else if outside raw 0x00000001ffffff89 ≠ 0 then .error .Pte
  else if leafAddress raw &&& (2 ^ shift - 1) ≠ 0 then .error .Alignment
  else
    match checkSpan q (leafAddress raw) (2 ^ shift) with
    | .error e => .error e
    | .ok _ =>
      let within := q.offset &&& (2 ^ shift - 1)
      .ok ⟨⟨leafAddress raw + within, min q.bytes (2 ^ shift - within)⟩, shift⟩

def tableMask (big : Bool) : Nat := if big then 0x1fffffff0 else 0x1ffffff00

/-- The table behind an entry; `none` where there is none. -/
def table (raw : Nat) (big : Bool) : Except Fault (Option Nat) :=
  if raw &&& 1 ≠ 0 then .error .Pde
  else if raw >>> 1 &&& 3 = 0 then if raw &&& 8 ≠ 0 then .error .Unmapped else .ok none
  else if raw >>> 1 &&& 3 ≠ 1 then .error .Aperture
  else if outside raw (tableMask big ||| 0xe) ≠ 0 then .error .Pde
  else .ok (some ((raw &&& tableMask big) <<< 4))

/-- What an entry of one of the upper levels says. -/
def levelResult (q : Request) (raw : Nat) (level : Level) : Except Fault (Mapped ⊕ Nat) :=
  if raw &&& 1 ≠ 0 then
    if level ≠ .pd1 then .error .Pde
    else
      match leaf q raw 29 with
      | .error e => .error e
      | .ok m => .ok (.inl m)
  else
    match table raw false with
    | .error e => .error e
    | .ok none => .error .Unmapped
    | .ok (some next) => .ok (.inr next)

/-- What an entry of one of the lowest tables says. -/
def pteResult (q : Request) (raw shift : Nat) : Except Fault (Option Mapped) :=
  if raw &&& 1 = 0 then if raw &&& 8 ≠ 0 then .error .Unmapped else .ok none
  else
    match leaf q raw shift with
    | .error e => .error e
    | .ok m => .ok (some m)

/-! ## The walk -/

section

variable (vram : Nat → Byte) (q : Request) (reader : Reader)

/-- The loop over the upper levels. -/
def descend : List (Nat × Nat × Level) → Nat → Step (Mapped ⊕ Nat)
  | [], current => pure (.inr current)
  | (shift, mask, level) :: rest, current => do
    let entry ← read vram q reader (current + (q.offset >>> shift &&& mask) * 8) 8 level
    let result ← lift (levelResult q (word entry 0) level)
    match result with
    | .inl m => pure (.inl m)
    | .inr next => descend rest next

/-- One turn of the loop of `choose`. -/
def half (shift : Nat) (level : Level) : Option Nat → Step (Option Mapped)
  | none => pure none
  | some address => do
    let at_ := address + ((q.offset &&& (2 ^ 21 - 1)) >>> shift) * 8
    failIf (at_ ≥ 2 ^ 64) .Overflow
    let entry ← read vram q reader at_ 8 level
    lift (pteResult q (word entry 0) shift)

def combine : Option Mapped → Option Mapped → Except Fault Mapped
  | some _, some _ => .error .Ambiguous
  | some m, none => .ok m
  | none, some m => .ok m
  | none, none => .error .Unmapped

def choose (big small : Option Nat) (bigShift : Nat) : Step Mapped := do
  let fromBig ← half vram q reader bigShift .big big
  let fromSmall ← half vram q reader 12 .small small
  lift (combine fromBig fromSmall)

/-- A 2-MB leaf, whose other half must be empty. -/
def largeLeaf (big small : Nat) : Except Fault Mapped :=
  if small ≠ 0 then .error .Ambiguous else leaf q big 21

/-- The dual entry and what is behind it. -/
def lowest (bigShift current : Nat) : Step Mapped := do
  let dual ← read vram q reader (current + (q.offset >>> 21 &&& 255) * 16) 16 .pd0
  let big := word dual 0
  let small := word dual 8
  if big &&& 1 ≠ 0 then lift (largeLeaf q big small)
  else do
    let fromBig ← lift (table big true)
    let fromSmall ← lift (table small false)
    choose vram q reader fromBig fromSmall bigShift

def bigShiftOf (header : Nat) : Nat := if header &&& 0x800 ≠ 0 then 16 else 17

def rootOf (header : Nat) : Nat := header / 4096 * 4096

/-- The checks of the instance block. -/
def checkInstance (header limit : Nat) : Except Fault Unit :=
  if header &&& 3 ≠ 0 then .error .Aperture
  else if outside (header &&& 0xfff) 0xc34 ≠ 0 then .error .Instance
  else if header &&& 0x400 = 0 then .error .Format
  else if (limit ||| 4095) ≥ 2 ^ 49 ∨ q.offset > (limit ||| 4095) ∨
      q.bytes - 1 > (limit ||| 4095) - q.offset then .error .Bounds
  else checkSpan q (rootOf header) 4096

def upperLevels : List (Nat × Nat × Level) := [(47, 3, .pd3), (38, 511, .pd2), (29, 511, .pd1)]

def finishDescent (bigShift : Nat) : Mapped ⊕ Nat → Step Mapped
  | .inl m => pure m
  | .inr current => lowest vram q reader bigShift current

def virtual (inst : Nat) : Step Mapped := do
  lift (checkSpan q inst 4096)
  let header ← read vram q reader (inst + 0x200) 16 .instanceBlock
  lift (checkInstance q (word header 0) (word header 8))
  let result ← descend vram q reader upperLevels (rootOf (word header 0))
  finishDescent vram q reader (bigShiftOf (word header 0)) result

/-- The walk itself, by the control word. -/
def follow (block : Word) : Step (Format × Mapped) := do
  if block &&& 0x80000000 = 0 then do
    lift (checkSpan q q.offset q.bytes)
    pure (.physical, ⟨⟨q.offset, q.bytes⟩, 0⟩)
  else do
    let m ← virtual vram q reader ((block &&& 0xfffffff).toNat <<< 12)
    pure (.v2, m)

/-- The reads of `finish`. -/
def recheck : List Entry → Step Unit
  | [] => pure ()
  | entry :: rest => do
    let value ← access vram q reader entry.address entry.bytes
    failIf (entry.value ≠ value) .Unstable
    recheck rest

/-- The checks of a request. -/
def Request.check : Except Fault Unit :=
  match q.chip with
  | none => .error .Profile
  | some chip =>
    if ¬ Gsp.ga102Hal chip ∨ q.epoch = 0 ∨ q.deadline = 0 ∨ q.deadline = 2 ^ 64 - 1 then .error .Profile
    else if (q.bar.kind ≠ .memory32 ∧ q.bar.kind ≠ .memory64) ∨ q.bar.prefetchable = false ∨
        q.bar.base = 0 ∨ q.bar.bytes = 0 ∨ q.bar.base % 4096 ≠ 0 ∨ q.bar.bytes % 4096 ≠ 0 ∨
        q.bar.base > 2 ^ 64 - 1 - q.bar.bytes ∨ q.cpuPhysical < q.bar.base ∨ q.bytes = 0 ∨
        q.framebufferBytes = 0 ∨ q.framebufferBytes > 2 ^ 40 then .error .Bounds
    else if q.offset ≥ q.bar.bytes ∨ q.bytes > q.bar.bytes - q.offset then .error .Bounds
    else .ok ()

def walk : Step Report := do
  let control ← controls q reader
  failIf (control.block &&& 0x70000000 ≠ 0) .Aperture
  let found ← follow vram q reader control.block
  let w ← get
  recheck vram q reader w.entries
  let again ← controls q reader
  failIf (control ≠ again) .Unstable
  pure ⟨control, found.1, q.offset, found.2.span, found.2.leafShift, w.entries⟩

/-- A walk of its own begins without entries, where the reader has got to. -/
def resolve : Step Report := do
  lift q.check
  modify fun w => { w with previous := 0, entries := [] }
  walk vram q reader

end

/-! ## The translation of the memory unit -/

section

variable (vram : Nat → Byte)

def wordAt (address : Nat) : Nat := number (content vram address 8) 0 8

/-- The table that an invalid entry in video memory points to. -/
def nextTable (raw : Nat) (big : Bool) : Option Nat :=
  if raw &&& 1 = 0 ∧ raw >>> 1 &&& 3 = 1 then some ((raw &&& tableMask big) <<< 4) else none

inductive Lookup where
  | leaf (address : Nat)
  | sparse
  | absent
  deriving DecidableEq, Repr

/-- The entry for an address in one of the two lowest tables. -/
def lookup (base : Option Nat) (shift va : Nat) : Lookup :=
  match base with
  | none => .absent
  | some base =>
    let raw := wordAt vram (base + (va % 2 ^ 21 / 2 ^ shift) * 8)
    if raw &&& 1 ≠ 0 then .leaf (leafAddress raw + va % 2 ^ shift)
    else if raw &&& 8 ≠ 0 then .sparse
    else .absent

/-- The dual entry: a 2-MB leaf, else the table of big pages, else that of small ones. -/
def translateLow (bigShift table va : Nat) : Option Nat :=
  let at_ := table + va / 2 ^ 21 % 256 * 16
  let big := wordAt vram at_
  let small := wordAt vram (at_ + 8)
  if big &&& 1 ≠ 0 then some (leafAddress big + va % 2 ^ 21)
  else
    match lookup vram (nextTable big true) bigShift va with
    | .leaf address => some address
    | .sparse => none
    | .absent =>
      match lookup vram (nextTable small false) 12 va with
      | .leaf address => some address
      | .sparse | .absent => none

/-- The four levels of a GMMU-v2 table. -/
def translate (root bigShift va : Nat) : Option Nat := do
  let pd2 ← nextTable (wordAt vram (root + va / 2 ^ 47 % 4 * 8)) false
  let pd1 ← nextTable (wordAt vram (pd2 + va / 2 ^ 38 % 512 * 8)) false
  let raw := wordAt vram (pd1 + va / 2 ^ 29 % 512 * 8)
  if raw &&& 1 ≠ 0 then some (leafAddress raw + va % 2 ^ 29)
  else do
    let pd0 ← nextTable raw false
    translateLow vram bigShift pd0 va

/-- What BAR1 shows at an offset. -/
def gmmu (block : Word) (va : Nat) : Option Nat :=
  if block &&& 0x80000000 = 0 then some va
  else
    let header := wordAt vram ((block &&& 0xfffffff).toNat <<< 12 + 0x200)
    translate vram (rootOf header) (bigShiftOf header) va

end

end Bar1
end NvidiaGsp
