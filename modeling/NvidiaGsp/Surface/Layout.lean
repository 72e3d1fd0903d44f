import NvidiaGsp.Lib.Parse
import NvidiaGsp.Lib.Rounding

/-!
# Surface.Layout

The storage geometry of surfaces (`gsp_surface_layout.zig`): planes with padded pitches and rows, and
the two validations that derive a plan again and compare. Of the buffer descriptor, which the
operating system's interface defines, there are the fields that the geometry sets. `arrange` is
`geometry` before it looks at the limit.
-/

namespace NvidiaGsp
namespace Surface

open Parse Rounding

inductive Error where
  | Bounds | Unsupported | Stale | Descriptor
  deriving DecidableEq, Repr

def alignment : Nat := 65536

inductive Format where
  | xrgb8888 | argb8888 | xrgb2101010 | argb2101010 | abgr16161616f | r8 | nv12 | p010
  deriving DecidableEq, Repr

def Format.code : Format → Nat
  | .xrgb8888 => 0x34325258
  | .argb8888 => 0x34325241
  | .xrgb2101010 => 0x30335258
  | .argb2101010 => 0x30335241
  | .abgr16161616f => 0x48344241
  | .r8 => 0x20203852
  | .nv12 => 0x3231564e
  | .p010 => 0x30313050

def Format.multi (f : Format) : Bool := f == .nv12 || f == .p010

def Format.sampleBytes : Format → Nat
  | .xrgb8888 | .argb8888 | .xrgb2101010 | .argb2101010 => 4
  | .abgr16161616f => 8
  | .p010 => 2
  | .r8 | .nv12 => 1

inductive Layout where
  | linear | blocklinear
  deriving DecidableEq, Repr

structure Request where
  width : BitVec 32
  height : BitVec 32
  format : Format := .xrgb8888
  usage : BitVec 32 := 12
  layout : Layout := .linear
  blockHeight : Option (BitVec 8) := none
  deriving DecidableEq, Repr

/-! ## What a plan is bound to -/

structure Binding where
  epoch : Nat
  client : Nat
  device : Nat
  deriving DecidableEq, Repr

/-- `memory_caps.Info`. -/
structure Caps where
  binding : Binding
  raw : BitVec 8 × BitVec 8 × BitVec 8
  deriving DecidableEq, Repr

def Caps.blocklinear (c : Caps) : Bool := c.raw.1 &&& 2 ≠ 0

def Caps.gobBytes (c : Caps) : Nat := if c.blocklinear ∧ c.raw.2.1 &&& 1 ≠ 0 then 512 else 0

def Caps.genericPageKind (c : Caps) : Nat := if c.raw.2.1 &&& 0x80 ≠ 0 then 0x06 else 0xfe

/-- `vaspace.Info`, as far as plans read it. -/
structure Space where
  epoch : Nat
  client : Nat
  device : Nat
  bytes : Nat

inductive Location where
  | deviceLocal
  | other (code : Nat)
  deriving DecidableEq, Repr

structure Descriptor where
  byteLength : Nat := 0
  alignment : Nat := 0
  modifier : Nat := 0
  width : BitVec 32 := 0
  height : BitVec 32 := 0
  format : Nat := 0
  planeCount : Nat := 0
  usage : BitVec 32 := 0
  location : Location := .deviceLocal
  adapterId : Nat := 0
  deviceGeneration : Nat := 0
  planeOffsets : List Nat := [0, 0, 0, 0]
  planePitches : List Nat := [0, 0, 0, 0]
  deriving DecidableEq, Repr

structure Plan where
  descriptor : Descriptor
  allocationBytes : Nat
  request : Option Request := none
  caps : Option Caps := none
  rawAlignment : Nat := alignment
  privileged : Bool := false
  readonly : Bool := false
  log2Gobs : Nat := 0
  planeBytes : List Nat := [0, 0, 0, 0]
  paddedRows : List Nat := [0, 0, 0, 0]
  deriving DecidableEq, Repr

/-! ## The geometry -/

/-- A sum or a product of `u64` that is checked by hand. -/
def within64 (value : Nat) : Parse Error Nat := do
  reject (value ≥ 2 ^ 64) .Bounds
  pure value

@[irreducible] def alignUp (value granule : Nat) : Parse Error Nat := do
  let top ← within64 (value + (granule - 1))
  pure (down top granule)

/-- The first loop of `automaticBlockHeight`. -/
def lowerTo (limit : Nat) : Nat → Nat
  | 0 => 0
  | log2 + 1 => if 8 * 2 ^ (log2 + 1) > limit then lowerTo limit log2 else log2 + 1

/-- The second loop of `automaticBlockHeight`. -/
def lowerBelow (height : Nat) : Nat → Nat → Nat
  | 0, _ => 0
  | log2 + 1, proposed =>
    if proposed ≥ height then lowerBelow height log2 (proposed / 2) else log2 + 1

def automaticBlockHeight (height : Nat) : Nat :=
  let log2 := lowerTo (height + height / 2) 4
  lowerBelow height log2 (8 * 2 ^ (log2 - 1))

def modifier (caps : Caps) (log2 : Nat) : Parse Error Nat := do
  reject (¬ caps.blocklinear ∨ caps.gobBytes ≠ 512 ∨ log2 > 5) .Unsupported
  let kind := caps.genericPageKind
  let generation := if kind = 6 then 2 else 0
  pure (3 <<< 56 ||| 0x10 ||| log2 ||| kind <<< 12 ||| generation <<< 20 ||| 1 <<< 22)

def Request.chromaRows (r : Request) : Nat := (r.height.toNat + 1) / 2

/-- The samples in a row of a plane; chroma samples come in pairs. -/
def Request.columns (r : Request) (index : Nat) : Nat :=
  if r.format.multi ∧ index = 1 then (r.width.toNat + 1) / 2 * 2 else r.width.toNat

def Request.rows (r : Request) (index : Nat) : Nat :=
  if r.format.multi ∧ index = 1 then r.chromaRows else r.height.toNat

def Request.planes (r : Request) : Nat := if r.format.multi then 2 else 1

/-- The checks before anything is computed. -/
def Request.check (r : Request) : Parse Error Unit := do
  reject (r.width = 0 ∨ r.height = 0 ∨ r.usage = 0 ∨ r.usage &&& ~~~60 ≠ 0) .Descriptor
  reject (r.usage &&& 32 ≠ 0 ∧ ((r.format.multi ∧ (r.width &&& 1 ≠ 0 ∨ r.height &&& 1 ≠ 0)) ∨
    r.format = .r8)) .Unsupported
  reject (r.usage &&& 32 ≠ 0 ∧ r.format = .abgr16161616f) .Unsupported
  reject (r.layout = .linear ∧ r.blockHeight ≠ none) .Descriptor

/-- The block height that is asked for, or the automatic one. -/
def Request.log2 (r : Request) : Parse Error Nat :=
  if r.layout = .blocklinear then
    match r.blockHeight with
    | some height => pure height.toNat
    | none => do
      let rows ← cast 32 (if r.format.multi then r.chromaRows else r.height.toNat)
      pure (automaticBlockHeight rows)
  else pure 0

def Request.modifier (r : Request) (caps : Caps) (log2 : Nat) : Parse Error Nat :=
  if r.layout = .blocklinear then Surface.modifier caps log2 else pure 0

structure Plane where
  offset : Nat
  pitch : Nat
  bytes : Nat
  rows : Nat

/-- What the rows of a plane are padded to. -/
def rowGranule (mod log2 : Nat) : Parse Error Nat :=
  if mod = 0 then pure 1
  else do
    let shift ← cast 6 log2
    pure (8 * 2 ^ shift)

def pitchGranule (mod : Nat) : Nat := if mod = 0 then 256 else 64

/-- One turn of the loop over the planes, behind those that end at `stop`. -/
def Request.plane (r : Request) (mod log2 index stop : Nat) : Parse Error Plane := do
  let row ← within64 (r.columns index * r.format.sampleBytes)
  let pitch ← alignUp row (pitchGranule mod)
  let granule ← rowGranule mod log2
  let rows ← alignUp (r.rows index) granule
  reject (pitch > 2 ^ 32 - 1 ∨ rows > 2 ^ 32 - 1) .Bounds
  let size ← within64 (pitch * rows)
  let offset ← alignUp stop alignment
  let _ ← within64 (offset + size)
  pure ⟨offset, pitch, size, rows⟩

def Plane.stop (p : Plane) : Nat := p.offset + p.bytes

/-- All planes, the first of them at `index`. -/
def Request.planesFrom (r : Request) (mod log2 : Nat) : Nat → Nat → Nat → Parse Error (List Plane)
  | 0, _, _ => pure []
  | n + 1, index, stop => do
    let p ← r.plane mod log2 index stop
    let rest ← r.planesFrom mod log2 n (index + 1) p.stop
    pure (p :: rest)

/-- A column of the planes, as an array of four. -/
def column (f : Plane → Nat) (planes : List Plane) : List Nat :=
  (planes.map f ++ List.replicate 4 0).take 4

def lastStop : List Plane → Nat → Nat
  | [], stop => stop
  | p :: rest, _ => lastStop rest p.stop

def arrange (adapter epoch : Nat) (caps : Caps) (r : Request) : Parse Error Plan := do
  r.check
  let log2 ← r.log2
  let mod ← r.modifier caps log2
  let planes ← r.planesFrom mod log2 r.planes 0 0
  let allocation ← alignUp (lastStop planes 0) alignment
  pure {
    descriptor := {
      byteLength := allocation
      alignment := alignment
      modifier := mod
      width := r.width
      height := r.height
      format := r.format.code
      planeCount := r.planes
      usage := r.usage
      location := .deviceLocal
      adapterId := adapter
      deviceGeneration := epoch
      planeOffsets := column Plane.offset planes
      planePitches := column Plane.pitch planes }
    allocationBytes := allocation
    request := some r
    caps := some caps
    log2Gobs := log2
    planeBytes := column Plane.bytes planes
    paddedRows := column Plane.rows planes }

def geometry (adapter epoch limit : Nat) (caps : Caps) (r : Request) : Parse Error Plan := do
  let plan ← arrange adapter epoch caps r
  reject (plan.allocationBytes > limit) .Bounds
  pure plan

/-! ## Creation and validation -/

def create (adapter : Nat) (space : Space) (caps : Caps) (r : Request) : Parse Error Plan := do
  reject (adapter = 0 ∨ space.epoch = 0 ∨ caps.binding.epoch ≠ space.epoch ∨
    caps.binding.client ≠ space.client ∨ caps.binding.device ≠ space.device) .Stale
  geometry adapter space.epoch space.bytes caps r

def rawPrivate (adapter : Nat) (space : Space) (bytes granule : Nat) (privileged readonly : Bool) :
    Parse Error Plan := do
  reject (adapter = 0 ∨ space.epoch = 0) .Stale
  reject (bytes = 0 ∨ granule < alignment ∨ granule > 2 ^ 30 ∨ granule &&& (granule - 1) ≠ 0 ∨
    (readonly ∧ ¬ privileged)) .Bounds
  let rounded ← alignUp bytes granule
  reject (rounded > space.bytes) .Bounds
  pure {
    descriptor := {
      byteLength := bytes
      alignment := granule
      usage := 12
      location := .deviceLocal
      adapterId := adapter
      deviceGeneration := space.epoch }
    allocationBytes := rounded
    rawAlignment := granule
    privileged := privileged
    readonly := readonly }

/-- The plan that a plan claims to be. -/
def Plan.expected (plan : Plan) (adapter : Nat) (space : Space) : Parse Error Plan :=
  match plan.request with
  | some r => do
    let caps ← need plan.caps .Descriptor
    create adapter space caps r
  | none => rawPrivate adapter space plan.descriptor.byteLength plan.rawAlignment plan.privileged
      plan.readonly

def Plan.validate (plan : Plan) (adapter : Nat) (space : Space) : Parse Error Unit := do
  let expected ← plan.expected adapter space
  reject (plan ≠ expected) .Descriptor

def Plan.validateView (plan : Plan) (adapter epoch : Nat) : Parse Error Unit := do
  let caps ← need plan.caps .Descriptor
  reject (adapter = 0 ∨ epoch = 0 ∨ caps.binding.epoch ≠ epoch) .Stale
  let r ← need plan.request .Descriptor
  let expected ← geometry adapter epoch plan.allocationBytes caps r
  reject (plan ≠ expected) .Descriptor

end Surface
end NvidiaGsp
