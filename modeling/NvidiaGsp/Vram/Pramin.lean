import NvidiaGsp.Falcon.Run
import NvidiaGsp.Lib.Memory

/-!
# Vram.Pramin

The capture of a VRAM range through the PRAMIN window (`pramin.zig`). Every access asks the
surroundings: another owner of the device may change the window before any of them.
-/

namespace NvidiaGsp
namespace Pramin

open Call

inductive Error where
  | Profile | Options | Stale | Clock | Deadline | Unstable | Inaccessible | Destination | State
  | Access | Retain
  deriving DecidableEq, Repr

def windowRegister : Nat := 0x1700
def vgaRegister : Nat := 0x625f04
def aperture : Nat := 0x700000
def apertureBytes : Nat := 0x100000
def windowMask : Word := 0x03ffffff
def maxU64 : Nat := 2 ^ 64 - 1

structure Range where
  address : Nat
  bytes : Nat

structure Options where
  epoch : Nat
  deadline : Nat
  boot0 : Word
  boot1 : Word
  vga : Word
  range : Range

inductive Phase where
  | observe | retain | select | copy | restore | done
  deriving DecidableEq, Repr

structure Capture where
  options : Options
  phase : Phase := .observe
  original : Option Word := none
  selected : Word := 0
  copied : Nat := 0
  effectsPossible : Bool := false
  restored : Bool := false
  failure : Option Error := none
  selfAddress : Nat := 0
  outputAddress : Nat := 0
  previousClock : Nat := 0

/-- `identity.chip`, as far as the capture asks: a known chip of the supported generation. -/
def supported (boot0 boot1 : Word) : Bool :=
  boot0 != 0 && boot0 != 0xffffffff && boot1 != 0xffffffff && boot1 &&& 0x30100 == 0 &&
    Gsp.ga102Hal (Falcon.bootId boot0)

def init (options : Options) : Except Error Capture :=
  let range := options.range
  if ¬ supported options.boot0 options.boot1 then .error .Profile
  else if options.epoch = 0 ∨ options.deadline = 0 ∨ options.deadline = maxU64 ∨
      ¬ Falcon.Run.readable options.vga ∨ options.vga &&& 8 = 0 ∨
      range.address ≠ (options.vga >>> 8).toNat * 2 ^ 16 ∨ range.address ≥ 2 ^ 40 ∨
      range.bytes = 0 ∨ range.bytes > apertureBytes ∨ range.bytes % 4 ≠ 0 ∨
      range.address > 2 ^ 40 - range.bytes then .error .Options
  else .ok { options := options }

/-! ## Accesses -/

/-- An access, the last one first; a write says whether `step` made it. -/
inductive Event where
  | read (offset : Nat) (value : Option Word)
  | write (byStep : Bool) (offset : Nat) (value : Word)
  | retain
  deriving DecidableEq

/-- What the surroundings answer, by how many times they were asked. -/
structure Port where
  generation : Nat → Nat
  now : Nat → Nat
  retain : Nat → Bool
  read : Nat → Nat → Option Word
  write : Nat → Bool

structure State where
  capture : Capture
  output : Memory
  events : List Event := []
  tick : Nat := 0

abbrev Step (α : Type) := Call Error State α

section

variable (port : Port)

/-- `guard`: the object has not moved, its epoch is current, and the time is not over. -/
def guard (me deadline : Nat) : Step Unit := do
  let s ← get
  failIf (s.capture.selfAddress ≠ me ∨ port.generation s.tick ≠ s.capture.options.epoch) .Stale
  let now := port.now s.tick
  failIf (now = 0 ∨ now = maxU64 ∨ now < s.capture.previousClock) .Clock
  set { s with capture := { s.capture with previousClock := now }, tick := s.tick + 1 }
  failIf (deadline = maxU64 ∨ now ≥ deadline) .Deadline

def read32 (offset : Nat) : Step Word := do
  let s ← get
  set { s with events := .read offset (port.read s.tick offset) :: s.events, tick := s.tick + 1 }
  need (port.read s.tick offset) .Access

def write32 (byStep : Bool) (offset : Nat) (value : Word) : Step Unit := do
  let s ← get
  set { s with events := .write byStep offset value :: s.events, tick := s.tick + 1 }
  failIf (port.write s.tick = false) .Access

def retain : Step Unit := do
  let s ← get
  set { s with events := .retain :: s.events, tick := s.tick + 1 }
  failIf (port.retain s.tick = false) .Retain

def identityMatches : Step Unit := do
  let s ← get
  let boot0 ← read32 port 0
  failIf (boot0 ≠ s.capture.options.boot0) .Unstable
  let boot1 ← read32 port 4
  failIf (boot1 ≠ s.capture.options.boot1) .Unstable
  let vga ← read32 port vgaRegister
  failIf (vga ≠ s.capture.options.vga) .Unstable

def currentWindow : Step Word := do
  let value ← read32 port windowRegister
  failIf (¬ Falcon.Run.readable value ∨ (value >>> 24) &&& 3 = 1) .Inaccessible
  return value

/-! ## The phases -/

/-- The window value that shows the range. -/
def choose (original : Word) (address : Nat) : Word :=
  (original &&& ~~~ windowMask) ||| BitVec.ofNat 32 (address / 2 ^ 16)

def update (f : Capture → Capture) : Step Unit :=
  modify fun s => { s with capture := f s.capture }

def observe : Step Unit := do
  identityMatches port
  let value ← currentWindow port
  let again ← currentWindow port
  failIf (again ≠ value) .Unstable
  update fun c => { c with
    original := some value
    selected := choose value c.options.range.address
    phase := .retain }

/-- The write of the window, if another one is to be shown. -/
def selecting (original : Word) : Step Unit := do
  let s ← get
  if s.capture.selected ≠ original then do
    update fun c => { c with effectsPossible := true }
    write32 port true windowRegister s.capture.selected
  else pure ()

def select : Step Unit := do
  identityMatches port
  let value ← currentWindow port
  let s ← get
  let original ← need s.capture.original .State
  failIf (value ≠ original) .Unstable
  selecting port original
  let again ← currentWindow port
  let s ← get
  failIf (again ≠ s.capture.selected) .Unstable
  update fun c => { c with phase := .copy }

/-- One word of the aperture. -/
def copyWord : Step Unit := do
  let s ← get
  let value ← read32 port (aperture + s.capture.copied)
  modify fun s => { s with
    output := s.output.poke s.capture.copied (Bytes.le32 value)
    capture := { s.capture with copied := s.capture.copied + 4 } }

/-- The loop of one block; a block has at most 1024 words. -/
def copyWords (finish : Nat) : Nat → Step Unit
  | 0 => pure ()
  | n + 1 => do
    let s ← get
    if s.capture.copied = finish then pure ()
    else do
      copyWord port
      copyWords finish n

def copy : Step Unit := do
  identityMatches port
  let value ← currentWindow port
  let s ← get
  failIf (value ≠ s.capture.selected) .Unstable
  copyWords port (min (s.capture.copied + 4096) s.capture.options.range.bytes) 1024
  let again ← currentWindow port
  failIf (again ≠ s.capture.selected) .Unstable
  update fun c => { c with
    phase := if c.copied = c.options.range.bytes then .restore else c.phase }

/-- The write of the original window value over the selected one. -/
def writeBack (byStep : Bool) (original current : Word) : Step Unit := do
  let s ← get
  if current ≠ original then do
    failIf (¬ s.capture.effectsPossible ∨ s.capture.restored ∨ current ≠ s.capture.selected) .Unstable
    write32 port byStep windowRegister original
  else pure ()

/-- The window is put back, if it still is the selected one. -/
def putBack (byStep : Bool) : Step Unit := do
  let s ← get
  match s.capture.original with
  | some original => do
    let current ← currentWindow port
    writeBack port byStep original current
    let again ← currentWindow port
    failIf (again ≠ original) .Unstable
  | none => failIf s.capture.effectsPossible .State

/-- `restore`, called by `step` or on its own. -/
def restore (byStep : Bool) (me deadline : Nat) : Step Unit := do
  guard port me deadline
  identityMatches port
  putBack port byStep
  identityMatches port
  guard port me deadline
  update fun c => { c with restored := true }

/-- The body of one step. -/
def perform (me : Nat) : Step Unit := do
  let s ← get
  match s.capture.phase with
  | .observe => observe port
  | .retain => do
    retain port
    update fun c => { c with phase := .select }
  | .select => select port
  | .copy => copy port
  | .restore => do
    restore port true me s.capture.options.deadline
    update fun c => { c with phase := .done }
  | .done => pure ()

/-- A step of a capture that has not failed, into a destination of some length. -/
def advance (me output length : Nat) : Step Bool := do
  update fun c => if c.selfAddress = 0 then { c with selfAddress := me, outputAddress := output } else c
  let s ← get
  failIf (length ≠ s.capture.options.range.bytes ∨ output ≠ s.capture.outputAddress) .Destination
  guard port me s.capture.options.deadline
  perform port me
  guard port me s.capture.options.deadline
  let s ← get
  return s.capture.phase = .done

def step (me output length : Nat) : Step Bool := do
  let s ← get
  match s.capture.failure with
  | some e => throw e
  | none => marking (advance port me output length) fun e s =>
      { s with capture := { s.capture with failure := some e } }

/-! ## Runs -/

inductive Op where
  | step (me output length : Nat)
  | restore (me deadline : Nat)

/-- One call by the owner, whatever it returns. -/
def act (s : State) : Op → State
  | .step me output length => (outcome (step port me output length) s).2
  | .restore me deadline => (outcome (restore port false me deadline) s).2

def run (s : State) (ops : List Op) : State := ops.foldl (act port) s

end

end Pramin
end NvidiaGsp
