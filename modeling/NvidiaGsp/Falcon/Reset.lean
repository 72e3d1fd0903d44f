import NvidiaGsp.Falcon.Load

/-!
# Falcon.Reset

The engine reset (`gsp_core.zig`, the phases of `initReset`): assert and release the reset with ten
reads behind each edge, wait for the scrubber, select the Falcon core, and set the access policy.
The phases of the sequencer's other commands are not reached from `initReset`.
-/

namespace NvidiaGsp
namespace Falcon
namespace Reset

open Call

def propagationReads : Nat := 10
def preResetNs : Nat := 150 * 1000

namespace reg

def hwcfg2 : Nat := 0xf4
def rm : Nat := 0x84
def bcr : Nat := 0x1668

end reg

def resetReady : Word := 0x80000000
def scrubbing : Word := 0x1000
def riscvEnabled : Word := 0x400
def allowPhys : Word := 0x80
def bcrRiscv : Word := 0x10
def bcrValid : Word := 1

inductive Phase where
  | preReset | assertReset | propagateAssert | releaseReset | propagateRelease | scrub | selectCore
  | selectFalcon | waitFalcon | rm | fbif | dmactl | complete
  deriving DecidableEq, Repr

structure Operation where
  resetEngine : Engine
  epoch : Nat
  deadline : Nat
  boot0 : Word
  phase : Phase := .preReset
  lastClock : Nat := 0
  hintDeadline : Option Nat := none
  reads : Nat := 0
  writeAttempted : Bool := false
  coreSwitchWritten : Bool := false
  failure : Option Error := none
  deriving DecidableEq

/-- `initReset`. -/
def initReset (engine : Engine) (epoch deadline : Nat) (boot0 : Word) : Except Error Operation :=
  if epoch = 0 ∨ deadline = 0 ∨ deadline = maxU64 then .error .Options
  else if ¬ Gsp.ga102Hal (bootId boot0) then .error .Profile
  else .ok { resetEngine := engine, epoch := epoch, deadline := deadline, boot0 := boot0 }

structure State where
  operation : Operation
  device : Device

abbrev Step (α : Type) := Call Error State α

/-- An access of the operation. -/
def access {α : Type} (x : Access α) : Step α := do
  let s ← get
  failIf (s.operation.failure ≠ none) .State
  zoom (fun s : State => (⟨s.operation.epoch, s.operation.deadline, s.operation.lastClock,
      s.device⟩ : Session))
    (fun t s => { operation := { s.operation with lastClock := t.lastClock }, device := t.device })
    id x

section

variable (port : Port)

def read (offset : Nat) : Step Word := do
  let s ← get
  access (readAt port s.operation.resetEngine offset true)

def write (offset : Nat) (value : Word) : Step Unit := do
  access (check port)
  modify fun s => { s with operation := { s.operation with writeAttempted := true } }
  let s ← get
  access (put port s.operation.resetEngine offset value)

def setPhase (phase : Phase) : Step Unit :=
  modify fun s => { s with operation := { s.operation with phase := phase } }

/-- One more read behind an edge of the reset. -/
def propagate (next : Phase) : Step Unit := do
  let _ ← read port reg.engine
  modify fun s => { s with operation := { s.operation with reads := s.operation.reads + 1 } }
  let s ← get
  if s.operation.reads = propagationReads then setPhase next else pure ()

/-- An edge of the reset. -/
def edge (value : Word → Word) (next : Phase) : Step Unit := do
  let word ← read port reg.engine
  write port reg.engine (value word)
  modify fun s => { s with operation := { s.operation with reads := 0, phase := next } }

/-- The body of one step. -/
def perform : Step Unit := do
  let s ← get
  match s.operation.phase with
  | .preReset => do
    modify fun s => { s with operation := { s.operation with
      hintDeadline := s.operation.hintDeadline.or (some (s.operation.lastClock +
        min preResetNs (s.operation.deadline - s.operation.lastClock))) } }
    let value ← read port reg.hwcfg2
    let s ← get
    if value &&& resetReady ≠ 0 ∨ s.operation.hintDeadline.all (· ≤ s.operation.lastClock) then
      setPhase .assertReset
    else pure ()
  | .assertReset => edge port (· ||| bits.reset) .propagateAssert
  | .propagateAssert => propagate port .releaseReset
  | .releaseReset => edge port (· &&& ~~~ bits.reset) .propagateRelease
  | .propagateRelease => propagate port .scrub
  | .scrub => do
    let value ← read port reg.hwcfg2
    if value &&& scrubbing = 0 then setPhase .selectCore else pure ()
  | .selectCore => do
    let value ← read port reg.hwcfg2
    setPhase (if value &&& riscvEnabled = 0 then .rm else .selectFalcon)
  | .selectFalcon => do
    let value ← read port reg.bcr
    if value &&& bcrRiscv = 0 then setPhase .rm
    else do
      modify fun s => { s with operation := { s.operation with coreSwitchWritten := true } }
      write port reg.bcr 0
      setPhase .waitFalcon
  | .waitFalcon => do
    let value ← read port reg.bcr
    if value &&& bcrValid ≠ 0 then setPhase .rm else pure ()
  | .rm => do
    write port reg.rm s.operation.boot0
    setPhase .fbif
  | .fbif => do
    let value ← read port reg.fbifControl
    write port reg.fbifControl (value ||| allowPhys)
    setPhase .dmactl
  | .dmactl => do
    write port reg.dmaControl 0
    setPhase .complete
  | .complete => pure ()

def advance : Step Bool := do
  access (check port)
  perform port
  access (check port)
  let s ← get
  return s.operation.phase = .complete

def step : Step Bool := do
  let s ← get
  failIf (s.operation.failure ≠ none) .State
  if s.operation.phase = .complete then return true
  else
    recording (advance port) fun e s => { s with operation := { s.operation with failure := some e } }

end

end Reset
end Falcon
end NvidiaGsp
