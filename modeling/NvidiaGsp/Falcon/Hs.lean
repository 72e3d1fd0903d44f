import NvidiaGsp.Falcon.Load

/-!
# Falcon.Hs

One secure upload and start (`falcon_hs.zig`): both memories are filled block by block through the
DMA engine, the signature parameters are written, the CPU is started, and its halt is awaited. One
phase a call.
-/

namespace NvidiaGsp
namespace Falcon
namespace Hs

open Call

def physicalNoContext : Word := 0x80
def transcfgMask : Word := 7
def coherentPhysical : Word := 5
def rsa3k : Word := 1

inductive Phase where
  | admission | fbifControl | dmaControl | transcfg | baseWait | baseLow | baseHigh | blockWait
  | destination | sourceOffset | command | idle | signature | engineMask | ucode | algorithm
  | bootVector | mailbox0 | mailbox1 | start | halt | result0 | result1 | complete
  deriving DecidableEq, Repr

/-- Which memory is being filled. -/
inductive Part where
  | imem | dmem
  deriving DecidableEq, Repr

/-- `Result`. -/
structure Result where
  mailboxes : Option Word × Option Word := (none, none)
  blocks : Nat := 0
  deriving DecidableEq

structure Operation where
  options : Options
  phase : Phase := .admission
  part : Part := .imem
  transferred : Nat := 0
  result : Result := {}
  lastClock : Nat := 0
  failure : Option Error := none
  deriving DecidableEq

/-- `Operation.init`. -/
def init (options : Options) : Except Error Operation := do
  validate options
  return { options := options }

def Operation.transfer (o : Operation) : Transfer :=
  match o.part with
  | .imem => o.options.plan.imem
  | .dmem => o.options.plan.dmem

/-- The operation on its device, with its caller, whom the admission asks. -/
structure State (τ : Type) where
  operation : Operation
  device : Device
  caller : τ

variable {τ : Type}

abbrev Step (τ α : Type) := Call Error (State τ) α

/-- An access of the operation. -/
def access {α : Type} (x : Access α) : Step τ α := do
  let s ← get
  failIf (s.operation.failure ≠ none) .State
  zoom (fun s : State τ => (⟨s.operation.options.epoch, s.operation.options.deadline,
      s.operation.lastClock, s.device⟩ : Session))
    (fun t s => { s with
      operation := { s.operation with lastClock := t.lastClock }
      device := t.device })
    id x

def setPhase (phase : Phase) : Step τ Unit :=
  modify fun s => { s with operation := { s.operation with phase := phase } }

section

variable (port : Port) (asks : Options → Call Error (Device × τ) Unit)

def read (offset : Nat) (control : Bool) : Step τ Word := do
  let s ← get
  access (readAt port s.operation.options.engine offset control)

def write (offset : Nat) (value : Word) : Step τ Unit := do
  let s ← get
  access (writeAt port s.operation.options.engine offset value)

/-- A phase that writes one register. -/
def writing (offset : Nat) (value : Word) (next : Phase) : Step τ Unit := do
  write port offset value
  setPhase next

/-- A phase that samples one register until it shows what is awaited. -/
def awaiting (offset : Nat) (shown : Word → Bool) (next : Step τ Unit) : Step τ Unit := do
  let value ← read port offset true
  if shown value then next else pure ()

/-- A phase that writes a mailbox the caller asks for. -/
def mailing (offset : Nat) (value : Option Word) (next : Phase) : Step τ Unit := do
  match value with
  | some value => write port offset value
  | none => pure ()
  setPhase next

/-- The block that was just commanded. -/
def Operation.advanceBlock (o : Operation) : Operation :=
  { o with
    transferred := o.transferred + 256
    result := { o.result with blocks := o.result.blocks + 1 }
    phase := if o.transferred + 256 = o.transfer.bytes then .idle else .blockWait }

/-- The part that was just seen idle. -/
def Operation.advancePart (o : Operation) : Operation :=
  match o.part with
  | .imem => { o with part := .dmem, transferred := 0, phase := .baseWait }
  | .dmem => { o with phase := .signature }

/-- The body of one step. -/
def perform : Step τ Unit := do
  let s ← get
  let o := s.operation
  let plan := o.options.plan
  let part := o.transfer
  match o.phase with
  | .admission => do
    lift (validate o.options)
    zoom (fun s : State τ => (s.device, s.caller))
      (fun t s => { s with device := t.1, caller := t.2 }) id (asks o.options)
    setPhase .fbifControl
  | .fbifControl => do
    let value ← read port reg.fbifControl true
    writing port reg.fbifControl (value ||| physicalNoContext) .dmaControl
  | .dmaControl => writing port reg.dmaControl 0 .transcfg
  | .transcfg => do
    let value ← read port reg.transcfg true
    writing port reg.transcfg ((value &&& ~~~ transcfgMask) ||| coherentPhysical) .baseWait
  | .baseWait =>
    awaiting port reg.dmaCommand (fun value => value &&& bits.full = 0) (setPhase .baseLow)
  | .baseLow => writing port reg.dmaBase (BitVec.ofNat 32 (part.base >>> 8)) .baseHigh
  | .baseHigh =>
    writing port reg.dmaBaseHigh (BitVec.ofNat 32 (part.base >>> 40 &&& 0x1ff)) .blockWait
  | .blockWait =>
    awaiting port reg.dmaCommand (fun value => value &&& bits.full = 0) (setPhase .destination)
  | .destination =>
    writing port reg.dmaDestination (BitVec.ofNat 32 (part.destination + o.transferred))
      .sourceOffset
  | .sourceOffset =>
    writing port reg.dmaSourceOffset (BitVec.ofNat 32 (part.sourceOffset + o.transferred)) .command
  | .command => do
    write port reg.dmaCommand part.command
    modify fun s => { s with operation := s.operation.advanceBlock }
  | .idle =>
    awaiting port reg.dmaCommand (fun value => value &&& bits.idle ≠ 0)
      (modify fun s => { s with operation := s.operation.advancePart })
  | .signature =>
    writing port reg.signature (BitVec.ofNat 32 plan.signatureAddress) .engineMask
  | .engineMask => writing port reg.engineMask (BitVec.ofNat 32 plan.engineMask) .ucode
  | .ucode => writing port reg.ucode (BitVec.ofNat 32 plan.ucodeId) .algorithm
  | .algorithm => writing port reg.algorithm rsa3k .bootVector
  | .bootVector => writing port reg.bootVector (BitVec.ofNat 32 plan.bootVector) .mailbox0
  | .mailbox0 => mailing port reg.mailbox0 o.options.mailboxes.1 .mailbox1
  | .mailbox1 => mailing port reg.mailbox1 o.options.mailboxes.2 .start
  | .start => do
    let value ← read port reg.cpuControl true
    writing port (if value &&& bits.cpuAlias ≠ 0 then reg.cpuAlias else reg.cpuControl) bits.cpuStart
      .halt
  | .halt =>
    awaiting port reg.cpuControl (fun value => value &&& bits.cpuHalted ≠ 0) (setPhase .result0)
  | .result0 =>
    if o.options.mailboxes.1.isSome then do
      let value ← read port reg.mailbox0 false
      modify fun s => { s with operation := { s.operation with
        result := { s.operation.result with mailboxes := (some value, s.operation.result.mailboxes.2) }
        phase := .result1 } }
    else setPhase .result1
  | .result1 =>
    if o.options.mailboxes.2.isSome then do
      let value ← read port reg.mailbox1 false
      modify fun s => { s with operation := { s.operation with
        result := { s.operation.result with mailboxes := (s.operation.result.mailboxes.1, some value) }
        phase := .complete } }
    else setPhase .complete
  | .complete => pure ()

def advance : Step τ Bool := do
  access (check port)
  perform port asks
  access (check port)
  let s ← get
  return s.operation.phase = .complete

def step : Step τ Bool :=
  recording (advance port asks) fun e s =>
    { s with operation := { s.operation with failure := some e } }

end

end Hs
end Falcon
end NvidiaGsp
