import NvidiaGsp.Falcon.Hs
import NvidiaGsp.Falcon.Reset

/-!
# Falcon.Run

One firmware execution (`falcon_run.zig`): the engine reset, the look at the actual memory sizes, the
upload and start, and what the purpose of the firmware asks for around it.
-/

namespace NvidiaGsp
namespace Falcon
namespace Run

open Call

def hwcfgOffset : Nat := 0x108
def maxTcmBytes : Nat := 0x1ff00
def pageBytes : Nat := 4096

/-- `fwsec_state.readable`. -/
def readable (value : Word) : Bool :=
  value != 0xffffffff && value &&& 0xffff0000 != 0xbadf0000

/-! ## The FWSEC result -/

namespace Fwsec

inductive Command where
  | sb
  | frts (offset : Nat)
  deriving DecidableEq

structure Report where
  command : Command
  raw : List Word
  deriving DecidableEq

structure Observer where
  command : Command
  raw : List Word := []
  failure : Option Error := none
  deriving DecidableEq

/-- `Observer.init`. -/
def init (command : Command) : Except Error Observer :=
  match command with
  | .sb => .ok { command := command }
  | .frts offset =>
    if offset = 0 ∨ offset % 4096 ≠ 0 ∨ offset > 2 ^ 40 - 0x100000 then .error .Address
    else .ok { command := command }

def frtsRegisters : List Nat := [0x1438, 0x1fa828, 0x1fa824]
def sbRegisters : List Nat := [0x118128, 0x118234, 0x1454]

def Observer.nextRegister (o : Observer) : Option Nat :=
  if o.failure ≠ none then none
  else
    match o.command with
    | .frts _ => frtsRegisters[o.raw.length]?
    | .sb => sbRegisters[o.raw.length]?

/-- What a raw observation breaks, by the command and how many came before it. -/
def refusal (command : Command) (index : Nat) (value : Word) : Option Error :=
  if ¬ readable value then some .RegisterUnavailable
  else
    match command, index with
    | .frts _, 0 => if value >>> 16 ≠ 0 then some .FrtsError else none
    | .frts _, 1 => if value >>> 4 = 0 then some .WprMissing else none
    | .frts offset, _ => if (value >>> 4).toNat ≠ offset >>> 12 then some .WprTarget else none
    | .sb, 0 => if value &&& 1 = 0 then some .SbProtection else none
    | .sb, 1 => if value &&& 0xff ≠ 0xff then some .SbProgress else none
    | .sb, _ => if value &&& 0xffff ≠ 0 then some .SbError else none

/-- `accept`: the observation is kept even when it breaks the check. -/
def Observer.accept (o : Observer) (value : Word) : Except Error Bool × Observer :=
  if o.nextRegister = none then (.error .State, o)
  else
    let seen := { o with raw := o.raw ++ [value] }
    match refusal o.command o.raw.length value with
    | some e => (.error e, { seen with failure := some e })
    | none => (.ok (seen.raw.length = 3), seen)

def Observer.report (o : Observer) : Except Error Report :=
  if o.failure ≠ none ∨ o.raw.length ≠ 3 then .error .State
  else .ok { command := o.command, raw := o.raw }

end Fwsec

/-! ## The Booter result -/

namespace Boot

inductive Command where
  | normalLoad (address : Nat)
  | normalUnload
  deriving DecidableEq

structure Report where
  command : Command
  skipped : Bool := false
  wprHiBefore : Option Word := none
  wprHiAfter : Option Word := none
  deriving DecidableEq

def arguments (command : Command) : Except Error (Option Word × Option Word) :=
  match command with
  | .normalLoad address =>
    if address = 0 ∨ address % pageBytes ≠ 0 ∨ address > dmaMask ∨
        pageBytes - 1 > dmaMask - address then .error .Address
    else .ok (some (BitVec.ofNat 32 address), some (BitVec.ofNat 32 (address >>> 32)))
  | .normalUnload => .ok (some 0xff, some 0xff)

def wprUp (value : Word) : Except Error Bool :=
  if ¬ readable value then .error .RegisterUnavailable else .ok (value >>> 4 ≠ 0)

def checkMailboxes (values : Option Word × Option Word) : Except Error Unit :=
  match values.1 with
  | none => .error .Mailbox
  | some code =>
    if values.2 = none then .error .Mailbox else if code ≠ 0 then .error .BooterError else .ok ()

end Boot

/-! ## The operation -/

structure Options where
  engine : Engine
  boot0 : Word
  epoch : Nat
  deadline : Nat
  plan : Plan
  mailboxes : Option Word × Option Word := (none, none)
  fwsec : Option Fwsec.Command := none
  booter : Option Boot.Command := none
  keepLogsSuspended : Bool := false

/-- The upload for the memory sizes a configuration word names. -/
def Options.upload (o : Options) (hwcfg : Word) : Falcon.Options where
  engine := o.engine
  boot0 := o.boot0
  epoch := o.epoch
  deadline := o.deadline
  plan := o.plan
  mailboxes := o.mailboxes
  imemCapacity := ((hwcfg &&& 0x1ff) <<< 8).toNat
  dmemCapacity := ((hwcfg &&& 0x3fe00) >>> 1).toNat

structure Result where
  mailboxes : Option Word × Option Word
  blocks : Nat
  fwsec : Option Fwsec.Report := none
  booter : Option Boot.Report := none

inductive Phase where
  | admission | booterPresence | suspendLogs | reset | hwcfg | status | engine | coreSelect
  | stableHwcfg | upload | fwsecResult | booterMailboxes | booterWpr | restoreLogs | complete
  deriving DecidableEq, Repr

structure Operation where
  options : Options
  reset : Reset.Operation
  hsOperation : Option Hs.Operation := none
  phase : Phase := .admission
  lastClock : Nat := 0
  hwcfg : Word := 0
  hwcfg2 : Word := 0
  haltResult : Option Hs.Result := none
  fwsecCheck : Option Fwsec.Observer := none
  booterReport : Option Boot.Report := none
  logsSuspended : Bool := false
  result : Option Result := none
  failure : Option Error := none

def initBooter (options : Options) : Except Error (Option Boot.Report) :=
  match options.booter with
  | none => .ok none
  | some command =>
    if options.engine ≠ .sec2 ∨ options.fwsec ≠ none then .error .Options
    else
      match Boot.arguments command with
      | .error e => .error e
      | .ok arguments =>
        if options.mailboxes ≠ arguments then .error .Options else .ok (some { command := command })

def initFwsec (options : Options) : Except Error (Option Fwsec.Observer) :=
  match options.fwsec with
  | none => .ok none
  | some command =>
    if options.engine ≠ .gsp ∨ options.mailboxes.1 ≠ none ∨ options.mailboxes.2 ≠ none then
      .error .Options
    else (Fwsec.init command).map some

/-- `Operation.init`. -/
def init (options : Options) : Except Error Operation := do
  if options.keepLogsSuspended ∧ options.booter ≠ some .normalUnload then .error .Options
  else do
    let booterReport ← initBooter options
    let fwsecCheck ← initFwsec options
    validate { options.upload 0x3ffff with imemCapacity := maxTcmBytes, dmemCapacity := maxTcmBytes }
    let reset ← Reset.initReset options.engine options.epoch options.deadline options.boot0
    return { options := options, fwsecCheck := fwsecCheck, booterReport := booterReport,
             reset := reset }

structure State where
  operation : Operation
  device : Device

abbrev Step (α : Type) := Call Error State α

/-- The checks of a purpose belong to the options. -/
def Operation.consistent (o : Operation) : Prop :=
  o.options.fwsec = o.fwsecCheck.map (·.command) ∧ o.options.booter = o.booterReport.map (·.command)

instance {o : Operation} : Decidable o.consistent := by
  unfold Operation.consistent
  infer_instance

/-- An access of the operation. -/
def access {α : Type} (x : Access α) : Step α := do
  let s ← get
  failIf (s.operation.failure ≠ none ∨ ¬ s.operation.consistent) .State
  zoom (fun s : State => (⟨s.operation.options.epoch, s.operation.options.deadline,
      s.operation.lastClock, s.device⟩ : Session))
    (fun t s => { operation := { s.operation with lastClock := t.lastClock }, device := t.device })
    id x

def update (f : Operation → Operation) : Step Unit :=
  modify fun s => { s with operation := f s.operation }

def setPhase (phase : Phase) : Step Unit := update fun o => { o with phase := phase }

section

variable (port : Port)

def read (offset : Nat) : Step Word := do
  let s ← get
  access (readAt port s.operation.options.engine offset true)

/-- A read of a register outside the engine: any word counts. -/
def observeAt : Access Word := do
  check port
  let s ← get
  set { s with device := s.device.arrive port }
  let value ← need (port.value s.device.tick) .Access
  check port
  return value

def observe : Step Word := access (observeAt port)

def logs (enable : Bool) : Step Unit := do
  access (check port)
  failIf (port.logPolling = false) .Logs
  update fun o => { o with logsSuspended := o.logsSuspended || !enable }
  access (callback port .Logs)
  update fun o => { o with logsSuspended := o.logsSuspended && !enable }
  access (check port)

/-- The log reader resumes, unless a teardown keeps it stopped. -/
def resumeLogs (keep : Bool) : Step Unit := if keep then pure () else logs port true

/-- `admitUpload`: the upload is that of this operation, behind its completed reset. -/
def admitUpload (options : Falcon.Options) : Call Error (Device × Operation) Unit := do
  zoom (fun x : Device × Operation => (⟨x.2, x.1⟩ : State)) (fun s _ => (s.device, s.operation)) id
    (access (check port))
  let x ← get
  let o := x.2
  failIf (o.phase ≠ .upload ∨ o.reset.phase ≠ .complete ∨ o.reset.failure ≠ none ∨
    ¬ o.reset.writeAttempted ∨ o.reset.resetEngine ≠ o.options.engine ∨
    o.reset.epoch ≠ options.epoch ∨ o.reset.deadline ≠ options.deadline ∨
    options ≠ o.options.upload o.hwcfg) .State

/-- One step of the reset. -/
def resetStep : Step Bool :=
  zoom (fun s : State => (⟨s.operation.reset, s.device⟩ : Reset.State))
    (fun t s => { operation := { s.operation with reset := t.operation }, device := t.device })
    id (Reset.step port)

/-- One step of the upload. -/
def uploadStep (operation : Hs.Operation) : Step Bool :=
  zoom (fun s : State => (⟨operation, s.device, s.operation⟩ : Hs.State Operation))
    (fun t _ => { operation := { t.caller with hsOperation := some t.operation }, device := t.device })
    id (Hs.step port (admitUpload port))

/-- What follows an upload that has completed. -/
def Operation.uploaded (o : Operation) (result : Hs.Result) : Operation :=
  let o := { o with haltResult := some result }
  if o.fwsecCheck.isSome then { o with phase := .fwsecResult }
  else if o.booterReport.isSome then { o with phase := .booterMailboxes }
  else { o with
    result := some { mailboxes := result.mailboxes, blocks := result.blocks }
    phase := .complete }

/-- The upload has completed without a failure. -/
def Operation.halted (o : Operation) : Prop :=
  o.haltResult ≠ none ∧
    o.hsOperation.any (fun h => h.phase = .complete ∧ h.failure = none) = true

instance {o : Operation} : Decidable o.halted := by
  unfold Operation.halted
  infer_instance

/-- One sample of the result FWSEC leaves. -/
def sampleFwsec : Step Unit := do
  let s ← get
  failIf (¬ s.operation.halted) .State
  let observer ← need s.operation.fwsecCheck .State
  let _ ← need observer.nextRegister .State
  let value ← observe port
  update fun o => { o with fwsecCheck := some (observer.accept value).2 }
  let done ← lift (observer.accept value).1
  if done then do
    let report ← lift (observer.accept value).2.report
    let result ← need s.operation.haltResult .State
    update fun o => { o with
      result := some { mailboxes := result.mailboxes, blocks := result.blocks, fwsec := some report }
      phase := .complete }
  else pure ()

/-- Whether Booter Unload has anything to unload. -/
def presence : Step Unit := do
  let value ← observe port
  update fun o => { o with
    booterReport := o.booterReport.map fun r => { r with wprHiBefore := some value } }
  let up ← lift (Boot.wprUp value)
  if up then setPhase .suspendLogs
  else update fun o =>
    let report := o.booterReport.map fun r => { r with skipped := true }
    { o with
      booterReport := report
      result := some { mailboxes := (none, none), blocks := 0, booter := report }
      phase := .complete }

def unloaded : Step Unit := do
  let value ← observe port
  update fun o => { o with
    booterReport := o.booterReport.map fun r => { r with wprHiAfter := some value } }
  let up ← lift (Boot.wprUp value)
  failIf (up = true) .WprStillUp
  setPhase .restoreLogs

/-- The body of one step. -/
def perform : Step Unit := do
  let s ← get
  let o := s.operation
  match o.phase with
  | .admission => do
    failIf (o.options.booter ≠ none ∧ port.logPolling = false) .Logs
    access (callback port .Admission)
    setPhase (match o.options.booter with
      | some .normalUnload => .booterPresence
      | some (.normalLoad _) => .suspendLogs
      | none => .reset)
  | .booterPresence => presence port
  | .suspendLogs => do
    logs port false
    setPhase .reset
  | .reset => do
    let done ← resetStep port
    if done then setPhase .hwcfg else pure ()
  | .hwcfg => do
    let value ← read port hwcfgOffset
    update fun o => { o with hwcfg := value, phase := .status }
  | .status => do
    let value ← read port Reset.reg.hwcfg2
    update fun o => { o with hwcfg2 := value }
    failIf (value &&& Reset.scrubbing ≠ 0) .EngineState
    setPhase .engine
  | .engine => do
    let value ← read port reg.engine
    failIf (value &&& bits.reset ≠ 0) .EngineState
    setPhase (if o.hwcfg2 &&& Reset.riscvEnabled = 0 then .stableHwcfg else .coreSelect)
  | .coreSelect => do
    let value ← read port Reset.reg.bcr
    failIf (value &&& Reset.bcrRiscv ≠ 0 ∨
      (o.reset.coreSwitchWritten ∧ value &&& Reset.bcrValid = 0)) .EngineState
    setPhase .stableHwcfg
  | .stableHwcfg => do
    let value ← read port hwcfgOffset
    failIf (value ≠ o.hwcfg) .Unstable
    let operation ← lift (Hs.init (o.options.upload o.hwcfg))
    update fun o => { o with hsOperation := some operation, phase := .upload }
  | .upload => do
    let operation ← need o.hsOperation .State
    let done ← uploadStep port operation
    if done then
      update fun o => match o.hsOperation with
        | some h => o.uploaded h.result
        | none => o
    else pure ()
  | .fwsecResult => sampleFwsec port
  | .booterMailboxes => do
    failIf (¬ o.logsSuspended ∨ ¬ o.halted) .State
    let result ← need o.haltResult .State
    lift (Boot.checkMailboxes result.mailboxes)
    setPhase (if o.options.booter = some .normalUnload then .booterWpr else .restoreLogs)
  | .booterWpr => unloaded port
  | .restoreLogs => do
    resumeLogs port o.options.keepLogsSuspended
    let result ← need o.haltResult .State
    update fun o => { o with
      result := some { mailboxes := result.mailboxes, blocks := result.blocks,
                       booter := o.booterReport }
      phase := .complete }
  | .complete => pure ()

def advance : Step Bool := do
  access (check port)
  perform port
  access (check port)
  let s ← get
  return s.operation.phase = .complete

def step : Step Bool :=
  recording (advance port) fun e s =>
    { s with operation := { s.operation with failure := some e, result := none } }

/-- The operation after a number of steps, whatever each of them returns. -/
def steps : Nat → State → State
  | 0, s => s
  | n + 1, s => (outcome (step port) (steps n s)).2

end

end Run
end Falcon
end NvidiaGsp
