import NvidiaGsp.Power.Policy

/-!
# Power.Owner

The telemetry page and the power controls of one device (`gsp_power.zig`, its page by
`gsp_control_storage.zig`). One control is out at a time: `choose` picks it, `begin` takes the
exchange, `poll` sends it and reads the reply, `handoff` gives the exchange back.

The exchange, the encoders, the telemetry library and the common memory API answer through
`Answers`, which may be anything at any call.
-/

namespace NvidiaGsp
namespace Power

open Call

abbrev Mask := BitVec 64

def samplePeriodNs : Nat := 200 * 1000000
def maxAgeNs : Nat := 3 * nsPerS
def demandNs : Nat := 10 * nsPerS

inductive Status where
  | unprobed | ready | rejected | hostFailure | closed
  deriving DecidableEq, Repr

/-- `wire.Operation`. -/
inductive Operation where
  | attach (page : Nat)
  | detach
  | poll (mask : Mask) (intervalMs : Nat)
  | boost (level seconds : Nat)
  | timer
  deriving DecidableEq, Repr

def Operation.boosts : Operation → Bool
  | .boost _ _ => true
  | _ => false

/-- The page and what the common memory API lent for it: each lease is held or not. -/
structure Storage where
  opened : Bool := false
  memory : Bool := false
  reference : Bool := false
  cpu : Bool := false
  dma : Bool := false
  page : Nat := 0
  retained : Bool := false
  prepared : Bool := false
  deriving DecidableEq

/-- How far `prepare` gets: the first of its steps that fails. -/
inductive Preparation where
  /-- No memory API, or a bad adapter: nothing is opened. -/
  | api
  | create
  /-- The reference, its description or the mapping is not what was asked for. -/
  | described
  | mapped
  | unmapped
  | acquired
  /-- The device lease or its segment is not what was asked for. -/
  | segment
  | done (page : Nat)
  deriving DecidableEq, Repr

/-- How far the held exchange is: nothing out, a request prepared or out, or stopped for good. -/
inductive Phase where
  | idle | busy | failed
  deriving DecidableEq, Repr

/-- What a poll of the exchange brings. -/
inductive Arrival where
  /-- An error that stops the session. -/
  | failed
  /-- An error that does not: an earlier dispatch is still to be completed. -/
  | pending
  | nothing
  | notification
  /-- The response, with its decoded status; the decoder or the acknowledgement may fail. -/
  | response (decoded completed : Bool) (status : Word)
  deriving DecidableEq, Repr

/-- What the surroundings answer during one call. -/
structure Answers where
  /-- `bufferUnmap`, `deviceRelease`, `bufferRelease` and `collect` succeed. -/
  unmap : Bool := true
  releaseDma : Bool := true
  releaseReference : Bool := true
  collect : Bool := true
  prepare : Preparation := .api
  /-- `bufferMap` succeeds, and its mapping is as asked for. -/
  map : Bool := true
  mapping : Bool := true
  /-- The token is of this session, the request encodes, the exchange accepts. -/
  token : Bool := true
  encode : Bool := true
  exchange : Bool := true
  /-- The time allowed for an unsubmitted request is over. -/
  expired : Bool := false
  /-- `tracker.begin`, or `tracker.sample` with the throttle mask it reads. -/
  tracker : Bool := true
  throttle : Option Word := none
  arrival : Arrival := .nothing
  /-- The timer finds the time it is told implausible. -/
  timerFaults : Bool := false

/-- The memory API works. -/
def Answers.Working (a : Answers) : Prop :=
  a.unmap = true ∧ a.releaseDma = true ∧ a.releaseReference = true ∧ a.collect = true

structure Timer where
  rejected : Option Word := none
  faulted : Bool := false
  deriving DecidableEq

structure Snapshot where
  sampledHostNs : Nat := 0
  throttle : Option Word := none
  deriving DecidableEq

structure Owner where
  backing : Storage := {}
  status : Status := .unprobed
  attached : Bool := false
  possiblyAttached : Bool := false
  stopping : Bool := false
  firmwareUnloading : Bool := false
  /-- The exchange, while it is held. -/
  active : Option Phase := none
  operation : Option Operation := none
  started : Bool := false
  completed : Bool := false
  rejection : Option Word := none
  pollRejection : Option Word := none
  detachRejection : Option Word := none
  lastStatus : Option Word := none
  activeMask : Mask := 0
  demandedMask : Mask := 0
  demandedUntil : Nat := 0
  workUntil : Nat := 0
  recentActivity : Activity := {}
  recentUntil : Nat := 0
  nextSample : Nat := 0
  /-- A baseline waits for the reply to a poll request. -/
  nextTracker : Bool := false
  snapshot : Snapshot := {}
  performance : Policy := {}
  performanceRequest : Option Request := none
  timingUntil : Nat := 0
  timerNext : Nat := 0
  timerRequestedNs : Nat := 0
  timer : Timer := {}

abbrev Step (α : Type) := Call Error Owner α

/-! ## The page -/

namespace Storage

def valid (s : Storage) : Prop := s.opened ∧ s.memory ∧ s.prepared ∧ ¬ s.cpu

instance {s : Storage} : Decidable s.valid := by
  unfold valid
  infer_instance

/-- `close`: give back what is held, in order, up to the first refusal. -/
def close (s : Storage) (a : Answers) : Bool × Storage :=
  if ¬ s.opened then (true, s)
  else if s.retained then (false, s)
  else
    let s := { s with prepared := false }
    if ¬ s.memory then (false, s)
    else if s.dma ∧ ¬ a.releaseDma then (false, s)
    else
      let s := { s with dma := false }
      if s.cpu ∧ ¬ a.unmap then (false, s)
      else
        let s := { s with cpu := false }
        if s.reference ∧ ¬ a.releaseReference then (false, s)
        else
          let s := { s with reference := false }
          if ¬ a.collect then (false, s) else (true, {})

/-- `prepare`, and whether it got through. -/
def prepare (s : Storage) (a : Answers) : Bool × Storage :=
  if s.opened then (false, s)
  else
    let started : Storage := { opened := true, memory := true }
    match a.prepare with
    | .api => (false, s)
    | .create => (false, started)
    | .described => (false, { started with reference := true })
    | .mapped => (false, { started with reference := true, cpu := true })
    | .unmapped => (false, { started with reference := true, cpu := true })
    | .acquired => (false, { started with reference := true })
    | .segment => (false, { started with reference := true, dma := true })
    | .done page =>
      (true, { started with reference := true, dma := true, page := page, prepared := true })

end Storage

/-- Close the page; whether nothing is left of it. -/
def closeBacking (a : Answers) : Step Bool := do
  let o ← get
  set { o with backing := (o.backing.close a).2 }
  return (o.backing.close a).1

def unmap (a : Answers) : Step Unit := do
  let o ← get
  if o.backing.cpu then do
    failIf (o.backing.memory = false) .Api
    failIf (a.unmap = false) .Synchronization
    set { o with backing := { o.backing with cpu := false } }
  else pure ()

/-- The error path of `map`: a failing unmap is dropped. -/
def dropMapping (a : Answers) (o : Owner) : Owner := (outcome (unmap a) o).2

def map (a : Answers) : Step Unit := do
  let o ← get
  failIf (¬ o.backing.valid) .State
  failIf (o.backing.memory = false) .Api
  failIf (a.map = false) .Map
  set { o with backing := { o.backing with cpu := true } }
  cleaning (failIf (a.mapping = false) .Descriptor) (dropMapping a)

/-! ## Demand -/

section

-- the metrics the telemetry page can be asked for
variable (pollMask : Mask)

def demand (now : Nat) (mask : Mask) : Step Unit := do
  let o ← get
  failIf (mask &&& ~~~ pollMask ≠ 0 ∨ now = 0 ∨ o.stopping) .Parameter
  let before := if now ≥ o.demandedUntil then 0 else o.demandedMask
  set { o with
    demandedMask := before ||| mask
    demandedUntil := if mask ≠ 0 then later now demandNs else o.demandedUntil }

def observeActivity (now : Nat) (activity : Activity) : Step Unit := do
  if activity.working then
    modify fun o => { o with
      workUntil := later now (2 * nsPerS)
      recentUntil := later now holdNs
      recentActivity := activity }
  else pure ()

def deviceLost : Step Unit :=
  modify fun o => { o with
    stopping := true
    status := .hostFailure
    snapshot := {}
    timer := {}
    demandedMask := 0
    demandedUntil := 0
    timingUntil := 0 }

/-- What the page is asked for: nothing once the owner stops. -/
def Owner.requested (o : Owner) (now : Nat) : Mask :=
  if o.stopping then 0
  else (if now < o.demandedUntil then o.demandedMask else 0) |||
    (if now < o.workUntil then pollMask else 0)

/-- The throttle mask of the last sample, while it is fresh. -/
def Owner.freshThrottle (o : Owner) (now : Nat) : Option Word :=
  if now ≥ o.snapshot.sampledHostNs ∧ now - o.snapshot.sampledHostNs ≤ maxAgeNs then
    o.snapshot.throttle
  else none

/-- A call of the policy. -/
def onPolicy {α : Type} : Call Error Policy α → Step α :=
  zoom Owner.performance (fun p o => { o with performance := p }) id

/-! ## Choosing a control -/

/-- Take the page from the memory API, for an attach. -/
def prepareAttach (a : Answers) : Step (Option Operation) := do
  let o ← get
  let prepared := o.backing.prepare a
  set { o with backing := prepared.2 }
  if prepared.1 then return some (.attach prepared.2.page)
  else do
    modify fun o => { o with status := .hostFailure }
    let _ ← closeBacking a
    return none

/-- A stopped owner whose page was never published closes it. -/
def closeStopped (a : Answers) : Step Unit := do
  let o ← get
  if o.stopping ∧ ¬ o.possiblyAttached then do
    let closed ← closeBacking a
    modify fun o => if closed then { o with status := .closed } else o
  else pure ()

/-- What stopping and the clock still ask for, when no boost is due. -/
def chooseLast (a : Answers) (now : Nat) : Step (Option Operation) := do
  let o ← get
  if o.stopping ∧ ¬ o.firmwareUnloading ∧ o.attached ∧ o.detachRejection = none then
    return some .detach
  else do
    closeStopped a
    let o ← get
    if ¬ o.stopping ∧ o.timer.rejected = none ∧ ¬ o.timer.faulted ∧ now < o.timingUntil ∧
        now ≥ o.timerNext then return some .timer
    else return none

/-- The boost the policy wants, or what comes after it. -/
def chooseBoost (a : Answers) (now : Nat) (activity : Activity) : Step (Option Operation) := do
  let o ← get
  let observed :=
    if ¬ activity.working ∧ now < o.recentUntil then o.recentActivity else activity
  let wanted ← onPolicy (next now { observed with stopping := o.stopping } (o.freshThrottle now))
  match wanted with
  | some request => do
    modify fun o => { o with performanceRequest := some request }
    return some (.boost request.level request.seconds)
  | none => chooseLast a now

def choose (a : Answers) (now : Nat) (activity : Activity) : Step (Option Operation) := do
  let o ← get
  if o.active.isSome then return none
  else do
    unmap a
    modify fun o => if activity.stopping then { o with stopping := true } else o
    modify fun o =>
      if activity.working ∧ ¬ o.stopping then { o with workUntil := later now (2 * nsPerS) } else o
    let o ← get
    let requested := o.requested pollMask now
    if ¬ o.attached ∧ o.status = .unprobed ∧ requested ≠ 0 then prepareAttach a
    else if o.attached ∧ requested ≠ o.activeMask ∧ o.pollRejection = none then
      return some (.poll requested 1000)
    else chooseBoost a now activity

/-! ## The exchange -/

/-- The checks of `begin` on its operation. -/
def checkOperation (a : Answers) (now : Nat) (operation : Operation) : Step Unit := do
  let o ← get
  match operation with
  | .attach page =>
    failIf (o.status ≠ .unprobed ∨ o.possiblyAttached ∨ ¬ o.backing.valid ∨ o.backing.page ≠ page)
      .Binding
  | .detach =>
    failIf (¬ o.stopping ∨ o.firmwareUnloading ∨ ¬ o.attached ∨ ¬ o.possiblyAttached) .State
  | .poll _ _ => do
    failIf (¬ o.attached ∨ ¬ o.possiblyAttached) .State
    map a
    if a.tracker = false then do
      unmap a
      throw .Other
    else do
      unmap a
      modify fun o => { o with nextTracker := true }
  | .boost level seconds => do
    let request ← need o.performanceRequest .State
    failIf (o.performance.pending ≠ some request ∨ request.level ≠ level ∨
      request.seconds ≠ seconds) .Binding
  | .timer => do
    failIf (o.stopping ∨ now ≥ o.timingUntil ∨ o.timer.rejected ≠ none) .State
    set { o with timerRequestedNs := now, timerNext := later now nsPerS }

def «begin» (a : Answers) (operation : Operation) (now deadline : Nat) : Step Unit := do
  let o ← get
  failIf (o.active.isSome ∨ ¬ a.token ∨ deadline ≤ now) .State
  failIf (a.encode = false) .Other
  checkOperation a now operation
  failIf (a.exchange = false) .Other
  modify fun o => { o with
    active := some .idle
    operation := some operation
    started := false
    completed := false
    lastStatus := none }

/-- `exchange.begin`: an idle exchange takes the request, or stops. -/
def beginExchange (a : Answers) : Step Unit := do
  let o ← get
  failIf (o.active ≠ some .idle) .Other
  set { o with active := some (if a.exchange then .busy else .failed) }
  failIf (a.exchange = false) .Other

/-- A page counts as published before its attach is sent. -/
def Owner.expose (o : Owner) : Operation → Owner
  | .attach _ =>
    { o with possiblyAttached := true, backing := { o.backing with retained := true } }
  | _ => o

/-- Send the control, if it has not been sent. -/
def send (a : Answers) (operation : Operation) : Step Unit := do
  let o ← get
  if o.started then pure ()
  else do
    modify fun o => o.expose operation
    beginExchange a
    modify fun o => { o with started := true }

/-- The effect of an acknowledged reply. -/
def settle (a : Answers) (operation : Operation) (status : Word) (now : Nat) : Step Unit := do
  let o ← get
  match operation with
  | .attach _ =>
    if status = 0 then set { o with attached := true, status := .ready }
    else do
      set { o with
        rejection := some status
        status := .rejected
        possiblyAttached := false
        backing := { o.backing with retained := false } }
      let _ ← closeBacking a
  | .detach =>
    if status = 0 then do
      set { o with
        attached := false
        possiblyAttached := false
        activeMask := 0
        snapshot := {}
        backing := { o.backing with retained := false } }
      let closed ← closeBacking a
      modify fun o => if closed then { o with status := .closed } else o
    else set { o with detachRejection := some status }
  | .poll mask _ =>
    if status = 0 then do
      set { o with activeMask := mask }
      failIf (o.nextTracker = false) .State
      modify fun o => { o with nextSample := now, snapshot := {}, nextTracker := false }
    else set { o with pollRejection := some status, nextTracker := false }
  | .boost _ _ => do
    let request ← need o.performanceRequest .State
    onPolicy (complete request status now)
    modify fun o => { o with performanceRequest := none }
  | .timer =>
    set (if status = 0 then { o with timer := { o.timer with faulted := a.timerFaults } }
      else { o with timer := { o.timer with rejected := some status } })

/-- The response to the control that is out. -/
def respond (a : Answers) (operation : Operation) (decoded completed : Bool) (status : Word)
    (now : Nat) : Step Unit := do
  failIf (decoded = false) .Other
  modify fun o => { o with active := some (if completed then .idle else .failed) }
  failIf (completed = false) .Other
  modify fun o => { o with lastStatus := some status }
  settle a operation status now
  modify fun o => { o with completed := true }

/-- `exchange.poll`, and what its dispatch does. A response comes only to a request. -/
def receive (a : Answers) (operation : Operation) (now : Nat) : Step Bool := do
  let o ← get
  failIf (o.active = some .failed) .Other
  match a.arrival with
  | .failed => do
    set { o with active := some .failed }
    throw .Other
  | .pending => throw .Other
  | .nothing => return false
  | .notification => return true
  | .response decoded completed status => do
    failIf (o.active ≠ some .busy) .Other
    respond a operation decoded completed status now
    return false

/-- Whether a notification is handed on. -/
def poll (a : Answers) (now : Nat) : Step Bool := do
  let o ← get
  failIf (o.active = none) .State
  let operation ← need o.operation .State
  if o.completed then return false
  else do
    send a operation
    receive a operation now

/-- The guard of an idle exchange: a session that fails it stops the exchange. -/
def guardIdle (a : Answers) : Step Unit := do
  let o ← get
  failIf (o.active ≠ some .idle) .Other
  set { o with active := some (if a.exchange then .idle else .failed) }
  failIf (a.exchange = false) .Other

def handoff (a : Answers) : Step Unit := do
  let o ← get
  failIf (¬ o.completed ∨ o.active = none) .State
  guardIdle a
  modify fun o => { o with active := none, operation := none, completed := false, started := false }

/-- Give an expired intention up before it is sent. -/
def cancelUnstarted (a : Answers) : Step Unit := do
  let o ← get
  failIf (o.started ∨ o.completed) .State
  let operation ← need o.operation .State
  failIf (o.active = none) .State
  let boosting := operation.boosts
  failIf (boosting ∧ o.performanceRequest = none) .State
  failIf (boosting ∧ o.performance.pending ≠ o.performanceRequest) .Binding
  guardIdle a
  failIf (a.expired = true) .Other
  set { o with
    active := none
    operation := none
    nextTracker := false
    performance := if boosting then { o.performance with pending := none } else o.performance
    performanceRequest := if boosting then none else o.performanceRequest
    timerRequestedNs := if operation = Operation.timer then 0 else o.timerRequestedNs }

def sample (a : Answers) (now : Nat) : Step Unit := do
  let o ← get
  if o.attached = false ∨ o.activeMask = 0 ∨ now < o.nextSample then pure ()
  else do
    set { o with nextSample := later now samplePeriodNs }
    cleaning (do
      map a
      if a.tracker = false then do
        unmap a
        throw .Other
      else do
        unmap a
        modify fun o => { o with snapshot := { sampledHostNs := now, throttle := a.throttle } })
      fun o => { o with snapshot := { sampledHostNs := now } }

def Owner.closed (o : Owner) : Bool :=
  o.status = .closed && o.active.isNone && !o.possiblyAttached && !o.backing.opened

/-- No boost is accepted that is still running. -/
def Owner.Lapsed (o : Owner) (now : Nat) : Prop :=
  o.performance.acceptedLevel = 0 ∨ now ≥ o.performance.acceptedUntil

instance {o : Owner} {now : Nat} : Decidable (o.Lapsed now) := by
  unfold Owner.Lapsed
  infer_instance

def stop (a : Answers) (now : Nat) : Step Bool := do
  modify fun o => { o with stopping := true }
  let o ← get
  if o.active = none ∧ ¬ o.possiblyAttached ∧ o.performance.pending = none ∧ o.Lapsed now then do
    let closed ← closeBacking a
    modify fun o => if closed then { o with status := .closed } else o
    let o ← get
    return o.closed
  else return o.closed

/-- The page may stay with the firmware: nothing is out, nothing is polled, no boost is running. -/
def Owner.drained (o : Owner) (now : Nat) : Bool :=
  o.active.isNone && o.operation.isNone && !o.started && !o.completed && o.attached && o.possiblyAttached &&
    o.activeMask = 0 && o.performance.pending = none && decide (o.Lapsed now) &&
    o.backing.retained && decide o.backing.valid

def stopForFirmwareUnload (a : Answers) (now : Nat) : Step Bool := do
  modify fun o => { o with firmwareUnloading := true }
  let stopped ← stop a now
  let o ← get
  return stopped || o.drained now

/-- `exchangeCommon`, when the common memory API hands on a new demand. -/
def exchangeCommon (mask : Mask) (limit timing : Nat) : Step Unit :=
  modify fun o => { o with
    demandedMask := if o.stopping then 0 else mask
    demandedUntil := limit
    timingUntil := if o.stopping then 0 else timing }

end

end Power
end NvidiaGsp
