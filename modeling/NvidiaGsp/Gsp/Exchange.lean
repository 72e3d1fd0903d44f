import NvidiaGsp.Gsp.Transport

/-!
# Gsp.Exchange

The sole owner of runtime requests (`gsp_exchange.zig`): it prepares one request at a time, drains
the notifications in front of it, sends it outside a lockdown window and hands every received message
out once, to be completed or rejected. `Owner` adds to the exchange and its session the calls the
exchange made on the session, in order, as a `Note` each.
-/

namespace NvidiaGsp
namespace Gsp

open Call

/-- The two firmware events the exchange treats apart (`gsp_boot_events.zig`). -/
def libosPrint : Word := 0x100c
def lockdown : Word := 0x101c

structure Handoff where
  inLockdown : Bool
  claimed : Bool := false

inductive Phase where
  | idle | prepared | waiting | handedOff | failed
  deriving DecidableEq, Repr

structure Dispatch where
  ticket : Ticket
  record : Record
  response : Bool
  deriving DecidableEq

structure Failure where
  reason : Error
  rpc : Option Rpc
  ticket : Option Ticket
  deriving DecidableEq

structure Exchange where
  phase : Phase := .idle
  deadline : Option Nat := none
  function : Word := 0
  request : Slice := ⟨0, []⟩
  revision : Nat := 1
  inLockdown : Bool
  pending : Option Dispatch := none
  lastRpc : Option Rpc := none
  failure : Option Failure := none

/-- A call the exchange made on its session, or a decision about one. -/
inductive Note where
  | began (function : Word)
  | cancelled
  | sent (function : Word) (result : Except Error Unit)
  | received (item : Received)
  | dispatched (dispatch : Dispatch)
  | acked (dispatch : Dispatch) (result : Except Error Unit)

structure Owner (D : Type) where
  exchange : Exchange
  world : World D
  log : List Note

abbrev Serving (D : Type) := Call Error (Owner D)

namespace Exchange

variable {D : Type} (port : Port D)

def init (runtime : Handoff) (deadline : Nat) : Transport D (Exchange × Handoff) := do
  let w ← get
  failIf (runtime.claimed = true ∨ w.session.state ≠ .active ∨ w.session.pending ≠ none) .State
  Session.guard port deadline
  pure ({ inLockdown := runtime.inLockdown }, { runtime with claimed := true })

def update (f : Exchange → Exchange) : Serving D Unit :=
  modify fun o => { o with exchange := f o.exchange }

def note (n : Note) : Serving D Unit := modify fun o => { o with log := o.log ++ [n] }

/-- A call on the session whose error the exchange looks at. -/
def attempt {α : Type} (x : Transport D α) : Serving D (Except Error α) := fun o =>
  match x o.world with
  | .ok a w => .ok (.ok a) { o with world := w }
  | .error e w => .ok (.error e) { o with world := w }

/-- The first failure is recorded and stops the session; later ones change nothing. -/
def recordFailure (reason : Error) (o : Owner D) : Owner D :=
  if o.exchange.phase = .failed then o else
  { o with
    exchange := { o.exchange with
      failure := some ⟨reason,
        if o.world.session.pending ≠ none then o.exchange.lastRpc else none,
        o.world.session.pending⟩
      phase := .failed }
    world := { o.world with session := { o.world.session with state := .failed } } }

def fail {α : Type} (reason : Error) : Serving D α := do
  let o ← get
  failIf (o.exchange.phase = .handedOff) .State
  modify (recordFailure reason)
  throw reason

def stopIf (c : Prop) [Decidable c] (err : Error) : Serving D Unit :=
  if c then fail err else pure ()

/-- `x catch |err| return self.fail(err)`. -/
def orFail {α : Type} (result : Except Error α) : Serving D α :=
  match result with
  | .ok a => pure a
  | .error e => fail e

def guard (limit : Nat) : Serving D Unit := do
  let o ← get
  failIf (o.exchange.phase = .failed ∨ o.exchange.phase = .handedOff) .State
  let result ← attempt (Session.guard port limit)
  orFail result

def orExpired (result : Except Error Unit) : Serving D Unit :=
  match result with
  | .error .AdmissionExpired => throw .AdmissionExpired
  | result => orFail result

def guardUnsubmitted (limit : Nat) : Serving D Unit := do
  let o ← get
  failIf (o.exchange.phase ≠ .idle ∨ o.exchange.pending ≠ none ∨
    o.exchange.request.bytes.length ≠ 0 ∨ o.exchange.deadline ≠ none ∨
    o.exchange.inLockdown = true ∨ o.world.session.pending ≠ none) .State
  let result ← attempt (Session.guardUnsubmitted port limit)
  orExpired result

def invalidate : Serving D Unit := do
  let o ← get
  failIf (o.exchange.phase = .failed ∨ o.exchange.phase = .handedOff) .State
  stopIf (o.exchange.revision = maxU64) .Exhausted
  update fun x => { x with revision := x.revision + 1 }

/-- One absolute limit over all calls for a request. -/
def limitOf (x : Exchange) (deadline : Nat) : Nat := min (x.deadline.getD deadline) deadline

def begin (function : Word) (payload : Slice) (deadline : Nat) : Serving D Unit := do
  let o ← get
  failIf (o.exchange.phase ≠ .idle) .State
  failIf (o.exchange.pending ≠ none) .Pending
  guard port (o.exchange.limitOf deadline)
  failIf (function = 0 ∨ function.toNat ≥ 0x1000 ∨ function = 71) .Unexpected
  failIf (payload.bytes.length > maxPayloadBytes) .Payload
  note (.began function)
  update fun x => { x with
    function := function
    request := payload
    deadline := some (o.exchange.limitOf deadline)
    phase := .prepared }

def cancelPrepared : Serving D Unit := do
  let o ← get
  failIf (o.exchange.phase ≠ .prepared ∨ o.exchange.pending ≠ none) .State
  let limit ← need o.exchange.deadline .State
  guard port limit
  note .cancelled
  update fun x => { x with request := ⟨0, []⟩, phase := .idle, deadline := none }

/-! ## Poll -/

/-- A lockdown event opens the window as soon as it is received. -/
def observeLockdown (record : Record) : Serving D Unit :=
  if record.rpc.function = lockdown then do
    stopIf (record.payload.length ≠ 1 ∨ (record.payload.getD 0 0).toNat > 1) .Payload
    update fun x => if record.payload.getD 0 0 = 1 then { x with inLockdown := true } else x
  else pure ()

def observeChange (record : Record) : Serving D Unit :=
  if record.rpc.function ≠ libosPrint then invalidate else pure ()

def notification (record : Record) : Serving D Unit := do
  stopIf (record.rpc.function.toNat < 0x1002 ∨ record.rpc.function.toNat ≥ 0x1023) .Unexpected
  observeLockdown record
  observeChange record

/-- A message answers the request that is out when it carries its function. -/
def answers (x : Exchange) (record : Record) : Bool :=
  decide (record.rpc.function = x.function ∧ x.phase = .waiting)

def classify (record : Record) (response : Bool) : Serving D Unit :=
  if response then pure () else notification record

/-- Hand the message out as an answer or, once it passed as one, as a notification. -/
def deliver (item : Received) (response : Bool) : Serving D (Option Dispatch) := do
  classify item.record response
  note (.dispatched ⟨item.ticket, item.record, response⟩)
  update fun x => { x with pending := some ⟨item.ticket, item.record, response⟩ }
  pure (some ⟨item.ticket, item.record, response⟩)

def dispatch (item : Received) : Serving D (Option Dispatch) := do
  note (.received item)
  update fun x => { x with lastRpc := some item.record.rpc }
  stopIf (item.record.rpc.cpuRmGfid ≠ 0) .Guest
  let o ← get
  deliver item (o.exchange.answers item.record)

def settleSend (result : Except Error Unit) : Serving D (Option Dispatch) :=
  match result with
  | .error .Unavailable => pure none
  | .error e => fail e
  | .ok () => do
    update fun x => { x with phase := .waiting }
    pure none

/-- The request to send now, if one is prepared outside a lockdown window. -/
def submit (limit : Nat) : Serving D (Option Dispatch) := do
  let o ← get
  if o.exchange.phase = .prepared ∧ o.exchange.inLockdown = false then do
    let result ← attempt (Session.send port limit
      { function := o.exchange.function, sequence := o.world.session.txSequence }
      o.exchange.request)
    note (.sent o.exchange.function result)
    settleSend result
  else do
    update fun x => if x.phase = .idle then { x with deadline := none } else x
    pure none

def settleReceive (limit : Nat) (result : Except Error (Option Received)) :
    Serving D (Option Dispatch) :=
  match result with
  | .error .NotReady => pure none
  | .error e => fail e
  | .ok (some item) => dispatch item
  | .ok none => submit port limit

def poll (deadline : Nat) : Serving D (Option Dispatch) := do
  let o ← get
  guard port (o.exchange.limitOf deadline)
  update fun x => { x with deadline := some (o.exchange.limitOf deadline) }
  failIf (o.exchange.pending ≠ none) .Pending
  let result ← attempt (Session.receive port (o.exchange.limitOf deadline))
  settleReceive port (o.exchange.limitOf deadline) result

/-! ## Completion -/

def borrow (ticket : Ticket) : Serving D Dispatch := do
  let o ← get
  let dispatch ← need o.exchange.pending .Stale
  let limit ← need o.exchange.deadline .State
  guard port limit
  failIf (dispatch.ticket ≠ ticket) .Stale
  pure dispatch

/-- The exchange after an acknowledged dispatch. -/
def completed (d : Dispatch) (x : Exchange) : Exchange :=
  if d.response then
    { x with request := ⟨0, []⟩, phase := .idle, pending := none, deadline := none }
  else
    { x with
      inLockdown := if d.record.rpc.function = lockdown then d.record.payload.getD 0 0 = 1
        else x.inLockdown
      pending := none
      deadline := if x.phase = .idle then none else x.deadline }

def complete (ticket : Ticket) : Serving D Unit := do
  let dispatch ← borrow port ticket
  let o ← get
  let limit ← need o.exchange.deadline .State
  let result ← attempt (Session.acknowledge port limit ticket)
  note (.acked dispatch result)
  orFail result
  update (completed dispatch)

def reject (ticket : Ticket) : Serving D Unit := do
  let _ ← borrow port ticket
  fail .Handler

def handoff (deadline : Nat) : Serving D Handoff := do
  let o ← get
  failIf (o.exchange.phase ≠ .idle ∨ o.exchange.pending ≠ none ∨ o.world.session.pending ≠ none)
    .State
  guard port (o.exchange.limitOf deadline)
  update fun x => { x with phase := .handedOff }
  pure { inLockdown := o.exchange.inLockdown }

/-! ## Steps -/

inductive Op where
  | fail (reason : Error)
  | guard (limit : Nat)
  | guardUnsubmitted (limit : Nat)
  | invalidate
  | begin (function : Word) (payload : Slice) (deadline : Nat)
  | cancelPrepared
  | poll (deadline : Nat)
  | borrow (ticket : Ticket)
  | complete (ticket : Ticket)
  | reject (ticket : Ticket)
  | handoff (deadline : Nat)

inductive Answer where
  | done
  | dispatch (d : Option Dispatch)
  | handoff (h : Handoff)

def call : Op → Serving D Answer
  | .fail reason => fail reason
  | .guard limit => do guard port limit; pure .done
  | .guardUnsubmitted limit => do guardUnsubmitted port limit; pure .done
  | .invalidate => do invalidate; pure .done
  | .begin function payload deadline => do begin port function payload deadline; pure .done
  | .cancelPrepared => do cancelPrepared port; pure .done
  | .poll deadline => do
    let d ← poll port deadline
    pure (.dispatch d)
  | .borrow ticket => do
    let d ← borrow port ticket
    pure (.dispatch (some d))
  | .complete ticket => do complete port ticket; pure .done
  | .reject ticket => do reject port ticket; pure .done
  | .handoff deadline => do
    let h ← handoff port deadline
    pure (.handoff h)

def step (o : Owner D) (op : Op) : Except Error Answer × Owner D := outcome (call port op) o

end Exchange
end Gsp
end NvidiaGsp
