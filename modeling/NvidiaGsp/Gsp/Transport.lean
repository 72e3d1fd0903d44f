import NvidiaGsp.Lib.Triples
import NvidiaGsp.Gsp.Ring

/-!
# Gsp.Transport

The single owner of the GSP rings (`gsp_transport.zig`). A session reaches the device only through
the callbacks of its port, so the model takes the port as a parameter over an arbitrary environment
`D`: every callback may change the environment and answer anything. `World` adds to the session and
the environment a record of the queue accesses and notifications in the order the session made
them.
-/

namespace NvidiaGsp
namespace Gsp

open Bytes Call

def maxU64 : Nat := 2 ^ 64 - 1

/-! ## The port -/

/-- A callback that answers an error code, or `none` when it succeeded. -/
abbrev Callback (D : Type) := D → Option Nat × D

structure Notification (D : Type) where
  generation : D → Nat × D
  prepare : Nat → Callback D
  submit : Nat → Callback D

structure Port (D : Type) where
  generation : D → Nat × D
  nowNs : D → Nat × D
  /-- Deadline, queue, offset and length of the output; on success the bytes by position. -/
  read : Nat → Queue → Nat → Nat → D → Except Nat (Nat → Byte) × D
  publish : Nat → Queue → Nat → List Byte → Callback D
  notification : Option (Notification D)

/-- What the session did at its port. A read that failed leaves no bytes to speak of. -/
inductive Access where
  | read (queue : Queue) (offset : Nat) (bytes : List Byte)
  | publish (queue : Queue) (offset : Nat) (bytes : List Byte)
  | prepare
  | submit
  deriving DecidableEq

/-! ## The session -/

inductive State where
  | linking | active | failed
  deriving DecidableEq, Repr

structure Ticket where
  epoch : Nat
  serial : Nat
  sequence : Word
  cursor : Nat
  next : Nat
  deriving DecidableEq

structure Received where
  ticket : Ticket
  record : Record
  deriving DecidableEq

inductive IoKind where
  | read | publish | prepare | submit
  deriving DecidableEq, Repr

structure IoFailure where
  kind : IoKind
  queue : Option Queue := none
  offset : Nat := 0
  bytes : Nat := 0
  deadline : Nat
  startedNs : Nat
  deriving DecidableEq, Repr

structure Session where
  profile : Profile
  epoch : Nat
  /-- The address of the scratch buffer `tx`. -/
  tx : Nat
  state : State := .linking
  link : Option Link := none
  linkDeadline : Option Nat := none
  lastClock : Nat := 0
  lastIoError : Option Nat := none
  lastIoFailure : Option IoFailure := none
  txWrite : Nat := 0
  txPeerRead : Nat := 0
  rxRead : Nat := 0
  rxPeerWrite : Nat := 0
  txSequence : Word := 0
  rxSequence : Word := 0
  nextTicket : Nat := 1
  pending : Option Ticket := none
  preloaded : Bool := false
  preloadLayout : Option Layout := none
  deriving DecidableEq

structure World (D : Type) where
  session : Session
  env : D
  trace : List Access

abbrev Transport (D : Type) := Call Error (World D)

/-- The fields of a new session; `tx` and `rx` are the addresses of its two buffers. -/
def Session.init (profile : Profile) (epoch tx rx : Nat) : Except Error Session :=
  if profile.admitted = false then .error .Profile else
  if epoch = 0 then .error .Stale else
  if (if tx ≥ rx then tx - rx else rx - tx) < maxBytes then .error .Overlap else
  .ok { profile, epoch, tx }

namespace Session

variable {D : Type}

def update (f : Session → Session) : Transport D Unit :=
  modify fun w => { w with session := f w.session }

def note (access : Access) : Transport D Unit :=
  modify fun w => { w with trace := w.trace ++ [access] }

/-- Run a callback of the port on the environment. -/
def callback {α : Type} (f : D → α × D) : Transport D α :=
  modifyGet fun w => ((f w.env).1, { w with env := (f w.env).2 })

def fail {α : Type} (err : Error) : Transport D α := do
  update fun s => { s with state := .failed }
  throw err

/-- `if (c) return self.fail(error.E);` -/
def stopIf (c : Prop) [Decidable c] (err : Error) : Transport D Unit :=
  if c then fail err else pure ()

def stop : Transport D Unit := update fun s => { s with state := .failed }

variable (port : Port D)

def checkNotification (epoch : Nat) : Transport D Unit :=
  match port.notification with
  | none => pure ()
  | some notification => do
    let generation ← callback notification.generation
    stopIf (generation ≠ epoch) .Stale

def checkLifetimeClock : Transport D Unit := do
  let w ← get
  failIf (w.session.state = .failed) .State
  let generation ← callback port.generation
  stopIf (generation ≠ w.session.epoch) .Stale
  checkNotification port w.session.epoch
  let now ← callback port.nowNs
  stopIf (now = maxU64 ∨ now < w.session.lastClock) .Clock
  update fun s => { s with lastClock := now }

def check (deadline : Nat) : Transport D Unit := do
  checkLifetimeClock port
  let w ← get
  stopIf (deadline = maxU64 ∨ w.session.lastClock ≥ deadline) .Deadline

def guard (deadline : Nat) : Transport D Unit := check port deadline

def guardUnsubmitted (deadline : Nat) : Transport D Unit := do
  let w ← get
  failIf (w.session.state ≠ .active ∨ w.session.pending ≠ none) .State
  checkLifetimeClock port
  let w ← get
  stopIf (deadline = maxU64) .Deadline
  failIf (w.session.lastClock ≥ deadline) .AdmissionExpired

/-- A failed callback is recorded before the session fails. -/
def ioFail {α : Type} (code : Nat) (failure : Nat → IoFailure) : Transport D α := do
  update fun s => { s with lastIoError := some code, lastIoFailure := some (failure s.lastClock) }
  fail .Io

def settle (result : Option Nat) (failure : Nat → IoFailure) : Transport D Unit :=
  match result with
  | none => pure ()
  | some code => ioFail code failure

def settleRead (queue : Queue) (offset len : Nat) (result : Except Nat (Nat → Byte))
    (failure : Nat → IoFailure) : Transport D (List Byte) :=
  match result with
  | .error code => ioFail code failure
  | .ok content => do
    let bytes := (List.range len).map content
    note (.read queue offset bytes)
    pure bytes

def read (deadline : Nat) (queue : Queue) (offset len : Nat) : Transport D (List Byte) := do
  check port deadline
  let result ← callback (port.read deadline queue offset len)
  let bytes ← settleRead queue offset len result fun started =>
    ⟨.read, some queue, offset, len, deadline, started⟩
  check port deadline
  pure bytes

def publish (deadline : Nat) (queue : Queue) (offset : Nat) (input : List Byte) :
    Transport D Unit := do
  check port deadline
  note (.publish queue offset input)
  let result ← callback (port.publish deadline queue offset input)
  settle result fun started => ⟨.publish, some queue, offset, input.length, deadline, started⟩
  check port deadline

def readWord (deadline : Nat) (location : Location) : Transport D Word := do
  let bytes ← read port deadline location.queue location.offset 4
  pure (word bytes 0)

def publishWord (deadline : Nat) (location : Location) (value : Nat) : Transport D Unit :=
  publish port deadline location.queue location.offset (le32 (BitVec.ofNat 32 value))

def notify (deadline : Nat) (prepare : Bool) (notification : Notification D) :
    Transport D Unit := do
  note (if prepare then .prepare else .submit)
  let result ← callback
    (if prepare then notification.prepare deadline else notification.submit deadline)
  settle result fun started =>
    { kind := if prepare then .prepare else .submit, deadline, startedNs := started }
  check port deadline

def signal (deadline : Nat) (prepare : Bool) : Transport D Unit := do
  check port deadline
  match port.notification with
  | none => fail .Notification
  | some notification => notify port deadline prepare notification

/-- The loop over `plan.spans` that hands the record to the command queue piece by piece. -/
def publishSpans (deadline : Nat) : List Span → List Byte → Transport D Unit
  | [], _ => pure ()
  | span :: spans, bytes => do
    publish port deadline .command span.offset (bytes.take span.bytes)
    publishSpans deadline spans (bytes.drop span.bytes)

/-- The loop over `plan.spans` that gathers a record from the status queue. -/
def readSpans (deadline : Nat) : List Span → Transport D (List Byte)
  | [] => pure []
  | span :: spans => do
    let bytes ← read port deadline .status span.offset span.bytes
    let rest ← readSpans deadline spans
    pure (bytes ++ rest)

/-- Where a queue keeps its write cursor. -/
def cursorAt (queue : Queue) : Location := ⟨queue, 16⟩

/-! ## Preload and connect -/

/-- One of the two asynchronous early messages. -/
def preloadMessage (deadline : Nat) (layout : Layout) (payload : Slice) (function : Word) :
    Transport D Unit := do
  let w ← get
  let encoded ← lift (encode w.session.profile w.session.txSequence { function } payload
    w.session.tx maxBytes)
  let plan ← lift (Ring.transmit layout w.session.txWrite 0 encoded.1.elements)
  publishSpans port deadline plan.spans encoded.2
  publishWord port deadline (cursorAt .command) plan.nextCursor
  update fun s => { s with txWrite := plan.nextCursor, txSequence := s.txSequence + 1 }

def preloadBody (deadline : Nat) (system registry : Slice) : Transport D Unit := do
  let own ← read port deadline .command 0 ringHeaderBytes
  let header ← lift (Ring.inspect own)
  failIf (header.write ≠ 0) .Stale
  let peerRead ← readWord port deadline ⟨.command, header.layout.rxOffset⟩
  failIf (peerRead ≠ 0) .Stale
  let peer ← read port deadline .status 0 ringHeaderBytes
  failIf (peer.all (· == 0) = false) .Stale
  update fun s => { s with preloadLayout := some header.layout }
  preloadMessage port deadline header.layout system 72
  preloadMessage port deadline header.layout registry 73

/-- `errdefer self.state = .failed;` -/
def errdefer {α : Type} (x : Transport D α) : Transport D α := fun w =>
  match x w with
  | .ok a w' => .ok a w'
  | .error e w' => .error e { w' with session := { w'.session with state := .failed } }

def preloadInit (deadline : Nat) (system registry : Slice) : Transport D Unit := do
  let w ← get
  failIf (w.session.state ≠ .linking ∨ w.session.link ≠ none ∨ w.session.linkDeadline ≠ none ∨
    w.session.preloaded = true ∨ w.session.txWrite ≠ 0 ∨ w.session.txSequence ≠ 0 ∨
    w.session.pending ≠ none) .State
  failIf (system.bytes.length = 0 ∨ registry.bytes.length = 0 ∨
    system.bytes.length > maxPayloadBytes ∨ registry.bytes.length > maxPayloadBytes) .Length
  update fun s => { s with preloaded := true }
  errdefer (preloadBody port deadline system registry)

/-- The stale cursors `connect` refuses. -/
def staleLink (s : Session) (link : Link) (txRead rxRead : Nat) : Prop :=
  if s.preloaded then
    s.txSequence ≠ 2 ∨ s.preloadLayout = none ∨ s.preloadLayout ≠ some link.command.layout ∨
      link.command.write ≠ s.txWrite ∨ txRead > s.txWrite ∨ rxRead ≠ 0
  else link.command.write ≠ 0 ∨ txRead ≠ 0 ∨ rxRead ≠ 0

instance (s : Session) (link : Link) (txRead rxRead : Nat) :
    Decidable (staleLink s link txRead rxRead) := by
  unfold staleLink
  infer_instance

/-- `ring.inspect(&own) catch |err| return self.fail(err)`, the value dropped. -/
def orFail {α : Type} (x : Except Error α) : Transport D α :=
  match x with
  | .ok a => pure a
  | .error e => fail e

/-- `x catch return error.E`. -/
def orElse {α : Type} (x : Except Error α) (err : Error) : Transport D α :=
  match x with
  | .ok a => pure a
  | .error _ => throw err

def connect (deadline : Nat) : Transport D Unit := do
  let w ← get
  failIf (w.session.state ≠ .linking) .State
  let limit := min (w.session.linkDeadline.getD deadline) deadline
  update fun s => { s with linkDeadline := some limit }
  let own ← read port limit .command 0 ringHeaderBytes
  let _ ← orFail (Ring.inspect own)
  let peer ← read port limit .status 0 ringHeaderBytes
  let link ← orElse (Ring.inspectLink own peer) .NotReady
  let txRead ← readWord port limit link.commandRead
  let rxRead ← readWord port limit link.statusRead
  let w ← get
  stopIf (staleLink w.session link txRead.toNat rxRead.toNat) .Stale
  update fun s => { s with
    link := some link
    txPeerRead := txRead.toNat
    rxPeerWrite := link.status.write
    state := .active }

/-! ## Send, receive, acknowledge -/

def send (deadline : Nat) (rpc : Rpc) (payload : Slice) : Transport D Unit := do
  let w ← get
  failIf (w.session.state ≠ .active) .State
  check port deadline
  stopIf (port.notification.isNone) .Notification
  let link ← need w.session.link .State
  let encoded ← lift (encode w.session.profile w.session.txSequence rpc payload w.session.tx
    maxBytes)
  let peer ← readWord port deadline link.commandRead
  let slots := link.command.layout.slots
  stopIf (peer.toNat ≥ slots ∨
    Cyclic.distance slots w.session.txPeerRead peer.toNat >
      Cyclic.distance slots w.session.txPeerRead w.session.txWrite) .PeerProgress
  update fun s => { s with txPeerRead := peer.toNat }
  let plan ← lift (Ring.transmit link.command.layout w.session.txWrite peer.toNat
    encoded.1.elements)
  signal port deadline true
  publishSpans port deadline plan.spans encoded.2
  publishWord port deadline (cursorAt .command) plan.nextCursor
  signal port deadline false
  update fun s => { s with txWrite := plan.nextCursor, txSequence := s.txSequence + 1 }

/-- `ring.receive(...)` where a record that is not complete yet is no failure. -/
def orNotReady {α : Type} (x : Except Error α) : Transport D α :=
  match x with
  | .ok a => pure a
  | .error .Unavailable => throw .NotReady
  | .error e => fail e

/-- The record at the read cursor, with the peer's write cursor known to be past it. -/
def receiveRecord (deadline : Nat) (layout : Layout) (peer : Nat) : Transport D Received := do
  let w ← get
  let first ← lift (Ring.receive layout w.session.rxRead peer 1)
  let head ← read port deadline .status (first.spans.headD ⟨0, 0⟩).offset headerBytes
  let shape ← orFail (inspectPrefix w.session.profile head)
  let plan ← orNotReady (Ring.receive layout w.session.rxRead peer shape.elements)
  let bytes ← readSpans port deadline plan.spans
  let record ← orFail (decode w.session.profile bytes w.session.rxSequence)
  let ticket : Ticket := ⟨w.session.epoch, w.session.nextTicket, w.session.rxSequence,
    w.session.rxRead, plan.nextCursor⟩
  update fun s => { s with pending := some ticket, nextTicket := s.nextTicket + 1 }
  pure ⟨ticket, record⟩

def receive (deadline : Nat) : Transport D (Option Received) := do
  let w ← get
  failIf (w.session.state ≠ .active) .State
  failIf (w.session.pending ≠ none) .Pending
  stopIf (w.session.nextTicket = maxU64) .Exhausted
  let link ← need w.session.link .State
  let peer ← readWord port deadline (cursorAt .status)
  let slots := link.status.layout.slots
  let free := slots - Cyclic.distance slots w.session.rxRead w.session.rxPeerWrite - 1
  stopIf (peer.toNat ≥ slots ∨ Cyclic.distance slots w.session.rxPeerWrite peer.toNat > free)
    .PeerProgress
  update fun s => { s with rxPeerWrite := peer.toNat }
  if peer.toNat = w.session.rxRead then pure none
  else some <$> receiveRecord port deadline link.status.layout peer.toNat

def acknowledge (deadline : Nat) (ticket : Ticket) : Transport D Unit := do
  let w ← get
  failIf (w.session.state ≠ .active) .State
  let expected ← need w.session.pending .Stale
  failIf (expected ≠ ticket) .Stale
  let link ← need w.session.link .State
  publishWord port deadline link.statusRead ticket.next
  update fun s => { s with
    rxRead := ticket.next
    rxSequence := s.rxSequence + 1
    pending := none }

/-! ## Steps -/

/-- The public calls of a session. -/
inductive Op where
  | stop
  | guard (deadline : Nat)
  | guardUnsubmitted (deadline : Nat)
  | preloadInit (deadline : Nat) (system registry : Slice)
  | connect (deadline : Nat)
  | send (deadline : Nat) (rpc : Rpc) (payload : Slice)
  | receive (deadline : Nat)
  | acknowledge (deadline : Nat) (ticket : Ticket)

/-- What a call answers. -/
inductive Answer where
  | done
  | received (item : Option Received)

def call : Op → Transport D Answer
  | .stop => do stop; pure .done
  | .guard deadline => do guard port deadline; pure .done
  | .guardUnsubmitted deadline => do guardUnsubmitted port deadline; pure .done
  | .preloadInit deadline system registry => do
    preloadInit port deadline system registry
    pure .done
  | .connect deadline => do connect port deadline; pure .done
  | .send deadline rpc payload => do send port deadline rpc payload; pure .done
  | .receive deadline => do
    let item ← receive port deadline
    pure (.received item)
  | .acknowledge deadline ticket => do acknowledge port deadline ticket; pure .done

def step (w : World D) (op : Op) : Except Error Answer × World D := outcome (call port op) w

end Session
end Gsp
end NvidiaGsp
