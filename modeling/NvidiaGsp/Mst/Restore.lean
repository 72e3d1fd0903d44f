import NvidiaGsp.Mst.LinkWork
import NvidiaGsp.Mst.Plan

/-!
# Mst.Restore

`restore.Work` (`gsp_mst_restore.zig`): bring one root back to the table before a failed transaction,
or rebuild it without a stream that is taken off. The sources are stopped, the receiver's table is
cleared, and what is left is programmed again; an empty table ends with the cleared receiver. When the
receiver is gone, the head's source is stopped and the journal keeps the other heads.

The work uses the queries, observations and sideband exchanges of the link work (`Mst.Request`).
-/

namespace NvidiaGsp
namespace Mst
namespace Restore

open Call
open Payload
open Link (Fault AuxOp Control Request Reply AuxReply Resource SideRequest SideReply Ports Plan Result
  Root BranchInfo BranchPort Notice)
open LinkWork (before target entryAt orFail present expect later nsPerMs nextOf shows lanesOf lengthOf)
open Registry (Image maxU64)

inductive Stage where
  | connected | resource | guid | branches | linkConfig | linkStatus
  | heads | active | activeResource | rateOn | rateOnCheck | scanout | verifyActive
  | stopSource | clearStatus | clearTable | clearUpdated | clearBranches | clearVerify
  | source | payloadClear | payload | updated | trigger | act | actHandled | verifyTable
  | clearVsc | clearHdr | allocate | query | rateOff | rateOffCheck
  | lossSource | lossRateOff | lossRateCheck | complete
  deriving DecidableEq

structure Core where
  attached : Bool
  corePoint : Nat
  windowPoint : Nat
  deriving DecidableEq

/-! ## Paths -/

structure Branch where
  guid : Guid
  route : Route
  deriving DecidableEq

def maxBranches : Nat := 8

def child (r : Route) (port : Nat) : Except Fault Route :=
  if r.valid = false ∨ port > 15 ∨ r.depth = 14 then .error (.error .Bounds)
  else .ok { depth := r.depth + 1, ports := r.ports.setIfInBounds r.depth (BitVec.ofNat 8 port) }

/-- One more edge: its branch is known by its route, under the same GUID, or it is new. -/
def addBranch (found : List Branch) (edge : PathEdge) : Except Fault (List Branch) := do
  expect (found.all fun branch => branch.route != edge.route || branch.guid == edge.guid)
    (.error .Stale)
  if found.any (·.route == edge.route) then return found
  else
    expect (found.length != maxBranches) (.error .Capacity)
    return found ++ [⟨edge.guid, edge.route⟩]

/-- The edges of a path, behind the edge `previous`; the first one leaves the root. -/
def collectPath (rootGuid : Guid) (found : List Branch) (previous : Option PathEdge) :
    List PathEdge → Except Fault (List Branch)
  | [] => .ok found
  | edge :: rest => do
    match previous with
    | none => expect (edge.route.depth == 0 && edge.guid == rootGuid) (.error .Stale)
    | some above =>
      let route ← child above.route above.port
      expect (edge.route == route) (.error .Stale)
    let found ← addBranch found edge
    collectPath rootGuid found (some edge) rest

def Entry.edges (entry : Entry) : List PathEdge := entry.path.toList.take entry.pathCount

def collectEntries (rootGuid : Guid) (found : List Branch) :
    List Entry → Except Fault (List Branch)
  | [] => .ok found
  | entry :: rest => do
    expect (entry.key.rootGuid == rootGuid) (.error .Stale)
    let found ← collectPath rootGuid found none (Entry.edges entry)
    collectEntries rootGuid found rest

/-- `Paths.collect`: the branches the streams of a table go through, the root's first. -/
def collect (table : Table) (rootGuid : Guid) : Except Fault (List Branch) :=
  collectEntries rootGuid [⟨rootGuid, {}⟩] table.used

/-- What a surviving stream demands of the port its hop leaves by. -/
def portFits (port : BranchPort) (next : Option PathEdge) : Bool :=
  !(port.input || (!port.connected && !port.legacyConnected)) &&
    match next with
    | some edge => port.connected && port.peer == Link.Peer.branch && port.messaging &&
        port.guid == edge.guid
    | none => !(port.peer == Link.Peer.none || (port.peer == Link.Peer.branch && port.messaging))

/-- The hops of a path that leave the branch at `route`. -/
def hopsFit (route : Route) (ports : List BranchPort) : List PathEdge → Bool
  | [] => true
  | edge :: rest =>
    (edge.route != route ||
      ((ports.filter fun port => port.number == edge.port).all (portFits · rest.head?) &&
        ports.any fun port => port.number == edge.port)) &&
      hopsFit route ports rest

/-- `Paths.verify`. -/
def verify (paths : List Branch) (index : Nat) (observed : BranchInfo) (table : Table) :
    Except Fault Unit :=
  match paths[index]? with
  | none => .error (.error .Stale)
  | some branch =>
    expect (observed.guid == branch.guid &&
      table.used.all fun entry => hopsFit branch.route observed.ports (Entry.edges entry))
      (.error .Stale)

/-! ## The work -/

structure Work (D S U : Type) where
  /-- The work has been prepared once and stays where it is (`self_address`). -/
  pinned : Bool := false
  plan : Plan
  token : Transaction.Token D
  deadline : Nat
  candidateCore : Nat
  candidateWindow : Nat
  stopOnly : Bool := false
  disconnected : Bool := false
  previousImage : Option Image := none
  paths : Option (List Branch) := none
  stage : Stage := .connected
  request : Option Request := none
  sideband : Option S := none
  up : Option U := none
  eventsSeen : Nat := 0
  requestSerial : Nat := 0
  posted : Bool := false
  lastReceipt : Nat := 0
  notBefore : Nat := 0
  retries : Nat := 0
  polls : Nat := 0
  cursor : Nat := 0
  headCount : Nat := 0
  activeId : Nat := 0
  activeHeads : Nat := 0
  core : Option Core := none
  training : Option Training := none
  sourceStop : Nat := 0
  sourceReceipt : Nat := 0
  tableReceipt : Nat := 0
  clearReceipt : Nat := 0
  actReceipt : Nat := 0
  packetReceipt : Nat := 0
  branchReceipt : Nat := 0
  completionReceipt : Nat := 0
  revision : Nat := 0
  failure : Option Fault := none

structure World (D S U : Type) where
  root : Root D
  work : Work D S U

abbrev Op (D S U α : Type) := Call Fault (World D S U) α

/-- What a reply leads to. -/
inductive Next (D S U : Type) where
  | work (w : Work D S U)
  /-- The last query is acknowledged. -/
  | finish (w : Work D S U)
  /-- The receiver is gone. -/
  | disconnect

section

variable {D : Type} [DecidableEq D] {R S U : Type}

def onJournal {α : Type} (x : Transaction.Op D α) : Op D S U α :=
  zoom (fun w => w.root.tx) (fun tx w => { w with root := { w.root with tx := tx } }) Fault.error x

def onWork (f : Work D S U → Work D S U) : Op D S U Unit := modify fun w => { w with work := f w.work }

def onRoot (f : Root D → Root D) : Op D S U Unit := modify fun w => { w with root := f w.root }

/-- A step that fails is noted in the work, and the journal is retained. -/
def failing {α : Type} (x : Op D S U α) : Op D S U α := fun w =>
  match x w with
  | .ok a w' => .ok a w'
  | .error e w' => .error e {
      root := { w'.root with tx := (outcome Transaction.retain w'.root.tx).2 }
      work := { w'.work with failure := some e } }

/-- The table to rebuild. -/
def Work.table (w : Work D S U) (r : Root D) : Table := if w.stopOnly then target r else before r

/-- A stream of either table is on the head. -/
def unionHead (r : Root D) (head : Nat) : Bool :=
  (before r).used.any (·.allocation.head == head) || (target r).used.any (·.allocation.head == head)

def ownedId (r : Root D) (id head : Nat) : Bool :=
  ((before r).find id).any (·.allocation.head == head) ||
    ((target r).find id).any (·.allocation.head == head)

/-- The phase the journal must be in. -/
def Work.phaseOk (w : Work D S U) (phase : Transaction.Phase) : Bool :=
  if w.disconnected then w.stopOnly && phase == .disconnected
  else if w.stopOnly then phase == .reserved || phase == .posted
  else phase == .restoring

/-- What the rebuild was started from has gone. -/
def Work.Unfounded (w : Work D S U) (r : Root D) : Prop :=
  if w.stopOnly then w.previousImage = none ∨ (w.disconnected = false ∧ w.paths = none)
  else r.graph.coherent = false ∨ r.graph.epoch ≠ w.token.epoch ∨
    r.graph.generation ≠ w.token.generation

instance (w : Work D S U) (r : Root D) : Decidable (w.Unfounded r) := by
  unfold Work.Unfounded
  infer_instance

variable (env : Transaction.Env D) (ports : Ports R S U)

def guard (now : Nat) : Op D S U Unit := do
  let w ← get
  failIf (w.work.failure.isSome = true ∨ w.work.stage = .complete) (.error .State)
  failIf (now ≥ w.work.deadline) .Deadline
  onJournal (Transaction.validate env w.work.token)
  failIf (w.work.phaseOk w.root.tx.journal.phase = false ∨ w.root.id ≠ w.work.token.root ∨
    w.root.tx.ids.epoch ≠ w.work.token.epoch) (.error .Stale)
  failIf (w.work.Unfounded w.root) (.error .Stale)

def Work.ready (w : Work D S U) (now : Nat) : Bool :=
  w.failure.isNone && w.stage != .scanout && w.stage != .complete && decide (now ≥ w.notBefore) &&
    (match w.up with
    | some u => decide (now ≥ ports.upNotBefore u)
    | none => true) &&
    match w.sideband with
    | some s => decide (now ≥ ports.downNotBefore s)
    | none => true

def Work.move (w : Work D S U) (stage : Stage) : Work D S U :=
  { w with stage := stage, cursor := 0, polls := 0, retries := 0, notBefore := 0 }

/-! ## Queries -/

def Work.read (w : Work D S U) (operation : AuxOp) : Request := .aux w.token.root operation

def Work.rate (w : Work D S U) (r : Root D) (enable check : Bool) : Request :=
  .control (.rate (if enable then w.cursor else (entryAt (w.table r) w.cursor).allocation.head)
    w.plan.rootResource.index enable true check)

/-- The record that stops a head's source. -/
def Work.stopped (w : Work D S U) (head : Nat) : Request :=
  .control (.stream ⟨head, w.plan.rootResource.index, w.plan.rootResource.protocol - 8, 0, 0, 1, 0, 0, 0⟩)

def Work.sidebandRequest (w : Work D S U) (r : Root D) : Except Fault (Route × SideRequest) :=
  match w.stage with
  | .branches =>
    match w.paths with
    | some paths => .ok ((paths.getD w.cursor ⟨Vector.replicate 16 0, {}⟩).route, .linkAddress)
    | none => .ok ((r.graph.branches w.cursor).route, .linkAddress)
  | .clearBranches => .ok ({}, .clear)
  | .query =>
    let item := entryAt (w.table r) w.cursor
    .ok (item.key.route, .query item.key.port item.allocation.payloadId)
  | .allocate =>
    let item := entryAt (w.table r) w.cursor
    .ok (item.key.route, .allocate item.key.port item.allocation.payloadId item.allocation.demand.pbn
      (if item.allocation.head < 4 ∧ item.allocation.demand.audio48k = true then some 0 else none))
  | _ => .error (.error .State)

/-- The queries that are not sideband packets. -/
def Work.query (w : Work D S U) (r : Root D) : Except Fault Request :=
  match w.stage with
  | .connected => .ok (.connected w.token.root)
  | .resource => .ok (.resource w.token.root)
  | .guid => .ok (w.read .guid)
  | .linkConfig => .ok (w.read .linkConfig)
  | .linkStatus => .ok (w.read .linkStatus)
  | .heads => .ok .heads
  | .active => .ok (.active w.cursor)
  | .activeResource => .ok (.resource w.activeId)
  | .rateOn => .ok (w.rate r true false)
  | .rateOnCheck => .ok (w.rate r true true)
  | .verifyActive => .ok (.active w.plan.mode.head)
  | .stopSource => .ok (w.stopped w.cursor)
  | .lossSource => .ok (w.stopped w.plan.mode.head)
  | .lossRateOff | .lossRateCheck =>
    .ok (.control (.rate w.plan.mode.head w.plan.rootResource.index false true
      (w.stage == .lossRateCheck)))
  | .clearStatus | .payloadClear => .ok (w.read (.payloadStatus true))
  | .clearTable => .ok (w.read (.payload 0 0 63))
  | .clearUpdated | .updated | .actHandled => .ok (w.read (.payloadStatus false))
  | .clearVerify | .verifyTable => .ok (w.read (.payloadTable w.cursor))
  | .source =>
    let item := (entryAt (w.table r) w.cursor).allocation
    .ok (.control (.stream ⟨item.head, w.plan.rootResource.index, w.plan.rootResource.protocol - 8,
      item.demand.hblank, item.demand.vblank, item.start, item.start + item.demand.slots - 1,
      item.demand.pbn, item.demand.timeslicePbn⟩))
  | .payload =>
    let item := (entryAt (w.table r) w.cursor).allocation
    .ok (w.read (.payload item.payloadId item.start item.demand.slots))
  | .trigger =>
    .ok (.control (.trigger (entryAt (w.table r) 0).allocation.head w.plan.rootResource.index))
  | .act => .ok (.control (.act w.token.root))
  | .clearVsc => .ok (.control (.clearVsc (entryAt (w.table r) w.cursor).allocation.displayId))
  | .clearHdr => .ok (.control (.clearHdr (entryAt (w.table r) w.cursor).allocation.displayId))
  | .rateOff => .ok (w.rate r false false)
  | .rateOffCheck => .ok (w.rate r false true)
  | _ => .error (.error .State)

/-- The stages that talk to a branch. -/
def packets : Stage → Bool
  | .branches | .clearBranches | .allocate | .query => true
  | _ => false

/-- Open the downstream exchange of the stage, unless it is open. -/
def openSideband : Op D S U S := do
  let w ← get
  match w.work.sideband with
  | some s => return s
  | none =>
    failIf (w.root.mailboxPending = true) (.error .Retained)
    let action ← lift (w.work.sidebandRequest w.root)
    let s ← lift (ports.downInit w.work.token.root w.work.token.generation w.work.deadline action.1
      w.root.sequence action.2)
    onWork fun x => { x with sideband := some s }
    return s

def sidebandQuery (now : Nat) : Op D S U (Option Request) := do
  let s ← openSideband ports
  let w ← get
  onWork fun x => { x with sideband := some (ports.downPrepare s w.work.token.generation now).2 }
  let action ← lift (ports.downPrepare s w.work.token.generation now).1
  return action.map fun a => .aux a.1 a.2

/-- The notice names a port that a stream of the old table goes through. -/
def matches' (r : Root D) (route : Route) (notice : Notice) : Bool :=
  (before r).used.any fun entry => (Entry.edges entry).any fun edge =>
    edge.route == route && edge.port == notice.port && edge.guid == notice.guid

/-- Answer an upstream notice that has come in. -/
def answerNotice (u : U) (now : Nat) : Op D S U U := do
  let w ← get
  if ports.upStage u = .received then do
    let notice ← lift (ports.upNotification u w.work.token.generation)
    failIf (w.work.eventsSeen = 8) .RetryExhausted
    onWork fun x => { x with eventsSeen := x.eventsSeen + 1 }
    let next ← lift (ports.upRespond u w.work.token.generation now
      (matches' w.root (ports.upRoute u) notice))
    onWork fun x => { x with up := some next }
    return next
  else return u

/-- The next packet of the upstream exchange; once it is drained, the paths are read again. -/
def upstreamQuery (u : U) (now : Nat) : Op D S U (Option Request) := do
  let u ← answerNotice ports u now
  let w ← get
  if ports.upStage u = .complete then do
    failIf (ports.upDownPending u = true) (.error .Retained)
    let next ← lift (ports.upInit w.work.token.root w.work.token.generation w.work.deadline)
    onWork fun x => { x with up := some next }
    return none
  else if ports.upStage u = .empty then do
    failIf (ports.upDownPending u = true) (.error .Retained)
    onWork fun x => { x with up := none }.move .guid
    return none
  else do
    onWork fun x => { x with up := some (ports.upPrepare u w.work.token.generation now).2 }
    let action ← lift (ports.upPrepare u w.work.token.generation now).1
    return action.map fun a => .aux a.1 a.2

/-- The query of the stage; none when there is nothing to send yet. -/
def select (now : Nat) : Op D S U (Option Request) := do
  let w ← get
  match w.work.up with
  | some u => upstreamQuery ports u now
  | none =>
    if packets w.work.stage = true then sidebandQuery ports now
    else do
      let query ← lift (w.work.query w.root)
      return some query

/-- Hold the query that goes out next. -/
def hold (request : Request) : Op D S U Unit := do
  let w ← get
  failIf (w.work.requestSerial = maxU64) .Exhausted
  onWork fun x => { x with requestSerial := x.requestSerial + 1, posted := false,
                           request := some request }

def prepare (now : Nat) : Op D S U Bool := do
  guard env now
  onWork fun x => { x with pinned := true }
  let w ← get
  failIf (w.work.request.isSome = true) (.error .Pending)
  if w.work.ready ports now = false then return false
  else do
    match ← select ports now with
    | none => return false
    | some request => do
      hold request
      return true

/-! ## Submission -/

/-- The query is the last packet of a downstream request. -/
def Work.closes (w : Work D S U) (request : Request) : Bool :=
  match request, w.sideband with
  | .aux _ (.mailbox true offset count), some s => offset + count == ports.downPacketCount s
  | _, _ => false

def submitted : Op D S U Unit := do
  let w ← get
  failIf (w.work.pinned = false) (.error .Stale)
  let request ← need w.work.request (.error .Pending)
  if w.work.posted = true then pure ()
  else do
    onJournal (Transaction.posted w.work.token w.work.requestSerial)
    onWork fun x => { x with posted := true }
    onRoot fun r =>
      if w.work.closes ports request = true then
        { r with mailboxPending := true, mailboxDeadline := w.work.deadline }
      else r

/-! ## Replies -/

def Work.retry (w : Work D S U) (now ms : Nat) : Except Fault (Work D S U) :=
  if ms = 0 ∨ ms > 500 ∨ w.retries = 7 then .error .RetryExhausted
  else .ok { w with retries := w.retries + 1, notBefore := later now (ms * nsPerMs) }

def Work.pollLater (w : Work D S U) (now : Nat) : Except Fault (Work D S U) :=
  if w.polls = 1000 then .error .LinkTraining
  else .ok { w with polls := w.polls + 1, notBefore := later now nsPerMs }

/-- The head is one of those found active. -/
def Work.isActive (w : Work D S U) (head : Nat) : Bool := w.activeHeads &&& (1 <<< head) != 0

def Work.nextHead (w : Work D S U) (r : Root D) : Except Fault (Work D S U) :=
  if w.cursor + 1 < w.headCount then .ok { w with cursor := w.cursor + 1, stage := .active }
  else if w.disconnected = true then .ok (w.move .scanout)
  else do
    expect ((w.table r).used.all fun entry => w.isActive entry.allocation.head) (.error .Retained)
    let cursor := nextOf w.isActive 0
    if cursor = 8 then return w.move .scanout
    else return { w.move .rateOn with cursor := cursor }

/-- What a branch says of itself fits the surviving streams, or the graph. -/
def Work.branchFits (w : Work D S U) (r : Root D) (info : BranchInfo) : Except Fault Unit :=
  match w.paths with
  | some paths => verify paths w.cursor info (w.table r)
  | none => do
    let expected ← present (r.descriptors w.cursor)
    expect (info == expected) (.error .Stale)

def Work.branchCount (w : Work D S U) (r : Root D) : Nat :=
  match w.paths with
  | some paths => paths.length
  | none => r.graph.branchCount

/-- A branch has answered. -/
def Work.branchSeen (w : Work D S U) (r : Root D) (info : BranchInfo) : Except Fault (Work D S U) := do
  w.branchFits r info
  if w.cursor + 1 = w.branchCount r then
    return w.move (if (w.table r).count = 0 then .heads else .linkConfig)
  else return { w with cursor := w.cursor + 1 }

/-- The reply of a finished sideband exchange; `upPending` tells of a notice on its way. -/
def Work.sideAnswered (w : Work D S U) (r : Root D) (response : SideReply) (upPending : Bool)
    (serial : Nat) : Except Fault (Work D S U) :=
  match w.stage with
  | .branches =>
    match response with
    | .branch info => do
      let next ← w.branchSeen r info
      if upPending = true then do
        let u ← ports.upInit w.token.root w.token.generation w.deadline
        return { next with up := some u }
      else return next
    | _ => .error (.error .Stale)
  | .clearBranches => do
    expect (response == .ack .clear) .Unexpected
    return w.move .clearVerify
  | .allocate => do
    expect (response == .allocated) .Unexpected
    return { w with stage := .query }
  | .query => do
    expect (response == .queried (entryAt (w.table r) w.cursor).allocation.demand.pbn) (.error .Stale)
    if w.cursor + 1 = (w.table r).count then return { w with branchReceipt := serial }.move .rateOff
    else return { w with cursor := w.cursor + 1, stage := .clearVsc }
  | _ => .error (.error .State)

/-- The payload ID that a time slot must show. -/
def Work.slot (w : Work D S U) (r : Root D) (offset : Nat) : Nat :=
  if w.stage = .verifyTable then
    match ((w.table r).used.filter fun entry => decide (offset ≥ entry.allocation.start ∧
      offset < entry.allocation.start + entry.allocation.demand.slots)).getLast? with
    | some entry => entry.allocation.payloadId
    | none => 0
  else 0

/-- The payload table as the receiver shows it, sixteen slots at a time. -/
def Work.verified (w : Work D S U) (r : Root D) (data : Vector Byte 16) : Except Fault Unit :=
  data.toList.zipIdx.forM fun item =>
    let offset := w.cursor * 16 + item.2
    if offset = 0 then expect (!(w.stage == .verifyTable && item.1 &&& 2 == 0)) (.error .Stale)
    else expect (item.1.toNat == w.slot r offset) (.error .Stale)

/-- Where a whole table leads. -/
def Work.tableSeen (w : Work D S U) (r : Root D) (serial : Nat) : Next D S U :=
  if w.cursor = 4 then
    if w.stage = .clearVerify then
      if (w.table r).count = 0 then .finish { w with clearReceipt := serial }
      else .work ({ w with clearReceipt := serial }.move .source)
    else .work ({ w with actReceipt := serial }.move .clearVsc)
  else .work w

/-- An AUX transfer that was acknowledged in full. -/
def Work.observed (w : Work D S U) (r : Root D) (data : Vector Byte 16) (serial now : Nat) :
    Except Fault (Next D S U) :=
  match w.stage with
  | .guid => do
    expect (data == w.plan.rootGuid) (.error .Stale)
    return .work (w.move .branches)
  | .linkConfig => do
    let previous ← present r.tx.journal.previous.training
    expect ((data.toList.getD 0 0).toNat == previous.link.rate &&
      (data.toList.getD 1 0 &&& 31).toNat == previous.link.lanes && shows data 1 0x80) .LinkTraining
    return .work (w.move .linkStatus)
  | .linkStatus => do
    let previous ← present r.tx.journal.previous.training
    expect (trained (lanesOf data) previous.link.lanes) .LinkTraining
    return .work ({ w with
      training := some { previous with lanes := lanesOf data, receipt := serial } }.move .heads)
  | .clearStatus => .ok (.work (w.move .clearTable))
  | .clearTable => .ok (.work (w.move .clearUpdated))
  | .clearUpdated =>
    if shows data 0 1 = false then (w.pollLater now).map .work
    else .ok (.work (w.move .clearBranches))
  | .clearVerify | .verifyTable => do
    w.verified r data
    return { w with cursor := w.cursor + 1 }.tableSeen r serial
  | .payloadClear => .ok (.work { w with stage := .payload })
  | .payload => .ok (.work { w with stage := .updated })
  | .updated =>
    if shows data 0 1 = false then (w.pollLater now).map .work
    else if w.cursor + 1 = (w.table r).count then
      .ok (.work ({ w with tableReceipt := serial }.move .trigger))
    else .ok (.work { w with polls := 0, cursor := w.cursor + 1, stage := .payloadClear })
  | .actHandled =>
    if shows data 0 2 = false then (w.pollLater now).map .work
    else .ok (.work (w.move .verifyTable))
  | _ => .error (.error .State)

/-- An AUX transfer, whatever became of it. -/
def Work.transferred (w : Work D S U) (r : Root D) (length : Nat) (observation : AuxReply)
    (serial now : Nat) : Except Fault (Next D S U) :=
  if observation.status = 3 ∨ observation.status = 0x66 then
    (w.retry now observation.retryMs).map .work
  else if observation.status ≠ 0 then .error .RmRejected
  else if observation.kind = .deferReply then (w.retry now 1).map .work
  else if observation.kind ≠ .ack ∨ observation.count ≠ length then .error .Aux
  else { w with retries := 0, notBefore := 0 }.observed r observation.data serial now

/-- A head that shows another display of this root, or one of its own. -/
def Work.headSeen (w : Work D S U) (r : Root D) (value : Resource) : Except Fault (Work D S U) :=
  if value.kind = 2 ∧ value.index = w.plan.rootResource.index then do
    expect (value.dynamic && value.rootPortId == w.token.root &&
      value.protocol == w.plan.rootResource.protocol && ownedId r w.activeId w.cursor)
      (.error .Retained)
    expect (!(w.disconnected && r.tx.journal.stoppedHeads &&& (1 <<< w.cursor) != 0))
      (.error .Retained)
    return { w with activeHeads := w.activeHeads ||| (1 <<< w.cursor) }
  else do
    expect (!unionHead r w.cursor) (.error .Retained)
    return w

/-- A control that was acknowledged. -/
def acknowledged (response : Reply) (w : Work D S U) : Except Fault (Next D S U) :=
  match response with
  | .control => .ok (.work w)
  | _ => .error .Unexpected

/-- After the verified scanout: the first source to stop. -/
def Work.afterScanout (w : Work D S U) (r : Root D) : Except Fault (Work D S U) := do
  if w.disconnected = true then return w.move .lossSource
  else
    let cursor := nextOf (unionHead r) 0
    expect (cursor != 8) (.error .State)
    return { w.move .stopSource with cursor := cursor }

/-- After a stopped source, the next head that has one. -/
def Work.sourceStopped (w : Work D S U) (r : Root D) (serial : Nat) : Work D S U :=
  let cursor := nextOf (unionHead r) (w.cursor + 1)
  if cursor = 8 then { w with sourceStop := serial }.move .clearStatus
  else { w with sourceStop := serial, cursor := cursor }

/-- A reply that is no AUX transfer. -/
def Work.answered (w : Work D S U) (r : Root D) (response : Reply) (serial : Nat) :
    Except Fault (Next D S U) :=
  match w.stage with
  | .connected =>
    match response with
    | .connected mask =>
      if mask = 0 ∧ w.stopOnly = true then .ok .disconnect
      else do
        expect (mask == w.token.root) (.error .Stale)
        return .work (w.move .resource)
    | _ => .error (.error .Stale)
  | .resource =>
    match response with
    | .resource value => do
      expect (value == w.plan.rootResource) (.error .Stale)
      return .work (w.move (if w.disconnected = true then .heads else .guid))
    | _ => .error (.error .Stale)
  | .heads =>
    match response with
    | .heads count => do
      expect (decide (count ≠ 0 ∧ count ≤ 8 ∧ w.plan.mode.head < count)) (.error .Stale)
      return .work ({ w with headCount := count }.move .active)
    | _ => .error (.error .Stale)
  | .active =>
    match response with
    | .active id =>
      if id = 0 then ({ w with activeId := id }.nextHead r).map .work
      else do
        expect (id &&& (id - 1) == 0) (.error .Unsupported)
        return .work { w with activeId := id, stage := .activeResource }
    | _ => .error .Unexpected
  | .activeResource =>
    match response with
    | .resource value => do
      let next ← w.headSeen r value
      (next.nextHead r).map .work
    | _ => .error .Unexpected
  | .rateOn => acknowledged response { w with stage := .rateOnCheck }
  | .rateOnCheck =>
    let cursor := nextOf w.isActive (w.cursor + 1)
    acknowledged response (if cursor = 8 then w.move .scanout
      else { w with polls := 0, cursor := cursor, stage := .rateOn })
  | .verifyActive =>
    match response with
    | .active id => do
      let core ← present w.core
      expect (id == (if core.attached = true then w.plan.mode.displayId else 0)) (.error .Stale)
      (w.afterScanout r).map .work
    | _ => .error (.error .Stale)
  | .stopSource => acknowledged response (w.sourceStopped r serial)
  | .source =>
    acknowledged response (if w.cursor + 1 = (w.table r).count then
        { w with sourceReceipt := serial }.move .payloadClear
      else { w with sourceReceipt := serial, cursor := w.cursor + 1 })
  | .trigger => acknowledged response (w.move .act)
  | .act => acknowledged response (w.move .actHandled)
  | .clearVsc => acknowledged response { w with stage := .clearHdr }
  | .clearHdr => acknowledged response { w with packetReceipt := serial, stage := .allocate }
  | .rateOff => acknowledged response { w with stage := .rateOffCheck }
  | .rateOffCheck =>
    match response with
    | .control =>
      if w.cursor + 1 = (w.table r).count then .ok (.finish { w with polls := 0, cursor := w.cursor + 1 })
      else .ok (.work { w with polls := 0, cursor := w.cursor + 1, stage := .rateOff })
    | _ => .error .Unexpected
  | .lossSource => acknowledged response ({ w with sourceStop := serial }.move .lossRateOff)
  | .lossRateOff => acknowledged response (w.move .lossRateCheck)
  | .lossRateCheck =>
    match response with
    | .control => .ok (.finish w)
    | _ => .error .Unexpected
  | _ => .error (.error .State)

/-! ## The end of a rebuild -/

/-- Hand the receipts to the journal; the new revision. -/
def settle (w : Work D S U) (core : Core) (serial : Nat) : Transaction.Op D Nat := do
  if w.disconnected = true then do
    let image ← need w.previousImage .Unreachable
    let _ ← Transaction.disconnectedHead env w.token w.plan.mode.displayId image core.corePoint
      core.windowPoint w.sourceStop serial
    let tx ← get
    return tx.live.revision
  else
    Transaction.finishRebuild env w.token w.training w.sourceStop w.clearReceipt w.actReceipt
      w.branchReceipt serial (!w.stopOnly)

def finish (serial : Nat) : Op D S U Unit := do
  let w ← get
  let core ← need w.work.core (.error .State)
  let revision ← onJournal (settle env w.work core serial)
  onWork fun x => { x with revision := revision, completionReceipt := serial }.move .complete

/-- The journal learns that the receiver is gone. -/
def lose (serial : Nat) : Op D S U Unit := do
  let w ← get
  if w.work.disconnected = true then pure ()
  else do
    let token ← onJournal (Transaction.disconnected env w.work.token serial)
    onWork fun x => { x with token := token, disconnected := true }

/-- Go where a reply leads. -/
def proceed (serial : Nat) (next : Root D → Work D S U → Except Fault (Next D S U)) :
    Op D S U Unit := do
  let w ← get
  match next w.root w.work with
  | .error e => throw e
  | .ok (.work x) => onWork fun _ => x
  | .ok (.finish x) => do
    onWork fun _ => x
    finish env serial
  | .ok .disconnect => do
    lose env serial
    onRoot fun r => { r with payloadDirty := true }
    onWork fun x => x.move .resource

/-- The reply of the downstream exchange is complete: the mailbox is free for the next one, also
when the branch refused. A notice may be on its way only while the paths are read. -/
def finishSideband (s : S) (serial : Nat) : Op D S U Unit := do
  let response ← lift (ports.downReply s)
  onRoot fun r => { r with mailboxPending := false, mailboxDeadline := 0, sequence := r.sequence ^^^ 1 }
  onWork fun x => { x with sideband := none }
  let w ← get
  failIf (ports.downUpPending s = true ∧ (w.work.stopOnly = false ∨ w.work.stage ≠ .branches))
    (.error .Stale)
  failIf (response = .nack) .BranchRejected
  proceed env serial fun r w =>
    (w.sideAnswered ports r response (ports.downUpPending s) serial).map .work

def consumeSideband (s : S) (observation : AuxReply) (serial now : Nat) : Op D S U Unit := do
  let w ← get
  let taken := ports.downConsume s w.work.token.generation observation serial now
  onWork fun x => { x with sideband := some taken.2 }
  lift taken.1
  if ports.downComplete taken.2 = true then finishSideband env ports taken.2 serial
  else pure ()

def consumeUpstream (u : U) (observation : AuxReply) (serial now : Nat) : Op D S U Unit := do
  let w ← get
  let taken := ports.upConsume u w.work.token.generation observation serial now
  onWork fun x => { x with up := some taken.2 }
  lift taken.1

def respond (request : Request) (response : Reply) (serial now : Nat) : Op D S U Unit := do
  let w ← get
  match w.work.up, w.work.sideband with
  | some u, _ =>
    match response with
    | .aux observation => consumeUpstream ports u observation serial now
    | _ => throw .Unexpected
  | none, some s =>
    match response with
    | .aux observation => consumeSideband env ports s observation serial now
    | _ => throw .Unexpected
  | none, none =>
    match response with
    | .ratePending => proceed env serial fun _ w => (w.pollLater now).map .work
    | .aux observation =>
      proceed env serial fun r w => w.transferred r (lengthOf request) observation serial now
    | _ => proceed env serial fun r w => w.answered r response serial

def consume (record : R) (serial now : Nat) : Op D S U Unit := do
  let w ← get
  let request ← need w.work.request (.error .Pending)
  failIf (w.work.posted = false ∨ serial = 0 ∨ serial ≤ w.work.lastReceipt) (.error .Stale)
  onWork fun x => { x with request := none, lastReceipt := serial }
  failing do
    onJournal (Transaction.receipt w.work.token serial)
    guard env now
    let response ← lift (ports.decode request record)
    respond env ports request response serial now

/-! ## The display owner -/

/-- The points the display owner must report: past those of the failed candidate, else exactly those
of the image that was on. -/
def Work.pointsFit (w : Work D S U) (r : Root D) (core : Core) : Bool :=
  if w.candidateCore ≠ 0 ∨ w.candidateWindow ≠ 0 then
    decide (core.corePoint > w.candidateCore ∧ core.windowPoint > w.candidateWindow)
  else
    match (w.table r).find w.plan.mode.displayId with
    | some entry =>
      match Transaction.imageAt r.tx.ids entry.handle.slot with
      | some image => core.corePoint == image.corePoint && core.windowPoint == image.windowPoint
      | none => false
    | none => core.corePoint == 0 && core.windowPoint == 0

def scanoutRestored (core : Core) : Op D S U Unit := do
  let w ← get
  failIf (w.work.stage ≠ .scanout ∨ w.work.failure.isSome = true ∨ w.work.request.isSome = true ∨
    w.work.core.isSome = true) (.error .State)
  failIf (core.attached ≠ (!w.work.disconnected &&
    ((w.work.table w.root).find w.work.plan.mode.displayId).isSome)) (.error .Stale)
  failIf (w.work.pointsFit w.root core = false) (.error .Stale)
  onWork fun x => { x with core := some core }.move .verifyActive

def retainAmbiguous (reason : Fault) : Op D S U Unit := do
  onWork fun x => { x with failure := some reason }
  onJournal Transaction.retain

/-- `restoredImage`: the receipts of the rebuild, for an image that is on again. -/
def Work.imageProof (w : Work D S U) (entry : Entry) (training : Training)
    (stamp : Link.Stamp) (corePoint windowPoint : Nat) : Result where
  stamp := stamp
  training := training
  payloadId := entry.allocation.payloadId
  demand := entry.allocation.demand
  revision := w.revision
  corePoint := corePoint
  windowPoint := windowPoint
  sourceReceipt := w.sourceReceipt
  tableReceipt := w.tableReceipt
  actReceipt := w.actReceipt
  packetReceipt := w.packetReceipt
  branchReceipt := w.branchReceipt
  rateReceipt := w.completionReceipt

/-- The rebuild is not one that this image can refer to. -/
def Work.Foreign (w : Work D S U) (r : Root D) (plan : Plan) : Prop :=
  w.stage ≠ .complete ∨ w.failure.isSome = true ∨ w.completionReceipt = 0 ∨ w.training = none ∨
    r.tx.live.revision ≠ w.revision ∨ r.tx.live.completionReceipt ≠ w.completionReceipt ∨
    plan.object ≠ w.plan.object ∨ (plan.mode.mst.map (·.root)) ≠ some w.token.root ∨
    plan.rootResource ≠ w.plan.rootResource ∨ plan.rootGuid ≠ w.plan.rootGuid

instance (w : Work D S U) (r : Root D) (plan : Plan) : Decidable (w.Foreign r plan) := by
  unfold Work.Foreign
  infer_instance

def restoredImage (plan : Plan) (corePoint windowPoint : Nat) : Op D S U Result := do
  let w ← get
  failIf (w.work.Foreign w.root plan) (.error .Stale)
  let training ← need w.work.training (.error .Stale)
  let stamp ← need plan.mode.mst (.error .Unreachable)
  let entry ← need (w.root.tx.live.table.find plan.mode.displayId) (.error .Stale)
  failIf (entry.handle ≠ stamp.handle ∨ entry.allocation.head ≠ plan.mode.head ∨
    entry.window ≠ plan.mode.window) (.error .Stale)
  let result := w.work.imageProof entry training stamp corePoint windowPoint
  failIf (result.complete ports env.links plan = false) .Completion
  return result

/-! ## Starting -/

/-- `restore.Work.init`: take over the transaction of a failed link work. -/
def init (failed : LinkWork.Work D S) (deadline : Nat) : Call Fault (Root D) (Work D S U) := do
  let r ← get
  failIf (failed.failure = none ∨ failed.request.isSome = true ∨ failed.sideband.isSome = true ∨
    r.mailboxPending = true ∨ failed.result.isSome = true ∨ deadline = 0) (.error .Retained)
  zoom (fun r : Root D => r.tx) (fun tx r => { r with tx := tx }) Fault.error
    (do
      Transaction.validate env failed.token
      Transaction.restoring failed.token)
  return ({ plan := failed.plan, token := failed.token, deadline := deadline,
            candidateCore := failed.corePoint, candidateWindow := failed.windowPoint,
            requestSerial := failed.requestSerial, lastReceipt := failed.lastReceipt } : Work D S U)

/-- The image does not stand on this root, or the proof is not its own. -/
def Estranged (r : Root D) (plan : Plan) (proof : Result) (image : Image) (stamp : Link.Stamp)
    (live : Training) (entry : Entry) : Prop :=
  r.tx.live.epoch ≠ plan.object.epoch ∨ plan.mode.outputGeneration = 0 ∨ r.mailboxPending = true ∨
    r.resource ≠ some plan.rootResource ∨ r.source ≠ some plan.rootSource ∨ r.dpcd ≠ plan.rootDpcd ∨
    live.link ≠ proof.training.link ∨ Transaction.imageAt r.tx.ids stamp.handle.slot ≠ some image ∨
    entry.handle ≠ stamp.handle ∨ entry.allocation.head ≠ image.head ∨ entry.window ≠ image.window ∨
    entry.allocation.demand ≠ proof.demand

instance (r : Root D) (plan : Plan) (proof : Result) (image : Image) (stamp : Link.Stamp)
    (live : Training) (entry : Entry) : Decidable (Estranged r plan proof image stamp live entry) := by
  unfold Estranged
  infer_instance

/-- The key of a slot. -/
def keyAt (r : Registry.Reg) (index : Nat) : Option Registry.Key :=
  if h : index < Registry.slotCount then some (r.slots ⟨index, h⟩).key else none

/-- Go on with a receiver that another head found gone. -/
def resume (plan : Plan) (image : Image) (deadline : Nat) : Call Fault (Root D) (Work D S U) := do
  let r ← get
  let token ← need r.tx.journal.token (.error .Stale)
  zoom (fun r : Root D => r.tx) (fun tx r => { r with tx := tx }) Fault.error
    (Transaction.validate env token)
  failIf (r.tx.journal.stoppedHeads &&& (1 <<< image.head) ≠ 0) (.error .Stale)
  return ({ plan := plan, token := token, deadline := deadline, candidateCore := image.corePoint,
            candidateWindow := image.windowPoint, stopOnly := true, disconnected := true,
            previousImage := some image, lastReceipt := r.tx.journal.lastReceipt } : Work D S U)

/-- Reserve the table without the stream. -/
def reserveStop (plan : Plan) (image : Image) (live : Training) (deadline : Nat) :
    Call Fault (Root D) (Work D S U) := do
  let r ← get
  failIf (r.streamSerial = maxU64) .Exhausted
  let table ← lift ((Payload.remove env.links r.tx.live.table plan.object.epoch r.id live.link
    plan.mode.displayId).mapError Fault.error)
  let paths ← lift (collect table plan.rootGuid)
  let token ← zoom (fun r : Root D => r.tx) (fun tx r => { r with tx := tx }) Fault.error
    (Transaction.reserve env plan.object.epoch r.id plan.mode.outputGeneration (r.streamSerial + 1)
      r.tx.live ⟨live.link, table⟩)
  modify fun r => { r with streamSerial := r.streamSerial + 1 }
  return ({ plan := plan, token := token, deadline := deadline, candidateCore := image.corePoint,
            candidateWindow := image.windowPoint, stopOnly := true, previousImage := some image,
            paths := some paths } : Work D S U)

/-- `restore.Work.initStop`; the root is the one the stamp names. -/
def initStop (plan : Plan) (proof : Result) (image : Image) (deadline : Nat) :
    Call Fault (Root D) (Work D S U) := do
  failIf (deadline = 0 ∨ proof.complete ports env.links plan = false ∨ image.head ≠ plan.mode.head ∨
    image.window ≠ plan.mode.window ∨ image.dma = 0 ∨ image.corePoint < proof.corePoint ∨
    image.windowPoint < proof.windowPoint) (.error .Stale)
  let stamp ← need plan.mode.mst (.error .Stale)
  let r ← get
  failIf (stamp.root ≠ r.id) (.error .Descriptor)
  let live ← need r.tx.live.training (.error .Stale)
  let handle ← lift ((r.tx.ids.handle stamp.handle.slot).mapError Fault.error)
  failIf (stamp.handle ≠ handle) (.error .Stale)
  let entry ← need (r.tx.live.table.find stamp.displayId) (.error .Stale)
  failIf (Estranged r plan proof image stamp live entry ∨
    keyAt r.tx.ids stamp.handle.slot ≠ some entry.key) (.error .Stale)
  if r.tx.journal.phase = .disconnected then resume env plan image deadline
  else reserveStop env plan image live deadline

/-! ## The work as a machine -/

inductive Step (R : Type) where
  | prepare (now : Nat)
  | submitted
  | consume (record : R) (serial now : Nat)
  | scanoutRestored (core : Core)
  | retainAmbiguous (reason : Fault)

/-- A step, its result dropped. -/
def run : Step R → Op D S U Unit
  | .prepare now => do
    let _ ← prepare env ports now
    pure ()
  | .submitted => submitted ports
  | .consume record serial now => consume env ports record serial now
  | .scanoutRestored core => scanoutRestored core
  | .retainAmbiguous reason => retainAmbiguous reason

end

end Restore
end Mst
end NvidiaGsp
