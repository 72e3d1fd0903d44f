import NvidiaGsp.Lib.Triples
import NvidiaGsp.Mst.Request

/-!
# Mst.LinkWork

`link.Work` (`gsp_mst_link.zig`): one transaction that trains a root, clears or compacts its payload
table, starts the streams, waits for the scanout and commits the journal. `prepare` hands out the
query of the stage, `submitted` tells the journal that a changing query is out, `consume` takes the
acknowledged reply and moves on.

The switches of `consume` are functions to a `Next`: the work as it goes on, another attempt at
training, or the commit. A switch that fails leaves the work alone; what the source writes to the
cursor of a work before it fails is read by nobody, for the work has failed.
-/

namespace NvidiaGsp
namespace Mst
namespace LinkWork

open Call
open Payload
open Link (Fault AuxOp Control Request Reply AuxReply Resource SideRequest SideReply Ports Plan Result
  Root Stream)
open Registry (maxU64)

/-- A millisecond in nanoseconds. -/
def nsPerMs : Nat := 1000000

/-- `now +| n`: the clock saturates. -/
def later (now n : Nat) : Nat := min (now + n) maxU64

/-- The first index from `cursor` that `present` accepts, or eight. -/
def seek (present : Nat → Bool) : Nat → Nat → Nat
  | 0, cursor => cursor
  | left + 1, cursor => if present cursor then cursor else seek present left (cursor + 1)

def nextOf (present : Nat → Bool) (cursor : Nat) : Nat := seek present (8 - cursor) cursor

structure Work (D S : Type) where
  /-- The work has been prepared once and stays where it is (`self_address`). -/
  pinned : Bool := false
  plan : Plan
  token : Transaction.Token D
  deadline : Nat
  stage : Link.Stage := .connected
  request : Option Request := none
  sideband : Option S := none
  lastReceipt : Nat := 0
  requestSerial : Nat := 0
  requestPosted : Bool := false
  notBefore : Nat := 0
  retries : Nat := 0
  polls : Nat := 0
  cursor : Nat := 0
  pathCursor : Nat := 0
  headCount : Nat := 0
  activeId : Nat := 0
  seenHeads : Nat := 0
  powerValue : Byte := 1
  training : Option Training := none
  sourceReceipt : Nat := 0
  tableReceipt : Nat := 0
  actReceipt : Nat := 0
  packetReceipt : Nat := 0
  branchReceipt : Nat := 0
  corePoint : Nat := 0
  windowPoint : Nat := 0
  result : Option Result := none
  failure : Option Fault := none

structure World (D S : Type) where
  root : Root D
  work : Work D S

abbrev Op (D S α : Type) := Call Fault (World D S) α

/-- What a reply leads to. -/
inductive Next (D S : Type) where
  | work (w : Work D S)
  | fallback
  | commit

section

variable {D : Type} [DecidableEq D] {R S U : Type}

def onJournal {α : Type} (x : Transaction.Op D α) : Op D S α :=
  zoom (fun w => w.root.tx) (fun tx w => { w with root := { w.root with tx := tx } }) Fault.error x

def onWork (f : Work D S → Work D S) : Op D S Unit := modify fun w => { w with work := f w.work }

def onRoot (f : Root D → Root D) : Op D S Unit := modify fun w => { w with root := f w.root }

/-- A step that fails is noted in the work. -/
def failing {α : Type} (x : Op D S α) : Op D S α := fun w =>
  match x w with
  | .ok a w' => .ok a w'
  | .error e w' => .error e { w' with work := { w'.work with failure := some e } }

/-! ## The two tables -/

def before (r : Root D) : Table := r.tx.journal.previous.table
def target (r : Root D) : Table := r.tx.journal.target.table

def Work.entry (w : Work D S) (r : Root D) : Option Entry := (target r).find w.plan.mode.displayId
def Work.previousEntry (w : Work D S) (r : Root D) : Option Entry :=
  (before r).find w.plan.mode.displayId

/-- What `stream` and `slot` read. -/
def Work.view (w : Work D S) (r : Root D) : Link.Work where
  before := before r
  target := target r
  displayId := w.plan.mode.displayId
  sor := w.plan.mode.sor
  protocol := w.plan.rootResource.protocol
  stage := w.stage

def Work.stream (w : Work D S) (r : Root D) (head : Nat) (deleting : Bool) : Option Stream :=
  (w.view r).stream head deleting

/-- The streams are being taken away rather than programmed. -/
def Work.deleting (w : Work D S) : Bool := w.stage == .removeSource

def entryAt (t : Table) (index : Nat) : Entry := t.entries.toList.getD index {}

/-! ## Guards -/

/-- The root is no longer the one the plan was made for. -/
def Work.Outdated (w : Work D S) (r : Root D) : Prop :=
  r.graph.coherent = false ∨ r.graph.epoch ≠ w.token.epoch ∨ r.graph.root ≠ w.token.root ∨
    r.graph.generation ≠ w.token.generation ∨ r.resource ≠ some w.plan.rootResource ∨
    r.source ≠ some w.plan.rootSource ∨ r.dpcd ≠ w.plan.rootDpcd

instance (w : Work D S) (r : Root D) : Decidable (w.Outdated r) := by
  unfold Work.Outdated
  infer_instance

variable (env : Transaction.Env D) (ports : Ports R S U)

def guard (now : Nat) : Op D S Unit := do
  let w ← get
  failIf (w.work.failure.isSome = true ∨ w.work.stage = .complete) (.error .State)
  failIf (now ≥ w.work.deadline) .Deadline
  onJournal (Transaction.validate env w.work.token)
  failIf (w.work.Outdated w.root) (.error .Stale)

def Work.ready (w : Work D S) (now : Nat) : Bool :=
  w.failure.isNone && w.stage != .scanout && w.stage != .complete && decide (now ≥ w.notBefore) &&
    match w.sideband with
    | some s => decide (now ≥ ports.downNotBefore s)
    | none => true

/-! ## Queries -/

def Work.read (w : Work D S) (operation : AuxOp) : Request := .aux w.token.root operation

def Work.rate (w : Work D S) (enable immediate check : Bool) : Request :=
  .control (.rate w.plan.mode.head w.plan.mode.sor enable immediate check)

/-- `o orelse return error.E`. -/
def orFail {α : Type} (o : Option α) (e : Fault) : Except Fault α :=
  match o with
  | some a => .ok a
  | none => .error e

/-- `.?` on an optional that the code takes for present. -/
def present {α : Type} (o : Option α) : Except Fault α := orFail o (.error .Unreachable)

def Work.sidebandRequest (w : Work D S) (r : Root D) : Except Fault (Route × SideRequest) :=
  match w.stage with
  | .branches => .ok ((r.graph.branches w.cursor).route, .linkAddress)
  | .paths =>
    .ok ((r.graph.branches (r.graph.edges w.cursor).branch).route,
      .enumPath (r.graph.edges w.cursor).port.number)
  | .queryOld =>
    let item := entryAt (before r) w.cursor
    let edge := item.path.toList.getD w.pathCursor {}
    .ok (edge.route, .query edge.port item.allocation.payloadId)
  | .initialBranches => .ok ({}, .clear)
  | .removeBranch => do
    let item ← present (w.previousEntry r)
    return (item.key.route, .allocate item.key.port item.allocation.payloadId 0 none)
  | .removeQuery => do
    let item ← present (w.previousEntry r)
    return (item.key.route, .query item.key.port item.allocation.payloadId)
  | .branch => do
    let item ← present (w.entry r)
    return (item.key.route, .allocate item.key.port item.allocation.payloadId
      item.allocation.demand.pbn
      (if w.plan.mode.hasAudio = true ∧ item.allocation.demand.audio48k = true then some 0 else none))
  | .branchQuery => do
    let item ← present (w.entry r)
    return (item.key.route, .query item.key.port item.allocation.payloadId)
  | _ => .error (.error .State)

/-- The queries that are not sideband packets. -/
def Work.query (w : Work D S) (r : Root D) : Except Fault Request :=
  match w.stage with
  | .connected => .ok (.connected w.token.root)
  | .resource => .ok (.resource w.token.root)
  | .source => .ok (.dpSource w.token.root w.plan.mode.sor)
  | .leaf => .ok (.resource (entryAt (target r) w.cursor).allocation.displayId)
  | .caps => .ok (w.read .caps)
  | .extendedCaps => .ok (w.read .extendedCaps)
  | .mstCaps => .ok (w.read .mstCaps)
  | .control => .ok (w.read .control)
  | .guid => .ok (w.read .guid)
  | .repeaters => .ok (w.read .repeaters)
  | .heads => .ok .heads
  | .active => .ok (.active w.cursor)
  | .activeResource => .ok (.resource w.activeId)
  | .power => .ok (w.read .power)
  | .powerOn => .ok (w.read (.powerOn w.powerValue))
  | .train => do
    let sink ← ports.receiverCaps w.plan.rootDpcd
    let link := r.tx.journal.target.link
    return .control (.train w.token.root link.rate link.lanes true sink.2.2.2)
  | .linkConfig => .ok (w.read .linkConfig)
  | .linkStatus => .ok (w.read .linkStatus)
  | .initialClearStatus | .removeClear | .tableClear => .ok (w.read (.payloadStatus true))
  | .initialClear => .ok (w.read (.payload 0 0 63))
  | .initialUpdated | .removeUpdated | .removeHandled | .tableUpdated | .actHandled =>
    .ok (w.read (.payloadStatus false))
  | .tableBefore | .initialVerify | .removeVerify | .tableFinal => .ok (w.read (.payloadTable w.cursor))
  | .removeRate => .ok (w.rate true true false)
  | .removeRateCheck => .ok (w.rate true true true)
  | .removeSource | .sourceStreams =>
    match if w.cursor < 8 then w.stream r w.cursor w.deleting else none with
    | some value => .ok (.control (.stream value))
    | none => .error (.error .State)
  | .removePayload => do
    let item ← present (w.previousEntry r)
    return w.read (.payload item.allocation.payloadId item.allocation.start 0)
  | .removeAct | .act => .ok (.control (.act w.token.root))
  | .trigger => .ok (.control (.trigger w.plan.mode.head w.plan.mode.sor))
  | .rateOn => .ok (w.rate true false false)
  | .rateOff => .ok (w.rate false false false)
  | .rateCheck => .ok (w.rate false false true)
  | .clearVsc => .ok (.control (.clearVsc w.plan.mode.displayId))
  | .clearHdr => .ok (.control (.clearHdr w.plan.mode.displayId))
  | .tablePayload => do
    let item ← present (w.entry r)
    return w.read (.payload item.allocation.payloadId item.allocation.start item.allocation.demand.slots)
  | _ => .error (.error .State)

/-- The stages that talk to a branch. -/
def packets : Link.Stage → Bool
  | .branches | .paths | .queryOld | .initialBranches | .removeBranch | .removeQuery | .branch
  | .branchQuery => true
  | _ => false

/-- Open the downstream exchange of the stage, unless it is open. -/
def openSideband : Op D S S := do
  let w ← get
  match w.work.sideband with
  | some s => return s
  | none =>
    failIf (w.root.mailboxPending = true) (.error .Retained)
    let action ← lift (w.work.sidebandRequest w.root)
    let s ← lift (ports.downInit w.work.token.root w.work.token.generation w.work.deadline action.1
      w.root.sequence action.2)
    onWork fun x => { x with sideband := some s }
    return s

def sidebandQuery (now : Nat) : Op D S (Option Request) := do
  let s ← openSideband ports
  let w ← get
  onWork fun x => { x with sideband := some (ports.downPrepare s w.work.token.generation now).2 }
  let action ← lift (ports.downPrepare s w.work.token.generation now).1
  return action.map fun a => .aux a.1 a.2

/-- The streams are programmed head by head. -/
def Work.aim (w : Work D S) (r : Root D) : Work D S :=
  if w.stage = .removeSource ∨ w.stage = .sourceStreams then
    { w with cursor := nextOf (fun head => (w.stream r head w.deleting).isSome) w.cursor }
  else w

/-- The query of the stage; none when the sideband has nothing to send yet. -/
def select (now : Nat) : Op D S (Option Request) := do
  let w ← get
  if packets w.work.stage = true then sidebandQuery ports now
  else do
    onWork fun x => x.aim w.root
    let query ← lift (Work.query ports (w.work.aim w.root) w.root)
    return some query

/-- Hold the query that goes out next. -/
def hold (request : Request) : Op D S Unit := do
  let w ← get
  failIf (w.work.requestSerial = maxU64) .Exhausted
  onWork fun x => { x with requestSerial := x.requestSerial + 1, requestPosted := false,
                           request := some request }

def prepare (now : Nat) : Op D S Bool := do
  guard env now
  onWork fun x => { x with pinned := true }
  let w ← get
  failIf (w.work.request.isSome = true) (.error .Pending)
  if w.work.ready ports now = false then return false
  else do
    match ← select ports now with
    | none => return false
    | some request => do
      hold request
      return true

/-! ## Submission -/

/-- The stages that change the source, the link or a branch. -/
def mutating : Link.Stage → Bool
  | .powerOn | .train | .initialClearStatus | .initialClear | .initialBranches
  | .removeRate | .removeBranch | .removeSource | .removeClear | .removePayload | .removeAct
  | .trigger | .sourceStreams | .rateOn | .tableClear | .tablePayload | .act | .clearVsc | .clearHdr
  | .branch | .rateOff => true
  | _ => false

/-- The journal owns the effects of a changing query from here on. -/
def expose : Op D S Unit := do
  let w ← get
  if mutating w.work.stage = true then
    onJournal (Transaction.posted w.work.token w.work.requestSerial)
  else pure ()

/-- The query is the last packet of a downstream request. -/
def Work.closes (w : Work D S) (request : Request) : Bool :=
  match request, w.sideband with
  | .aux _ (.mailbox true offset count), some s => offset + count == ports.downPacketCount s
  | _, _ => false

def submitted : Op D S Unit := do
  let w ← get
  failIf (w.work.pinned = false) (.error .Stale)
  let request ← need w.work.request (.error .Pending)
  if w.work.requestPosted = true then pure ()
  else do
    expose
    onWork fun x => { x with requestPosted := true }
    onRoot fun r =>
      if w.work.closes ports request = true then
        { r with mailboxPending := true, mailboxDeadline := w.work.deadline }
      else r

/-! ## Replies -/

def Work.retry (w : Work D S) (now ms : Nat) : Except Fault (Work D S) :=
  if ms = 0 ∨ ms > 500 ∨ w.retries = 7 then .error .RetryExhausted
  else .ok { w with retries := w.retries + 1, notBefore := later now (ms * nsPerMs) }

def Work.pollLater (w : Work D S) (now : Nat) : Except Fault (Work D S) :=
  if w.polls = 1000 then .error .LinkTraining
  else .ok { w with polls := w.polls + 1, notBefore := later now nsPerMs }

def Work.move (w : Work D S) (stage : Link.Stage) : Work D S :=
  { w with stage := stage, cursor := 0, pathCursor := 0, polls := 0, retries := 0, notBefore := 0 }

/-- `if (!ok) return error.E;`. -/
def expect (ok : Bool) (e : Fault) : Except Fault Unit := if ok = true then .ok () else .error e

def Work.nextHead (w : Work D S) (r : Root D) : Except Fault (Work D S) := do
  if w.cursor + 1 < w.headCount then return { w with cursor := w.cursor + 1, stage := .active }
  else
    expect ((before r).used.all fun entry => w.seenHeads &&& (1 <<< entry.allocation.head) != 0)
      (.error .Stale)
    return w.move .branches

/-- What the streams of a table take of an edge. -/
def usage (table : Table) (edge : PathEdge) : Nat :=
  (table.used.map fun item =>
    (item.path.toList.take item.pathCount).count edge * item.allocation.demand.pbn).sum

def Work.afterQueries (w : Work D S) (r : Root D) : Work D S :=
  w.move (if (before r).count = 0 then .power else .tableBefore)

/-- The links to try, best first. -/
def candidates : List Link :=
  [30, 20, 10, 6].flatMap fun rate => [4, 2, 1].map fun lanes => ⟨rate, lanes⟩

/-- The budget of a one-stream table on another link. -/
def relink (links : Links) (current : Budget) (link : Link) : Option Budget :=
  let entry := entryAt current.table 0
  match Payload.demand links link entry.timing with
  | .error _ => none
  | .ok demand =>
    some {
      link := link
      table := { current.table with
        slots := demand.slots
        usedPbn := demand.pbn
        entries := current.table.entries.set 0
          { entry with allocation := { entry.allocation with demand := demand } } (by decide) } }

/-- The next link below the one that failed. -/
def lower (links : Links) (rate lanes : Nat) (current : Budget) : Option Budget :=
  ((candidates.dropWhile fun link => link != current.link).drop 1).findSome? fun link =>
    if link.rate > rate ∨ link.lanes > lanes then none else relink links current link

/-- Another link is no option any more. -/
def Work.Committed (w : Work D S) (r : Root D) : Prop :=
  (before r).count ≠ 0 ∨ (target r).count ≠ 1 ∨ w.sourceReceipt ≠ 0 ∨ w.tableReceipt ≠ 0 ∨
    w.corePoint ≠ 0 ∨ w.training.isSome = true ∨
    (w.stage ≠ .train ∧ w.stage ≠ .linkConfig ∧ w.stage ≠ .linkStatus)

instance (w : Work D S) (r : Root D) : Decidable (w.Committed r) := by
  unfold Work.Committed
  infer_instance

def fallback (serial : Nat) : Op D S Unit := do
  let w ← get
  failIf (w.work.Committed w.root) .LinkTraining
  let sink ← lift (ports.receiverCaps w.work.plan.rootDpcd)
  let next ← need (lower env.links (min sink.1 w.work.plan.rootSource.rate) sink.2.1
    w.root.tx.journal.target) .LinkTraining
  let token ← onJournal (Transaction.retargetTraining env w.work.token next serial)
  onWork fun x => { x.move .train with token := token }

/-- The reply of a finished sideband exchange. -/
def Work.sideAnswered (w : Work D S) (r : Root D) (response : SideReply) (serial : Nat) :
    Except Fault (Work D S) :=
  match w.stage with
  | .branches => do
    let expected ← orFail (r.descriptors w.cursor) (.error .Stale)
    expect (response == .branch expected) (.error .Stale)
    if w.cursor + 1 = r.graph.branchCount then return { w with cursor := w.cursor + 1 }.move .paths
    else return { w with cursor := w.cursor + 1 }
  | .paths =>
    match response with
    | .path resources => do
      let edge ← (PathEdge.capture r.graph w.cursor).mapError Fault.error
      let available := resources.freePbn + usage (before r) edge
      expect (decide (available ≤ resources.totalPbn)) (.error .Stale)
      expect (decide (usage (target r) edge ≤ available ∧ usage (target r) edge ≤
        min resources.totalPbn (resources.downstreamPbn.getD resources.totalPbn))) (.error .Bandwidth)
      if w.cursor + 1 = r.graph.edgeCount then
        if (before r).count = 0 then return { w with cursor := w.cursor + 1 }.afterQueries r
        else return { w with cursor := w.cursor + 1 }.move .queryOld
      else return { w with cursor := w.cursor + 1 }
    | _ => .error .Unexpected
  | .queryOld => do
    let old := entryAt (before r) w.cursor
    expect (response == .queried old.allocation.demand.pbn) (.error .Stale)
    let step := if w.pathCursor + 1 = old.pathCount then
        { w with pathCursor := 0, cursor := w.cursor + 1 }
      else { w with pathCursor := w.pathCursor + 1 }
    if step.cursor = (before r).count then return step.afterQueries r
    else return step
  | .initialBranches => do
    expect (response == .ack .clear) .Unexpected
    return w.move .initialVerify
  | .removeBranch => do
    expect (response == .allocated) .Unexpected
    return w.move .removeQuery
  | .removeQuery => do
    expect (response == .queried 0) (.error .Stale)
    return w.move .removeSource
  | .branch => do
    expect (response == .allocated) .Unexpected
    return w.move .branchQuery
  | .branchQuery => do
    let entry ← present (w.entry r)
    expect (response == .queried entry.allocation.demand.pbn) (.error .Stale)
    return { w with branchReceipt := serial }.move .rateOff
  | _ => .error (.error .State)

/-- The payload table as the receiver shows it, sixteen slots at a time. -/
def Work.verified (w : Work D S) (r : Root D) (data : Vector Byte 16) : Except Fault Unit :=
  data.toList.zipIdx.forM fun item => do
    let offset := w.cursor * 16 + item.2
    if offset = 0 then
      expect (!((w.stage == .tableFinal || w.stage == .removeVerify) && item.1 &&& 2 == 0))
        (.error .Stale)
    else
      let slot ← ((w.view r).slot offset).mapError Fault.error
      expect (item.1.toNat == slot) (.error .Stale)

/-- Where a whole table leads. -/
def Work.tableSeen (w : Work D S) (serial : Nat) : Except Fault (Work D S) :=
  if w.cursor = 4 then
    match w.stage with
    | .tableBefore => .ok (w.move .linkConfig)
    | .initialVerify | .removeVerify => .ok (w.move .trigger)
    | .tableFinal => .ok ({ w with actReceipt := serial }.move .clearVsc)
    | _ => .error (.error .Unreachable)
  else .ok w

/-- The stage after a link that is up. -/
def Work.afterTraining (w : Work D S) (r : Root D) : Link.Stage :=
  if (before r).count = 0 then .initialClearStatus
  else if (w.previousEntry r).isSome then .removeRate
  else .trigger

/-- `data[i] & mask != 0`. -/
def shows (data : Vector Byte 16) (index : Nat) (mask : Byte) : Bool :=
  data.toList.getD index 0 &&& mask != 0

/-- The first eight bytes. -/
def lanesOf (data : Vector Byte 16) : Vector Byte 8 :=
  Vector.ofFn fun i => data.toList.getD i.val 0

/-- An AUX transfer that was acknowledged in full. -/
def Work.observed (w : Work D S) (r : Root D) (data : Vector Byte 16) (serial now : Nat) :
    Except Fault (Next D S) :=
  match w.stage with
  | .caps =>
    if shows data 14 0x80 = true then .ok (.work (w.move .extendedCaps))
    else do
      expect (data == w.plan.rootDpcd) (.error .Stale)
      return .work (w.move .mstCaps)
  | .extendedCaps => do
    expect (data == w.plan.rootDpcd) (.error .Stale)
    return .work (w.move .mstCaps)
  | .mstCaps => do
    expect (shows data 0 1) (.error .Stale)
    return .work (w.move .control)
  | .control => do
    expect (data.toList.getD 0 0 &&& 7 == 7) (.error .Stale)
    return .work (w.move .guid)
  | .guid => do
    expect (data == w.plan.rootGuid) (.error .Stale)
    return .work (w.move .repeaters)
  | .repeaters => do
    expect (data.toList.getD 2 0 == 0) (.error .Unsupported)
    return .work (w.move .heads)
  | .power =>
    .ok (.work ({ w with powerValue := (data.toList.getD 0 0 &&& 0xf8) ||| 1 }.move .powerOn))
  | .powerOn => .ok (.work { w.move .train with notBefore := later now nsPerMs })
  | .linkConfig =>
    let expected := r.tx.journal.target.link
    if (data.toList.getD 0 0).toNat ≠ expected.rate ∨
        (data.toList.getD 1 0 &&& 31).toNat ≠ expected.lanes ∨ shows data 1 0x80 = false then
      .ok .fallback
    else .ok (.work (w.move .linkStatus))
  | .linkStatus =>
    let link := r.tx.journal.target.link
    if trained (lanesOf data) link.lanes = false then .ok .fallback
    else
      .ok (.work ({ w with
        training := some ⟨link, w.plan.rootSource, w.plan.rootDpcd, lanesOf data, serial⟩ }.move
          (w.afterTraining r)))
  | .initialClearStatus => .ok (.work (w.move .initialClear))
  | .initialClear => .ok (.work (w.move .initialUpdated))
  | .initialUpdated =>
    if shows data 0 1 = false then (w.pollLater now).map .work
    else .ok (.work (w.move .initialBranches))
  | .removeClear => .ok (.work (w.move .removePayload))
  | .removePayload => .ok (.work (w.move .removeUpdated))
  | .removeUpdated =>
    if shows data 0 1 = false then (w.pollLater now).map .work
    else .ok (.work (w.move .removeAct))
  | .removeHandled =>
    if shows data 0 2 = false then (w.pollLater now).map .work
    else .ok (.work (w.move .removeVerify))
  | .tableClear => .ok (.work (w.move .tablePayload))
  | .tablePayload => .ok (.work (w.move .tableUpdated))
  | .tableUpdated =>
    if shows data 0 1 = false then (w.pollLater now).map .work
    else .ok (.work ({ w with tableReceipt := serial }.move .scanout))
  | .actHandled =>
    if shows data 0 2 = false then (w.pollLater now).map .work
    else .ok (.work (w.move .tableFinal))
  | .tableBefore | .initialVerify | .removeVerify | .tableFinal => do
    w.verified r data
    ({ w with cursor := w.cursor + 1 }.tableSeen serial).map .work
  | _ => .error (.error .State)

/-- An AUX transfer, whatever became of it. -/
def Work.transferred (w : Work D S) (r : Root D) (length : Nat) (observation : AuxReply)
    (serial now : Nat) : Except Fault (Next D S) :=
  if observation.status = 3 ∨ observation.status = 0x66 then
    (w.retry now observation.retryMs).map .work
  else if observation.status ≠ 0 then .error .RmRejected
  else if observation.kind = .deferReply then (w.retry now 1).map .work
  else if w.stage = .repeaters ∧ observation.kind = .nack then .ok (.work (w.move .heads))
  else if observation.kind ≠ .ack ∨ observation.count ≠ length then .error .Aux
  else { w with retries := 0, notBefore := 0 }.observed r observation.data serial now

/-- The head's resource belongs to a stream of this root. -/
def Work.headOwned (w : Work D S) (r : Root D) (value : Resource) : Except Fault Unit := do
  let old ← orFail ((before r).find w.activeId) (.error .Retained)
  let handle ← (r.tx.ids.handle old.handle.slot).mapError Fault.error
  expect (value.dynamic && value.rootPortId == w.token.root &&
    value.protocol == w.plan.rootResource.protocol && old.allocation.head == w.cursor &&
    old.handle == handle) (.error .Stale)
  let actual ← orFail (Transaction.imageAt r.tx.ids old.handle.slot) (.error .Retained)
  expect (actual.head == w.cursor && actual.window == old.window && actual.corePoint != 0 &&
    actual.windowPoint != 0) (.error .Stale)

/-- A control that was acknowledged. -/
def acknowledged (response : Reply) (w : Work D S) : Except Fault (Next D S) :=
  match response with
  | .control => .ok (.work w)
  | _ => .error .Unexpected

/-- After the stream of a head, the next head that has one. -/
def Work.streamed (w : Work D S) (r : Root D) (serial : Nat) : Work D S :=
  let next := { w with
    sourceReceipt := serial
    cursor := nextOf (fun head => (w.stream r head w.deleting).isSome) (w.cursor + 1) }
  if next.cursor = 8 then next.move (if w.stage = .removeSource then .removeClear else .rateOn)
  else next

/-- A reply that is no AUX transfer. -/
def Work.answered (w : Work D S) (r : Root D) (response : Reply) (serial now : Nat) :
    Except Fault (Next D S) :=
  match w.stage with
  | .connected =>
    match response with
    | .connected mask => do
      expect (mask == w.token.root) (.error .Stale)
      return .work (w.move .resource)
    | _ => .error (.error .Stale)
  | .resource =>
    match response with
    | .resource value => do
      expect (value == w.plan.rootResource) (.error .Stale)
      return .work (w.move .source)
    | _ => .error (.error .Stale)
  | .source =>
    match response with
    | .dpSource value => do
      let source ← value
      expect (source == w.plan.rootSource) (.error .Stale)
      return .work (w.move .leaf)
    | _ => .error (.error .Stale)
  | .leaf =>
    match response with
    | .resource value => do
      let item := entryAt (target r) w.cursor
      let handle ← (r.tx.ids.handle item.handle.slot).mapError Fault.error
      expect (value.dynamic && value.rootPortId == w.token.root &&
        value.index == w.plan.rootResource.index && value.protocol == w.plan.rootResource.protocol &&
        value.kind == 2 && value.location == 0 && item.handle == handle) (.error .Stale)
      if w.cursor + 1 = (target r).count then return .work ({ w with cursor := w.cursor + 1 }.move .caps)
      else return .work { w with cursor := w.cursor + 1 }
    | _ => .error .Unexpected
  | .heads =>
    match response with
    | .heads count => do
      expect (decide (count ≠ 0 ∧ count ≤ 8 ∧ w.plan.mode.head < count)) (.error .Stale)
      return .work ({ w with headCount := count }.move .active)
    | _ => .error (.error .Stale)
  | .active =>
    match response with
    | .active id =>
      if id = 0 then ({ w with activeId := id }.nextHead r).map .work
      else do
        expect (id &&& (id - 1) == 0) (.error .Unsupported)
        return .work { w with activeId := id, stage := .activeResource }
    | _ => .error .Unexpected
  | .activeResource =>
    match response with
    | .resource value =>
      if value.kind = 2 ∧ value.index = w.plan.rootResource.index then do
        w.headOwned r value
        ({ w with seenHeads := w.seenHeads ||| (1 <<< w.cursor) }.nextHead r).map .work
      else do
        expect (w.cursor != w.plan.mode.head) (.error .Busy)
        (w.nextHead r).map .work
    | _ => .error .Unexpected
  | .train =>
    match response with
    | .training value =>
      if value.status = 3 ∨ value.status = 0x66 then (w.retry now value.retryMs).map .work
      else if value.status ≠ 0 then .error .RmRejected
      else if value.failure ≠ 0 then .ok .fallback
      else .ok (.work (w.move .linkConfig))
    | _ => .error .Unexpected
  | .trigger => acknowledged response (w.move .sourceStreams)
  | .sourceStreams | .removeSource => acknowledged response (w.streamed r serial)
  | .removeRate => acknowledged response (w.move .removeRateCheck)
  | .removeRateCheck => acknowledged response (w.move .removeBranch)
  | .removeAct => acknowledged response (w.move .removeHandled)
  | .rateOn => acknowledged response (w.move .tableClear)
  | .act => acknowledged response (w.move .actHandled)
  | .clearVsc => acknowledged response (w.move .clearHdr)
  | .clearHdr => acknowledged response ({ w with packetReceipt := serial }.move .branch)
  | .rateOff => acknowledged response (w.move .rateCheck)
  | .rateCheck =>
    match response with
    | .control => .ok .commit
    | _ => .error .Unexpected
  | _ => .error (.error .State)

/-- What the work has to show when the last query is acknowledged. -/
def Work.proof (w : Work D S) (r : Root D) (serial : Nat) : Option Result := do
  let stamp ← w.plan.mode.mst
  let training ← w.training
  let entry ← w.entry r
  return {
    stamp, training
    payloadId := entry.allocation.payloadId
    demand := entry.allocation.demand
    revision := w.token.revision + 1
    corePoint := w.corePoint
    windowPoint := w.windowPoint
    sourceReceipt := w.sourceReceipt
    tableReceipt := w.tableReceipt
    actReceipt := w.actReceipt
    packetReceipt := w.packetReceipt
    branchReceipt := w.branchReceipt
    rateReceipt := serial }

def commit (serial : Nat) : Op D S Unit := do
  let w ← get
  let result ← need (w.work.proof w.root serial) (.error .Unreachable)
  failIf (result.complete ports env.links w.work.plan = false) .Completion
  let revision ← onJournal (Transaction.commit env w.work.token result.training serial)
  onWork fun x => { x with result := some { result with revision := revision } }.move .complete

/-- Go where a reply leads. -/
def proceed (serial : Nat) (next : Root D → Work D S → Except Fault (Next D S)) : Op D S Unit := do
  let w ← get
  match next w.root w.work with
  | .error e => throw e
  | .ok (.work x) => onWork fun _ => x
  | .ok .fallback => fallback env ports serial
  | .ok .commit => commit env ports serial

/-- The reply of the downstream exchange is complete: the mailbox is free for the next one, also
when the branch refused. -/
def finishSideband (s : S) (serial : Nat) : Op D S Unit := do
  let response ← lift (ports.downReply s)
  onRoot fun r => { r with mailboxPending := false, mailboxDeadline := 0, sequence := r.sequence ^^^ 1 }
  onWork fun x => { x with sideband := none }
  failIf (ports.downUpPending s = true) (.error .Stale)
  failIf (response = .nack) .BranchRejected
  proceed env ports serial fun r w => (w.sideAnswered r response serial).map .work

def consumeSideband (s : S) (observation : AuxReply) (serial now : Nat) : Op D S Unit := do
  let w ← get
  let taken := ports.downConsume s w.work.token.generation observation serial now
  onWork fun x => { x with sideband := some taken.2 }
  lift taken.1
  if ports.downComplete taken.2 = true then finishSideband env ports taken.2 serial
  else pure ()

/-- What the query reads; only AUX queries have a length. -/
def lengthOf : Request → Nat
  | .aux _ operation => operation.length
  | _ => 0

def respond (request : Request) (response : Reply) (serial now : Nat) : Op D S Unit := do
  let w ← get
  match w.work.sideband with
  | some s =>
    match response with
    | .aux observation => consumeSideband env ports s observation serial now
    | _ => throw .Unexpected
  | none =>
    match response with
    | .ratePending => proceed env ports serial fun _ w => (w.pollLater now).map .work
    | .aux observation =>
      proceed env ports serial fun r w => w.transferred r (lengthOf request) observation serial now
    | _ => proceed env ports serial fun r w => w.answered r response serial now

def consume (record : R) (serial now : Nat) : Op D S Unit := do
  let w ← get
  let request ← need w.work.request (.error .Pending)
  failIf (w.work.requestPosted = false ∨ serial = 0 ∨ serial ≤ w.work.lastReceipt) (.error .Stale)
  onWork fun x => { x with request := none, lastReceipt := serial }
  onJournal (Transaction.receipt w.work.token serial)
  failing do
    guard env now
    let response ← lift (ports.decode request record)
    respond env ports request response serial now

def scanoutComplete (corePoint windowPoint : Nat) : Op D S Unit := do
  let w ← get
  failIf (w.work.stage ≠ .scanout ∨ w.work.request.isSome = true ∨ w.work.failure.isSome = true ∨
    corePoint = 0 ∨ windowPoint = 0 ∨ w.work.tableReceipt ≤ w.work.sourceReceipt ∨
    ¬ w.work.training.any fun t => t.receipt < w.work.sourceReceipt) (.error .State)
  onWork fun x => { x with corePoint := corePoint, windowPoint := windowPoint }.move .act

def cancelUnsubmitted : Op D S Unit := do
  let w ← get
  failIf (w.root.mailboxPending = true ∨
    (w.work.request.isSome = true ∧ w.work.requestPosted = true)) (.error .Retained)
  onJournal (Transaction.cancelUnsubmitted w.work.token)
  onWork fun x => { x with request := none, failure := some .Cancelled }

def retainAmbiguous (reason : Fault) : Op D S Unit := do
  onJournal Transaction.retain
  onWork fun x => { x with failure := some reason }

/-- `link.Work.init`: `derived` is what `derive` makes of the snapshot, `desired` the budget that
admits the mode. -/
def init (plan : Plan) (derived : Except Fault Plan) (desired : Except Fault Budget) (deadline : Nat) :
    Call Fault (Root D) (Work D S) := do
  let again ← lift derived
  failIf (deadline = 0 ∨ plan ≠ again) (.error .Stale)
  let r ← get
  failIf (r.mailboxPending = true ∨ r.streamSerial = maxU64) (.error .Retained)
  let wanted ← lift desired
  let token ← zoom (fun r : Root D => r.tx) (fun tx r => { r with tx := tx }) Fault.error
    (Transaction.reserve env plan.object.epoch r.id plan.mode.outputGeneration (r.streamSerial + 1)
      r.tx.live wanted)
  modify fun r => { r with streamSerial := r.streamSerial + 1 }
  return ({ plan := plan, token := token, deadline := deadline } : Work D S)

/-! ## The work as a machine -/

inductive Step (R : Type) where
  | prepare (now : Nat)
  | submitted
  | consume (record : R) (serial now : Nat)
  | scanoutComplete (corePoint windowPoint : Nat)
  | cancelUnsubmitted
  | retainAmbiguous (reason : Fault)

/-- A step, its result dropped. -/
def run : Step R → Op D S Unit
  | .prepare now => do
    let _ ← prepare env ports now
    pure ()
  | .submitted => submitted ports
  | .consume record serial now => consume env ports record serial now
  | .scanoutComplete corePoint windowPoint => scanoutComplete corePoint windowPoint
  | .cancelUnsubmitted => cancelUnsubmitted
  | .retainAmbiguous reason => retainAmbiguous reason

end

end LinkWork
end Mst
end NvidiaGsp
