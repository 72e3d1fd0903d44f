import NvidiaGsp.Mst.Link
import NvidiaGsp.Mst.Sideband
import NvidiaGsp.Mst.Transaction

/-!
# Mst.Request

What the link work and the restore work of a root have in common (`gsp_mst_link.zig`,
`gsp_mst_restore.zig`): the queries they hand to the exchange, the observations they get back, the
plan of the output, and the root they work on.

Encoding a query and decoding its record are parameters (`Ports`), and so are the downstream and
upstream sideband exchanges: the two works hand their observations on and look at a few fields. A
record may decode to any reply, so the reply contents are arbitrary.
-/

namespace NvidiaGsp
namespace Mst
namespace Link

open Call
open Payload
open Registry (Handle Image maxU64)

/-- The errors of the works; those of the tables, the registry and the journal are among them. -/
inductive Fault where
  | error (e : Error)
  | Deadline | Exhausted | RetryExhausted | LinkTraining | RmRejected | Unexpected | Aux
  | BranchRejected | Completion | Cancelled
  deriving DecidableEq, Repr

/-! ## Queries -/

/-- `aux.Operation`, as far as the works use it. -/
inductive AuxOp where
  | caps | extendedCaps | mstCaps | repeaters | power | powerOn (value : Byte)
  | linkConfig | linkStatus | control | guid
  | payloadStatus (clear : Bool)
  | payload (id start count : Nat)
  | payloadTable (part : Nat)
  /-- A mailbox transfer; `down` is the request box of the downstream exchange. -/
  | mailbox (down : Bool) (offset count : Nat)
  deriving DecidableEq

/-- `aux.length`. -/
def AuxOp.length : AuxOp → Nat
  | .caps | .extendedCaps | .guid | .payloadTable _ => 16
  | .repeaters | .linkStatus => 8
  | .linkConfig => 2
  | .payload .. => 3
  | .mailbox _ _ count => count
  | _ => 1

/-- `control.Query`; the registry owns `allocate` and `free`. -/
inductive Control where
  | stream (value : Stream)
  | act (root : Nat)
  | rate (head sor : Nat) (enable immediate check : Bool)
  | trigger (head sor : Nat)
  | train (root rate lanes : Nat) (enhanced postAdjust : Bool)
  | clearVsc (displayId : Nat)
  | clearHdr (displayId : Nat)
  deriving DecidableEq

inductive Request where
  | connected (mask : Nat)
  | resource (displayId : Nat)
  | heads
  | active (head : Nat)
  | dpSource (displayId sor : Nat)
  | aux (displayId : Nat) (operation : AuxOp)
  | control (query : Control)
  deriving DecidableEq

/-! ## Observations -/

/-- `aux.ReplyType`. -/
inductive ReplyKind where
  | ack | nack | deferReply | timeout | i2cNack | i2cDefer | invalidArgument
  deriving DecidableEq, Repr

structure AuxReply where
  status : Nat := 0
  kind : ReplyKind := .ack
  retryMs : Nat := 0
  count : Nat := 0
  data : Vector Byte 16 := Vector.replicate 16 0
  deriving DecidableEq

/-- GET_OUTPUT_RESOURCE as RM answers it. -/
structure Resource where
  index : Nat
  kind : Nat
  protocol : Nat
  ditherType : Nat
  ditherAlgo : Nat
  location : Nat
  rootPortId : Nat
  dcbIndex : Nat
  vbiosAddress : Nat
  litByVbios : Bool
  dynamic : Bool
  deriving DecidableEq

/-- `control.Training`: a train control that came back. -/
structure TrainReply where
  status : Nat
  failure : Nat
  retryMs : Nat
  deriving DecidableEq

inductive Reply where
  | connected (mask : Nat)
  | resource (value : Resource)
  | heads (count : Nat)
  | active (displayId : Nat)
  /-- The source capabilities, as `caps.DpSource.decode` reads them. -/
  | dpSource (value : Except Fault DpSource)
  | aux (observation : AuxReply)
  | control
  | training (value : TrainReply)
  | ratePending

/-! ## The sideband -/

/-- `wire.Port`, as far as the works use it. -/
structure BranchPort where
  number : Nat
  input : Bool
  /-- `wire.Peer`. -/
  peer : Nat
  messaging : Bool
  connected : Bool
  legacyConnected : Bool
  guid : Guid
  deriving DecidableEq

def Peer.none : Nat := 0
def Peer.branch : Nat := 2

/-- `wire.Branch`: what LINK_ADDRESS says of a branch. -/
structure BranchInfo where
  guid : Guid
  ports : List BranchPort
  deriving DecidableEq

/-- `wire.Request`, as far as the works use it. -/
inductive SideRequest where
  | linkAddress
  | enumPath (port : Nat)
  | allocate (port id pbn : Nat) (sink : Option Nat)
  | query (port id : Nat)
  | clear
  deriving DecidableEq

/-- `wire.Reply`, as far as the works use it. -/
inductive SideReply where
  | nack
  | branch (info : BranchInfo)
  | path (resources : PathResources)
  | allocated
  | queried (pbn : Nat)
  | data
  | ack (op : Ask)
  deriving DecidableEq

/-- `wire.Notification`: both kinds name a branch and a port. -/
structure Notice where
  guid : Guid
  port : Nat
  deriving DecidableEq

/-- The stages of the upstream exchange that the restore work looks at. -/
inductive UpStage where
  | busy | received | complete | empty
  deriving DecidableEq, Repr

/-- What the works use of code behind them. `R` is a record of the exchange, `S` a downstream and `U`
an upstream sideband exchange. -/
structure Ports (R S U : Type) where
  decode : Request → R → Except Fault Reply
  /-- `dp.receiverCaps`, as far as the works use it: rate, lanes, enhanced framing, post-adjust. -/
  receiverCaps : Vector Byte 16 → Except Fault (Nat × Nat × Bool × Bool)
  downInit : (root generation deadline : Nat) → Route → Bit → SideRequest → Except Fault S
  downPrepare : S → (generation now : Nat) → Except Fault (Option (Nat × AuxOp)) × S
  downNotBefore : S → Nat
  downConsume : S → (generation : Nat) → AuxReply → (serial now : Nat) → Except Fault Unit × S
  downComplete : S → Bool
  downReply : S → Except Fault SideReply
  downUpPending : S → Bool
  downPacketCount : S → Nat
  upInit : (root generation deadline : Nat) → Except Fault U
  upStage : U → UpStage
  upNotification : U → (generation : Nat) → Except Fault Notice
  upRoute : U → Route
  upRespond : U → (generation now : Nat) → (accepted : Bool) → Except Fault U
  upDownPending : U → Bool
  upNotBefore : U → Nat
  upPrepare : U → (generation now : Nat) → Except Fault (Option (Nat × AuxOp)) × U
  upConsume : U → (generation : Nat) → AuxReply → (serial now : Nat) → Except Fault Unit × U

/-! ## The plan of an output -/

/-- `binding.Stamp`. -/
structure Stamp where
  handle : Handle
  root : Nat
  displayId : Nat
  deriving DecidableEq

/-- The boot mode, as far as the works use it. `clock` is the pixel clock as `Clock.nvidia` reads it
and `total` the masked line length. -/
structure Mode where
  head : Nat
  window : Nat
  sor : Nat
  displayId : Nat
  mst : Option Stamp
  outputGeneration : Nat
  timing : Timing
  hasAudio : Bool
  deriving DecidableEq

/-- The RM objects of the display. -/
structure Object where
  epoch : Nat
  client : Nat
  display : Nat
  deriving DecidableEq

structure Plan where
  object : Object
  mode : Mode
  rootResource : Resource
  rootSource : DpSource
  rootDpcd : Vector Byte 16
  rootGuid : Guid
  deriving DecidableEq

/-- `link.Result`. -/
structure Result where
  stamp : Stamp
  training : Training
  payloadId : Nat
  demand : Demand
  revision : Nat
  corePoint : Nat
  windowPoint : Nat
  sourceReceipt : Nat
  tableReceipt : Nat
  actReceipt : Nat
  packetReceipt : Nat
  branchReceipt : Nat
  rateReceipt : Nat
  deriving DecidableEq

/-- The receipt tests of `Result.complete`. -/
def Result.ordered (r : Result) : Bool :=
  decide (r.training.receipt < r.sourceReceipt ∧ r.sourceReceipt < r.tableReceipt ∧
    r.tableReceipt < r.actReceipt ∧ r.actReceipt < r.packetReceipt ∧
    r.packetReceipt < r.branchReceipt ∧ r.branchReceipt < r.rateReceipt)

/-- The link of a result is one that source and sink carry, and its demand is that of the mode. -/
def Result.carried (links : Links) (caps : Except Fault (Nat × Nat × Bool × Bool)) (r : Result)
    (plan : Plan) : Bool :=
  match caps with
  | .error _ => false
  | .ok (rate, lanes, enhanced, _) =>
    r.training.source.mst && enhanced && decide (r.training.link.rate ≤ min rate r.training.source.rate) &&
      decide (r.training.link.lanes ≤ lanes) &&
      match Payload.demand links r.training.link plan.mode.timing with
      | .error _ => false
      | .ok wanted => wanted == r.demand

/-- The tests of `Result.complete` that are not about the order of receipts. -/
def Result.fits (links : Links) (caps : Except Fault (Nat × Nat × Bool × Bool)) (r : Result)
    (plan : Plan) : Bool :=
  plan.mode.mst == some r.stamp && r.revision != 0 && r.corePoint != 0 && r.windowPoint != 0 &&
    r.training.receipt != 0 && r.payloadId == plan.mode.head + 1 &&
    r.training.source == plan.rootSource && r.training.dpcd == plan.rootDpcd &&
    trained r.training.lanes r.training.link.lanes && r.carried links caps plan

/-- `Result.complete`. -/
def Result.complete {R S U : Type} (ports : Ports R S U) (links : Links) (r : Result) (plan : Plan) :
    Bool :=
  r.ordered && r.fits links (ports.receiverCaps r.training.dpcd) plan

/-! ## The root -/

/-- `discovery.Root` with the registry it belongs to. -/
structure Root (D : Type) where
  /-- The journal, the live state and the registry. -/
  tx : Transaction.World D
  id : Nat
  graph : Graph
  /-- The descriptors of the branches in full. -/
  descriptors : Nat → Option BranchInfo
  resource : Option Resource
  source : Option DpSource
  dpcd : Vector Byte 16
  mailboxPending : Bool
  mailboxDeadline : Nat
  sequence : Bit
  streamSerial : Nat
  payloadDirty : Bool

end Link
end Mst
end NvidiaGsp
