import NvidiaGsp.Lib.Bytes

/-!
# Mst.Topology

The records of an MST capture that the ID registry and the payload budget read
(`gsp_mst_topology.zig`, `gsp_mst_wire.zig`): routes, branches, edges and sinks of one root's
graph. Arrays are functions of an index; every reader checks the index against the count, and the
count against the array's length, before it reads. Fields that no modelled function reads (EDID
bytes, capability bytes, the per-item receipts) are left out.
-/

namespace NvidiaGsp
namespace Mst

/-- The errors of the MST modules; the source's errors are global names. -/
inductive Error where
  | Stale | Bounds | Descriptor | Duplicate | Retained | Capacity | Pending | State | Busy
  | Unsupported | Bandwidth
  /-- The code ran into an `unreachable` statement. -/
  | Unreachable
  deriving DecidableEq, Repr

/-- A branch or root GUID: sixteen bytes. -/
abbrev Guid := Vector Byte 16

def Guid.isZero (g : Guid) : Bool := g.all (· == 0)

/-- A relative address: the output port taken at each branch below the root. -/
structure Route where
  depth : Nat := 0
  ports : Vector Byte 14 := Vector.replicate 14 0
  deriving DecidableEq

def Route.valid (r : Route) : Bool :=
  decide (r.depth ≤ 14) &&
    (List.finRange 14).all fun i =>
      decide ((r.ports.get i).toNat ≤ 15) && (decide (i.val < r.depth) || r.ports.get i == 0)

def maxBranches : Nat := 8
def maxSinks : Nat := 16
def maxEdges : Nat := 120

structure Port where
  number : Nat := 0
  input : Bool := false
  connected : Bool := false
  legacyConnected : Bool := false
  deriving DecidableEq

/-- The ENUM_PATH_RESOURCES answer of an edge. -/
structure PathResources where
  totalPbn : Nat
  freePbn : Nat
  downstreamPbn : Option Nat := none
  deriving DecidableEq

structure Branch where
  route : Route := {}
  /-- The GUID of the branch's descriptor, once it was read. -/
  descriptor : Option Guid := none

structure Edge where
  branch : Nat := 0
  port : Port := {}
  resources : Option PathResources := none

structure Sink where
  edge : Nat := 0

structure Graph where
  epoch : Nat := 0
  generation : Nat := 0
  root : Nat := 0
  branchCount : Nat := 0
  edgeCount : Nat := 0
  sinkCount : Nat := 0
  branches : Nat → Branch := fun _ => {}
  edges : Nat → Edge := fun _ => {}
  sinks : Nat → Sink := fun _ => {}
  coherent : Bool := false
  completionReceipt : Nat := 0

end Mst
end NvidiaGsp
