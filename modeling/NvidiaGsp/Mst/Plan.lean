import NvidiaGsp.Mst.Budget

/-!
# Mst.Plan

Planning a payload table (`gsp_mst_payload.plan`, `gsp_mst_budget.planInPlace`) and removing a stream
from one (`gsp_mst_budget.remove`). A plan keeps the streams of the live table in order, leaves out
the one it replaces and appends the replacement; the bandwidth of every edge on a path is charged
against what the branch reports free and what the captured table already owns.
-/

namespace NvidiaGsp
namespace Mst
namespace Payload

open Registry (notSingleBit)

/-! ## Slots and bandwidth -/

/-- What an edge may carry: in all, free, and owned by the captured streams. -/
structure Path where
  totalPbn : Nat
  freePbn : Nat
  ownedPbn : Nat := 0

/-- One stream to allot; `path` are indices into the paths. -/
structure Wanted where
  displayId : Nat
  payloadId : Nat
  head : Nat
  timing : Timing
  path : List Nat

/-- The table so far, with the masks and the charged bandwidth. -/
structure Allotted where
  slots : Nat := 0
  usedPbn : Nat := 0
  allocations : List Allocation := []
  displays : Nat := 0
  payloads : Nat := 0
  heads : Nat := 0
  used : Nat → Nat := fun _ => 0

/-- The edges of one stream are charged with its PBN, none twice. -/
def charge (paths : List Path) (pbn : Nat) (seen : List Nat) (used : Nat → Nat) :
    List Nat → Except Error (Nat → Nat)
  | [] => .ok used
  | index :: rest =>
    match paths[index]? with
    | none => .error .Descriptor
    | some path =>
      if index ∈ seen then .error .Descriptor
      else if used index + pbn > path.freePbn + path.ownedPbn then .error .Bandwidth
      else charge paths pbn (index :: seen) (Function.update used index (used index + pbn)) rest

def allot (links : Links) (link : Link) (paths : List Path) (s : Allotted) (item : Wanted) :
    Except Error Allotted :=
  if notSingleBit item.displayId ∨ item.payloadId = 0 ∨ item.payloadId > 63 ∨ item.head ≥ 8 ∨
      item.path.length = 0 ∨ item.path.length > maxPath then .error .Descriptor
  else if s.displays &&& item.displayId ≠ 0 ∨ s.payloads &&& (1 <<< item.payloadId) ≠ 0 ∨
      s.heads &&& (1 <<< item.head) ≠ 0 then .error .Duplicate
  else match demand links link item.timing with
  | .error e => .error e
  | .ok required =>
    if s.slots + required.slots > 63 then .error .Bandwidth
    else match charge paths required.pbn [] s.used item.path with
    | .error e => .error e
    | .ok used => .ok
      { slots := s.slots + required.slots
        usedPbn := s.usedPbn + required.pbn
        allocations := s.allocations ++
          [⟨item.displayId, item.payloadId, item.head, s.slots + 1, required⟩]
        displays := s.displays ||| item.displayId
        payloads := s.payloads ||| (1 <<< item.payloadId)
        heads := s.heads ||| (1 <<< item.head)
        used }

def allotAll (links : Links) (link : Link) (paths : List Path) (s : Allotted) :
    List Wanted → Except Error Allotted
  | [] => .ok s
  | item :: rest =>
    match allot links link paths s item with
    | .error e => .error e
    | .ok s => allotAll links link paths s rest

def plan (links : Links) (link : Link) (paths : List Path) (wanted : List Wanted) :
    Except Error Allotted :=
  match link.pbnPerSlot links with
  | .error e => .error e
  | .ok _ =>
    if wanted.length > maxStreams ∨ paths.length > maxEdges then .error .Unsupported
    else if paths.any fun path => decide (path.freePbn > path.totalPbn ∨
        path.ownedPbn > path.totalPbn ∨ path.freePbn + path.ownedPbn > path.totalPbn) then
      .error .Descriptor
    else allotAll links link paths {} wanted

/-! ## The edges of a graph -/

def PathEdge.capture (graph : Graph) (index : Nat) : Except Error PathEdge :=
  if index ≥ graph.edgeCount ∨ graph.edgeCount > maxEdges then .error .Bounds else
  let edge := graph.edges index
  if edge.branch ≥ graph.branchCount ∨ graph.branchCount > maxBranches ∨ edge.port.input = true then
    .error .Descriptor
  else
  let branch := graph.branches edge.branch
  match branch.descriptor with
  | none => .error .Stale
  | some guid =>
    if branch.route.valid = false ∨ guid.isZero = true then .error .Stale
    else .ok ⟨guid, branch.route, edge.port.number⟩

/-- What the captured streams hold of an edge. -/
def Table.owned (captured : Table) (key : PathEdge) : Nat :=
  (captured.used.map fun entry =>
    (entry.path.toList.take entry.pathCount).count key * entry.allocation.demand.pbn).sum

/-- The name and the bandwidth of edge `index`; `before` are the edges already captured. -/
def captureEdge (graph : Graph) (captured : Table) (before : List (PathEdge × Path)) (index : Nat) :
    Except Error (PathEdge × Path) :=
  match (graph.edges index).resources with
  | none => .error .Stale
  | some resources =>
    match PathEdge.capture graph index with
    | .error e => .error e
    | .ok key =>
      if key ∈ before.map Prod.fst then .error .Descriptor else
      let owned := captured.owned key
      if owned > resources.totalPbn ∨ resources.freePbn + owned > resources.totalPbn then
        .error .Stale
      else
      -- The physical link below the branch may carry less than the branch.
      let limit := min resources.totalPbn (resources.downstreamPbn.getD resources.totalPbn)
      if owned > limit then .error .Bandwidth
      else .ok (key, ⟨limit, min limit (resources.freePbn + owned) - owned, owned⟩)

def captureEdges (graph : Graph) (captured : Table) : Nat → Except Error (List (PathEdge × Path))
  | 0 => .ok []
  | n + 1 =>
    match captureEdges graph captured n with
    | .error e => .error e
    | .ok before =>
      match captureEdge graph captured before n with
      | .error e => .error e
      | .ok edge => .ok (before ++ [edge])

/-! ## Plans -/

/-- A table of these entries. -/
def Table.ofList (entries : List Entry) (slots usedPbn : Nat) : Table where
  count := entries.length
  slots := slots
  usedPbn := usedPbn
  entries := Vector.ofFn fun i => entries.getD i.val {}

/-- The indices of a path among the edges; the last match counts. -/
def pathIndices (keys : List PathEdge) : List PathEdge → Except Error (List Nat)
  | [] => .ok []
  | path :: rest =>
    match ((List.range keys.length).filter fun i => keys[i]? == some path).getLast? with
    | none => .error .Stale
    | some index =>
      match pathIndices keys rest with
      | .error e => .error e
      | .ok indices => .ok (index :: indices)

def request (graph : Graph) (keys : List PathEdge) (entry : Entry) : Except Error Wanted :=
  if entry.handle.epoch ≠ graph.epoch ∨ entry.handle.serial = 0 ∨ entry.key.root ≠ graph.root ∨
      entry.window ≥ 8 ∨ entry.pathCount = 0 ∨ entry.pathCount > maxPath then .error .Stale
  else match pathIndices keys (entry.path.toList.take entry.pathCount) with
  | .error e => .error e
  | .ok path => .ok ⟨entry.allocation.displayId, entry.allocation.head + 1, entry.allocation.head,
      entry.timing, path⟩

/-- The requests of the streams, at most as many as a table holds. -/
def requests (graph : Graph) (keys : List PathEdge) (wanted : List Wanted) :
    List Entry → Except Error (List Wanted)
  | [] => .ok wanted
  | entry :: rest =>
    match request graph keys entry with
    | .error e => .error e
    | .ok item =>
      if wanted.length = maxStreams then .error .Capacity
      else requests graph keys (wanted ++ [item]) rest

/-- The graph, or the proof of the live table, is out of date. -/
def Outdated (graph : Graph) (state : State) (link : Link) : Prop :=
  graph.coherent = false ∨ graph.epoch = 0 ∨ graph.root = 0 ∨ graph.generation = 0 ∨
    graph.completionReceipt = 0 ∨ graph.edgeCount > maxEdges ∨ graph.branchCount > maxBranches ∨
    (state.epoch ≠ 0 ∧ (state.epoch ≠ graph.epoch ∨ state.root ≠ graph.root)) ∨
    state.revision = 2 ^ 64 - 1 ∨
    (state.table.count ≠ 0 ∧ (state.completionReceipt = 0 ∨ state.revision = 0 ∨
      ¬ state.training.any fun t => t.link == link))

instance (graph : Graph) (state : State) (link : Link) : Decidable (Outdated graph state link) := by
  unfold Outdated
  infer_instance

/-- The streams of the target: the others in order, then the replacement. -/
def replaced (table : Table) (replacement : Entry) : List Entry :=
  (table.used.filter fun entry => entry.allocation.displayId != replacement.allocation.displayId) ++
    [replacement]

/-- `if (c) return error.E;` of a function that keeps no state. -/
def check (c : Prop) [Decidable c] (e : Error) : Except Error Unit := if c then .error e else .ok ()

def planInPlace (links : Links) (graph : Graph) (state : State) (captured : Table) (link : Link)
    (replacement : Entry) : Except Error Budget := do
  check (Outdated graph state link) .Stale
  validateTable links state.table graph.epoch graph.root link
  validateTable links captured graph.epoch graph.root link
  let edges ← captureEdges graph captured graph.edgeCount
  check ((state.table.find replacement.allocation.displayId).any fun old =>
    decide (old.allocation.head ≠ replacement.allocation.head ∨ old.window ≠ replacement.window ∨
      old.key ≠ replacement.key ∨ old.handle ≠ replacement.handle)) .Stale
  check (replacement.allocation.head ≥ 8 ∨ replacement.pathCount = 0 ∨
    replacement.pathCount > maxPath) .Descriptor
  let entries := replaced state.table replacement
  let wanted ← requests graph (edges.map Prod.fst) [] entries
  let allotted ← plan links link (edges.map Prod.snd) wanted
  let table := Table.ofList
    (List.zipWith (fun entry item => { entry with allocation := item }) entries allotted.allocations)
    allotted.slots allotted.usedPbn
  validateTable links table graph.epoch graph.root link
  return ⟨link, table⟩

/-! ## Removal -/

/-- The streams left when `id` goes, moved up from `slots`. -/
def compact (id slots : Nat) : List Entry → List Entry
  | [] => []
  | entry :: rest =>
    if entry.allocation.displayId = id then compact id slots rest
    else { entry with allocation := { entry.allocation with start := slots + 1 } } ::
      compact id (slots + entry.allocation.demand.slots) rest

def sumSlots (entries : List Entry) : Nat := (entries.map fun e => e.allocation.demand.slots).sum

def sumPbn (entries : List Entry) : Nat := (entries.map fun e => e.allocation.demand.pbn).sum

def remove (links : Links) (table : Table) (epoch root : Nat) (link : Link) (id : Nat) :
    Except Error Table := do
  validateTable links table epoch root link
  check (table.find id = none) .Stale
  let entries := compact id 0 table.used
  let result := Table.ofList entries (sumSlots entries) (sumPbn entries)
  validateTable links result epoch root link
  return result

end Payload
end Mst
end NvidiaGsp
