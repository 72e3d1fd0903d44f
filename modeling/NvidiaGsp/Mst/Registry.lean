import NvidiaGsp.Lib.Calls
import NvidiaGsp.Mst.Topology

/-!
# Mst.Registry

Resident RM display-ID ownership across MST recaptures (`gsp_mst_registry.zig`). 32 slots hold the
sinks of up to eight roots; a slot keeps its RM display ID through recaptures until every image,
publication, stream lease and route hold is gone and RM has acknowledged its Free.

The `anytype` arguments (the observed output resource, a displayed image, a retirement) are records
of the fields the registry reads. The loop of `synchronize` that ends in `unreachable` answers
`Unreachable` there; no run reaches it.
-/

namespace NvidiaGsp
namespace Mst
namespace Registry

open Call

structure Handle where
  epoch : Nat
  serial : Nat
  slot : Nat
  deriving DecidableEq, Repr

structure StreamLease where
  epoch : Nat
  root : Nat
  serial : Nat
  deriving DecidableEq, Repr

structure Key where
  root : Nat := 0
  rootGuid : Guid := Vector.replicate 16 0
  branchGuid : Guid := Vector.replicate 16 0
  route : Route := {}
  port : Nat := 0
  deriving DecidableEq

inductive State where
  | vacant | reserved | allocated | verified | unavailable | retiring
  deriving DecidableEq, Repr

inductive Pending where
  | none | allocate | free
  deriving DecidableEq, Repr

structure Image where
  head : Nat
  window : Nat
  dma : Nat
  corePoint : Nat
  windowPoint : Nat
  deriving DecidableEq, Repr

structure RouteHold where
  head : Nat
  window : Nat
  deriving DecidableEq, Repr

structure Slot where
  serial : Nat := 0
  key : Key := {}
  state : State := .vacant
  generation : Nat := 0
  sourceReceipt : Nat := 0
  sink : Nat := 0
  sor : Nat := 0
  link : Nat := 0
  displayId : Nat := 0
  allocationReceipt : Nat := 0
  resourceReceipt : Nat := 0
  detachReceipt : Nat := 0
  pending : Pending := .none
  published : Bool := false
  image : Option Image := none
  streamLease : Option StreamLease := none
  routeHold : Option RouteHold := none
  deriving DecidableEq

structure Root where
  id : Nat := 0
  generation : Nat := 0
  receipt : Nat := 0
  deriving DecidableEq

def slotCount : Nat := 32
def rootCount : Nat := 8
def maxU64 : Nat := 2 ^ 64 - 1

structure Reg where
  epoch : Nat := 0
  nextSerial : Nat := 0
  physicalMask : Nat := 0
  roots : Fin rootCount → Root := fun _ => {}
  slots : Fin slotCount → Slot := fun _ => {}

abbrev Op (α : Type) := Call Error Reg α

/-- The RM control queries the registry hands out. -/
inductive Query where
  | allocate (root : Nat)
  | free (displayId : Nat)
  deriving DecidableEq, Repr

/-- GET_OUTPUT_RESOURCE_PARAMS as returned for an ID. -/
structure Observed where
  dynamic : Bool
  rootPortId : Nat
  index : Nat
  kind : Nat
  protocol : Nat
  location : Nat
  deriving DecidableEq

/-- The boot mode of a displayed image. -/
structure Mode where
  epoch : Nat
  outputGeneration : Nat
  head : Nat
  window : Nat
  displayId : Nat
  sor : Nat
  deriving DecidableEq

structure Displayed where
  bootMode : Option Mode
  dma : Nat
  corePoint : Nat
  windowPoint : Nat
  /-- The image's link proof: absent, or present with the answer of its `complete()`. -/
  link : Option Bool
  deriving DecidableEq

structure Retirement where
  epoch : Nat
  image : Displayed
  corePoint : Nat
  windowPoint : Nat
  observedNs : Nat
  linkStopReceipt : Nat
  deriving DecidableEq

/-- Not a single bit: zero, or with more than one bit set. -/
def notSingleBit (id : Nat) : Prop := id = 0 ∨ id &&& (id - 1) ≠ 0

instance (id : Nat) : Decidable (notSingleBit id) := inferInstanceAs (Decidable (_ ∨ _))

/-! ## Lookups -/

def key (graph : Graph) (index : Nat) : Except Error Key :=
  if index ≥ graph.sinkCount then .error .Bounds else
  let sink := graph.sinks index
  if sink.edge ≥ graph.edgeCount then .error .Descriptor else
  let edge := graph.edges sink.edge
  if edge.branch ≥ graph.branchCount ∨ edge.port.input = true ∨
      (edge.port.connected = false ∧ edge.port.legacyConnected = false) then .error .Descriptor else
  let branch := graph.branches edge.branch
  match branch.descriptor, (graph.branches 0).descriptor with
  | none, _ => .error .Descriptor
  | _, none => .error .Descriptor
  | some guid, some rootGuid =>
    if branch.route.valid = false ∨ guid.isZero = true ∨ rootGuid.isZero = true then
      .error .Descriptor
    else .ok ⟨graph.root, rootGuid, guid, branch.route, edge.port.number⟩

/-- Is the slot occupied under this key? -/
def Slot.has (s : Slot) (k : Key) : Bool := s.state != .vacant && s.key == k

def Reg.find (r : Reg) (k : Key) : Option (Fin slotCount) :=
  (List.finRange slotCount).find? fun i => (r.slots i).has k

def slot (value : Handle) : Op (Fin slotCount) := do
  let r ← get
  failIf (r.epoch = 0 ∨ value.epoch ≠ r.epoch ∨ value.serial = 0) .Stale
  let i ← need (if h : value.slot < slotCount then some ⟨value.slot, h⟩ else none) .Stale
  failIf ((r.slots i).serial ≠ value.serial ∨ (r.slots i).state = .vacant) .Stale
  return i

def Reg.handle (r : Reg) (index : Nat) : Except Error Handle :=
  if h : index < slotCount then
    if r.epoch = 0 ∨ (r.slots ⟨index, h⟩).state = .vacant then .error .Stale
    else .ok ⟨r.epoch, (r.slots ⟨index, h⟩).serial, index⟩
  else .error .Stale

def Reg.setSlot (r : Reg) (i : Fin slotCount) (s : Slot) : Reg :=
  { r with slots := Function.update r.slots i s }

def Reg.setRoot (r : Reg) (i : Fin rootCount) (root : Root) : Reg :=
  { r with roots := Function.update r.roots i root }

/-- Write one slot, from what it holds. -/
def update (i : Fin slotCount) (f : Slot → Slot) : Op Unit :=
  modify fun r => r.setSlot i (f (r.slots i))

/-! ## Stream leases -/

/-- The preflight loop of `holdStreams`; `seen` are the handles already checked. -/
def checkHold (lease : StreamLease) (seen : List Handle) : List Handle → Op Unit
  | [] => pure ()
  | v :: rest => do
    let i ← slot v
    let r ← get
    let entry := r.slots i
    failIf (v ∈ seen) .Duplicate
    failIf (entry.key.root ≠ lease.root ∨ entry.displayId = 0 ∨ entry.pending ≠ .none ∨
      (entry.state ≠ .verified ∧ entry.state ≠ .retiring) ∨ entry.streamLease ≠ none) .Retained
    checkHold lease (v :: seen) rest

/-- The preflight loop of `releaseStreams`. -/
def checkRelease (lease : StreamLease) (seen : List Handle) : List Handle → Op Unit
  | [] => pure ()
  | v :: rest => do
    let i ← slot v
    let r ← get
    failIf (v ∈ seen) .Duplicate
    failIf ((r.slots i).streamLease ≠ some lease) .Stale
    checkRelease lease (v :: seen) rest

def Reg.setLease (r : Reg) (index : Nat) (lease : Option StreamLease) : Reg :=
  { r with slots := fun i =>
      if i.val = index then { r.slots i with streamLease := lease } else r.slots i }

/-- Write the lease of every handle's slot, in order. -/
def writeLeases (lease : Option StreamLease) : List Handle → Op Unit
  | [] => pure ()
  | v :: rest => do
    modify fun r => r.setLease v.slot lease
    writeLeases lease rest

def holdStreams (lease : StreamLease) (handles : List Handle) : Op Unit := do
  let r ← get
  failIf (lease.epoch = 0 ∨ lease.epoch ≠ r.epoch ∨ lease.serial = 0 ∨ notSingleBit lease.root ∨
    handles.length = 0 ∨ handles.length > 16) .Descriptor
  checkHold lease [] handles
  writeLeases (some lease) handles

def releaseStreams (lease : StreamLease) (handles : List Handle) : Op Unit := do
  let r ← get
  failIf (lease.epoch ≠ r.epoch ∨ lease.serial = 0 ∨ handles.length = 0 ∨ handles.length > 16)
    .Stale
  checkRelease lease [] handles
  writeLeases none handles

/-! ## Recapture -/

/-- The root record of the graph: its own, checked for progress, or the first unused one. -/
def rootFor (r : Reg) (graph : Graph) : Except Error (Fin rootCount) :=
  match (List.finRange rootCount).find? fun i => (r.roots i).id == graph.root with
  | some i =>
    if (r.roots i).generation ≥ graph.generation ∨ (r.roots i).receipt ≥ graph.completionReceipt then
      .error .Stale
    else .ok i
  | none =>
    match (List.finRange rootCount).find? fun i => (r.roots i).id == 0 with
    | some i => .ok i
    | none => .error .Capacity

/-- The first pass over the slots: nothing pending, no ID in the mask; counts the vacant ones. -/
def survey (r : Reg) (mask : Nat) : List (Fin slotCount) → Except Error Nat
  | [] => .ok 0
  | i :: rest =>
    if (r.slots i).pending ≠ .none then .error .Pending
    else if (r.slots i).displayId &&& mask ≠ 0 then .error .Descriptor
    else (survey r mask rest).map (· + if (r.slots i).state = .vacant then 1 else 0)

/-- The keys of the first `n` sinks, and how many of them are new. -/
def planKeys (r : Reg) (graph : Graph) (sor link : Nat) : Nat → Except Error (List Key × Nat)
  | 0 => .ok ([], 0)
  | n + 1 =>
    match planKeys r graph sor link n with
    | .error e => .error e
    | .ok (keys, needed) =>
      match key graph n with
      | .error e => .error e
      | .ok k =>
        if k ∈ keys then .error .Duplicate else
        match r.find k with
        | some i =>
          if (r.slots i).sor ≠ sor ∨ (r.slots i).link ≠ link then .error .Stale
          else .ok (keys ++ [k], needed)
        | none => .ok (keys ++ [k], needed + 1)

/-- An unallocated slot of the root that the new capture does not name. -/
def Slot.reclaimable (s : Slot) (root : Nat) (keys : List Key) : Bool :=
  s.state != .vacant && s.key.root == root && s.displayId == 0 && !(keys.contains s.key)

/-- The slot of the root has no ID but still carries a reference. -/
def Slot.corrupt (s : Slot) (root : Nat) : Bool :=
  s.state != .vacant && s.key.root == root && s.displayId == 0 &&
    (s.image.isSome || s.published || s.streamLease.isSome || s.routeHold.isSome)

/-- The pass that finds the slots to reclaim; counts them. -/
def planReclaim (r : Reg) (root : Nat) (keys : List Key) : List (Fin slotCount) → Except Error Nat
  | [] => .ok 0
  | i :: rest =>
    if (r.slots i).corrupt root = true then .error .Descriptor
    else (planReclaim r root keys rest).map
      (· + if (r.slots i).reclaimable root keys = true then 1 else 0)

def Reg.reclaim (r : Reg) (root : Nat) (keys : List Key) : Reg :=
  { r with slots := fun i => if (r.slots i).reclaimable root keys then {} else r.slots i }

/-- What a recapture writes into a slot it names again. -/
def Slot.recaptured (s : Slot) (graph : Graph) (index : Nat) : Slot :=
  let s := { s with generation := graph.generation, sourceReceipt := graph.completionReceipt,
                    sink := index }
  let s := if s.state = .verified then { s with state := .allocated } else s
  let s := if s.state = .retiring then
    { s with state := if s.displayId = 0 then .reserved else .allocated } else s
  if s.state = .unavailable then { s with state := .reserved } else s

def Reg.firstVacant (r : Reg) : Option (Fin slotCount) :=
  (List.finRange slotCount).find? fun i => (r.slots i).state == .vacant

/-- Admit the key of sink `index`: its slot, or the first vacant one under a new serial. -/
def admitKey (graph : Graph) (sor link index : Nat) (k : Key) : Op Unit := do
  let r ← get
  match r.find k with
  | some i => update i (·.recaptured graph index)
  | none => do
    let i ← need r.firstVacant .Unreachable
    modify fun r => { r with nextSerial := r.nextSerial + 1 }
    modify fun r =>
      r.setSlot i { serial := r.nextSerial, key := k, state := .reserved, sor := sor, link := link }
    update i (·.recaptured graph index)

/-- Admit the keys in sink order, starting at `index`. -/
def admitAll (graph : Graph) (sor link : Nat) : Nat → List Key → Op Unit
  | _, [] => pure ()
  | index, k :: rest => do
    admitKey graph sor link index k
    admitAll graph sor link (index + 1) rest

/-- The last pass: a slot of the root that the capture did not name retires, or is dropped when it
has no ID. -/
def Slot.swept (s : Slot) (graph : Graph) : Slot :=
  if s.state ≠ .vacant ∧ s.key.root = graph.root ∧ s.generation ≠ graph.generation then
    if s.displayId = 0 then {} else { s with state := .retiring }
  else s

def Reg.sweep (r : Reg) (graph : Graph) : Reg :=
  { r with slots := fun i => (r.slots i).swept graph }

/-- The graph and its placement are fit for a recapture of this registry. -/
def badGraph (r : Reg) (graph : Graph) (sor link mask : Nat) : Prop :=
  graph.coherent = false ∨ graph.epoch = 0 ∨ graph.generation = 0 ∨ notSingleBit graph.root ∨
    graph.completionReceipt = 0 ∨ graph.branchCount = 0 ∨ graph.branchCount > maxBranches ∨
    graph.sinkCount > maxSinks ∨ graph.edgeCount > maxEdges ∨ sor ≥ 8 ∨ link > 1 ∨
    graph.root &&& mask = 0 ∨ (r.epoch ≠ 0 ∧ r.epoch ≠ graph.epoch)

instance (r : Reg) (graph : Graph) (sor link mask : Nat) :
    Decidable (badGraph r graph sor link mask) := by
  unfold badGraph
  infer_instance

def synchronize (graph : Graph) (sor link mask : Nat) : Op Unit := do
  let r ← get
  failIf (badGraph r graph sor link mask) .Stale
  let root ← lift (rootFor r graph)
  let vacant ← lift (survey r mask (List.finRange slotCount))
  let (keys, needed) ← lift (planKeys r graph sor link graph.sinkCount)
  let reclaimed ← lift (planReclaim r graph.root keys (List.finRange slotCount))
  failIf (needed > vacant + reclaimed ∨ needed > maxU64 - r.nextSerial) .Capacity
  modify fun r => { r with epoch := graph.epoch, physicalMask := r.physicalMask ||| mask }
  modify fun r => r.setRoot root ⟨graph.root, graph.generation, graph.completionReceipt⟩
  modify fun r => r.reclaim graph.root keys
  admitAll graph sor link 0 keys
  modify fun r => r.sweep graph

/-! ## RM allocation -/

def allocate (value : Handle) : Op Query := do
  let i ← slot value
  let r ← get
  let entry := r.slots i
  failIf (entry.state ≠ .reserved ∨ entry.pending ≠ .none ∨ entry.displayId ≠ 0) .State
  update i ({ · with pending := .allocate })
  return .allocate entry.key.root

def allocated (value : Handle) (id serial : Nat) : Op Unit := do
  let i ← slot value
  let r ← get
  let entry := r.slots i
  failIf (entry.state ≠ .reserved ∨ entry.pending ≠ .allocate ∨ serial ≤ entry.sourceReceipt ∨
    notSingleBit id ∨ id &&& r.physicalMask ≠ 0) .Stale
  failIf (∃ j, (r.slots j).displayId = id) .Duplicate
  update i ({ · with displayId := id, allocationReceipt := serial, pending := .none,
                     state := .allocated })

def allocationRejected (value : Handle) (serial : Nat) : Op Unit := do
  let i ← slot value
  let r ← get
  let entry := r.slots i
  failIf (entry.state ≠ .reserved ∨ entry.pending ≠ .allocate ∨ serial ≤ entry.sourceReceipt) .Stale
  update i ({ · with pending := .none, state := .unavailable })

def cancelled (value : Handle) : Op Unit := do
  let i ← slot value
  let r ← get
  let entry := r.slots i
  failIf (entry.pending = .allocate ∧ (entry.state ≠ .reserved ∨ entry.displayId ≠ 0)) .State
  failIf (entry.pending = .free ∧ (entry.state ≠ .retiring ∨ entry.displayId = 0)) .State
  failIf (entry.pending = .none) .State
  update i ({ · with pending := .none })

def resource (value : Handle) (observed : Observed) (serial : Nat) : Op Unit := do
  let i ← slot value
  let r ← get
  let entry := r.slots i
  failIf (entry.state ≠ .allocated ∨ entry.pending ≠ .none ∨ serial ≤ entry.sourceReceipt ∨
    serial ≤ entry.allocationReceipt ∨ observed.dynamic = false ∨
    observed.rootPortId ≠ entry.key.root ∨ observed.index ≠ entry.sor ∨ observed.kind ≠ 2 ∨
    observed.protocol ≠ 8 + entry.link ∨ observed.location ≠ 0) .Stale
  update i ({ · with resourceReceipt := serial, state := .verified })

/-! ## Publication, routes and images -/

def publish (value : Handle) (generation : Nat) : Op Unit := do
  let i ← slot value
  let r ← get
  let entry := r.slots i
  failIf (entry.state ≠ .verified ∨ entry.pending ≠ .none ∨ entry.generation ≠ generation ∨
    entry.resourceReceipt ≤ entry.sourceReceipt) .Stale
  update i ({ · with published := true })

def unpublish (value : Handle) : Op Unit := do
  let i ← slot value
  let r ← get
  let entry := r.slots i
  failIf (entry.state = .vacant ∨ entry.pending ≠ .none) .State
  update i ({ · with published := false })

/-- Another slot's route uses the head or the window. -/
def RouteHold.clashes (a b : RouteHold) : Prop := a.head = b.head ∨ a.window = b.window

instance (a b : RouteHold) : Decidable (a.clashes b) := inferInstanceAs (Decidable (_ ∨ _))

def holdRoute (value : Handle) (route : RouteHold) : Op Unit := do
  let i ← slot value
  let r ← get
  let entry := r.slots i
  failIf (entry.state ≠ .verified ∨ entry.pending ≠ .none ∨ entry.displayId = 0 ∨ route.head ≥ 8 ∨
    route.window ≥ 8 ∨ (entry.routeHold ≠ none ∧ entry.routeHold ≠ some route)) .Stale
  failIf (∃ j, j ≠ i ∧ (r.slots j).routeHold.any (fun held => decide (held.clashes route)) = true)
    .Retained
  update i ({ · with routeHold := some route })

def releaseRoute (value : Handle) (route : RouteHold) : Op Unit := do
  let i ← slot value
  let r ← get
  let entry := r.slots i
  failIf (entry.routeHold ≠ some route ∨ entry.pending ≠ .none ∨ entry.image ≠ none ∨
    entry.published = true ∨ entry.streamLease ≠ none) .Retained
  update i ({ · with routeHold := none })

/-- The image a displayed record stands for. -/
def image (value : Displayed) : Except Error Image :=
  match value.bootMode with
  | none => .error .Descriptor
  | some mode =>
    if mode.head ≥ 8 ∨ mode.window ≥ 8 ∨ value.dma = 0 ∨ value.corePoint = 0 ∨
        value.windowPoint = 0 ∨ value.link ≠ some true then .error .Descriptor
    else .ok ⟨mode.head, mode.window, value.dma, value.corePoint, value.windowPoint⟩

def activated (value : Handle) (displayed : Displayed) : Op Unit := do
  let i ← slot value
  let r ← get
  let entry := r.slots i
  let mode ← need displayed.bootMode .Descriptor
  failIf (entry.pending ≠ .none ∨ mode.epoch ≠ r.epoch ∨ mode.displayId ≠ entry.displayId ∨
    mode.sor ≠ entry.sor) .Stale
  failIf (entry.image = none ∧
    (entry.state ≠ .verified ∨ mode.outputGeneration ≠ entry.generation)) .Stale
  failIf (entry.image ≠ none ∧
    ((entry.state ≠ .verified ∧ entry.state ≠ .allocated ∧ entry.state ≠ .retiring) ∨
      mode.outputGeneration > entry.generation)) .Stale
  let active ← lift (image displayed)
  failIf (entry.image.any (fun prior => decide (active.head ≠ prior.head ∨
    active.window ≠ prior.window ∨ active.corePoint < prior.corePoint ∨
    active.windowPoint ≤ prior.windowPoint)) = true) .Stale
  update i ({ · with image := some active })

def detached (value : Handle) (retirement : Retirement) : Op Unit := do
  let i ← slot value
  let r ← get
  let entry := r.slots i
  let active ← need entry.image .State
  let mode ← need retirement.image.bootMode .Descriptor
  failIf (entry.pending ≠ .none ∨ retirement.epoch ≠ r.epoch ∨ mode.epoch ≠ r.epoch ∨
    mode.displayId ≠ entry.displayId) .Stale
  let saved ← lift (image retirement.image)
  failIf (active ≠ saved ∨ retirement.corePoint ≤ active.corePoint ∨
    retirement.windowPoint ≤ active.windowPoint ∨ retirement.observedNs = 0 ∨
    retirement.linkStopReceipt ≤ entry.allocationReceipt) .Stale
  update i ({ · with image := none, detachReceipt := retirement.linkStopReceipt })

/-! ## Retirement and RM Free -/

def retire (value : Handle) : Op Unit := do
  let i ← slot value
  let r ← get
  let entry := r.slots i
  failIf (entry.pending ≠ .none) .Pending
  update i fun s => if s.displayId = 0 then {} else { s with state := .retiring }

/-- Something still refers to the slot's display ID. -/
def Slot.Referenced (s : Slot) : Prop :=
  s.published = true ∨ s.image ≠ none ∨ s.streamLease ≠ none ∨ s.routeHold ≠ none

instance (s : Slot) : Decidable s.Referenced := inferInstanceAs (Decidable (_ ∨ _))

def free (value : Handle) : Op Query := do
  let i ← slot value
  let r ← get
  let entry := r.slots i
  failIf (entry.state ≠ .retiring ∨ entry.pending ≠ .none ∨ entry.displayId = 0 ∨
    entry.Referenced) .Retained
  update i ({ · with pending := .free })
  return .free entry.displayId

/-- The latest receipt a Free acknowledgement must follow. -/
def Slot.lastReceipt (s : Slot) : Nat :=
  max s.sourceReceipt (max s.allocationReceipt (max s.resourceReceipt s.detachReceipt))

def freed (value : Handle) (serial : Nat) : Op Unit := do
  let i ← slot value
  let r ← get
  let entry := r.slots i
  failIf (entry.state ≠ .retiring ∨ entry.pending ≠ .free ∨ entry.Referenced ∨
    serial ≤ entry.lastReceipt) .Stale
  update i fun _ => {}

def freeRejected (value : Handle) (serial : Nat) : Op Unit := do
  let i ← slot value
  let r ← get
  let entry := r.slots i
  failIf (entry.state ≠ .retiring ∨ entry.pending ≠ .free ∨ serial ≤ entry.lastReceipt) .Stale
  update i ({ · with pending := .none })

/-! ## The registry as a machine -/

inductive Request where
  | synchronize (graph : Graph) (sor link mask : Nat)
  | allocate (value : Handle)
  | allocated (value : Handle) (id serial : Nat)
  | allocationRejected (value : Handle) (serial : Nat)
  | cancelled (value : Handle)
  | resource (value : Handle) (observed : Observed) (serial : Nat)
  | publish (value : Handle) (generation : Nat)
  | unpublish (value : Handle)
  | holdStreams (lease : StreamLease) (handles : List Handle)
  | releaseStreams (lease : StreamLease) (handles : List Handle)
  | holdRoute (value : Handle) (route : RouteHold)
  | releaseRoute (value : Handle) (route : RouteHold)
  | activated (value : Handle) (displayed : Displayed)
  | detached (value : Handle) (retirement : Retirement)
  | retire (value : Handle)
  | free (value : Handle)
  | freed (value : Handle) (serial : Nat)
  | freeRejected (value : Handle) (serial : Nat)

/-- What a call returned. -/
inductive Answer where
  | done
  | query (q : Query)
  | failed (e : Error)
  deriving DecidableEq

/-- The answer to a call, `ok` read by `f`. -/
def answer {α : Type} (f : α → Answer) (x : Op α) (r : Reg) : Answer × Reg :=
  match x r with
  | .ok a r' => (f a, r')
  | .error e r' => (.failed e, r')

/-- The answer to a call that returns nothing. -/
def perform (x : Op Unit) (r : Reg) : Answer × Reg := answer (fun _ => .done) x r

def step (r : Reg) : Request → Answer × Reg
  | .synchronize graph sor link mask => perform (synchronize graph sor link mask) r
  | .allocate value => answer .query (allocate value) r
  | .allocated value id serial => perform (allocated value id serial) r
  | .allocationRejected value serial => perform (allocationRejected value serial) r
  | .cancelled value => perform (cancelled value) r
  | .resource value observed serial => perform (resource value observed serial) r
  | .publish value generation => perform (publish value generation) r
  | .unpublish value => perform (unpublish value) r
  | .holdStreams lease handles => perform (holdStreams lease handles) r
  | .releaseStreams lease handles => perform (releaseStreams lease handles) r
  | .holdRoute value route => perform (holdRoute value route) r
  | .releaseRoute value route => perform (releaseRoute value route) r
  | .activated value displayed => perform (activated value displayed) r
  | .detached value retirement => perform (detached value retirement) r
  | .retire value => perform (retire value) r
  | .free value => answer .query (free value) r
  | .freed value serial => perform (freed value serial) r
  | .freeRejected value serial => perform (freeRejected value serial) r

end Registry
end Mst
end NvidiaGsp
