import NvidiaGsp.Lib.Calls

/-!
# Rm.Names

The session-owned RM namespace (`gsp_rm_names.zig`): one ledger issues client handles and ranges
of object names, keeps the live leases in a table of 64 clients, and the live child ranges in a
table of 256 or, for general resources, in caller-owned storages linked into a treap keyed by the
first object name. Slots are reused; names never are.

The ledger stands at a fixed address `here`. `World` is the ledger together with the memory of the
caller-owned storages, indexed by their address; `std.Treap` is an ordered map from a first object
name to the address of the storage that holds its node. The node's links are the map's own and are
not modelled.
-/

namespace NvidiaGsp
namespace Names

open Call

inductive Error where
  | Stale | Bounds | Exhausted | Retained
  deriving DecidableEq, Repr

def maxClients : Nat := 64
def clientBase : Nat := 0xc1d00000
def clientMask : Nat := 0x0000ffff
def objectFirst : Nat := 0x10000000
def objectEnd : Nat := 0x80000000
def maxChildRanges : Nat := 256
/-- Marks a child range held in a caller-owned storage: `std.math.maxInt(u16)`. -/
def residentSlot : Nat := 0xffff

structure Lease where
  epoch : Nat
  slot : Nat
  client : Nat
  firstObject : Nat
  objectCount : Nat
  deriving DecidableEq, Repr

structure Entry where
  lease : Option Lease := none
  retained : Bool := false
  deriving DecidableEq, Repr

structure Children where
  parent : Lease
  slot : Nat
  firstObject : Nat
  objectCount : Nat
  deriving DecidableEq, Repr

/-- The name at `index` of a range, for a lease and for child ranges alike. -/
def rangeObject (first count index : Nat) : Except Error Nat :=
  if index ≥ count then .error .Bounds
  else if first < objectFirst ∨ first ≥ objectEnd ∨ index ≥ objectEnd - first then .error .Bounds
  else .ok (first + index)

def Lease.object (l : Lease) (index : Nat) : Except Error Nat :=
  rangeObject l.firstObject l.objectCount index

def Children.object (c : Children) (index : Nat) : Except Error Nat :=
  rangeObject c.firstObject c.objectCount index

structure ChildEntry where
  lease : Option Children := none
  retained : Bool := false
  deriving DecidableEq, Repr

/-- Caller-owned metadata of one resident child range. -/
structure ResidentChildren where
  selfAddress : Nat := 0
  ledgerAddress : Nat := 0
  entry : ChildEntry := {}
  deriving DecidableEq, Repr

structure Ledger where
  epoch : Nat
  nextClient : Nat := 0
  nextObject : Nat := objectFirst
  entries : Fin maxClients → Entry := fun _ => {}
  children : Fin maxChildRanges → ChildEntry := fun _ => {}
  residentChildren : Std.TreeMap Nat Nat := {}

structure World where
  ledger : Ledger
  storage : Nat → ResidentChildren

abbrev Op (α : Type) := Call Error World α

/-- What `Quiescence.valid` reads of the reset owner it borrows. -/
structure Reset where
  selfAddress : Nat
  complete : Bool
  failed : Bool
  epoch : Nat
  triggered : Bool
  resumed : Bool
  /-- The generation its I/O port reports, `none` without a port. -/
  generation : Option Nat
  deriving DecidableEq, Repr

structure Quiescence where
  /-- Address of the reset owner. -/
  owner : Nat
  reset : Reset
  epoch : Nat
  deriving DecidableEq, Repr

def Quiescence.valid (p : Quiescence) (epoch : Nat) : Bool :=
  epoch != 0 && p.epoch == epoch && p.reset.selfAddress == p.owner && p.reset.complete &&
    !p.reset.failed && p.reset.epoch == epoch && p.reset.triggered && !p.reset.resumed &&
    p.reset.generation == some epoch

def Ledger.start (epoch : Nat) : Except Error Ledger :=
  if epoch = 0 then .error .Stale else .ok { epoch }

/-! ## Writing a slot -/

def World.setEntry (w : World) (i : Fin maxClients) (e : Entry) : World :=
  { w with ledger := { w.ledger with entries := Function.update w.ledger.entries i e } }

def World.setChild (w : World) (i : Fin maxChildRanges) (e : ChildEntry) : World :=
  { w with ledger := { w.ledger with children := Function.update w.ledger.children i e } }

def World.setStorage (w : World) (at_ : Nat) (r : ResidentChildren) : World :=
  { w with storage := Function.update w.storage at_ r }

def World.setResident (w : World) (t : Std.TreeMap Nat Nat) : World :=
  { w with ledger := { w.ledger with residentChildren := t } }

/-- Where a child range is kept: a slot of the fixed table, or a storage found through the treap. -/
inductive Place where
  | fixed (i : Fin maxChildRanges)
  | resident (at_ : Nat)
  deriving DecidableEq

def World.childEntry (w : World) : Place → ChildEntry
  | .fixed i => w.ledger.children i
  | .resident a => (w.storage a).entry

def World.setChildEntry (w : World) (p : Place) (e : ChildEntry) : World :=
  match p with
  | .fixed i => w.setChild i e
  | .resident a => w.setStorage a { w.storage a with entry := e }

/-! ## Clients -/

/-- No name is left for `count` objects. -/
def objectsExhausted (l : Ledger) (count : Nat) : Prop :=
  l.nextObject < objectFirst ∨ l.nextObject ≥ objectEnd ∨ count > objectEnd - l.nextObject

instance (l : Ledger) (count : Nat) : Decidable (objectsExhausted l count) :=
  inferInstanceAs (Decidable (_ ∨ _))

def freeEntry (l : Ledger) : Option (Fin maxClients) :=
  (List.finRange maxClients).find? fun i => (l.entries i).lease.isNone

def freeChild (l : Ledger) : Option (Fin maxChildRanges) :=
  (List.finRange maxChildRanges).find? fun i => (l.children i).lease.isNone

def reserve (count : Nat) : Op Lease := do
  let w ← get
  let l := w.ledger
  failIf (l.epoch = 0) .Stale
  failIf (count = 0) .Bounds
  failIf (l.nextClient > clientMask ∨ objectsExhausted l count) .Exhausted
  let slot ← need (freeEntry l) .Exhausted
  let lease : Lease :=
    { epoch := l.epoch, slot, client := clientBase ||| l.nextClient, firstObject := l.nextObject,
      objectCount := count }
  modify fun w => w.setEntry slot { lease := some lease }
  modify fun w => { w with ledger := { w.ledger with
    nextClient := w.ledger.nextClient + 1, nextObject := w.ledger.nextObject + count } }
  return lease

def lookup (lease : Lease) : Op (Fin maxClients) := do
  let w ← get
  failIf (lease.epoch ≠ w.ledger.epoch) .Stale
  let slot ← need (if h : lease.slot < maxClients then some ⟨lease.slot, h⟩ else none) .Stale
  let held ← need (w.ledger.entries slot).lease .Stale
  failIf (held ≠ lease) .Stale
  return slot

def validate (lease : Lease) : Op Unit := do
  let slot ← lookup lease
  let w ← get
  failIf ((w.ledger.entries slot).retained = true) .Retained

section

variable (here : Nat)

/-- The walk of `requireNoChildren` over the treap, in key order. -/
def requireNoResident (lease : Lease) : List (Nat × Nat) → Op Unit
  | [] => pure ()
  | (_, a) :: rest => do
    let w ← get
    let child := w.storage a
    failIf (child.selfAddress ≠ a ∨ child.ledgerAddress ≠ here) .Stale
    let held ← need child.entry.lease .Stale
    failIf (held.parent = lease) .Retained
    requireNoResident lease rest

def requireNoChildren (lease : Lease) : Op Unit := do
  validate lease
  let w ← get
  failIf (∃ i, (w.ledger.children i).lease.map (·.parent) = some lease) .Retained
  requireNoResident here lease w.ledger.residentChildren.toList

def retire (lease : Lease) : Op Unit := do
  requireNoChildren here lease
  let slot ← lookup lease
  modify fun w => w.setEntry slot {}

end

def retain (lease : Lease) : Op Unit := do
  let slot ← lookup lease
  modify fun w => w.setEntry slot { w.ledger.entries slot with retained := true }

/-! ## Child ranges -/

def reserveChildren (parent : Lease) (count : Nat) : Op Children := do
  validate parent
  failIf (count = 0) .Bounds
  let w ← get
  let l := w.ledger
  failIf (objectsExhausted l count) .Exhausted
  let slot ← need (freeChild l) .Exhausted
  let value : Children := { parent, slot, firstObject := l.nextObject, objectCount := count }
  modify fun w => w.setChild slot { lease := some value }
  modify fun w => { w with ledger := { w.ledger with nextObject := w.ledger.nextObject + count } }
  return value

section

variable (here : Nat)

def reserveResidentChildren (parent : Lease) (count : Nat) (storage : Nat) : Op Children := do
  validate parent
  let w ← get
  let l := w.ledger
  let held := w.storage storage
  failIf (held.selfAddress ≠ 0 ∨ held.ledgerAddress ≠ 0 ∨ held.entry.lease.isSome = true ∨
    held.entry.retained = true) .Stale
  failIf (count = 0) .Bounds
  failIf (objectsExhausted l count) .Exhausted
  failIf (l.residentChildren[l.nextObject]?.isSome = true) .Stale
  let value : Children :=
    { parent, slot := residentSlot, firstObject := l.nextObject, objectCount := count }
  modify fun w => w.setStorage storage
    { selfAddress := storage, ledgerAddress := here, entry := { lease := some value } }
  modify fun w => w.setResident (w.ledger.residentChildren.insert w.ledger.nextObject storage)
  modify fun w => { w with ledger := { w.ledger with nextObject := w.ledger.nextObject + count } }
  return value

/-- The `selected` block of `lookupChildren`. -/
def selectChildren (lease : Children) : Op Place :=
  if lease.slot = residentSlot then do
    let w ← get
    let a ← need w.ledger.residentChildren[lease.firstObject]? .Stale
    failIf ((w.storage a).selfAddress ≠ a ∨ (w.storage a).ledgerAddress ≠ here) .Stale
    return .resident a
  else
    need (if h : lease.slot < maxChildRanges then some (.fixed ⟨lease.slot, h⟩) else none) .Stale

def lookupChildren (lease : Children) : Op Place := do
  let _ ← lookup lease.parent
  let selected ← selectChildren here lease
  let w ← get
  let held ← need (w.childEntry selected).lease .Stale
  failIf (held ≠ lease) .Stale
  return selected

def removeChildren (lease : Children) : Op Unit := do
  let selected ← lookupChildren here lease
  match selected with
  | .resident a => do
    -- `getEntryForExisting` names the node that was found under this key.
    modify fun w => w.setResident (w.ledger.residentChildren.erase lease.firstObject)
    modify fun w => w.setStorage a {}
  | .fixed i => modify fun w => w.setChild i {}

def validateChildren (lease : Children) : Op Unit := do
  validate lease.parent
  let selected ← lookupChildren here lease
  let w ← get
  failIf ((w.childEntry selected).retained = true) .Retained

def retireChildren (lease : Children) : Op Unit := do
  validateChildren here lease
  removeChildren here lease

def retainChildren (lease : Children) : Op Unit := do
  let selected ← lookupChildren here lease
  modify fun w => w.setChildEntry selected { w.childEntry selected with retained := true }
  retain lease.parent

def validateChildrenAfterReset (lease : Children) (proof : Quiescence) : Op Unit := do
  let w ← get
  failIf (proof.valid w.ledger.epoch = false) .Retained
  let _ ← lookupChildren here lease

def retireChildrenAfterReset (lease : Children) (proof : Quiescence) : Op Unit := do
  validateChildrenAfterReset here lease proof
  removeChildren here lease

end

/-! ## The ledger as a machine -/

/-- The mutating calls of the ledger. -/
inductive Request where
  | reserve (count : Nat)
  | reserveChildren (parent : Lease) (count : Nat)
  | reserveResidentChildren (parent : Lease) (count : Nat) (storage : Nat)
  | retire (lease : Lease)
  | retireChildren (lease : Children)
  | retain (lease : Lease)
  | retainChildren (lease : Children)
  | retireChildrenAfterReset (lease : Children) (proof : Quiescence)

/-- What a call returned. -/
inductive Answer where
  | lease (l : Lease)
  | children (c : Children)
  | done
  | failed (e : Error)
  deriving DecidableEq

/-- The answer to a call, `ok` read by `f`. -/
def answer {α : Type} (f : α → Answer) (x : Op α) (w : World) : Answer × World :=
  match x w with
  | .ok a w' => (f a, w')
  | .error e w' => (.failed e, w')

def step (here : Nat) (w : World) : Request → Answer × World
  | .reserve count => answer .lease (reserve count) w
  | .reserveChildren parent count => answer .children (reserveChildren parent count) w
  | .reserveResidentChildren parent count storage =>
    answer .children (reserveResidentChildren here parent count storage) w
  | .retire lease => answer (fun _ => .done) (retire here lease) w
  | .retireChildren lease => answer (fun _ => .done) (retireChildren here lease) w
  | .retain lease => answer (fun _ => .done) (retain lease) w
  | .retainChildren lease => answer (fun _ => .done) (retainChildren here lease) w
  | .retireChildrenAfterReset lease proof =>
    answer (fun _ => .done) (retireChildrenAfterReset here lease proof) w

end Names
end NvidiaGsp
