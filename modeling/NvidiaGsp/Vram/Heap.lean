import NvidiaGsp.Lib.Calls
import NvidiaGsp.Vram.Inventory

/-!
# Vram.Heap

The allocator of application video memory (`gsp_user_vram.zig`). The ranges belong to the callers and
link themselves into a list sorted by base; memory is the ranges by address. A search walks the list
and the retained spans of the inventory together; `fuel` bounds a walk and never runs out on a list
as long as the owner counts.
-/

namespace NvidiaGsp
namespace Vram
namespace Heap

open Call Inventory

inductive Error where
  | Stale | Bounds | Memory | Retained | Exhausted
  /-- A walk did not reach the end of the list. -/
  | Endless
  deriving DecidableEq, Repr

abbrev U64 := Fin (2 ^ 64)

structure Range where
  selfAddress : Nat := 0
  owner : Option Nat := none
  previous : Option Nat := none
  next : Option Nat := none
  span : Span := ⟨0, 0⟩
  stamp : Span := ⟨0, 0⟩
  deriving DecidableEq

structure Owner where
  selfAddress : Nat := 0
  view : Option Nat := none
  epoch : Nat := 0
  first : Option Nat := none
  bytes : Nat := 0
  count : Nat := 0
  deriving DecidableEq

structure State where
  owner : Owner := {}
  ranges : Nat → Range := fun _ => {}

abbrev HeapCall (α : Type) := Call Error State α

def maxU64 : Nat := 2 ^ 64 - 1

/-- `gsp_host_page.video_limit`. -/
def videoLimit : Nat := 1 <<< 37

/-- `x & ~(alignment - 1)` clears the bits below the alignment. -/
def alignUp (value alignment : Nat) : Except Error Nat :=
  if value + (alignment - 1) > maxU64 then .error .Bounds
  else .ok (value + (alignment - 1) - ((value + (alignment - 1)) &&& (alignment - 1)))

section

-- `me` is the address of the owner, `views` are the inventories by address.
variable (me : Nat) (views : Nat → View)

/-- The neighbours of a range know it, and lie before and behind it. -/
def Linked (s : State) (address : Nat) : Prop :=
  let range := s.ranges address
  (match range.previous with
    | some prior =>
      let p := s.ranges prior
      p.owner = some me ∧ p.next = some address ∧ p.span.base + p.span.bytes ≤ range.span.base
    | none => s.owner.first = some address) ∧
  (match range.next with
    | some next =>
      let n := s.ranges next
      n.owner = some me ∧ n.previous = some address ∧ range.span.base + range.span.bytes ≤ n.span.base
    | none => True)

instance (s : State) (address : Nat) : Decidable (Linked me s address) := by
  unfold Linked
  dsimp only
  cases (s.ranges address).previous <;> cases (s.ranges address).next <;> infer_instance

def validate (s : State) (address : Nat) : Except Error Unit :=
  let range := s.ranges address
  if s.owner.selfAddress ≠ me ∨ s.owner.epoch = 0 ∨ s.owner.view = none ∨
      range.selfAddress ≠ address ∨ range.owner ≠ some me ∨ range.span ≠ range.stamp ∨
      range.span.bytes = 0 ∨ s.owner.bytes < range.span.bytes ∨ s.owner.count = 0 then .error .Stale
  else if ¬ Linked me s address then .error .Stale
  else .ok ()

/-- The merged walk of one region: the candidate behind all that is in its way. -/
def settle (s : State) (bytes alignment limit : Nat) :
    (fuel base : Nat) → List Span → Option Nat → Except Error (Option Nat)
  | 0, _, _, _ => .error .Endless
  | fuel + 1, base, held, allocated =>
    if ¬ (base < limit ∧ bytes ≤ limit - base) then .ok none else
    let pass (occupied : Span) (held : List Span) (allocated : Option Nat) :=
      if occupied.base ≥ base + bytes then .ok (some base)
      else if occupied.base + occupied.bytes > base then
        match alignUp (occupied.base + occupied.bytes) alignment with
        | .ok next => settle s bytes alignment limit fuel next held allocated
        | .error _ => .ok none
      else settle s bytes alignment limit fuel base held allocated
    match allocated with
    | none =>
      match held with
      | [] => .ok (some base)
      | span :: rest => pass span rest none
    | some address =>
      match validate me s address with
      | .error e => .error e
      | .ok _ =>
        let range := s.ranges address
        match held with
        | [] => pass range.span [] range.next
        | span :: rest =>
          if span.base ≤ range.span.base then pass span rest (some address)
          else pass range.span (span :: rest) range.next

def chooseIn (s : State) (view : View) (bytes alignment minimum : Nat) :
    List Region → Except Error Nat
  | [] => .error .Memory
  | region :: rest =>
    if region.reserved ≠ 0 ∨ region.isProtected = true ∨ region.iso = false ∨ region.compressed = false then
      chooseIn s view bytes alignment minimum rest
    else match alignUp (max region.base minimum) alignment with
    | .error _ => chooseIn s view bytes alignment minimum rest
    | .ok base =>
      match settle me s bytes alignment (region.base + region.bytes)
          (view.catalog.retained.length + s.owner.count + 1) base view.catalog.retained s.owner.first with
      | .error e => .error e
      | .ok none => chooseIn s view bytes alignment minimum rest
      | .ok (some base) =>
        if placement view ⟨base, bytes⟩ ≠ .ok .requiresHostAllocation then .error .Stale
        else .ok base

/-- The neighbours of a base in the list. -/
def neighbours (s : State) (base : Nat) :
    (fuel : Nat) → (previous next : Option Nat) → Except Error (Option Nat × Option Nat)
  | 0, _, _ => .error .Endless
  | fuel + 1, previous, next =>
    match next with
    | none => .ok (previous, none)
    | some entry =>
      match validate me s entry with
      | .error e => .error e
      | .ok _ =>
        if (s.ranges entry).span.base > base then .ok (previous, some entry)
        else neighbours s base fuel (some entry) (s.ranges entry).next

def setNext (ranges : Nat → Range) (address next : Option Nat) : Nat → Range :=
  match address with
  | some a => Function.update ranges a { ranges a with next }
  | none => ranges

def setPrevious (ranges : Nat → Range) (address previous : Option Nat) : Nat → Range :=
  match address with
  | some a => Function.update ranges a { ranges a with previous }
  | none => ranges

def reserveInner (view epoch range : Nat) (bytes alignment : U64) (minimum : Nat) : HeapCall Nat := do
  let s ← get
  let o := s.owner
  failIf (o.selfAddress ≠ 0 ∧ (o.selfAddress ≠ me ∨ o.view ≠ some view ∨ o.epoch ≠ epoch)) .Stale
  failIf (s.ranges range ≠ {}) .Stale
  failIf ((views view).published = false) .Stale
  let data := (views view).catalog
  failIf (epoch = 0 ∨ data.epoch ≠ epoch) .Stale
  failIf (bytes.val = 0 ∨ bytes.val &&& 65535 ≠ 0 ∨ alignment.val < 65536 ∨
    alignment.val &&& (alignment.val - 1) ≠ 0) .Bounds
  failIf (data.firmwareLayoutUsable = false) .Memory
  let base ← lift (chooseIn me s (views view) bytes alignment minimum data.regions)
  failIf (base ≥ videoLimit ∨ bytes.val > videoLimit - base) .Bounds
  failIf (o.bytes + bytes > maxU64) .Exhausted
  failIf (o.count + 1 > maxU64) .Exhausted
  let (previous, next) ← lift (neighbours me s base (o.count + 1) none o.first)
  let span : Span := ⟨base, bytes⟩
  let linked := Function.update s.ranges range
    { selfAddress := range, owner := some me, previous, next, span, stamp := span }
  set { s with
    owner := { o with
      selfAddress := me, view := some view, epoch
      first := if previous.isSome then o.first else some range
      bytes := o.bytes + bytes, count := o.count + 1 }
    ranges := setPrevious (setNext linked previous (some range)) next (some range) }
  pure base

def reserve (view epoch range : Nat) (bytes alignment : U64) : HeapCall Nat :=
  reserveInner me views view epoch range bytes alignment 0

def reserveNonzero (view epoch range : Nat) (bytes alignment : U64) : HeapCall Nat :=
  reserveInner me views view epoch range bytes alignment 65536

def release (range : Nat) (quiesced : Bool) : HeapCall Unit := do
  let s ← get
  lift (validate me s range)
  failIf (quiesced = false) .Retained
  let r := s.ranges range
  let unlinked := setPrevious (setNext s.ranges r.previous r.next) r.next r.previous
  set { s with
    owner := { s.owner with
      first := if r.previous.isSome then s.owner.first else r.next
      bytes := s.owner.bytes - r.span.bytes, count := s.owner.count - 1 }
    ranges := Function.update unlinked range {} }

inductive Op where
  | reserve (view epoch range : Nat) (bytes alignment : U64)
  | reserveNonzero (view epoch range : Nat) (bytes alignment : U64)
  | release (range : Nat) (quiesced : Bool)

inductive Answer where
  | base (value : Nat)
  | done
  deriving DecidableEq

def call : Op → HeapCall Answer
  | .reserve view epoch range bytes alignment => do
    pure (.base (← reserve me views view epoch range bytes alignment))
  | .reserveNonzero view epoch range bytes alignment => do
    pure (.base (← reserveNonzero me views view epoch range bytes alignment))
  | .release range quiesced => do
    release me range quiesced
    pure .done

def step (s : State) (op : Op) : Except Error Answer × State := outcome (call me views op) s

end

end Heap
end Vram
end NvidiaGsp
