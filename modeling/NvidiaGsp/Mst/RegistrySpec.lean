import NvidiaGsp.Mst.Registry

/-!
# Mst.RegistrySpec

What each call of the registry does when it succeeds. Fifteen calls write one slot, found through a
handle: `Change` lists them with their guards. `holdStreams` and `releaseStreams` write the lease of
several slots after a preflight; `synchronize` is taken apart in `Mst.RegistrySync`.
-/

namespace NvidiaGsp
namespace Mst
namespace Registry

open Call

/-- The handle names the current occupancy of slot `i`. -/
def Reg.Resolves (r : Reg) (v : Handle) (i : Fin slotCount) : Prop :=
  r.epoch ≠ 0 ∧ v.epoch = r.epoch ∧ v.serial ≠ 0 ∧ v.slot = i.val ∧
    (r.slots i).serial = v.serial ∧ (r.slots i).state ≠ .vacant

theorem slot_ok {v : Handle} {r r' : Reg} {i : Fin slotCount} :
    slot v r = .ok i r' ↔ r' = r ∧ r.Resolves v i := by
  simp only [slot, bind_ok_iff, get_apply, failIf_ok_iff, need_ok_iff, pure_apply]
  constructor
  · rintro ⟨_, _, h, _, _, ⟨hc, rfl⟩, j, _, ⟨hj, rfl⟩, _, _, ⟨hs, rfl⟩, hret⟩
    cases h; cases hret
    simp only [not_or, not_not] at hc hs
    split at hj
    · cases hj
      exact ⟨rfl, hc.1, hc.2.1, hc.2.2, rfl, hs.1, hs.2⟩
    · cases hj
  · rintro ⟨rfl, h₁, h₂, h₃, h₄, h₅, h₆⟩
    refine ⟨_, _, rfl, (), _, ⟨by simp [h₁, h₂, h₃], rfl⟩, i, _, ⟨?_, rfl⟩, (), _,
      ⟨by simp [h₅, h₆], rfl⟩, rfl⟩
    rw [dif_pos (by rw [h₄]; exact i.isLt)]
    exact congrArg some (Fin.ext h₄)

theorem readOnly_slot (v : Handle) : ReadOnly (slot v) :=
  readOnly_get.bind fun _ => (readOnly_failIf _ _).bind fun _ => (readOnly_need _ _).bind fun _ =>
    (readOnly_failIf _ _).bind fun _ => readOnly_pure _

theorem Reg.Resolves.unique {r : Reg} {v : Handle} {i j : Fin slotCount} (hi : r.Resolves v i)
    (hj : r.Resolves v j) : i = j := Fin.ext (hi.2.2.2.1.symm.trans hj.2.2.2.1)

theorem update_apply (i : Fin slotCount) (f : Slot → Slot) (r : Reg) :
    update i f r = .ok () (r.setSlot i (f (r.slots i))) := rfl

theorem total_update (i : Fin slotCount) (f : Slot → Slot) : Total (update i f) := total_modify _

/-! ## Calls on one slot -/

/-- The new content of slot `i` after a call on handle `v`, with what the call checked. -/
inductive Change (r : Reg) (v : Handle) (i : Fin slotCount) : Request → Answer → Slot → Prop where
  | allocate (hs : (r.slots i).state = .reserved) (hp : (r.slots i).pending = .none)
      (hd : (r.slots i).displayId = 0) :
      Change r v i (.allocate v) (.query (.allocate (r.slots i).key.root))
        { r.slots i with pending := .allocate }
  | allocated {id serial : Nat} (hs : (r.slots i).state = .reserved)
      (hp : (r.slots i).pending = .allocate) (hb : ¬ notSingleBit id)
      (hm : id &&& r.physicalMask = 0) (hn : ∀ j, (r.slots j).displayId ≠ id) :
      Change r v i (.allocated v id serial) .done
        { r.slots i with displayId := id, allocationReceipt := serial, pending := .none,
                         state := .allocated }
  | allocationRejected {serial : Nat} (hs : (r.slots i).state = .reserved)
      (hp : (r.slots i).pending = .allocate) :
      Change r v i (.allocationRejected v serial) .done
        { r.slots i with pending := .none, state := .unavailable }
  | cancelled (hp : (r.slots i).pending ≠ .none) :
      Change r v i (.cancelled v) .done { r.slots i with pending := .none }
  | resource {observed : Observed} {serial : Nat} (hs : (r.slots i).state = .allocated)
      (hp : (r.slots i).pending = .none) :
      Change r v i (.resource v observed serial) .done
        { r.slots i with resourceReceipt := serial, state := .verified }
  | publish {generation : Nat} (hs : (r.slots i).state = .verified)
      (hp : (r.slots i).pending = .none) :
      Change r v i (.publish v generation) .done { r.slots i with published := true }
  | unpublish (hp : (r.slots i).pending = .none) :
      Change r v i (.unpublish v) .done { r.slots i with published := false }
  | holdRoute {route : RouteHold} (hs : (r.slots i).state = .verified)
      (hp : (r.slots i).pending = .none)
      (hn : ∀ j, j ≠ i → ∀ held, (r.slots j).routeHold = some held → ¬ held.clashes route) :
      Change r v i (.holdRoute v route) .done { r.slots i with routeHold := some route }
  | releaseRoute {route : RouteHold} (hr : (r.slots i).routeHold = some route)
      (hp : (r.slots i).pending = .none) :
      Change r v i (.releaseRoute v route) .done { r.slots i with routeHold := none }
  | activated {displayed : Displayed} {active : Image} (hp : (r.slots i).pending = .none)
      (hs : (r.slots i).image = none → (r.slots i).state = .verified)
      (ha : image displayed = .ok active) :
      Change r v i (.activated v displayed) .done { r.slots i with image := some active }
  | detached {retirement : Retirement} {active : Image} (hp : (r.slots i).pending = .none)
      (ha : (r.slots i).image = some active) :
      Change r v i (.detached v retirement) .done
        { r.slots i with image := none, detachReceipt := retirement.linkStopReceipt }
  | retireBare (hp : (r.slots i).pending = .none) (hd : (r.slots i).displayId = 0) :
      Change r v i (.retire v) .done {}
  | retire (hp : (r.slots i).pending = .none) (hd : (r.slots i).displayId ≠ 0) :
      Change r v i (.retire v) .done { r.slots i with state := .retiring }
  | free (hs : (r.slots i).state = .retiring) (hp : (r.slots i).pending = .none)
      (hd : (r.slots i).displayId ≠ 0) (hn : ¬ (r.slots i).Referenced) :
      Change r v i (.free v) (.query (.free (r.slots i).displayId))
        { r.slots i with pending := .free }
  | freed {serial : Nat} (hp : (r.slots i).pending = .free) :
      Change r v i (.freed v serial) .done {}
  | freeRejected {serial : Nat} (hs : (r.slots i).state = .retiring)
      (hp : (r.slots i).pending = .free) :
      Change r v i (.freeRejected v serial) .done { r.slots i with pending := .none }

section

variable {v : Handle} {r r' : Reg}

theorem allocate_ok {q : Query} (h : allocate v r = .ok q r') :
    ∃ i s, r.Resolves v i ∧ Change r v i (.allocate v) (.query q) s ∧ r' = r.setSlot i s := by
  simp only [allocate, bind_ok_iff, slot_ok, get_apply, failIf_ok_iff, update_apply,
    pure_apply] at h
  obtain ⟨i, _, ⟨rfl, hr⟩, _, _, h₀, _, _, ⟨hg, rfl⟩, _, _, h₁, h₂⟩ := h
  cases h₀; cases h₁; cases h₂
  simp only [not_or, not_not] at hg
  exact ⟨i, _, hr, .allocate hg.1 hg.2.1 hg.2.2, rfl⟩

theorem allocated_ok {id serial : Nat} (h : allocated v id serial r = .ok () r') :
    ∃ i s, r.Resolves v i ∧ Change r v i (.allocated v id serial) .done s ∧
      r' = r.setSlot i s := by
  simp only [allocated, bind_ok_iff, slot_ok, get_apply, failIf_ok_iff, update_apply] at h
  obtain ⟨i, _, ⟨rfl, hr⟩, _, _, h₀, _, _, ⟨hg, rfl⟩, _, _, ⟨hn, rfl⟩, h₁⟩ := h
  cases h₀; cases h₁
  simp only [not_or, not_not, not_exists] at hg hn
  exact ⟨i, _, hr, .allocated hg.1 hg.2.1 hg.2.2.2.1 hg.2.2.2.2 hn, rfl⟩

theorem allocationRejected_ok {serial : Nat} (h : allocationRejected v serial r = .ok () r') :
    ∃ i s, r.Resolves v i ∧ Change r v i (.allocationRejected v serial) .done s ∧
      r' = r.setSlot i s := by
  simp only [allocationRejected, bind_ok_iff, slot_ok, get_apply, failIf_ok_iff, update_apply] at h
  obtain ⟨i, _, ⟨rfl, hr⟩, _, _, h₀, _, _, ⟨hg, rfl⟩, h₁⟩ := h
  cases h₀; cases h₁
  simp only [not_or, not_not] at hg
  exact ⟨i, _, hr, .allocationRejected hg.1 hg.2.1, rfl⟩

theorem cancelled_ok (h : cancelled v r = .ok () r') :
    ∃ i s, r.Resolves v i ∧ Change r v i (.cancelled v) .done s ∧ r' = r.setSlot i s := by
  simp only [cancelled, bind_ok_iff, slot_ok, get_apply, failIf_ok_iff, update_apply] at h
  obtain ⟨i, _, ⟨rfl, hr⟩, _, _, h₀, _, _, ⟨-, rfl⟩, _, _, ⟨-, rfl⟩, _, _, ⟨hp, rfl⟩, h₁⟩ := h
  cases h₀; cases h₁
  exact ⟨i, _, hr, .cancelled hp, rfl⟩

theorem resource_ok {observed : Observed} {serial : Nat}
    (h : resource v observed serial r = .ok () r') :
    ∃ i s, r.Resolves v i ∧ Change r v i (.resource v observed serial) .done s ∧
      r' = r.setSlot i s := by
  simp only [resource, bind_ok_iff, slot_ok, get_apply, failIf_ok_iff, update_apply] at h
  obtain ⟨i, _, ⟨rfl, hr⟩, _, _, h₀, _, _, ⟨hg, rfl⟩, h₁⟩ := h
  cases h₀; cases h₁
  simp only [not_or, not_not] at hg
  exact ⟨i, _, hr, .resource hg.1 hg.2.1, rfl⟩

theorem publish_ok {generation : Nat} (h : publish v generation r = .ok () r') :
    ∃ i s, r.Resolves v i ∧ Change r v i (.publish v generation) .done s ∧ r' = r.setSlot i s := by
  simp only [publish, bind_ok_iff, slot_ok, get_apply, failIf_ok_iff, update_apply] at h
  obtain ⟨i, _, ⟨rfl, hr⟩, _, _, h₀, _, _, ⟨hg, rfl⟩, h₁⟩ := h
  cases h₀; cases h₁
  simp only [not_or, not_not] at hg
  exact ⟨i, _, hr, .publish hg.1 hg.2.1, rfl⟩

theorem unpublish_ok (h : unpublish v r = .ok () r') :
    ∃ i s, r.Resolves v i ∧ Change r v i (.unpublish v) .done s ∧ r' = r.setSlot i s := by
  simp only [unpublish, bind_ok_iff, slot_ok, get_apply, failIf_ok_iff, update_apply] at h
  obtain ⟨i, _, ⟨rfl, hr⟩, _, _, h₀, _, _, ⟨hg, rfl⟩, h₁⟩ := h
  cases h₀; cases h₁
  simp only [not_or, not_not] at hg
  exact ⟨i, _, hr, .unpublish hg.2, rfl⟩

theorem holdRoute_ok {route : RouteHold} (h : holdRoute v route r = .ok () r') :
    ∃ i s, r.Resolves v i ∧ Change r v i (.holdRoute v route) .done s ∧ r' = r.setSlot i s := by
  simp only [holdRoute, bind_ok_iff, slot_ok, get_apply, failIf_ok_iff, update_apply] at h
  obtain ⟨i, _, ⟨rfl, hr⟩, _, _, h₀, _, _, ⟨hg, rfl⟩, _, _, ⟨hn, rfl⟩, h₁⟩ := h
  cases h₀; cases h₁
  simp only [not_or, not_not] at hg
  refine ⟨i, _, hr, .holdRoute hg.1 hg.2.1 ?_, rfl⟩
  intro j hj held hheld hclash
  exact hn ⟨j, hj, by simp [hheld, hclash]⟩

theorem releaseRoute_ok {route : RouteHold} (h : releaseRoute v route r = .ok () r') :
    ∃ i s, r.Resolves v i ∧ Change r v i (.releaseRoute v route) .done s ∧ r' = r.setSlot i s := by
  simp only [releaseRoute, bind_ok_iff, slot_ok, get_apply, failIf_ok_iff, update_apply] at h
  obtain ⟨i, _, ⟨rfl, hr⟩, _, _, h₀, _, _, ⟨hg, rfl⟩, h₁⟩ := h
  cases h₀; cases h₁
  simp only [not_or, not_not] at hg
  exact ⟨i, _, hr, .releaseRoute hg.1 hg.2.1, rfl⟩

theorem activated_ok {displayed : Displayed} (h : activated v displayed r = .ok () r') :
    ∃ i s, r.Resolves v i ∧ Change r v i (.activated v displayed) .done s ∧
      r' = r.setSlot i s := by
  simp only [activated, bind_ok_iff, slot_ok, get_apply, need_ok_iff, failIf_ok_iff, lift_ok_iff,
    update_apply] at h
  obtain ⟨i, _, ⟨rfl, hr⟩, _, _, h₀, mode, _, ⟨-, rfl⟩, _, _, ⟨hg, rfl⟩, _, _, ⟨hv, rfl⟩, _, _,
    ⟨-, rfl⟩, active, _, ⟨ha, rfl⟩, _, _, ⟨-, rfl⟩, h₁⟩ := h
  cases h₀; cases h₁
  simp only [not_or, not_not] at hg
  refine ⟨i, _, hr, .activated hg.1 (fun hi => ?_) ha, rfl⟩
  by_contra hs
  exact hv ⟨hi, .inl hs⟩

theorem detached_ok {retirement : Retirement} (h : detached v retirement r = .ok () r') :
    ∃ i s, r.Resolves v i ∧ Change r v i (.detached v retirement) .done s ∧
      r' = r.setSlot i s := by
  simp only [detached, bind_ok_iff, slot_ok, get_apply, need_ok_iff, failIf_ok_iff, lift_ok_iff,
    update_apply] at h
  obtain ⟨i, _, ⟨rfl, hr⟩, _, _, h₀, active, _, ⟨ha, rfl⟩, mode, _, ⟨-, rfl⟩, _, _, ⟨hg, rfl⟩,
    saved, _, ⟨-, rfl⟩, _, _, ⟨-, rfl⟩, h₁⟩ := h
  cases h₀; cases h₁
  simp only [not_or, not_not] at hg
  exact ⟨i, _, hr, .detached hg.1 ha, rfl⟩

theorem retire_ok (h : retire v r = .ok () r') :
    ∃ i s, r.Resolves v i ∧ Change r v i (.retire v) .done s ∧ r' = r.setSlot i s := by
  simp only [retire, bind_ok_iff, slot_ok, get_apply, failIf_ok_iff, update_apply] at h
  obtain ⟨i, r₁, ⟨rfl, hr⟩, _, _, h₀, _, _, ⟨hp, rfl⟩, h₁⟩ := h
  cases h₀; cases h₁
  rw [not_not] at hp
  by_cases hd : (r₁.slots i).displayId = 0
  · exact ⟨i, _, hr, .retireBare hp hd, by rw [if_pos hd]⟩
  · exact ⟨i, _, hr, .retire hp hd, by rw [if_neg hd]⟩

theorem free_ok {q : Query} (h : free v r = .ok q r') :
    ∃ i s, r.Resolves v i ∧ Change r v i (.free v) (.query q) s ∧ r' = r.setSlot i s := by
  simp only [free, bind_ok_iff, slot_ok, get_apply, failIf_ok_iff, update_apply, pure_apply] at h
  obtain ⟨i, _, ⟨rfl, hr⟩, _, _, h₀, _, _, ⟨hg, rfl⟩, _, _, h₁, h₂⟩ := h
  cases h₀; cases h₁; cases h₂
  simp only [not_or, not_not] at hg
  exact ⟨i, _, hr, .free hg.1 hg.2.1 hg.2.2.1 hg.2.2.2, rfl⟩

theorem freed_ok {serial : Nat} (h : freed v serial r = .ok () r') :
    ∃ i s, r.Resolves v i ∧ Change r v i (.freed v serial) .done s ∧ r' = r.setSlot i s := by
  simp only [freed, bind_ok_iff, slot_ok, get_apply, failIf_ok_iff, update_apply] at h
  obtain ⟨i, _, ⟨rfl, hr⟩, _, _, h₀, _, _, ⟨hg, rfl⟩, h₁⟩ := h
  cases h₀; cases h₁
  simp only [not_or, not_not] at hg
  exact ⟨i, _, hr, .freed hg.2.1, rfl⟩

theorem freeRejected_ok {serial : Nat} (h : freeRejected v serial r = .ok () r') :
    ∃ i s, r.Resolves v i ∧ Change r v i (.freeRejected v serial) .done s ∧ r' = r.setSlot i s := by
  simp only [freeRejected, bind_ok_iff, slot_ok, get_apply, failIf_ok_iff, update_apply] at h
  obtain ⟨i, _, ⟨rfl, hr⟩, _, _, h₀, _, _, ⟨hg, rfl⟩, h₁⟩ := h
  cases h₀; cases h₁
  simp only [not_or, not_not] at hg
  exact ⟨i, _, hr, .freeRejected hg.1 hg.2.1, rfl⟩

end

/-! ## A failing call on one slot writes nothing -/

theorem atomic_onSlot {α : Type} {v : Handle} {f : Fin slotCount → Reg → Op α}
    (hf : ∀ i r, Atomic (f i r)) :
    Atomic (do let i ← slot v; let r ← get; f i r) :=
  (readOnly_slot v).bind_atomic fun i => readOnly_get.bind_atomic fun r => hf i r

/-- One check, then one write. -/
theorem atomic_checked {c : Prop} [Decidable c] {e : Error} {α : Type} {x : Op α} (hx : Atomic x) :
    Atomic (do failIf c e; x) := (readOnly_failIf c e).bind_atomic fun _ => hx

theorem atomic_update (i : Fin slotCount) (f : Slot → Slot) : Atomic (update i f) :=
  (total_update i f).atomic

theorem atomic_update_return {α : Type} (i : Fin slotCount) (f : Slot → Slot) (a : α) :
    Atomic (do update i f; return a) := ((total_update i f).bind fun _ => total_pure a).atomic

theorem atomic_allocate (v : Handle) : Atomic (allocate v) :=
  atomic_onSlot fun _ _ => atomic_checked (atomic_update_return _ _ _)

theorem atomic_allocated (v : Handle) (id serial : Nat) : Atomic (allocated v id serial) :=
  atomic_onSlot fun _ _ => atomic_checked (atomic_checked (atomic_update _ _))

theorem atomic_allocationRejected (v : Handle) (serial : Nat) :
    Atomic (allocationRejected v serial) :=
  atomic_onSlot fun _ _ => atomic_checked (atomic_update _ _)

theorem atomic_cancelled (v : Handle) : Atomic (cancelled v) :=
  atomic_onSlot fun _ _ => atomic_checked (atomic_checked (atomic_checked (atomic_update _ _)))

theorem atomic_resource (v : Handle) (observed : Observed) (serial : Nat) :
    Atomic (resource v observed serial) :=
  atomic_onSlot fun _ _ => atomic_checked (atomic_update _ _)

theorem atomic_publish (v : Handle) (generation : Nat) : Atomic (publish v generation) :=
  atomic_onSlot fun _ _ => atomic_checked (atomic_update _ _)

theorem atomic_unpublish (v : Handle) : Atomic (unpublish v) :=
  atomic_onSlot fun _ _ => atomic_checked (atomic_update _ _)

theorem atomic_holdRoute (v : Handle) (route : RouteHold) : Atomic (holdRoute v route) :=
  atomic_onSlot fun _ _ => atomic_checked (atomic_checked (atomic_update _ _))

theorem atomic_releaseRoute (v : Handle) (route : RouteHold) : Atomic (releaseRoute v route) :=
  atomic_onSlot fun _ _ => atomic_checked (atomic_update _ _)

theorem atomic_activated (v : Handle) (displayed : Displayed) : Atomic (activated v displayed) :=
  atomic_onSlot fun _ _ => (readOnly_need _ _).bind_atomic fun _ => atomic_checked
    (atomic_checked (atomic_checked ((readOnly_lift _).bind_atomic fun _ =>
      atomic_checked (atomic_update _ _))))

theorem atomic_detached (v : Handle) (retirement : Retirement) : Atomic (detached v retirement) :=
  atomic_onSlot fun _ _ => (readOnly_need _ _).bind_atomic fun _ =>
    (readOnly_need _ _).bind_atomic fun _ => atomic_checked ((readOnly_lift _).bind_atomic fun _ =>
      atomic_checked (atomic_update _ _))

theorem atomic_retire (v : Handle) : Atomic (retire v) :=
  atomic_onSlot fun _ _ => atomic_checked (atomic_update _ _)

theorem atomic_free (v : Handle) : Atomic (free v) :=
  atomic_onSlot fun _ _ => atomic_checked (atomic_update_return _ _ _)

theorem atomic_freed (v : Handle) (serial : Nat) : Atomic (freed v serial) :=
  atomic_onSlot fun _ _ => atomic_checked (atomic_update _ _)

theorem atomic_freeRejected (v : Handle) (serial : Nat) : Atomic (freeRejected v serial) :=
  atomic_onSlot fun _ _ => atomic_checked (atomic_update _ _)

/-! ## Stream leases -/

/-- The slots of `handles` carry `lease`, the others are as before. -/
def Reg.setLeases (r : Reg) (handles : List Handle) (lease : Option StreamLease) : Reg :=
  handles.foldl (fun r v => r.setLease v.slot lease) r

theorem writeLeases_apply (lease : Option StreamLease) (handles : List Handle) (r : Reg) :
    writeLeases lease handles r = .ok () (r.setLeases handles lease) := by
  induction handles generalizing r with
  | nil => rfl
  | cons v rest ih =>
    simp only [writeLeases, bind_apply, modify_apply]
    exact ih _

theorem total_writeLeases (lease : Option StreamLease) (handles : List Handle) :
    Total (writeLeases lease handles) := by
  intro r e r' h
  rw [writeLeases_apply] at h
  cases h

theorem Reg.setLeases_slots (r : Reg) (handles : List Handle) (lease : Option StreamLease)
    (i : Fin slotCount) :
    (r.setLeases handles lease).slots i =
      if ∃ v ∈ handles, v.slot = i.val then { r.slots i with streamLease := lease }
      else r.slots i := by
  induction handles generalizing r with
  | nil => simp [Reg.setLeases]
  | cons v rest ih =>
    have hcons : r.setLeases (v :: rest) lease = (r.setLease v.slot lease).setLeases rest lease := rfl
    rw [hcons, ih]
    simp only [Reg.setLease, List.exists_mem_cons_iff]
    by_cases hv : i.val = v.slot
    · by_cases hr : ∃ w ∈ rest, w.slot = i.val <;> simp [hv.symm, hr]
    · by_cases hr : ∃ w ∈ rest, w.slot = i.val <;> simp [hv, Ne.symm hv, hr]

@[simp] theorem Reg.setLeases_epoch (r : Reg) (handles : List Handle)
    (lease : Option StreamLease) : (r.setLeases handles lease).epoch = r.epoch := by
  induction handles generalizing r with
  | nil => rfl
  | cons v rest ih => exact ih (r.setLease v.slot lease)

theorem Reg.setLeases_roots (r : Reg) (handles : List Handle)
    (lease : Option StreamLease) : (r.setLeases handles lease).roots = r.roots := by
  induction handles generalizing r with
  | nil => rfl
  | cons v rest ih => exact ih (r.setLease v.slot lease)

@[simp] theorem Reg.setLeases_nextSerial (r : Reg) (handles : List Handle)
    (lease : Option StreamLease) : (r.setLeases handles lease).nextSerial = r.nextSerial := by
  induction handles generalizing r with
  | nil => rfl
  | cons v rest ih => exact ih (r.setLease v.slot lease)

@[simp] theorem Reg.setLeases_physicalMask (r : Reg) (handles : List Handle)
    (lease : Option StreamLease) : (r.setLeases handles lease).physicalMask = r.physicalMask := by
  induction handles generalizing r with
  | nil => rfl
  | cons v rest ih => exact ih (r.setLease v.slot lease)

/-- A slot that may take the lease. -/
structure Slot.Holdable (s : Slot) (lease : StreamLease) : Prop where
  root : s.key.root = lease.root
  displayId : s.displayId ≠ 0
  pending : s.pending = .none
  state : s.state = .verified ∨ s.state = .retiring
  free : s.streamLease = none

theorem checkHold_ok {lease : StreamLease} {handles seen : List Handle} {r r' : Reg}
    (h : checkHold lease seen handles r = .ok () r') :
    r' = r ∧ handles.Nodup ∧ (∀ v ∈ handles, v ∉ seen) ∧
      ∀ v ∈ handles, ∃ i, r.Resolves v i ∧ (r.slots i).Holdable lease := by
  induction handles generalizing seen r with
  | nil =>
    simp only [checkHold, pure_apply] at h
    cases h
    simp
  | cons v rest ih =>
    simp only [checkHold, bind_ok_iff, slot_ok, get_apply, failIf_ok_iff] at h
    obtain ⟨i, _, ⟨rfl, hr⟩, _, _, h₀, _, _, ⟨hd, rfl⟩, _, _, ⟨hg, rfl⟩, hrest⟩ := h
    cases h₀
    obtain ⟨rfl, hnd, hseen, hall⟩ := ih hrest
    simp only [not_or, not_not, not_and_or] at hg
    refine ⟨rfl, ?_, ?_, ?_⟩
    · rw [List.nodup_cons]
      exact ⟨fun hv => hseen v hv (by simp), hnd⟩
    · intro w hw
      rcases List.mem_cons.mp hw with rfl | hw
      · exact hd
      · exact fun h => hseen w hw (List.mem_cons_of_mem _ h)
    · intro w hw
      rcases List.mem_cons.mp hw with rfl | hw
      · exact ⟨i, hr, hg.1, hg.2.1, hg.2.2.1, hg.2.2.2.1, hg.2.2.2.2⟩
      · exact hall w hw

theorem readOnly_checkHold (lease : StreamLease) (handles seen : List Handle) :
    ReadOnly (checkHold lease seen handles) := by
  induction handles generalizing seen with
  | nil => exact readOnly_pure _
  | cons v rest ih =>
    exact (readOnly_slot v).bind fun _ => readOnly_get.bind fun _ => (readOnly_failIf _ _).bind
      fun _ => (readOnly_failIf _ _).bind fun _ => ih _

theorem checkRelease_ok {lease : StreamLease} {handles seen : List Handle} {r r' : Reg} {u : Unit} :
    checkRelease lease seen handles r = .ok u r' ↔
      r' = r ∧ handles.Nodup ∧ (∀ v ∈ handles, v ∉ seen) ∧
        ∀ v ∈ handles, ∃ i, r.Resolves v i ∧ (r.slots i).streamLease = some lease := by
  induction handles generalizing seen r with
  | nil =>
    simp [checkRelease, eq_comm]
  | cons v rest ih =>
    simp only [checkRelease, bind_ok_iff, slot_ok, get_apply, failIf_ok_iff, ih]
    constructor
    · rintro ⟨i, _, ⟨rfl, hr⟩, _, _, h₀, _, _, ⟨hd, rfl⟩, _, _, ⟨hg, rfl⟩, rfl, hnd, hseen, hall⟩
      cases h₀
      refine ⟨rfl, ?_, ?_, ?_⟩
      · rw [List.nodup_cons]
        exact ⟨fun hv => hseen v hv (by simp), hnd⟩
      · intro w hw
        rcases List.mem_cons.mp hw with rfl | hw
        · exact hd
        · exact fun h => hseen w hw (List.mem_cons_of_mem _ h)
      · intro w hw
        rcases List.mem_cons.mp hw with rfl | hw
        · exact ⟨i, hr, not_not.mp hg⟩
        · exact hall w hw
    · rintro ⟨rfl, hnd, hseen, hall⟩
      rw [List.nodup_cons] at hnd
      obtain ⟨i, hr, hl⟩ := hall v (by simp)
      refine ⟨i, _, ⟨rfl, hr⟩, _, _, rfl, (), _, ⟨hseen v (by simp), rfl⟩, (), _,
        ⟨not_not.mpr hl, rfl⟩, rfl, hnd.2, ?_, fun w hw => hall w (by simp [hw])⟩
      intro w hw hmem
      rcases List.mem_cons.mp hmem with rfl | hmem
      · exact hnd.1 hw
      · exact hseen w (by simp [hw]) hmem

theorem readOnly_checkRelease (lease : StreamLease) (handles seen : List Handle) :
    ReadOnly (checkRelease lease seen handles) := by
  induction handles generalizing seen with
  | nil => exact readOnly_pure _
  | cons v rest ih =>
    exact (readOnly_slot v).bind fun _ => readOnly_get.bind fun _ => (readOnly_failIf _ _).bind
      fun _ => (readOnly_failIf _ _).bind fun _ => ih _

theorem holdStreams_ok {lease : StreamLease} {handles : List Handle} {r r' : Reg}
    (h : holdStreams lease handles r = .ok () r') :
    r' = r.setLeases handles (some lease) ∧ lease.epoch = r.epoch ∧ lease.serial ≠ 0 ∧
      handles ≠ [] ∧ handles.length ≤ 16 ∧ handles.Nodup ∧
      ∀ v ∈ handles, ∃ i, r.Resolves v i ∧ (r.slots i).Holdable lease := by
  simp only [holdStreams, bind_ok_iff, get_apply, failIf_ok_iff, writeLeases_apply] at h
  obtain ⟨_, _, h₀, _, _, ⟨hg, rfl⟩, _, _, hc, hw⟩ := h
  cases h₀; cases hw
  obtain ⟨rfl, hnd, -, hall⟩ := checkHold_ok hc
  simp only [not_or, not_not] at hg
  exact ⟨rfl, hg.2.1, hg.2.2.1, fun hnil => hg.2.2.2.2.1 (by rw [hnil]; rfl), by omega, hnd, hall⟩

theorem atomic_holdStreams (lease : StreamLease) (handles : List Handle) :
    Atomic (holdStreams lease handles) :=
  readOnly_get.bind_atomic fun _ => (readOnly_failIf _ _).bind_atomic fun _ =>
    (readOnly_checkHold _ _ _).bind_atomic fun _ => (total_writeLeases _ _).atomic

theorem releaseStreams_ok {lease : StreamLease} {handles : List Handle} {r r' : Reg} :
    releaseStreams lease handles r = .ok () r' ↔
      r' = r.setLeases handles none ∧ lease.epoch = r.epoch ∧ lease.serial ≠ 0 ∧
        handles ≠ [] ∧ handles.length ≤ 16 ∧ handles.Nodup ∧
        ∀ v ∈ handles, ∃ i, r.Resolves v i ∧ (r.slots i).streamLease = some lease := by
  simp only [releaseStreams, bind_ok_iff, get_apply, failIf_ok_iff, writeLeases_apply,
    checkRelease_ok]
  constructor
  · rintro ⟨_, _, h₀, _, _, ⟨hg, rfl⟩, _, _, ⟨rfl, hnd, -, hall⟩, hw⟩
    cases h₀; cases hw
    simp only [not_or, not_not] at hg
    exact ⟨rfl, hg.1, hg.2.1, fun hnil => hg.2.2.1 (by rw [hnil]; rfl), by omega, hnd, hall⟩
  · rintro ⟨rfl, he, hs, hne, hlen, hnd, hall⟩
    have hpos : handles.length ≠ 0 := fun h => hne (List.length_eq_zero_iff.mp h)
    exact ⟨_, _, rfl, (), _, ⟨by simp [he, hs, hpos, hlen], rfl⟩, (), _,
      ⟨rfl, hnd, by simp, hall⟩, rfl⟩

theorem atomic_releaseStreams (lease : StreamLease) (handles : List Handle) :
    Atomic (releaseStreams lease handles) :=
  readOnly_get.bind_atomic fun _ => (readOnly_failIf _ _).bind_atomic fun _ =>
    (readOnly_checkRelease _ _ _).bind_atomic fun _ => (total_writeLeases _ _).atomic

end Registry
end Mst
end NvidiaGsp
