import NvidiaGsp.Mst.RegistrySpec

/-!
# Mst.RegistryInv

The invariant of the registry. `Slot.Ok` is what one slot must satisfy on its own: a slot without a
display ID carries no reference, and a slot whose Free is pending is retiring and unreferenced.
`Inv` adds what ties the slots together: keys, serials, display IDs and route holds are never
shared. The calls on one slot and the stream leases keep it; the recapture is in
`Mst.RegistrySync`.
-/

namespace NvidiaGsp
namespace Mst
namespace Registry

/-- What a slot satisfies on its own. -/
structure Slot.Ok (mask : Nat) (s : Slot) : Prop where
  vacant : s.state = .vacant → s = {}
  zero : s.displayId = 0 ↔ s.state = .vacant ∨ s.state = .reserved ∨ s.state = .unavailable
  bare : s.displayId = 0 → ¬ s.Referenced
  freeing : s.pending = .free → s.state = .retiring ∧ ¬ s.Referenced
  allocating : s.pending = .allocate → s.state = .reserved
  single : s.displayId ≠ 0 → s.displayId.isPowerOfTwo
  masked : s.displayId &&& mask = 0

/-- The slot is occupied. -/
def Slot.Occupied (s : Slot) : Prop := s.state ≠ .vacant

instance (s : Slot) : Decidable s.Occupied := inferInstanceAs (Decidable (_ ≠ _))

structure Inv (r : Reg) : Prop where
  ok : ∀ i, (r.slots i).Ok r.physicalMask
  serial : ∀ i, (r.slots i).Occupied →
    0 < (r.slots i).serial ∧ (r.slots i).serial ≤ r.nextSerial
  serials : ∀ i j, (r.slots i).Occupied → (r.slots j).Occupied →
    (r.slots i).serial = (r.slots j).serial → i = j
  keys : ∀ i j, (r.slots i).Occupied → (r.slots j).Occupied →
    (r.slots i).key = (r.slots j).key → i = j
  ids : ∀ i j, (r.slots i).displayId ≠ 0 → (r.slots i).displayId = (r.slots j).displayId → i = j
  routes : ∀ i j a b, (r.slots i).routeHold = some a → (r.slots j).routeHold = some b →
    a.clashes b → i = j

theorem Slot.ok_default (mask : Nat) : ({} : Slot).Ok mask where
  vacant := fun _ => rfl
  zero := by simp
  bare := by simp [Slot.Referenced]
  freeing := by simp
  allocating := by simp
  single := by simp
  masked := by simp

theorem inv_empty : Inv {} where
  ok := fun _ => Slot.ok_default _
  serial := by simp [Slot.Occupied]
  serials := by simp [Slot.Occupied]
  keys := by simp [Slot.Occupied]
  ids := by simp
  routes := by simp

/-- A slot with a display ID is occupied. -/
theorem Slot.Ok.occupied {s : Slot} {mask : Nat} (h : s.Ok mask) (hd : s.displayId ≠ 0) :
    s.Occupied := fun hv => hd (h.zero.2 (.inl hv))

/-- A referenced slot has a display ID. -/
theorem Slot.Ok.id_of_referenced {s : Slot} {mask : Nat} (h : s.Ok mask) (hr : s.Referenced) :
    s.displayId ≠ 0 := fun hd => h.bare hd hr

/-! ## Writing one slot -/

@[simp] theorem Reg.setSlot_same (r : Reg) (i : Fin slotCount) (s : Slot) :
    (r.setSlot i s).slots i = s := by simp [Reg.setSlot]

theorem Reg.setSlot_other (r : Reg) {i j : Fin slotCount} (s : Slot) (h : j ≠ i) :
    (r.setSlot i s).slots j = r.slots j := by simp [Reg.setSlot, h]

/-- What a new content of slot `i` must satisfy towards the other slots. -/
structure Reg.Fits (r : Reg) (i : Fin slotCount) (s : Slot) : Prop where
  ok : s.Ok r.physicalMask
  serial : s.Occupied → 0 < s.serial ∧ s.serial ≤ r.nextSerial
  serials : s.Occupied → ∀ j, j ≠ i → (r.slots j).Occupied → (r.slots j).serial ≠ s.serial
  keys : s.Occupied → ∀ j, j ≠ i → (r.slots j).Occupied → (r.slots j).key ≠ s.key
  ids : s.displayId ≠ 0 → ∀ j, j ≠ i → (r.slots j).displayId ≠ s.displayId
  routes : ∀ a, s.routeHold = some a → ∀ j, j ≠ i → ∀ b, (r.slots j).routeHold = some b →
    ¬ b.clashes a

theorem RouteHold.clashes_symm {a b : RouteHold} (h : a.clashes b) : b.clashes a :=
  h.imp Eq.symm Eq.symm

theorem Inv.setSlot {r : Reg} (hi : Inv r) {i : Fin slotCount} {s : Slot} (hf : r.Fits i s) :
    Inv (r.setSlot i s) := by
  have hmask : (r.setSlot i s).physicalMask = r.physicalMask := rfl
  have hnext : (r.setSlot i s).nextSerial = r.nextSerial := rfl
  refine ⟨?_, ?_, ?_, ?_, ?_, ?_⟩
  · intro j
    rw [hmask]
    by_cases hj : j = i
    · subst hj
      rw [Reg.setSlot_same]
      exact hf.ok
    · rw [r.setSlot_other s hj]
      exact hi.ok j
  · intro j
    rw [hnext]
    by_cases hj : j = i
    · subst hj
      rw [Reg.setSlot_same]
      exact hf.serial
    · rw [r.setSlot_other s hj]
      exact hi.serial j
  · intro j k hj hk he
    by_cases hji : j = i <;> by_cases hki : k = i
    · rw [hji, hki]
    · subst hji
      rw [Reg.setSlot_same, r.setSlot_other s hki] at *
      exact absurd he.symm (hf.serials hj k hki hk)
    · subst hki
      rw [Reg.setSlot_same, r.setSlot_other s hji] at *
      exact absurd he (hf.serials hk j hji hj)
    · rw [r.setSlot_other s hji, r.setSlot_other s hki] at *
      exact hi.serials j k hj hk he
  · intro j k hj hk he
    by_cases hji : j = i <;> by_cases hki : k = i
    · rw [hji, hki]
    · subst hji
      rw [Reg.setSlot_same, r.setSlot_other s hki] at *
      exact absurd he.symm (hf.keys hj k hki hk)
    · subst hki
      rw [Reg.setSlot_same, r.setSlot_other s hji] at *
      exact absurd he (hf.keys hk j hji hj)
    · rw [r.setSlot_other s hji, r.setSlot_other s hki] at *
      exact hi.keys j k hj hk he
  · intro j k hj he
    by_cases hji : j = i <;> by_cases hki : k = i
    · rw [hji, hki]
    · subst hji
      rw [Reg.setSlot_same, r.setSlot_other s hki] at *
      exact absurd he.symm (hf.ids hj k hki)
    · subst hki
      rw [Reg.setSlot_same, r.setSlot_other s hji] at *
      exact absurd he (hf.ids (he ▸ hj) j hji)
    · rw [r.setSlot_other s hji, r.setSlot_other s hki] at *
      exact hi.ids j k hj he
  · intro j k a b hj hk hc
    by_cases hji : j = i <;> by_cases hki : k = i
    · rw [hji, hki]
    · subst hji
      rw [Reg.setSlot_same, r.setSlot_other s hki] at *
      exact absurd (RouteHold.clashes_symm hc) (hf.routes a hj k hki b hk)
    · subst hki
      rw [Reg.setSlot_same, r.setSlot_other s hji] at *
      exact absurd hc (hf.routes b hk j hji a hj)
    · rw [r.setSlot_other s hji, r.setSlot_other s hki] at *
      exact hi.routes j k a b hj hk hc

/-- Vacating a slot never breaks the others. -/
theorem Reg.fits_vacated (r : Reg) (i : Fin slotCount) : r.Fits i {} where
  ok := Slot.ok_default _
  serial := by simp [Slot.Occupied]
  serials := by simp [Slot.Occupied]
  keys := by simp [Slot.Occupied]
  ids := by simp
  routes := by simp

/-- A write that keeps the occupancy: the same serial, key and route; the ID may only be new. -/
theorem Inv.fits_kept {r : Reg} (hi : Inv r) {i : Fin slotCount} {s : Slot}
    (hocc : (r.slots i).Occupied) (hok : s.Ok r.physicalMask)
    (hserial : s.serial = (r.slots i).serial) (hkey : s.key = (r.slots i).key)
    (hid : s.displayId = (r.slots i).displayId ∨ ∀ j, (r.slots j).displayId ≠ s.displayId)
    (hroute : ∀ a, s.routeHold = some a → (r.slots i).routeHold = some a ∨
      ∀ j, j ≠ i → ∀ b, (r.slots j).routeHold = some b → ¬ b.clashes a) : r.Fits i s where
  ok := hok
  serial := fun _ => hserial ▸ hi.serial i hocc
  serials := by
    intro _ j hj hoj he
    exact hj (hi.serials j i hoj hocc (he.trans hserial))
  keys := by
    intro _ j hj hoj he
    exact hj (hi.keys j i hoj hocc (he.trans hkey))
  ids := by
    intro hd j hj he
    rcases hid with hid | hid
    · exact hj (hi.ids j i (he ▸ hd) (he.trans hid))
    · exact hid j he
  routes := by
    intro a ha j hj b hb hc
    rcases hroute a ha with hsame | hnew
    · exact hj (hi.routes j i b a hb hsame hc)
    · exact hnew j hj b hb hc

/-! ## The calls on one slot -/

theorem isPowerOfTwo_of_not_notSingleBit {id : Nat} (h : ¬ notSingleBit id) : id.isPowerOfTwo := by
  simp only [notSingleBit, not_or, not_not] at h
  exact (Nat.and_sub_one_eq_zero_iff_isPowerOfTwo h.1).mp h.2

theorem ne_zero_of_not_notSingleBit {id : Nat} (h : ¬ notSingleBit id) : id ≠ 0 := by
  simp only [notSingleBit, not_or] at h
  exact h.1

/-- The new content of the slot is in order. -/
theorem Change.ok {r : Reg} {v : Handle} {i : Fin slotCount} {req : Request} {a : Answer}
    {s : Slot} (hc : Change r v i req a s) (ho : (r.slots i).Occupied)
    (hok : (r.slots i).Ok r.physicalMask) : s.Ok r.physicalMask := by
  obtain ⟨hv, hz, hb, hf, ha, hs, hm⟩ := hok
  unfold Slot.Occupied at ho
  cases hc with
  | allocate hst hp hd =>
    refine ⟨by simp [hst], by simp [hst, hd], ?_, by simp, by simp [hst], by simp [hd], hm⟩
    exact hb
  | allocated hst hp hbit hmask hn =>
    have hd : (r.slots i).displayId = 0 := hz.mpr (.inr (.inl hst))
    have hne := ne_zero_of_not_notSingleBit hbit
    exact ⟨by simp, by simp [hne], by simp [hne], by simp, by simp,
      fun _ => isPowerOfTwo_of_not_notSingleBit hbit, hmask⟩
  | allocationRejected hst hp =>
    have hd : (r.slots i).displayId = 0 := hz.mpr (.inr (.inl hst))
    exact ⟨by simp, by simp [hd], hb, by simp, by simp, by simp [hd], hm⟩
  | cancelled hp => exact ⟨fun h => absurd h ho, hz, hb, by simp, by simp, hs, hm⟩
  | resource hst hp =>
    have hd : (r.slots i).displayId ≠ 0 := by simp [hz, hst]
    exact ⟨by simp, by simp [hd], hb, by simp [hp], by simp [hp], hs, hm⟩
  | publish hst hp =>
    have hd : (r.slots i).displayId ≠ 0 := by simp [hz, hst]
    exact ⟨by simp [hst], hz, fun h => absurd h hd, by simp [hp], by simp [hp], hs, hm⟩
  | unpublish hp =>
    refine ⟨fun h => absurd h ho, hz, ?_, by simp [hp], by simp [hp], hs, hm⟩
    intro hd
    have := hb hd
    simp only [Slot.Referenced, not_or] at this ⊢
    exact ⟨by simp, this.2⟩
  | holdRoute hst hp hn =>
    have hd : (r.slots i).displayId ≠ 0 := by simp [hz, hst]
    exact ⟨by simp [hst], hz, fun h => absurd h hd, by simp [hp], by simp [hp], hs, hm⟩
  | releaseRoute hr hp =>
    refine ⟨fun h => absurd h ho, hz, ?_, by simp [hp], by simp [hp], hs, hm⟩
    intro hd
    have := hb hd
    simp only [Slot.Referenced, not_or] at this ⊢
    exact ⟨this.1, this.2.1, this.2.2.1, by simp⟩
  | activated hp hst ha' =>
    -- A first image needs a verified slot; a later one replaces a reference that proves the ID.
    have hd : (r.slots i).displayId ≠ 0 := by
      intro hd
      by_cases himg : (r.slots i).image = none
      · rw [hz, hst himg] at hd
        simp at hd
      · exact hb hd (.inr (.inl himg))
    exact ⟨fun h => absurd h ho, hz, fun h => absurd h hd, by simp [hp], by simp [hp], hs, hm⟩
  | detached hp ha' =>
    refine ⟨fun h => absurd h ho, hz, ?_, by simp [hp], by simp [hp], hs, hm⟩
    intro hd
    have := hb hd
    simp only [Slot.Referenced, not_or] at this ⊢
    exact ⟨this.1, by simp, this.2.2⟩
  | retireBare => exact Slot.ok_default _
  | retire hp hd => exact ⟨by simp, by simp [hd], fun h => absurd h hd, by simp [hp], by simp [hp], hs, hm⟩
  | free hst hp hd hn =>
    refine ⟨by simp [hst], hz, hb, fun _ => ⟨hst, ?_⟩, by simp, hs, hm⟩
    exact hn
  | freed => exact Slot.ok_default _
  | freeRejected hst hp => exact ⟨by simp [hst], hz, hb, by simp, by simp, hs, hm⟩

/-- Every call on one slot keeps its occupancy, or vacates it. -/
theorem Change.fits {r : Reg} {v : Handle} {i : Fin slotCount} {req : Request} {a : Answer}
    {s : Slot} (hc : Change r v i req a s) (hi : Inv r) (ho : (r.slots i).Occupied) :
    r.Fits i s := by
  have hok := hc.ok ho (hi.ok i)
  have keep : ∀ s : Slot, s.Ok r.physicalMask → s.serial = (r.slots i).serial →
      s.key = (r.slots i).key → s.displayId = (r.slots i).displayId →
      (∀ a, s.routeHold = some a → (r.slots i).routeHold = some a) → r.Fits i s :=
    fun s hok hs hk hd hr => hi.fits_kept ho hok hs hk (.inl hd) fun a ha => .inl (hr a ha)
  cases hc with
  | allocated _ _ _ _ hn => exact hi.fits_kept ho hok rfl rfl (.inr hn) fun a ha => .inl ha
  | holdRoute _ _ hn =>
    refine hi.fits_kept ho hok rfl rfl (.inl rfl) fun a ha => .inr ?_
    cases ha
    exact hn
  | retireBare => exact r.fits_vacated i
  | freed => exact r.fits_vacated i
  | releaseRoute => exact keep _ hok rfl rfl rfl (by simp)
  | allocate => exact keep _ hok rfl rfl rfl fun _ h => h
  | allocationRejected => exact keep _ hok rfl rfl rfl fun _ h => h
  | cancelled => exact keep _ hok rfl rfl rfl fun _ h => h
  | resource => exact keep _ hok rfl rfl rfl fun _ h => h
  | publish => exact keep _ hok rfl rfl rfl fun _ h => h
  | unpublish => exact keep _ hok rfl rfl rfl fun _ h => h
  | activated => exact keep _ hok rfl rfl rfl fun _ h => h
  | detached => exact keep _ hok rfl rfl rfl fun _ h => h
  | retire => exact keep _ hok rfl rfl rfl fun _ h => h
  | free => exact keep _ hok rfl rfl rfl fun _ h => h
  | freeRejected => exact keep _ hok rfl rfl rfl fun _ h => h

/-! ## Writing many slots -/

/-- The slot keeps its occupancy, display ID and route. -/
structure Slot.Stays (s s' : Slot) : Prop where
  serial : s'.serial = s.serial
  key : s'.key = s.key
  displayId : s'.displayId = s.displayId
  routeHold : s'.routeHold = s.routeHold
  occupied : s'.Occupied → s.Occupied

/-- A pass that vacates some slots and keeps what ties the others together. -/
theorem Inv.of_slots {r r' : Reg} (hi : Inv r) (hn : r'.nextSerial = r.nextSerial)
    (hok : ∀ i, (r'.slots i).Ok r'.physicalMask)
    (hs : ∀ i, r'.slots i = {} ∨ (r.slots i).Stays (r'.slots i)) : Inv r' := by
  have stays : ∀ i, (r'.slots i).Occupied → (r.slots i).Stays (r'.slots i) := by
    intro i ho
    refine (hs i).resolve_left fun h => ?_
    rw [h] at ho
    exact ho rfl
  refine ⟨hok, ?_, ?_, ?_, ?_, ?_⟩
  · intro i ho
    have h := stays i ho
    rw [hn, h.serial]
    exact hi.serial i (h.occupied ho)
  · intro i j hoi hoj he
    have h := stays i hoi
    have h' := stays j hoj
    exact hi.serials i j (h.occupied hoi) (h'.occupied hoj) (by rw [← h.serial, ← h'.serial, he])
  · intro i j hoi hoj he
    have h := stays i hoi
    have h' := stays j hoj
    exact hi.keys i j (h.occupied hoi) (h'.occupied hoj) (by rw [← h.key, ← h'.key, he])
  · intro i j hd he
    have h := stays i ((hok i).occupied hd)
    have h' := stays j ((hok j).occupied (he ▸ hd))
    rw [h.displayId] at hd
    exact hi.ids i j hd (by rw [← h.displayId, ← h'.displayId, he])
  · intro i j a b ha hb hc
    rcases hs i with h | h
    · rw [h] at ha
      cases ha
    · rcases hs j with h' | h'
      · rw [h'] at hb
        cases hb
      · exact hi.routes i j a b (h.routeHold ▸ ha) (h'.routeHold ▸ hb) hc

/-! ## Stream leases -/

theorem Reg.setLeases_stays (r : Reg) (handles : List Handle) (lease : Option StreamLease)
    (i : Fin slotCount) : (r.setLeases handles lease).slots i = {} ∨
      (r.slots i).Stays ((r.setLeases handles lease).slots i) := by
  refine .inr ?_
  rw [Reg.setLeases_slots]
  split <;> exact ⟨rfl, rfl, rfl, rfl, id⟩

theorem Slot.Ok.hold {s : Slot} {mask : Nat} (h : s.Ok mask) {lease : StreamLease}
    (hh : s.Holdable lease) : ({ s with streamLease := some lease } : Slot).Ok mask := by
  obtain ⟨hv, hz, hb, hf, ha, hs, hm⟩ := h
  refine ⟨?_, hz, fun hd => absurd hd hh.displayId, by simp [hh.pending], ha, hs, hm⟩
  intro hvac
  rcases hh.state with h | h <;> simp [h] at hvac

theorem Slot.Ok.release {s : Slot} {mask : Nat} (h : s.Ok mask) :
    ({ s with streamLease := none } : Slot).Ok mask := by
  obtain ⟨hv, hz, hb, hf, ha, hs, hm⟩ := h
  have hr : ({ s with streamLease := none } : Slot).Referenced → s.Referenced := by
    rintro (h | h | h | h)
    · exact .inl h
    · exact .inr (.inl h)
    · exact absurd rfl h
    · exact .inr (.inr (.inr h))
  refine ⟨?_, hz, fun hd hx => hb hd (hr hx), fun hp => ⟨(hf hp).1, fun hx => (hf hp).2 (hr hx)⟩,
    ha, hs, hm⟩
  intro hvac
  rw [hv hvac]

theorem Inv.hold {r : Reg} (hi : Inv r) {lease : StreamLease} {handles : List Handle}
    (hall : ∀ v ∈ handles, ∃ i, r.Resolves v i ∧ (r.slots i).Holdable lease) :
    Inv (r.setLeases handles (some lease)) := by
  refine hi.of_slots (by simp) (fun i => ?_) (r.setLeases_stays handles _)
  rw [Reg.setLeases_slots, Reg.setLeases_physicalMask]
  split
  · rename_i hv
    obtain ⟨v, hmem, hslot⟩ := hv
    obtain ⟨j, hres, hh⟩ := hall v hmem
    have hij : j = i := Fin.ext (hres.2.2.2.1.symm.trans hslot)
    subst hij
    exact (hi.ok j).hold hh
  · exact hi.ok i

theorem Inv.release {r : Reg} (hi : Inv r) (handles : List Handle) :
    Inv (r.setLeases handles none) := by
  refine hi.of_slots (by simp) (fun i => ?_) (r.setLeases_stays handles _)
  rw [Reg.setLeases_slots, Reg.setLeases_physicalMask]
  split
  · exact (hi.ok i).release
  · exact hi.ok i

end Registry
end Mst
end NvidiaGsp
