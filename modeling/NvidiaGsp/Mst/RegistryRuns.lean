import NvidiaGsp.Lib.Runs
import NvidiaGsp.Mst.RegistrySync

/-!
# Mst.RegistryRuns

What holds of every run of the registry. `Effect` lists what one call can do; `Registered` adds to
the invariant what the history has handed out: serials of occupancies that started, handles whose
slot was vacated, and the Free request behind every pending Free. `registry_run` is the result: a
display ID belongs to one slot from its allocation to its acknowledged Free.
-/

namespace NvidiaGsp
namespace Mst
namespace Registry

open Call

/-! ## What one call can do -/

inductive Effect (r : Reg) : Request → Answer → Reg → Prop where
  | failed {req : Request} {e : Error}
      (he : ∀ graph sor link mask, req = .synchronize graph sor link mask → e ≠ .Unreachable) :
      Effect r req (.failed e) r
  | onSlot {req : Request} {a : Answer} {v : Handle} {i : Fin slotCount} {s : Slot}
      (hr : r.Resolves v i) (hc : Change r v i req a s) : Effect r req a (r.setSlot i s)
  | hold {lease : StreamLease} {handles : List Handle} (he : lease.epoch = r.epoch)
      (hall : ∀ v ∈ handles, ∃ i, r.Resolves v i ∧ (r.slots i).Holdable lease) :
      Effect r (.holdStreams lease handles) .done (r.setLeases handles (some lease))
  | release {lease : StreamLease} {handles : List Handle}
      (hall : ∀ v ∈ handles, ∃ i, r.Resolves v i ∧ (r.slots i).streamLease = some lease) :
      Effect r (.releaseStreams lease handles) .done (r.setLeases handles none)
  | synchronize {graph : Graph} {sor link mask : Nat} {r' : Reg} (hr : r.Recaptures r') :
      Effect r (.synchronize graph sor link mask) .done r'

/-- A call that only fails without writing and otherwise changes one slot. -/
theorem effect_onSlot {α : Type} {f : α → Answer} {x : Op α} {r r' : Reg} {req : Request}
    {a : Answer} (hx : Atomic x)
    (hreq : ∀ graph sor link mask, req ≠ .synchronize graph sor link mask)
    (hok : ∀ b r', x r = .ok b r' →
      ∃ v i s, r.Resolves v i ∧ Change r v i req (f b) s ∧ r' = r.setSlot i s)
    (h : answer f x r = (a, r')) : Effect r req a r' := by
  unfold answer at h
  split at h
  · rename_i b r₁ hxr
    cases h
    obtain ⟨v, i, s, hr, hc, rfl⟩ := hok b _ hxr
    exact .onSlot hr hc
  · rename_i e r₁ hxr
    cases h
    rw [hx _ _ _ hxr]
    exact .failed fun graph sor link mask hs => absurd hs (hreq graph sor link mask)

theorem step_effect {r r' : Reg} {req : Request} {a : Answer} (hi : Inv r)
    (h : step r req = (a, r')) : Effect r req a r' := by
  cases req with
  | synchronize graph sor link mask =>
    simp only [step, perform, answer] at h
    rcases synchronize_cases hi graph sor link mask with ⟨e, hne, hs⟩ | ⟨r₁, hs, hr⟩
    · rw [hs] at h
      cases h
      exact .failed fun _ _ _ _ _ => hne
    · rw [hs] at h
      cases h
      exact .synchronize hr
  | holdStreams lease handles =>
    simp only [step, perform, answer] at h
    split at h
    · rename_i hs
      cases h
      obtain ⟨rfl, he, -, -, -, -, hall⟩ := holdStreams_ok hs
      exact .hold he hall
    · rename_i hs
      cases h
      rw [atomic_holdStreams _ _ _ _ _ hs]
      exact .failed (by simp)
  | releaseStreams lease handles =>
    simp only [step, perform, answer] at h
    split at h
    · rename_i hs
      cases h
      obtain ⟨rfl, -, -, -, -, -, hall⟩ := releaseStreams_ok.1 hs
      exact .release hall
    · rename_i hs
      cases h
      rw [atomic_releaseStreams _ _ _ _ _ hs]
      exact .failed (by simp)
  | allocate v =>
    exact effect_onSlot (atomic_allocate v) (by simp) (fun _ _ hs => ⟨v, allocate_ok hs⟩) h
  | allocated v id serial =>
    exact effect_onSlot (atomic_allocated v id serial) (by simp)
      (fun _ _ hs => ⟨v, allocated_ok hs⟩) h
  | allocationRejected v serial =>
    exact effect_onSlot (atomic_allocationRejected v serial) (by simp)
      (fun _ _ hs => ⟨v, allocationRejected_ok hs⟩) h
  | cancelled v =>
    exact effect_onSlot (atomic_cancelled v) (by simp) (fun _ _ hs => ⟨v, cancelled_ok hs⟩) h
  | resource v observed serial =>
    exact effect_onSlot (atomic_resource v observed serial) (by simp)
      (fun _ _ hs => ⟨v, resource_ok hs⟩) h
  | publish v generation =>
    exact effect_onSlot (atomic_publish v generation) (by simp)
      (fun _ _ hs => ⟨v, publish_ok hs⟩) h
  | unpublish v =>
    exact effect_onSlot (atomic_unpublish v) (by simp) (fun _ _ hs => ⟨v, unpublish_ok hs⟩) h
  | holdRoute v route =>
    exact effect_onSlot (atomic_holdRoute v route) (by simp) (fun _ _ hs => ⟨v, holdRoute_ok hs⟩) h
  | releaseRoute v route =>
    exact effect_onSlot (atomic_releaseRoute v route) (by simp)
      (fun _ _ hs => ⟨v, releaseRoute_ok hs⟩) h
  | activated v displayed =>
    exact effect_onSlot (atomic_activated v displayed) (by simp)
      (fun _ _ hs => ⟨v, activated_ok hs⟩) h
  | detached v retirement =>
    exact effect_onSlot (atomic_detached v retirement) (by simp)
      (fun _ _ hs => ⟨v, detached_ok hs⟩) h
  | retire v => exact effect_onSlot (atomic_retire v) (by simp) (fun _ _ hs => ⟨v, retire_ok hs⟩) h
  | free v => exact effect_onSlot (atomic_free v) (by simp) (fun _ _ hs => ⟨v, free_ok hs⟩) h
  | freed v serial =>
    exact effect_onSlot (atomic_freed v serial) (by simp) (fun _ _ hs => ⟨v, freed_ok hs⟩) h
  | freeRejected v serial =>
    exact effect_onSlot (atomic_freeRejected v serial) (by simp)
      (fun _ _ hs => ⟨v, freeRejected_ok hs⟩) h

section

variable {r r' : Reg} {req : Request} {a : Answer}

theorem Effect.inv (he : Effect r req a r') (hi : Inv r) : Inv r' := by
  cases he with
  | failed => exact hi
  | onSlot hr hc => exact hi.setSlot (hc.fits hi hr.2.2.2.2.2)
  | hold _ hall => exact hi.hold hall
  | release => exact hi.release _
  | synchronize hr => exact hr.inv

theorem Effect.unchanged {e : Error} (he : Effect r req a r') (ha : a = .failed e) : r' = r := by
  subst ha
  cases he with
  | failed => rfl
  | onSlot _ hc => cases hc

/-! ## Occupancies -/

/-- A call on a slot keeps its occupancy or vacates it. -/
theorem Change.serial {v : Handle} {i : Fin slotCount} {s : Slot} (hc : Change r v i req a s) :
    s = {} ∨ s.serial = (r.slots i).serial := by
  cases hc with
  | retireBare => exact .inl rfl
  | freed => exact .inl rfl
  | _ => exact .inr rfl

theorem Effect.mono (he : Effect r req a r') : r.nextSerial ≤ r'.nextSerial := by
  cases he with
  | failed => exact le_rfl
  | onSlot => exact le_rfl
  | hold => rw [Reg.setLeases_nextSerial]
  | release => rw [Reg.setLeases_nextSerial]
  | synchronize hr => exact hr.retains.mono

/-- The lease writes change nothing else. -/
theorem Reg.setLeases_lease (r : Reg) (handles : List Handle) (lease : Option StreamLease)
    (i : Fin slotCount) :
    ∃ l, (r.setLeases handles lease).slots i = { r.slots i with streamLease := l } := by
  rw [Reg.setLeases_slots]
  split
  · exact ⟨lease, rfl⟩
  · exact ⟨(r.slots i).streamLease, rfl⟩

/-- An occupancy after a call was there before it, or is under a new serial. -/
theorem Effect.occupancy (he : Effect r req a r') {i : Fin slotCount}
    (ho : (r'.slots i).Occupied) :
    (r.slots i).Occupied ∧ (r'.slots i).serial = (r.slots i).serial ∨
      r.nextSerial < (r'.slots i).serial := by
  have leases : ∀ handles lease, ((r.setLeases handles lease).slots i).Occupied →
      (r.slots i).Occupied ∧
        ((r.setLeases handles lease).slots i).serial = (r.slots i).serial := by
    intro handles lease ho
    obtain ⟨l, hl⟩ := r.setLeases_lease handles lease i
    rw [hl] at ho ⊢
    exact ⟨ho, rfl⟩
  cases he with
  | failed => exact .inl ⟨ho, rfl⟩
  | @onSlot _ _ v j s hr hc =>
    by_cases hij : i = j
    · subst hij
      rw [Reg.setSlot_same] at ho ⊢
      rcases hc.serial with rfl | hs
      · exact absurd rfl ho
      · exact .inl ⟨hr.2.2.2.2.2, hs⟩
    · rw [Reg.setSlot_other _ _ hij] at ho ⊢
      exact .inl ⟨ho, rfl⟩
  | hold => exact .inl (leases _ _ ho)
  | release => exact .inl (leases _ _ ho)
  | synchronize hr => exact hr.retains.occupancy i ho

theorem Effect.epoch (he : Effect r req a r') (h : r.epoch ≠ 0) : r'.epoch = r.epoch := by
  cases he with
  | failed => rfl
  | onSlot => rfl
  | hold => rw [Reg.setLeases_epoch]
  | release => rw [Reg.setLeases_epoch]
  | synchronize hr => exact hr.retains.epoch h

/-! ## Display IDs -/

/-- A call on a slot keeps its ID and key, unless it is the acknowledged Free. -/
theorem Change.owned {v : Handle} {i : Fin slotCount} {s : Slot} (hc : Change r v i req a s)
    (hr : r.Resolves v i) (hok : (r.slots i).Ok r.physicalMask) (hd : (r.slots i).displayId ≠ 0) :
    (s.displayId = (r.slots i).displayId ∧ s.serial = (r.slots i).serial ∧
        s.key = (r.slots i).key ∧ s.Occupied) ∨
      ∃ serial, req = .freed v serial ∧ a = .done ∧ (r.slots i).pending = .free := by
  have ho : (r.slots i).state ≠ .vacant := hr.2.2.2.2.2
  cases hc with
  | allocated hs => exact absurd (hok.zero.2 (.inr (.inl hs))) hd
  | retireBare _ hz => exact absurd hz hd
  | freed hp => exact .inr ⟨_, rfl, rfl, hp⟩
  | allocationRejected => exact .inl ⟨rfl, rfl, rfl, by simp [Slot.Occupied]⟩
  | resource => exact .inl ⟨rfl, rfl, rfl, by simp [Slot.Occupied]⟩
  | retire => exact .inl ⟨rfl, rfl, rfl, by simp [Slot.Occupied]⟩
  | _ => exact .inl ⟨rfl, rfl, rfl, ho⟩

/-- A slot with an ID keeps it, with its serial and key, unless its Free was acknowledged. -/
theorem Effect.owned (he : Effect r req a r') (hi : Inv r) {i : Fin slotCount}
    (hd : (r.slots i).displayId ≠ 0) :
    ((r'.slots i).displayId = (r.slots i).displayId ∧ (r'.slots i).serial = (r.slots i).serial ∧
        (r'.slots i).key = (r.slots i).key ∧ (r'.slots i).Occupied) ∨
      ∃ v serial, req = .freed v serial ∧ a = .done ∧ r.Resolves v i ∧
        (r.slots i).pending = .free := by
  have ho := (hi.ok i).occupied hd
  cases he with
  | failed => exact .inl ⟨rfl, rfl, rfl, ho⟩
  | @onSlot _ _ v j s hr hc =>
    by_cases hij : i = j
    · subst hij
      rw [Reg.setSlot_same]
      rcases hc.owned hr (hi.ok i) hd with h | ⟨serial, h₁, h₂, h₃⟩
      · exact .inl h
      · exact .inr ⟨v, serial, h₁, h₂, hr, h₃⟩
    · rw [Reg.setSlot_other _ _ hij]
      exact .inl ⟨rfl, rfl, rfl, ho⟩
  | @hold lease handles =>
    obtain ⟨l, hl⟩ := r.setLeases_lease handles (some lease) i
    rw [hl]
    exact .inl ⟨rfl, rfl, rfl, ho⟩
  | @release _ handles =>
    obtain ⟨l, hl⟩ := r.setLeases_lease handles none i
    rw [hl]
    exact .inl ⟨rfl, rfl, rfl, ho⟩
  | synchronize hr =>
    have hk := hr.retains.owned i hd
    exact .inl ⟨hk.displayId, hk.serial, hk.key,
      (hr.inv.ok i).occupied (by rw [hk.displayId]; exact hd)⟩

/-- The Free query is for the ID of an unreferenced slot. -/
theorem Effect.free_query (he : Effect r req a r') {id : Nat} (ha : a = .query (.free id)) :
    ∃ v i, req = .free v ∧ r.Resolves v i ∧ (r.slots i).displayId = id ∧
      ¬ (r.slots i).Referenced := by
  subst ha
  cases he with
  | @onSlot _ _ v i s hr hc =>
    cases hc with
    | free _ _ _ hn => exact ⟨v, i, rfl, hr, rfl, hn⟩

/-- The acknowledgement of a Free finds it pending. -/
theorem Effect.freed_pending (he : Effect r req a r') {v : Handle} {serial : Nat}
    (hreq : req = .freed v serial) (ha : a = .done) :
    ∃ i, r.Resolves v i ∧ (r.slots i).pending = .free := by
  subst hreq ha
  cases he with
  | onSlot hr hc =>
    cases hc with
    | freed hp => exact ⟨_, hr, hp⟩

/-- A pending Free was pending before, or is the one just requested. -/
theorem Change.freeing {v : Handle} {i : Fin slotCount} {s : Slot} (hc : Change r v i req a s)
    (hp : s.pending = .free) : req = .free v ∧ a = .query (.free (r.slots i).displayId) ∧
      s.serial = (r.slots i).serial ∧ s.displayId = (r.slots i).displayId := by
  cases hc with
  | free => exact ⟨rfl, rfl, rfl, rfl⟩
  | unpublish h => simp [h] at hp
  | resource _ h => simp [h] at hp
  | publish _ h => simp [h] at hp
  | holdRoute _ h => simp [h] at hp
  | releaseRoute _ h => simp [h] at hp
  | activated h => simp [h] at hp
  | detached h => simp [h] at hp
  | retire h => simp [h] at hp
  | _ => simp at hp

theorem Effect.freeing (he : Effect r req a r') {i : Fin slotCount}
    (hp : (r'.slots i).pending = .free) :
    (r'.slots i).serial = (r.slots i).serial ∧ (r'.slots i).displayId = (r.slots i).displayId ∧
      ((r.slots i).pending = .free ∨
        ∃ v, req = .free v ∧ a = .query (.free (r.slots i).displayId) ∧ r.Resolves v i) := by
  cases he with
  | failed => exact ⟨rfl, rfl, .inl hp⟩
  | @onSlot _ _ v j s hr hc =>
    by_cases hij : i = j
    · subst hij
      rw [Reg.setSlot_same] at hp ⊢
      obtain ⟨h₁, h₂, h₃, h₄⟩ := hc.freeing hp
      exact ⟨h₃, h₄, .inr ⟨v, h₁, h₂, hr⟩⟩
    · rw [Reg.setSlot_other _ _ hij] at hp ⊢
      exact ⟨rfl, rfl, .inl hp⟩
  | @hold lease handles =>
    obtain ⟨l, hl⟩ := r.setLeases_lease handles (some lease) i
    rw [hl] at hp ⊢
    exact ⟨rfl, rfl, .inl hp⟩
  | @release _ handles =>
    obtain ⟨l, hl⟩ := r.setLeases_lease handles none i
    rw [hl] at hp ⊢
    exact ⟨rfl, rfl, .inl hp⟩
  | synchronize hr =>
    rw [hr.quiet i] at hp
    cases hp

/-! ## Stream leases -/

theorem Change.streamLease {v : Handle} {i : Fin slotCount} {s : Slot}
    (hc : Change r v i req a s) : s = {} ∨ s.streamLease = (r.slots i).streamLease := by
  cases hc with
  | retireBare => exact .inl rfl
  | freed => exact .inl rfl
  | _ => exact .inr rfl

/-- A handle on a leased slot still resolves to it, under the same lease, after any call but the
release of that lease. -/
theorem Effect.leased (he : Effect r req a r') (hi : Inv r) {l : StreamLease} {v : Handle}
    {i : Fin slotCount} (hv : r.Resolves v i) (hl : (r.slots i).streamLease = some l)
    (hreq : ∀ handles, req ≠ .releaseStreams l handles) :
    r'.Resolves v i ∧ (r'.slots i).streamLease = some l := by
  have href : (r.slots i).Referenced := .inr (.inr (.inl (by simp [hl])))
  have hd := (hi.ok i).id_of_referenced href
  constructor
  · obtain ⟨h₁, h₂, h₃, h₄, h₅, -⟩ := hv
    have hep := he.epoch h₁
    rcases he.owned hi hd with ⟨-, hs, -, ho⟩ | ⟨_, _, -, -, -, hp⟩
    · exact ⟨by rw [hep]; exact h₁, by rw [hep]; exact h₂, h₃, h₄, by rw [hs]; exact h₅, ho⟩
    · exact absurd href ((hi.ok i).freeing hp).2
  · cases he with
    | failed => exact hl
    | @onSlot _ _ w j s hr hc =>
      by_cases hij : i = j
      · subst hij
        rw [Reg.setSlot_same]
        rcases hc.streamLease with rfl | hs
        · rcases hc.owned hr (hi.ok i) hd with ⟨-, -, -, ho⟩ | ⟨_, -, -, hp⟩
          · exact absurd rfl ho
          · exact absurd href ((hi.ok i).freeing hp).2
        · rw [hs]
          exact hl
      · rw [Reg.setSlot_other _ _ hij]
        exact hl
    | hold _ hall =>
      rw [Reg.setLeases_slots]
      split
      · rename_i hmem
        obtain ⟨w, hw, hslot⟩ := hmem
        obtain ⟨j, hres, hh⟩ := hall w hw
        have hji : j = i := Fin.ext (hres.2.2.2.1.symm.trans hslot)
        subst hji
        rw [hh.free] at hl
        cases hl
      · exact hl
    | @release lease handles hall =>
      rw [Reg.setLeases_slots]
      split
      · rename_i hmem
        obtain ⟨w, hw, hslot⟩ := hmem
        obtain ⟨j, hres, hh⟩ := hall w hw
        have hji : j = i := Fin.ext (hres.2.2.2.1.symm.trans hslot)
        subst hji
        rw [hl] at hh
        cases hh
        exact absurd rfl (hreq handles)
      · exact hl
    | synchronize hr => rw [(hr.retains.owned i hd).streamLease]; exact hl

/-- A lease on a slot was there before, or was just put there. -/
theorem Effect.lease_source (he : Effect r req a r') {l : StreamLease} {i : Fin slotCount}
    (hl : (r'.slots i).streamLease = some l) :
    (r.slots i).streamLease = some l ∨ ∃ handles, req = .holdStreams l handles ∧ a = .done := by
  cases he with
  | failed => exact .inl hl
  | @onSlot _ _ w j s hr hc =>
    by_cases hij : i = j
    · subst hij
      rw [Reg.setSlot_same] at hl
      rcases hc.streamLease with rfl | hs
      · cases hl
      · exact .inl (hs ▸ hl)
    · rw [Reg.setSlot_other _ _ hij] at hl
      exact .inl hl
  | @hold lease handles =>
    rw [Reg.setLeases_slots] at hl
    split at hl
    · cases hl
      exact .inr ⟨handles, rfl, rfl⟩
    · exact .inl hl
  | release =>
    rw [Reg.setLeases_slots] at hl
    split at hl
    · cases hl
    · exact .inl hl
  | synchronize hr =>
    have hd := (hr.inv.ok i).id_of_referenced (.inr (.inr (.inl (by simp [hl]))))
    exact .inl ((hr.retains.owner i hd).streamLease ▸ hl)

end

/-! ## Whole runs -/

/-- One call of the registry in a run. -/
abbrev Step := Event Reg Request Answer

/-- A new occupancy of slot `i` starts with this call. -/
def Starts (e : Step) (i : Fin slotCount) : Prop :=
  (e.post.slots i).Occupied ∧
    ¬ ((e.pre.slots i).Occupied ∧ (e.pre.slots i).serial = (e.post.slots i).serial)

/-- The occupancy of slot `i` ends with this call. -/
def Vacates (e : Step) (i : Fin slotCount) : Prop :=
  (e.pre.slots i).Occupied ∧
    ¬ ((e.post.slots i).Occupied ∧ (e.post.slots i).serial = (e.pre.slots i).serial)

/-- The call asked RM to free the display ID of slot `i`, under the occupancy `serial`. -/
def Frees (e : Step) (i : Fin slotCount) (serial id : Nat) : Prop :=
  ∃ v, e.op = .free v ∧ e.out = .query (.free id) ∧ e.pre.Resolves v i ∧ v.serial = serial

/-- The invariant of a run. -/
structure Registered (h : List Step) (r : Reg) : Prop where
  inv : Inv r
  /-- Serials of started occupancies lie below the counter. -/
  issued : ∀ e ∈ h, ∀ i, Starts e i → (e.post.slots i).serial ≤ r.nextSerial
  /-- No serial starts two occupancies. -/
  once : ∀ h₁ e h₂, h = h₁ ++ e :: h₂ → ∀ f ∈ h₁, ∀ i j, Starts e i → Starts f j →
    (e.post.slots i).serial ≠ (f.post.slots j).serial
  /-- The serial of a vacated occupancy is gone. -/
  gone : ∀ e ∈ h, ∀ i, Vacates e i → (e.pre.slots i).serial ≤ r.nextSerial ∧
    ∀ j, (r.slots j).Occupied → (r.slots j).serial ≠ (e.pre.slots i).serial
  /-- A pending Free was asked for, for this occupancy and ID. -/
  freeing : ∀ i, (r.slots i).pending = .free →
    ∃ e ∈ h, Frees e i (r.slots i).serial (r.slots i).displayId

theorem registered_empty : Registered [] {} where
  inv := inv_empty
  issued := by simp
  once := by simp
  gone := by simp
  freeing := by simp

theorem Starts.fresh {r r' : Reg} {req : Request} {a : Answer} {i : Fin slotCount}
    (hs : Starts ⟨r, req, a, r'⟩ i) (he : Effect r req a r') :
    r.nextSerial < (r'.slots i).serial := by
  rcases he.occupancy hs.1 with ⟨ho, hser⟩ | hnew
  · exact absurd ⟨ho, hser.symm⟩ hs.2
  · exact hnew

theorem Registered.step {h : List Step} {r r' : Reg} {req : Request} {a : Answer}
    (hr : Registered h r) (hs : step r req = (a, r')) :
    Registered (h ++ [⟨r, req, a, r'⟩]) r' := by
  have hi := hr.inv
  have he := step_effect hi hs
  have hi' := he.inv hi
  refine ⟨hi', ?_, ?_, ?_, ?_⟩
  · intro e hmem i hst
    rcases List.mem_append.mp hmem with hmem | hmem
    · exact (hr.issued e hmem i hst).trans he.mono
    · rw [List.mem_singleton] at hmem
      subst hmem
      exact (hi'.serial i hst.1).2
  · intro h₁ e h₂ heq f hf i j hei hfj hser
    rcases List.eq_nil_or_concat h₂ with rfl | ⟨h₃, g, rfl⟩
    · obtain ⟨rfl, he'⟩ := List.append_inj' heq rfl
      rw [List.singleton_inj] at he'
      subst he'
      have hle := hr.issued f hf j hfj
      have hlt := hei.fresh he
      dsimp only at hser hlt
      omega
    · rw [List.concat_eq_append, ← List.cons_append, ← List.append_assoc] at heq
      obtain ⟨heq, -⟩ := List.append_inj' heq rfl
      exact hr.once h₁ e h₃ heq f hf i j hei hfj hser
  · intro e hmem i hv
    rcases List.mem_append.mp hmem with hmem | hmem
    · obtain ⟨hle, hgone⟩ := hr.gone e hmem i hv
      refine ⟨hle.trans he.mono, fun j ho hser => ?_⟩
      rcases he.occupancy ho with ⟨ho', hs'⟩ | hnew
      · exact hgone j ho' (hs'.symm.trans hser)
      · omega
    · rw [List.mem_singleton] at hmem
      subst hmem
      have hle := (hi.serial i hv.1).2
      refine ⟨hle.trans he.mono, fun j ho hser => ?_⟩
      dsimp only at hser hle ho
      rcases he.occupancy ho with ⟨ho', hs'⟩ | hnew
      · have hij : j = i := hi.serials j i ho' hv.1 (hs'.symm.trans hser)
        subst hij
        exact hv.2 ⟨ho, hser⟩
      · omega
  · intro i hp
    obtain ⟨hser, hid, h⟩ := he.freeing hp
    rw [hser, hid]
    rcases h with hold | ⟨v, hreq, ha, hres⟩
    · obtain ⟨e, hmem, hfree⟩ := hr.freeing i hold
      exact ⟨e, by simp [hmem], hfree⟩
    · exact ⟨⟨r, req, a, r'⟩, by simp, v, hreq, ha, hres, hres.2.2.2.2.1.symm⟩

theorem registered_run {h : List Step} {r : Reg} (hr : Run step {} h r) : Registered h r :=
  hr.invariant registered_empty fun _ _ _ _ _ hreg hs => hreg.step hs

/-- What every single call of a run respects. -/
structure Guarded (e : Step) : Prop where
  /-- A slot is vacated only without an ID, or by the acknowledgement of its own Free. -/
  vacated : ∀ i, Vacates e i → (e.pre.slots i).displayId = 0 ∨
    ∃ v serial, e.op = .freed v serial ∧ e.out = .done ∧ e.pre.Resolves v i ∧
      (e.pre.slots i).pending = .free
  /-- An ID handed to RM Free has no image, publication, stream lease or route hold. -/
  freed : ∀ id, e.out = .query (.free id) →
    ∃ i, (e.pre.slots i).displayId = id ∧ ¬ (e.pre.slots i).Referenced
  /-- A referenced slot keeps its ID, serial and key. -/
  kept : ∀ i, (e.pre.slots i).Referenced → (e.post.slots i).Occupied ∧
    (e.post.slots i).displayId = (e.pre.slots i).displayId ∧
    (e.post.slots i).serial = (e.pre.slots i).serial ∧ (e.post.slots i).key = (e.pre.slots i).key
  /-- The admission loop of a recapture always finds its slot. -/
  reachable : ∀ graph sor link mask, e.op = .synchronize graph sor link mask →
    e.out ≠ .failed .Unreachable
  /-- An error leaves the registry as it was. -/
  unchanged : ∀ err, e.out = .failed err → e.post = e.pre

theorem Effect.guarded {r r' : Reg} {req : Request} {a : Answer} (he : Effect r req a r')
    (hi : Inv r) : Guarded ⟨r, req, a, r'⟩ where
  vacated := by
    intro i hv
    by_cases hd : (r.slots i).displayId = 0
    · exact .inl hd
    · rcases he.owned hi hd with ⟨-, hs, -, ho⟩ | ⟨v, serial, h₁, h₂, h₃, h₄⟩
      · exact absurd ⟨ho, hs⟩ hv.2
      · exact .inr ⟨v, serial, h₁, h₂, h₃, h₄⟩
  freed := by
    intro id ha
    obtain ⟨v, i, -, -, hid, hn⟩ := he.free_query ha
    exact ⟨i, hid, hn⟩
  kept := by
    intro i href
    have hd := (hi.ok i).id_of_referenced href
    rcases he.owned hi hd with ⟨h₁, h₂, h₃, h₄⟩ | ⟨v, serial, -, -, -, hp⟩
    · exact ⟨h₄, h₁, h₂, h₃⟩
    · exact absurd href ((hi.ok i).freeing hp).2
  reachable := by
    intro graph sor link mask hreq ha
    dsimp only at hreq ha
    subst ha
    cases he with
    | failed hne => exact hne graph sor link mask hreq rfl
    | onSlot _ hc => cases hc
  unchanged := fun _ ha => he.unchanged ha

/-- Serials of occupancies that start in a run are pairwise distinct. -/
theorem Registered.starts {h : List Step} {r : Reg} (hr : Registered h r) {m n : Nat} {e f : Step}
    (he : h[m]? = some e) (hf : h[n]? = some f) {i j : Fin slotCount} (hei : Starts e i)
    (hfj : Starts f j) (hs : (e.post.slots i).serial = (f.post.slots j).serial)
    (hi : Inv e.post) : m = n ∧ i = j := by
  have later : ∀ {m n : Nat} {e f i j}, h[m]? = some e → h[n]? = some f → Starts e i → Starts f j →
      (e.post.slots i).serial = (f.post.slots j).serial → ¬ n < m := by
    intro m n e f i j he hf hei hfj hs hlt
    obtain ⟨hm, rfl⟩ := List.getElem?_eq_some_iff.mp he
    refine hr.once (h.take m) h[m] (h.drop (m + 1)) ?_ f ?_ i j hei hfj hs
    · rw [List.cons_getElem_drop_succ, List.take_append_drop]
    · rw [List.mem_iff_getElem?]
      exact ⟨n, by rw [List.getElem?_take_of_lt hlt]; exact hf⟩
  have hmn : m = n := by
    have := later he hf hei hfj hs
    have := later hf he hfj hei hs.symm
    omega
  subst hmn
  have hef : e = f := by
    rw [he] at hf
    cases hf
    rfl
  subst hef
  exact ⟨rfl, hi.serials i j hei.1 hfj.1 hs⟩

theorem slot_stale {r : Reg} {v : Handle} (h : ∀ i, ¬ r.Resolves v i) :
    slot v r = .error .Stale r := by
  cases hs : slot v r with
  | ok i r' => exact absurd (slot_ok.1 hs).2 (h i)
  | error e r' =>
    have he : e = .Stale := by
      simp only [slot, bind_error_iff, get_apply, failIf_error_iff, need_error_iff, pure_apply] at hs
      rcases hs with hs | ⟨_, _, -, hs | ⟨_, _, -, hs | ⟨_, _, -, hs | ⟨_, _, -, hs⟩⟩⟩⟩
      · cases hs
      · exact hs.2.1
      · exact hs.2.1
      · exact hs.2.1
      · cases hs
    rw [he, (readOnly_slot v).2 _ _ _ hs]

/-- **A display ID has one owner.** In every run from the empty registry: keys and display IDs of
the slots are pairwise distinct, IDs are single bits outside the physical mask, no serial is given
to two occupancies and a handle of a vacated slot never resolves again, a slot without an ID and a
slot whose Free is pending carry no reference, routes share no head or window, each Free
acknowledgement answers an earlier Free request of the same occupancy, and every call keeps
referenced IDs and changes nothing when it fails. -/
theorem registry_run {h : List Step} {r : Reg} (hr : Run step {} h r) :
    (∀ i j, (r.slots i).Occupied → (r.slots j).Occupied → (r.slots i).key = (r.slots j).key →
      i = j) ∧
    (∀ i j, (r.slots i).displayId ≠ 0 → (r.slots i).displayId = (r.slots j).displayId → i = j) ∧
    (∀ i, (r.slots i).displayId ≠ 0 → (r.slots i).displayId.isPowerOfTwo ∧
      (r.slots i).displayId &&& r.physicalMask = 0) ∧
    (∀ (m n : Nat) e f i j, h[m]? = some e → h[n]? = some f → Starts e i → Starts f j →
      (e.post.slots i).serial = (f.post.slots j).serial → m = n ∧ i = j) ∧
    (∀ e ∈ h, ∀ v i, slot v e.pre = .ok i e.pre → Vacates e i → slot v r = .error .Stale r) ∧
    (∀ i, (r.slots i).displayId = 0 → ¬ (r.slots i).Referenced) ∧
    (∀ i, (r.slots i).pending = .free → (r.slots i).state = .retiring ∧
      ¬ (r.slots i).Referenced) ∧
    (∀ i j a b, i ≠ j → (r.slots i).routeHold = some a → (r.slots j).routeHold = some b →
      a.head ≠ b.head ∧ a.window ≠ b.window) ∧
    (∀ h₁ e h₂ v serial, h = h₁ ++ e :: h₂ → e.op = .freed v serial → e.out = .done →
      ∃ i, e.pre.Resolves v i ∧ ∃ f ∈ h₁, Frees f i v.serial (e.pre.slots i).displayId) ∧
    (∀ e ∈ h, Guarded e) := by
  have hreg := registered_run hr
  have hi := hreg.inv
  refine ⟨hi.keys, hi.ids, fun i hd => ⟨(hi.ok i).single hd, (hi.ok i).masked⟩, ?_, ?_,
    fun i => (hi.ok i).bare, fun i => (hi.ok i).freeing, ?_, ?_, ?_⟩
  · intro m n e f i j he hf hei hfj hs
    obtain ⟨h₁, h₂, -, hrun, hst⟩ := hr.event (List.mem_of_getElem? he)
    have hpre := (registered_run hrun).inv
    exact hreg.starts he hf hei hfj hs ((step_effect hpre hst).inv hpre)
  · intro e hmem v i hv hvac
    refine slot_stale fun j hj => ?_
    have hres := (slot_ok.mp hv).2
    exact (hreg.gone e hmem i hvac).2 j hj.2.2.2.2.2
      (hj.2.2.2.2.1.trans hres.2.2.2.2.1.symm)
  · intro i j a b hij ha hb
    constructor
    · exact fun hh => hij (hi.routes i j a b ha hb (.inl hh))
    · exact fun hw => hij (hi.routes i j a b ha hb (.inr hw))
  · intro h₁ e h₂ v serial heq hop hout
    subst heq
    obtain ⟨hrun, hst⟩ := hr.prior
    have hpre := registered_run hrun
    obtain ⟨i, hres, hp⟩ := (step_effect hpre.inv hst).freed_pending hop hout
    refine ⟨i, hres, ?_⟩
    rw [← hres.2.2.2.2.1]
    exact hpre.freeing i hp
  · intro e he
    obtain ⟨h₁, h₂, -, hrun, hst⟩ := hr.event he
    have hpre := (registered_run hrun).inv
    exact (step_effect hpre hst).guarded hpre

/-- A capture of root `1` with one sink behind its branch. -/
def oneSink (generation receipt : Nat) : Graph :=
  { epoch := 1, generation := generation, root := 1, branchCount := 1, edgeCount := 1,
    sinkCount := 1, branches := fun _ => { descriptor := some (Vector.replicate 16 7) },
    edges := fun _ => { port := { number := 8, connected := true } },
    coherent := true, completionReceipt := receipt }

/-- The life of one display ID, from its capture to its Free, and the capture of its successor. -/
def lifeOfOneId : List Request :=
  [.synchronize (oneSink 1 5) 0 0 1, .allocate ⟨1, 1, 0⟩, .allocated ⟨1, 1, 0⟩ 2 6,
    .resource ⟨1, 1, 0⟩ ⟨true, 1, 0, 2, 8, 0⟩ 7, .publish ⟨1, 1, 0⟩ 1, .unpublish ⟨1, 1, 0⟩,
    .retire ⟨1, 1, 0⟩, .free ⟨1, 1, 0⟩, .freed ⟨1, 1, 0⟩ 8, .synchronize (oneSink 2 9) 0 0 1]

/-- The ID is allocated, verified, published, retired and freed; the next capture of the same key
gets a new serial in the same slot, and the two occupancies keep the invariant. -/
theorem registry_run_oneId :
    (exec step {} lifeOfOneId).1.map (·.out) =
      [.done, .query (.allocate 1), .done, .done, .done, .done, .done, .query (.free 2), .done,
        .done] ∧
    ((exec step {} lifeOfOneId).2.slots ⟨0, by decide⟩).serial = 2 ∧
    ∀ e ∈ (exec step {} lifeOfOneId).1, Guarded e :=
  ⟨by decide +kernel, by decide +kernel,
    (registry_run (Run.of_exec step {} lifeOfOneId)).2.2.2.2.2.2.2.2.2⟩

end Registry
end Mst
end NvidiaGsp
