import NvidiaGsp.Rm.Names

/-!
# Rm.NamesSpec

What each call of the ledger does when it succeeds, stated once, and that a failing call writes
nothing. `Live` and `Holds` say that a lease or a child range is in the ledger; the specs below are
phrased with them, so that the invariants never unfold a call.
-/

namespace NvidiaGsp
namespace Names

open Call

/-- The lease is in its slot of the client table. -/
def World.Live (w : World) (l : Lease) : Prop :=
  l.epoch = w.ledger.epoch ∧ ∃ i, l.slot = i.val ∧ (w.ledger.entries i).lease = some l

/-- The child range is in the ledger, at `p`. -/
def World.Holds (w : World) (p : Place) (c : Children) : Prop :=
  match p with
  | .fixed i => (w.ledger.children i).lease = some c
  | .resident a =>
    (∃ k : Nat, w.ledger.residentChildren[k]? = some a) ∧ (w.storage a).entry.lease = some c

theorem World.Holds.lease {w : World} {p : Place} {c : Children} (h : w.Holds p c) :
    (w.childEntry p).lease = some c := by
  cases p with
  | fixed i => exact h
  | resident a => exact h.2

/-! ## Lookups -/

theorem lookup_ok {l : Lease} {w w' : World} {i : Fin maxClients} :
    lookup l w = .ok i w' ↔
      w' = w ∧ l.epoch = w.ledger.epoch ∧ l.slot = i.val ∧ (w.ledger.entries i).lease = some l := by
  simp only [lookup, bind_ok_iff, get_apply, failIf_ok_iff, need_ok_iff, pure_apply]
  constructor
  · rintro ⟨_, _, h, _, _, ⟨he, rfl⟩, j, _, ⟨hj, rfl⟩, held, _, ⟨hh, rfl⟩, _, _, ⟨hl, rfl⟩, hret⟩
    cases h; cases hret
    split at hj
    · cases hj
      exact ⟨rfl, not_not.mp he, rfl, by rw [hh, not_not.mp hl]⟩
    · cases hj
  · rintro ⟨rfl, he, hi, hl⟩
    refine ⟨_, _, rfl, (), _, ⟨not_not.mpr he, rfl⟩, i, _, ⟨?_, rfl⟩, l, _, ⟨hl, rfl⟩, (), _,
      ⟨not_not.mpr rfl, rfl⟩, rfl⟩
    rw [dif_pos (by rw [hi]; exact i.isLt)]
    exact congrArg some (Fin.ext hi)

theorem readOnly_lookup (l : Lease) : ReadOnly (lookup l) :=
  readOnly_get.bind fun _ => (readOnly_failIf _ _).bind fun _ => (readOnly_need _ _).bind fun _ =>
    (readOnly_need _ _).bind fun _ => (readOnly_failIf _ _).bind fun _ => readOnly_pure _

theorem validate_ok {l : Lease} {w w' : World} :
    validate l w = .ok () w' ↔
      w' = w ∧ l.epoch = w.ledger.epoch ∧
        ∃ i, l.slot = i.val ∧ w.ledger.entries i = { lease := some l } := by
  simp only [validate, bind_ok_iff, lookup_ok, get_apply, failIf_ok_iff]
  constructor
  · rintro ⟨i, _, ⟨rfl, he, hi, hl⟩, _, _, h, hr, rfl⟩
    cases h
    exact ⟨rfl, he, i, hi, by rw [← hl, ← Bool.eq_false_of_not_eq_true hr]⟩
  · rintro ⟨rfl, he, i, hi, hl⟩
    exact ⟨i, _, ⟨rfl, he, hi, by rw [hl]⟩, _, _, rfl, by simp [hl], rfl⟩

theorem readOnly_validate (l : Lease) : ReadOnly (validate l) :=
  (readOnly_lookup l).bind fun _ => readOnly_get.bind fun _ => readOnly_failIf _ _

theorem validate_live {l : Lease} {w w' : World} (h : validate l w = .ok () w') : w.Live l := by
  obtain ⟨-, he, i, hi, hl⟩ := validate_ok.1 h
  exact ⟨he, i, hi, by rw [hl]⟩

section

variable {here : Nat}

theorem requireNoResident_ok {l : Lease} {w w' : World} {t : List (Nat × Nat)}
    (h : requireNoResident here l t w = .ok () w') :
    w' = w ∧ ∀ k a, (k, a) ∈ t → ∀ c, (w.storage a).entry.lease = some c → c.parent ≠ l := by
  induction t generalizing w with
  | nil =>
    simp only [requireNoResident, pure_apply] at h
    cases h
    exact ⟨rfl, by simp⟩
  | cons x rest ih =>
    simp only [requireNoResident, bind_ok_iff, get_apply, failIf_ok_iff, need_ok_iff] at h
    obtain ⟨_, _, h, _, _, ⟨-, rfl⟩, held, _, ⟨hh, rfl⟩, _, _, ⟨hp, rfl⟩, hrest⟩ := h
    cases h
    obtain ⟨rfl, hall⟩ := ih hrest
    refine ⟨rfl, fun k a hm c hc => ?_⟩
    rcases List.mem_cons.mp hm with rfl | hm
    · rw [hh] at hc
      cases hc
      exact hp
    · exact hall k a hm c hc

theorem readOnly_requireNoResident (l : Lease) (t : List (Nat × Nat)) :
    ReadOnly (requireNoResident here l t) := by
  induction t with
  | nil => exact readOnly_pure _
  | cons x rest ih =>
    exact readOnly_get.bind fun _ => (readOnly_failIf _ _).bind fun _ =>
      (readOnly_need _ _).bind fun _ => (readOnly_failIf _ _).bind fun _ => ih

theorem requireNoChildren_ok {l : Lease} {w w' : World}
    (h : requireNoChildren here l w = .ok () w') :
    w' = w ∧ validate l w = .ok () w ∧ ∀ p c, w.Holds p c → c.parent ≠ l := by
  simp only [requireNoChildren, bind_ok_iff, get_apply, failIf_ok_iff] at h
  obtain ⟨_, w₁, hv, _, _, h, _, _, ⟨hf, rfl⟩, hr⟩ := h
  cases h
  obtain ⟨rfl, -⟩ := validate_ok.1 hv
  obtain ⟨rfl, hall⟩ := requireNoResident_ok hr
  refine ⟨rfl, hv, fun p c hp hc => ?_⟩
  cases p with
  | fixed i =>
    have hl : (w'.ledger.children i).lease = some c := hp
    exact hf ⟨i, by rw [hl, Option.map_some, hc]⟩
  | resident a =>
    obtain ⟨⟨k, hk⟩, hl⟩ := hp
    exact hall k a (Std.TreeMap.mem_toList_iff_getElem?_eq_some.mpr hk) c hl hc

theorem readOnly_requireNoChildren (l : Lease) : ReadOnly (requireNoChildren here l) :=
  (readOnly_validate l).bind fun _ => readOnly_get.bind fun _ => (readOnly_failIf _ _).bind fun _ =>
    readOnly_requireNoResident l _

/-- Where a child range was found: in its own slot, or in the storage under its first name. -/
def World.Found (w : World) (here : Nat) (c : Children) : Place → Prop
  | .fixed i => c.slot ≠ residentSlot ∧ c.slot = i.val
  | .resident a => c.slot = residentSlot ∧ w.ledger.residentChildren[c.firstObject]? = some a ∧
      (w.storage a).selfAddress = a ∧ (w.storage a).ledgerAddress = here

theorem selectChildren_ok {c : Children} {w w' : World} {p : Place} :
    selectChildren here c w = .ok p w' ↔ w' = w ∧ w.Found here c p := by
  unfold selectChildren
  split
  · rename_i hslot
    simp only [bind_ok_iff, get_apply, need_ok_iff, failIf_ok_iff, pure_apply]
    constructor
    · rintro ⟨_, _, h, a, _, ⟨ha, rfl⟩, _, _, ⟨hs, rfl⟩, hp⟩
      cases h; cases hp
      rw [not_or, not_not, not_not] at hs
      exact ⟨rfl, hslot, ha, hs⟩
    · rintro ⟨rfl, hf⟩
      cases p with
      | fixed i => exact absurd hslot hf.1
      | resident a =>
        exact ⟨_, _, rfl, a, _, ⟨hf.2.1, rfl⟩, (), _,
          ⟨by rw [not_or, not_not, not_not]; exact hf.2.2, rfl⟩, rfl⟩
  · rename_i hslot
    rw [need_ok_iff]
    constructor
    · rintro ⟨hp, rfl⟩
      split at hp
      · cases hp
        exact ⟨rfl, hslot, rfl⟩
      · cases hp
    · rintro ⟨rfl, hf⟩
      cases p with
      | fixed i =>
        rw [dif_pos (by rw [hf.2]; exact i.isLt)]
        exact ⟨congrArg some (congrArg Place.fixed (Fin.ext hf.2)), rfl⟩
      | resident a => exact absurd hf.1 hslot

theorem readOnly_selectChildren (c : Children) : ReadOnly (selectChildren here c) :=
  ReadOnly.ite (readOnly_get.bind fun _ => (readOnly_need _ _).bind fun _ =>
    (readOnly_failIf _ _).bind fun _ => readOnly_pure _) (readOnly_need _ _)

theorem lookupChildren_ok {c : Children} {w w' : World} {p : Place} :
    lookupChildren here c w = .ok p w' ↔
      w' = w ∧ w.Live c.parent ∧ w.Found here c p ∧ (w.childEntry p).lease = some c := by
  simp only [lookupChildren, bind_ok_iff, lookup_ok, selectChildren_ok, get_apply, need_ok_iff,
    failIf_ok_iff, pure_apply]
  constructor
  · rintro ⟨i, _, ⟨rfl, he, hi, hl⟩, q, _, ⟨rfl, hf⟩, _, _, h, held, _, ⟨hh, rfl⟩, _, _, ⟨hc, rfl⟩,
      hret⟩
    cases h; cases hret
    have hheld : held = c := not_not.mp hc
    subst hheld
    exact ⟨rfl, ⟨he, i, hi, hl⟩, hf, hh⟩
  · rintro ⟨rfl, ⟨he, i, hi, hl⟩, hf, hh⟩
    exact ⟨i, _, ⟨rfl, he, hi, hl⟩, p, _, ⟨rfl, hf⟩, _, _, rfl, c, _, ⟨hh, rfl⟩, (), _,
      ⟨not_not.mpr rfl, rfl⟩, rfl⟩

theorem readOnly_lookupChildren (c : Children) : ReadOnly (lookupChildren here c) :=
  (readOnly_lookup _).bind fun _ => (readOnly_selectChildren c).bind fun _ =>
    readOnly_get.bind fun _ => (readOnly_need _ _).bind fun _ => (readOnly_failIf _ _).bind fun _ =>
      readOnly_pure _

theorem World.Found.holds {w : World} {c : Children} {p : Place} (hf : w.Found here c p)
    (hl : (w.childEntry p).lease = some c) : w.Holds p c := by
  cases p with
  | fixed i => exact hl
  | resident a => exact ⟨⟨_, hf.2.1⟩, hl⟩

theorem validateChildren_ok {c : Children} {w w' : World} :
    validateChildren here c w = .ok () w' ↔
      w' = w ∧ validate c.parent w = .ok () w ∧
        ∃ p, w.Found here c p ∧ w.childEntry p = { lease := some c } := by
  simp only [validateChildren, bind_ok_iff, lookupChildren_ok, get_apply, failIf_ok_iff]
  constructor
  · rintro ⟨_, w₁, hv, p, _, ⟨rfl, hlive, hf, hl⟩, _, _, h, hr, rfl⟩
    cases h
    obtain ⟨rfl, -⟩ := validate_ok.1 hv
    exact ⟨rfl, hv, p, hf, by rw [← hl, ← Bool.eq_false_of_not_eq_true hr]⟩
  · rintro ⟨rfl, hv, p, hf, hl⟩
    exact ⟨(), _, hv, p, _, ⟨rfl, validate_live hv, hf, by rw [hl]⟩, _, _, rfl,
      by simp [hl], rfl⟩

theorem readOnly_validateChildren (c : Children) : ReadOnly (validateChildren here c) :=
  (readOnly_validate _).bind fun _ => (readOnly_lookupChildren c).bind fun _ =>
    readOnly_get.bind fun _ => readOnly_failIf _ _

end

/-! ## Reservations -/

/-- The counters after a reservation of `clients` handles and `count` names. -/
def World.advance (w : World) (clients count : Nat) : World :=
  { w with ledger := { w.ledger with
    nextClient := w.ledger.nextClient + clients, nextObject := w.ledger.nextObject + count } }

/-- Names are left for `count` objects. -/
theorem not_objectsExhausted {l : Ledger} {count : Nat} (h : ¬ objectsExhausted l count) :
    objectFirst ≤ l.nextObject ∧ l.nextObject + count ≤ objectEnd := by
  unfold objectsExhausted at h
  omega

theorem reserve_ok {count : Nat} {l : Lease} {w w' : World} (h : reserve count w = .ok l w') :
    0 < count ∧ w.ledger.nextClient ≤ clientMask ∧ ¬ objectsExhausted w.ledger count ∧
      ∃ i, (w.ledger.entries i).lease = none ∧
        l = { epoch := w.ledger.epoch, slot := i, client := clientBase ||| w.ledger.nextClient,
              firstObject := w.ledger.nextObject, objectCount := count } ∧
        w' = (w.setEntry i { lease := some l }).advance 1 count := by
  simp only [reserve, bind_ok_iff, get_apply, failIf_ok_iff, need_ok_iff, modify_apply,
    pure_apply] at h
  obtain ⟨_, _, h, _, _, ⟨-, rfl⟩, _, _, ⟨hc, rfl⟩, _, _, ⟨hx, rfl⟩, i, _, ⟨hi, rfl⟩, _, _, h₁,
    _, _, h₂, h₃⟩ := h
  cases h; cases h₁; cases h₂; cases h₃
  rw [not_or] at hx
  have hfree := List.find?_some hi
  exact ⟨by omega, by omega, hx.2, i, by simpa using hfree, rfl, rfl⟩

theorem reserveChildren_ok {parent : Lease} {count : Nat} {c : Children} {w w' : World}
    (h : reserveChildren parent count w = .ok c w') :
    validate parent w = .ok () w ∧ 0 < count ∧ ¬ objectsExhausted w.ledger count ∧
      ∃ i, (w.ledger.children i).lease = none ∧
        c = { parent, slot := i, firstObject := w.ledger.nextObject, objectCount := count } ∧
        w' = (w.setChild i { lease := some c }).advance 0 count := by
  simp only [reserveChildren, bind_ok_iff, get_apply, failIf_ok_iff, need_ok_iff, modify_apply,
    pure_apply] at h
  obtain ⟨_, w₁, hv, _, _, ⟨hc, rfl⟩, _, _, h, _, _, ⟨hx, rfl⟩, i, _, ⟨hi, rfl⟩, _, _, h₁, _, _,
    h₂, h₃⟩ := h
  cases h; cases h₁; cases h₂; cases h₃
  obtain ⟨rfl, -⟩ := validate_ok.1 hv
  have hfree := List.find?_some hi
  exact ⟨hv, by omega, hx, i, by simpa using hfree, rfl, rfl⟩

theorem reserveResidentChildren_ok {here : Nat} {parent : Lease} {count storage : Nat}
    {c : Children} {w w' : World}
    (h : reserveResidentChildren here parent count storage w = .ok c w') :
    validate parent w = .ok () w ∧ 0 < count ∧ ¬ objectsExhausted w.ledger count ∧
      (w.storage storage).entry.lease = none ∧
      w.ledger.residentChildren[w.ledger.nextObject]? = none ∧
      c = { parent, slot := residentSlot, firstObject := w.ledger.nextObject,
            objectCount := count } ∧
      w' = ((w.setStorage storage ⟨storage, here, { lease := some c }⟩).setResident
            (w.ledger.residentChildren.insert w.ledger.nextObject storage)).advance 0 count := by
  simp only [reserveResidentChildren, bind_ok_iff, get_apply, failIf_ok_iff, modify_apply,
    pure_apply] at h
  obtain ⟨_, w₁, hv, _, _, h, _, _, ⟨hs, rfl⟩, _, _, ⟨hc, rfl⟩, _, _, ⟨hx, rfl⟩, _, _, ⟨hk, rfl⟩,
    _, _, h₁, _, _, h₂, _, _, h₃, h₄⟩ := h
  cases h; cases h₁; cases h₂; cases h₃; cases h₄
  obtain ⟨rfl, -⟩ := validate_ok.1 hv
  simp only [not_or, Option.isSome_iff_ne_none, ne_eq, not_not] at hs hk
  exact ⟨hv, by omega, hx, hs.2.2.1, hk, rfl, rfl⟩

/-! ## Retirement and retention -/

/-- The state after a child range found at `p` left the ledger. -/
def World.dropChild (w : World) (c : Children) : Place → World
  | .fixed i => w.setChild i {}
  | .resident a =>
    (w.setResident (w.ledger.residentChildren.erase c.firstObject)).setStorage a {}

section

variable {here : Nat}

theorem retire_ok {l : Lease} {w w' : World} (h : retire here l w = .ok () w') :
    validate l w = .ok () w ∧ (∀ p c, w.Holds p c → c.parent ≠ l) ∧
      ∃ i, l.slot = i.val ∧ w.ledger.entries i = { lease := some l } ∧ w' = w.setEntry i {} := by
  simp only [retire, bind_ok_iff, lookup_ok, modify_apply] at h
  obtain ⟨_, w₁, hn, i, _, ⟨rfl, -, hi, hl⟩, h⟩ := h
  cases h
  obtain ⟨rfl, hv, hp⟩ := requireNoChildren_ok hn
  obtain ⟨-, -, j, hj, he⟩ := validate_ok.1 hv
  have hij : i = j := Fin.ext (hi.symm.trans hj)
  subst hij
  exact ⟨hv, hp, i, hi, he, rfl⟩

theorem retain_ok {l : Lease} {w w' : World} :
    retain l w = .ok () w' ↔
      l.epoch = w.ledger.epoch ∧ ∃ i, l.slot = i.val ∧ (w.ledger.entries i).lease = some l ∧
        w' = w.setEntry i { lease := some l, retained := true } := by
  simp only [retain, bind_ok_iff, lookup_ok, modify_apply]
  constructor
  · rintro ⟨i, _, ⟨rfl, he, hi, hl⟩, h⟩
    cases h
    exact ⟨he, i, hi, hl, by rw [hl]⟩
  · rintro ⟨he, i, hi, hl, rfl⟩
    exact ⟨i, _, ⟨rfl, he, hi, hl⟩, by rw [hl]⟩

theorem removeChildren_ok {c : Children} {w w' : World}
    (h : removeChildren here c w = .ok () w') :
    w.Live c.parent ∧ ∃ p, w.Found here c p ∧ (w.childEntry p).lease = some c ∧
      w' = w.dropChild c p := by
  simp only [removeChildren, bind_ok_iff, lookupChildren_ok] at h
  obtain ⟨p, _, ⟨rfl, hlive, hf, hl⟩, h⟩ := h
  refine ⟨hlive, p, hf, hl, ?_⟩
  cases p with
  | fixed i => cases h; rfl
  | resident a =>
    simp only [bind_ok_iff, modify_apply] at h
    obtain ⟨_, _, h₁, h₂⟩ := h
    cases h₁; cases h₂
    rfl

theorem retireChildren_ok {c : Children} {w w' : World}
    (h : retireChildren here c w = .ok () w') :
    validateChildren here c w = .ok () w ∧ ∃ p, w.Found here c p ∧
      w.childEntry p = { lease := some c } ∧ w' = w.dropChild c p := by
  simp only [retireChildren, bind_ok_iff] at h
  obtain ⟨_, w₁, hv, hr⟩ := h
  obtain ⟨rfl, -, p, hf, hp⟩ := validateChildren_ok.1 hv
  obtain ⟨-, q, hq, -, rfl⟩ := removeChildren_ok hr
  have hpq : q = p := by
    cases p <;> cases q <;> simp_all [World.Found, Fin.ext_iff]
  subst hpq
  exact ⟨hv, q, hf, hp, rfl⟩

theorem retainChildren_ok {c : Children} {w w' : World}
    (h : retainChildren here c w = .ok () w') :
    w.Live c.parent ∧ ∃ p, w.Found here c p ∧ (w.childEntry p).lease = some c ∧
      retain c.parent (w.setChildEntry p { lease := some c, retained := true }) = .ok () w' := by
  simp only [retainChildren, bind_ok_iff, lookupChildren_ok, modify_apply] at h
  obtain ⟨p, _, ⟨rfl, hlive, hf, hl⟩, _, _, h₁, h₂⟩ := h
  cases h₁
  rw [hl] at h₂
  exact ⟨hlive, p, hf, hl, h₂⟩

theorem retireChildrenAfterReset_ok {c : Children} {proof : Quiescence} {w w' : World}
    (h : retireChildrenAfterReset here c proof w = .ok () w') :
    proof.valid w.ledger.epoch = true ∧ w.Live c.parent ∧ ∃ p, w.Found here c p ∧
      (w.childEntry p).lease = some c ∧ w' = w.dropChild c p := by
  simp only [retireChildrenAfterReset, validateChildrenAfterReset, bind_ok_iff, get_apply,
    failIf_ok_iff, lookupChildren_ok, pure_apply] at h
  obtain ⟨_, _, ⟨_, _, h, _, _, ⟨hv, rfl⟩, _, _, ⟨rfl, -⟩, h₁⟩, hr⟩ := h
  cases h; cases h₁
  exact ⟨by simpa using hv, removeChildren_ok hr⟩

/-! ## A failing call writes nothing -/

theorem atomic_reserve (count : Nat) : Atomic (reserve count) :=
  readOnly_get.bind_atomic fun _ => (readOnly_failIf _ _).bind_atomic fun _ =>
    (readOnly_failIf _ _).bind_atomic fun _ => (readOnly_failIf _ _).bind_atomic fun _ =>
      (readOnly_need _ _).bind_atomic fun _ =>
        ((total_modify _).bind fun _ => (total_modify _).bind fun _ => total_pure _).atomic

theorem atomic_reserveChildren (parent : Lease) (count : Nat) :
    Atomic (reserveChildren parent count) :=
  (readOnly_validate _).bind_atomic fun _ => (readOnly_failIf _ _).bind_atomic fun _ =>
    readOnly_get.bind_atomic fun _ => (readOnly_failIf _ _).bind_atomic fun _ =>
      (readOnly_need _ _).bind_atomic fun _ =>
        ((total_modify _).bind fun _ => (total_modify _).bind fun _ => total_pure _).atomic

theorem atomic_reserveResidentChildren (parent : Lease) (count storage : Nat) :
    Atomic (reserveResidentChildren here parent count storage) :=
  (readOnly_validate _).bind_atomic fun _ => readOnly_get.bind_atomic fun _ =>
    (readOnly_failIf _ _).bind_atomic fun _ => (readOnly_failIf _ _).bind_atomic fun _ =>
      (readOnly_failIf _ _).bind_atomic fun _ => (readOnly_failIf _ _).bind_atomic fun _ =>
        ((total_modify _).bind fun _ => (total_modify _).bind fun _ =>
          (total_modify _).bind fun _ => total_pure _).atomic

theorem atomic_retire (l : Lease) : Atomic (retire here l) :=
  (readOnly_requireNoChildren l).bind_atomic fun _ => (readOnly_lookup l).bind_atomic fun _ =>
    (total_modify _).atomic

theorem atomic_retain (l : Lease) : Atomic (retain l) :=
  (readOnly_lookup l).bind_atomic fun _ => (total_modify _).atomic

theorem atomic_removeChildren (c : Children) : Atomic (removeChildren here c) :=
  (readOnly_lookupChildren c).bind_atomic fun p => by
    cases p with
    | fixed i => exact (total_modify _).atomic
    | resident a => exact ((total_modify _).bind fun _ => total_modify _).atomic

theorem atomic_retireChildren (c : Children) : Atomic (retireChildren here c) :=
  (readOnly_validateChildren c).bind_atomic fun _ => atomic_removeChildren c

theorem atomic_retireChildrenAfterReset (c : Children) (proof : Quiescence) :
    Atomic (retireChildrenAfterReset here c proof) :=
  ReadOnly.bind_atomic (readOnly_get.bind fun _ => (readOnly_failIf _ _).bind fun _ =>
    (readOnly_lookupChildren c).bind fun _ => readOnly_pure _) fun _ => atomic_removeChildren c

end

/-- Writing a child entry leaves the leases alone. -/
@[simp] theorem World.live_setChildEntry {w : World} {p : Place} {e : ChildEntry} {l : Lease} :
    (w.setChildEntry p e).Live l ↔ w.Live l := by
  cases p <;> rfl

theorem retain_of_live {l : Lease} {w : World} (h : w.Live l) : ∃ w', retain l w = .ok () w' := by
  obtain ⟨he, i, hi, hl⟩ := h
  exact ⟨_, retain_ok.2 ⟨he, i, hi, hl, rfl⟩⟩

/-- The parent was already found when its child was, so the second write of `retainChildren`
cannot fail after the first. -/
theorem atomic_retainChildren {here : Nat} (c : Children) : Atomic (retainChildren here c) := by
  intro w e w' h
  simp only [retainChildren, bind_error_iff, lookupChildren_ok, modify_apply] at h
  rcases h with h | ⟨p, w₁, ⟨rfl, hlive, -, -⟩, h⟩
  · exact (readOnly_lookupChildren c).2 _ _ _ h
  · rcases h with h | ⟨_, _, h₁, h₂⟩
    · cases h
    · cases h₁
      obtain ⟨w₂, hok⟩ := retain_of_live (World.live_setChildEntry.2 hlive)
      rw [hok] at h₂
      cases h₂

end Names
end NvidiaGsp
