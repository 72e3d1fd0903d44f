import NvidiaGsp.Rm.NamesSpec

/-!
# Rm.NamesInv

The invariant of the ledger. `Effect` lists, once, everything a step can do; `Inv` ties the two
tables, the treap and the caller-owned storages together, and `Effect.inv` says that every step
keeps it.
-/

namespace NvidiaGsp
namespace Names

open Call

variable {here : Nat}

/-! ## The leases and child ranges after each write -/

theorem World.live_setEntry_new {w : World} {i : Fin maxClients} {e : Entry} {l l' : Lease}
    (hfree : (w.ledger.entries i).lease = none) (he : e.lease = some l) (hs : l.slot = i.val)
    (hep : l.epoch = w.ledger.epoch) : (w.setEntry i e).Live l' ↔ w.Live l' ∨ l' = l := by
  simp only [World.Live, World.setEntry, Function.update_apply]
  constructor
  · rintro ⟨hl, j, hj, h⟩
    split at h
    · rw [he] at h
      cases h
      exact .inr rfl
    · exact .inl ⟨hl, j, hj, h⟩
  · rintro (⟨hl, j, hj, h⟩ | rfl)
    · refine ⟨hl, j, hj, ?_⟩
      rw [if_neg (by rintro rfl; rw [hfree] at h; cases h)]
      exact h
    · exact ⟨hep, i, hs, by rw [if_pos rfl, he]⟩

theorem World.live_setEntry_clear {w : World} {i : Fin maxClients} {l l' : Lease}
    (hl : (w.ledger.entries i).lease = some l) (hs : l.slot = i.val) :
    (w.setEntry i {}).Live l' ↔ w.Live l' ∧ l' ≠ l := by
  simp only [World.Live, World.setEntry, Function.update_apply]
  constructor
  · rintro ⟨he, j, hj, h⟩
    split at h
    · cases h
    · rename_i hne
      refine ⟨⟨he, j, hj, h⟩, ?_⟩
      rintro rfl
      exact hne (Fin.ext (hj.symm.trans hs))
  · rintro ⟨⟨he, j, hj, h⟩, hne⟩
    refine ⟨he, j, hj, ?_⟩
    rw [if_neg (by rintro rfl; rw [hl] at h; cases h; exact hne rfl)]
    exact h

theorem World.live_setEntry_same {w : World} {i : Fin maxClients} {e : Entry} {l' : Lease}
    (he : e.lease = (w.ledger.entries i).lease) : (w.setEntry i e).Live l' ↔ w.Live l' := by
  have hsame : ∀ j, ((w.setEntry i e).ledger.entries j).lease = (w.ledger.entries j).lease := by
    intro j
    simp only [World.setEntry, Function.update_apply]
    split
    · rename_i h
      rw [he, h]
    · rfl
  simp only [World.Live, hsame]
  rfl

theorem World.holds_setEntry {w : World} {i : Fin maxClients} {e : Entry} {p : Place}
    {c : Children} : (w.setEntry i e).Holds p c ↔ w.Holds p c := by
  cases p <;> rfl

theorem World.live_advance {w : World} {a b : Nat} {l : Lease} :
    (w.advance a b).Live l ↔ w.Live l := Iff.rfl

theorem World.holds_advance {w : World} {a b : Nat} {p : Place} {c : Children} :
    (w.advance a b).Holds p c ↔ w.Holds p c := by
  cases p <;> rfl

/-- The invariant of the ledger and its storages. -/
structure Inv (here : Nat) (w : World) : Prop where
  client_le : w.ledger.nextClient ≤ clientMask + 1
  object_ge : objectFirst ≤ w.ledger.nextObject
  object_le : w.ledger.nextObject ≤ objectEnd
  entry : ∀ i l, (w.ledger.entries i).lease = some l → l.slot = i.val ∧ l.epoch = w.ledger.epoch ∧
    ∃ k < w.ledger.nextClient, l.client = clientBase ||| k
  child : ∀ p c, w.Holds p c → w.Found here c p ∧ c.firstObject < w.ledger.nextObject ∧
    w.Live c.parent
  resident : ∀ k a : Nat, w.ledger.residentChildren[k]? = some a →
    ∃ c, (w.storage a).entry.lease = some c ∧ c.firstObject = k

theorem Inv.found {w : World} (hi : Inv here w) {p : Place} {c : Children} (h : w.Holds p c) :
    w.Found here c p := (hi.child p c h).1

theorem World.holds_setChild_new {w : World} {i : Fin maxChildRanges} {c c' : Children} {p : Place}
    (hfree : (w.ledger.children i).lease = none) :
    (w.setChild i { lease := some c }).Holds p c' ↔ w.Holds p c' ∨ (p = .fixed i ∧ c' = c) := by
  cases p with
  | resident a => simp [World.Holds, World.setChild]
  | fixed j =>
    simp only [World.Holds, World.setChild, Function.update_apply, Place.fixed.injEq]
    by_cases hj : j = i
    · subst hj
      simp [hfree, eq_comm]
    · simp [hj]

theorem World.holds_resident_new {w : World} {st k : Nat} {r : ResidentChildren} {c c' : Children}
    {p : Place} (hfree : ∀ k' : Nat, w.ledger.residentChildren[k']? ≠ some st)
    (hk : w.ledger.residentChildren[k]? = none) (hr : r.entry.lease = some c) :
    ((w.setStorage st r).setResident (w.ledger.residentChildren.insert k st)).Holds p c' ↔
      w.Holds p c' ∨ (p = .resident st ∧ c' = c) := by
  cases p with
  | fixed j => simp [World.Holds, World.setStorage, World.setResident]
  | resident a =>
    simp only [World.Holds, World.setStorage, World.setResident, Function.update_apply,
      Std.TreeMap.getElem?_insert, Place.resident.injEq, Nat.compare_eq_eq]
    by_cases ha : a = st
    · subst ha
      simp only [if_true, hr, Option.some.injEq, true_and, hfree, exists_false, false_and, false_or]
      constructor
      · rintro ⟨-, rfl⟩
        rfl
      · rintro rfl
        exact ⟨⟨k, by rw [if_pos rfl]⟩, rfl⟩
    · simp only [ha, if_false, false_and, or_false]
      refine and_congr_left fun _ => ?_
      constructor
      · rintro ⟨k', h⟩
        split at h
        · cases h
          exact absurd rfl ha
        · exact ⟨k', h⟩
      · rintro ⟨k', h⟩
        refine ⟨k', ?_⟩
        rw [if_neg (by rintro rfl; rw [hk] at h; cases h)]
        exact h

theorem World.holds_dropChild {w : World} {p q : Place} {c c' : Children}
    (hf : w.Found here c p) :
    (w.dropChild c p).Holds q c' ↔ w.Holds q c' ∧ q ≠ p := by
  cases p with
  | fixed i =>
    cases q with
    | resident a => simp [World.dropChild, World.Holds, World.setChild]
    | fixed j =>
      simp only [World.dropChild, World.Holds, World.setChild, Function.update_apply, ne_eq,
        Place.fixed.injEq]
      by_cases hj : j = i <;> simp [hj]
  | resident a =>
    cases q with
    | fixed j => simp [World.dropChild, World.Holds, World.setStorage, World.setResident]
    | resident b =>
      simp only [World.dropChild, World.Holds, World.setStorage, World.setResident,
        Function.update_apply, Std.TreeMap.getElem?_erase, ne_eq, Place.resident.injEq,
        Nat.compare_eq_eq]
      by_cases hb : b = a
      · simp [hb]
      · simp only [hb, if_false, not_false_eq_true, and_true]
        refine and_congr_left fun _ => ?_
        constructor
        · rintro ⟨k, h⟩
          split at h
          · cases h
          · exact ⟨k, h⟩
        · rintro ⟨k, h⟩
          refine ⟨k, ?_⟩
          rw [if_neg (by rintro rfl; rw [hf.2.1] at h; cases h; exact hb rfl)]
          exact h

theorem World.holds_setChildEntry_same {w : World} {p q : Place} {c' : Children} {e : ChildEntry}
    (he : e.lease = (w.childEntry p).lease) : (w.setChildEntry p e).Holds q c' ↔ w.Holds q c' := by
  cases p with
  | fixed i =>
    cases q with
    | resident a => rfl
    | fixed j =>
      simp only [World.setChildEntry, World.setChild, World.Holds, Function.update_apply]
      by_cases hj : j = i
      · subst hj
        rw [if_pos rfl, he]
        rfl
      · rw [if_neg hj]
  | resident a =>
    cases q with
    | fixed j => rfl
    | resident b =>
      simp only [World.setChildEntry, World.setStorage, World.Holds, Function.update_apply]
      by_cases hb : b = a
      · subst hb
        rw [if_pos rfl]
        simp only [he]
        rfl
      · rw [if_neg hb]

theorem World.found_setChildEntry {w : World} {p q : Place} {c : Children} {e : ChildEntry} :
    (w.setChildEntry p e).Found here c q ↔ w.Found here c q := by
  cases p <;> cases q <;>
    simp only [World.setChildEntry, World.setChild, World.setStorage, World.Found,
      Function.update_apply]
  split
  · rename_i h
    rw [h]
  · rfl

/-! ## Everything a step can do -/

/-- The outcomes of a step: the eight calls when they succeed, and the one way to fail. -/
inductive Effect (here : Nat) (w : World) : Request → Answer → World → Prop where
  | failed (r : Request) (e : Error) : Effect here w r (.failed e) w
  | reserve {count : Nat} {i : Fin maxClients} {l : Lease} (hc : 0 < count)
      (hm : w.ledger.nextClient ≤ clientMask) (hx : ¬ objectsExhausted w.ledger count)
      (hfree : (w.ledger.entries i).lease = none)
      (hl : l = ⟨w.ledger.epoch, i, clientBase ||| w.ledger.nextClient, w.ledger.nextObject, count⟩) :
      Effect here w (.reserve count) (.lease l)
        ((w.setEntry i { lease := some l }).advance 1 count)
  | reserveChildren {parent : Lease} {count : Nat} {i : Fin maxChildRanges} {c : Children}
      (hv : w.Live parent) (hc : 0 < count) (hx : ¬ objectsExhausted w.ledger count)
      (hfree : (w.ledger.children i).lease = none)
      (hl : c = ⟨parent, i, w.ledger.nextObject, count⟩) :
      Effect here w (.reserveChildren parent count) (.children c)
        ((w.setChild i { lease := some c }).advance 0 count)
  | reserveResidentChildren {parent : Lease} {count st : Nat} {c : Children}
      (hv : w.Live parent) (hc : 0 < count) (hx : ¬ objectsExhausted w.ledger count)
      (hfree : (w.storage st).entry.lease = none)
      (hk : w.ledger.residentChildren[w.ledger.nextObject]? = none)
      (hl : c = ⟨parent, residentSlot, w.ledger.nextObject, count⟩) :
      Effect here w (.reserveResidentChildren parent count st) (.children c)
        (((w.setStorage st ⟨st, here, { lease := some c }⟩).setResident
          (w.ledger.residentChildren.insert w.ledger.nextObject st)).advance 0 count)
  | retire {l : Lease} {i : Fin maxClients} (hn : ∀ p c, w.Holds p c → c.parent ≠ l)
      (hs : l.slot = i.val) (hl : w.ledger.entries i = { lease := some l }) :
      Effect here w (.retire l) .done (w.setEntry i {})
  | retain {l : Lease} {i : Fin maxClients} (hl : (w.ledger.entries i).lease = some l) :
      Effect here w (.retain l) .done (w.setEntry i { lease := some l, retained := true })
  | retireChildren {c : Children} {p : Place} (hf : w.Found here c p)
      (hl : w.childEntry p = { lease := some c }) :
      Effect here w (.retireChildren c) .done (w.dropChild c p)
  | retainChildren {c : Children} {p : Place} {i : Fin maxClients} (hf : w.Found here c p)
      (hl : (w.childEntry p).lease = some c) (hp : (w.ledger.entries i).lease = some c.parent) :
      Effect here w (.retainChildren c) .done
        ((w.setChildEntry p { lease := some c, retained := true }).setEntry i
          { lease := some c.parent, retained := true })
  | retireChildrenAfterReset {c : Children} {p : Place} {proof : Quiescence}
      (hv : proof.valid w.ledger.epoch = true) (hf : w.Found here c p)
      (hl : (w.childEntry p).lease = some c) :
      Effect here w (.retireChildrenAfterReset c proof) .done (w.dropChild c p)

theorem answer_cases {α : Type} {f : α → Answer} {x : Op α} (hx : Atomic x) {w w' : World}
    {a : Answer} (h : answer f x w = (a, w')) :
    (∃ e, a = .failed e ∧ w' = w) ∨ ∃ v, a = f v ∧ x w = .ok v w' := by
  unfold answer at h
  split at h
  · rename_i v w₁ hv
    cases h
    exact .inr ⟨v, rfl, hv⟩
  · rename_i e w₁ he
    cases h
    exact .inl ⟨e, rfl, hx _ _ _ he⟩

theorem step_effect {w w' : World} {r : Request} {a : Answer} (h : step here w r = (a, w')) :
    Effect here w r a w' := by
  cases r with
  | reserve count =>
    obtain ⟨e, rfl, rfl⟩ | ⟨l, rfl, hok⟩ := answer_cases (atomic_reserve count) h
    · exact .failed _ e
    · obtain ⟨hc, hm, hx, i, hfree, hl, rfl⟩ := reserve_ok hok
      exact .reserve hc hm hx hfree hl
  | reserveChildren parent count =>
    obtain ⟨e, rfl, rfl⟩ | ⟨c, rfl, hok⟩ := answer_cases (atomic_reserveChildren parent count) h
    · exact .failed _ e
    · obtain ⟨hv, hc, hx, i, hfree, hl, rfl⟩ := reserveChildren_ok hok
      exact .reserveChildren (validate_live hv) hc hx hfree hl
  | reserveResidentChildren parent count st =>
    obtain ⟨e, rfl, rfl⟩ | ⟨c, rfl, hok⟩ :=
      answer_cases (atomic_reserveResidentChildren parent count st) h
    · exact .failed _ e
    · obtain ⟨hv, hc, hx, hfree, hk, hl, rfl⟩ := reserveResidentChildren_ok hok
      exact .reserveResidentChildren (validate_live hv) hc hx hfree hk hl
  | retire l =>
    obtain ⟨e, rfl, rfl⟩ | ⟨_, rfl, hok⟩ := answer_cases (atomic_retire l) h
    · exact .failed _ e
    · obtain ⟨-, hn, i, hs, hl, rfl⟩ := retire_ok hok
      exact .retire hn hs hl
  | retireChildren c =>
    obtain ⟨e, rfl, rfl⟩ | ⟨_, rfl, hok⟩ := answer_cases (atomic_retireChildren c) h
    · exact .failed _ e
    · obtain ⟨-, p, hf, hl, rfl⟩ := retireChildren_ok hok
      exact .retireChildren hf hl
  | retain l =>
    obtain ⟨e, rfl, rfl⟩ | ⟨_, rfl, hok⟩ := answer_cases (atomic_retain l) h
    · exact .failed _ e
    · obtain ⟨-, i, -, hl, rfl⟩ := retain_ok.1 hok
      exact .retain hl
  | retainChildren c =>
    obtain ⟨e, rfl, rfl⟩ | ⟨_, rfl, hok⟩ := answer_cases (atomic_retainChildren c) h
    · exact .failed _ e
    · obtain ⟨-, p, hf, hl, hr⟩ := retainChildren_ok hok
      obtain ⟨-, i, -, hp, rfl⟩ := retain_ok.1 hr
      exact .retainChildren hf hl (by cases p <;> exact hp)
  | retireChildrenAfterReset c proof =>
    obtain ⟨e, rfl, rfl⟩ | ⟨_, rfl, hok⟩ := answer_cases (atomic_retireChildrenAfterReset c proof) h
    · exact .failed _ e
    · obtain ⟨hv, -, p, hf, hl, rfl⟩ := retireChildrenAfterReset_ok hok
      exact .retireChildrenAfterReset hv hf hl

/-! ## The invariant is kept -/

theorem inv_start {l₀ : Ledger} {epoch : Nat} (h : Ledger.start epoch = .ok l₀)
    (mem : Nat → ResidentChildren) : Inv here ⟨l₀, mem⟩ := by
  unfold Ledger.start at h
  split at h
  · cases h
  · cases h
    refine ⟨by simp, by simp, by simp [objectFirst, objectEnd], by simp, ?_, by simp⟩
    intro p c hp
    cases p <;> simp [World.Holds] at hp

/-- Leases only change in `entries` and the counters only grow: what the invariant says of the
children carries over when every parent is still live. -/
theorem Inv.of_entries {w w' : World} (hi : Inv here w)
    (hobj : w'.ledger.nextObject = w.ledger.nextObject)
    (hclient : w'.ledger.nextClient = w.ledger.nextClient)
    (hlive : ∀ p c, w'.Holds p c → w.Live c.parent → w'.Live c.parent)
    (hentry : ∀ i l, (w'.ledger.entries i).lease = some l → l.slot = i.val ∧
      l.epoch = w'.ledger.epoch ∧ ∃ k < w.ledger.nextClient, l.client = clientBase ||| k)
    (hchild : ∀ p c, w'.Holds p c → w.Holds p c ∧ w'.Found here c p)
    (hres : ∀ k a : Nat, w'.ledger.residentChildren[k]? = some a →
      ∃ c, (w'.storage a).entry.lease = some c ∧ c.firstObject = k) : Inv here w' where
  client_le := by rw [hclient]; exact hi.client_le
  object_ge := by rw [hobj]; exact hi.object_ge
  object_le := by rw [hobj]; exact hi.object_le
  entry := by rw [hclient]; exact hentry
  child := by
    intro p c hp
    obtain ⟨hold, hf⟩ := hchild p c hp
    obtain ⟨-, hlt, hpar⟩ := hi.child p c hold
    exact ⟨hf, by rw [hobj]; exact hlt, hlive p c hp hpar⟩
  resident := hres

theorem Inv.entry_update {w : World} (hi : Inv here w) {i : Fin maxClients} {e : Entry}
    (he : ∀ l, e.lease = some l → (w.ledger.entries i).lease = some l) (j : Fin maxClients)
    (l : Lease) (h : ((w.setEntry i e).ledger.entries j).lease = some l) :
    l.slot = j.val ∧ l.epoch = w.ledger.epoch ∧
      ∃ k < w.ledger.nextClient, l.client = clientBase ||| k := by
  simp only [World.setEntry, Function.update_apply] at h
  split at h
  · rename_i hj
    rw [hj]
    exact hi.entry i l (he l h)
  · exact hi.entry j l h

/-- Dropping a child range keeps the invariant. -/
theorem Inv.dropChild {w : World} (hi : Inv here w) {c : Children} {p : Place}
    (hf : w.Found here c p) : Inv here (w.dropChild c p) := by
  have hentries : (w.dropChild c p).ledger.entries = w.ledger.entries := by cases p <;> rfl
  have hepoch : (w.dropChild c p).ledger.epoch = w.ledger.epoch := by cases p <;> rfl
  refine hi.of_entries (by cases p <;> rfl) (by cases p <;> rfl) ?_ ?_ ?_ ?_
  · intro q c' _ hpar
    simpa only [World.Live, hentries, hepoch] using hpar
  · intro i l h
    rw [hepoch]
    exact hi.entry i l (hentries ▸ h)
  · intro q c' hq
    obtain ⟨hold, hne⟩ := (World.holds_dropChild hf).mp hq
    refine ⟨hold, ?_⟩
    have hfq := hi.found hold
    cases q with
    | fixed j => exact hfq
    | resident b =>
      obtain ⟨hs, hk, hself, hled⟩ := hfq
      cases p with
      | fixed i => exact ⟨hs, hk, hself, hled⟩
      | resident a =>
        have hba : b ≠ a := fun h => hne (by rw [h])
        have hkey : c.firstObject ≠ c'.firstObject := by
          intro h
          rw [← h, hf.2.1] at hk
          exact hba (Option.some.inj hk).symm
        simp only [World.Found, World.dropChild, World.setStorage, World.setResident,
          Std.TreeMap.getElem?_erase, Nat.compare_eq_eq, if_neg hkey, Function.update_apply,
          if_neg hba]
        exact ⟨hs, hk, hself, hled⟩
  · intro k b h
    cases p with
    | fixed i => exact hi.resident k b h
    | resident a =>
      simp only [World.dropChild, World.setStorage, World.setResident, Std.TreeMap.getElem?_erase,
        Nat.compare_eq_eq, Function.update_apply] at h ⊢
      split at h
      · cases h
      · rename_i hkey
        obtain ⟨c', hc', hk⟩ := hi.resident k b h
        -- Were `b` the dropped storage, its range would be the dropped one, found under its own key.
        have hba : b ≠ a := by
          rintro rfl
          obtain ⟨c₁, hc₁, hk₁⟩ := hi.resident _ _ hf.2.1
          rw [hc'] at hc₁
          cases hc₁
          exact hkey (hk₁.symm.trans hk)
        rw [if_neg hba]
        exact ⟨c', hc', hk⟩

/-- Writing a client entry that keeps its lease, or clearing it when no child needs it. -/
theorem Inv.setEntry {w : World} (hi : Inv here w) {i : Fin maxClients} {e : Entry}
    (he : ∀ l, e.lease = some l → (w.ledger.entries i).lease = some l)
    (hlive : ∀ p c, w.Holds p c → w.Live c.parent → (w.setEntry i e).Live c.parent) :
    Inv here (w.setEntry i e) := by
  refine hi.of_entries rfl rfl ?_ (hi.entry_update he) ?_ hi.resident
  · intro p c hp
    exact hlive p c (World.holds_setEntry.1 hp)
  · intro p c hp
    have hold := World.holds_setEntry.1 hp
    exact ⟨hold, by cases p <;> exact hi.found hold⟩

theorem Inv.setChildEntry {w : World} (hi : Inv here w) {p : Place} {e : ChildEntry}
    (he : e.lease = (w.childEntry p).lease) : Inv here (w.setChildEntry p e) := by
  have hentries : (w.setChildEntry p e).ledger.entries = w.ledger.entries := by cases p <;> rfl
  have hepoch : (w.setChildEntry p e).ledger.epoch = w.ledger.epoch := by cases p <;> rfl
  refine hi.of_entries (by cases p <;> rfl) (by cases p <;> rfl) ?_ ?_ ?_ ?_
  · intro q c _ hpar
    exact World.live_setChildEntry.2 hpar
  · intro i l h
    rw [hepoch]
    exact hi.entry i l (hentries ▸ h)
  · intro q c hq
    have hold := (World.holds_setChildEntry_same he).mp hq
    exact ⟨hold, World.found_setChildEntry.2 (hi.found hold)⟩
  · intro k a h
    cases p with
    | fixed i => exact hi.resident k a h
    | resident b =>
      obtain ⟨c, hc, hk⟩ := hi.resident k a h
      refine ⟨c, ?_, hk⟩
      simp only [World.setChildEntry, World.setStorage, Function.update_apply]
      split
      · rename_i hab
        subst hab
        exact he.trans hc
      · exact hc

theorem Inv.reserve {w : World} (hi : Inv here w) {count : Nat} {i : Fin maxClients} {l : Lease}
    (hm : w.ledger.nextClient ≤ clientMask) (hx : ¬ objectsExhausted w.ledger count)
    (hfree : (w.ledger.entries i).lease = none)
    (hl : l = ⟨w.ledger.epoch, i, clientBase ||| w.ledger.nextClient, w.ledger.nextObject, count⟩) :
    Inv here ((w.setEntry i { lease := some l }).advance 1 count) := by
  obtain ⟨hge, hle⟩ := not_objectsExhausted hx
  have hs : l.slot = i.val := by rw [hl]
  have hep : l.epoch = w.ledger.epoch := by rw [hl]
  refine ⟨Nat.succ_le_succ hm, le_trans hge (Nat.le_add_right _ _), hle, ?_, ?_, hi.resident⟩
  · intro j l' h
    simp only [World.advance, World.setEntry, Function.update_apply] at h ⊢
    split at h
    · rename_i hj
      cases h
      exact ⟨hj ▸ hs, hep, w.ledger.nextClient, Nat.lt_succ_self _, by rw [hl]⟩
    · obtain ⟨h₁, h₂, k, hk, h₃⟩ := hi.entry j l' h
      exact ⟨h₁, h₂, k, Nat.lt_succ_of_lt hk, h₃⟩
  · intro p c hp
    have hold := World.holds_setEntry.1 (World.holds_advance.1 hp)
    obtain ⟨hf, hlt, hpar⟩ := hi.child p c hold
    exact ⟨by cases p <;> exact hf, Nat.lt_add_right count hlt,
      World.live_advance.2 ((World.live_setEntry_new hfree rfl hs hep).mpr (.inl hpar))⟩

theorem Inv.reserveChildren {w : World} (hi : Inv here w) {parent : Lease} {count : Nat}
    {i : Fin maxChildRanges} {c : Children} (hv : w.Live parent) (hc : 0 < count)
    (hx : ¬ objectsExhausted w.ledger count) (hfree : (w.ledger.children i).lease = none)
    (hl : c = ⟨parent, i, w.ledger.nextObject, count⟩) :
    Inv here ((w.setChild i { lease := some c }).advance 0 count) := by
  obtain ⟨hge, hle⟩ := not_objectsExhausted hx
  refine ⟨hi.client_le, le_trans hge (Nat.le_add_right _ _), hle, hi.entry, ?_, hi.resident⟩
  intro p c' hp
  rcases (World.holds_setChild_new hfree).mp (World.holds_advance.1 hp) with hold | ⟨rfl, rfl⟩
  · obtain ⟨hf, hlt, hpar⟩ := hi.child p c' hold
    exact ⟨by cases p <;> exact hf, Nat.lt_add_right count hlt, hpar⟩
  · have hslot : i.val ≠ residentSlot := by
      have := i.isLt
      simp only [maxChildRanges, residentSlot] at this ⊢
      omega
    subst hl
    exact ⟨⟨hslot, rfl⟩, Nat.lt_add_of_pos_right hc, hv⟩

/-- A storage that may be reserved is not in the treap. -/
theorem Inv.storage_free {w : World} (hi : Inv here w) {st : Nat}
    (hfree : (w.storage st).entry.lease = none) (k : Nat) :
    w.ledger.residentChildren[k]? ≠ some st := by
  intro h
  obtain ⟨c, hc, -⟩ := hi.resident k st h
  rw [hfree] at hc
  cases hc

theorem Inv.reserveResidentChildren {w : World} (hi : Inv here w) {parent : Lease} {count st : Nat}
    {c : Children} (hv : w.Live parent) (hc : 0 < count) (hx : ¬ objectsExhausted w.ledger count)
    (hfree : (w.storage st).entry.lease = none)
    (hk : w.ledger.residentChildren[w.ledger.nextObject]? = none)
    (hl : c = ⟨parent, residentSlot, w.ledger.nextObject, count⟩) :
    Inv here (((w.setStorage st ⟨st, here, { lease := some c }⟩).setResident
      (w.ledger.residentChildren.insert w.ledger.nextObject st)).advance 0 count) := by
  obtain ⟨hge, hle⟩ := not_objectsExhausted hx
  have hout := hi.storage_free hfree
  refine ⟨hi.client_le, le_trans hge (Nat.le_add_right _ _), hle, hi.entry, ?_, ?_⟩
  · intro p c' hp
    rcases (World.holds_resident_new hout hk rfl).mp (World.holds_advance.1 hp) with
      hold | ⟨rfl, rfl⟩
    · obtain ⟨hf, hlt, hpar⟩ := hi.child p c' hold
      refine ⟨?_, Nat.lt_add_right count hlt, hpar⟩
      cases p with
      | fixed j => exact hf
      | resident a =>
        have ha : a ≠ st := by
          rintro rfl
          exact hout _ hf.2.1
        simp only [World.Found, World.advance, World.setResident, World.setStorage,
          Std.TreeMap.getElem?_insert, Nat.compare_eq_eq, if_neg (ne_of_gt hlt),
          Function.update_apply, if_neg ha]
        exact hf
    · subst hl
      refine ⟨?_, Nat.lt_add_of_pos_right hc, hv⟩
      simp [World.Found, World.advance, World.setResident, World.setStorage]
  · intro k a h
    simp only [World.advance, World.setResident, World.setStorage, Std.TreeMap.getElem?_insert,
      Nat.compare_eq_eq, Function.update_apply] at h ⊢
    split at h
    · rename_i hkey
      cases h
      rw [if_pos rfl]
      exact ⟨c, rfl, by rw [hl, ← hkey]⟩
    · rw [if_neg (by rintro rfl; exact hout k h)]
      exact hi.resident k a h

theorem Effect.inv {w w' : World} {r : Request} {a : Answer} (he : Effect here w r a w')
    (hi : Inv here w) : Inv here w' := by
  cases he with
  | failed => exact hi
  | reserve _ hm hx hfree hl => exact hi.reserve hm hx hfree hl
  | reserveChildren hv hc hx hfree hl => exact hi.reserveChildren hv hc hx hfree hl
  | reserveResidentChildren hv hc hx hfree hk hl =>
    exact hi.reserveResidentChildren hv hc hx hfree hk hl
  | retire hn hs hl =>
    refine hi.setEntry (by simp) fun p c hp hpar => ?_
    exact (World.live_setEntry_clear (by rw [hl]) hs).mpr ⟨hpar, hn p c hp⟩
  | retain hl =>
    exact hi.setEntry (fun l h => h ▸ hl) fun p c _ hpar =>
      (World.live_setEntry_same hl.symm).mpr hpar
  | retireChildren hf hl => exact hi.dropChild hf
  | @retainChildren c p i hf hl hp =>
    have hi' := hi.setChildEntry (e := ⟨some c, true⟩) (p := p) hl.symm
    have hp' : ((w.setChildEntry p ⟨some c, true⟩).ledger.entries i).lease = some c.parent := by
      cases p <;> exact hp
    exact hi'.setEntry (fun l h => h ▸ hp') fun q c' _ hpar =>
      (World.live_setEntry_same hp'.symm).mpr hpar
  | retireChildrenAfterReset _ hf hl => exact hi.dropChild hf

end Names
end NvidiaGsp
