import NvidiaGsp.Lib.Runs
import NvidiaGsp.Rm.NamesInv

/-!
# Rm.NamesRuns

What holds of every run of the ledger. `Ledgered` adds to the invariant what the history has issued
and retired: clients and ranges handed out so far lie below the counters, and a retired lease is
named below them but is no longer in its slot. `ledger_run` is the result: names are never issued
twice, a retired name never validates again, a live child has a live parent, a retained entry
stays, and a failed call changes nothing.
-/

namespace NvidiaGsp
namespace Names

open Call

variable {here : Nat}

/-- One call of the ledger in a run. -/
abbrev Step := Event World Request Answer

/-- A range of object names. -/
structure NameRange where
  first : Nat
  count : Nat

/-- The names `[first, first + count)`. -/
def NameRange.names (r : NameRange) : Set Nat := Set.Ico r.first (r.first + r.count)

/-! ## What a history says -/

/-- The client handle a call returned. -/
def issuedClient (e : Step) : Option Nat :=
  match e.out with
  | .lease l => some l.client
  | _ => none

/-- The object range a call returned, of a lease or of children. -/
def issuedRange (e : Step) : Option NameRange :=
  match e.out with
  | .lease l => some ⟨l.firstObject, l.objectCount⟩
  | .children c => some ⟨c.firstObject, c.objectCount⟩
  | _ => none

/-- The lease a call retired. -/
def retiredLease (e : Step) : Option Lease :=
  match e.op, e.out with
  | .retire l, .done => some l
  | _, _ => none

/-- The child range a call retired, with or without a reset proof. -/
def retiredChild (e : Step) : Option Children :=
  match e.op, e.out with
  | .retireChildren c, .done => some c
  | .retireChildrenAfterReset c _, .done => some c
  | _, _ => none

/-- A client handle below the counter. -/
def World.Issued (w : World) (client : Nat) : Prop :=
  ∃ k < w.ledger.nextClient, client = clientBase ||| k

/-- The invariant of a run: the names issued so far lie below the counters, and what was retired
is issued but no longer held. -/
structure Ledgered (here : Nat) (h : List Step) (w : World) : Prop where
  inv : Inv here w
  clients : (h.filterMap issuedClient).Nodup
  client_issued : ∀ c ∈ h.filterMap issuedClient, w.Issued c
  ranges : (h.filterMap issuedRange).Pairwise fun r s => r.first + r.count ≤ s.first
  range_in : ∀ r ∈ h.filterMap issuedRange,
    objectFirst ≤ r.first ∧ r.first + r.count ≤ w.ledger.nextObject
  retired : ∀ l ∈ h.filterMap retiredLease, w.Issued l.client ∧ ¬ w.Live l
  retired_child : ∀ c ∈ h.filterMap retiredChild,
    c.firstObject < w.ledger.nextObject ∧ ∀ p, ¬ w.Holds p c

/-- The client base has no bit below the mask, so the handles are distinct. -/
theorem client_eq_add {k : Nat} (hk : k ≤ clientMask) : clientBase ||| k = clientBase + k := by
  have hlt : k < 2 ^ 20 := by simp only [clientMask] at hk; omega
  exact (Nat.two_pow_add_eq_or_of_lt hlt 0xc1d).symm

theorem client_injective {w : World} {k : Nat} (hk : k < w.ledger.nextClient)
    (hm : w.ledger.nextClient ≤ clientMask) :
    clientBase ||| w.ledger.nextClient ≠ clientBase ||| k := by
  rw [client_eq_add hm, client_eq_add (by omega)]
  omega

/-! ## One step -/

/-- The counters never go back. -/
theorem Effect.mono {w w' : World} {r : Request} {a : Answer} (he : Effect here w r a w') :
    w.ledger.nextClient ≤ w'.ledger.nextClient ∧ w.ledger.nextObject ≤ w'.ledger.nextObject := by
  cases he with
  | failed => exact ⟨le_rfl, le_rfl⟩
  | reserve => exact ⟨Nat.le_add_right _ _, Nat.le_add_right _ _⟩
  | reserveChildren => exact ⟨Nat.le_add_right _ _, Nat.le_add_right _ _⟩
  | reserveResidentChildren => exact ⟨Nat.le_add_right _ _, Nat.le_add_right _ _⟩
  | retire => exact ⟨le_rfl, le_rfl⟩
  | retain => exact ⟨le_rfl, le_rfl⟩
  | @retireChildren c p => cases p <;> exact ⟨le_rfl, le_rfl⟩
  | @retainChildren c p => cases p <;> exact ⟨le_rfl, le_rfl⟩
  | @retireChildrenAfterReset c p => cases p <;> exact ⟨le_rfl, le_rfl⟩

theorem World.Issued.mono {w w' : World} (h : w.ledger.nextClient ≤ w'.ledger.nextClient)
    {c : Nat} (hc : w.Issued c) : w'.Issued c := by
  obtain ⟨k, hk, rfl⟩ := hc
  exact ⟨k, lt_of_lt_of_le hk h, rfl⟩

theorem Inv.live_issued {w : World} (hi : Inv here w) {l : Lease} (h : w.Live l) :
    w.Issued l.client := by
  obtain ⟨-, i, -, hl⟩ := h
  exact (hi.entry i l hl).2.2

/-- A lease that is live after a step was live before it or was issued by it. -/
theorem Effect.live {w w' : World} {r : Request} {a : Answer} (he : Effect here w r a w')
    {l : Lease} (hl : w'.Live l) :
    w.Live l ∨ (a = .lease l ∧ l.client = clientBase ||| w.ledger.nextClient ∧
      w.ledger.nextClient ≤ clientMask) := by
  cases he with
  | failed => exact .inl hl
  | reserve _ hm _ hfree heq =>
    rcases (World.live_setEntry_new hfree rfl (by rw [heq]) (by rw [heq])).mp hl with h | rfl
    · exact .inl h
    · exact .inr ⟨rfl, by rw [heq], hm⟩
  | reserveChildren => exact .inl hl
  | reserveResidentChildren => exact .inl hl
  | retire _ hs heq => exact .inl ((World.live_setEntry_clear (by rw [heq]) hs).mp hl).1
  | retain heq => exact .inl ((World.live_setEntry_same heq.symm).mp hl)
  | @retireChildren c p => cases p <;> exact .inl hl
  | @retainChildren c p i _ _ hp =>
    have hp' : ((w.setChildEntry p ⟨some c, true⟩).ledger.entries i).lease = some c.parent := by
      cases p <;> exact hp
    exact .inl (World.live_setChildEntry.1 ((World.live_setEntry_same hp'.symm).mp hl))
  | @retireChildrenAfterReset c p => cases p <;> exact .inl hl

/-- A child range held after a step was held before it, in the same place, or was issued by it. -/
theorem Effect.holds {w w' : World} {r : Request} {a : Answer} (he : Effect here w r a w')
    (hi : Inv here w) {p : Place} {c : Children} (hc : w'.Holds p c) :
    w.Holds p c ∨ (a = .children c ∧ c.firstObject = w.ledger.nextObject) := by
  cases he with
  | failed => exact .inl hc
  | reserve => exact .inl (World.holds_setEntry.1 (World.holds_advance.1 hc))
  | reserveChildren _ _ _ hfree heq =>
    rcases (World.holds_setChild_new hfree).mp (World.holds_advance.1 hc) with h | ⟨-, rfl⟩
    · exact .inl h
    · exact .inr ⟨rfl, by rw [heq]⟩
  | reserveResidentChildren _ _ _ hfree hk heq =>
    rcases (World.holds_resident_new (hi.storage_free hfree) hk rfl).mp
      (World.holds_advance.1 hc) with h | ⟨-, rfl⟩
    · exact .inl h
    · exact .inr ⟨rfl, by rw [heq]⟩
  | retire => exact .inl (World.holds_setEntry.1 hc)
  | retain => exact .inl (World.holds_setEntry.1 hc)
  | retireChildren hf => exact .inl ((World.holds_dropChild hf).mp hc).1
  | retainChildren _ hl =>
    exact .inl ((World.holds_setChildEntry_same hl.symm).mp (World.holds_setEntry.1 hc))
  | retireChildrenAfterReset _ hf => exact .inl ((World.holds_dropChild hf).mp hc).1

/-- A retired lease was live, and is not any more. -/
theorem Effect.retired {w w' : World} {r : Request} {a : Answer} (he : Effect here w r a w')
    (hi : Inv here w) {l : Lease} (hl : retiredLease ⟨w, r, a, w'⟩ = some l) :
    w.Live l ∧ ¬ w'.Live l := by
  cases he <;> simp only [retiredLease, reduceCtorEq, Option.some.injEq] at hl
  case retire i _ hs heq =>
    subst hl
    refine ⟨⟨(hi.entry i _ (by rw [heq])).2.1, i, hs, by rw [heq]⟩, fun h => ?_⟩
    exact ((World.live_setEntry_clear (by rw [heq]) hs).mp h).2 rfl

/-- A retired child range was held, and is not held anywhere any more. -/
theorem Effect.retired_child {w w' : World} {r : Request} {a : Answer} (he : Effect here w r a w')
    (hi : Inv here w) {c : Children} (hc : retiredChild ⟨w, r, a, w'⟩ = some c) :
    c.firstObject < w.ledger.nextObject ∧ ∀ p, ¬ w'.Holds p c := by
  have drop : ∀ p, w.Found here c p → (w.childEntry p).lease = some c →
      c.firstObject < w.ledger.nextObject ∧ ∀ q, ¬ (w.dropChild c p).Holds q c := by
    intro p hf hl
    refine ⟨(hi.child p c (hf.holds hl)).2.1, fun q hq => ?_⟩
    obtain ⟨hold, hne⟩ := (World.holds_dropChild hf).mp hq
    have hfq := hi.found hold
    -- Both places are determined by the slot and the first name of `c`.
    cases p <;> cases q <;> simp_all [World.Found, Fin.ext_iff]
  cases he <;> simp only [retiredChild, reduceCtorEq, Option.some.injEq] at hc
  case retireChildren p hf hl =>
    subst hc
    exact drop p hf (by rw [hl])
  case retireChildrenAfterReset p _ _ hf hl =>
    subst hc
    exact drop p hf hl

/-- A returned client handle is the counter's, not issued before. -/
theorem Effect.issuedClient {w w' : World} {r : Request} {a : Answer} (he : Effect here w r a w')
    {c : Nat} (hc : Names.issuedClient ⟨w, r, a, w'⟩ = some c) : ¬ w.Issued c ∧ w'.Issued c := by
  cases he <;> simp only [Names.issuedClient, reduceCtorEq, Option.some.injEq] at hc
  case reserve hm _ _ heq =>
    rw [heq] at hc
    subst hc
    refine ⟨?_, w.ledger.nextClient, Nat.lt_succ_self _, rfl⟩
    rintro ⟨k, hk, h⟩
    exact client_injective hk hm h

/-- A returned range starts at the counter and ends at the next one. -/
theorem Effect.issuedRange {w w' : World} {r : Request} {a : Answer} (he : Effect here w r a w')
    {n : NameRange} (hn : Names.issuedRange ⟨w, r, a, w'⟩ = some n) :
    n.first = w.ledger.nextObject ∧ n.first + n.count ≤ w'.ledger.nextObject := by
  cases he <;> simp only [Names.issuedRange, reduceCtorEq, Option.some.injEq] at hn
  case reserve heq =>
    rw [heq] at hn
    subst hn
    exact ⟨rfl, le_rfl⟩
  case reserveChildren heq =>
    rw [heq] at hn
    subst hn
    exact ⟨rfl, le_rfl⟩
  case reserveResidentChildren heq =>
    rw [heq] at hn
    subst hn
    exact ⟨rfl, le_rfl⟩

/-! ## Whole runs -/

theorem ledgered_start {l₀ : Ledger} {epoch : Nat} (h : Ledger.start epoch = .ok l₀)
    (mem : Nat → ResidentChildren) : Ledgered here [] ⟨l₀, mem⟩ where
  inv := inv_start h mem
  clients := by simp
  client_issued := by simp
  ranges := by simp
  range_in := by simp
  retired := by simp
  retired_child := by simp

/-- Membership in what a history extended by one event says. -/
theorem mem_filterMap_snoc {α : Type} {f : Step → Option α} {h : List Step} {e : Step} {x : α} :
    x ∈ (h ++ [e]).filterMap f ↔ x ∈ h.filterMap f ∨ f e = some x := by
  simp [List.filterMap_append, List.filterMap_cons]
  cases f e <;> simp [eq_comm]

theorem Ledgered.step {h : List Step} {w w' : World} {r : Request} {a : Answer}
    (hl : Ledgered here h w) (hs : step here w r = (a, w')) :
    Ledgered here (h ++ [⟨w, r, a, w'⟩]) w' := by
  have he := step_effect hs
  have hi := hl.inv
  obtain ⟨hcl, hob⟩ := he.mono
  refine ⟨he.inv hi, ?_, ?_, ?_, ?_, ?_, ?_⟩
  · rw [List.filterMap_append]
    refine List.Nodup.append hl.clients ?_ ?_
    · simp only [List.filterMap_cons, List.filterMap_nil]
      split <;> simp
    · intro c hc hc'
      have hnew : Names.issuedClient ⟨w, r, a, w'⟩ = some c := by
        simpa [List.filterMap_cons] using mem_filterMap_snoc (h := []).mp (by simpa using hc')
      exact (he.issuedClient hnew).1 (hl.client_issued c hc)
  · intro c hc
    rcases mem_filterMap_snoc.1 hc with hc | hc
    · exact (hl.client_issued c hc).mono hcl
    · exact (he.issuedClient hc).2
  · rw [List.filterMap_append, List.pairwise_append]
    refine ⟨hl.ranges, ?_, ?_⟩
    · simp only [List.filterMap_cons, List.filterMap_nil]
      split <;> simp
    · intro x hx y hy
      have hnew : Names.issuedRange ⟨w, r, a, w'⟩ = some y := by
        simpa [List.filterMap_cons] using mem_filterMap_snoc (h := []).mp (by simpa using hy)
      rw [(he.issuedRange hnew).1]
      exact (hl.range_in x hx).2
  · intro x hx
    rcases mem_filterMap_snoc.1 hx with hx | hx
    · exact ⟨(hl.range_in x hx).1, le_trans (hl.range_in x hx).2 hob⟩
    · exact ⟨by rw [(he.issuedRange hx).1]; exact hi.object_ge, (he.issuedRange hx).2⟩
  · intro l hx
    rcases mem_filterMap_snoc.1 hx with hx | hx
    · obtain ⟨hiss, hdead⟩ := hl.retired l hx
      refine ⟨hiss.mono hcl, fun hlive => ?_⟩
      -- A lease that came back to life would carry a fresh client handle.
      rcases he.live hlive with hlive | ⟨-, hc, hm⟩
      · exact hdead hlive
      · obtain ⟨k, hk, hkc⟩ := hiss
        exact client_injective hk hm (hc.symm.trans hkc)
    · obtain ⟨hlive, hdead⟩ := he.retired hi hx
      exact ⟨(hi.live_issued hlive).mono hcl, hdead⟩
  · intro c hx
    rcases mem_filterMap_snoc.1 hx with hx | hx
    · obtain ⟨hlt, hdead⟩ := hl.retired_child c hx
      refine ⟨lt_of_lt_of_le hlt hob, fun p hp => ?_⟩
      rcases he.holds hi hp with hp | ⟨-, hnew⟩
      · exact hdead p hp
      · exact absurd hnew (ne_of_lt hlt)
    · obtain ⟨hlt, hdead⟩ := he.retired_child hi hx
      exact ⟨lt_of_lt_of_le hlt hob, hdead⟩

theorem ledgered_run {l₀ : Ledger} {epoch : Nat} {mem : Nat → ResidentChildren} {h : List Step}
    {w : World} (h₀ : Ledger.start epoch = .ok l₀) (hr : Run (step here) ⟨l₀, mem⟩ h w) :
    Ledgered here h w :=
  hr.invariant (ledgered_start h₀ mem) fun _ _ _ _ _ hl hs => hl.step hs

/-- What every single call of a run respects. -/
structure Guarded (e : Step) : Prop where
  /-- A parent with a live child of either kind is not retired. -/
  blocked : ∀ l p c, e.op = .retire l → e.pre.Holds p c → c.parent = l → ∃ err, e.out = .failed err
  /-- A retained lease stays in its slot. -/
  kept : ∀ i l, e.pre.ledger.entries i = ⟨some l, true⟩ → e.post.ledger.entries i = ⟨some l, true⟩
  /-- A retained child range stays where it is, unless a valid reset proof retired it. -/
  kept_child : ∀ p c, e.pre.Holds p c → (e.pre.childEntry p).retained = true →
    (e.post.Holds p c ∧ (e.post.childEntry p).retained = true) ∨
      ∃ proof, e.op = .retireChildrenAfterReset c proof ∧
        proof.valid e.pre.ledger.epoch = true ∧ e.out = .done
  /-- An error leaves the entries, the counters and the storages as they were. -/
  unchanged : ∀ err, e.out = .failed err → e.post = e.pre

theorem Effect.unchanged {w w' : World} {r : Request} {a : Answer} (he : Effect here w r a w')
    {err : Error} (ha : a = .failed err) : w' = w := by
  subst ha
  cases he
  rfl

theorem Effect.kept {w w' : World} {r : Request} {a : Answer} (he : Effect here w r a w')
    {i : Fin maxClients} {l : Lease} (h : w.ledger.entries i = ⟨some l, true⟩) :
    w'.ledger.entries i = ⟨some l, true⟩ := by
  cases he with
  | failed => exact h
  | @reserve _ j _ _ _ _ hfree =>
    have hne : i ≠ j := by
      rintro rfl
      rw [h] at hfree
      cases hfree
    simpa [World.advance, World.setEntry, Function.update_apply, hne] using h
  | reserveChildren => exact h
  | reserveResidentChildren => exact h
  | @retire _ j _ _ heq =>
    have hne : i ≠ j := by
      rintro rfl
      rw [h] at heq
      cases heq
    simpa [World.setEntry, Function.update_apply, hne] using h
  | @retain _ j heq =>
    by_cases hij : i = j
    · subst hij
      rw [h] at heq
      cases heq
      simp [World.setEntry]
    · simpa [World.setEntry, Function.update_apply, hij] using h
  | @retireChildren c p => cases p <;> exact h
  | @retainChildren c p j _ _ hp =>
    have h' : (w.setChildEntry p ⟨some c, true⟩).ledger.entries i = ⟨some l, true⟩ := by
      cases p <;> exact h
    by_cases hij : i = j
    · subst hij
      rw [h] at hp
      cases hp
      simp [World.setEntry]
    · simpa [World.setEntry, Function.update_apply, hij] using h'
  | @retireChildrenAfterReset c p => cases p <;> exact h

/-- Writing the entry at one place leaves the others, and marks that one. -/
theorem World.retained_setChildEntry {w : World} {p q : Place} {e : ChildEntry}
    (he : e.retained = true) (hq : (w.childEntry q).retained = true) :
    ((w.setChildEntry p e).childEntry q).retained = true := by
  cases p <;> cases q <;>
    simp only [World.setChildEntry, World.setChild, World.setStorage, World.childEntry,
      Function.update_apply] at hq ⊢
  case fixed.fixed =>
    split
    · exact he
    · exact hq
  case resident.resident =>
    split
    · exact he
    · exact hq
  all_goals exact hq

theorem World.childEntry_dropChild {w : World} {p q : Place} {c : Children} (hne : q ≠ p) :
    (w.dropChild c p).childEntry q = w.childEntry q := by
  cases p <;> cases q <;>
    simp_all [World.dropChild, World.setChild, World.setStorage, World.setResident,
      World.childEntry]

theorem Effect.kept_child {w w' : World} {r : Request} {a : Answer} (he : Effect here w r a w')
    (hi : Inv here w) {p : Place} {c : Children} (hp : w.Holds p c)
    (hr : (w.childEntry p).retained = true) :
    (w'.Holds p c ∧ (w'.childEntry p).retained = true) ∨
      ∃ proof, r = .retireChildrenAfterReset c proof ∧
        proof.valid w.ledger.epoch = true ∧ a = .done := by
  cases he with
  | failed => exact .inl ⟨hp, hr⟩
  | reserve => exact .inl ⟨World.holds_advance.2 (World.holds_setEntry.2 hp), by cases p <;> exact hr⟩
  | @reserveChildren _ _ i _ _ _ _ hfree =>
    refine .inl ⟨World.holds_advance.2 ((World.holds_setChild_new hfree).mpr (.inl hp)), ?_⟩
    cases p with
    | resident a => exact hr
    | fixed j =>
      have hne : j ≠ i := by
        rintro rfl
        rw [show (w.ledger.children j).lease = some c from hp] at hfree
        cases hfree
      simpa [World.advance, World.setChild, World.childEntry, Function.update_apply, hne] using hr
  | @reserveResidentChildren _ _ st _ _ _ _ hfree hk =>
    have hout := hi.storage_free hfree
    refine .inl ⟨World.holds_advance.2 ((World.holds_resident_new hout hk rfl).mpr (.inl hp)), ?_⟩
    cases p with
    | fixed j => exact hr
    | resident b =>
      have hne : b ≠ st := by
        rintro rfl
        obtain ⟨⟨k, hk⟩, -⟩ := hp
        exact hout k hk
      simpa [World.advance, World.setResident, World.setStorage, World.childEntry,
        Function.update_apply, hne] using hr
  | retire => exact .inl ⟨World.holds_setEntry.2 hp, by cases p <;> exact hr⟩
  | retain => exact .inl ⟨World.holds_setEntry.2 hp, by cases p <;> exact hr⟩
  | @retireChildren c' q hf hl =>
    have hne : p ≠ q := by
      rintro rfl
      rw [hl] at hr
      cases hr
    exact .inl ⟨(World.holds_dropChild hf).mpr ⟨hp, hne⟩,
      by rw [World.childEntry_dropChild hne]; exact hr⟩
  | @retainChildren c' q i _ hl _ =>
    refine .inl ⟨World.holds_setEntry.2 ((World.holds_setChildEntry_same hl.symm).mpr hp), ?_⟩
    have := World.retained_setChildEntry (p := q) (e := ⟨some c', true⟩) rfl hr
    cases p <;> exact this
  | @retireChildrenAfterReset c' q proof hv hf hl =>
    by_cases hpq : p = q
    · subst hpq
      rw [hp.lease] at hl
      cases hl
      exact .inr ⟨proof, rfl, hv, rfl⟩
    · exact .inl ⟨(World.holds_dropChild hf).mpr ⟨hp, hpq⟩,
        by rw [World.childEntry_dropChild hpq]; exact hr⟩

theorem Effect.guarded {w w' : World} {r : Request} {a : Answer} (he : Effect here w r a w')
    (hi : Inv here w) : Guarded ⟨w, r, a, w'⟩ where
  blocked := by
    rintro l p c rfl hp hpar
    cases he with
    | failed => exact ⟨_, rfl⟩
    | retire hn => exact absurd hpar (hn p c hp)
  kept := fun i l h => he.kept h
  kept_child := fun p c hp hr => he.kept_child hi hp hr
  unchanged := fun err h => he.unchanged h

theorem NameRange.disjoint_of_le {r s : NameRange} (h : r.first + r.count ≤ s.first) :
    Disjoint r.names s.names := by
  rw [Set.disjoint_left]
  intro x hx hy
  exact absurd (lt_of_lt_of_le hx.2 h) (not_lt.mpr hy.1)

/-- **The ledger never reissues or orphans a name.** In every run from a fresh ledger: client
handles are pairwise distinct, object ranges are pairwise disjoint and inside the R4OS range,
a retired lease or child range never validates again, every live child has a live parent, and each
call keeps retained entries, refuses to retire a parent with a live child, and changes nothing when
it fails. -/
theorem ledger_run {epoch : Nat} {l₀ : Ledger} {mem : Nat → ResidentChildren} {h : List Step}
    {w : World} (h₀ : Ledger.start epoch = .ok l₀) (hr : Run (step here) ⟨l₀, mem⟩ h w) :
    (h.filterMap issuedClient).Nodup ∧
    (h.filterMap issuedRange).Pairwise (fun r s => Disjoint r.names s.names) ∧
    (∀ r ∈ h.filterMap issuedRange, r.names ⊆ Set.Ico objectFirst objectEnd) ∧
    (∀ l ∈ h.filterMap retiredLease, ∀ w', validate l w ≠ .ok () w') ∧
    (∀ c ∈ h.filterMap retiredChild, ∀ w', validateChildren here c w ≠ .ok () w') ∧
    (∀ p c, w.Holds p c → w.Live c.parent) ∧
    (∀ e ∈ h, Guarded e) := by
  have hl := ledgered_run h₀ hr
  refine ⟨hl.clients, hl.ranges.imp NameRange.disjoint_of_le, ?_, ?_, ?_, ?_, ?_⟩
  · intro r hmem x hx
    obtain ⟨hge, hle⟩ := hl.range_in r hmem
    exact ⟨le_trans hge hx.1, lt_of_lt_of_le hx.2 (le_trans hle hl.inv.object_le)⟩
  · intro l hmem w' hv
    exact (hl.retired l hmem).2 (validate_live hv)
  · intro c hmem w' hv
    obtain ⟨-, -, p, hf, hc⟩ := validateChildren_ok.mp hv
    exact (hl.retired_child c hmem).2 p (hf.holds (by rw [hc]))
  · intro p c hp
    exact (hl.inv.child p c hp).2.2
  · intro e he
    obtain ⟨h₁, h₂, -, hrun, hst⟩ := hr.event he
    exact (step_effect hst).guarded (ledgered_run h₀ hrun).inv

/-- A client is reserved and retired, the next one reuses its slot under a new handle. -/
theorem ledger_run_reuse :
    ((exec (step 8) ⟨{ epoch := 1 }, fun _ => {}⟩ [.reserve 2,
        .retire ⟨1, 0, 0xc1d00000, 0x10000000, 2⟩, .reserve 3]).1.filterMap issuedClient) =
      [0xc1d00000, 0xc1d00001] ∧
    ((exec (step 8) ⟨{ epoch := 1 }, fun _ => {}⟩ [.reserve 2,
        .retire ⟨1, 0, 0xc1d00000, 0x10000000, 2⟩, .reserve 3]).1.filterMap issuedClient).Nodup :=
  ⟨by decide +kernel,
    (@ledger_run 8 1 { epoch := 1 } (fun _ => {}) _ _ rfl (Run.of_exec (step 8) _ _)).1⟩

end Names
end NvidiaGsp
