import NvidiaGsp.Lib.Runs
import NvidiaGsp.Lib.Triples
import NvidiaGsp.Sched.Turns

/-!
# Sched.TurnsSpec

What one operation of the scheduler does. `Effect` names the four kinds of steps; `Inv` is what every
state keeps: the entries of a producer share its turn, and the latest choice is before all others.
-/

namespace NvidiaGsp
namespace Sched

open Call

variable {jobBytes : Nat} {o : Owner} {s s' : State} {i j : Fin capacity} {x y : Entry}

/-- The order of the choice. -/
def Before (x y : Entry) : Prop :=
  x.producerTurn < y.producerTurn ∨ (x.producerTurn = y.producerTurn ∧ x.jobTurn ≤ y.jobTurn)

theorem Before.refl (x : Entry) : Before x x := .inr ⟨rfl, Nat.le_refl _⟩

theorem Before.trans {z : Entry} (h : Before x y) (h' : Before y z) : Before x z := by
  unfold Before at *
  omega

@[simp] theorem slot_val (i : Fin capacity) : slot i = some i := dif_pos i.isLt

/-! ## The choice -/

/-- `chosen` is an entry before all of `seen`, or there is none. -/
def Picked (o : Owner) (seen : Fin capacity → Prop) : Option (Fin capacity) → Prop
  | some c => ∃ x, o.entries c = some x ∧ ∀ j, seen j → ∀ y, o.entries j = some y → Before x y
  | none => ∀ j, seen j → o.entries j = none

theorem pick_spec {seen : Fin capacity → Prop} {chosen : Option (Fin capacity)}
    (h : Picked o seen chosen) (i : Fin capacity) :
    Picked o (fun j => seen j ∨ j = i) (o.pick chosen i) := by
  unfold Owner.pick
  cases hi : o.entries i with
  | none =>
    dsimp only
    cases chosen with
    | none =>
      rintro j (hj | rfl)
      · exact h j hj
      · exact hi
    | some c =>
      obtain ⟨x, hx, hbefore⟩ := h
      refine ⟨x, hx, ?_⟩
      rintro j (hj | rfl) y hy
      · exact hbefore j hj y hy
      · rw [hi] at hy
        cases hy
  | some candidate =>
    dsimp only
    cases chosen with
    | none =>
      refine ⟨candidate, hi, ?_⟩
      rintro j (hj | rfl) y hy
      · rw [h j hj] at hy
        cases hy
      · obtain rfl := Option.some.inj (hi.symm.trans hy)
        exact .refl _
    | some c =>
      obtain ⟨x, hx, hbefore⟩ := h
      rw [Option.bind_some, hx]
      dsimp only
      split
      · rename_i hkeep
        refine ⟨x, hx, ?_⟩
        rintro j (hj | rfl) y hy
        · exact hbefore j hj y hy
        · obtain rfl := Option.some.inj (hi.symm.trans hy)
          unfold Before
          omega
      · rename_i htake
        have hnew : Before candidate x := by
          unfold Before
          omega
        refine ⟨candidate, hi, ?_⟩
        rintro j (hj | rfl) y hy
        · exact hnew.trans (hbefore j hj y hy)
        · obtain rfl := Option.some.inj (hi.symm.trans hy)
          exact .refl _

theorem foldl_pick_spec (slots : List (Fin capacity)) {seen : Fin capacity → Prop}
    {chosen : Option (Fin capacity)} (h : Picked o seen chosen) :
    Picked o (fun j => seen j ∨ j ∈ slots) (slots.foldl o.pick chosen) := by
  induction slots generalizing seen chosen with
  | nil => simpa using h
  | cons i rest ih =>
    have := ih (pick_spec h i)
    rw [List.foldl_cons]
    simpa only [List.mem_cons, or_assoc] using this

/-- The choice is before every entry, and there is one unless all slots are free. -/
theorem choose_spec (o : Owner) : Picked o (fun _ => True) o.choose := by
  have h : Picked o (fun _ => False) none := fun _ hf => hf.elim
  have := foldl_pick_spec (List.finRange capacity) h
  unfold Owner.choose
  simpa [List.mem_finRange] using this

/-! ## Effects -/

/-- The entries after a turn of `i`; a release leaves its slot free. -/
structure Turned (i : Fin capacity) (x : Entry) (s s' : State) : Prop where
  latest : s.latest = some i
  entry : s.owner.entries i = some x
  room : s.owner.turn < maxU64
  given : s'.latest = none
  turn : s'.owner.turn = s.owner.turn + 1
  others : ∀ j y, j ≠ i → s.owner.entries j = some y → s'.owner.entries j = some
    { y with producerTurn := if y.producer = x.producer then s.owner.turn + 1 else y.producerTurn }
  entries : ∀ j y', s'.owner.entries j = some y' → ∃ y, s.owner.entries j = some y ∧
    y'.producer = y.producer ∧
    y'.producerTurn = (if y.producer = x.producer then s.owner.turn + 1 else y.producerTurn) ∧
    y'.jobTurn = if j = i then s.owner.turn + 1 else y.jobTurn

/-- A new entry joins with the turn of its producer, or else the current one. -/
structure Admitted (i : Fin capacity) (x : Entry) (s s' : State) : Prop where
  free : s.owner.entries i = none
  entries : s'.owner.entries = Function.update s.owner.entries i (some x)
  turn : s'.owner.turn = s.owner.turn
  latest : s'.latest = s.latest
  jobTurn : x.jobTurn = s.owner.turn
  producerTurn : (∃ j y, s.owner.entries j = some y ∧ y.producer = x.producer ∧
      x.producerTurn = y.producerTurn) ∨
    ((∀ j y, s.owner.entries j = some y → y.producer ≠ x.producer) ∧ x.producerTurn = s.owner.turn)

inductive Effect (s : State) : Op → Except Error Answer → State → Prop where
  | admitJob {index : Nat} {job : Job} {s' : State} {i : Fin capacity} {x : Entry} :
      Admitted i x s s' → Effect s (.admitJob index job) (.ok .done) s'
  | choose : Effect s .choose (.ok (.chosen s.owner.choose)) { s with latest := s.owner.choose }
  | yield {s' : State} {i : Fin capacity} {x : Entry} :
      Turned i x s s' → Effect s .yield (.ok .done) s'
  | release {s' : State} {i : Fin capacity} {x : Entry} :
      Turned i x s s' → Effect s .release (.ok .done) s'
  | fail {op : Op} {e : Error} : Effect s op (.error e) s

theorem peerTurn_some {producer : Producer} {t : Nat} (h : o.peerTurn producer = some t) :
    ∃ j y, o.entries j = some y ∧ y.producer = producer ∧ t = y.producerTurn := by
  obtain ⟨j, -, hj⟩ := List.exists_of_findSome?_eq_some h
  split at hj
  · rename_i y hy
    split at hj
    · rename_i hp
      exact ⟨j, y, hy, hp, (Option.some.inj hj).symm⟩
    · cases hj
  · cases hj

theorem peerTurn_none {producer : Producer} (h : o.peerTurn producer = none) (hy : o.entries j = some y) :
    y.producer ≠ producer := by
  intro hp
  have := List.findSome?_eq_none_iff.mp h j (List.mem_finRange j)
  rw [hy] at this
  simp [hp] at this

theorem admit_spec (index : Nat) (job : Job) :
    Spec (admitJob jobBytes index job) o
      (fun _ o' => ∃ i x, Admitted i x ⟨o, s.latest⟩ ⟨o', s.latest⟩) (fun _ o' => o' = o) := by
  unfold admitJob
  refine .get_bind ?_
  refine .need_bind (fun _ => rfl) fun i _ => ?_
  refine .failIf_bind (fun _ => rfl) fun hopen => ?_
  refine .lift_bind (fun _ _ => rfl) fun producer _ => ?_
  simp only [not_or, Bool.not_eq_true, Option.isSome_eq_false_iff, Option.isNone_iff_eq_none] at hopen
  refine ⟨i, _, ⟨hopen.1, rfl, rfl, rfl, rfl, ?_⟩⟩
  cases hpeer : o.peerTurn producer with
  | none => exact .inr ⟨fun j y hy => peerTurn_none hpeer hy, rfl⟩
  | some t =>
    obtain ⟨j, y, hy, hp, rfl⟩ := peerTurn_some hpeer
    exact .inl ⟨j, y, hy, hp, rfl⟩

theorem yield_spec (i : Fin capacity) :
    Spec (yield i) o
      (fun _ o' => ∃ x, o.entries i = some x ∧ o.turn ≠ maxU64 ∧ o' = o.turned i x.producer)
      (fun _ o' => o' = o) := by
  unfold yield
  rw [slot_val]
  refine .get_bind ?_
  refine .need_bind (fun _ => rfl) fun i' hi => ?_
  obtain rfl := Option.some.inj hi
  refine .need_bind (fun _ => rfl) fun x hx => ?_
  exact .failIf_bind (fun _ => rfl) fun hmax => ⟨x, hx, hmax, rfl⟩

theorem release_spec (i : Fin capacity) :
    Spec (release i) o
      (fun _ o' => ∃ x, o.entries i = some x ∧ o.turn ≠ maxU64 ∧
        o' = { o.turned i x.producer with
          entries := Function.update (o.turned i x.producer).entries i none })
      (fun _ o' => o' = o) := by
  unfold release
  refine (yield_spec i).seq (fun _ o' h => ?_) fun _ _ h => h
  obtain ⟨x, hx, hmax, rfl⟩ := h
  rw [slot_val]
  exact ⟨x, hx, hmax, rfl⟩

theorem turned_entries {producer : Producer} {y' : Entry}
    (h : (o.turned i producer).entries j = some y') :
    ∃ y, o.entries j = some y ∧ y'.producer = y.producer ∧
      y'.producerTurn = (if y.producer = producer then o.turn + 1 else y.producerTurn) ∧
      y'.jobTurn = if j = i then o.turn + 1 else y.jobTurn := by
  obtain ⟨y, hy, rfl⟩ := Option.map_eq_some_iff.mp h
  exact ⟨y, hy, rfl, rfl, rfl⟩

theorem turned_other {producer : Producer} (hj : j ≠ i) (h : o.entries j = some y) :
    (o.turned i producer).entries j = some
      { y with producerTurn := if y.producer = producer then o.turn + 1 else y.producerTurn } := by
  unfold Owner.turned
  dsimp only
  rw [h, Option.map_some, if_neg hj]

theorem turned_yield (hb : o.turn ≤ maxU64) (hx : o.entries i = some x) (hmax : o.turn ≠ maxU64) :
    Turned i x ⟨o, some i⟩ ⟨o.turned i x.producer, none⟩ where
  latest := rfl
  entry := hx
  room := Nat.lt_of_le_of_ne hb hmax
  given := rfl
  turn := rfl
  others := fun _ _ hj hy => turned_other hj hy
  entries := fun _ _ h => turned_entries h

theorem turned_release (hb : o.turn ≤ maxU64) (hx : o.entries i = some x) (hmax : o.turn ≠ maxU64) :
    Turned i x ⟨o, some i⟩ ⟨{ o.turned i x.producer with
      entries := Function.update (o.turned i x.producer).entries i none }, none⟩ where
  latest := rfl
  entry := hx
  room := Nat.lt_of_le_of_ne hb hmax
  given := rfl
  turn := rfl
  others := fun j y hj hy => by
    dsimp only
    rw [Function.update_of_ne hj]
    exact turned_other hj hy
  entries := fun j y' h => by
    dsimp only at h
    by_cases hj : j = i
    · subst hj
      rw [Function.update_self] at h
      cases h
    · rw [Function.update_of_ne hj] at h
      exact turned_entries h

/-- Every step has one of the effects. -/
theorem step_effect (hb : s.owner.turn ≤ maxU64) (op : Op) :
    Effect s op (step jobBytes s op).1 (step jobBytes s op).2 := by
  cases op with
  | admitJob index job =>
    have hspec : Spec (admitJob jobBytes index job) s.owner _ _ := admit_spec (s := s) index job
    unfold step
    dsimp only
    cases hx : admitJob jobBytes index job s.owner with
    | ok _ o =>
      obtain ⟨i, x, h⟩ := hspec.ok hx
      exact .admitJob h
    | error e o =>
      obtain rfl := hspec.error hx
      exact .fail
  | choose => exact .choose
  | yield =>
    unfold step giveBack
    cases hl : s.latest with
    | none => exact .fail
    | some i =>
      obtain ⟨o, l⟩ := s
      obtain rfl : l = some i := hl
      dsimp only
      cases hx : yield i o with
      | ok _ o' =>
        obtain ⟨x, hentry, hmax, rfl⟩ := (yield_spec i).ok hx
        exact .yield (turned_yield hb hentry hmax)
      | error e o' =>
        obtain rfl := (yield_spec i).error hx
        exact .fail
  | release =>
    unfold step giveBack
    cases hl : s.latest with
    | none => exact .fail
    | some i =>
      obtain ⟨o, l⟩ := s
      obtain rfl : l = some i := hl
      dsimp only
      cases hx : release i o with
      | ok _ o' =>
        obtain ⟨x, hentry, hmax, rfl⟩ := (release_spec i).ok hx
        exact .release (turned_release hb hentry hmax)
      | error e o' =>
        obtain rfl := (release_spec i).error hx
        exact .fail

/-! ## The invariant -/

structure Inv (s : State) : Prop where
  shared : ∀ i j x y, s.owner.entries i = some x → s.owner.entries j = some y →
    x.producer = y.producer → x.producerTurn = y.producerTurn
  turns : ∀ i x, s.owner.entries i = some x →
    x.producerTurn ≤ s.owner.turn ∧ x.jobTurn ≤ s.owner.turn
  bound : s.owner.turn ≤ maxU64
  latest : ∀ i, s.latest = some i → ∃ x, s.owner.entries i = some x ∧
    ∀ j y, s.owner.entries j = some y → Before x y

theorem Inv.initial : Inv {} where
  shared := fun _ _ _ _ h => by cases h
  turns := fun _ _ h => by cases h
  bound := Nat.zero_le _
  latest := fun _ h => by cases h

theorem Turned.inv (hi : Inv s) (h : Turned i x s s') : Inv s' where
  shared := fun j k y z hy hz hp => by
    obtain ⟨y₀, hy₀, hyp, hyt, -⟩ := h.entries j y hy
    obtain ⟨z₀, hz₀, hzp, hzt, -⟩ := h.entries k z hz
    have hp₀ : y₀.producer = z₀.producer := hyp.symm.trans (hp.trans hzp)
    rw [hyt, hzt, hp₀, hi.shared j k y₀ z₀ hy₀ hz₀ hp₀]
  turns := fun j y hy => by
    obtain ⟨y₀, hy₀, -, hyt, hyj⟩ := h.entries j y hy
    have := hi.turns j y₀ hy₀
    rw [hyt, hyj, h.turn]
    split <;> split <;> omega
  bound := by
    have := h.room
    rw [h.turn]
    exact this
  latest := fun j hj => by
    rw [h.given] at hj
    cases hj

theorem Admitted.entry_cases (h : Admitted i x s s') (hy : s'.owner.entries j = some y) :
    (j = i ∧ y = x) ∨ (j ≠ i ∧ s.owner.entries j = some y) := by
  rw [h.entries] at hy
  by_cases hj : j = i
  · subst hj
    rw [Function.update_self] at hy
    exact .inl ⟨rfl, (Option.some.inj hy).symm⟩
  · rw [Function.update_of_ne hj] at hy
    exact .inr ⟨hj, hy⟩

theorem Admitted.kept (h : Admitted i x s s') (hy : s.owner.entries j = some y) :
    s'.owner.entries j = some y := by
  have hj : j ≠ i := by
    rintro rfl
    rw [h.free] at hy
    cases hy
  rw [h.entries, Function.update_of_ne hj, hy]

/-- A new entry has the turn that its producer's entries share. -/
theorem Admitted.peer (hi : Inv s) (h : Admitted i x s s') (hy : s.owner.entries j = some y)
    (hp : y.producer = x.producer) : x.producerTurn = y.producerTurn := by
  rcases h.producerTurn with ⟨k, z, hz, hzp, ht⟩ | ⟨hnone, -⟩
  · rw [ht]
    exact hi.shared k j z y hz hy (hzp.trans hp.symm)
  · exact absurd hp (hnone j y hy)

theorem Admitted.inv (hi : Inv s) (h : Admitted i x s s') : Inv s' where
  shared := fun j k y z hy hz hp => by
    rcases h.entry_cases hy with ⟨-, rfl⟩ | ⟨-, hy⟩
    · rcases h.entry_cases hz with ⟨-, rfl⟩ | ⟨-, hz⟩
      · rfl
      · exact h.peer hi hz hp.symm
    · rcases h.entry_cases hz with ⟨-, rfl⟩ | ⟨-, hz⟩
      · exact (h.peer hi hy hp).symm
      · exact hi.shared j k y z hy hz hp
  turns := fun j y hy => by
    rw [h.turn]
    rcases h.entry_cases hy with ⟨-, rfl⟩ | ⟨-, hy⟩
    · refine ⟨?_, Nat.le_of_eq h.jobTurn⟩
      rcases h.producerTurn with ⟨k, z, hz, -, ht⟩ | ⟨-, ht⟩
      · rw [ht]
        exact (hi.turns k z hz).1
      · exact Nat.le_of_eq ht
    · exact hi.turns j y hy
  bound := by
    rw [h.turn]
    exact hi.bound
  latest := fun j hj => by
    rw [h.latest] at hj
    obtain ⟨z, hz, hbefore⟩ := hi.latest j hj
    refine ⟨z, h.kept hz, fun k y hy => ?_⟩
    rcases h.entry_cases hy with ⟨-, rfl⟩ | ⟨-, hy⟩
    · have hturns := hi.turns j z hz
      have hjob := h.jobTurn
      rcases h.producerTurn with ⟨l, w, hw, -, ht⟩ | ⟨-, ht⟩
      · have := hbefore l w hw
        unfold Before at *
        omega
      · unfold Before
        omega
    · exact hbefore k y hy

theorem Effect.inv {op : Op} {out : Except Error Answer} (hi : Inv s) (h : Effect s op out s') :
    Inv s' := by
  cases h with
  | admitJob h => exact h.inv hi
  | choose =>
    refine ⟨hi.shared, hi.turns, hi.bound, fun i hl => ?_⟩
    have hspec := choose_spec s.owner
    dsimp only at hl
    rw [hl] at hspec
    obtain ⟨x, hx, hbefore⟩ := hspec
    exact ⟨x, hx, fun j y hy => hbefore j trivial y hy⟩
  | yield h => exact h.inv hi
  | release h => exact h.inv hi
  | fail => exact hi

end Sched
end NvidiaGsp
