import NvidiaGsp.Lib.Counts
import NvidiaGsp.Sched.TurnsSpec

/-!
# Sched.TurnsRuns

Bounded bypass over whole runs. While a producer waits, the producers ahead of it only get fewer
once a turn was taken (`Bypass`); while an entry waits, so do the entries of its producer ahead of it
(`Passed`). `turns_run` puts the two together.
-/

namespace NvidiaGsp
namespace Sched

open Call

variable {jobBytes : Nat} {s s₀ s' : State} {i j : Fin capacity} {x y : Entry} {P : Producer}

abbrev TurnEvent := Event State Op (Except Error Answer)

/-- The slot and the producer that an event serves: a choice given back. -/
def turnOf (e : TurnEvent) : Option (Fin capacity × Producer) :=
  match e.op, e.out with
  | .yield, .ok _ | .release, .ok _ =>
    e.pre.latest.bind fun i => (e.pre.owner.entries i).map fun x => (i, x.producer)
  | _, _ => none

def turnsOf (h : List TurnEvent) : List (Fin capacity × Producer) := h.filterMap turnOf

def producers (h : List TurnEvent) : List Producer := (turnsOf h).map Prod.snd

def slots (h : List TurnEvent) : List (Fin capacity) := (turnsOf h).map Prod.fst

/-- What an event does to the entries, and whom it serves. -/
inductive Moves (s s' : State) : List (Fin capacity × Producer) → Prop where
  | turn {i : Fin capacity} {x : Entry} : Turned i x s s' → Moves s s' [(i, x.producer)]
  | admitJob {i : Fin capacity} {x : Entry} : Admitted i x s s' → Moves s s' []
  | rest : s'.owner = s.owner → Moves s s' []

theorem Turned.turnsOf {op : Op} (h : Turned i x s s') (hop : op = .yield ∨ op = .release) :
    turnsOf [⟨s, op, .ok .done, s'⟩] = [(i, x.producer)] := by
  unfold Sched.turnsOf turnOf
  rcases hop with rfl | rfl <;> simp [h.latest, h.entry]

theorem moves (hi : Inv s) {op : Op} {out : Except Error Answer} (hs : step jobBytes s op = (out, s')) :
    Moves s s' (turnsOf [⟨s, op, out, s'⟩]) := by
  have heff : Effect s op out s' := by
    have : Effect s op (step jobBytes s op).1 (step jobBytes s op).2 := step_effect hi.bound op
    rwa [hs] at this
  cases heff with
  | admitJob h => exact .admitJob h
  | choose => exact .rest rfl
  | yield h =>
    rw [h.turnsOf (.inl rfl)]
    exact .turn h
  | release h =>
    rw [h.turnsOf (.inr rfl)]
    exact .turn h
  | @fail _ e =>
    have hturn : turnsOf [⟨s, op, .error e, s⟩] = [] := by
      cases op <;> rfl
    rw [hturn]
    exact .rest rfl

theorem turnsOf_snoc (h : List TurnEvent) (e : TurnEvent) :
    turnsOf (h ++ [e]) = turnsOf h ++ turnsOf [e] := List.filterMap_append

theorem inv_run {h : List TurnEvent} (hi : Inv s₀) (hr : Run (step jobBytes) s₀ h s) : Inv s := by
  refine hr.invariant (P := fun _ s => Inv s) hi fun h s op out s' hi hs => ?_
  have heff : Effect s op (step jobBytes s op).1 (step jobBytes s op).2 := step_effect hi.bound op
  rw [hs] at heff
  exact heff.inv hi

/-- A property of the turns so far and the state, kept by every move. -/
theorem turns_induction {K : List (Fin capacity × Producer) → State → Prop} (hi : Inv s₀)
    (h₀ : K [] s₀) (hstep : ∀ l s s' l', Inv s → K l s → Moves s s' l' → K (l ++ l') s')
    {h : List TurnEvent} (hr : Run (step jobBytes) s₀ h s) : K (turnsOf h) s := by
  have hboth : Inv s ∧ K (turnsOf h) s := by
    refine hr.invariant (P := fun h s => Inv s ∧ K (turnsOf h) s) ⟨hi, h₀⟩ ?_
    rintro h s op out s' ⟨hi, hk⟩ hs
    refine ⟨inv_run hi (.snoc (h := []) .nil hs), ?_⟩
    rw [turnsOf_snoc]
    exact hstep _ _ _ _ hi hk (moves hi hs)
  exact hboth.2

/-! ## Other producers -/

/-- The slot holds an entry of another producer that may still come first. -/
def Ahead (s : State) (P : Producer) (p : Nat) (j : Fin capacity) : Prop :=
  ∃ y, s.owner.entries j = some y ∧ y.producer ≠ P ∧ y.producerTurn ≤ p

open Classical in
/-- The other producers that may still come before `P`. -/
noncomputable def ahead (s : State) (P : Producer) (p : Nat) : Finset (Option Producer) :=
  (Finset.univ.filter (Ahead s P p)).image fun j => (s.owner.entries j).map Entry.producer

theorem mem_ahead {Q : Option Producer} {p : Nat} :
    Q ∈ ahead s P p ↔ ∃ j y, s.owner.entries j = some y ∧ y.producer ≠ P ∧ y.producerTurn ≤ p ∧
      some y.producer = Q := by
  classical
  unfold ahead
  rw [Finset.mem_image]
  constructor
  · rintro ⟨j, hj, rfl⟩
    obtain ⟨y, hy, hp, ht⟩ := (Finset.mem_filter.mp hj).2
    exact ⟨j, y, hy, hp, ht, by rw [hy, Option.map_some]⟩
  · rintro ⟨j, y, hy, hp, ht, rfl⟩
    exact ⟨j, Finset.mem_filter.mpr ⟨Finset.mem_univ j, y, hy, hp, ht⟩, by rw [hy, Option.map_some]⟩

/-- The slot of `P` is not one of them. -/
theorem card_ahead {p : Nat} (hy : s.owner.entries i = some y) (hp : y.producer = P) :
    (ahead s P p).card ≤ 7 := by
  classical
  unfold ahead
  refine Nat.le_trans Finset.card_image_le ?_
  have hsub : Finset.univ.filter (Ahead s P p) ⊆ Finset.univ.erase i := by
    intro j hj
    refine Finset.mem_erase.mpr ⟨?_, Finset.mem_univ j⟩
    rintro rfl
    obtain ⟨z, hz, hne, -⟩ := (Finset.mem_filter.mp hj).2
    obtain rfl := Option.some.inj (hy.symm.trans hz)
    exact hne hp
  refine Nat.le_trans (Finset.card_le_card hsub) ?_
  rw [Finset.card_erase_of_mem (Finset.mem_univ i), Finset.card_univ, Fintype.card_fin]
  decide

/-- `P` waits in slot `i` with turn `p`; `done` are the producers served since. -/
structure Bypass (P : Producer) (p : Nat) (i : Fin capacity) (done : List Producer) (s : State) :
    Prop where
  waiting : ∃ y, s.owner.entries i = some y ∧ y.producer = P ∧ y.producerTurn = p
  nodup : done.Nodup
  behind : ∀ Q ∈ done, ∀ j y, s.owner.entries j = some y → y.producer = Q → p < y.producerTurn
  count : done = [] ∨ (p < s.owner.turn ∧ done.length + (ahead s P p).card ≤ 7)

theorem Bypass.length {p : Nat} {done : List Producer} (h : Bypass P p i done s) : done.length ≤ 7 := by
  rcases h.count with hnil | ⟨-, hle⟩
  · rw [hnil]
    exact Nat.zero_le _
  · omega

/-- A turn of another producer puts it behind `P`. -/
theorem Bypass.turn {p : Nat} {done : List Producer} (hi : Inv s) (hb : Bypass P p i done s)
    (h : Turned j x s s') (hne : x.producer ≠ P) : Bypass P p i (done ++ [x.producer]) s' := by
  obtain ⟨y, hy, hyp, hyt⟩ := hb.waiting
  have hfirst : x.producerTurn ≤ p := by
    obtain ⟨x', hx', hbefore⟩ := hi.latest j h.latest
    obtain rfl := Option.some.inj (h.entry.symm.trans hx')
    have := hbefore i y hy
    unfold Before at this
    omega
  have hturn := (hi.turns i y hy).1
  have hij : i ≠ j := by
    rintro rfl
    obtain rfl := Option.some.inj (hy.symm.trans h.entry)
    exact hne hyp
  have hnew : x.producer ∉ done := fun hmem => by
    have := hb.behind _ hmem j x h.entry rfl
    omega
  have hmem : some x.producer ∈ ahead s P p := mem_ahead.2 ⟨j, x, h.entry, hne, hfirst, rfl⟩
  have hless : (ahead s' P p).card + 1 ≤ (ahead s P p).card := by
    have hsub : ahead s' P p ⊆ (ahead s P p).erase (some x.producer) := by
      intro Q hQ
      obtain ⟨k, z, hz, hzp, hzt, rfl⟩ := mem_ahead.1 hQ
      obtain ⟨w, hw, hwp, hwt, -⟩ := h.entries k z hz
      have hother : w.producer ≠ x.producer := by
        intro heq
        rw [hwt, if_pos heq] at hzt
        omega
      rw [if_neg hother] at hwt
      refine Finset.mem_erase.mpr ⟨?_, mem_ahead.2 ⟨k, w, hw, ?_, ?_, ?_⟩⟩
      · rw [hwp]
        exact fun heq => hother (Option.some.inj heq)
      · rwa [hwp] at hzp
      · rwa [hwt] at hzt
      · rw [hwp]
    have hcard := Finset.card_le_card hsub
    have hpos : 0 < (ahead s P p).card := Finset.card_pos.mpr ⟨_, hmem⟩
    rw [Finset.card_erase_of_mem hmem] at hcard
    omega
  refine ⟨⟨_, h.others i y hij hy, hyp, ?_⟩, ?_, fun Q hQ k z hz hzQ => ?_, .inr ⟨?_, ?_⟩⟩
  · dsimp only
    rw [if_neg (hyp ▸ Ne.symm hne)]
    exact hyt
  · exact List.nodup_append.mpr ⟨hb.nodup, List.nodup_singleton _, fun a ha b hb' => by
      rw [List.mem_singleton.mp hb']
      rintro rfl
      exact hnew ha⟩
  · obtain ⟨w, hw, hwp, hwt, -⟩ := h.entries k z hz
    rw [hwt]
    split
    · omega
    · rename_i hother
      rcases List.mem_append.mp hQ with hQ | hQ
      · exact hb.behind Q hQ k w hw (hwp.symm.trans hzQ)
      · rw [List.mem_singleton.mp hQ] at hzQ
        exact absurd (hwp.symm.trans hzQ) hother
  · rw [h.turn]
    omega
  · rw [List.length_append, List.length_singleton]
    rcases hb.count with hnil | ⟨-, hle⟩
    · have := card_ahead (p := p) hy hyp
      rw [hnil, List.length_nil]
      omega
    · omega

theorem Bypass.admitted {p : Nat} {done : List Producer} (hb : Bypass P p i done s)
    (h : Admitted j x s s') : Bypass P p i done s' := by
  obtain ⟨y, hy, hyp, hyt⟩ := hb.waiting
  refine ⟨⟨y, h.kept hy, hyp, hyt⟩, hb.nodup, fun Q hQ k z hz hzQ => ?_, ?_⟩
  · rcases h.entry_cases hz with ⟨-, rfl⟩ | ⟨-, hz⟩
    · rcases h.producerTurn with ⟨l, w, hw, hwp, ht⟩ | ⟨-, ht⟩
      · rw [ht]
        exact hb.behind Q hQ l w hw (hwp.trans hzQ)
      · rcases hb.count with hnil | ⟨hlt, -⟩
        · rw [hnil] at hQ
          cases hQ
        · omega
    · exact hb.behind Q hQ k z hz hzQ
  · rcases hb.count with hnil | ⟨hlt, hle⟩
    · exact .inl hnil
    · have hsub : ahead s' P p ⊆ ahead s P p := by
        intro Q hQ
        obtain ⟨k, z, hz, hzp, hzt, rfl⟩ := mem_ahead.1 hQ
        rcases h.entry_cases hz with ⟨-, rfl⟩ | ⟨-, hz⟩
        · rcases h.producerTurn with ⟨l, w, hw, hwp, ht⟩ | ⟨-, ht⟩
          · refine mem_ahead.2 ⟨l, w, hw, ?_, ?_, ?_⟩
            · rwa [hwp]
            · rwa [← ht]
            · rw [hwp]
          · omega
        · exact mem_ahead.2 ⟨k, z, hz, hzp, hzt, rfl⟩
      have hcard := Finset.card_le_card hsub
      refine .inr ⟨?_, by omega⟩
      rw [h.turn]
      exact hlt

theorem Bypass.rest {p : Nat} {done : List Producer} (hb : Bypass P p i done s)
    (h : s'.owner = s.owner) : Bypass P p i done s' := by
  have hahead : ahead s' P p = ahead s P p := by
    unfold ahead Ahead
    rw [h]
  obtain ⟨hwait, hnodup, hbehind, hcount⟩ := hb
  refine ⟨?_, hnodup, ?_, ?_⟩
  · rwa [h]
  · rwa [h]
  · rwa [h, hahead]

/-- While `P` waits, other producers are served at most once each, and at most seven times. -/
theorem bypass_run (hi : Inv s₀) (hy : s₀.owner.entries i = some y) {h : List TurnEvent}
    (hr : Run (step jobBytes) s₀ h s) (hP : y.producer ∉ producers h) :
    (producers h).Nodup ∧ (producers h).length ≤ 7 ∧
      ∃ y', s.owner.entries i = some y' ∧ y'.producer = y.producer := by
  have hb : y.producer ∉ producers h → Bypass y.producer y.producerTurn i (producers h) s := by
    refine turns_induction (K := fun l s => y.producer ∉ l.map Prod.snd →
      Bypass y.producer y.producerTurn i (l.map Prod.snd) s) hi ?_ ?_ hr
    · exact fun _ => ⟨⟨y, hy, rfl, rfl⟩, List.nodup_nil, fun Q hQ => (by cases hQ), .inl rfl⟩
    · intro l s s' l' hi hk hm hnot
      rw [List.map_append] at hnot ⊢
      have hk := hk fun hin => hnot (List.mem_append_left _ hin)
      cases hm with
      | turn h =>
        refine hk.turn hi h fun heq => hnot (List.mem_append_right _ ?_)
        rw [← heq]
        exact List.mem_singleton_self _
      | admitJob h => simpa using hk.admitted h
      | rest h => simpa using hk.rest h
  obtain ⟨⟨y', hy', hp, -⟩, hnodup, -, -⟩ := hb hP
  exact ⟨hnodup, (hb hP).length, y', hy', hp⟩

/-! ## Other entries of the producer -/

/-- The slot holds another entry of `P` that may still come first. -/
def Rival (s : State) (P : Producer) (t : Nat) (i j : Fin capacity) : Prop :=
  j ≠ i ∧ ∃ y, s.owner.entries j = some y ∧ y.producer = P ∧ y.jobTurn ≤ t

open Classical in
noncomputable def rivals (s : State) (P : Producer) (t : Nat) (i : Fin capacity) :
    Finset (Fin capacity) := Finset.univ.filter (Rival s P t i)

theorem mem_rivals {t : Nat} : j ∈ rivals s P t i ↔ Rival s P t i j := by
  classical
  unfold rivals
  rw [Finset.mem_filter]
  exact ⟨fun h => h.2, fun h => ⟨Finset.mem_univ j, h⟩⟩

theorem card_rivals {t : Nat} : (rivals s P t i).card ≤ 7 := by
  have hsub : rivals s P t i ⊆ Finset.univ.erase i := fun j hj =>
    Finset.mem_erase.mpr ⟨(mem_rivals.1 hj).1, Finset.mem_univ j⟩
  refine Nat.le_trans (Finset.card_le_card hsub) ?_
  rw [Finset.card_erase_of_mem (Finset.mem_univ i), Finset.card_univ, Fintype.card_fin]
  decide

/-- The entry of `P` in slot `i` waits with job turn `t`; `done` turns of `P` went to others. -/
structure Passed (P : Producer) (t : Nat) (i : Fin capacity) (done : Nat) (s : State) : Prop where
  waiting : ∃ y, s.owner.entries i = some y ∧ y.producer = P ∧ y.jobTurn = t
  count : done = 0 ∨ (t < s.owner.turn ∧ done + (rivals s P t i).card ≤ 7)

theorem Passed.le {t done : Nat} (h : Passed P t i done s) : done ≤ 7 := by
  rcases h.count with hz | ⟨-, hle⟩ <;> omega

/-- A turn of another slot puts it behind the entry, if it is of the same producer. -/
theorem Passed.turn {t done : Nat} (hi : Inv s) (hb : Passed P t i done s) (h : Turned j x s s')
    (hne : j ≠ i) : Passed P t i (done + if x.producer = P then 1 else 0) s' := by
  obtain ⟨y, hy, hyp, hyt⟩ := hb.waiting
  have hturn := (hi.turns i y hy).2
  have hwait : ∃ y', s'.owner.entries i = some y' ∧ y'.producer = P ∧ y'.jobTurn = t :=
    ⟨_, h.others i y hne.symm hy, hyp, hyt⟩
  have hback {k : Fin capacity} (hk : Rival s' P t i k) : k ≠ j ∧ Rival s P t i k := by
    obtain ⟨hki, z, hz, hzp, hzt⟩ := hk
    obtain ⟨w, hw, hwp, -, hwj⟩ := h.entries k z hz
    have hkj : k ≠ j := by
      intro heq
      rw [if_pos heq] at hwj
      omega
    rw [if_neg hkj] at hwj
    exact ⟨hkj, hki, w, hw, hwp.symm.trans hzp, hwj ▸ hzt⟩
  split
  · rename_i hP
    have hbefore : x.jobTurn ≤ t := by
      obtain ⟨x', hx', hfirst⟩ := hi.latest j h.latest
      obtain rfl := Option.some.inj (h.entry.symm.trans hx')
      have hle := hfirst i y hy
      have hsame := hi.shared j i x y h.entry hy (hP.trans hyp.symm)
      unfold Before at hle
      omega
    have hmem : j ∈ rivals s P t i := mem_rivals.2 ⟨hne, x, h.entry, hP, hbefore⟩
    have hless : (rivals s' P t i).card + 1 ≤ (rivals s P t i).card := by
      have hsub : rivals s' P t i ⊆ (rivals s P t i).erase j := fun k hk =>
        have hold := hback (mem_rivals.1 hk)
        Finset.mem_erase.mpr ⟨hold.1, mem_rivals.2 hold.2⟩
      have hcard := Finset.card_le_card hsub
      have hpos : 0 < (rivals s P t i).card := Finset.card_pos.mpr ⟨_, hmem⟩
      rw [Finset.card_erase_of_mem hmem] at hcard
      omega
    refine ⟨hwait, .inr ⟨?_, ?_⟩⟩
    · rw [h.turn]
      omega
    · have hmax : (rivals s P t i).card ≤ 7 := card_rivals
      rcases hb.count with hz | ⟨-, hle⟩ <;> omega
  · refine ⟨hwait, ?_⟩
    rcases hb.count with hz | ⟨hlt, hle⟩
    · exact .inl (by omega)
    · have hcard := Finset.card_le_card fun k hk => mem_rivals.2 (hback (mem_rivals.1 hk)).2
      refine .inr ⟨?_, by omega⟩
      rw [h.turn]
      omega

theorem Passed.admitted {t done : Nat} (hb : Passed P t i done s) (h : Admitted j x s s') :
    Passed P t i done s' := by
  obtain ⟨y, hy, hyp, hyt⟩ := hb.waiting
  refine ⟨⟨y, h.kept hy, hyp, hyt⟩, ?_⟩
  rcases hb.count with hz | ⟨hlt, hle⟩
  · exact .inl hz
  · have hsub : rivals s' P t i ⊆ rivals s P t i := by
      intro k hk
      obtain ⟨hki, z, hz, hzp, hzt⟩ := mem_rivals.1 hk
      rcases h.entry_cases hz with ⟨-, rfl⟩ | ⟨-, hz⟩
      · have := h.jobTurn
        omega
      · exact mem_rivals.2 ⟨hki, z, hz, hzp, hzt⟩
    have hcard := Finset.card_le_card hsub
    refine .inr ⟨?_, by omega⟩
    rw [h.turn]
    exact hlt

theorem Passed.rest {t done : Nat} (hb : Passed P t i done s) (h : s'.owner = s.owner) :
    Passed P t i done s' := by
  have hrivals : rivals s' P t i = rivals s P t i := by
    unfold rivals Rival
    rw [h]
  obtain ⟨hwait, hcount⟩ := hb
  refine ⟨?_, ?_⟩
  · rwa [h]
  · rwa [h, hrivals]

/-- While an entry waits, at most seven turns of its producer go to other entries. -/
theorem passed_run (hi : Inv s₀) (hy : s₀.owner.entries i = some y) {h : List TurnEvent}
    (hr : Run (step jobBytes) s₀ h s) (hslot : i ∉ slots h) :
    (producers h).count y.producer ≤ 7 ∧
      ∃ y', s.owner.entries i = some y' ∧ y'.producer = y.producer := by
  have hb : i ∉ slots h → Passed y.producer y.jobTurn i ((producers h).count y.producer) s := by
    refine turns_induction (K := fun l s => i ∉ l.map Prod.fst →
      Passed y.producer y.jobTurn i ((l.map Prod.snd).count y.producer) s) hi ?_ ?_ hr
    · exact fun _ => ⟨⟨y, hy, rfl, rfl⟩, .inl rfl⟩
    · intro l s s' l' hi hk hm hnot
      rw [List.map_append] at hnot ⊢
      rw [List.count_append]
      have hk := hk fun hin => hnot (List.mem_append_left _ hin)
      cases hm with
      | @turn j x h =>
        have hne : j ≠ i := by
          rintro rfl
          exact hnot (List.mem_append_right _ (List.mem_singleton_self _))
        have := hk.turn hi h hne
        rw [List.map_singleton, List.count_singleton]
        simpa using this
      | admitJob h => simpa using hk.admitted h
      | rest h => simpa using hk.rest h
  obtain ⟨⟨y', hy', hp, -⟩, -⟩ := hb hslot
  exact ⟨(hb hslot).le, y', hy', hp⟩

/-! ## Runs -/

/-- A stretch of the turns of a run is the turns of a stretch of the run. -/
theorem turns_split {h : List TurnEvent} (hr : Run (step jobBytes) s₀ h s) {pre gap post : List Producer}
    (heq : producers h = pre ++ gap ++ post) :
    ∃ h₁ h₂ h₃ s₁ s₂, h = h₁ ++ h₂ ++ h₃ ∧ Run (step jobBytes) s₀ h₁ s₁ ∧
      Run (step jobBytes) s₁ h₂ s₂ ∧ producers h₂ = gap := by
  unfold producers turnsOf at heq
  rw [List.map_filterMap] at heq
  obtain ⟨h₁₂, h₃, rfl, h₁₂eq, -⟩ := List.filterMap_eq_append_iff.mp heq
  obtain ⟨h₁, h₂, rfl, -, h₂eq⟩ := List.filterMap_eq_append_iff.mp h₁₂eq
  obtain ⟨s₂, hr₂, -⟩ := hr.split
  obtain ⟨s₁, hr₁, hr₁₂⟩ := hr₂.split
  refine ⟨h₁, h₂, h₃, s₁, s₂, rfl, hr₁, hr₁₂, ?_⟩
  unfold producers turnsOf
  rw [List.map_filterMap]
  exact h₂eq

theorem slots_append (h₁ h₂ : List TurnEvent) : slots (h₁ ++ h₂) = slots h₁ ++ slots h₂ := by
  unfold slots turnsOf
  rw [List.filterMap_append, List.map_append]

/-- While an entry waits, at most 63 turns go to others. -/
theorem waiting_run (hi : Inv s₀) (hy : s₀.owner.entries i = some y) {h : List TurnEvent}
    (hr : Run (step jobBytes) s₀ h s) (hslot : i ∉ slots h) : (producers h).length ≤ 63 := by
  obtain ⟨hcount, -⟩ := passed_run hi hy hr hslot
  have hgaps : (producers h).length ≤ (7 + 1) * (producers h).count y.producer + 7 := by
    refine Counts.length_le_of_gaps fun pre gap post heq hnot => ?_
    obtain ⟨h₁, h₂, h₃, s₁, s₂, rfl, hr₁, hr₂, rfl⟩ := turns_split hr heq
    have hslot₁ : i ∉ slots h₁ := fun hin => hslot (by
      rw [List.append_assoc, slots_append]
      exact List.mem_append_left _ hin)
    obtain ⟨-, z, hz, hzp⟩ := passed_run hi hy hr₁ hslot₁
    exact (bypass_run (inv_run hi hr₁) hz hr₂ (hzp ▸ hnot)).2.1
  omega

theorem Effect.turn {op : Op} {out : Except Error Answer} (h : Effect s op out s') :
    s.owner.turn ≤ s'.owner.turn := by
  cases h with
  | admitJob h => exact Nat.le_of_eq h.turn.symm
  | choose => exact Nat.le_refl _
  | yield h | release h =>
    rw [h.turn]
    exact Nat.le_succ _
  | fail => exact Nat.le_refl _

/-- In every reachable state the entries of a producer share its turn, the choice is before every
entry, and turns only grow, within a word. From there on, while a producer waits, the others are
served at most once each and seven times in all; while an entry waits, at most seven turns of its
producer pass it, and at most 63 turns in all. -/
theorem turns_run {h : List TurnEvent} (hr : Run (step jobBytes) {} h s) :
    (∀ i j x y, s.owner.entries i = some x → s.owner.entries j = some y →
      x.producer = y.producer → x.producerTurn = y.producerTurn) ∧
    (∀ i y, s.owner.entries i = some y → ∃ c x, s.owner.choose = some c ∧
      s.owner.entries c = some x ∧ Before x y) ∧
    ((∀ e ∈ h, e.pre.owner.turn ≤ e.post.owner.turn) ∧ s.owner.turn ≤ maxU64) ∧
    ∀ i y, s.owner.entries i = some y → ∀ h' s', Run (step jobBytes) s h' s' →
      (y.producer ∉ producers h' → (producers h').Nodup ∧ (producers h').length ≤ 7) ∧
      (i ∉ slots h' → (producers h').count y.producer ≤ 7 ∧ (producers h').length ≤ 63) := by
  have hi : Inv s := inv_run .initial hr
  refine ⟨hi.shared, fun i y hy => ?_, ⟨fun e he => ?_, hi.bound⟩, fun i y hy h' s' hr' => ⟨?_, ?_⟩⟩
  · have hspec := choose_spec s.owner
    cases hc : s.owner.choose with
    | none =>
      rw [hc] at hspec
      rw [hspec i trivial] at hy
      cases hy
    | some c =>
      rw [hc] at hspec
      obtain ⟨x, hx, hbefore⟩ := hspec
      exact ⟨c, x, rfl, hx, hbefore i trivial y hy⟩
  · obtain ⟨h₁, h₂, -, hr₁, hs⟩ := hr.event he
    have heff : Effect e.pre e.op (step jobBytes e.pre e.op).1 (step jobBytes e.pre e.op).2 :=
      step_effect (inv_run .initial hr₁).bound e.op
    rw [hs] at heff
    exact heff.turn
  · intro hP
    obtain ⟨hnodup, hlen, -⟩ := bypass_run hi hy hr' hP
    exact ⟨hnodup, hlen⟩
  · intro hslot
    exact ⟨(passed_run hi hy hr' hslot).1, waiting_run hi hy hr' hslot⟩

/-- Two jobs of one producer and one of another: the second producer is served in between. -/
def sharedOps : List Op :=
  let job := fun id => (⟨64, 1, 1, 1, 0, id, 1⟩ : Job)
  [.admitJob 0 (job 5), .admitJob 1 (job 5), .choose, .admitJob 2 (job 6), .yield, .choose, .yield,
    .choose, .release]

theorem turns_run_shared :
    let r := exec (step 64) {} sharedOps
    (∀ i j x y, r.2.owner.entries i = some x → r.2.owner.entries j = some y →
      x.producer = y.producer → x.producerTurn = y.producerTurn) ∧
    (∀ i y, r.2.owner.entries i = some y → ∃ c x, r.2.owner.choose = some c ∧
      r.2.owner.entries c = some x ∧ Before x y) ∧
    ((∀ e ∈ r.1, e.pre.owner.turn ≤ e.post.owner.turn) ∧ r.2.owner.turn ≤ maxU64) ∧
    ∀ i y, r.2.owner.entries i = some y → ∀ h' s', Run (step 64) r.2 h' s' →
      (y.producer ∉ producers h' → (producers h').Nodup ∧ (producers h').length ≤ 7) ∧
      (i ∉ slots h' → (producers h').count y.producer ≤ 7 ∧ (producers h').length ≤ 63) :=
  turns_run (.of_exec _ _ sharedOps)

example : (slots (exec (step 64) {} sharedOps).1).map Fin.val = [0, 2, 1] := by decide +kernel

end Sched
end NvidiaGsp
