import NvidiaGsp.Rm.WaitPolicy

/-!
# Rm.WaitPolicySpec

What a wait proves about the clock, whatever its callbacks answer: when it may say that the time is
over, when it must give up, and what it asks of the scheduler.
-/

namespace NvidiaGsp
namespace Rm
namespace Wait

variable {o : Options} {ops : Ops} {limit start : Nat} {s s' : Loop} {events before : List Event}
  {r : Result}

/-- The readings of the clock, the last one first. -/
def readings (events : List Event) : List Nat :=
  events.filterMap fun e => match e with
    | .read value => some value
    | _ => none

@[simp] theorem readings_read {v : Nat} : readings (.read v :: events) = v :: readings events := rfl
@[simp] theorem readings_stop : readings (.stop r :: events) = readings events := rfl
@[simp] theorem readings_sleep {t : Nat} : readings (.sleep t r :: events) = readings events := rfl
@[simp] theorem readings_relax : readings (.relax :: events) = readings events := rfl

/-- The clock failed: a reading was unavailable or went backwards, or more than the limit of them in a
row repeated the one before. -/
def Failed (o : Options) (values : List Nat) : Prop :=
  unavailable ∈ values ∨ (∃ i v u, values[i]? = some v ∧ values[i + 1]? = some u ∧ v < u) ∨
    ∃ i v, ∀ j, j ≤ o.stalledReadLimit + 1 → values[i + j]? = some v

/-- A sleep fits the options and what is left of the wait, by the last reading before it. -/
def Naps (o : Options) (limit ticks : Nat) (before : List Event) : Prop :=
  1 ≤ ticks ∧ ticks < unavailable ∧ o.mode ≠ .busy ∧ o.sleepable = true ∧
    ∃ v, (readings before).head? = some v ∧ v < limit ∧
      ticks * nsPerS ≤ (limit - v) * o.frequencyHz

/-- Every call fits the options. -/
def Fits (o : Options) (limit : Nat) : List Event → Prop
  | [] => True
  | .sleep ticks _ :: before => Naps o limit ticks before ∧ Fits o limit before
  | .stop _ :: before => o.irq = false ∧ Fits o limit before
  | .read _ :: before => Fits o limit before
  | .relax :: before => Fits o limit before

theorem Fits.naps {after : List Event} {t : Nat}
    (h : Fits o limit (after ++ .sleep t r :: before)) : Naps o limit t before := by
  induction after with
  | nil => exact h.1
  | cons e rest ih =>
    cases e with
    | read v => exact ih h
    | stop r => exact ih h.2
    | sleep t r => exact ih h.2
    | relax => exact ih h

theorem Fits.stops (h : Fits o limit events) (hs : .stop r ∈ events) : o.irq = false := by
  induction events with
  | nil => cases hs
  | cons e rest ih =>
    rcases List.mem_cons.mp hs with rfl | hin
    · exact h.1
    · cases e with
      | read v => exact ih h hin
      | stop r => exact ih h.2 hin
      | sleep t r => exact ih h.2 hin
      | relax => exact ih h hin

/-! ## Between two turns -/

/-- What holds while the loop goes on. -/
structure Inv (o : Options) (limit start : Nat) (s : Loop) : Prop where
  head : ∃ rest, readings s.events = s.now :: rest ∧ ∀ v ∈ rest, v < limit ∧ v ≤ s.now
  first : (readings s.events).getLast? = some start
  steady : ¬ Failed o (readings s.events)
  stalled : s.stalled ≤ o.stalledReadLimit ∧ (readings s.events)[s.stalled + 1]? ≠ some s.now
  fits : Fits o limit s.events

/-- What a wait that has ended shows. -/
structure Ended (o : Options) (limit start : Nat) (events : List Event) (r : Result) : Prop where
  first : (readings events).getLast? = some start
  fits : Fits o limit events
  clock : Failed o (readings events) → r = .clock
  ok : r = .ok → (∃ v ∈ readings events, limit ≤ v) ∧
    (o.deadlineNs ≠ 0 → ∀ v ∈ readings events, v < o.deadlineNs)
  deadline : r = .deadline →
    (o.deadlineNs ≠ 0 ∧ ∃ v ∈ readings events, o.deadlineNs ≤ v) ∨
      .stop .deadline ∈ events ∨ ∃ t, .sleep t .deadline ∈ events

/-- A call that reads nothing. -/
theorem Inv.call (hi : Inv o limit start s) (hr : readings events = readings s.events)
    (hf : Fits o limit events) : Inv o limit start { s with events := events } :=
  ⟨by rw [hr]; exact hi.head, by rw [hr]; exact hi.first, by rw [hr]; exact hi.steady,
    by rw [hr]; exact hi.stalled, hf⟩

/-- The loop ends with what a callback returned. -/
theorem Inv.ended (hi : Inv o limit start s) (hr : r ≠ .ok)
    (hd : r = .deadline → .stop .deadline ∈ s.events ∨ ∃ t, .sleep t .deadline ∈ s.events) :
    Ended o limit start s.events r :=
  ⟨hi.first, hi.fits, fun h => absurd h hi.steady, fun h => absurd h hr, fun h => .inr (hd h)⟩

theorem checked_inv (ops : Ops) (hi : Inv o limit start s) :
    Inv o limit start (checked o ops s).1 ∧
      ((checked o ops s).2 ≠ .ok → Ended o limit start (checked o ops s).1.events (checked o ops s).2) := by
  unfold checked
  split
  · rename_i h
    have hc : Inv o limit start { s with
        events := .stop (ops.checkStop s.events.length) :: s.events } :=
      hi.call rfl ⟨by simpa using h.2, hi.fits⟩
    exact ⟨hc, fun hne => hc.ended hne fun h => .inl (List.mem_cons.mpr (.inl (congrArg _ h.symm)))⟩
  · exact ⟨hi, fun hne => absurd rfl hne⟩

theorem naps_of_ticks (hi : Inv o limit start s) (hlt : s.now < limit)
    (ht : ticks o (limit - s.now) ≠ 0) : Naps o limit (ticks o (limit - s.now)) s.events := by
  obtain ⟨rest, hread, -⟩ := hi.head
  unfold ticks at ht ⊢
  by_cases hm : o.maySleep = true
  · rw [if_pos hm] at ht ⊢
    have hmode : o.mode ≠ .busy ∧ o.sleepable = true := by simpa [Options.maySleep] using hm
    have hle : min ((limit - s.now) * o.frequencyHz / nsPerS) (unavailable - 1) * nsPerS ≤
        (limit - s.now) * o.frequencyHz :=
      Nat.le_trans (Nat.mul_le_mul_right _ (Nat.min_le_left _ _)) (Nat.div_mul_le_self _ _)
    have hlt' : min ((limit - s.now) * o.frequencyHz / nsPerS) (unavailable - 1) < unavailable :=
      Nat.lt_of_le_of_lt (Nat.min_le_right _ _) (by decide)
    exact ⟨Nat.pos_of_ne_zero ht, hlt', hmode.1, hmode.2, s.now, by rw [hread]; rfl, hlt, hle⟩
  · rw [if_neg hm] at ht
    exact absurd rfl ht

theorem paused_inv (ops : Ops) (hi : Inv o limit start s) (hlt : s.now < limit) :
    Inv o limit start (paused o ops limit s).1 ∧
      ((paused o ops limit s).2 ≠ .ok →
        Ended o limit start (paused o ops limit s).1.events (paused o ops limit s).2) := by
  unfold paused
  dsimp only
  split
  · rename_i ht
    have hc : Inv o limit start { s with
        events := .sleep (ticks o (limit - s.now)) (ops.sleepTicks s.events.length) :: s.events } :=
      hi.call rfl ⟨naps_of_ticks hi hlt ht, hi.fits⟩
    exact ⟨hc, fun hne => hc.ended hne fun h =>
      .inr ⟨_, List.mem_cons.mpr (.inl (congrArg _ h.symm))⟩⟩
  · exact ⟨hi.call rfl hi.fits, fun hne => absurd rfl hne⟩

/-- One more reading on a clock that has not failed. -/
theorem steady_cons {now next : Nat} {rest : List Nat} (hs : ¬ Failed o (now :: rest))
    (hu : next ≠ unavailable) (hle : now ≤ next)
    (hrun : ¬ ∀ j, j ≤ o.stalledReadLimit + 1 → (next :: now :: rest)[j]? = some next) :
    ¬ Failed o (next :: now :: rest) := by
  rintro (hmem | ⟨i, v, u, hv, hu', hback⟩ | ⟨i, v, hall⟩)
  · rcases List.mem_cons.mp hmem with h | h
    · exact hu h.symm
    · exact hs (.inl h)
  · cases i with
    | zero =>
      obtain rfl := Option.some.inj hv
      obtain rfl := Option.some.inj hu'
      omega
    | succ i => exact hs (.inr (.inl ⟨i, v, u, hv, hu', hback⟩))
  · cases i with
    | zero =>
      obtain rfl : next = v := Option.some.inj (hall 0 (Nat.zero_le _))
      exact hrun fun j hj => by simpa using hall j hj
    | succ i =>
      refine hs (.inr (.inr ⟨i, v, fun j hj => ?_⟩))
      have := hall j hj
      rwa [Nat.add_right_comm, List.getElem?_cons_succ] at this

theorem reread_inv (hi : Inv o limit start s) (hlt : s.now < limit) :
    ((reread o ops s).2 = .ok → Inv o limit start (reread o ops s).1) ∧
      ((reread o ops s).2 ≠ .ok →
        Ended o limit start (reread o ops s).1.events (reread o ops s).2) := by
  obtain ⟨rest, hread, hrest⟩ := hi.head
  have hlast (v : Nat) : (readings (.read v :: s.events)).getLast? = some start := by
    rw [readings_read, hread, List.getLast?_cons_cons, ← hread]
    exact hi.first
  have hgone (v : Nat) : Ended o limit start (.read v :: s.events) .clock :=
    ⟨hlast v, hi.fits, fun _ => rfl, (fun h => nomatch h), (fun h => nomatch h)⟩
  have hsteady : ¬ Failed o (s.now :: rest) := hread ▸ hi.steady
  have hnew : ∀ v ∈ s.now :: rest, v < limit ∧ v ≤ s.now := by
    intro v hv
    rcases List.mem_cons.mp hv with rfl | hv
    · exact ⟨hlt, Nat.le_refl _⟩
    · exact hrest v hv
  have hstall := hi.stalled
  rw [hread] at hstall
  unfold reread
  dsimp only
  split
  · exact ⟨(fun h => nomatch h), fun _ => hgone _⟩
  rename_i hnext
  obtain ⟨hu, hle⟩ := not_or.mp hnext
  have hle : s.now ≤ ops.now s.events.length := Nat.le_of_not_lt hle
  split
  · rename_i hsame
    split
    · exact ⟨(fun h => nomatch h), fun _ => hgone _⟩
    · rename_i hroom
      refine ⟨fun _ => ⟨⟨s.now :: rest, ?_, hnew⟩, hlast _, ?_, ⟨by dsimp only; omega, ?_⟩, hi.fits⟩,
        fun h => absurd rfl h⟩
      · rw [readings_read, hread, hsame]
      · rw [readings_read, hread]
        refine steady_cons hsteady hu hle fun hall => hstall.2 ?_
        have := hall (s.stalled + 2) (by omega)
        rw [hsame] at this
        exact this
      · rw [readings_read, hread]
        exact hstall.2
  · rename_i hmoved
    refine ⟨fun _ => ⟨⟨s.now :: rest, ?_, fun v hv => ⟨(hnew v hv).1, Nat.le_trans (hnew v hv).2 hle⟩⟩,
      hlast _, ?_, ⟨Nat.zero_le _, ?_⟩, hi.fits⟩, fun h => absurd rfl h⟩
    · rw [readings_read, hread]
    · rw [readings_read, hread]
      refine steady_cons hsteady hu hle fun hall => hmoved ?_
      exact (Option.some.inj (hall 1 (by omega))).symm
    · rw [readings_read, hread]
      exact fun h => hmoved (Option.some.inj h).symm

theorem turn_inv (ops : Ops) (hi : Inv o limit start s) (hlt : s.now < limit) :
    ((turn o ops limit s).2 = .ok → Inv o limit start (turn o ops limit s).1) ∧
      ((turn o ops limit s).2 ≠ .ok →
        Ended o limit start (turn o ops limit s).1.events (turn o ops limit s).2) := by
  have hc := checked_inv ops hi
  have hnow := (checked_kept (o := o) (p := ops) (s := s)).1
  unfold turn
  split
  · rename_i s₁ h₁
    rw [h₁] at hc hnow
    have hlt₁ : s₁.now < limit := hnow.symm ▸ hlt
    have hp := paused_inv ops hc.1 hlt₁
    have hnow₂ := (paused_kept (o := o) (p := ops) (l := limit) (s := s₁)).1
    split
    · rename_i s₂ h₂
      rw [h₂] at hp hnow₂
      exact reread_inv hp.1 (hnow₂.symm ▸ hlt₁)
    · rename_i s₂ r hne h₂
      rw [h₂] at hp
      exact ⟨fun h => absurd h hne, hp.2⟩
  · rename_i s₁ r hne h₁
    rw [h₁] at hc
    exact ⟨fun h => absurd h hne, hc.2⟩

theorem loop_ended (hi : Inv o limit start s) :
    Ended o limit start (loop o ops limit s).1.events (loop o ops limit s).2 := by
  fun_induction loop o ops limit s with
  | case1 s hlt s' h ih =>
    have ht := (turn_inv ops hi hlt).1
    rw [h] at ht
    exact ih (ht rfl)
  | case2 s hlt s' r hne h =>
    have ht := (turn_inv ops hi hlt).2
    rw [h] at ht
    exact ht hne
  | case3 s hlt =>
    obtain ⟨rest, hread, hrest⟩ := hi.head
    have hall : ∀ v ∈ s.now :: rest, v ≤ s.now := by
      intro v hv
      rcases List.mem_cons.mp hv with rfl | hv
      · exact Nat.le_refl _
      · exact (hrest v hv).2
    refine ⟨hi.first, hi.fits, fun h => absurd h hi.steady, fun h => ?_, fun h => .inl ?_⟩
    · rw [hread]
      refine ⟨⟨s.now, List.mem_cons_self, Nat.le_of_not_lt hlt⟩, fun hd v hv => ?_⟩
      by_contra hge
      have := hall v hv
      rw [if_pos ⟨hd, by omega⟩] at h
      cases h
    · rw [hread]
      by_cases hd : o.deadlineNs ≠ 0 ∧ s.now ≥ o.deadlineNs
      · exact ⟨hd.1, s.now, List.mem_cons_self, hd.2⟩
      · rw [if_neg hd] at h
        cases h

/-! ## The whole wait -/

/-- When the wait has read the clock and may go on. -/
theorem first_inv {l now : Nat} (hlt : now ≠ unavailable) :
    Inv o l now { now := now, events := [.read now] } where
  head := ⟨[], rfl, fun v hv => nomatch hv⟩
  first := rfl
  steady := by
    rintro (hmem | ⟨i, v, u, hv, hu, -⟩ | ⟨i, v, hall⟩)
    · exact hlt (List.mem_singleton.mp hmem).symm
    · simp [readings] at hu
    · have := hall 1 (by omega)
      simp [readings] at this
  stalled := ⟨Nat.zero_le _, by simp [readings]⟩
  fits := trivial

/-- A wait that ends at its first reading. -/
theorem ended_first {now : Nat} (hu : now ≠ unavailable) (hr : r ≠ .ok)
    (hd : r = .deadline → o.deadlineNs ≠ 0 ∧ o.deadlineNs ≤ now) :
    Ended o limit now [.read now] r :=
  ⟨rfl, trivial, fun h => absurd h (first_inv (l := now) hu).steady,
    fun h => absurd h hr, fun h => .inl ⟨(hd h).1, now, by simp, (hd h).2⟩⟩

theorem run_ended (o : Options) (ops : Ops) : (run o ops).1 = [] ∧ (run o ops).2 = .context ∨
    ∃ start, Ended o (due o start) start (run o ops).1 (run o ops).2 := by
  unfold run
  split
  · exact .inl ⟨rfl, rfl⟩
  split
  · exact .inl ⟨rfl, rfl⟩
  refine .inr ⟨ops.now 0, ?_⟩
  dsimp only
  split
  · exact ⟨rfl, trivial, fun _ => rfl, (fun h => nomatch h), (fun h => nomatch h)⟩
  rename_i hu
  split
  · rename_i hd
    exact ended_first hu (fun h => nomatch h) fun _ => hd
  split
  · exact ended_first hu (fun h => nomatch h) (fun h => nomatch h)
  split
  · exact ended_first hu (fun h => nomatch h) (fun h => nomatch h)
  split
  · exact ended_first hu (fun h => nomatch h) (fun h => nomatch h)
  split
  · exact ended_first hu (fun h => nomatch h) (fun h => nomatch h)
  exact loop_ended (first_inv hu)

/-- Whatever the clock, the scheduler and the stop request do, a wait ends, and what it returns and
asks for is accounted for by its readings. -/
theorem run_accounted (o : Options) (ops : Ops) :
    ((run o ops).2 = .ok → ∃ start, (readings (run o ops).1).getLast? = some start ∧
      (∃ v ∈ readings (run o ops).1, start + o.durationNs ≤ v) ∧
        (o.deadlineNs ≠ 0 → ∀ v ∈ readings (run o ops).1, v < o.deadlineNs)) ∧
    ((run o ops).2 = .deadline →
      (o.deadlineNs ≠ 0 ∧ ∃ v ∈ readings (run o ops).1, o.deadlineNs ≤ v) ∨
        .stop .deadline ∈ (run o ops).1 ∨ ∃ t, .sleep t .deadline ∈ (run o ops).1) ∧
    (Failed o (readings (run o ops).1) → (run o ops).2 = .clock) ∧
    (∀ after t r before, (run o ops).1 = after ++ .sleep t r :: before →
      o.mode ≠ .busy ∧ o.sleepable = true ∧ 1 ≤ t ∧ t < 2 ^ 64 - 1 ∧
        ∃ start v, (readings (run o ops).1).getLast? = some start ∧
          (readings before).head? = some v ∧ t * nsPerS ≤ (due o start - v) * o.frequencyHz) ∧
    ∀ r, .stop r ∈ (run o ops).1 → o.irq = false := by
  rcases run_ended o ops with ⟨hnone, hctx⟩ | ⟨start, he⟩
  · rw [hnone, hctx]
    refine ⟨(fun h => nomatch h), (fun h => nomatch h), fun h => ?_, fun after t r before h => ?_,
      fun r h => nomatch h⟩
    · rcases h with hmem | ⟨i, v, u, hv, -⟩ | ⟨i, v, hall⟩
      · cases hmem
      · simp [readings] at hv
      · have := hall 0 (Nat.zero_le _)
        simp [readings] at this
    · simp at h
  · refine ⟨fun h => ⟨start, he.first, ?_⟩, he.deadline, he.clock, fun after t r before h => ?_,
      fun r h => he.fits.stops h⟩
    · obtain ⟨⟨v, hv, hle⟩, hd⟩ := he.ok h
      refine ⟨⟨v, hv, ?_⟩, hd⟩
      unfold due at hle
      split at hle
      · exact hle
      · rename_i hne
        have := hd hne v hv
        omega
    · have hn := he.fits
      rw [h] at hn
      obtain ⟨h₁, h₂, hmode, hsleep, v, hv, -, hle⟩ := hn.naps
      exact ⟨hmode, hsleep, h₁, h₂, start, v, h ▸ he.first, hv, hle⟩

/-- The stop request may end a wait with any result, a deadline no reading has reached included. -/
theorem run_stopped : ¬ ∀ o ops, (run o ops).2 = .deadline →
    ∃ v ∈ readings (run o ops).1, o.deadlineNs ≤ v := by
  intro h
  let o : Options :=
    { durationNs := 1000, deadlineNs := 500, mode := .busy, frequencyHz := 1000, sleepable := false }
  let ops : Ops := { now := fun _ => 0, checkStop := fun _ => .deadline, sleepTicks := fun _ => .ok }
  have hrun : run o ops = ([.stop .deadline, .read 0], .deadline) := by
    simp [o, ops, run, due, loop, turn, checked, unavailable, Options.maySleep]
  obtain ⟨v, hv, hle⟩ := h o ops (by rw [hrun])
  rw [hrun] at hv
  simp [readings] at hv
  simp [o, hv] at hle

end Wait
end Rm
end NvidiaGsp
