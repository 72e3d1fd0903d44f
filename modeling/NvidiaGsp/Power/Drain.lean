import NvidiaGsp.Power.OwnerRuns

/-!
# Power.Drain

The end of the owner when the firmware unloads: what a choice that hands out nothing has left to do,
and when the stop behind it succeeds.
-/

namespace NvidiaGsp
namespace Power

open Call

variable {o o' : Owner} {a : Answers} {now : Nat} {pollMask : Mask}

/-- What the choice keeps of an owner that stops for a firmware unload. -/
structure Ending (o o' : Owner) : Prop where
  stopping : o'.stopping = true
  firmwareUnloading : o'.firmwareUnloading = true
  attached : o'.attached = o.attached
  activeMask : o'.activeMask = o.activeMask
  pollRejection : o'.pollRejection = o.pollRejection
  mapped : o'.backing.cpu = false

theorem unmap_ending (h : Sound o) (ha : a.Working) (hs : o.stopping = true)
    (hu : o.firmwareUnloading = true) :
    Spec (unmap a) o (fun _ o' => Ending o o') fun _ _ => False := by
  refine .get_bind ?_
  split
  · rename_i hc
    have hm := h.storage.memory (opened_of_cpu hc h.storage)
    refine .failIf_bind (fun hn => by simp [hm] at hn) fun _ => ?_
    refine .failIf_bind (fun hn => by simp [ha.1] at hn) fun _ => ?_
    exact ⟨hs, hu, rfl, rfl, rfl, rfl⟩
  · rename_i hc
    exact ⟨hs, hu, rfl, rfl, rfl, by simpa using hc⟩

/-- What a choice without a control leaves. -/
structure Rested (o o' : Owner) : Prop where
  activeMask : o'.activeMask = o.activeMask
  mapped : o'.possiblyAttached = true → o'.backing.cpu = false
  closed : o'.possiblyAttached = false → o'.backing = {} ∧ o'.status = .closed

theorem closeStopped_rested (h : Sound o) (ha : a.Working) (hs : o.stopping = true)
    (hm : o.backing.cpu = false) :
    Spec (closeStopped a) o (fun _ o' => Rested o o' ∧ o'.stopping = true) fun _ _ => False := by
  refine .get_bind ?_
  split
  · rename_i hc
    have hp : o.possiblyAttached = false := by simpa using hc.2
    have hclose : o.backing.close a = (true, {}) :=
      close_working h.storage (h.retained.trans hp) ha
    refine .seq (Q := fun closed o₁ => closed = true ∧ o₁ = { o with backing := {} })
      (F := fun _ _ => False) ?_ (fun closed o₁ h₁ => ?_) fun _ _ h => h
    · show (o.backing.close a).1 = true ∧ { o with backing := (o.backing.close a).2 } = _
      rw [hclose]
      exact ⟨rfl, rfl⟩
    · obtain ⟨rfl, rfl⟩ := h₁
      exact ⟨⟨rfl, fun hn => by simp [hp] at hn, fun _ => ⟨rfl, rfl⟩⟩, hs⟩
  · rename_i hc
    have hp : o.possiblyAttached = true := by simpa [hs] using hc
    exact ⟨⟨rfl, fun _ => hm, fun hn => by simp [hp] at hn⟩, hs⟩

theorem chooseLast_rested (h : Sound o) (ha : a.Working) (hs : o.stopping = true)
    (hm : o.backing.cpu = false) :
    Spec (chooseLast a now) o (fun r o' => r = none → Rested o o') fun _ _ => True := by
  refine .get_bind ?_
  split
  · exact fun hn => by cases hn
  · refine .seq (closeStopped_rested h ha hs hm) (fun _ o₁ h₁ => ?_) fun _ _ h => h.elim
    refine .get_bind ?_
    split
    · exact fun hn => by cases hn
    · exact fun _ => h₁.1

theorem chooseBoost_rested {activity : Activity} (h : Sound o) (ha : a.Working)
    (hs : o.stopping = true) (hm : o.backing.cpu = false) :
    Spec (chooseBoost a now activity) o (fun r o' => r = none → Rested o o') fun _ _ => True := by
  refine .get_bind ?_
  refine .seq (Q := fun _ o₁ => o₁ = { o with performance := o₁.performance })
    (F := fun _ _ => True) ?_ (fun r o₁ h₁ => ?_) fun _ _ h => h
  · refine .zoom ?_
    exact next_spec.mono (fun _ _ _ => rfl) fun _ _ _ => trivial
  · have hap : Apart o o₁ := by
      rw [h₁]
      exact .of_eq rfl rfl rfl rfl rfl rfl rfl fun _ => rfl
    cases r with
    | some request =>
      refine .modify_bind ?_
      exact fun hn => by cases hn
    | none =>
      refine (chooseLast_rested (h.apart hap) ha (by rw [h₁]; exact hs)
        (by rw [h₁]; exact hm)).mono (fun r o₂ h₂ hr => ?_) fun _ _ h => h
      obtain ⟨h₃, h₄, h₅⟩ := h₂ hr
      exact ⟨h₃.trans (by rw [h₁]), h₄, h₅⟩

/-- A choice without a control has nothing left but the polling of an owner whose poll was
rejected. -/
theorem choose_rested {activity : Activity} (h : Sound o) (hactive : o.active = none)
    (ha : a.Working) (hs : o.stopping = true) (hu : o.firmwareUnloading = true) :
    Spec (choose pollMask a now activity) o
      (fun r o' => r = none → Rested o o' ∧
        (o.attached = true → o.activeMask = 0 ∨ o.pollRejection ≠ none))
      fun _ _ => True := by
  refine .get_bind ?_
  rw [if_neg (by simp [hactive])]
  refine .seq ((stays_unmap o).both (unmap_ending h ha hs hu)) (fun _ o₁ h₁ => ?_)
    fun _ _ _ => trivial
  obtain ⟨hstill, hend⟩ := h₁
  have hs₁ := h.apart hstill.toApart
  refine .modify_bind ?_
  refine .modify_bind ?_
  refine .get_bind ?_
  have he : (if activity.stopping then { o₁ with stopping := true } else o₁) = o₁ := by
    split
    · rw [← hend.stopping]
    · rfl
  simp only [he, hend.stopping, not_true_eq_false, and_false, if_false]
  have hreq : o₁.requested pollMask now = 0 := by simp [Owner.requested, hend.stopping]
  rw [hreq]
  rw [if_neg (fun hn => hn.2.2 rfl)]
  split
  · exact fun hn => by cases hn
  · rename_i hc
    refine (chooseBoost_rested hs₁ ha hend.stopping hend.mapped).mono (fun r o₂ h₂ hr => ?_) fun _ _ _ => trivial
    obtain ⟨h₃, h₄, h₅⟩ := h₂ hr
    refine ⟨⟨h₃.trans hend.activeMask, h₄, h₅⟩, fun hat => ?_⟩
    by_contra hn
    simp only [not_or, Decidable.not_not] at hn
    refine hc ⟨hend.attached.trans hat, ?_, hend.pollRejection.trans hn.2⟩
    rw [hend.activeMask]
    exact fun h => hn.1 h.symm

/-! ## The stop behind it -/

/-- An owner whose page is closed has stopped. -/
theorem stop_closed (hactive : o.active = none) (hp : o.possiblyAttached = false)
    (hb : o.backing = {}) (hs : o.status = .closed) :
    Spec (stop a now) o (fun r _ => r = true) fun _ _ => False := by
  refine .modify_bind ?_
  refine .get_bind ?_
  split
  · refine .seq (Q := fun closed o₁ => closed = true ∧ o₁ = { o with stopping := true })
      (F := fun _ _ => False) ?_ (fun closed o₁ h₁ => ?_) fun _ _ h => h
    · show (o.backing.close a).1 = true ∧
        { o with stopping := true, backing := (o.backing.close a).2 } = _
      have hclose : o.backing.close a = (true, o.backing) := by
        rw [hb]
        rfl
      rw [hclose]
      exact ⟨rfl, rfl⟩
    · obtain ⟨rfl, rfl⟩ := h₁
      refine .modify_bind ?_
      refine .get_bind ?_
      show Owner.closed _ = true
      simp [Owner.closed, hactive, hp, hb]
  · show Owner.closed _ = true
    simp [Owner.closed, hactive, hp, hb, hs]

/-- An owner whose page is with the firmware has not stopped, and stays as it is. -/
theorem stop_attached (hp : o.possiblyAttached = true) :
    Spec (stop a now) o (fun r o' => r = false ∧ o' = { o with stopping := true })
      fun _ _ => False := by
  refine .modify_bind ?_
  refine .get_bind ?_
  rw [if_neg (by simp [hp])]
  refine ⟨?_, rfl⟩
  simp [Owner.closed, hp]

theorem unload_closed (hactive : o.active = none) (hp : o.possiblyAttached = false)
    (hb : o.backing = {}) (hs : o.status = .closed) :
    Spec (stopForFirmwareUnload a now) o (fun r _ => r = true) fun _ _ => False := by
  refine .modify_bind ?_
  refine .seq (stop_closed hactive hp hb hs) (fun r o₁ hr => ?_) fun _ _ h => h
  refine .get_bind ?_
  show (r || _) = true
  rw [hr]
  rfl

theorem unload_attached (hp : o.possiblyAttached = true) :
    Spec (stopForFirmwareUnload a now) o (fun r _ => r = o.drained now) fun _ _ => False := by
  refine .modify_bind ?_
  refine .seq (stop_attached hp) (fun r o₁ hr => ?_) fun _ _ h => h
  refine .get_bind ?_
  obtain ⟨rfl, rfl⟩ := hr
  show (false || _) = _
  rfl

/-- What an attached owner needs before its page may stay with the firmware: no boost request waits,
and the polling can still be turned off or is off. -/
def Owner.Endable (o : Owner) : Prop :=
  o.attached = true →
    o.performance.pending = none ∧ (o.pollRejection = none ∨ o.activeMask = 0)

instance {o : Owner} : Decidable o.Endable := by
  unfold Owner.Endable
  infer_instance

/-- The stop behind a choice that hands out nothing succeeds exactly for an owner that can end. -/
theorem unload_iff {activity : Activity} {a' : Answers} {now' : Nat} (h : Sound o)
    (hactive : o.active = none) (ha : a.Working) (hs : o.stopping = true)
    (hu : o.firmwareUnloading = true) (hnow : o.performance.acceptedUntil ≤ now')
    (hc : choose pollMask a now activity o = .ok none o') :
    (outcome (stopForFirmwareUnload a' now') o').1 = .ok true ↔ o.Endable := by
  obtain ⟨hrest, hpoll⟩ := (choose_rested h hactive ha hs hu).ok hc rfl
  have hchosen := (choose_spec h).ok hc
  have hs' := h.apart hchosen.toApart
  have hidle := hchosen.active.trans hactive
  obtain ⟨request, hasked, hnone⟩ := hchosen.asked
  have hrequest : request = none := by simpa using hnone.symm
  have hpending : o'.performance.pending = o.performance.pending := by
    rw [hasked.pending, hrequest, Option.none_or]
  cases hp : o'.possiblyAttached with
  | false =>
    obtain ⟨hb, hclosed⟩ := hrest.closed hp
    have hs : Spec (stopForFirmwareUnload a' now') o' _ _ := unload_closed hidle hp hb hclosed
    obtain ⟨r, o₂, hr, rfl⟩ := hs.returns
    rw [outcome_ok_iff.2 hr]
    refine iff_of_true rfl fun hat => ?_
    rw [hchosen.possiblyAttached, h.attached hat] at hp
    cases hp
  | true =>
    have hs : Spec (stopForFirmwareUnload a' now') o' _ _ := unload_attached hp
    obtain ⟨r, o₂, hr, rfl⟩ := hs.returns
    rw [outcome_ok_iff.2 hr]
    have hat : o'.attached = true := by
      rcases hs'.published hp with h₁ | ⟨h₁, -⟩
      · exact h₁
      · exact absurd hidle (attaching_active h₁)
    obtain ⟨hop, hst, hcomp⟩ := hs'.idle hidle
    obtain ⟨h₁, h₂, h₃, -, -⟩ := hs'.held hp
    have hvalid : o'.backing.valid := ⟨h₁, h₂, h₃, by simp [hrest.mapped hp]⟩
    have hlapsed : o'.Lapsed now' := .inr (hasked.acceptedUntil ▸ hnow)
    have hret : o'.backing.retained = true := hs'.retained.trans hp
    have hdrained : o'.drained now' = true ↔ o.activeMask = 0 ∧ o.performance.pending = none := by
      simp [Owner.drained, hidle, hop, hst, hcomp, hat, hp, hret, hvalid, hlapsed, hpending,
        hrest.activeMask]
    have hat₀ : o.attached = true := hchosen.attached.symm.trans hat
    constructor
    · intro hr
      obtain ⟨hm, hpend⟩ := hdrained.mp (Except.ok.inj hr)
      exact fun _ => ⟨hpend, .inr hm⟩
    · intro hend
      obtain ⟨hpend, hm⟩ := hend hat₀
      refine congrArg _ (hdrained.mpr ⟨?_, hpend⟩)
      rcases hm with hm | hm
      · exact (hpoll hat₀).resolve_right (not_not_intro hm)
      · exact hm

/-! ## The result -/

/-- Whatever the surroundings answer and whatever the order of the calls: the page's lease and
reference are held while the firmware may hold the page, at most one control is out and at most one
boost request waits, and the accepted level is that of the last accepted boost or has lapsed. A
choice that hands out nothing is followed by a stop that succeeds exactly when the owner can end. -/
theorem unload_drains (pollMask : Mask) (events : List Event) :
    ((run pollMask events).exposed = true →
      (run pollMask events).owner.backing.dma = true ∧
      (run pollMask events).owner.backing.reference = true) ∧
    (run pollMask events).outstanding ≤ 1 ∧ (run pollMask events).requests ≤ 1 ∧
    Accepted (run pollMask events).owner.performance (run pollMask events).lastBoost ∧
    ∀ (a a' : Answers) (now now' : Nat) (activity : Activity),
      (run pollMask events).owner.stopping = true →
      (run pollMask events).owner.firmwareUnloading = true →
      (run pollMask events).owner.active = none → a.Working → a'.Working →
      (run pollMask events).owner.performance.acceptedUntil ≤ now → now ≤ now' →
      (outcome (choose pollMask a now activity) (run pollMask events).owner).1 = .ok none →
      ((outcome (stopForFirmwareUnload a' now')
          (outcome (choose pollMask a now activity) (run pollMask events).owner).2).1 = .ok true ↔
        (run pollMask events).owner.Endable) := by
  have h : Inv (run pollMask events) := Inv.run events
  refine ⟨fun hexp => ?_, ?_, ?_, h.accepted, ?_⟩
  · obtain ⟨-, -, -, href, hdma⟩ := h.sound.held (h.exposed.symm.trans hexp)
    exact ⟨hdma, href⟩
  · rw [h.outstanding]
    split <;> omega
  · rw [h.requests]
    split <;> omega
  · intro a a' now now' activity hs hu hactive ha _ hnow hle hc
    have hx : choose pollMask a now activity (run pollMask events).owner = .ok none
        (outcome (choose pollMask a now activity) (run pollMask events).owner).2 :=
      outcome_ok_iff.mp (Prod.ext hc rfl)
    exact unload_iff h.sound hactive ha hs hu (Nat.le_trans hnow hle) hx

/-- A page is attached and polled; the firmware unload is asked for, and the polling is ended. -/
def endedPoll : List Event :=
  let accepted : Answers := { prepare := .done 7, arrival := .response true true 0 }
  [.demand 1 1, .choose accepted 2 {}, .begin accepted (.attach 7) 3 9, .poll accepted 3,
    .handoff accepted, .choose accepted 4 {}, .begin accepted (.poll 1 1000) 4 9, .poll accepted 5,
    .handoff accepted, .stopForFirmwareUnload {} 6, .choose accepted 7 {},
    .begin accepted (.poll 0 1000) 7 9, .poll accepted 8, .handoff accepted]

set_option maxRecDepth 4000 in
/-- The firmware holds the page, nothing is chosen any more, and the stop succeeds. -/
theorem unload_polled : (run 1 endedPoll).exposed = true ∧
    ((run 1 endedPoll).owner.backing.dma = true ∧ (run 1 endedPoll).owner.backing.reference = true) ∧
    (outcome (stopForFirmwareUnload {} 10)
      (outcome (choose 1 {} 9 {}) (run 1 endedPoll).owner).2).1 = .ok true := by
  have hexposed : (run 1 endedPoll).exposed = true := by decide
  have hnone : (outcome (choose 1 {} 9 {}) (run 1 endedPoll).owner).1 = .ok none := rfl
  obtain ⟨hheld, -, -, -, hstop⟩ := unload_drains 1 endedPoll
  exact ⟨hexposed, hheld hexposed, (hstop {} {} 9 10 {} (by decide) (by decide) (by decide)
    ⟨rfl, rfl, rfl, rfl⟩ ⟨rfl, rfl, rfl, rfl⟩ (by decide) (by decide) hnone).mpr (by decide)⟩

/-- A page whose polling is on, and whose next poll request the firmware rejects. -/
def rejectedPoll : List Event :=
  let accepted : Answers := { prepare := .done 7, arrival := .response true true 0 }
  let refused : Answers := { arrival := .response true true 5 }
  [.demand 1 1, .choose accepted 2 {}, .begin accepted (.attach 7) 3 9, .poll accepted 3,
    .handoff accepted, .choose accepted 4 {}, .begin accepted (.poll 1 1000) 4 9, .poll accepted 5,
    .handoff accepted, .demand 6 2, .choose refused 7 {}, .begin refused (.poll 3 1000) 7 9,
    .poll refused 8, .handoff refused, .stopForFirmwareUnload {} 9]

set_option maxRecDepth 4000 in
/-- The rejected poll is never repeated, and the stop waits for the polling to end: nothing is chosen,
and the stop does not succeed. -/
theorem unload_wedged : ¬ ∀ (pollMask : Mask) (events : List Event) (a a' : Answers)
    (now now' : Nat) (activity : Activity),
    (run pollMask events).owner.stopping = true →
    (run pollMask events).owner.firmwareUnloading = true →
    (run pollMask events).owner.active = none → a.Working → a'.Working →
    (run pollMask events).owner.performance.acceptedUntil ≤ now → now ≤ now' →
    (outcome (choose pollMask a now activity) (run pollMask events).owner).1 = .ok none →
    (outcome (stopForFirmwareUnload a' now')
      (outcome (choose pollMask a now activity) (run pollMask events).owner).2).1 = .ok true := by
  intro h
  have hnone : (outcome (choose 3 {} 10 {}) (run 3 rejectedPoll).owner).1 = .ok none := rfl
  have hs := h 3 rejectedPoll {} {} 10 11 {} (by decide) (by decide) (by decide)
    ⟨rfl, rfl, rfl, rfl⟩ ⟨rfl, rfl, rfl, rfl⟩ (by decide) (by decide) hnone
  have hn : (outcome (stopForFirmwareUnload {} 11)
      (outcome (choose 3 {} 10 {}) (run 3 rejectedPoll).owner).2).1 = .ok false := rfl
  rw [hn] at hs
  cases hs

end Power
end NvidiaGsp
