import NvidiaGsp.Power.PollSpec

/-!
# Power.OwnerRuns

Whole runs of the owner: the page stays while the firmware may hold it, one control is out and one
boost waits at most, and a firmware unload drains exactly when no boost waits and no rejected poll
keeps the polling on.
-/

namespace NvidiaGsp
namespace Power

open Call

variable {o o' : Owner} {w : World} {a : Answers} {now : Nat} {pollMask : Mask}

/-! ## Every event keeps the invariant -/

theorem Inv.call {α : Type} {x : Step α} (h : Inv w)
    (hx : Spec x w.owner (fun _ o' => Still w.owner o') fun _ o' => Still w.owner o') :
    Inv (w.call x) := by
  have hs : Still w.owner (outcome x w.owner).2 :=
    Spec.outcome (P := fun _ o' => Still w.owner o') hx
  exact h.apart hs.toApart hs.performance

theorem Chosen.inv {chosen : Option Operation} (h : Inv w) (hc : Chosen w.owner o' chosen) :
    Inv { w with
      owner := o'
      requests := if chosen.any Operation.boosts then w.requests + 1 else w.requests } := by
  obtain ⟨request, ha, hb⟩ := hc.asked
  refine ⟨h.sound.apart hc.toApart, h.exposed.trans hc.possiblyAttached.symm, ?_, ?_,
    h.accepted.asked ha⟩
  · show w.outstanding = if o'.active.isSome then 1 else 0
    rw [h.outstanding, hc.active]
  · show (if chosen.any Operation.boosts then w.requests + 1 else w.requests) =
      if o'.performance.pending.isSome then 1 else 0
    rw [hb, h.requests, ha.pending]
    cases request with
    | none => rfl
    | some request => rw [ha.free (by simp)]; rfl

theorem Inv.released (h : Inv w) (hr : w.owner.Released o') (hactive : w.owner.active = some .idle)
    (hdone : w.owner.attaching = true → w.owner.started = false)
    (hp : o'.performance = w.owner.performance) :
    Inv { w with owner := o', outstanding := w.outstanding - 1 } where
  sound := h.sound.released hr hactive hdone
  exposed := h.exposed.trans hr.2.2.2.2.2.1.symm
  outstanding := by
    show w.outstanding - 1 = if o'.active.isSome then 1 else 0
    rw [outstanding_released h (by rw [hactive]; simp), hr.1]
    rfl
  requests := by
    show w.requests = if o'.performance.pending.isSome then 1 else 0
    rw [h.requests, hp]
  accepted := by
    show Accepted o'.performance w.lastBoost
    rw [hp]
    exact h.accepted

/-- What each event keeps. -/
theorem Inv.act (h : Inv w) (event : Event) : Inv (act pollMask w event) := by
  cases event with
  | demand now mask => exact stays_demand.inv h
  | observeActivity now activity => exact stays_observeActivity.inv h
  | exchangeCommon mask limit timing => exact stays_exchangeCommon.inv h
  | deviceLost => exact stays_deviceLost.inv h
  | sample a now => exact stays_sample.inv h
  | stop a now => exact h.call (stop_spec h.sound)
  | stopForFirmwareUnload a now => exact h.call (stopForFirmwareUnload_spec h.sound)
  | choose a now activity =>
    have hs : Spec (choose pollMask a now activity) w.owner _ _ := choose_spec h.sound
    cases hx : choose pollMask a now activity w.owner with
    | ok r o' =>
      have hc := (hs.ok hx).inv h
      simp only [Power.act, outcome_ok_iff.2 hx]
      cases r with
      | none => exact hc
      | some operation => exact hc
    | error e o' =>
      simp only [Power.act, outcome_error_iff.2 hx]
      exact (hs.error hx).inv h
  | begin a operation now deadline =>
    have hs : Spec («begin» a operation now deadline) w.owner _ _ := begin_spec
    cases hx : «begin» a operation now deadline w.owner with
    | ok r o' =>
      simp only [Power.act, outcome_ok_iff.2 hx]
      exact (hs.ok hx).inv h
    | error e o' =>
      simp only [Power.act, outcome_error_iff.2 hx]
      exact h.apart (hs.error hx).toApart (hs.error hx).performance
  | poll a now =>
    exact Spec.outcome (P := fun _ o' => Inv (w.polled now o')) (poll_spec h)
  | cancelUnstarted a =>
    have hs := cancelUnstarted_spec (o := w.owner) (a := a)
    cases hx : cancelUnstarted a w.owner with
    | ok r o' =>
      obtain ⟨hr, hactive, hst, operation, hop, hsame, hboost⟩ := hs.ok hx
      simp only [Power.act, outcome_ok_iff.2 hx]
      cases hb : operation.boosts with
      | false =>
        simpa [hop, hb] using h.released hr hactive (fun _ => hst) (hsame hb)
      | true =>
        obtain ⟨hpend, hperf⟩ := hboost hb
        refine ⟨h.sound.released hr hactive fun _ => hst,
          h.exposed.trans hr.2.2.2.2.2.1.symm, ?_, ?_, ?_⟩
        · show w.outstanding - 1 = if o'.active.isSome then 1 else 0
          rw [outstanding_released h (by rw [hactive]; simp), hr.1]
          rfl
        · show (if w.owner.operation.any Operation.boosts then w.requests - 1 else w.requests) =
            if o'.performance.pending.isSome then 1 else 0
          rw [hop, h.requests, if_pos (Option.isSome_iff_ne_none.mpr hpend), hperf]
          simp [hb]
        · show Accepted o'.performance w.lastBoost
          rw [hperf]
          exact h.accepted
    | error e o' =>
      simp only [Power.act, outcome_error_iff.2 hx]
      rcases hs.error hx with rfl | hstopped
      · exact h
      · exact h.stopped hstopped
  | handoff a =>
    have hs := handoff_spec (o := w.owner) (a := a)
    cases hx : handoff a w.owner with
    | ok r o' =>
      obtain ⟨hr, hp, hactive, hc⟩ := hs.ok hx
      simp only [Power.act, outcome_ok_iff.2 hx]
      exact h.released hr hactive (fun hat => by simp [Owner.attaching, hc] at hat) hp
    | error e o' =>
      simp only [Power.act, outcome_error_iff.2 hx]
      rcases hs.error hx with rfl | hstopped
      · exact h
      · exact h.stopped hstopped

theorem Inv.zero : Inv {} where
  sound :=
    { storage := .zero
      idle := fun _ => ⟨rfl, rfl, rfl⟩
      busy := fun hn => absurd rfl hn
      retained := rfl
      attached := id
      published := fun hn => (by cases hn)
      sent := fun hn => (by cases hn)
      attaching := fun hn => (by cases hn)
      held := fun hn => (by cases hn)
      boost := fun _ _ hn => (by cases hn) }
  exposed := rfl
  outstanding := rfl
  requests := rfl
  accepted := rfl

/-- The invariant holds in every reached state. -/
theorem Inv.run (events : List Event) : Inv (run pollMask events) := by
  unfold Power.run
  suffices h : ∀ w : World, Inv w → Inv (events.foldl (Power.act pollMask) w) from h {} .zero
  induction events with
  | nil => exact fun _ h => h
  | cons event events ih => exact fun w h => ih _ (h.act event)

end Power
end NvidiaGsp
