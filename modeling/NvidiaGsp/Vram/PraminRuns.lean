import NvidiaGsp.Vram.PraminSpec

/-!
# Vram.PraminRuns

Whole runs of a capture: any calls of `step` and `restore`, on any port.
-/

namespace NvidiaGsp
namespace Pramin

open Call

variable {port : Port} {s s' : State} {c : Capture} {options : Options} {me output length deadline : Nat}
  {byStep : Bool} {events : List Event} {e : Error}

/-- A range that `init` accepts. -/
structure Options.Fits (options : Options) : Prop where
  aligned : options.range.address % 2 ^ 16 = 0
  below : options.range.address < 2 ^ 40
  words : options.range.bytes % 4 = 0

theorem init_fits (h : init options = .ok c) : options.Fits ∧ c = { options := options } := by
  unfold init at h
  dsimp only at h
  split at h
  · cases h
  split at h
  · cases h
  rename_i hr
  simp only [not_or, Decidable.not_not, ne_eq] at hr
  obtain ⟨-, -, -, -, -, haddr, hlt, -, -, hwords, -⟩ := hr
  exact ⟨⟨by omega, by omega, hwords⟩, (Except.ok.inj h).symm⟩

/-- What holds between two calls. -/
structure Inv (options : Options) (s : State) : Prop where
  held : Held options s
  going : s.capture.failure = none → Going options s.capture.phase s

theorem inv_init {memory : Memory} :
    Inv options { capture := { options := options }, output := memory } where
  held := {
    given := rfl
    lawful := trivial
    fresh := fun _ => rfl
    begun := fun h => absurd rfl h
    selects := fun _ h => nomatch h
    returns := fun _ h => nomatch h
    done := fun h => nomatch h }
  going := fun _ => {
    unselected := fun _ _ h => nomatch h
    unreturned := fun _ _ h => nomatch h
    words := rfl
    within := Nat.zero_le _
    early := fun _ => rfl
    whole := fun h => absurd h (Nat.not_succ_le_zero 3)
    data := fun _ _ i h => absurd h (Nat.not_lt_zero i) }

theorem perform_spec (hf : options.Fits) (hh : Held options s) (hg : Going options s.capture.phase s) :
    Spec (perform port me) s (fun _ s' => Held options s' ∧ Going options s'.capture.phase s')
      fun _ s' => Held options s' := by
  refine .get_bind ?_
  cases hp : s.capture.phase with
  | observe => exact observe_spec hh (hp ▸ hg) hp
  | retain =>
    refine .seq retain_spec (fun _ s₁ h₁ => ?_) fun _ _ h => hh.looked h
    have hp₁ : s₁.capture.phase = .retain := by
      obtain ⟨⟨now, hc⟩, -⟩ := h₁
      rw [hc]
      exact hp
    have hg₁ : Going options .select s₁ := ((hp ▸ hg : Going options .retain s).looked h₁).move
      (fun _ => by decide) (by decide) (fun h => absurd h (by decide))
    exact ⟨(hh.looked h₁).move (by rw [hp₁]; decide) (by decide) (by decide),
      hg₁.update (f := fun c => { c with phase := .select }) rfl rfl rfl⟩
  | select => exact select_spec hh (hp ▸ hg) hp
  | copy => exact copy_spec hh (hp ▸ hg) hp hf.aligned hf.below hf.words
  | restore =>
    have hg' : Going options .restore s := hp ▸ hg
    have hn : Unreturned true s := fun _ => hg'.unreturned (by decide)
    refine .seq (restore_spec hh hn) (fun _ s₁ h₁ => ?_) fun _ _ h => h.1
    obtain ⟨hh₁, hk, hr⟩ := h₁
    have hp₁ : s₁.capture.phase = .restore := by
      obtain ⟨⟨now, r, hc⟩, -⟩ := hk
      rw [hc]
      exact hp
    obtain ⟨o, ho, hsel⟩ := hh₁.begun (by rw [hp₁]; decide)
    obtain ⟨after, before, heq, hout⟩ := hr o ho
    refine ⟨⟨hh₁.given, hh₁.lawful, (fun h => nomatch h), fun _ => ⟨o, ho, hsel⟩, hh₁.selects, hh₁.returns,
      fun _ => ⟨o, after, before, ho, heq, hout⟩⟩, ?_⟩
    exact (hg'.finish hk).update (f := fun c => { c with phase := .done }) rfl rfl rfl
  | done =>
    rw [hp] at hg
    refine ⟨hh, ?_⟩
    rw [hp]
    exact hg

theorem advance_spec (hf : options.Fits) (hh : Held options s)
    (hg : Going options s.capture.phase s) :
    Spec (advance port me output length) s
      (fun done s' => Held options s' ∧ Going options s'.capture.phase s' ∧
        (done = true → s'.capture.phase = .done))
      fun _ s' => Held options s' := by
  have hphase : ∀ {s s' : State}, Looked s s' → Going options s.capture.phase s →
      Going options s'.capture.phase s' := by
    intro s s' hl hg
    have hp : s'.capture.phase = s.capture.phase := by
      obtain ⟨⟨now, hc⟩, -⟩ := hl
      rw [hc]
    rw [hp]
    exact hg.looked hl
  refine .modify_bind ?_
  refine .get_bind ?_
  generalize hs₀ : ({ s with capture := if s.capture.selfAddress = 0 then
      { s.capture with selfAddress := me, outputAddress := output } else s.capture } : State) = s₀
  have hboth : Held options s₀ ∧ Going options s₀.capture.phase s₀ := by
    rw [← hs₀]
    split
    · exact ⟨⟨hh.given, hh.lawful, hh.fresh, hh.begun, hh.selects, hh.returns, hh.done⟩,
        hg.update (f := fun c => { c with selfAddress := me, outputAddress := output }) rfl rfl rfl⟩
    · exact ⟨hh, hg⟩
  obtain ⟨hh₀, hg₀⟩ := hboth
  refine .failIf_bind (fun _ => hh₀) fun _ => ?_
  refine .seq guard_spec (fun _ s₁ h₁ => ?_) fun _ _ h => hh₀.looked h
  refine .seq (perform_spec hf (hh₀.looked h₁) (hphase h₁ hg₀)) (fun _ s₂ h₂ => ?_) fun _ _ h => h
  refine .seq guard_spec (fun _ s₃ h₃ => ?_) fun _ _ h => h₂.1.looked h
  exact .get_bind ⟨h₂.1.looked h₃, hphase h₃ h₂.2, fun h => by simpa using h⟩

/-- A capture that has failed makes no access in `step`. -/
theorem step_failed (hf : s.capture.failure = some e) :
    step port me output length s = .error e s := by
  unfold step
  simp only [Call.bind_apply, Call.get_apply, hf]
  rfl

theorem step_spec (hf : options.Fits) (hi : Inv options s) :
    Spec (step port me output length) s
      (fun done s' => Inv options s' ∧ (done = true → Going options .done s' ∧ s'.capture.phase = .done))
      fun _ s' => Inv options s' := by
  cases hfail : s.capture.failure with
  | some e =>
    unfold Spec
    rw [step_failed hfail]
    exact hi
  | none =>
    refine .get_bind ?_
    rw [hfail]
    refine .marking ((advance_spec hf hi.held (hi.going hfail)).mono (fun done s' h => ?_) fun _ s' h => ?_)
    · obtain ⟨hh, hg, hd⟩ := h
      refine ⟨⟨hh, fun _ => hg⟩, fun hdone => ?_⟩
      have hp := hd hdone
      exact ⟨hp ▸ hg, hp⟩
    · exact ⟨⟨h.given, h.lawful, h.fresh, h.begun, h.selects, h.returns, h.done⟩, fun hn => nomatch hn⟩

theorem act_inv (hf : options.Fits) (hi : Inv options s) (op : Op) : Inv options (act port s op) := by
  cases op with
  | step me output length =>
    refine Spec.outcome (P := fun _ s' => Inv options s') ?_
    exact (step_spec hf hi).mono (fun _ _ h => h.1) fun _ _ h => h
  | restore me deadline =>
    refine Spec.outcome (P := fun _ s' => Inv options s') ?_
    have hn : Unreturned false s := fun h => nomatch h
    have hkept : ∀ s', Held options s' → Kept false s s' → Inv options s' := by
      intro s' hh hk
      refine ⟨hh, fun hfail => ?_⟩
      obtain ⟨⟨now, r, hc⟩, -⟩ := id hk
      rw [hc] at hfail ⊢
      exact (hi.going hfail).kept hk
    exact (restore_spec hi.held hn).mono (fun _ s' h => hkept s' h.1 h.2.1) fun _ s' h => hkept s' h.1 h.2

theorem run_inv (hf : options.Fits) (hi : Inv options s) (ops : List Op) :
    Inv options (run port s ops) := by
  induction ops generalizing s with
  | nil => exact hi
  | cons op rest ih => exact ih (act_inv hf hi op)

/-! ## What the events show -/

theorem Lawful.write {o : Option Word} {w value : Word} {offset : Nat} {after before : List Event}
    (h : Lawful o w events) (heq : events = after ++ .write byStep offset value :: before) :
    offset = windowRegister ∧ ∃ v, o = some v ∧ v ≠ w ∧
      ((byStep = true ∧ value = w ∧ before.head? = some (.read windowRegister (some v))) ∨
        (value = v ∧ before.head? = some (.read windowRegister (some w)))) := by
  subst heq
  induction after with
  | nil => exact h.1
  | cons e rest ih =>
    cases e with
    | read offset value => exact ih h
    | write byStep offset value => exact ih h.2
    | retain => exact ih h

/-- A value that is neither the original nor the selected one is never written. -/
theorem Lawful.unwritten {o : Option Word} {w v : Word} (h : Lawful o w events)
    (hv : (∃ u, o = some u ∧ u ≠ w) → v ≠ w ∧ o ≠ some v) : stepWrites v events = 0 := by
  refine List.countP_eq_zero.mpr fun e he heq => ?_
  rw [of_decide_eq_true heq] at he
  obtain ⟨after, before, hsplit⟩ := List.append_of_mem he
  obtain ⟨-, u, hu, hne, hcase⟩ := h.write hsplit
  obtain ⟨hw, ho⟩ := hv ⟨u, hu, hne⟩
  rcases hcase with ⟨-, hval, -⟩ | ⟨hval, -⟩
  · exact hw hval
  · exact ho (hval ▸ hu)

theorem Held.once (h : Held options s) (v : Word) : stepWrites v s.events ≤ 1 := by
  by_cases hv : (∃ u, s.capture.original = some u ∧ u ≠ s.capture.selected) →
      v ≠ s.capture.selected ∧ s.capture.original ≠ some v
  · rw [h.lawful.unwritten hv]
    exact Nat.zero_le _
  · simp only [Classical.not_imp, not_and_or, Decidable.not_not, ne_eq] at hv
    obtain ⟨⟨u, hu, hne⟩, hcase⟩ := hv
    by_cases hw : v = s.capture.selected
    · rw [hw]
      exact h.selects u hu hne
    · have ho : s.capture.original = some v := by tauto
      obtain rfl : u = v := Option.some.inj (hu.symm.trans ho)
      exact h.returns u hu hne

def Event.copies : Event → Bool
  | .read offset _ => decide (aperture ≤ offset)
  | _ => false

/-- An aperture reading found the bytes the window value shows. -/
def Event.finds (vram : Nat → Byte) (w : Word) : Event → Bool
  | .read offset (some v) => (List.range 4).all fun k =>
      (Bytes.le32 v).getD k 0 == vram (windowBase w + (offset - aperture) + k)
  | _ => true

/-- The aperture readings right before a reading of the window found what that value shows. -/
def finding (vram : Nat → Byte) : List Event → Bool
  | .read offset (some w) :: before => (offset != windowRegister ||
      (before.takeWhile Event.copies).all (Event.finds vram w)) && finding vram before
  | _ :: before => finding vram before
  | [] => true

theorem finding_tail {vram : Nat → Byte} {e : Event} (h : finding vram (e :: events) = true) :
    finding vram events = true := by
  unfold finding at h
  split at h
  · rename_i heq
    cases heq
    exact (Bool.and_eq_true_iff.mp h).2
  · rename_i heq
    cases heq
    exact h
  · rename_i heq
    cases heq

theorem shows_finding {vram : Nat → Byte} (h : finding vram events = true) : Shows vram events := by
  intro after w mid before heq hmid o v hv k hk
  induction after generalizing events with
  | cons e after ih =>
    subst heq
    exact ih (finding_tail h) rfl
  | nil =>
    subst heq
    have hcopies : ∀ e ∈ mid, Event.copies e = true := by
      intro e he
      obtain ⟨o, v, rfl⟩ := hmid e he
      exact decide_eq_true (Nat.le_add_right _ _)
    rw [List.nil_append, finding, Bool.and_eq_true_iff, List.takeWhile_append_of_pos hcopies] at h
    have hall := h.1
    rw [Bool.or_eq_true_iff, List.all_append, Bool.and_eq_true_iff, List.all_eq_true] at hall
    rcases hall with hne | ⟨hfinds, -⟩
    · simp at hne
    · have hbyte := List.all_eq_true.mp (hfinds _ hv) k (List.mem_range.mpr hk)
      rw [beq_iff_eq, Nat.add_sub_cancel_left] at hbyte
      exact hbyte

/-- Eight bytes of a workspace at 0x10000. -/
def smallOptions : Options where
  epoch := 1
  deadline := 1000
  boot0 := 0x17200000
  boot1 := 0
  vga := 0x108
  range := { address := 0x10000, bytes := 8 }

/-- A VRAM whose bytes tell their address. -/
def smallVram (address : Nat) : Byte := BitVec.ofNat 8 (address / 0x10000 * 16 + address % 16)

/-- The window is 0, and 1 between the two writes of a run of five steps. -/
def quietWindow (tick : Nat) : Word := if 16 ≤ tick ∧ tick < 34 then 1 else 0

def quietPort : Port where
  generation := fun _ => 1
  now := fun tick => tick + 1
  retain := fun _ => true
  read := fun tick offset =>
    if offset = 0 then some 0x17200000
    else if offset = 4 then some 0
    else if offset = vgaRegister then some 0x108
    else if offset = windowRegister then some (quietWindow tick)
    else
      let address := windowBase (quietWindow tick) + (offset - aperture)
      some (smallVram (address + 3) ++ smallVram (address + 2) ++ smallVram (address + 1) ++ smallVram address)
  write := fun _ => true

def smallState : State where
  capture := { options := smallOptions }
  output := fun _ => 0

/-- The state after the fifth step, which reports the end. -/
def smallEnd : Except Error Bool × State :=
  outcome (step quietPort 1 2 8) (run quietPort smallState (List.replicate 4 (.step 1 2 8)))

end Pramin
end NvidiaGsp
