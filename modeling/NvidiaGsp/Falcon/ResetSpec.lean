import NvidiaGsp.Falcon.Reset
import NvidiaGsp.Falcon.Upload

/-!
# Falcon.ResetSpec

A reset starts nothing, and one that is past its edges has asserted and released the engine's reset.
-/

namespace NvidiaGsp
namespace Falcon
namespace Reset

open Call

variable {port : Port} {s s' : State} {offset : Nat} {value : Word} {d d' : Device}
  {o : Operation} {h : Hardware}

/-- How far the reset is: before its first edge, between its edges, or behind both. -/
def Phase.edges : Phase → Nat
  | .preReset | .assertReset => 0
  | .propagateAssert | .releaseReset => 1
  | _ => 2

structure Inv (o : Operation) (d : Device) : Prop where
  engine : d.engine = o.resetEngine
  starts : d.starts = []
  asserted : 1 ≤ o.phase.edges → d.hardware.asserted = true
  released : 2 ≤ o.phase.edges → d.hardware.released = true

theorem Inv.quiet (hi : Inv o d) (hq : Quiet port d d') : Inv o d' := by
  obtain ⟨k, hk⟩ := hq.hardware
  exact ⟨hq.engine.trans hi.engine, hq.starts.trans hi.starts, by rw [hk]; exact hi.asserted,
    by rw [hk]; exact hi.released⟩

theorem reset_bit (v : Word) : (v ||| bits.reset) &&& bits.reset ≠ 0 := by
  intro hn
  have hbit := congrArg (fun w : Word => w.getLsbD 0) hn
  simp [bits.reset] at hbit

theorem reset_clear (v : Word) : (v &&& ~~~ bits.reset) &&& bits.reset = 0 := by
  rw [BitVec.and_assoc, show ~~~ bits.reset &&& bits.reset = 0#32 by decide, BitVec.and_zero]
  rfl

/-- A write that reaches neither the reset nor the CPU. -/
theorem Inv.plain (hi : Inv o d) (hp : Hs.Plain offset) (hn : ¬ Device.starting offset) :
    Inv o (d.land d.engine offset value) := by
  have he : d.hardware.write offset value = { d.hardware with
      registers := Function.update d.hardware.registers offset (some value) } := by
    unfold Hardware.write
    rw [Hs.effect_plain hp]
  rw [Hs.land_self hn, he]
  exact ⟨hi.engine, hi.starts, hi.asserted, hi.released⟩

theorem effect_engine : h.effect reg.engine value = h.resetting value := by
  unfold Hardware.effect
  rw [if_neg (by decide), if_neg (by decide), if_neg (by decide), if_neg (by decide),
    if_neg (by decide), if_pos rfl]

/-- The reset is asserted. -/
theorem Inv.assert {reads : Nat} (hi : Inv o d) (v : Word) :
    Inv { o with reads := reads, phase := .propagateAssert }
      (d.land d.engine reg.engine (v ||| bits.reset)) := by
  rw [Hs.land_self (by decide)]
  have he : (d.hardware.write reg.engine (v ||| bits.reset)).asserted = true := by
    unfold Hardware.write
    rw [effect_engine]
    unfold Hardware.resetting
    rw [if_pos (reset_bit v)]
  exact ⟨hi.engine, hi.starts, fun _ => he, fun h => by simp [Phase.edges] at h⟩

/-- The reset is released. -/
theorem Inv.release {reads : Nat} (hi : Inv o d) (ha : 1 ≤ o.phase.edges) (v : Word) :
    Inv { o with reads := reads, phase := .propagateRelease }
      (d.land d.engine reg.engine (v &&& ~~~ bits.reset)) := by
  rw [Hs.land_self (by decide)]
  have hasserted := hi.asserted ha
  have he : (d.hardware.write reg.engine (v &&& ~~~ bits.reset)).asserted = true ∧
      (d.hardware.write reg.engine (v &&& ~~~ bits.reset)).released = true := by
    unfold Hardware.write
    rw [effect_engine]
    unfold Hardware.resetting
    rw [if_neg (not_not_intro (reset_clear v))]
    exact ⟨hasserted, hasserted⟩
  exact ⟨hi.engine, hi.starts, fun _ => he.1, fun _ => he.2⟩

/-- The phase moves on, but not past an edge. -/
theorem Inv.move {next : Phase} (hi : Inv o d) (he : next.edges ≤ o.phase.edges) :
    Inv { o with phase := next } d :=
  ⟨hi.engine, hi.starts, fun h => hi.asserted (Nat.le_trans h he),
    fun h => hi.released (Nat.le_trans h he)⟩

/-! ## Accesses -/

/-- What an access leaves of the operation. -/
def Kept (s s' : State) : Prop := ∃ now attempted, s'.operation = { s.operation with
  lastClock := now, writeAttempted := attempted }

theorem Kept.refl (s : State) : Kept s s := ⟨_, _, rfl⟩

theorem Kept.trans {s₁ s₂ s₃ : State} (h : Kept s₁ s₂) (h' : Kept s₂ s₃) : Kept s₁ s₃ := by
  obtain ⟨now, attempted, hn⟩ := h
  obtain ⟨now', attempted', hn'⟩ := h'
  exact ⟨now', attempted', by rw [hn', hn]⟩

theorem Kept.phase (h : Kept s s') : s'.operation.phase = s.operation.phase := by
  obtain ⟨now, attempted, hn⟩ := h
  rw [hn]

theorem Kept.engine (h : Kept s s') : s'.operation.resetEngine = s.operation.resetEngine := by
  obtain ⟨now, attempted, hn⟩ := h
  rw [hn]

theorem Kept.inv (h : Kept s s') (hi : Inv s.operation s'.device) : Inv s'.operation s'.device := by
  obtain ⟨now, attempted, hn⟩ := h
  rw [hn]
  exact ⟨hi.engine, hi.starts, hi.asserted, hi.released⟩

theorem access_spec {α : Type} {x : Access α} {Q : α → Device → Prop} {E : Device → Prop}
    (hx : Spec x ⟨s.operation.epoch, s.operation.deadline, s.operation.lastClock, s.device⟩
      (fun v t => Q v t.device) fun _ t => E t.device) (hself : E s.device) :
    Spec (access x) s (fun v s' => Kept s s' ∧ Q v s'.device)
      fun _ s' => Kept s s' ∧ E s'.device := by
  refine .get_bind ?_
  refine .failIf_bind (fun _ => ⟨.refl s, hself⟩) fun _ => ?_
  refine .zoom ?_
  exact hx.mono (fun v t h => ⟨⟨_, _, rfl⟩, h⟩) fun _ t h => ⟨⟨_, _, rfl⟩, h⟩

theorem check_spec : Spec (access (check port)) s
    (fun _ s' => Kept s s' ∧ Quiet port s.device s'.device)
    fun _ s' => Kept s s' ∧ Quiet port s.device s'.device :=
  access_spec (Falcon.check_spec.mono (fun _ _ h => h.quiet) fun _ _ h => h.quiet) (.refl _)

theorem read_spec : Spec (read port offset) s
    (fun _ s' => Kept s s' ∧ Quiet port s.device s'.device)
    fun _ s' => Kept s s' ∧ Quiet port s.device s'.device := by
  refine .get_bind ?_
  exact access_spec (Q := fun _ d' => Quiet port s.device d') (E := fun d' => Quiet port s.device d')
    (readAt_spec.mono (fun _ _ h => h.1.quiet) fun _ _ h => h.quiet) (.refl _)

theorem write_spec (he : s.operation.resetEngine = s.device.engine) :
    Spec (write port offset value) s
      (fun _ s' => Kept s s' ∧ Landed port s.device s'.device offset value)
      fun _ s' => Kept s s' ∧
        (Quiet port s.device s'.device ∨ Landed port s.device s'.device offset value) := by
  refine .seq check_spec (fun _ s₁ h₁ => ?_) fun _ _ h => ⟨h.1, .inl h.2⟩
  refine .modify_bind ?_
  refine .get_bind ?_
  have hk : Kept s { s₁ with operation := { s₁.operation with writeAttempted := true } } :=
    h₁.1.trans ⟨_, _, rfl⟩
  refine (access_spec (s := { s₁ with operation := { s₁.operation with writeAttempted := true } })
    (Q := fun _ d' => Landed port s₁.device d' offset value)
    (E := fun d' => Quiet port s₁.device d' ∨ Landed port s₁.device d' offset value)
    ((put_spec ?_).mono (fun _ _ h => h.2.2) fun _ _ h => h) (.inl (.refl _))).mono
    (fun _ s₂ h₂ => ⟨hk.trans h₂.1, h₂.2.after h₁.2⟩) fun _ s₂ h₂ => ⟨hk.trans h₂.1, ?_⟩
  · exact h₁.1.engine.trans (he.trans h₁.2.engine.symm)
  · exact h₂.2.imp h₁.2.trans (Landed.after h₁.2)

/-! ## One step -/

/-- What a step keeps: the invariant and the engine, and its error leaves the CPU unstarted. -/
def Advanced (s s' : State) : Prop :=
  Inv s'.operation s'.device ∧ s'.operation.resetEngine = s.operation.resetEngine

def Broken (s s' : State) : Prop :=
  s'.device.starts = [] ∧ s'.operation.resetEngine = s.operation.resetEngine

theorem broken_quiet (hi : Inv s.operation s.device)
    (h : Kept s s' ∧ Quiet port s.device s'.device) : Broken s s' :=
  ⟨(hi.quiet h.2).starts, h.1.engine⟩

theorem Advanced.after {s₁ : State} (h : Kept s s₁) (ha : Advanced s₁ s') : Advanced s s' :=
  ⟨ha.1, ha.2.trans h.engine⟩

theorem Broken.after {s₁ : State} (h : Kept s s₁) (hb : Broken s₁ s') : Broken s s' :=
  ⟨hb.1, hb.2.trans h.engine⟩

/-- A write, and what the operation becomes behind it. -/
theorem write_phase {f : Operation → Operation} (hi : Inv s.operation s.device)
    (hland : ∀ d, Inv s.operation d → Inv (f s.operation) (d.land d.engine offset value))
    (hkept : ∀ o now attempted d, Inv (f o) d →
      Inv (f { o with lastClock := now, writeAttempted := attempted }) d)
    (hengine : ∀ o, (f o).resetEngine = o.resetEngine) :
    Spec (do
      write port offset value
      modify fun s => { s with operation := f s.operation }) s
      (fun _ s' => Advanced s s') fun _ s' => Broken s s' := by
  have hl {d' : Device} (h : Landed port s.device d' offset value) : Inv (f s.operation) d' := by
    obtain ⟨d₁, d₂, hq, rfl, hq'⟩ := h
    exact (hland d₁ (hi.quiet hq)).quiet hq'
  refine .seq (write_spec hi.engine.symm) (fun _ s₁ h₁ => ?_) fun _ s₁ h₁ => ?_
  · obtain ⟨now, attempted, hn⟩ := h₁.1
    refine ⟨?_, ?_⟩
    · show Inv (f s₁.operation) s₁.device
      rw [hn]
      exact hkept _ _ _ _ (hl h₁.2)
    · show (f s₁.operation).resetEngine = _
      rw [hengine, h₁.1.engine]
  · refine ⟨?_, h₁.1.engine⟩
    rcases h₁.2 with hq | hland'
    · exact (hi.quiet hq).starts
    · exact (hl hland').starts

/-- The phase moves on behind a write that reaches neither the reset nor the CPU. -/
theorem write_plain {next : Phase} (hi : Inv s.operation s.device) (hp : Hs.Plain offset)
    (hn : ¬ Device.starting offset) (he : next.edges ≤ s.operation.phase.edges) :
    Spec (do
      write port offset value
      setPhase next) s (fun _ s' => Advanced s s') fun _ s' => Broken s s' :=
  write_phase (f := fun o => { o with phase := next }) hi (fun _ hd => (hd.plain hp hn).move he)
    (fun _ _ _ _ h => ⟨h.engine, h.starts, h.asserted, h.released⟩) fun _ => rfl

theorem Inv.advanced {next : Phase} (hi : Inv s.operation s.device) (hk : Kept s s')
    (hq : Quiet port s.device s'.device) (he : next.edges ≤ s.operation.phase.edges) :
    Advanced s { s' with operation := { s'.operation with phase := next } } :=
  ⟨(hk.inv (hi.quiet hq)).move (by rw [hk.phase]; exact he), hk.engine⟩

theorem Inv.stayed (hi : Inv s.operation s.device) (hk : Kept s s')
    (hq : Quiet port s.device s'.device) : Advanced s s' :=
  ⟨hk.inv (hi.quiet hq), hk.engine⟩

theorem propagate_spec {next : Phase} (hi : Inv s.operation s.device)
    (he : next.edges ≤ s.operation.phase.edges) :
    Spec (propagate port next) s (fun _ s' => Advanced s s') fun _ s' => Broken s s' := by
  refine .seq read_spec (fun _ s₁ h₁ => ?_) fun _ s₁ h₁ => broken_quiet hi h₁
  have hi₁ := h₁.1.inv (hi.quiet h₁.2)
  have hreads (n : Nat) : Inv { s₁.operation with reads := n } s₁.device :=
    ⟨hi₁.engine, hi₁.starts, hi₁.asserted, hi₁.released⟩
  refine .modify_bind ?_
  refine .get_bind ?_
  split
  · exact ⟨(hreads _).move (by rw [← h₁.1.phase] at he; exact he), h₁.1.engine⟩
  · exact ⟨hreads _, h₁.1.engine⟩

theorem edge_spec {next : Phase} {f : Word → Word} (hi : Inv s.operation s.device)
    (hland : ∀ o d v, o.phase = s.operation.phase → Inv o d →
      Inv { o with reads := 0, phase := next } (d.land d.engine reg.engine (f v))) :
    Spec (edge port f next) s (fun _ s' => Advanced s s') fun _ s' => Broken s s' := by
  refine .seq read_spec (fun value s₁ h₁ => ?_) fun _ s₁ h₁ => broken_quiet hi h₁
  have hi₁ := h₁.1.inv (hi.quiet h₁.2)
  exact (write_phase (f := fun o => { o with reads := 0, phase := next }) hi₁
    (fun d hd => hland _ d value h₁.1.phase hd)
    (fun _ _ _ _ h => ⟨h.engine, h.starts, h.asserted, h.released⟩) fun _ => rfl).mono
    (fun _ _ h => h.after h₁.1) fun _ _ h => h.after h₁.1

/-- The reset is asserted once the engine is ready for it, or the hint has passed. -/
theorem ready_spec (hi : Inv s.operation s.device) :
    Spec (do
      let value ← read port reg.hwcfg2
      let s ← get
      if value &&& resetReady ≠ 0 ∨ s.operation.hintDeadline.all (· ≤ s.operation.lastClock) then
        setPhase .assertReset
      else pure ()) s (fun _ s' => Advanced s s') fun _ s' => Broken s s' := by
  refine .seq read_spec (fun value s₁ h₁ => ?_) fun _ s₁ h₁ => broken_quiet hi h₁
  refine .get_bind ?_
  split
  · exact hi.advanced h₁.1 h₁.2 (Nat.zero_le _)
  · exact hi.stayed h₁.1 h₁.2

theorem perform_spec (hi : Inv s.operation s.device) :
    Spec (perform port) s (fun _ s' => Advanced s s') fun _ s' => Broken s s' := by
  refine .get_bind ?_
  cases hp : s.operation.phase with
  | preReset =>
    exact .modify_bind (ready_spec ⟨hi.engine, hi.starts, hi.asserted, hi.released⟩)
  | assertReset => exact edge_spec hi fun o d v _ hd => hd.assert v
  | propagateAssert => exact propagate_spec hi (by rw [hp]; decide)
  | releaseReset =>
    exact edge_spec hi fun o d v ho hd => hd.release (by rw [ho, hp]; decide) v
  | propagateRelease => exact propagate_spec hi (by rw [hp]; decide)
  | scrub =>
    refine .seq read_spec (fun value s₁ h₁ => ?_) fun _ s₁ h₁ => broken_quiet hi h₁
    split
    · exact hi.advanced h₁.1 h₁.2 (by rw [hp]; decide)
    · exact hi.stayed h₁.1 h₁.2
  | selectCore =>
    refine .seq read_spec (fun value s₁ h₁ => ?_) fun _ s₁ h₁ => broken_quiet hi h₁
    refine hi.advanced h₁.1 h₁.2 ?_
    rw [hp]
    split <;> decide
  | selectFalcon =>
    refine .seq read_spec (fun value s₁ h₁ => ?_) fun _ s₁ h₁ => broken_quiet hi h₁
    split
    · exact hi.advanced h₁.1 h₁.2 (by rw [hp]; decide)
    · have hi₁ := h₁.1.inv (hi.quiet h₁.2)
      refine .modify_bind ?_
      refine (write_plain (s := { s₁ with operation := { s₁.operation with
        coreSwitchWritten := true } }) ⟨hi₁.engine, hi₁.starts, hi₁.asserted, hi₁.released⟩
        (by decide) (by decide) ?_).mono (fun _ _ h => ⟨h.1, h.2.trans h₁.1.engine⟩)
        fun _ _ h => ⟨h.1, h.2.trans h₁.1.engine⟩
      show Phase.edges .waitFalcon ≤ s₁.operation.phase.edges
      rw [h₁.1.phase, hp]
      decide
  | waitFalcon =>
    refine .seq read_spec (fun value s₁ h₁ => ?_) fun _ s₁ h₁ => broken_quiet hi h₁
    split
    · exact hi.advanced h₁.1 h₁.2 (by rw [hp]; decide)
    · exact hi.stayed h₁.1 h₁.2
  | rm => exact write_plain hi (by decide) (by decide) (by rw [hp]; decide)
  | fbif =>
    refine .seq read_spec (fun value s₁ h₁ => ?_) fun _ s₁ h₁ => broken_quiet hi h₁
    refine (write_plain (h₁.1.inv (hi.quiet h₁.2)) (by decide) (by decide)
      (by rw [h₁.1.phase, hp]; decide)).mono (fun _ _ h => h.after h₁.1) fun _ _ h => h.after h₁.1
  | dmactl => exact write_plain hi (by decide) (by decide) (by rw [hp]; decide)
  | complete => exact ⟨hi, rfl⟩

theorem advance_spec (hi : Inv s.operation s.device) :
    Spec (advance port) s
      (fun r s' => Advanced s s' ∧ (r = true → s'.operation.phase = .complete))
      fun _ s' => Broken s s' := by
  refine .seq check_spec (fun _ s₁ h₁ => ?_) fun _ s₁ h₁ => broken_quiet hi h₁
  refine .seq (perform_spec (h₁.1.inv (hi.quiet h₁.2))) (fun _ s₂ h₂ => ?_)
    fun _ _ h => h.after h₁.1
  have ha := h₂.after h₁.1
  refine .seq check_spec (fun _ s₃ h₃ => ?_) fun _ s₃ h₃ => ?_
  · refine .get_bind ?_
    exact ⟨⟨h₃.1.inv (ha.1.quiet h₃.2), h₃.1.engine.trans ha.2⟩, fun hr => by simpa using hr⟩
  · exact ⟨(ha.1.quiet h₃.2).starts, h₃.1.engine.trans ha.2⟩

/-- Every step keeps the invariant, or fails and leaves the CPU unstarted. -/
theorem step_spec (hi : Inv s.operation s.device) :
    Spec (step port) s
      (fun r s' => Advanced s s' ∧ (r = true → s'.operation.phase = .complete))
      fun _ s' => Broken s s' := by
  refine .get_bind ?_
  refine .failIf_bind (fun _ => ⟨hi.starts, rfl⟩) fun _ => ?_
  split
  · rename_i hc
    exact ⟨⟨hi, rfl⟩, fun _ => hc⟩
  · exact recording_spec (advance_spec hi)

end Reset
end Falcon
end NvidiaGsp
