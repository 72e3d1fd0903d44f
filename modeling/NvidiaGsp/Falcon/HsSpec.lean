import NvidiaGsp.Falcon.Upload

/-!
# Falcon.HsSpec

Every step of an upload keeps its invariant, and a step that fails leaves the device safe: started at
most once, and only when it was ready.
-/

namespace NvidiaGsp
namespace Falcon
namespace Hs

open Call

variable {port : Port} {τ : Type} {s s' : State τ} {offset : Nat} {value : Word} {d : Device}
  {asks : Options → Call Error (Device × τ) Unit} {C : τ → τ → Prop}

/-- The device is not started, or was once, when it was ready. -/
def Safe (memory : Nat → Byte) (options : Options) (d : Device) : Prop :=
  d.starts = [] ∨ ∃ h, d.starts = [h] ∧ Ready memory options h

theorem Inv.safe {memory : Nat → Byte} {o : Operation} (hi : Inv memory o d) :
    Safe memory o.options d := by
  by_cases hr : o.phase.rank ≤ 19
  · exact .inl (hi.unstarted hr)
  · exact .inr (hi.started (by omega))

/-- What an access leaves of all but the device. -/
structure Kept (s s' : State τ) : Prop where
  operation : ∃ now, s'.operation = { s.operation with lastClock := now }
  caller : s'.caller = s.caller

theorem Kept.refl (s : State τ) : Kept s s := ⟨⟨_, rfl⟩, rfl⟩

theorem Kept.options (h : Kept s s') : s'.operation.options = s.operation.options := by
  obtain ⟨now, hn⟩ := h.operation
  rw [hn]

theorem Kept.phase (h : Kept s s') : s'.operation.phase = s.operation.phase := by
  obtain ⟨now, hn⟩ := h.operation
  rw [hn]

theorem Kept.inv (h : Kept s s') (hi : Inv port.memory s.operation s'.device) :
    Inv port.memory s'.operation s'.device := by
  obtain ⟨now, hn⟩ := h.operation
  rw [hn]
  exact hi.clock now

theorem access_spec {α : Type} {x : Access α} {Q : α → Device → Prop} {E : Device → Prop}
    (hx : Spec x ⟨s.operation.options.epoch, s.operation.options.deadline, s.operation.lastClock,
      s.device⟩ (fun v t => Q v t.device) fun _ t => E t.device) (hself : E s.device) :
    Spec (access x) s (fun v s' => Kept s s' ∧ Q v s'.device)
      fun _ s' => Kept s s' ∧ E s'.device := by
  refine .get_bind ?_
  refine .failIf_bind (fun _ => ⟨.refl s, hself⟩) fun _ => ?_
  refine .zoom ?_
  exact hx.mono (fun v t h => ⟨⟨⟨_, rfl⟩, rfl⟩, h⟩) fun _ t h => ⟨⟨⟨_, rfl⟩, rfl⟩, h⟩

theorem check_spec : Spec (access (τ := τ) (check port)) s
    (fun _ s' => Kept s s' ∧ Quiet port s.device s'.device)
    fun _ s' => Kept s s' ∧ Quiet port s.device s'.device :=
  access_spec (Falcon.check_spec.mono (fun _ _ h => h.quiet) fun _ _ h => h.quiet) (.refl _)

theorem read_spec {control : Bool} : Spec (read (τ := τ) port offset control) s
    (fun value s' => Kept s s' ∧ Quiet port s.device s'.device ∧
      Seen s'.device s.operation.options.engine offset value)
    fun _ s' => Kept s s' ∧ Quiet port s.device s'.device := by
  refine .get_bind ?_
  exact access_spec (Q := fun value d' => Quiet port s.device d' ∧
      Seen d' s.operation.options.engine offset value)
    (E := fun d' => Quiet port s.device d')
    (readAt_spec.mono (fun _ _ h => ⟨h.1.quiet, h.2⟩) fun _ _ h => h.quiet) (.refl _)

theorem write_spec (he : s.operation.options.engine = s.device.engine) :
    Spec (write (τ := τ) port offset value) s
      (fun _ s' => Kept s s' ∧ Landed port s.device s'.device offset value)
      fun _ s' => Kept s s' ∧
        (Quiet port s.device s'.device ∨ Landed port s.device s'.device offset value) := by
  refine .get_bind ?_
  exact access_spec (Q := fun _ d' => Landed port s.device d' offset value)
    (E := fun d' => Quiet port s.device d' ∨ Landed port s.device d' offset value)
    ((writeAt_spec he).mono (fun _ _ h => h.2.2) fun _ _ h => h) (.inl (.refl _))

/-! ## One phase -/

/-- What a phase promises that returns. -/
def Advanced (port : Port) (s s' : State τ) : Prop :=
  Inv port.memory s'.operation s'.device ∧ s'.operation.options = s.operation.options ∧
    s'.caller = s.caller

/-- What a phase promises that fails. -/
def Broken (port : Port) (s s' : State τ) : Prop :=
  Safe port.memory s.operation.options s'.device ∧
    s'.operation.options = s.operation.options ∧ s'.caller = s.caller

theorem broken_quiet (hi : Inv port.memory s.operation s.device)
    (h : Kept s s' ∧ Quiet port s.device s'.device) : Broken port s s' :=
  ⟨(hi.quiet h.2).safe, h.1.options, h.1.caller⟩

theorem Advanced.after {s₁ : State τ} (h : Kept s s₁) (ha : Advanced port s₁ s') :
    Advanced port s s' :=
  ⟨ha.1, ha.2.1.trans h.options, ha.2.2.trans h.caller⟩

theorem Broken.after {s₁ : State τ} (h : Kept s s₁) (hb : Broken port s₁ s') : Broken port s s' :=
  ⟨h.options ▸ hb.1, hb.2.1.trans h.options, hb.2.2.trans h.caller⟩

/-- A landed write carries the invariant to the operation behind it. -/
theorem landed_inv {o : Operation} {d' : Device} (hi : Inv port.memory s.operation d)
    (hland : ∀ d, Inv port.memory s.operation d → Inv port.memory o (d.land d.engine offset value))
    (h : Landed port d d' offset value) : Inv port.memory o d' := by
  obtain ⟨d₁, d₂, hq, rfl, hq'⟩ := h
  exact (hland d₁ (hi.quiet hq)).quiet hq'

/-- A write, and what the operation becomes behind it. -/
theorem write_phase {f : Operation → Operation} (hi : Inv port.memory s.operation s.device)
    (hland : ∀ d, Inv port.memory s.operation d →
      Inv port.memory (f s.operation) (d.land d.engine offset value))
    (hclock : ∀ o now, f { o with lastClock := now } = { f o with lastClock := now })
    (hoptions : ∀ o, (f o).options = o.options) :
    Spec (do
      write (τ := τ) port offset value
      modify fun s => { s with operation := f s.operation }) s
      (fun _ s' => Advanced port s s') fun _ s' => Broken port s s' := by
  refine .seq (write_spec hi.engine.symm) (fun _ s₁ h₁ => ?_) fun _ s₁ h₁ => ?_
  · obtain ⟨now, hn⟩ := h₁.1.operation
    refine ⟨?_, ?_, h₁.1.caller⟩
    · show Inv port.memory (f s₁.operation) s₁.device
      rw [hn, hclock]
      exact (landed_inv hi hland h₁.2).clock now
    · show (f s₁.operation).options = _
      rw [hoptions, h₁.1.options]
  · refine ⟨?_, h₁.1.options, h₁.1.caller⟩
    rcases h₁.2 with hq | hl
    · exact (hi.quiet hq).safe
    · exact hoptions s.operation ▸ (landed_inv hi hland hl).safe

theorem writing_spec {next : Phase} (hi : Inv port.memory s.operation s.device)
    (hland : ∀ d, Inv port.memory s.operation d →
      Inv port.memory { s.operation with phase := next } (d.land d.engine offset value)) :
    Spec (writing (τ := τ) port offset value next) s
      (fun _ s' => Advanced port s s') fun _ s' => Broken port s s' :=
  write_phase (f := fun o => { o with phase := next }) hi hland (fun _ _ => rfl) fun _ => rfl

/-- A sample, and what the operation becomes when it shows what is awaited. -/
theorem awaiting_spec {shown : Word → Bool} {f : Operation → Operation}
    (hi : Inv port.memory s.operation s.device)
    (hnext : ∀ value d, shown value = true → Seen d s.operation.options.engine offset value →
      Inv port.memory s.operation d → Inv port.memory (f s.operation) d)
    (hclock : ∀ o now, f { o with lastClock := now } = { f o with lastClock := now })
    (hoptions : ∀ o, (f o).options = o.options) :
    Spec (awaiting (τ := τ) port offset shown (modify fun s => { s with operation := f s.operation }))
      s (fun _ s' => Advanced port s s') fun _ s' => Broken port s s' := by
  refine .seq read_spec (fun value s₁ h₁ => ?_) fun _ s₁ h₁ => broken_quiet hi h₁
  obtain ⟨hk, hq, hseen⟩ := h₁
  have hi₁ := hi.quiet hq
  split
  · rename_i hs
    obtain ⟨now, hn⟩ := hk.operation
    refine ⟨?_, ?_, hk.caller⟩
    · show Inv port.memory (f s₁.operation) s₁.device
      rw [hn, hclock]
      exact (hnext value s₁.device hs hseen hi₁).clock now
    · show (f s₁.operation).options = _
      rw [hoptions, hk.options]
  · exact ⟨hk.inv hi₁, hk.options, hk.caller⟩

/-- A mailbox that is asked for is written, any other is skipped. -/
theorem mailing_spec {next : Phase} {word : Option Word} (hi : Inv port.memory s.operation s.device)
    (hsome : ∀ value d, word = some value → Inv port.memory s.operation d →
      Inv port.memory { s.operation with phase := next } (d.land d.engine offset value))
    (hnone : word = none → Inv port.memory { s.operation with phase := next } s.device) :
    Spec (mailing (τ := τ) port offset word next) s
      (fun _ s' => Advanced port s s') fun _ s' => Broken port s s' := by
  cases word with
  | some value => exact writing_spec hi fun d hd => hsome value d rfl hd
  | none => exact ⟨hnone rfl, rfl, rfl⟩

/-- The result of the upload grows by a mailbox behind the halt. -/
theorem collect_spec {next : Phase} {g : Word → Result → Result} {asked : Bool}
    (hi : Inv port.memory s.operation s.device) (hr : 21 ≤ s.operation.phase.rank)
    (hnext : 20 ≤ next.rank) (hg : ∀ value r, (g value r).blocks = r.blocks) :
    Spec (if asked then do
        let value ← read (τ := τ) port offset false
        modify fun s => { s with operation := { s.operation with
          result := g value s.operation.result
          phase := next } }
      else setPhase next) s
      (fun _ s' => Advanced port s s') fun _ s' => Broken port s s' := by
  have hh := hi.halted hr
  split
  · refine .seq read_spec (fun value s₁ h₁ => ?_) fun _ s₁ h₁ => broken_quiet hi h₁
    have hi₁ := h₁.1.inv (hi.quiet h₁.2.1)
    refine ⟨?_, h₁.1.options, h₁.1.caller⟩
    exact hi₁.finishing (by rw [h₁.1.phase]; omega) hnext (h₁.2.1.halted hh) (hg _ _)
  · exact ⟨hi.finishing (by omega) hnext hh rfl, rfl, rfl⟩

/-! ## One step -/

/-- What the caller's admission may do: nothing to the device, and to the caller only what `C` says. -/
def Admits (port : Port) (asks : Options → Call Error (Device × τ) Unit) (C : τ → τ → Prop) : Prop :=
  ∀ options x, Spec (asks options) x (fun _ x' => Quiet port x.1 x'.1 ∧ C x.2 x'.2)
    fun _ x' => Quiet port x.1 x'.1 ∧ C x.2 x'.2

theorem perform_spec (hasks : Admits port asks C) (hC : ∀ c, C c c)
    (hi : Inv port.memory s.operation s.device) :
    Spec (perform port asks) s
      (fun _ s' => Inv port.memory s'.operation s'.device ∧
        s'.operation.options = s.operation.options ∧ C s.caller s'.caller)
      fun _ s' => Safe port.memory s.operation.options s'.device ∧
        s'.operation.options = s.operation.options ∧ C s.caller s'.caller := by
  have hwrap {x : Step τ Unit} (hx : Spec x s (fun _ s' => Advanced port s s')
      fun _ s' => Broken port s s') : Spec x s
      (fun _ s' => Inv port.memory s'.operation s'.device ∧
        s'.operation.options = s.operation.options ∧ C s.caller s'.caller)
      fun _ s' => Safe port.memory s.operation.options s'.device ∧
        s'.operation.options = s.operation.options ∧ C s.caller s'.caller :=
    hx.mono (fun _ _ h => ⟨h.1, h.2.1, h.2.2 ▸ hC _⟩) fun _ _ h => ⟨h.1, h.2.1, h.2.2 ▸ hC _⟩
  refine .get_bind ?_
  dsimp only
  cases hp : s.operation.phase with
  | admission =>
    refine .lift_bind (fun _ _ => ⟨hi.safe, rfl, hC _⟩) fun _ _ => ?_
    refine .seq (Q := fun _ s₁ => s₁.operation = s.operation ∧ Quiet port s.device s₁.device ∧
        C s.caller s₁.caller)
      (F := fun _ s₁ => s₁.operation = s.operation ∧ Quiet port s.device s₁.device ∧
        C s.caller s₁.caller) ?_ (fun _ s₁ h₁ => ?_) fun _ s₁ h₁ => ?_
    · refine .zoom ?_
      exact (hasks _ _).mono (fun _ _ h => ⟨rfl, h⟩) fun _ _ h => ⟨rfl, h⟩
    · obtain ⟨ho, hq, hc⟩ := h₁
      refine ⟨?_, by rw [← ho], hc⟩
      show Inv port.memory { s₁.operation with phase := .fbifControl } s₁.device
      rw [ho]
      exact (hi.quiet hq).granted (by rw [hp]; rfl)
    · obtain ⟨ho, hq, hc⟩ := h₁
      exact ⟨(hi.quiet hq).safe, by rw [ho], hc⟩
  | fbifControl =>
    refine hwrap (.seq read_spec (fun value s₁ h₁ => ?_) fun _ s₁ h₁ => broken_quiet hi h₁)
    have hi₁ := h₁.1.inv (hi.quiet h₁.2.1)
    have hr : s₁.operation.phase = .fbifControl := h₁.1.phase.trans hp
    refine (writing_spec hi₁ fun d hd => ?_).mono (fun _ _ h => h.after h₁.1) fun _ _ h => h.after h₁.1
    exact hd.early (by decide) (by decide) (by rw [hr]; decide) (by rw [hr]; rfl)
  | dmaControl =>
    refine hwrap (writing_spec hi fun d hd => ?_)
    exact hd.early (by decide) (by decide) (by rw [hp]; decide) (by rw [hp]; rfl)
  | transcfg =>
    refine hwrap (.seq read_spec (fun value s₁ h₁ => ?_) fun _ s₁ h₁ => broken_quiet hi h₁)
    have hi₁ := h₁.1.inv (hi.quiet h₁.2.1)
    have hr : s₁.operation.phase = .transcfg := h₁.1.phase.trans hp
    refine (writing_spec hi₁ fun d hd => ?_).mono (fun _ _ h => h.after h₁.1) fun _ _ h => h.after h₁.1
    exact hd.early (by decide) (by decide) (by rw [hr]; decide) (by rw [hr]; rfl)
  | baseWait =>
    refine hwrap (awaiting_spec (f := fun o => { o with phase := .baseLow }) hi
      (fun value d _ _ hd => ?_) (fun _ _ => rfl) fun _ => rfl)
    exact hd.naming (by rw [hp]; decide) (by rw [hp]; decide) (by rw [hp]; rfl) rfl hd.released
      (fun h => by simp [Phase.rank] at h) (fun h => by simp [Phase.rank] at h)
      (fun h => by simp [Phase.rank] at h) fun h => by simp [Phase.rank] at h
  | baseLow =>
    refine hwrap (writing_spec hi fun d hd => ?_)
    rw [land_self (by decide)]
    exact hd.naming (by rw [hp]; decide) (by rw [hp]; decide) (by rw [hp]; rfl) rfl hd.released
      (fun _ => rfl) (fun h => by simp [Phase.rank] at h)
      (fun h => by simp [Phase.rank] at h) fun h => by simp [Phase.rank] at h
  | baseHigh =>
    refine hwrap (writing_spec hi fun d hd => ?_)
    rw [land_self (by decide)]
    exact hd.naming (by rw [hp]; decide) (by rw [hp]; decide) (by rw [hp]; rfl) rfl hd.released
      (fun _ => hd.low (by rw [hp]; decide) (by rw [hp]; decide)) (fun _ => rfl)
      (fun h => by simp [Phase.rank] at h) fun h => by simp [Phase.rank] at h
  | blockWait =>
    refine hwrap (awaiting_spec (f := fun o => { o with phase := .destination }) hi
      (fun value d _ _ hd => ?_) (fun _ _ => rfl) fun _ => rfl)
    exact hd.naming (by rw [hp]; decide) (by rw [hp]; decide) (by rw [hp]; rfl) rfl hd.released
      (fun _ => hd.low (by rw [hp]; decide) (by rw [hp]; decide))
      (fun _ => hd.high (by rw [hp]; decide) (by rw [hp]; decide))
      (fun h => by simp [Phase.rank] at h) fun h => by simp [Phase.rank] at h
  | destination =>
    refine hwrap (writing_spec hi fun d hd => ?_)
    rw [land_self (by decide)]
    exact hd.naming (by rw [hp]; decide) (by rw [hp]; decide) (by rw [hp]; rfl) rfl hd.released
      (fun _ => hd.low (by rw [hp]; decide) (by rw [hp]; decide))
      (fun _ => hd.high (by rw [hp]; decide) (by rw [hp]; decide))
      (fun _ => rfl) fun h => by simp [Phase.rank] at h
  | sourceOffset =>
    refine hwrap (writing_spec hi fun d hd => ?_)
    rw [land_self (by decide)]
    exact hd.naming (by rw [hp]; decide) (by rw [hp]; decide) (by rw [hp]; rfl) rfl hd.released
      (fun _ => hd.low (by rw [hp]; decide) (by rw [hp]; decide))
      (fun _ => hd.high (by rw [hp]; decide) (by rw [hp]; decide))
      (fun _ => hd.destination (by rw [hp]; decide) (by rw [hp]; decide)) fun _ => rfl
  | command =>
    exact hwrap (write_phase hi (fun d hd => hd.commanded (by rw [hp]; rfl)) (fun _ _ => rfl)
      fun _ => rfl)
  | idle =>
    refine hwrap (awaiting_spec hi (fun value d hs hseen hd => ?_) (fun o _ => ?_) fun o => ?_)
    · exact hd.parted (by rw [hp]; rfl) (hseen.idle hd.engine.symm rfl (by simpa using hs))
    · unfold Operation.advancePart
      cases o.part <;> rfl
    · unfold Operation.advancePart
      cases o.part <;> rfl
  | signature =>
    exact hwrap (writing_spec hi fun d hd => hd.parameterOf (by rw [hp]; exact .signature) (by rw [hp]; rfl))
  | engineMask =>
    exact hwrap (writing_spec hi fun d hd => hd.parameterOf (by rw [hp]; exact .engineMask) (by rw [hp]; rfl))
  | ucode =>
    exact hwrap (writing_spec hi fun d hd => hd.parameterOf (by rw [hp]; exact .ucode) (by rw [hp]; rfl))
  | algorithm =>
    exact hwrap (writing_spec hi fun d hd => hd.parameterOf (by rw [hp]; exact .algorithm) (by rw [hp]; rfl))
  | bootVector =>
    exact hwrap (writing_spec hi fun d hd => hd.parameterOf (by rw [hp]; exact .bootVector) (by rw [hp]; rfl))
  | mailbox0 =>
    refine hwrap (mailing_spec hi (fun value d hw hd => ?_) fun hw => ?_)
    · exact hd.parameterOf (by rw [hp]; exact .mailbox0 hw) (by rw [hp]; rfl)
    · refine hi.skip (by rw [hp]; decide) (by rw [hp]; decide) (by rw [hp]; rfl)
        fun phase _ _ hpar => ?_
      rw [hp]
      cases hpar with
      | mailbox0 h => simp [h] at hw
      | _ => decide
  | mailbox1 =>
    refine hwrap (mailing_spec hi (fun value d hw hd => ?_) fun hw => ?_)
    · exact hd.parameterOf (by rw [hp]; exact .mailbox1 hw) (by rw [hp]; rfl)
    · refine hi.skip (by rw [hp]; decide) (by rw [hp]; decide) (by rw [hp]; rfl)
        fun phase _ _ hpar => ?_
      rw [hp]
      cases hpar with
      | mailbox1 h => simp [h] at hw
      | _ => decide
  | start =>
    refine hwrap (.seq read_spec (fun value s₁ h₁ => ?_) fun _ s₁ h₁ => broken_quiet hi h₁)
    have hi₁ := h₁.1.inv (hi.quiet h₁.2.1)
    have hr : s₁.operation.phase = .start := h₁.1.phase.trans hp
    refine (writing_spec hi₁ fun d hd => ?_).mono (fun _ _ h => h.after h₁.1) fun _ _ h => h.after h₁.1
    refine hd.launched (by rw [hr]; rfl) ?_
    split
    · exact .inr rfl
    · exact .inl rfl
  | halt =>
    refine hwrap (awaiting_spec (f := fun o => { o with phase := .result0 }) hi
      (fun value d hs hseen hd => ?_) (fun _ _ => rfl) fun _ => rfl)
    obtain ⟨h, hstarts, -⟩ := hd.started (by rw [hp]; decide)
    exact hd.finishing (by rw [hp]; decide) (by decide)
      (hseen.halted hd.engine.symm rfl (by simpa using hs) (by simp [hstarts])) rfl
  | result0 =>
    exact hwrap (collect_spec (g := fun value r => { r with mailboxes := (some value, r.mailboxes.2) }) hi
      (by rw [hp]; decide) (show 20 ≤ Phase.result1.rank by decide) fun _ _ => rfl)
  | result1 =>
    exact hwrap (collect_spec (g := fun value r => { r with mailboxes := (r.mailboxes.1, some value) }) hi
      (by rw [hp]; decide) (show 20 ≤ Phase.complete.rank by decide) fun _ _ => rfl)
  | complete => exact ⟨hi, rfl, hC _⟩

theorem advance_spec (hasks : Admits port asks C) (hC : ∀ c, C c c)
    (hi : Inv port.memory s.operation s.device) :
    Spec (advance port asks) s
      (fun r s' => Inv port.memory s'.operation s'.device ∧
        s'.operation.options = s.operation.options ∧ C s.caller s'.caller ∧
        (r = true → s'.operation.phase = .complete))
      fun _ s' => Safe port.memory s.operation.options s'.device ∧
        s'.operation.options = s.operation.options ∧ C s.caller s'.caller := by
  refine .seq check_spec (fun _ s₁ h₁ => ?_) fun _ s₁ h₁ => ?_
  · have hi₁ := h₁.1.inv (hi.quiet h₁.2)
    refine .seq (perform_spec hasks hC hi₁) (fun _ s₂ h₂ => ?_) fun _ s₂ h₂ => ?_
    · obtain ⟨hi₂, ho₂, hc₂⟩ := h₂
      refine .seq check_spec (fun _ s₃ h₃ => ?_) fun _ s₃ h₃ => ?_
      · refine .get_bind ?_
        refine ⟨h₃.1.inv (hi₂.quiet h₃.2), h₃.1.options.trans (ho₂.trans h₁.1.options), ?_,
          fun hr => by simpa using hr⟩
        rw [h₃.1.caller, ← h₁.1.caller]
        exact hc₂
      · have hs := (hi₂.quiet h₃.2).safe
        rw [ho₂, h₁.1.options] at hs
        refine ⟨hs, h₃.1.options.trans (ho₂.trans h₁.1.options), ?_⟩
        rw [h₃.1.caller, ← h₁.1.caller]
        exact hc₂
    · exact ⟨h₁.1.options ▸ h₂.1, h₂.2.1.trans h₁.1.options, h₁.1.caller ▸ h₂.2.2⟩
  · exact ⟨(hi.quiet h₁.2).safe, h₁.1.options, h₁.1.caller ▸ hC _⟩

/-- Every step keeps the invariant, or fails and leaves the device safe. -/
theorem step_spec (hasks : Admits port asks C) (hC : ∀ c, C c c)
    (hi : Inv port.memory s.operation s.device) :
    Spec (step port asks) s
      (fun r s' => Inv port.memory s'.operation s'.device ∧
        s'.operation.options = s.operation.options ∧ C s.caller s'.caller ∧
        (r = true → s'.operation.phase = .complete))
      fun _ s' => Safe port.memory s.operation.options s'.device ∧
        s'.operation.options = s.operation.options ∧ C s.caller s'.caller :=
  recording_spec (advance_spec hasks hC hi)

end Hs
end Falcon
end NvidiaGsp
