import NvidiaGsp.Falcon.HsSpec
import NvidiaGsp.Falcon.ResetSpec
import NvidiaGsp.Falcon.Run

/-!
# Falcon.RunSpec

What holds of a firmware execution at each of its phases: before the upload the CPU is not started
and the reset is as far as it says; from the upload on the upload's own invariant holds.
-/

namespace NvidiaGsp
namespace Falcon
namespace Run

open Call

variable {port : Port} {memory : Nat → Byte} {s s' : State} {offset : Nat} {value : Word}
  {d d' : Device} {o o' : Operation} {options : Options}

/-! ## The stages -/

/-- Before the upload. -/
structure Early (o : Operation) (d : Device) : Prop where
  hsOperation : o.hsOperation = none
  result : o.result = none
  reset : Reset.Inv o.reset d
  booter : o.options.booter ≠ none → ∃ r, o.booterReport = some r

/-- From the upload on. -/
structure Uploading (memory : Nat → Byte) (o : Operation) (d : Device) (h : Hs.Operation) : Prop where
  hsOperation : o.hsOperation = some h
  inv : Hs.Inv memory h d
  plan : h.options.plan = o.options.plan
  mailboxes : h.options.mailboxes = o.options.mailboxes
  reset : o.reset.phase = .complete

/-- Booter Unload found nothing to unload. -/
structure Skipped (o : Operation) (d : Device) : Prop where
  hsOperation : o.hsOperation = none
  starts : d.starts = []
  report : ∃ r, o.booterReport = some r ∧ r.skipped = true

/-- What holds at each phase. -/
def Stage (memory : Nat → Byte) (o : Operation) (d : Device) : Prop :=
  match o.phase with
  | .booterPresence => Early o d ∧ o.options.booter ≠ none
  | .admission | .suspendLogs | .reset => Early o d
  | .hwcfg | .status | .engine | .coreSelect | .stableHwcfg =>
    Early o d ∧ o.reset.phase = .complete
  | .upload => o.result = none ∧ ∃ h, Uploading memory o d h
  | .fwsecResult | .booterMailboxes | .booterWpr | .restoreLogs =>
    o.result = none ∧ ∃ h, Uploading memory o d h ∧ h.phase = .complete
  | .complete => Skipped o d ∨ ∃ h, Uploading memory o d h ∧ h.phase = .complete

/-- The engine was not started, or once, when it was ready and its reset complete. -/
def Safe (memory : Nat → Byte) (o : Operation) (d : Device) : Prop :=
  d.starts = [] ∨ ((∃ h, d.starts = [h] ∧ Hs.Ready memory (o.options.upload 0) h) ∧
    o.reset.phase = .complete)

structure Inv (memory : Nat → Byte) (options : Options) (o : Operation) (d : Device) : Prop where
  given : o.options = options
  engine : d.engine = options.engine
  resetEngine : o.reset.resetEngine = options.engine
  stage : Stage memory o d

/-- What a step that fails leaves. -/
structure Broken (memory : Nat → Byte) (options : Options) (o : Operation) (d : Device) : Prop where
  given : o.options = options
  resetEngine : o.reset.resetEngine = options.engine
  safe : Safe memory o d

theorem Early.quiet (h : Early o d) (hq : Quiet port d d') : Early o d' :=
  ⟨h.hsOperation, h.result, h.reset.quiet hq, h.booter⟩

theorem Uploading.quiet {h : Hs.Operation} (hu : Uploading port.memory o d h)
    (hq : Quiet port d d') : Uploading port.memory o d' h :=
  ⟨hu.hsOperation, hu.inv.quiet hq, hu.plan, hu.mailboxes, hu.reset⟩

theorem Skipped.quiet (h : Skipped o d) (hq : Quiet port d d') : Skipped o d' :=
  ⟨h.hsOperation, hq.starts.trans h.starts, h.report⟩

theorem Stage.quiet (h : Stage port.memory o d) (hq : Quiet port d d') : Stage port.memory o d' := by
  unfold Stage at h ⊢
  split at h
  · exact ⟨h.1.quiet hq, h.2⟩
  · exact h.quiet hq
  · exact h.quiet hq
  · exact h.quiet hq
  · exact ⟨h.1.quiet hq, h.2⟩
  · exact ⟨h.1.quiet hq, h.2⟩
  · exact ⟨h.1.quiet hq, h.2⟩
  · exact ⟨h.1.quiet hq, h.2⟩
  · exact ⟨h.1.quiet hq, h.2⟩
  · obtain ⟨hr, u, hu⟩ := h
    exact ⟨hr, u, hu.quiet hq⟩
  · obtain ⟨hr, u, hu, hc⟩ := h
    exact ⟨hr, u, hu.quiet hq, hc⟩
  · obtain ⟨hr, u, hu, hc⟩ := h
    exact ⟨hr, u, hu.quiet hq, hc⟩
  · obtain ⟨hr, u, hu, hc⟩ := h
    exact ⟨hr, u, hu.quiet hq, hc⟩
  · obtain ⟨hr, u, hu, hc⟩ := h
    exact ⟨hr, u, hu.quiet hq, hc⟩
  · rcases h with hs | ⟨u, hu, hc⟩
    · exact .inl (hs.quiet hq)
    · exact .inr ⟨u, hu.quiet hq, hc⟩

/-- Nothing else of the upload's options is read by what a start needs. -/
theorem ready_congr {a b : Falcon.Options} {h : Hardware} (hp : a.plan = b.plan)
    (hm : a.mailboxes = b.mailboxes) (hr : Hs.Ready memory a h) : Hs.Ready memory b h := by
  refine ⟨hp ▸ hr.imem, hp ▸ hr.dmem, hr.idle, fun phase offset value hpar => ?_, hr.released⟩
  refine hr.written phase offset value ?_
  cases hpar with
  | signature => exact hp ▸ .signature
  | engineMask => exact hp ▸ .engineMask
  | ucode => exact hp ▸ .ucode
  | algorithm => exact .algorithm
  | bootVector => exact hp ▸ .bootVector
  | mailbox0 h => exact .mailbox0 (hm ▸ h)
  | mailbox1 h => exact .mailbox1 (hm ▸ h)

theorem Uploading.safe {h : Hs.Operation} (hu : Uploading memory o d h) : Safe memory o d := by
  rcases hu.inv.safe with hs | ⟨g, hg, hr⟩
  · exact .inl hs
  · exact .inr ⟨⟨g, hg, ready_congr hu.plan hu.mailboxes hr⟩, hu.reset⟩

theorem Stage.safe (h : Stage memory o d) : Safe memory o d := by
  unfold Stage at h
  split at h
  · exact .inl h.1.reset.starts
  · exact .inl h.reset.starts
  · exact .inl h.reset.starts
  · exact .inl h.reset.starts
  · exact .inl h.1.reset.starts
  · exact .inl h.1.reset.starts
  · exact .inl h.1.reset.starts
  · exact .inl h.1.reset.starts
  · exact .inl h.1.reset.starts
  · exact h.2.choose_spec.safe
  · exact h.2.choose_spec.1.safe
  · exact h.2.choose_spec.1.safe
  · exact h.2.choose_spec.1.safe
  · exact h.2.choose_spec.1.safe
  · rcases h with hs | ⟨u, hu, -⟩
    · exact .inl hs.starts
    · exact hu.safe

theorem Inv.quiet (h : Inv port.memory options o d) (hq : Quiet port d d') :
    Inv port.memory options o d' :=
  ⟨h.given, hq.engine.trans h.engine, h.resetEngine, h.stage.quiet hq⟩

theorem Inv.broken (h : Inv memory options o d) : Broken memory options o d :=
  ⟨h.given, h.resetEngine, h.stage.safe⟩

/-! ## Accesses -/

/-- What the invariant reads of an operation. -/
structure Same (o o' : Operation) : Prop where
  options : o'.options = o.options
  reset : o'.reset = o.reset
  hsOperation : o'.hsOperation = o.hsOperation
  result : o'.result = o.result
  report : ∀ r, o.booterReport = some r →
    ∃ r', o'.booterReport = some r' ∧ (r.skipped = true → r'.skipped = true)

/-- A change that leaves the report alone, too. -/
theorem Same.of_eq (hopts : o'.options = o.options) (hreset : o'.reset = o.reset)
    (hhs : o'.hsOperation = o.hsOperation) (hresult : o'.result = o.result)
    (hreport : o'.booterReport = o.booterReport) : Same o o' :=
  ⟨hopts, hreset, hhs, hresult, fun r hr => ⟨r, hreport.trans hr, id⟩⟩

/-- A change of the report that does not take a skip back. -/
theorem Same.mapped {f : Boot.Report → Boot.Report}
    (hf : ∀ r, r.skipped = true → (f r).skipped = true) :
    Same o { o with booterReport := o.booterReport.map f } :=
  ⟨rfl, rfl, rfl, rfl, fun r hr => ⟨f r, by show Option.map f o.booterReport = _; rw [hr]; rfl, hf r⟩⟩

theorem Same.refl (o : Operation) : Same o o := .of_eq rfl rfl rfl rfl rfl

theorem Same.trans {o₁ o₂ o₃ : Operation} (h : Same o₁ o₂) (h' : Same o₂ o₃) : Same o₁ o₃ :=
  ⟨h'.options.trans h.options, h'.reset.trans h.reset, h'.hsOperation.trans h.hsOperation,
    h'.result.trans h.result, fun r hr => by
      obtain ⟨r₂, hr₂, hs₂⟩ := h.report r hr
      obtain ⟨r₃, hr₃, hs₃⟩ := h'.report r₂ hr₂
      exact ⟨r₃, hr₃, fun hs => hs₃ (hs₂ hs)⟩⟩

theorem Early.same (h : Early o d) (hs : Same o o') : Early o' d :=
  ⟨hs.hsOperation.trans h.hsOperation, hs.result.trans h.result, by rw [hs.reset]; exact h.reset,
    fun hb => by
      obtain ⟨r, hr⟩ := h.booter (hs.options ▸ hb)
      obtain ⟨r', hr', -⟩ := hs.report r hr
      exact ⟨r', hr'⟩⟩

theorem Uploading.same {h : Hs.Operation} (hu : Uploading memory o d h) (hs : Same o o') :
    Uploading memory o' d h :=
  ⟨hs.hsOperation.trans hu.hsOperation, hu.inv, by rw [hs.options]; exact hu.plan,
    by rw [hs.options]; exact hu.mailboxes, by rw [hs.reset]; exact hu.reset⟩

theorem Skipped.same (h : Skipped o d) (hs : Same o o') : Skipped o' d :=
  ⟨hs.hsOperation.trans h.hsOperation, h.starts, by
    obtain ⟨r, hr, hskip⟩ := h.report
    obtain ⟨r', hr', hskip'⟩ := hs.report r hr
    exact ⟨r', hr', hskip' hskip⟩⟩

theorem Safe.same (h : Safe memory o d) (hs : Same o o') : Safe memory o' d := by
  rcases h with h | ⟨h, hr⟩
  · exact .inl h
  · exact .inr ⟨by rw [hs.options]; exact h, by rw [hs.reset]; exact hr⟩

theorem Broken.same (h : Broken memory options o d) (hs : Same o o') :
    Broken memory options o' d :=
  ⟨hs.options.trans h.given, by rw [hs.reset]; exact h.resetEngine, h.safe.same hs⟩

/-- What a call leaves that only accesses the device. -/
structure Kept (port : Port) (s s' : State) : Prop where
  same : Same s.operation s'.operation
  phase : s'.operation.phase = s.operation.phase
  quiet : Quiet port s.device s'.device

theorem Kept.refl (s : State) : Kept port s s := ⟨.refl _, rfl, .refl _⟩

theorem Kept.trans {s₁ s₂ s₃ : State} (h : Kept port s₁ s₂) (h' : Kept port s₂ s₃) :
    Kept port s₁ s₃ :=
  ⟨h.same.trans h'.same, h'.phase.trans h.phase, h.quiet.trans h'.quiet⟩

theorem Kept.update {f : Operation → Operation} (h : Kept port s s')
    (hs : Same s'.operation (f s'.operation))
    (hp : (f s'.operation).phase = s'.operation.phase) :
    Kept port s { s' with operation := f s'.operation } :=
  ⟨h.same.trans hs, hp.trans h.phase, h.quiet⟩

theorem Stage.same (h : Stage memory o d) (hs : Same o o') (hp : o'.phase = o.phase) :
    Stage memory o' d := by
  unfold Stage at h ⊢
  rw [hp]
  split at h
  · exact ⟨h.1.same hs, by rw [hs.options]; exact h.2⟩
  · exact h.same hs
  · exact h.same hs
  · exact h.same hs
  · exact ⟨h.1.same hs, by rw [hs.reset]; exact h.2⟩
  · exact ⟨h.1.same hs, by rw [hs.reset]; exact h.2⟩
  · exact ⟨h.1.same hs, by rw [hs.reset]; exact h.2⟩
  · exact ⟨h.1.same hs, by rw [hs.reset]; exact h.2⟩
  · exact ⟨h.1.same hs, by rw [hs.reset]; exact h.2⟩
  · obtain ⟨hr, u, hu⟩ := h
    exact ⟨hs.result.trans hr, u, hu.same hs⟩
  · obtain ⟨hr, u, hu, hc⟩ := h
    exact ⟨hs.result.trans hr, u, hu.same hs, hc⟩
  · obtain ⟨hr, u, hu, hc⟩ := h
    exact ⟨hs.result.trans hr, u, hu.same hs, hc⟩
  · obtain ⟨hr, u, hu, hc⟩ := h
    exact ⟨hs.result.trans hr, u, hu.same hs, hc⟩
  · obtain ⟨hr, u, hu, hc⟩ := h
    exact ⟨hs.result.trans hr, u, hu.same hs, hc⟩
  · rcases h with h | ⟨u, hu, hc⟩
    · exact .inl (h.same hs)
    · exact .inr ⟨u, hu.same hs, hc⟩

theorem Inv.kept (h : Inv port.memory options s.operation s.device) (hk : Kept port s s') :
    Inv port.memory options s'.operation s'.device :=
  ⟨hk.same.options.trans h.given, hk.quiet.engine.trans h.engine,
    by rw [hk.same.reset]; exact h.resetEngine, (h.stage.quiet hk.quiet).same hk.same hk.phase⟩

theorem access_spec {α : Type} {x : Access α} {Q : α → Device → Prop}
    (hx : Spec x ⟨s.operation.options.epoch, s.operation.options.deadline, s.operation.lastClock,
      s.device⟩ (fun v t => Quiet port s.device t.device ∧ Q v t.device)
      fun _ t => Quiet port s.device t.device) :
    Spec (access x) s (fun v s' => Kept port s s' ∧ Q v s'.device) fun _ s' => Kept port s s' := by
  refine .get_bind ?_
  refine .failIf_bind (fun _ => .refl s) fun _ => ?_
  refine .zoom ?_
  exact hx.mono (fun v t h => ⟨⟨(.of_eq rfl rfl rfl rfl rfl), rfl, h.1⟩, h.2⟩)
    fun _ t h => ⟨(.of_eq rfl rfl rfl rfl rfl), rfl, h⟩

theorem check_spec : Spec (access (check port)) s (fun _ s' => Kept port s s')
    fun _ s' => Kept port s s' :=
  (access_spec (Q := fun _ _ => True) (Falcon.check_spec.mono (fun _ _ h => ⟨h.quiet, trivial⟩)
    fun _ _ h => h.quiet)).mono (fun _ _ h => h.1) fun _ _ h => h

theorem asked_spec {error : Error} : Spec (access (callback port error)) s
    (fun _ s' => Kept port s s') fun _ s' => Kept port s s' :=
  (access_spec (Q := fun _ _ => True) (callback_spec.mono (fun _ _ h => ⟨h.quiet, trivial⟩)
    fun _ _ h => h.quiet)).mono (fun _ _ h => h.1) fun _ _ h => h

theorem read_spec : Spec (read port offset) s (fun _ s' => Kept port s s')
    fun _ s' => Kept port s s' := by
  refine .get_bind ?_
  exact (access_spec (Q := fun _ _ => True) (readAt_spec.mono (fun _ _ h => ⟨h.1.quiet, trivial⟩)
    fun _ _ h => h.quiet)).mono (fun _ _ h => h.1) fun _ _ h => h

theorem observe_spec : Spec (observe port) s (fun _ s' => Kept port s s')
    fun _ s' => Kept port s s' := by
  refine (access_spec (Q := fun _ _ => True) ?_).mono (fun _ _ h => h.1) fun _ _ h => h
  refine .seq Falcon.check_spec (fun _ t₁ h₁ => ?_) fun _ _ h => h.quiet
  refine .get_bind ?_
  refine .set_bind ?_
  have hq := h₁.quiet.trans (quiet_arrive (d := t₁.device))
  refine .need_bind (fun _ => hq) fun value _ => ?_
  refine .seq Falcon.check_spec (fun _ t₂ h₂ => ⟨hq.trans h₂.quiet, trivial⟩)
    fun _ t₂ h₂ => hq.trans h₂.quiet

theorem logs_spec {enable : Bool} : Spec (logs port enable) s (fun _ s' => Kept port s s')
    fun _ s' => Kept port s s' := by
  refine .seq check_spec (fun _ s₁ h₁ => ?_) fun _ _ h => h
  refine .failIf_bind (fun _ => h₁) fun _ => ?_
  refine .modify_bind ?_
  have hk₁ := h₁.update (f := fun o => { o with logsSuspended := o.logsSuspended || !enable })
    (.of_eq rfl rfl rfl rfl rfl) rfl
  refine .seq asked_spec (fun _ s₂ h₂ => ?_) fun _ _ h => hk₁.trans h
  refine .modify_bind ?_
  have hk₂ := (hk₁.trans h₂).update
    (f := fun o => { o with logsSuspended := o.logsSuspended && !enable }) (.of_eq rfl rfl rfl rfl rfl) rfl
  exact check_spec.mono (fun _ _ h => hk₂.trans h) fun _ _ h => hk₂.trans h

/-! ## The nested operations -/

/-- An upload that has not begun. -/
theorem upload_fresh {u : Falcon.Options} (hv : validate u = .ok ()) (hengine : d.engine = u.engine)
    (hstarts : d.starts = []) (hreleased : d.hardware.released = true) :
    Hs.Inv memory { options := u } d where
  engine := hengine
  valid := validate_valid hv
  released := hreleased
  grid := Nat.zero_mod 256
  within := Nat.zero_le _
  more := fun h => by simp [Hs.Phase.rank] at h
  first := fun _ => ⟨rfl, rfl⟩
  filled := fun h => by simp [Hs.Phase.rank] at h
  last := fun h => by simp [Hs.Phase.rank] at h
  blocks := by simp
  low := fun h => by simp [Hs.Phase.rank] at h
  high := fun h => by simp [Hs.Phase.rank] at h
  destination := fun h => by simp [Hs.Phase.rank] at h
  source := fun h => by simp [Hs.Phase.rank] at h
  code := fun h => by cases h
  own := fun i hi => absurd hi (Nat.not_lt_zero i)
  idle := fun h => by simp [Hs.Phase.rank] at h
  written := fun phase _ _ _ h => absurd h (Nat.not_lt_zero _)
  unstarted := fun _ => hstarts
  started := fun h => by simp [Hs.Phase.rank] at h
  halted := fun h => by simp [Hs.Phase.rank] at h

/-- What the upload's admission may do to this operation. -/
def Calls (o o' : Operation) : Prop := Same o o' ∧ o'.phase = o.phase

theorem admitUpload_admits : Hs.Admits port (admitUpload port) Calls := by
  intro u x
  have hzoom : Spec (access (check port)) ⟨x.2, x.1⟩ _ _ := check_spec
  refine .seq (Q := fun _ x' => Quiet port x.1 x'.1 ∧ Calls x.2 x'.2) (.zoom ?_)
    (fun _ x₁ h₁ => ?_) fun _ _ h => h
  · exact hzoom.mono (fun _ _ h => ⟨h.quiet, h.same, h.phase⟩) fun _ _ h => ⟨h.quiet, h.same, h.phase⟩
  · refine .get_bind ?_
    exact .ends (fun _ => h₁) fun _ => h₁

theorem uploadStep_spec {h : Hs.Operation} (hi : Inv port.memory options s.operation s.device)
    (hu : Uploading port.memory s.operation s.device h) :
    Spec (uploadStep port h) s
      (fun r s' => s'.operation.options = options ∧ s'.device.engine = options.engine ∧
        s'.operation.reset.resetEngine = options.engine ∧
        s'.operation.result = s.operation.result ∧ s'.operation.phase = s.operation.phase ∧
        ∃ h', Uploading port.memory s'.operation s'.device h' ∧ (r = true → h'.phase = .complete))
      fun _ s' => Broken port.memory options s'.operation s'.device := by
  have hengine : h.options.engine = options.engine := hu.inv.engine.symm.trans hi.engine
  refine .zoom ?_
  refine (Hs.step_spec admitUpload_admits (fun c => ⟨.refl c, rfl⟩)
    (s := ⟨h, s.device, s.operation⟩) hu.inv).mono (fun r t ht => ?_) fun _ t ht => ?_
  · obtain ⟨hinv, hopts, ⟨hsame, hphase⟩, hdone⟩ := ht
    dsimp only at hopts hsame hphase
    refine ⟨hsame.options.trans hi.given, hinv.engine.trans (hopts ▸ hengine), ?_, hsame.result,
      hphase, t.operation, ⟨rfl, hinv, ?_, ?_, ?_⟩, hdone⟩
    · show t.caller.reset.resetEngine = _
      rw [hsame.reset]
      exact hi.resetEngine
    · show t.operation.options.plan = t.caller.options.plan
      rw [hopts, hsame.options, hu.plan]
    · show t.operation.options.mailboxes = t.caller.options.mailboxes
      rw [hopts, hsame.options, hu.mailboxes]
    · show t.caller.reset.phase = _
      rw [hsame.reset]
      exact hu.reset
  · obtain ⟨hsafe, hopts, ⟨hsame, hphase⟩⟩ := ht
    dsimp only at hopts hsame hsafe
    refine ⟨hsame.options.trans hi.given, ?_, ?_⟩
    · show t.caller.reset.resetEngine = _
      rw [hsame.reset]
      exact hi.resetEngine
    · rcases hsafe with hs | ⟨g, hg, hr⟩
      · exact .inl hs
      · refine .inr ⟨⟨g, hg, ready_congr ?_ ?_ hr⟩, ?_⟩
        · show h.options.plan = t.caller.options.plan
          rw [hsame.options, hu.plan]
        · show h.options.mailboxes = t.caller.options.mailboxes
          rw [hsame.options, hu.mailboxes]
        · show t.caller.reset.phase = _
          rw [hsame.reset]
          exact hu.reset

theorem resetStep_spec (hi : Inv port.memory options s.operation s.device)
    (he : Early s.operation s.device) :
    Spec (resetStep port) s
      (fun r s' => s'.operation.options = options ∧ s'.device.engine = options.engine ∧
        s'.operation.reset.resetEngine = options.engine ∧ s'.operation.phase = s.operation.phase ∧
        Early s'.operation s'.device ∧ (r = true → s'.operation.reset.phase = .complete))
      fun _ s' => Broken port.memory options s'.operation s'.device := by
  refine .zoom ?_
  refine (Reset.step_spec (s := ⟨s.operation.reset, s.device⟩) he.reset).mono (fun r t ht => ?_)
    fun _ t ht => ?_
  · obtain ⟨⟨hinv, hres⟩, hdone⟩ := ht
    have hre : t.operation.resetEngine = options.engine := hres.trans hi.resetEngine
    exact ⟨hi.given, hinv.engine.trans hre, hre, rfl, ⟨he.hsOperation, he.result, hinv, he.booter⟩, hdone⟩
  · exact ⟨hi.given, ht.2.trans hi.resetEngine, .inl ht.1⟩

/-! ## One step -/

/-- A step that returns keeps the invariant; one that fails leaves what `Broken` says. -/
def Keeps (port : Port) (options : Options) (s : State) (x : Step Unit) : Prop :=
  Spec x s (fun _ s' => Inv port.memory options s'.operation s'.device)
    fun _ s' => Broken port.memory options s'.operation s'.device

/-- An access, and the rest behind it. -/
theorem Keeps.seq {α : Type} {x : Step α} {f : α → Step Unit}
    (hi : Inv port.memory options s.operation s.device)
    (hx : Spec x s (fun _ s' => Kept port s s') fun _ s' => Kept port s s')
    (hf : ∀ v s₁, Kept port s s₁ → Inv port.memory options s₁.operation s₁.device →
      Keeps port options s₁ (f v)) : Keeps port options s (x >>= f) :=
  Spec.seq hx (fun v s₁ h₁ => hf v s₁ h₁ (hi.kept h₁)) fun _ _ h => (hi.kept h).broken

/-- The operation becomes what another stage allows. -/
theorem Inv.become (hi : Inv memory options o d) (ho : o'.options = o.options)
    (hr : o'.reset = o.reset) (hst : Stage memory o' d) : Inv memory options o' d :=
  ⟨ho.trans hi.given, hi.engine, by rw [hr]; exact hi.resetEngine, hst⟩

theorem Inv.early (hi : Inv memory options o d)
    (hp : o.phase = .admission ∨ o.phase = .suspendLogs ∨ o.phase = .reset) : Early o d := by
  have hst := hi.stage
  unfold Stage at hst
  rcases hp with hp | hp | hp <;> rw [hp] at hst <;> exact hst

theorem Inv.present (hi : Inv memory options o d) (hp : o.phase = .booterPresence) :
    Early o d ∧ o.options.booter ≠ none := by
  have hst := hi.stage
  unfold Stage at hst
  rw [hp] at hst
  exact hst

theorem Inv.observing (hi : Inv memory options o d)
    (hp : o.phase = .hwcfg ∨ o.phase = .status ∨ o.phase = .engine ∨ o.phase = .coreSelect ∨
      o.phase = .stableHwcfg) : Early o d ∧ o.reset.phase = .complete := by
  have hst := hi.stage
  unfold Stage at hst
  rcases hp with hp | hp | hp | hp | hp <;> rw [hp] at hst <;> exact hst

theorem Inv.uploaded (hi : Inv memory options o d)
    (hp : o.phase = .fwsecResult ∨ o.phase = .booterMailboxes ∨ o.phase = .booterWpr ∨
      o.phase = .restoreLogs) :
    o.result = none ∧ ∃ h, Uploading memory o d h ∧ h.phase = .complete := by
  have hst := hi.stage
  unfold Stage at hst
  rcases hp with hp | hp | hp | hp <;> rw [hp] at hst <;> exact hst

theorem sampleFwsec_spec (hi : Inv port.memory options s.operation s.device)
    (hp : s.operation.phase = .fwsecResult) : Keeps port options s (sampleFwsec port) := by
  refine .get_bind ?_
  refine .failIf_bind (fun _ => hi.broken) fun _ => ?_
  refine .need_bind (fun _ => hi.broken) fun observer _ => ?_
  refine .need_bind (fun _ => hi.broken) fun _ _ => ?_
  refine Keeps.seq hi observe_spec fun value s₁ h₁ hi₁ => ?_
  refine .modify_bind ?_
  have hk := h₁.update (f := fun o => { o with fwsecCheck := some (observer.accept value).2 })
    (.of_eq rfl rfl rfl rfl rfl) rfl
  have hi₂ := hi.kept hk
  refine .lift_bind (fun _ _ => hi₂.broken) fun done _ => ?_
  split
  · refine .lift_bind (fun _ _ => hi₂.broken) fun report _ => ?_
    refine .need_bind (fun _ => hi₂.broken) fun result _ => ?_
    obtain ⟨-, u, hu, hc⟩ := hi₂.uploaded (.inl (hk.phase.trans hp))
    exact hi₂.become rfl rfl (.inr ⟨u, ⟨hu.hsOperation, hu.inv, hu.plan, hu.mailboxes, hu.reset⟩, hc⟩)
  · exact hi₂

theorem presence_spec (hi : Inv port.memory options s.operation s.device)
    (hp : s.operation.phase = .booterPresence) : Keeps port options s (presence port) := by
  refine Keeps.seq hi observe_spec fun value s₁ h₁ hi₁ => ?_
  refine .modify_bind ?_
  have hk := h₁.update (f := fun o => { o with
    booterReport := o.booterReport.map fun r => { r with wprHiBefore := some value } })
    (.mapped fun _ h => h) rfl
  have hi₂ := hi.kept hk
  obtain ⟨he, hb⟩ := hi₂.present (hk.phase.trans hp)
  refine .lift_bind (fun _ _ => hi₂.broken) fun up _ => ?_
  split
  · exact hi₂.become rfl rfl ⟨he.hsOperation, he.result, he.reset, he.booter⟩
  · obtain ⟨r, hr⟩ := he.booter hb
    refine hi₂.become rfl rfl (.inl ⟨he.hsOperation, he.reset.starts, { r with skipped := true }, ?_, rfl⟩)
    show Option.map _ _ = _
    rw [hr]
    rfl

theorem unloaded_spec (hi : Inv port.memory options s.operation s.device)
    (hp : s.operation.phase = .booterWpr) : Keeps port options s (unloaded port) := by
  refine Keeps.seq hi observe_spec fun value s₁ h₁ hi₁ => ?_
  refine .modify_bind ?_
  have hk := h₁.update (f := fun o => { o with
    booterReport := o.booterReport.map fun r => { r with wprHiAfter := some value } })
    (.mapped fun _ h => h) rfl
  have hi₂ := hi.kept hk
  refine .lift_bind (fun _ _ => hi₂.broken) fun up _ => ?_
  refine .failIf_bind (fun _ => hi₂.broken) fun _ => ?_
  obtain ⟨hr, u, hu, hc⟩ := hi₂.uploaded (.inr (.inr (.inl (hk.phase.trans hp))))
  exact hi₂.become rfl rfl
    ⟨hr, u, ⟨hu.hsOperation, hu.inv, hu.plan, hu.mailboxes, hu.reset⟩, hc⟩

theorem upload_spec (hi : Inv port.memory options s.operation s.device)
    (hp : s.operation.phase = .upload) :
    Keeps port options s (do
      let operation ← need s.operation.hsOperation .State
      let done ← uploadStep port operation
      if done then
        update fun o => match o.hsOperation with
          | some h => o.uploaded h.result
          | none => o
      else pure ()) := by
  have hst := hi.stage
  unfold Stage at hst
  rw [hp] at hst
  obtain ⟨hres, u, hu⟩ := hst
  refine .need_bind (fun _ => hi.broken) fun operation hop => ?_
  obtain rfl := Option.some.inj (hu.hsOperation.symm.trans hop)
  refine .seq (uploadStep_spec hi hu) (fun done s₁ h₁ => ?_) fun _ _ h => h
  obtain ⟨hopts, heng, hreng, hresult, hphase, h', hu', hdone⟩ := h₁
  split
  · rename_i hd
    have hc := hdone hd
    show Inv port.memory options
      (match s₁.operation.hsOperation with
        | some h => s₁.operation.uploaded h.result
        | none => s₁.operation) s₁.device
    rw [hu'.hsOperation]
    dsimp only [Operation.uploaded]
    have hres' := hresult.trans hres
    split
    · exact ⟨hopts, heng, hreng, hres', h',
        ⟨hu'.hsOperation, hu'.inv, hu'.plan, hu'.mailboxes, hu'.reset⟩, hc⟩
    · split
      · exact ⟨hopts, heng, hreng, hres', h',
          ⟨hu'.hsOperation, hu'.inv, hu'.plan, hu'.mailboxes, hu'.reset⟩, hc⟩
      · exact ⟨hopts, heng, hreng, .inr ⟨h',
          ⟨hu'.hsOperation, hu'.inv, hu'.plan, hu'.mailboxes, hu'.reset⟩, hc⟩⟩
  · refine ⟨hopts, heng, hreng, ?_⟩
    unfold Stage
    rw [hphase, hp]
    exact ⟨hresult.trans hres, h', hu'⟩

theorem perform_spec (hi : Inv port.memory options s.operation s.device) :
    Keeps port options s (perform port) := by
  refine .get_bind ?_
  dsimp only
  cases hp : s.operation.phase with
  | admission =>
    refine .failIf_bind (fun _ => hi.broken) fun _ => ?_
    refine Keeps.seq hi asked_spec fun _ s₁ h₁ hi₁ => ?_
    have he := hi₁.early (.inl (h₁.phase.trans hp))
    have hopts := h₁.same.options
    have hearly : Early s₁.operation s₁.device := he
    cases hb : s.operation.options.booter with
    | none => exact hi₁.become rfl rfl ⟨he.hsOperation, he.result, he.reset, he.booter⟩
    | some command =>
      cases command with
      | normalLoad address =>
        exact hi₁.become rfl rfl ⟨he.hsOperation, he.result, he.reset, he.booter⟩
      | normalUnload =>
        refine hi₁.become rfl rfl ⟨⟨he.hsOperation, he.result, he.reset, he.booter⟩, ?_⟩
        show s₁.operation.options.booter ≠ none
        rw [hopts, hb]
        simp
  | booterPresence => exact presence_spec hi hp
  | suspendLogs =>
    refine Keeps.seq hi logs_spec fun _ s₁ h₁ hi₁ => ?_
    have he := hi₁.early (.inr (.inl (h₁.phase.trans hp)))
    exact hi₁.become rfl rfl ⟨he.hsOperation, he.result, he.reset, he.booter⟩
  | reset =>
    refine .seq (resetStep_spec hi (hi.early (.inr (.inr hp)))) (fun done s₁ h₁ => ?_)
      fun _ _ h => h
    obtain ⟨hopts, heng, hreng, hphase, he, hdone⟩ := h₁
    split
    · rename_i hd
      exact ⟨hopts, heng, hreng, ⟨he.hsOperation, he.result, he.reset, he.booter⟩, hdone hd⟩
    · refine ⟨hopts, heng, hreng, ?_⟩
      unfold Stage
      rw [hphase, hp]
      exact he
  | hwcfg =>
    refine Keeps.seq hi read_spec fun value s₁ h₁ hi₁ => ?_
    obtain ⟨he, hc⟩ := hi₁.observing (.inl (h₁.phase.trans hp))
    exact hi₁.become rfl rfl ⟨⟨he.hsOperation, he.result, he.reset, he.booter⟩, hc⟩
  | status =>
    refine Keeps.seq hi read_spec fun value s₁ h₁ hi₁ => ?_
    refine .modify_bind ?_
    have hk := h₁.update (f := fun o => { o with hwcfg2 := value }) (.of_eq rfl rfl rfl rfl rfl) rfl
    have hi₂ := hi.kept hk
    refine .failIf_bind (fun _ => hi₂.broken) fun _ => ?_
    obtain ⟨he, hc⟩ := hi₂.observing (.inr (.inl (hk.phase.trans hp)))
    exact hi₂.become rfl rfl ⟨⟨he.hsOperation, he.result, he.reset, he.booter⟩, hc⟩
  | engine =>
    refine Keeps.seq hi read_spec fun value s₁ h₁ hi₁ => ?_
    refine .failIf_bind (fun _ => hi₁.broken) fun _ => ?_
    obtain ⟨he, hc⟩ := hi₁.observing (.inr (.inr (.inl (h₁.phase.trans hp))))
    refine hi₁.become rfl rfl ?_
    by_cases hr : s.operation.hwcfg2 &&& Reset.riscvEnabled = 0
    · simp only [hr, if_true]
      exact ⟨⟨he.hsOperation, he.result, he.reset, he.booter⟩, hc⟩
    · simp only [hr, if_false]
      exact ⟨⟨he.hsOperation, he.result, he.reset, he.booter⟩, hc⟩
  | coreSelect =>
    refine Keeps.seq hi read_spec fun value s₁ h₁ hi₁ => ?_
    refine .failIf_bind (fun _ => hi₁.broken) fun _ => ?_
    obtain ⟨he, hc⟩ := hi₁.observing (.inr (.inr (.inr (.inl (h₁.phase.trans hp)))))
    exact hi₁.become rfl rfl ⟨⟨he.hsOperation, he.result, he.reset, he.booter⟩, hc⟩
  | stableHwcfg =>
    refine Keeps.seq hi read_spec fun value s₁ h₁ hi₁ => ?_
    refine .failIf_bind (fun _ => hi₁.broken) fun _ => ?_
    refine .lift_bind (fun _ _ => hi₁.broken) fun operation hop => ?_
    obtain ⟨he, hc⟩ := hi₁.observing (.inr (.inr (.inr (.inr (h₁.phase.trans hp)))))
    have hopts := h₁.same.options
    have hrel : s₁.device.hardware.released = true := he.reset.released (by rw [hc]; decide)
    unfold Hs.init at hop
    cases hv : validate (s.operation.options.upload s.operation.hwcfg) with
    | error e =>
      rw [hv] at hop
      cases hop
    | ok _ =>
      rw [hv] at hop
      obtain rfl := Except.ok.inj hop
      refine hi₁.become rfl rfl ⟨he.result, _, ⟨rfl, ?_, ?_, ?_, hc⟩⟩
      · refine upload_fresh hv ?_ he.reset.starts hrel
        show s₁.device.engine = s.operation.options.engine
        rw [hi₁.engine, hi.given]
      · show s.operation.options.plan = s₁.operation.options.plan
        rw [hopts]
      · show s.operation.options.mailboxes = s₁.operation.options.mailboxes
        rw [hopts]
  | upload => exact upload_spec hi hp
  | fwsecResult => exact sampleFwsec_spec hi hp
  | booterMailboxes =>
    refine .failIf_bind (fun _ => hi.broken) fun _ => ?_
    refine .need_bind (fun _ => hi.broken) fun result _ => ?_
    refine .lift_bind (fun _ _ => hi.broken) fun _ _ => ?_
    obtain ⟨hr, u, hu, hc⟩ := hi.uploaded (.inr (.inl hp))
    refine hi.become rfl rfl ?_
    by_cases hb : s.operation.options.booter = some .normalUnload
    · simp only [hb, if_true]
      exact ⟨hr, u, ⟨hu.hsOperation, hu.inv, hu.plan, hu.mailboxes, hu.reset⟩, hc⟩
    · simp only [hb, if_false]
      exact ⟨hr, u, ⟨hu.hsOperation, hu.inv, hu.plan, hu.mailboxes, hu.reset⟩, hc⟩
  | booterWpr => exact unloaded_spec hi hp
  | restoreLogs =>
    have hx : Spec (resumeLogs port s.operation.options.keepLogsSuspended) s
        (fun _ s' => Kept port s s') fun _ s' => Kept port s s' := by
      unfold resumeLogs
      split
      · exact .pure (.refl s)
      · exact logs_spec
    refine Keeps.seq hi hx fun _ s₁ h₁ hi₁ => ?_
    refine .need_bind (fun _ => hi₁.broken) fun result _ => ?_
    obtain ⟨hr, u, hu, hc⟩ := hi₁.uploaded (.inr (.inr (.inr (h₁.phase.trans hp))))
    exact hi₁.become rfl rfl
      (.inr ⟨u, ⟨hu.hsOperation, hu.inv, hu.plan, hu.mailboxes, hu.reset⟩, hc⟩)
  | complete => exact hi

theorem advance_spec (hi : Inv port.memory options s.operation s.device) :
    Spec (advance port) s (fun _ s' => Inv port.memory options s'.operation s'.device)
      fun _ s' => Broken port.memory options s'.operation s'.device := by
  refine .seq check_spec (fun _ s₁ h₁ => ?_) fun _ _ h => (hi.kept h).broken
  refine .seq (perform_spec (hi.kept h₁)) (fun _ s₂ h₂ => ?_) fun _ _ h => h
  refine .seq check_spec (fun _ s₃ h₃ => ?_) fun _ _ h => (h₂.kept h).broken
  exact .get_bind (h₂.kept h₃)

/-! ## Runs -/

/-- What holds between two steps, also of an operation that has failed. -/
structure Sound (memory : Nat → Byte) (options : Options) (s : State) : Prop where
  broken : Broken memory options s.operation s.device
  inv : s.operation.failure = none ∨ s.operation.result ≠ none →
    Inv memory options s.operation s.device

/-- The step of an operation that has failed changes nothing but its failure. -/
theorem step_failed (hf : s.operation.failure ≠ none) :
    Spec (step port) s (fun _ _ => False) fun e s' => s' = { s with
      operation := { s.operation with failure := some e, result := none } } := by
  refine recording_spec (.stop ?_)
  refine .get_bind ?_
  refine .stop (.ends (fun _ => rfl) fun hn => hn (.inl hf))

theorem Sound.step (hs : Sound port.memory options s) :
    Sound port.memory options (outcome (step port) s).2 := by
  refine Spec.outcome (P := fun _ s' => Sound port.memory options s') ?_
  by_cases hf : s.operation.failure = none
  · refine recording_spec ((advance_spec (hs.inv (.inl hf))).mono (fun _ s' h => ?_) fun e s' h => ?_)
    · exact ⟨h.broken, fun _ => h⟩
    · exact ⟨⟨h.given, h.resetEngine, h.safe⟩, fun hn => by simp at hn⟩
  · refine (step_failed hf).mono (fun _ _ h => h.elim) fun e s' h => ?_
    rw [h]
    exact ⟨⟨hs.broken.given, hs.broken.resetEngine, hs.broken.safe⟩, fun hn => by simp at hn⟩

theorem Sound.steps (hs : Sound port.memory options s) (n : Nat) :
    Sound port.memory options (steps port n s) := by
  induction n with
  | zero => exact hs
  | succ n ih => exact ih.step

/-- What `init` accepts, on a device whose CPU is not started. -/
theorem init_sound (hinit : init options = .ok o) (hengine : d.engine = options.engine)
    (hstarts : d.starts = []) : Sound memory options ⟨o, d⟩ := by
  unfold init at hinit
  split at hinit
  · cases hinit
  · cases hb : initBooter options with
    | error e =>
      rw [hb] at hinit
      cases hinit
    | ok report =>
      cases hf : initFwsec options with
      | error e =>
        rw [hb, hf] at hinit
        cases hinit
      | ok check =>
        generalize hu : ({ options.upload 0x3ffff with
          imemCapacity := maxTcmBytes
          dmemCapacity := maxTcmBytes } : Falcon.Options) = u at hinit
        cases hv : validate u with
        | error e =>
          rw [hb, hf, hv] at hinit
          cases hinit
        | ok _ =>
          cases hr : Reset.initReset options.engine options.epoch options.deadline options.boot0 with
          | error e =>
            rw [hb, hf, hv, hr] at hinit
            cases hinit
          | ok reset =>
            rw [hb, hf, hv, hr] at hinit
            obtain rfl := Except.ok.inj hinit
            have hreset : reset = ({
                resetEngine := options.engine
                epoch := options.epoch
                deadline := options.deadline
                boot0 := options.boot0 } : Reset.Operation) := by
              unfold Reset.initReset at hr
              obtain ⟨-, hr⟩ := ok_of_ite hr
              obtain ⟨-, hr⟩ := ok_of_ite hr
              exact (Except.ok.inj hr).symm
            have hbooter : options.booter ≠ none → ∃ r, report = some r := by
              intro hne
              unfold initBooter at hb
              split at hb
              · exact absurd ‹_› hne
              · split at hb
                · cases hb
                · split at hb
                  · cases hb
                  · split at hb
                    · cases hb
                    · exact ⟨_, (Except.ok.inj hb).symm⟩
            have hearly : Reset.Inv reset d := by
              rw [hreset]
              exact ⟨hengine, hstarts, fun h => by simp [Reset.Phase.edges] at h,
                fun h => by simp [Reset.Phase.edges] at h⟩
            have hi : Inv memory options ({
                options := options
                fwsecCheck := check
                booterReport := report
                reset := reset } : Operation) d :=
              ⟨rfl, hengine, by rw [hreset], ⟨rfl, rfl, hearly, hbooter⟩⟩
            exact ⟨hi.broken, fun _ => hi⟩

end Run
end Falcon
end NvidiaGsp
