import NvidiaGsp.Power.OwnerInv

/-!
# Power.OwnerSpec

One specification for each call that leaves the controls where they are, and for the choice, the
start and the end of a control.
-/

namespace NvidiaGsp
namespace Power

open Call

variable {o o' : Owner} {w : World} {a : Answers} {now : Nat} {operation : Operation}

/-- What a call does that is apart from the controls and leaves the policy alone. -/
structure Still (o o' : Owner) : Prop extends Apart o o' where
  performance : o'.performance = o.performance

theorem Still.refl (o : Owner) : Still o o := ⟨.refl o, rfl⟩

theorem Still.trans {o₁ o₂ o₃ : Owner} (h : Still o₁ o₂) (h' : Still o₂ o₃) : Still o₁ o₃ :=
  ⟨h.toApart.trans h'.toApart, h'.performance.trans h.performance⟩

/-- A call that is apart, however it ends. -/
def Stays {α : Type} (x : Step α) : Prop :=
  ∀ o, Spec x o (fun _ o' => Still o o') fun _ o' => Still o o'

theorem Stays.inv {α : Type} {x : Step α} (hx : Stays x) (h : Inv w) : Inv (w.call x) := by
  have hs : Still w.owner (outcome x w.owner).2 :=
    Spec.outcome (P := fun _ o' => Still w.owner o') (hx w.owner)
  exact h.apart hs.toApart hs.performance

theorem Stays.bind {α β : Type} {x : Step α} {f : α → Step β} (hx : Stays x)
    (hf : ∀ v, Stays (f v)) : Stays (x >>= f) := by
  intro o
  refine .seq (hx o) (fun v o₁ h₁ => ?_) fun _ _ h => h
  exact (hf v o₁).mono (fun _ _ h₂ => h₁.trans h₂) fun _ _ h₂ => h₁.trans h₂

theorem Stays.modify {f : Owner → Owner} (h : ∀ o, Still o (f o)) : Stays (modify f) :=
  fun o => h o

theorem stays_mark {c : Prop} [Decidable c] {f : Owner → Owner} (h : ∀ o, Still o (f o)) :
    Stays (modify fun o => if c then f o else o) := by
  refine .modify fun o => ?_
  split
  · exact h o
  · exact .refl o

theorem Stays.pure {α : Type} (v : α) : Stays (Pure.pure v : Step α) := fun o => .refl o

theorem Stays.get {α : Type} {f : Owner → Step α}
    (h : ∀ o, Spec (f o) o (fun _ o' => Still o o') fun _ o' => Still o o') :
    Stays (MonadState.get >>= f) := h

theorem stays_failIf {c : Prop} [Decidable c] {e : Error} : Stays (failIf c e) := by
  intro o
  by_cases h : c
  · unfold Spec
    rw [failIf_of h]
    exact .refl o
  · unfold Spec
    rw [failIf_of_not h]
    exact .refl o

/-! ## The page -/

/-- The page of an owner that neither published it nor is about to. -/
theorem Still.free {s : Storage} (hf : o.possiblyAttached = false ∧ o.active = none)
    (hr : s.retained = o.backing.retained) (hs : o.backing.Ok → s.Ok) :
    Still o { o with backing := s } := by
  refine ⟨⟨rfl, rfl, rfl, rfl, rfl, rfl, hr, hs, fun _ h => ?_, fun _ => rfl⟩, rfl⟩
  rw [hf.1, hf.2] at h
  simp at h

theorem closeBacking_spec (h : Sound o) (hf : o.possiblyAttached = false ∧ o.active = none) :
    Spec (closeBacking a) o (fun _ o' => Still o o') fun _ _ => False := by
  have hr := h.retained.trans hf.1
  exact .free hf ((close_unretained hr).trans hr.symm) close_ok

theorem Storage.Ok.ofCpu {s : Storage} (h : s.Ok) (b : Bool) (ho : s.opened = true) :
    Storage.Ok { s with cpu := b } where
  empty := fun hn => by simp [ho] at hn
  memory := fun _ => h.memory ho
  prepared := fun hp => h.prepared hp

/-- The CPU's mapping of an open page is not among what the invariant reads. -/
theorem Still.cpu (b : Bool) (ho : o.backing.Ok → o.backing.opened = true) :
    Still o { o with backing := { o.backing with cpu := b } } :=
  ⟨⟨rfl, rfl, rfl, rfl, rfl, rfl, rfl, fun h => h.ofCpu b (ho h), fun h _ => h, fun _ => rfl⟩, rfl⟩

theorem opened_of_cpu {s : Storage} (hc : s.cpu = true) (h : s.Ok) : s.opened = true := by
  by_contra hn
  rw [h.empty (by simpa using hn)] at hc
  cases hc

theorem stays_unmap : Stays (unmap a) := by
  intro o
  refine .get_bind ?_
  split
  · rename_i hc
    refine .failIf_bind (fun _ => .refl o) fun _ => ?_
    refine .failIf_bind (fun _ => .refl o) fun _ => ?_
    exact .cpu false (opened_of_cpu hc)
  · exact .refl o

theorem stays_map : Stays (map a) := by
  intro o
  refine .get_bind ?_
  refine .failIf_bind (fun _ => .refl o) fun hv => ?_
  refine .failIf_bind (fun _ => .refl o) fun _ => ?_
  refine .failIf_bind (fun _ => .refl o) fun _ => ?_
  have hm : Still o { o with backing := { o.backing with cpu := true } } :=
    .cpu true fun _ => (Decidable.not_not.mp hv).1
  refine .cleaning ?_
  refine (stays_failIf { o with backing := { o.backing with cpu := true } }).mono
    (fun _ _ h => hm.trans h) fun _ o₁ h => ?_
  have hu : Still o₁ (dropMapping a o₁) :=
    Spec.outcome (P := fun _ o' => Still o₁ o') (stays_unmap o₁)
  exact (hm.trans h).trans hu

/-! ## Demand and telemetry -/

/-- A change of what is asked for, seen or remembered. -/
theorem Still.of_eq (hactive : o'.active = o.active) (hop : o'.operation = o.operation)
    (hstarted : o'.started = o.started) (hcompleted : o'.completed = o.completed)
    (hattached : o'.attached = o.attached) (hposs : o'.possiblyAttached = o.possiblyAttached)
    (hbacking : o'.backing = o.backing)
    (hrequest : o.active ≠ none → o'.performanceRequest = o.performanceRequest)
    (hp : o'.performance = o.performance) : Still o o' :=
  ⟨.of_eq hactive hop hstarted hcompleted hattached hposs hbacking hrequest, hp⟩

variable {pollMask mask : Mask}

theorem stays_demand : Stays (demand pollMask now mask) := by
  intro o
  refine .get_bind ?_
  refine .failIf_bind (fun _ => .refl o) fun _ => ?_
  exact .of_eq rfl rfl rfl rfl rfl rfl rfl (fun _ => rfl) rfl

theorem stays_observeActivity {activity : Activity} : Stays (observeActivity now activity) := by
  unfold observeActivity
  split
  · exact .modify fun _ => .of_eq rfl rfl rfl rfl rfl rfl rfl (fun _ => rfl) rfl
  · exact .pure _

theorem stays_deviceLost : Stays deviceLost :=
  .modify fun _ => .of_eq rfl rfl rfl rfl rfl rfl rfl (fun _ => rfl) rfl

theorem stays_exchangeCommon {limit timing : Nat} : Stays (exchangeCommon mask limit timing) :=
  .modify fun _ => .of_eq rfl rfl rfl rfl rfl rfl rfl (fun _ => rfl) rfl

theorem stays_sample : Stays (sample a now) := by
  intro o
  refine .get_bind ?_
  split
  · exact .refl o
  · have hn : Still o { o with nextSample := later now samplePeriodNs } :=
      .of_eq rfl rfl rfl rfl rfl rfl rfl (fun _ => rfl) rfl
    refine .seq (Q := fun _ o₁ => Still o o₁) hn (fun _ o₁ h₁ => ?_) fun _ _ h => h
    refine .cleaning ?_
    refine .seq (stays_map o₁) (fun _ o₂ h₂ => ?_) fun _ _ h => ?_
    · split
      · refine .seq (stays_unmap o₂) (fun _ o₃ h₃ => ?_) fun _ _ h => ?_
        · exact ((h₁.trans h₂).trans h₃).trans (.of_eq rfl rfl rfl rfl rfl rfl rfl (fun _ => rfl) rfl)
        · exact ((h₁.trans h₂).trans h).trans (.of_eq rfl rfl rfl rfl rfl rfl rfl (fun _ => rfl) rfl)
      · refine .seq (stays_unmap o₂) (fun _ o₃ h₃ => ?_) fun _ _ h => ?_
        · exact ((h₁.trans h₂).trans h₃).trans (.of_eq rfl rfl rfl rfl rfl rfl rfl (fun _ => rfl) rfl)
        · exact ((h₁.trans h₂).trans h).trans (.of_eq rfl rfl rfl rfl rfl rfl rfl (fun _ => rfl) rfl)
    · exact (h₁.trans h).trans (.of_eq rfl rfl rfl rfl rfl rfl rfl (fun _ => rfl) rfl)

/-! ## Stopping -/

theorem stop_spec (h : Sound o) :
    Spec (stop a now) o (fun _ o' => Still o o') fun _ o' => Still o o' := by
  have hs : Still o { o with stopping := true } := .of_eq rfl rfl rfl rfl rfl rfl rfl (fun _ => rfl) rfl
  refine .modify_bind ?_
  refine .get_bind ?_
  split
  · rename_i hc
    refine .seq (closeBacking_spec (h.apart hs.toApart) ⟨by simpa using hc.2.1, hc.1⟩)
      (fun closed o₂ h₂ => ?_) fun _ _ h => h.elim
    refine .seq (Q := fun _ o₃ => Still o o₃) ?_ (fun _ o₃ h₃ => .get_bind h₃) fun _ _ h => h
    refine (hs.trans h₂).trans ?_
    cases closed with
    | true => exact .of_eq rfl rfl rfl rfl rfl rfl rfl (fun _ => rfl) rfl
    | false => exact .refl o₂
  · exact hs

theorem stopForFirmwareUnload_spec (h : Sound o) :
    Spec (stopForFirmwareUnload a now) o (fun _ o' => Still o o') fun _ o' => Still o o' := by
  have hs : Still o { o with firmwareUnloading := true } := .of_eq rfl rfl rfl rfl rfl rfl rfl (fun _ => rfl) rfl
  refine .modify_bind ?_
  refine .seq (stop_spec (h.apart hs.toApart)) (fun _ o₂ h₂ => ?_) fun _ _ h₂ => hs.trans h₂
  exact .get_bind (hs.trans h₂)

/-! ## The choice -/

/-- What the policy does behind the question for a request, and the request it hands out. -/
structure Asked (p p' : Policy) (request : Option Request) : Prop where
  acceptedUntil : p'.acceptedUntil = p.acceptedUntil
  lastNow : p.lastNow ≤ p'.lastNow
  level : p'.acceptedLevel = p.acceptedLevel ∨
    p'.acceptedLevel = 0 ∧ p.acceptedUntil ≤ p'.lastNow
  pending : p'.pending = request.or p.pending
  free : request ≠ none → p.pending = none

theorem Asked.refl (p : Policy) : Asked p p none :=
  ⟨rfl, Nat.le_refl _, .inl rfl, rfl, fun h => absurd rfl h⟩

theorem Asked.observe {p : Policy} {reason : Reason} {first level : Nat} (h : p.lastNow ≤ now) :
    Asked p (p.observe now reason first level) none :=
  ⟨rfl, h, .inl rfl, rfl, fun h => absurd rfl h⟩

theorem Asked.lapse {p : Policy} {reason : Reason} {first level : Nat} (h : p.lastNow ≤ now) :
    Asked p ((p.observe now reason first level).lapse now) none := by
  refine ⟨rfl, h, ?_, rfl, fun h => absurd rfl h⟩
  unfold Policy.lapse
  dsimp only
  split
  · rename_i hc
    exact .inr ⟨rfl, hc.2⟩
  · exact .inl rfl

theorem Asked.trans {p p' p'' : Policy} {request : Option Request} (h : Asked p p' none)
    (h' : Asked p' p'' request) : Asked p p'' request where
  acceptedUntil := h'.acceptedUntil.trans h.acceptedUntil
  lastNow := Nat.le_trans h.lastNow h'.lastNow
  level := by
    rcases h'.level with hl' | ⟨hl', hu'⟩
    · rcases h.level with hl | ⟨hl, hu⟩
      · exact .inl (hl'.trans hl)
      · exact .inr ⟨hl'.trans hl, Nat.le_trans hu h'.lastNow⟩
    · exact .inr ⟨hl', h.acceptedUntil ▸ hu'⟩
  pending := by rw [h'.pending, h.pending, Option.none_or]
  free := fun hn => by rw [← h'.free hn, h.pending, Option.none_or]

theorem next_spec {p : Policy} {activity : Activity} {throttle : Option Word} :
    Spec (next now activity throttle) p (fun r p' => Asked p p' r) fun _ p' => Asked p p' none := by
  refine .get_bind ?_
  refine .failIf_bind (fun _ => .refl p) fun hc => ?_
  refine .failIf_bind (fun _ => .refl p) fun _ => ?_
  have hn : p.lastNow ≤ now := by omega
  refine .seq (Q := fun _ p₁ => p₁ = p.observe now _ _ _) rfl (fun _ p₁ h₁ => ?_) fun _ _ h => h
  subst h₁
  split
  · exact .observe hn
  · rename_i hfree
    refine .modify_bind ?_
    refine .get_bind ?_
    split
    · exact .lapse hn
    · refine .failIf_bind (fun _ => .lapse hn) fun _ => ?_
      obtain ⟨reason, first⟩ := p.wanted now activity throttle
      have hl : Asked p ((p.observe now reason first (p.held now first)).lapse now) none := .lapse hn
      refine ⟨hl.acceptedUntil, hl.lastNow, hl.level, rfl, fun _ => ?_⟩
      simpa using fun h => hfree (.inl h)

theorem Accepted.asked {p p' : Policy} {r : Option Request} {last : Option (Nat × Nat)}
    (h : Accepted p last) (ha : Asked p p' r) : Accepted p' last := by
  cases last with
  | none =>
    rcases ha.level with hl | ⟨hl, -⟩
    · exact hl.trans h
    · exact hl
  | some boost =>
    rcases h with ⟨hl, hu⟩ | ⟨hl, hu⟩
    · rcases ha.level with hl' | ⟨hl', hu'⟩
      · exact .inl ⟨hl'.trans hl, ha.acceptedUntil.trans hu⟩
      · exact .inr ⟨hl', hu ▸ hu'⟩
    · rcases ha.level with hl' | ⟨hl', -⟩
      · exact .inr ⟨hl'.trans hl, Nat.le_trans hu ha.lastNow⟩
      · exact .inr ⟨hl', Nat.le_trans hu ha.lastNow⟩

/-- What a choice does: it asks the policy at most once, and hands out a boost only on its word. -/
structure Chosen (o o' : Owner) (chosen : Option Operation) : Prop extends Apart o o' where
  asked : ∃ request, Asked o.performance o'.performance request ∧
    chosen.any Operation.boosts = request.isSome

theorem Still.asked (h : Still o o') {request : Option Request} {p : Policy}
    (ha : Asked o'.performance p request) : Asked o.performance p request := h.performance ▸ ha

theorem Still.chosen (h : Still o o') {chosen : Option Operation}
    (hb : chosen.any Operation.boosts = false) : Chosen o o' chosen where
  toApart := h.toApart
  asked := ⟨none, by rw [h.performance]; exact .refl _, hb⟩

theorem Chosen.after {o₁ : Owner} {chosen : Option Operation} (hc : Chosen o₁ o' chosen)
    (h : Still o o₁) : Chosen o o' chosen where
  toApart := h.toApart.trans hc.toApart
  asked := by
    obtain ⟨request, ha, hb⟩ := hc.asked
    exact ⟨request, h.asked ha, hb⟩

theorem Sound.free (h : Sound o) (hactive : o.active = none) (hat : o.attached = false) :
    o.possiblyAttached = false := by
  by_contra hp
  rcases h.published (by simpa using hp) with h₁ | ⟨h₁, -⟩
  · rw [hat] at h₁
    cases h₁
  · exact attaching_active h₁ hactive

/-- The page is prepared, or what was made of it is given back. -/
theorem prepareAttach_spec (h : Sound o) (hf : o.possiblyAttached = false ∧ o.active = none) :
    Spec (prepareAttach a) o (fun r o' => Chosen o o' r) fun _ _ => False := by
  have hs : Still o { o with backing := (o.backing.prepare a).2 } := by
    have hr := h.retained.trans hf.1
    exact .free hf ((prepare_retained hr).trans hr.symm) prepare_ok
  refine .get_bind ?_
  refine .modify_bind (g := fun _ => { o with backing := (o.backing.prepare a).2 }) ?_
  split
  · exact hs.chosen rfl
  · refine .modify_bind ?_
    have hm : Still o ({ o with
        backing := (o.backing.prepare a).2
        status := .hostFailure } : Owner) :=
      hs.trans (.of_eq rfl rfl rfl rfl rfl rfl rfl (fun _ => rfl) rfl)
    refine .seq (closeBacking_spec (h.apart hm.toApart) hf) (fun _ o₁ h₁ => ?_) fun _ _ h => h
    exact (hm.trans h₁).chosen rfl

theorem closeStopped_spec (h : Sound o) (hactive : o.active = none) :
    Spec (closeStopped a) o (fun _ o' => Still o o') fun _ _ => False := by
  refine .get_bind ?_
  split
  · rename_i hc
    refine .seq (closeBacking_spec h ⟨by simpa using hc.2, hactive⟩) (fun closed o₁ h₁ => ?_)
      fun _ _ h => h
    refine h₁.trans ?_
    cases closed with
    | true => exact .of_eq rfl rfl rfl rfl rfl rfl rfl (fun _ => rfl) rfl
    | false => exact .refl o₁
  · exact .refl o

theorem chooseLast_spec (h : Sound o) (hactive : o.active = none) :
    Spec (chooseLast a now) o (fun r o' => Chosen o o' r) fun _ _ => False := by
  refine .get_bind ?_
  split
  · exact (Still.refl o).chosen rfl
  · refine .seq (closeStopped_spec h hactive) (fun _ o₁ h₁ => ?_) fun _ _ h => h
    refine .get_bind ?_
    split
    · exact h₁.chosen rfl
    · exact h₁.chosen rfl

theorem chooseBoost_spec {activity : Activity} (h : Sound o) (hactive : o.active = none) :
    Spec (chooseBoost a now activity) o (fun r o' => Chosen o o' r)
      fun _ o' => Chosen o o' none := by
  refine .get_bind ?_
  have hp (p : Policy) : Apart o { o with performance := p } :=
    .of_eq rfl rfl rfl rfl rfl rfl rfl fun _ => rfl
  refine .seq (Q := fun r o₁ => o₁ = { o with performance := o₁.performance } ∧
      Asked o.performance o₁.performance r)
    (F := fun _ o₁ => o₁ = { o with performance := o₁.performance } ∧
      Asked o.performance o₁.performance none) ?_ (fun r o₁ h₁ => ?_) fun _ o₁ h₁ => ?_
  · refine .zoom ?_
    exact next_spec.mono (fun _ _ h => ⟨rfl, h⟩) fun _ _ h => ⟨rfl, h⟩
  · obtain ⟨he, ha⟩ := h₁
    have hap : Apart o o₁ := he ▸ hp _
    cases r with
    | some request =>
      refine .modify_bind ?_
      have hn : o₁.active = none := hap.active.trans hactive
      refine ⟨hap.trans (.of_eq rfl rfl rfl rfl rfl rfl rfl fun h => absurd hn h), ?_⟩
      exact ⟨some request, ha, rfl⟩
    | none =>
      refine (chooseLast_spec (h.apart hap) (hap.active.trans hactive)).mono (fun r o₂ h₂ => ?_)
        fun _ _ h => h.elim
      obtain ⟨request, ha₂, hb⟩ := h₂.asked
      refine ⟨hap.trans h₂.toApart, request, ?_, hb⟩
      exact ha.trans ha₂
  · exact ⟨h₁.1 ▸ hp _, none, h₁.2, rfl⟩

/-- A call of `choose` behind which the policy has been asked at most once. -/
theorem choose_spec {pollMask : Mask} {activity : Activity} (h : Sound o) :
    Spec (choose pollMask a now activity) o (fun r o' => Chosen o o' r)
      fun _ o' => Chosen o o' none := by
  refine .get_bind ?_
  split
  · exact (Still.refl o).chosen rfl
  · rename_i hactive
    have hactive : o.active = none := by simpa using hactive
    refine .seq (stays_unmap o) (fun _ o₁ h₁ => ?_) fun _ _ h => h.chosen rfl
    refine .seq (stays_mark (c := activity.stopping = true) (f := fun o => { o with stopping := true })
      (fun _ => .of_eq rfl rfl rfl rfl rfl rfl rfl (fun _ => rfl) rfl) o₁) (fun _ o₂ h₂ => ?_)
      fun _ _ h => (h₁.trans h).chosen rfl
    refine .seq (Q := fun _ o₃ => Still o₂ o₃) (F := fun _ _ => False) ?_ (fun _ o₃ h₃ => ?_)
      fun _ _ h => h.elim
    · show Still o₂ (if _ then _ else _)
      split
      · exact .of_eq rfl rfl rfl rfl rfl rfl rfl (fun _ => rfl) rfl
      · exact .refl o₂
    have hs := (h₁.trans h₂).trans h₃
    have h₃ := h.apart hs.toApart
    have hfree := hs.active.trans hactive
    refine .get_bind ?_
    dsimp only
    split
    · rename_i hc
      have hat : o₃.attached = false := by simpa using hc.1
      refine (prepareAttach_spec h₃ ⟨h₃.free hfree hat, hfree⟩).mono (fun _ _ h => ?_)
        fun _ _ h => h.elim
      exact h.after hs
    · split
      · exact hs.chosen rfl
      · exact (chooseBoost_spec h₃ hfree).mono (fun _ _ h => h.after hs) fun _ _ h => h.after hs

/-! ## The start and the end of a control -/

/-- The owner that holds the exchange for a control. -/
def Owner.holding (o : Owner) (operation : Operation) : Owner :=
  { o with
    active := some .idle
    operation := some operation
    started := false
    completed := false
    lastStatus := none }

/-- What `checkOperation` has seen. -/
structure Checked (o : Owner) (operation : Operation) : Prop where
  attach : operation.attaches = true → o.possiblyAttached = false ∧ o.backing.valid
  boost : ∀ level seconds, operation = .boost level seconds →
    ∀ r, o.performanceRequest = some r → r.level = level ∧ r.seconds = seconds

theorem checkOperation_spec :
    Spec (checkOperation a now operation) o
      (fun _ o' => Still o o' ∧ Checked o' operation)
      fun _ o' => Still o o' := by
  refine .get_bind ?_
  cases operation with
  | attach page =>
    by_cases hc : o.status ≠ .unprobed ∨ o.possiblyAttached ∨ ¬ o.backing.valid ∨
        o.backing.page ≠ page
    · unfold Spec
      dsimp only
      rw [failIf_of hc]
      exact .refl o
    · unfold Spec
      dsimp only
      rw [failIf_of_not hc]
      simp only [not_or, Decidable.not_not, Bool.not_eq_true] at hc
      exact ⟨.refl o, fun _ => ⟨hc.2.1, hc.2.2.1⟩, fun _ _ hn => (by cases hn)⟩
  | detach =>
    refine (stays_failIf o).mono (fun _ _ h => ⟨h, fun hn => ?_, fun _ _ hn => ?_⟩) fun _ _ h => h
    · cases hn
    · cases hn
  | poll mask interval =>
    refine .failIf_bind (fun _ => .refl o) fun _ => ?_
    refine .seq (stays_map o) (fun _ o₁ h₁ => ?_) fun _ _ h => h
    split
    · exact .seq (stays_unmap o₁) (fun _ o₂ h₂ => h₁.trans h₂) fun _ _ h => h₁.trans h
    · refine .seq (stays_unmap o₁) (fun _ o₂ h₂ => ?_) fun _ _ h => h₁.trans h
      refine ⟨(h₁.trans h₂).trans ?_, fun hn => (by cases hn), fun _ _ hn => (by cases hn)⟩
      exact .of_eq rfl rfl rfl rfl rfl rfl rfl (fun _ => rfl) rfl
  | boost level seconds =>
    refine .need_bind (fun _ => .refl o) fun request hreq => ?_
    by_cases hc : o.performance.pending ≠ some request ∨ request.level ≠ level ∨
        request.seconds ≠ seconds
    · unfold Spec
      rw [failIf_of hc]
      exact .refl o
    · unfold Spec
      rw [failIf_of_not hc]
      simp only [not_or, Decidable.not_not] at hc
      refine ⟨.refl o, fun hn => (by cases hn), fun level' seconds' hn r hr => ?_⟩
      obtain ⟨rfl, rfl⟩ := Operation.boost.inj hn
      obtain rfl := Option.some.inj (hreq.symm.trans hr)
      exact hc.2
  | timer =>
    refine .failIf_bind (fun _ => .refl o) fun _ => ?_
    refine ⟨.of_eq rfl rfl rfl rfl rfl rfl rfl (fun _ => rfl) rfl, fun hn => ?_, fun _ _ hn => ?_⟩
    · cases hn
    · cases hn

/-- What the start of a control needs and leaves. -/
structure Begun (o o' : Owner) (operation : Operation) : Prop where
  free : o.active = none
  still : ∃ o₁, Still o o₁ ∧ o' = o₁.holding operation ∧ Checked o₁ operation

theorem begin_spec {deadline : Nat} :
    Spec («begin» a operation now deadline) o (fun _ o' => Begun o o' operation)
      fun _ o' => Still o o' := by
  refine .get_bind ?_
  refine .failIf_bind (fun _ => .refl o) fun hc => ?_
  have hfree : o.active = none := by
    simp only [not_or] at hc
    simpa using hc.1
  refine .failIf_bind (fun _ => .refl o) fun _ => ?_
  refine .seq checkOperation_spec (fun _ o₁ h₁ => ?_) fun _ _ h => h
  refine .failIf_bind (fun _ => h₁.1) fun _ => ?_
  exact ⟨hfree, o₁, h₁.1, rfl, h₁.2⟩

theorem Sound.holding (h : Sound o) (hactive : o.active = none)
    (hc : Checked o operation) : Sound (o.holding operation) where
  storage := h.storage
  idle := fun hn => by cases hn
  busy := fun _ hn => by cases hn
  retained := h.retained
  attached := h.attached
  published := fun hp => by
    rcases h.published hp with hat | ⟨hat, -⟩
    · exact .inl hat
    · exact absurd hactive (attaching_active hat)
  sent := fun _ hs => by cases hs
  attaching := fun hat => by
    obtain ⟨hp, hv⟩ := hc.attach (by simpa [Owner.attaching, Owner.holding] using hat)
    refine ⟨h.storage.prepared hv.2.2.1, ?_⟩
    show o.attached = false
    by_contra hn
    rw [h.attached (by simpa using hn)] at hp
    cases hp
  held := h.held
  boost := fun level seconds hop => hc.boost level seconds (Option.some.inj hop)

theorem Begun.inv (h : Inv w) (hb : Begun w.owner o' operation) :
    Inv { w with owner := o', outstanding := w.outstanding + 1 } := by
  obtain ⟨hfree, o₁, h₁, rfl, hc⟩ := hb
  have hi := h.apart h₁.toApart h₁.performance
  refine ⟨hi.sound.holding (h₁.active.trans hfree) hc, hi.exposed, ?_, hi.requests, hi.accepted⟩
  have ho := h.outstanding
  rw [hfree] at ho
  simp [ho, Owner.holding]

/-- The owner that has given the exchange back. -/
def Owner.Released (o o' : Owner) : Prop :=
  o'.active = none ∧ o'.operation = none ∧ o'.started = false ∧ o'.completed = false ∧
    o'.attached = o.attached ∧ o'.possiblyAttached = o.possiblyAttached ∧ o'.backing = o.backing

/-- The exchange goes back when nothing is out and no attach is unanswered. -/
theorem Sound.released (h : Sound o) (hr : o.Released o') (hactive : o.active = some .idle)
    (hdone : o.attaching = true → o.started = false) : Sound o' := by
  obtain ⟨h₁, h₂, h₃, h₄, h₅, h₆, h₇⟩ := hr
  have hnot : o'.attaching ≠ true := by simp [Owner.attaching, h₁]
  refine ⟨h₇ ▸ h.storage, fun _ => ⟨h₂, h₃, h₄⟩, fun hn => absurd h₁ hn, ?_, ?_, fun hp => .inl ?_,
    fun hat => absurd hat hnot, fun hat => absurd hat hnot, fun hp => ?_, fun _ _ hop => ?_⟩
  · rw [h₇, h₆, h.retained]
  · rw [h₅, h₆]
    exact h.attached
  · rw [h₆] at hp
    rw [h₅]
    rcases h.published hp with hat | ⟨hat, hs⟩
    · exact hat
    · rw [hdone hat, hactive] at hs
      simp at hs
  · rw [h₇]
    exact h.held (h₆ ▸ hp)
  · rw [h₂] at hop
    cases hop

theorem outstanding_released (h : Inv w) (hactive : w.owner.active ≠ none) :
    w.outstanding - 1 = 0 := by
  rw [h.outstanding, if_pos (Option.isSome_iff_ne_none.mpr hactive)]

/-- The owner whose idle exchange has failed its guard. -/
def Owner.Stopped (o o' : Owner) : Prop :=
  o.active = some .idle ∧ o' = { o with active := some .failed }

/-- A stopped exchange is still held. -/
theorem Sound.stopped (h : Sound o) (hs : o.Stopped o') : Sound o' := by
  obtain ⟨hactive, rfl⟩ := hs
  have hattaching : ({ o with active := some Phase.failed } : Owner).attaching = o.attaching := by
    simp [Owner.attaching, hactive]
  have hbusy : o.active ≠ none := by rw [hactive]; simp
  refine ⟨h.storage, fun hn => (by cases hn), fun _ => h.busy hbusy, h.retained, h.attached,
    fun hp => ?_, fun hat hst => ?_, fun hat => ?_, h.held, h.boost⟩
  · rw [hattaching]
    exact (h.published hp).imp_right fun hat => ⟨hat.1, .inr (by simp)⟩
  · rw [hattaching] at hat
    exact h.sent hat hst
  · rw [hattaching] at hat
    exact h.attaching hat

theorem Inv.stopped (h : Inv w) (hs : w.owner.Stopped o') : Inv { w with owner := o' } where
  sound := h.sound.stopped hs
  exposed := by
    rw [hs.2]
    exact h.exposed
  outstanding := by
    rw [h.outstanding, hs.2, hs.1]
    rfl
  requests := by
    rw [hs.2]
    exact h.requests
  accepted := by
    rw [hs.2]
    exact h.accepted

theorem guardIdle_spec :
    Spec (guardIdle a) o (fun _ o' => o' = o ∧ o.active = some .idle)
      fun _ o' => o' = o ∨ o.Stopped o' := by
  refine .get_bind ?_
  refine .failIf_bind (fun _ => .inl rfl) fun hi => ?_
  have hactive : o.active = some .idle := Decidable.not_not.mp hi
  refine .modify_bind (g := fun _ => { o with
    active := some (if a.exchange = true then Phase.idle else Phase.failed) }) ?_
  by_cases hx : a.exchange = false
  · unfold Spec
    rw [failIf_of hx]
    exact .inr ⟨hactive, by simp [hx]⟩
  · unfold Spec
    rw [failIf_of_not hx]
    refine ⟨?_, hactive⟩
    cases o
    simp_all

theorem handoff_spec :
    Spec (handoff a) o
      (fun _ o' => o.Released o' ∧ o'.performance = o.performance ∧ o.active = some .idle ∧
        o.completed = true)
      fun _ o' => o' = o ∨ o.Stopped o' := by
  refine .get_bind ?_
  refine .failIf_bind (fun _ => .inl rfl) fun hc => ?_
  refine .seq guardIdle_spec (fun _ o₁ h₁ => ?_) fun _ _ h => h
  obtain ⟨rfl, hi⟩ := h₁
  simp only [not_or, Decidable.not_not] at hc
  exact ⟨⟨rfl, rfl, rfl, rfl, rfl, rfl, rfl⟩, rfl, hi, hc.1⟩

/-- A control is cancelled only before it is sent, and a boost takes its request with it. -/
theorem cancelUnstarted_spec :
    Spec (cancelUnstarted a) o
      (fun _ o' => o.Released o' ∧ o.active = some .idle ∧ o.started = false ∧
        ∃ operation, o.operation = some operation ∧
          (operation.boosts = false → o'.performance = o.performance) ∧
          (operation.boosts = true → o.performance.pending ≠ none ∧
            o'.performance = { o.performance with pending := none }))
      fun _ o' => o' = o ∨ o.Stopped o' := by
  refine .get_bind ?_
  refine .failIf_bind (fun _ => .inl rfl) fun hs => ?_
  refine .need_bind (fun _ => .inl rfl) fun operation hop => ?_
  refine .failIf_bind (fun _ => .inl rfl) fun _ => ?_
  refine .failIf_bind (fun _ => .inl rfl) fun hr => ?_
  refine .failIf_bind (fun _ => .inl rfl) fun hp => ?_
  refine .seq guardIdle_spec (fun _ o₁ h₁ => ?_) fun _ _ h => h
  obtain ⟨rfl, hi⟩ := h₁
  refine .failIf_bind (fun _ => .inl rfl) fun _ => ?_
  simp only [not_or, Decidable.not_not, not_and, Bool.not_eq_true] at hs hr hp
  refine ⟨⟨rfl, rfl, hs.1, hs.2, rfl, rfl, rfl⟩, hi, hs.1, operation, hop, fun hb => ?_, fun hb => ?_⟩
  · simp [hb]
  · refine ⟨?_, by simp [hb]⟩
    rw [hp hb]
    exact hr hb

end Power
end NvidiaGsp
