import NvidiaGsp.Vm.Owner

/-!
# Vm.OwnerSpec

What each part of the owner can do. The checks only let the device state pass (`Quiet`); the edits
of a piece of work write table words and retire tables, and leave a trace of both (`Edits`); an
invalidation only touches the bus. Every specification is stated for a predicate `K` of the device
state that the registers and the validity check keep, so that later invariants can carry what they
need of the backend.
-/

namespace NvidiaGsp
namespace Vm

open Call

/-- The registers and the validity check keep `K`. -/
structure Port.Keeps {E : Type} (port : Port E) (K : E → Prop) : Prop where
  io : port.io.Keeps K
  valid : ∀ id t e, K e → K (port.valid id t e).2

variable {E : Type} {port : Port E} {K : E → Prop} {w w' : World E}

/-- Only the device state moved. -/
structure Quiet (K : E → Prop) (w w' : World E) : Prop where
  owner : w'.owner = w.owner
  heap : w'.heap = w.heap
  trace : w'.trace = w.trace
  env : K w'.env

theorem Quiet.trans {w'' : World E} (h : Quiet K w w') (h' : Quiet K w' w'') : Quiet K w w'' :=
  ⟨h'.owner.trans h.owner, h'.heap.trans h.heap, h'.trace.trans h.trace, h'.env⟩

theorem update_bind {β : Type} {f : Owner E → Owner E} {g : Unit → VmCall E β}
    {R : β → World E → Prop} {F : Error → World E → Prop}
    (h : Spec (g ()) { w with owner := f w.owner } R F) : Spec (update f >>= g) w R F := h

theorem callback_bind {α β : Type} {f : E → α × E} {g : α → VmCall E β}
    {R : β → World E → Prop} {F : Error → World E → Prop}
    (h : Spec (g (f w.env).1) { w with env := (f w.env).2 } R F) :
    Spec (callback f >>= g) w R F := h

theorem log_bind {β : Type} {a : Access} {g : Unit → VmCall E β} {R : β → World E → Prop}
    {F : Error → World E → Prop} (h : Spec (g ()) { w with trace := w.trace ++ [a] } R F) :
    Spec (log a >>= g) w R F := h

theorem orFail_spec {α : Type} {x : VmCall E α} {Q : α → World E → Prop}
    {F G : Error → World E → Prop} (h : Spec x w Q F)
    (hfail : ∀ e w', F e w' → G e { w' with
      owner := { w'.owner with failure := some (w'.owner.failure.getD e) } }) :
    Spec (orFail x) w Q G := by
  unfold Spec orFail at *
  cases hx : x w with
  | ok a w' =>
    rw [hx] at h
    exact h
  | error e w' =>
    rw [hx] at h
    exact hfail e w' h

/-! ## Checks -/

section

theorem stable_spec (hK : port.Keeps K) (h : K w.env) :
    Spec (stable port) w
      (fun _ w' => Quiet K w w' ∧ w.owner.failure = none ∧ w.owner.prepared = true)
      (fun e w' => Quiet K w w' ∧ (e = .Stale ∨ e = .Retained ∧ w.owner.failure ≠ none)) := by
  have henv := hK.io.generation _ h
  unfold stable
  refine .get_bind (.failIf_bind (fun _ => ⟨⟨rfl, rfl, rfl, h⟩, .inl rfl⟩) fun hprep => ?_)
  refine callback_bind (.failIf_bind (fun _ => ⟨⟨rfl, rfl, rfl, henv⟩, .inl rfl⟩) fun _ => ?_)
  refine .intro (fun _ w' hx => ?_) fun e w' hx => ?_
  · obtain ⟨hc, rfl⟩ := failIf_ok_iff.1 hx
    refine ⟨⟨rfl, rfl, rfl, henv⟩, Decidable.not_not.mp hc, ?_⟩
    simpa using not_or.mp hprep |>.1
  · obtain ⟨hc, rfl, rfl⟩ := failIf_error_iff.1 hx
    exact ⟨⟨rfl, rfl, rfl, henv⟩, .inr ⟨rfl, hc⟩⟩

theorem tableValid_spec {id : TableId} (hK : port.Keeps K) (h : K w.env) :
    Spec (tableValid port id) w (fun _ w' => Quiet K w w')
      (fun e w' => Quiet K w w' ∧ e ≠ .Retained ∧ e ≠ .Busy) := by
  have henv := hK.valid id (w.heap id) _ h
  have hquiet : Quiet K w { w with env := (port.valid id (w.heap id) w.env).2 } :=
    ⟨rfl, rfl, rfl, henv⟩
  unfold tableValid
  refine .get_bind (.failIf_bind (fun _ => ⟨⟨rfl, rfl, rfl, h⟩, by simp, by simp⟩) fun _ => ?_)
  refine callback_bind (.failIf_bind (fun _ => ⟨hquiet, by simp, by simp⟩) fun _ => ?_)
  refine .lift_bind (fun e he => ⟨hquiet, ?_⟩) fun key _ => ?_
  · unfold tableKey at he
    repeat' split at he
    all_goals cases he
    simp
  refine .failIf_bind (fun _ => ⟨hquiet, by simp, by simp⟩) fun _ => ?_
  refine .lift_bind (fun e he => ⟨hquiet, ?_⟩) fun _ _ => .pure hquiet
  unfold directory at he
  cases hp : physical (w.heap id).dma .systemCoherent with
  | ok u =>
    rw [hp] at he
    cases he
  | error e' =>
    rw [hp] at he
    cases he
    unfold physical at hp
    dsimp only at hp
    generalize (if Aperture.systemCoherent = Aperture.video then videoLimit else systemLimit) = l at hp
    repeat' split at hp
    all_goals cases hp
    all_goals simp

theorem workTime_spec (hK : port.Keeps K) (h : K w.env) :
    Spec (workTime port) w
      (fun now w' => ∃ work, w.owner.work = some work ∧ w'.heap = w.heap ∧ w'.trace = w.trace ∧
        K w'.env ∧ w'.owner = { w.owner with work := some { work with lastTime := now } })
      (fun _ w' => Quiet K w w') := by
  have henv := hK.io.nowNs _ h
  unfold workTime
  refine .get_bind (.need_bind (fun _ => ⟨rfl, rfl, rfl, h⟩) fun work hwork => ?_)
  refine callback_bind (.failIf_bind (fun _ => ⟨rfl, rfl, rfl, henv⟩) fun _ => ?_)
  refine update_bind (.pure ⟨work, hwork, rfl, rfl, henv, ?_⟩)
  simp [hwork]

theorem rootAddress_spec (hK : port.Keeps K) (h : K w.env) :
    Spec (rootAddress port) w
      (fun dma w' => Quiet K w w' ∧ w.owner.failure = none ∧ w.owner.prepared = true ∧
        ∃ root, w.owner.root = some root ∧ dma = (w.heap root).dma)
      (fun _ w' => Quiet K w w') := by
  unfold rootAddress
  refine .seq (stable_spec hK h) (fun _ w₁ h₁ => ?_) fun _ _ h => h.1
  obtain ⟨q₁, hfail, hprep⟩ := h₁
  refine .get_bind (.need_bind (fun _ => q₁) fun root hroot => ?_)
  refine .seq (tableValid_spec hK q₁.env) (fun _ w₂ h₂ => ?_) fun _ _ h => q₁.trans h.1
  have q₂ := q₁.trans h₂
  rw [q₁.owner] at hroot
  refine .get_bind (.pure ⟨q₂, hfail, hprep, root, hroot, ?_⟩)
  rw [q₂.heap]

theorem nextSerial_spec :
    Spec (nextSerial : VmCall E Nat) w
      (fun serial w' => w' = { w with owner := { w.owner with serial } })
      (fun e w' => w' = w ∧ e = .Exhausted) := by
  unfold nextSerial
  refine .get_bind (.failIf_bind (fun _ => ⟨rfl, rfl⟩) fun _ => ?_)
  exact update_bind (.pure rfl)

end

/-! ## Edits -/

/-- A write of a table word. -/
def IsEdit (a : Access) : Prop :=
  (∃ t s v, a = .set t s v) ∨ ∃ t p s, a = .unlink t p s

/-- The trace grew by writes of table words. -/
structure EditLog (w w' : World E) : Prop where
  trace : ∃ d, w'.trace = w.trace ++ d ∧ ∀ a ∈ d, IsEdit a
  prepared : w'.owner.prepared = w.owner.prepared

theorem EditLog.of_eq (h : w'.trace = w.trace) (ho : w'.owner = w.owner) : EditLog w w' :=
  ⟨⟨[], by simp [h], fun a ha => absurd ha (by simp)⟩, by rw [ho]⟩

theorem EditLog.trans {w'' : World E} (h : EditLog w w') (h' : EditLog w' w'') : EditLog w w'' := by
  obtain ⟨d, hd, hedit⟩ := h.trace
  obtain ⟨d', hd', hedit'⟩ := h'.trace
  refine ⟨⟨d ++ d', by rw [hd', hd, List.append_assoc], fun a ha => ?_⟩,
    h'.prepared.trans h.prepared⟩
  rcases List.mem_append.mp ha with ha | ha
  · exact hedit a ha
  · exact hedit' a ha

/-- The work after an edit differs at most in its offset and its time. -/
def SameWork (k k' : Work) : Prop :=
  k'.binding = k.binding ∧ k'.mapping = k.mapping ∧ k'.phase = k.phase ∧
    k'.invalidate = k.invalidate

/-- What editing may change: the index, the retired tables and the progress of the work; a table is
retired only by unlinking it. -/
structure Edits (w w' : World E) : Prop where
  owner : ∃ tables retired work, w'.owner = { w.owner with tables, retired, work }
  work : ∃ f : Work → Work, w'.owner.work = w.owner.work.map f ∧ ∀ k, SameWork k (f k)
  trace : ∃ d, w'.trace = w.trace ++ d ∧ (∀ a ∈ d, IsEdit a) ∧
    ∀ t ∈ w'.owner.retired, t ∈ w.owner.retired ∨ ∃ p s, .unlink t p s ∈ d

theorem Edits.of_owner (ho : ∃ tables, w'.owner = { w.owner with tables })
    (ht : ∃ d, w'.trace = w.trace ++ d ∧ ∀ a ∈ d, IsEdit a) : Edits w w' := by
  obtain ⟨tables, ho⟩ := ho
  obtain ⟨d, hd, hedit⟩ := ht
  refine ⟨⟨tables, w.owner.retired, w.owner.work, ho⟩, ⟨id, by simp [ho], fun _ => ⟨rfl, rfl, rfl, rfl⟩⟩,
    ⟨d, hd, hedit, fun t ht => .inl ?_⟩⟩
  rw [ho] at ht
  exact ht

theorem Edits.of_quiet (h : Quiet K w w') : Edits w w' :=
  .of_owner ⟨w.owner.tables, h.owner⟩ ⟨[], by simp [h.trace], fun a ha => absurd ha (by simp)⟩

theorem Edits.trans {w'' : World E} (h : Edits w w') (h' : Edits w' w'') : Edits w w'' := by
  obtain ⟨t₁, r₁, k₁, ho⟩ := h.owner
  obtain ⟨t₂, r₂, k₂, ho'⟩ := h'.owner
  obtain ⟨f, hf, hsame⟩ := h.work
  obtain ⟨f', hf', hsame'⟩ := h'.work
  obtain ⟨d, hd, hedit, hret⟩ := h.trace
  obtain ⟨d', hd', hedit', hret'⟩ := h'.trace
  refine ⟨⟨t₂, r₂, k₂, by rw [ho', ho]⟩, ⟨f' ∘ f, ?_, fun k => ?_⟩, ⟨d ++ d', ?_, fun a ha => ?_,
    fun t ht => ?_⟩⟩
  · rw [hf', hf, Option.map_map]
  · obtain ⟨a₁, a₂, a₃, a₄⟩ := hsame k
    obtain ⟨b₁, b₂, b₃, b₄⟩ := hsame' (f k)
    exact ⟨b₁.trans a₁, b₂.trans a₂, b₃.trans a₃, b₄.trans a₄⟩
  · rw [hd', hd, List.append_assoc]
  · rcases List.mem_append.mp ha with ha | ha
    · exact hedit a ha
    · exact hedit' a ha
  · rcases hret' t ht with ht | ⟨p, s, hs⟩
    · rcases hret t ht with ht | ⟨p, s, hs⟩
      · exact .inl ht
      · exact .inr ⟨p, s, List.mem_append_left _ hs⟩
    · exact .inr ⟨p, s, List.mem_append_right _ hs⟩

theorem Edits.log (h : Edits w w') : EditLog w w' := by
  obtain ⟨d, hd, hedit, -⟩ := h.trace
  obtain ⟨_, _, _, ho⟩ := h.owner
  exact ⟨⟨d, hd, hedit⟩, by rw [ho]⟩

theorem Quiet.log (h : Quiet K w w') : EditLog w w' := .of_eq h.trace h.owner

section

/-- Nothing of the device state is asked for here. -/
theorem keeps_true (port : Port E) : port.Keeps fun _ => True :=
  ⟨⟨fun _ _ => trivial, fun _ _ => trivial, fun _ _ _ => trivial, fun _ _ _ _ => trivial⟩,
    fun _ _ _ _ => trivial⟩

theorem createTable_edits {level : Level} {address : Nat} {parent : Option TableId} :
    Spec (createTable port level address parent) w (fun _ w' => Edits w w' ∧ w'.trace = w.trace)
      (fun _ w' => w'.owner = w.owner ∧ w'.trace = w.trace) := by
  unfold createTable
  refine .lift_bind (fun _ _ => ⟨rfl, rfl⟩) fun key _ => ?_
  refine .get_bind (.failIf_bind (fun _ => ⟨rfl, rfl⟩) fun _ => ?_)
  refine callback_bind (.lift_bind (fun _ _ => ⟨rfl, rfl⟩) fun ⟨id, t⟩ _ => ?_)
  refine .failIf_bind (fun _ => ⟨rfl, rfl⟩) fun _ => ?_
  refine callback_bind (.failIf_bind (fun _ => ⟨rfl, rfl⟩) fun _ => ?_)
  refine .lift_bind (fun _ _ => ⟨rfl, rfl⟩) fun _ _ => ?_
  refine .failIf_bind (fun _ => ⟨rfl, rfl⟩) fun _ => ?_
  exact ⟨.of_owner ⟨_, rfl⟩ ⟨[], by simp, fun a ha => absurd ha (by simp)⟩, rfl⟩

theorem linkChild_edits {create : Bool} {level : Level} {address slot : Nat} {parent : TableId} :
    Spec (linkChild port create level address parent slot) w (fun _ w' => Edits w w')
      (fun _ w' => EditLog w w') := by
  unfold linkChild
  refine .get_bind (.failIf_bind (fun _ => .of_eq rfl rfl) fun _ => ?_)
  refine .seq createTable_edits (fun child w₁ h₁ => ?_) fun _ _ h => .of_eq h.2 h.1
  refine .get_bind (.lift_bind (fun _ _ => h₁.1.log) fun word _ => ?_)
  refine h₁.1.trans (.of_owner ⟨_, rfl⟩ ⟨[.set parent slot word], rfl, fun a ha => ?_⟩)
  rw [List.mem_singleton.mp ha]
  exact .inl ⟨_, _, _, rfl⟩

theorem descend_edits {create : Bool} {address : Nat} {levels : List Level} {parent : TableId} :
    Spec (descend port create address levels parent) w (fun _ w' => Edits w w')
      (fun _ w' => EditLog w w') := by
  induction levels generalizing w parent with
  | nil => exact .of_quiet (K := fun _ => True) ⟨rfl, rfl, rfl, trivial⟩
  | cons level levels ih =>
    unfold descend
    refine .seq (tableValid_spec (keeps_true port) trivial) (fun _ w₁ h₁ => ?_) fun _ _ h => h.1.log
    have e₁ := Edits.of_quiet h₁
    refine .get_bind (.lift_bind (fun _ _ => e₁.log) fun slot _ => ?_)
    refine .lift_bind (fun _ _ => e₁.log) fun key _ => .get_bind ?_
    -- Whether the child exists or is made, what follows only needs the edits so far.
    have hrest (child : TableId) (w₂ : World E) (e₂ : Edits w w₂) :
        Spec (do
          tableValid port child
          let w ← get
          let word ← lift (directory (w.heap child).dma)
          failIf ((w.heap child).retiring = true ∨ (w.heap child).parent ≠ some parent ∨
            (w.heap child).level ≠ level ∨ (w.heap parent).words slot ≠ word ∨
            (w.heap parent).level = .dual ∧ (w.heap parent).words (slot - 1) ≠ 0) .Descriptor
          descend port create address levels child) w₂ (fun _ w' => Edits w w')
          (fun _ w' => EditLog w w') := by
      refine .seq (tableValid_spec (keeps_true port) trivial) (fun _ w₃ h₃ => ?_)
        fun _ _ h => e₂.log.trans h.1.log
      have e₃ := e₂.trans (.of_quiet h₃)
      refine .get_bind (.lift_bind (fun _ _ => e₃.log) fun word _ => ?_)
      refine .failIf_bind (fun _ => e₃.log) fun _ => ?_
      exact ih.mono (fun _ _ h => e₃.trans h) fun _ _ h => e₃.log.trans h
    split
    · exact .bind (.pure (hrest _ _ e₁))
    · exact .seq linkChild_edits (fun child w₂ h₂ => hrest child w₂ (e₁.trans h₂))
        fun _ _ h => e₁.log.trans h

theorem retireEmpty_edits {depth : Nat} {cursor : TableId} :
    Spec (retireEmpty port depth cursor) w (fun _ w' => Edits w w') (fun _ w' => EditLog w w') := by
  have hself (w : World E) : Edits w w :=
    .of_quiet (K := fun _ => True) ⟨rfl, rfl, rfl, trivial⟩
  induction depth generalizing w cursor with
  | zero => exact hself w
  | succ depth ih =>
    unfold retireEmpty
    refine .get_bind ?_
    split
    · exact .pure (hself w)
    · rename_i parent _
      split
      · exact .pure (hself w)
      refine .seq (tableValid_spec (keeps_true port) trivial) (fun _ w₁ h₁ => ?_) fun _ _ h => h.1.log
      refine .seq (tableValid_spec (keeps_true port) trivial) (fun _ w₂ h₂ => ?_)
        fun _ _ h => (h₁.trans h.1).log
      have e₂ := Edits.of_quiet (h₁.trans h₂)
      refine .get_bind (.failIf_bind (fun _ => e₂.log) fun _ => ?_)
      refine .lift_bind (fun _ _ => e₂.log) fun slot _ => .lift_bind (fun _ _ => e₂.log) fun word _ => ?_
      refine .failIf_bind (fun _ => e₂.log) fun _ => ?_
      refine .bind ?_
      have e₃ : Edits w₂ { w₂ with
          heap := Function.update (Function.update w₂.heap parent ((w₂.heap parent).put slot 0
            ((w₂.heap parent).used - 1))) cursor { w₂.heap cursor with retiring := true }
          owner := { w₂.owner with retired := cursor :: w₂.owner.retired }
          trace := w₂.trace ++ [.unlink cursor parent slot] } := by
        refine ⟨⟨_, _, _, rfl⟩, ⟨id, by simp, fun _ => ⟨rfl, rfl, rfl, rfl⟩⟩,
          ⟨[.unlink cursor parent slot], rfl, fun a ha => ?_, fun t ht => ?_⟩⟩
        · rw [List.mem_singleton.mp ha]
          exact .inr ⟨_, _, _, rfl⟩
        · rcases List.mem_cons.mp ht with rfl | ht
          · exact .inr ⟨parent, slot, List.mem_singleton.mpr rfl⟩
          · exact .inl ht
      have e := e₂.trans e₃
      exact ih.mono (fun _ _ h => e.trans h) fun _ _ h => e.log.trans h

end

end Vm
end NvidiaGsp
