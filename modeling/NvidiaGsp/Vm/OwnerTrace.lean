import NvidiaGsp.Vm.OwnerSpec

/-!
# Vm.OwnerTrace

Nothing is given back and no work finishes before its invalidation. `Stage` reads the trace of the
current work by its phase: table words are written first, then the bus sees the invalidation of the
root, then tables are released. `retirement_run` draws the conclusion for every poll of every run.
-/

namespace NvidiaGsp
namespace Vm

open Call

variable {E : Type} {port : Port E} {w w' : World E}

/-! ## Pages -/

theorem updateWork_edits {f : Work → Work} (hf : ∀ k, SameWork k (f k)) :
    Edits w { w with owner := { w.owner with work := w.owner.work.map f } } :=
  ⟨⟨_, _, _, rfl⟩, ⟨f, rfl, hf⟩, ⟨[], by simp, fun a ha => absurd ha (by simp), fun _ ht => .inl ht⟩⟩

theorem set_edits (heap : TableId → Table) (table slot word : Nat) :
    Edits w { w with heap, trace := w.trace ++ [.set table slot word] } := by
  refine .of_owner ⟨_, rfl⟩ ⟨[.set table slot word], rfl, fun a ha => ?_⟩
  rw [List.mem_singleton.mp ha]
  exact .inl ⟨_, _, _, rfl⟩

theorem leaf_edits {address : Nat} {create : Bool} :
    Spec (leaf port address create) w (fun _ w' => Edits w w') (fun _ w' => EditLog w w') := by
  unfold leaf
  exact .get_bind (.need_bind (fun _ => .of_eq rfl rfl) fun _ _ => descend_edits)

theorem editPage_edits {range : Range} {binding : Binding E} {work : Work} :
    Spec (editPage port range binding work) w (fun _ w' => Edits w w')
      (fun _ w' => EditLog w w') := by
  have hoffset (k : Work) : SameWork k { k with offset := k.offset + 4096 } := ⟨rfl, rfl, rfl, rfl⟩
  unfold editPage
  refine .get_bind (.lift_bind (fun _ _ => .of_eq rfl rfl) fun physical _ => ?_)
  refine .lift_bind (fun _ _ => .of_eq rfl rfl) fun word _ => ?_
  refine .seq leaf_edits (fun table w₁ e₁ => ?_) fun _ _ h => h
  refine .get_bind (.lift_bind (fun _ _ => e₁.log) fun slot _ => ?_)
  split
  · refine .failIf_bind (fun _ => e₁.log) fun _ => ?_
    exact e₁.trans ((set_edits _ _ _ _).trans (updateWork_edits hoffset))
  · refine .failIf_bind (fun _ => e₁.log) fun _ => ?_
    have e₂ := e₁.trans (set_edits (Function.update w₁.heap table ((w₁.heap table).put slot 0
      ((w₁.heap table).used - 1))) table slot 0)
    refine .bind (?_ : Spec (retireEmpty port 5 table >>= _) _ _ _)
    refine .seq retireEmpty_edits (fun _ w₂ h₂ => ?_) fun _ _ h => e₂.log.trans h
    exact e₂.trans (h₂.trans (updateWork_edits hoffset))

theorem workTime_edits :
    Spec (workTime port) w (fun _ w' => Edits w w') (fun _ w' => EditLog w w') := by
  refine (workTime_spec (keeps_true port) trivial).mono (fun now w' h => ?_) fun _ _ h => h.log
  obtain ⟨work, hwork, -, htrace, -, howner⟩ := h
  refine ⟨⟨_, _, _, howner⟩, ⟨fun k => { k with lastTime := now }, ?_, fun _ => ⟨rfl, rfl, rfl, rfl⟩⟩,
    ⟨[], by simp [htrace], fun a ha => absurd ha (by simp), fun t ht => .inl ?_⟩⟩
  · rw [howner, hwork]
    rfl
  · rw [howner] at ht
    exact ht

theorem edit_edits {binding : Binding E} {started left : Nat} :
    Spec (edit port binding started left) w (fun _ w' => Edits w w') (fun _ w' => EditLog w w') := by
  have hself (w : World E) : Edits w w :=
    .of_quiet (K := fun _ => True) ⟨rfl, rfl, rfl, trivial⟩
  induction left generalizing w binding with
  | zero => exact hself w
  | succ left ih =>
    unfold edit
    refine .get_bind (.need_bind (fun _ => .of_eq rfl rfl) fun work _ => ?_)
    split
    · refine .seq workTime_edits (fun now w₁ e₁ => ?_) fun _ _ h => h
      split
      · exact .pure e₁
      · refine .seq (stable_spec (keeps_true port) trivial) (fun _ w₂ h₂ => ?_)
          fun _ _ h => e₁.log.trans h.1.log
        have e₂ := e₁.trans (.of_quiet h₂.1)
        refine .get_bind (.lift_bind (fun _ _ => e₂.log) fun ⟨range, found⟩ _ => ?_)
        refine .seq editPage_edits (fun _ w₃ e₃ => ?_) fun _ _ h => e₂.log.trans h
        have e := e₂.trans e₃
        exact ih.mono (fun _ _ h => e.trans h) fun _ _ h => e.log.trans h
    · exact .pure (hself w)

/-! ## Stages -/

/-- The accesses of a piece of work up to the release of its tables: its edits, the complete
invalidation of the root at `rootDma`, and nothing but releases since. -/
def Settled (rootDma : Nat) (trace edits : List Access) : Prop :=
  ∃ before id mapping seen done low high,
    trace = before ++ .start id mapping :: (edits ++ (seen.map .bus ++ done)) ∧
    words rootDma = .ok (low, high) ∧ Invalidated low high seen ∧ (∀ a ∈ edits, IsEdit a) ∧
    ∀ a ∈ done, ∃ t, a = .release t

/-- What the trace holds after the edits, by phase. -/
def Since (w : World E) (work : Work) (rest : List Access) : Prop :=
  match work.phase with
  | .editing => rest = []
  | .invalidating => ∃ op low high seen, work.invalidate = some op ∧
    words op.rootDma = .ok (low, high) ∧ rest = seen.map .bus ∧ Progress low high op.phase seen
  | .releasing => ∃ root low high seen done, w.owner.root = some root ∧
    words (w.heap root).dma = .ok (low, high) ∧ rest = seen.map .bus ++ done ∧
    Invalidated low high seen ∧ ∀ a ∈ done, ∃ t, a = .release t

/-- The trace of the current work; the retired tables were unlinked in it. -/
def Stage (w : World E) (work : Work) : Prop :=
  ∃ before edits rest, w.trace = before ++ .start work.binding work.mapping :: (edits ++ rest) ∧
    (∀ a ∈ edits, IsEdit a) ∧ (∀ t ∈ w.owner.retired, ∃ p s, .unlink t p s ∈ edits) ∧
    Since w work rest

structure Traced (w : World E) : Prop where
  failed : w.owner.failure ≠ none → w.owner.prepared = true
  unprepared : w.owner.prepared = false → w.owner.work = none
  idle : w.owner.failure = none → w.owner.work = none → w.owner.retired = []
  busy : w.owner.failure = none → ∀ work, w.owner.work = some work → Stage w work

/-- A failed owner: only the work it left matters no more. -/
theorem Traced.of_failed (hf : w.owner.failure ≠ none) (hp : w.owner.prepared = true) : Traced w :=
  ⟨fun _ => hp, fun h => absurd (hp.symm.trans h) (by simp), fun h => absurd h hf,
    fun h => absurd h hf⟩

theorem Traced.of_idle (hf : w.owner.failure ≠ none → w.owner.prepared = true)
    (hw : w.owner.work = none) (hr : w.owner.retired = []) : Traced w :=
  ⟨hf, fun _ => hw, fun _ _ => hr, fun _ work h => absurd (hw.symm.trans h) (by simp)⟩

theorem Settled.of_stage {work : Work} (h : Stage w work) (hp : work.phase = .releasing) :
    ∃ root edits, w.owner.root = some root ∧ Settled (w.heap root).dma w.trace edits ∧
      ∀ t ∈ w.owner.retired, ∃ p s, .unlink t p s ∈ edits := by
  obtain ⟨before, edits, rest, htrace, hedit, hret, hsince⟩ := h
  unfold Since at hsince
  rw [hp] at hsince
  obtain ⟨root, low, high, seen, done, hroot, hwords, rfl, hinv, hdone⟩ := hsince
  exact ⟨root, edits, hroot, ⟨before, _, _, seen, done, low, high, htrace, hwords, hinv, hedit, hdone⟩,
    hret⟩

/-- Editing keeps the stage of an edited work. -/
theorem Stage.edits {work : Work} (h : Stage w work) (hp : work.phase = .editing)
    (hw : w.owner.work = some work) (e : Edits w w') :
    ∃ work', w'.owner.work = some work' ∧ SameWork work work' ∧ Stage w' work' := by
  obtain ⟨before, edits, rest, htrace, hedit, hret, hsince⟩ := h
  unfold Since at hsince
  rw [hp] at hsince
  subst hsince
  obtain ⟨f, hf, hsame⟩ := e.work
  obtain ⟨d, hd, hedit', hret'⟩ := e.trace
  rw [hw] at hf
  obtain ⟨hb, hm, hph, hinv⟩ := hsame work
  refine ⟨f work, hf, hsame work, before, edits ++ d, [], ?_, fun a ha => ?_, fun t ht => ?_, ?_⟩
  · rw [hd, htrace, hb, hm]
    simp
  · rcases List.mem_append.mp ha with ha | ha
    · exact hedit a ha
    · exact hedit' a ha
  · rcases hret' t ht with ht | ⟨p, s, hs⟩
    · obtain ⟨p, s, hs⟩ := hret t ht
      exact ⟨p, s, List.mem_append_left _ hs⟩
    · exact ⟨p, s, List.mem_append_right _ hs⟩
  · unfold Since
    rw [hph, hp]

/-! ## Polls -/

/-- A call that fails: the trace grew without a release. -/
structure Unreleased (w w' : World E) : Prop where
  trace : ∃ d, w'.trace = w.trace ++ d ∧ ∀ t, .release t ∉ d
  prepared : w'.owner.prepared = w.owner.prepared

theorem EditLog.unreleased (h : EditLog w w') : Unreleased w w' := by
  obtain ⟨d, hd, hedit⟩ := h.trace
  refine ⟨⟨d, hd, fun t ht => ?_⟩, h.prepared⟩
  rcases hedit _ ht with ⟨_, _, _, h⟩ | ⟨_, _, _, h⟩ <;> cases h

theorem Unreleased.trans {w'' : World E} (h : Unreleased w w') (h' : Unreleased w' w'') :
    Unreleased w w'' := by
  obtain ⟨d, hd, hnot⟩ := h.trace
  obtain ⟨d', hd', hnot'⟩ := h'.trace
  refine ⟨⟨d ++ d', by rw [hd', hd, List.append_assoc], fun t ht => ?_⟩,
    h'.prepared.trans h.prepared⟩
  rcases List.mem_append.mp ht with ht | ht
  · exact hnot t ht
  · exact hnot' t ht

/-- A step of the work that goes on. -/
structure Goes (w w' : World E) : Prop where
  failure : w'.owner.failure = w.owner.failure
  unreleased : Unreleased w w'
  stage : ∃ work, w'.owner.work = some work ∧ Stage w' work

theorem Edits.failure (h : Edits w w') : w'.owner.failure = w.owner.failure := by
  obtain ⟨_, _, _, ho⟩ := h.owner
  rw [ho]

theorem editing_goes {binding : Binding E} {started : Nat} {work : Work}
    (hw : w.owner.work = some work) (hp : work.phase = .editing) (h : Stage w work) :
    Spec (editing port binding started) w (fun b w' => b = false ∧ Goes w w')
      (fun _ w' => Unreleased w w') := by
  unfold editing
  refine .seq edit_edits (fun _ w₁ e₁ => ?_) fun _ _ h => h.unreleased
  obtain ⟨work₁, hw₁, hsame₁, h₁⟩ := h.edits hp hw e₁
  have hp₁ : work₁.phase = .editing := hsame₁.2.2.1.trans hp
  refine .get_bind (.need_bind (fun _ => e₁.log.unreleased) fun _ _ => ?_)
  split
  · refine .seq workTime_edits (fun _ w₂ e₂ => ?_) fun _ _ h => (e₁.log.trans h).unreleased
    obtain ⟨work₂, hw₂, hsame₂, h₂⟩ := h₁.edits hp₁ hw₁ e₂
    have e := e₁.trans e₂
    refine .get_bind (.seq (rootAddress_spec (keeps_true port) trivial) (fun dma w₃ h₃ => ?_)
      fun _ _ h => (e.log.trans h.log).unreleased)
    obtain ⟨q₃, -, -, root, hroot, rfl⟩ := h₃
    have e' := e.trans (.of_quiet q₃)
    refine .seq nextSerial_spec (fun serial w₄ h₄ => ?_) fun _ _ h => ?_
    · subst h₄
      have hlog : Unreleased w { w₃ with owner := { w₃.owner with serial } } :=
        ⟨e'.log.unreleased.trace, e'.log.prepared⟩
      refine .lift_bind (fun _ _ => hlog) fun operation hop => ?_
      refine ⟨rfl, e'.failure, ⟨hlog.trace, hlog.prepared⟩, ?_⟩
      have hwork : w₃.owner.work = some work₂ := by rw [q₃.owner, hw₂]
      refine ⟨{ work₂ with invalidate := some operation, phase := .invalidating }, ?_, ?_⟩
      · show w₃.owner.work.map _ = _
        rw [hwork]
        rfl
      · obtain ⟨before, edits, rest, htrace, hedit, hret, hsince⟩ := h₂
        unfold Since at hsince
        rw [hsame₂.2.2.1.trans hp₁] at hsince
        subst hsince
        refine ⟨before, edits, [], ?_, hedit, fun t ht => hret t ?_, ?_⟩
        · exact q₃.trace.trans htrace
        · rw [← q₃.owner]
          exact ht
        · unfold Operation.init at hop
          split at hop
          · cases hop
          · cases hwords : words (w₂.heap root).dma with
            | error e =>
              rw [hwords] at hop
              cases hop
            | ok address =>
              rw [hwords] at hop
              cases hop
              exact ⟨_, address.1, address.2, [], rfl, hwords, rfl, .start⟩
    · rw [h.1]
      exact e'.log.unreleased
  · exact .pure ⟨rfl, e₁.failure, e₁.log.unreleased, work₁, hw₁, h₁⟩

/-- A call on the operation of the work. -/
theorem withOperation_spec {α : Type} {x : TlbCall E α} {Q : α → TlbWorld E → Prop} {work : Work}
    {op : Operation} (hw : w.owner.work = some work) (hop : work.invalidate = some op)
    (h : Spec x ⟨op, w.env, []⟩ Q (fun _ _ => True)) :
    Spec (withOperation x) w
      (fun a w' => ∃ t, Q a t ∧ w' = { w with
        owner := { w.owner with work := some { work with invalidate := some t.operation } }
        env := t.env
        trace := w.trace ++ t.bus.map .bus })
      (fun _ w' => Unreleased w w') := by
  unfold withOperation
  refine .get_bind (.need_bind (fun hn => absurd (hw.symm.trans hn) (by simp)) fun work' hw' => ?_)
  obtain rfl : work = work' := Option.some.inj (hw.symm.trans hw')
  refine .need_bind (fun hn => absurd (hop.symm.trans hn) (by simp)) fun op' hop' => ?_
  obtain rfl : op = op' := Option.some.inj (hop.symm.trans hop')
  unfold Spec at h ⊢
  dsimp only
  cases hx : x ⟨op, w.env, []⟩ with
  | ok a t =>
    rw [hx] at h
    exact ⟨t, h, rfl⟩
  | error e t =>
    refine ⟨⟨t.bus.map .bus, rfl, fun id hid => ?_⟩, rfl⟩
    obtain ⟨b, -, hb⟩ := List.mem_map.mp hid
    cases hb

theorem unreleased_bus {w' : World E} (bus : List Bus) (ht : w'.trace = w.trace ++ bus.map .bus)
    (hp : w'.owner.prepared = w.owner.prepared) : Unreleased w w' := by
  refine ⟨⟨bus.map .bus, ht, fun id hid => ?_⟩, hp⟩
  obtain ⟨b, -, hb⟩ := List.mem_map.mp hid
  cases hb

/-- The stage while the operation moves on. -/
theorem Stage.moves {work : Work} {op : Operation} {t : TlbWorld E} {b : Bool} (h : Stage w work)
    (hp : work.phase = .invalidating) (hop : work.invalidate = some op)
    (ht : Operation.Stepped (fun _ => True) b ⟨op, w.env, []⟩ t) :
    Stage { w with
      owner := { w.owner with work := some { work with invalidate := some t.operation } }
      env := t.env
      trace := w.trace ++ t.bus.map .bus } { work with invalidate := some t.operation } := by
  obtain ⟨before, edits, rest, htrace, hedit, hret, hsince⟩ := h
  unfold Since at hsince
  rw [hp] at hsince
  obtain ⟨op', low, high, seen, hop', hwords, rfl, hprog⟩ := hsince
  obtain rfl : op = op' := Option.some.inj (hop.symm.trans hop')
  obtain ⟨low', high', next, hwords', hmoves, hbus⟩ := ht.moves
  have heq := Except.ok.inj (hwords.symm.trans hwords')
  obtain ⟨rfl, rfl⟩ := Prod.mk.inj heq
  refine ⟨before, edits, (seen ++ next).map .bus, ?_, hedit, hret, ?_⟩
  · show w.trace ++ t.bus.map .bus = _
    rw [htrace, hbus]
    simp
  · unfold Since
    rw [show ({ work with invalidate := some t.operation } : Work).phase = .invalidating from hp]
    refine ⟨t.operation, low, high, seen ++ next, rfl, ?_, rfl, hprog.move hmoves⟩
    rw [ht.rootDma]
    exact hwords

theorem invalidating_goes {work : Work} (hw : w.owner.work = some work)
    (hp : work.phase = .invalidating) (h : Stage w work) :
    Spec (invalidating port) w (fun b w' => b = false ∧ Goes w w')
      (fun _ w' => Unreleased w w') := by
  obtain ⟨op, hop⟩ : ∃ op, work.invalidate = some op := by
    obtain ⟨_, _, _, _, _, _, hsince⟩ := h
    unfold Since at hsince
    rw [hp] at hsince
    obtain ⟨op, _, _, _, hop, -⟩ := hsince
    exact ⟨op, hop⟩
  have hstep := Operation.step_spec (w := ⟨op, w.env, []⟩) (keeps_true port).io trivial
  unfold invalidating
  refine .seq (withOperation_spec hw hop hstep) (fun b w₁ h₁ => ?_) fun _ _ h => h
  obtain ⟨t, ht, rfl⟩ := h₁
  have hstage := h.moves hp hop ht
  have hlog : Unreleased w { w with
      owner := { w.owner with work := some { work with invalidate := some t.operation } }
      env := t.env
      trace := w.trace ++ t.bus.map .bus } := unreleased_bus _ rfl rfl
  split
  · rename_i hb
    have hdone := ht.finished hb
    have hreceipt := Operation.receipt_spec (w := ⟨t.operation, t.env, []⟩) (keeps_true port).io trivial
    refine .seq (withOperation_spec rfl rfl (hreceipt.mono (fun _ _ h => h) fun _ _ h => h.elim))
      (fun r w₂ h₂ => ?_) fun _ _ h => hlog.trans h
    obtain ⟨t₂, ⟨hwaits, hr⟩, rfl⟩ := h₂
    have hbus : t₂.bus = [] := hwaits.bus
    have hsame : t₂.operation = t.operation := hwaits.operation
    rw [hbus, hsame]
    have hlog₂ : Unreleased w { w with
        owner := { w.owner with work := some { work with invalidate := some t.operation } }
        env := t₂.env
        trace := w.trace ++ t.bus.map .bus ++ ([] : List Bus).map .bus } :=
      unreleased_bus t.bus (by simp) rfl
    refine .need_bind (fun _ => hlog₂) fun receipt hrec => .get_bind ?_
    obtain ⟨-, hdma⟩ := hr receipt hrec
    refine .failIf_bind (fun _ => hlog₂) fun _ => ?_
    refine .seq (rootAddress_spec (keeps_true port) trivial) (fun dma w₃ h₃ => ?_)
      fun _ _ h => hlog₂.trans h.log.unreleased
    obtain ⟨q₃, -, -, root, hroot, rfl⟩ := h₃
    have hlog₃ := hlog₂.trans q₃.log.unreleased
    refine .get_bind (.failIf_bind (fun _ => hlog₃) fun hcheck => ?_)
    have hrootDma : receipt.rootDma = (w.heap root).dma := by
      by_contra hn
      exact hcheck (.inl hn)
    refine ⟨rfl, ?_, ⟨hlog₃.trace, hlog₃.prepared⟩,
      { work with invalidate := some t.operation, phase := .releasing }, ?_, ?_⟩
    · show w₃.owner.failure = _
      rw [q₃.owner]
    · show w₃.owner.work.map _ = _
      rw [q₃.owner]
      rfl
    · obtain ⟨before, edits, rest, htrace, hedit, hret, hsince⟩ := hstage
      unfold Since at hsince
      rw [show ({ work with invalidate := some t.operation } : Work).phase = .invalidating
        from hp] at hsince
      obtain ⟨op', low, high, seen, hop', hwords, rfl, hprog⟩ := hsince
      cases hop'
      rw [hdone] at hprog
      refine ⟨before, edits, seen.map .bus, ?_, hedit, fun id hid => hret id ?_,
        root, low, high, seen, [], ?_, ?_, by simp, hprog.invalidated,
        fun a ha => absurd ha (by simp)⟩
      · show w₃.trace = _
        rw [q₃.trace]
        simpa using htrace
      · have : id ∈ w₃.owner.retired := hid
        rw [q₃.owner] at this
        exact this
      · show w₃.owner.root = some root
        rw [q₃.owner]
        exact hroot
      · show words (w₃.heap root).dma = _
        rw [q₃.heap, ← hrootDma, hdma]
        exact hwords
  · exact .pure ⟨rfl, rfl, hlog, _, rfl, hstage⟩

/-- A step of the release phase: one table given back, or the work finished. -/
inductive Released (w w' : World E) : Bool → Prop where
  | table (t : TableId) (hin : t ∈ w.owner.retired) (htrace : w'.trace = w.trace ++ [.release t])
      (hgoes : w'.owner.failure = w.owner.failure ∧ ∃ work, w'.owner.work = some work ∧ Stage w' work) :
      Released w w' false
  | finish (id : BindingId) (htrace : w'.trace = w.trace ++ [.finish id])
      (hfailure : w'.owner.failure = w.owner.failure) (hwork : w'.owner.work = none)
      (hret : w'.owner.retired = []) : Released w w' true

/-- What a failing poll may have released. -/
structure Failed (w w' : World E) : Prop where
  trace : ∃ d, w'.trace = w.trace ++ d ∧ ∀ t, .release t ∈ d →
    t ∈ w.owner.retired ∧ ∃ work, w.owner.work = some work ∧ work.phase = .releasing
  prepared : w'.owner.prepared = w.owner.prepared

theorem Unreleased.failed (h : Unreleased w w') : Failed w w' := by
  obtain ⟨d, hd, hnot⟩ := h.trace
  exact ⟨⟨d, hd, fun t ht => absurd ht (hnot t)⟩, h.prepared⟩

theorem releasing_spec {id : BindingId} {mapping : Bool} {work : Work}
    (hw : w.owner.work = some work) (hp : work.phase = .releasing) (h : Stage w work) :
    Spec (releasing port id mapping) w
      (fun b w' => Released w w' b ∧ w'.owner.prepared = w.owner.prepared)
      (fun _ w' => Failed w w') := by
  unfold releasing
  refine .get_bind ?_
  split
  · rename_i table next hret
    refine .seq (tableValid_spec (keeps_true port) trivial) (fun _ w₁ q₁ => ?_)
      fun _ _ h => h.1.log.unreleased.failed
    refine .get_bind (.failIf_bind (fun _ => q₁.log.unreleased.failed) fun _ => ?_)
    refine update_bind (log_bind (callback_bind ?_))
    have hin : table ∈ w.owner.retired := by
      rw [hret]
      exact List.mem_cons_self
    split
    · refine .throw ⟨⟨[.release table], ?_, fun t ht => ?_⟩, ?_⟩
      · show w₁.trace ++ _ = _
        rw [q₁.trace]
      · cases List.mem_singleton.mp ht
        exact ⟨hin, work, hw, hp⟩
      · show w₁.owner.prepared = _
        rw [q₁.owner]
    · refine .pure ⟨.table table hin ?_ ⟨?_, work, ?_, ?_⟩, ?_⟩
      · show w₁.trace ++ _ = _
        rw [q₁.trace]
      · show w₁.owner.failure = _
        rw [q₁.owner]
      · show w₁.owner.work = _
        rw [q₁.owner, hw]
      · obtain ⟨before, edits, rest, htrace, hedit, hunlink, hsince⟩ := h
        unfold Since at hsince
        rw [hp] at hsince
        obtain ⟨root, low, high, seen, done, hroot, hwords, rfl, hinv, hdone⟩ := hsince
        refine ⟨before, edits, seen.map .bus ++ (done ++ [.release table]), ?_, hedit,
          fun t ht => hunlink t ?_, ?_⟩
        · show w₁.trace ++ _ = _
          rw [q₁.trace, htrace]
          simp
        · rw [hret]
          exact List.mem_cons_of_mem _ ht
        · unfold Since
          rw [hp]
          refine ⟨root, low, high, seen, done ++ [.release table], ?_, ?_, rfl, hinv, fun a ha => ?_⟩
          · show w₁.owner.root = _
            rw [q₁.owner]
            exact hroot
          · show words (w₁.heap root).dma = _
            rw [q₁.heap]
            exact hwords
          · rcases List.mem_append.mp ha with ha | ha
            · exact hdone a ha
            · exact ⟨table, List.mem_singleton.mp ha⟩
      · show w₁.owner.prepared = _
        rw [q₁.owner]
  · rename_i hret
    exact update_bind (log_bind (.pure ⟨.finish id rfl rfl rfl hret, rfl⟩))

/-- What an admitted poll that returns did. -/
inductive Advanced (w w' : World E) : Bool → Prop where
  | goes (h : Goes w w') : Advanced w w' false
  | released {b : Bool} (work : Work) (hw : w.owner.work = some work) (hp : work.phase = .releasing)
      (h : Released w w' b) (hprep : w'.owner.prepared = w.owner.prepared) : Advanced w w' b

theorem advance_spec {id : BindingId} {work : Work} (hw : w.owner.work = some work)
    (h : Stage w work) :
    Spec (advance port id) w (fun b w' => Advanced w w' b) (fun _ w' => Failed w w') := by
  unfold advance
  refine .get_bind (.lift_bind (fun _ _ => ?_) fun ⟨_, binding⟩ _ => ?_)
  · exact Unreleased.failed ⟨⟨[], by simp, by simp⟩, rfl⟩
  refine .seq (workTime_spec (keeps_true port) trivial) (fun now w₁ h₁ => ?_)
    fun _ _ h => h.log.unreleased.failed
  obtain ⟨work', hw', hheap, htrace, -, howner⟩ := h₁
  obtain rfl : work = work' := Option.some.inj (hw.symm.trans hw')
  have hw₁ : w₁.owner.work = some { work with lastTime := now } := by rw [howner]
  have hstage : Stage w₁ { work with lastTime := now } := by
    obtain ⟨before, edits, rest, ht, hedit, hret, hsince⟩ := h
    refine ⟨before, edits, rest, htrace.trans ht, hedit, fun t hin => hret t ?_, ?_⟩
    · rw [howner] at hin
      exact hin
    · unfold Since at hsince ⊢
      rw [howner, hheap]
      exact hsince
  have hlog : Unreleased w w₁ := ⟨⟨[], by simp [htrace], by simp⟩, by rw [howner]⟩
  have hfail {w₂ : World E} (hf : Failed w₁ w₂) : Failed w w₂ := by
    obtain ⟨⟨d, hd, hrel⟩, hprep⟩ := hf
    refine ⟨⟨d, by rw [hd, htrace], fun t ht => ?_⟩, by rw [hprep, howner]⟩
    obtain ⟨hin, work₁, hwork₁, hphase⟩ := hrel t ht
    rw [hw₁] at hwork₁
    cases hwork₁
    rw [howner] at hin
    exact ⟨hin, work, hw, hphase⟩
  have hgoes {w₂ : World E} (hg : Goes w₁ w₂) : Goes w w₂ :=
    ⟨by rw [hg.failure, howner], hlog.trans hg.unreleased, hg.stage⟩
  refine .get_bind (.need_bind (fun hn => ?_) fun work₁ hwork₁ => ?_)
  · exact hlog.failed
  rw [hw₁] at hwork₁
  cases hwork₁
  split
  · rename_i hp
    refine (editing_goes hw₁ hp hstage).mono (fun b w₂ h₂ => ?_) fun _ _ h => (hlog.trans h).failed
    rw [h₂.1]
    exact .goes (hgoes h₂.2)
  · rename_i hp
    refine (invalidating_goes hw₁ hp hstage).mono (fun b w₂ h₂ => ?_)
      fun _ _ h => (hlog.trans h).failed
    rw [h₂.1]
    exact .goes (hgoes h₂.2)
  · rename_i hp
    refine (releasing_spec hw₁ hp hstage).mono (fun b w₂ h₂ => ?_) fun _ _ h => hfail h
    refine .released work hw hp ?_ (by rw [h₂.2, howner])
    cases h₂.1 with
    | table t hin ht hg =>
      rw [howner] at hin
      exact .table t hin (by rw [ht, htrace]) ⟨by rw [hg.1, howner], hg.2⟩
    | finish id ht hf hwk hr => exact .finish id (by rw [ht, htrace]) (by rw [hf, howner]) hwk hr

/-- A poll that is refused at its entry changes nothing: the epoch passed, or the binding is not the
one of the work. -/
structure Refused (id : BindingId) (err : Error) (w w' : World E) : Prop where
  owner : w'.owner = w.owner
  heap : w'.heap = w.heap
  trace : w'.trace = w.trace
  reason : err = .Stale ∨ err = .State ∧ ∀ work, w.owner.work = some work → work.binding ≠ id

theorem poll_spec {id : BindingId} (h : Traced w) (hf : w.owner.failure = none) :
    Spec (poll port id) w (fun b w' => w.owner.prepared = true ∧ Advanced w w' b)
      (fun e w' => Refused id e w w' ∨ Failed w w' ∧ w.owner.prepared = true ∧
        w'.owner.failure ≠ none) := by
  unfold poll
  refine .seq (stable_spec (keeps_true port) trivial) (fun _ w₁ h₁ => ?_) fun e w₁ h₁ => ?_
  · obtain ⟨q₁, -, hprep⟩ := h₁
    refine .get_bind (.failIf_bind (fun hb => .inl ⟨q₁.owner, q₁.heap, q₁.trace, .inr ⟨rfl, ?_⟩⟩)
      fun hb => ?_)
    · intro work hwork heq
      rw [q₁.owner, hwork] at hb
      simp [heq] at hb
    obtain ⟨work, hwork⟩ : ∃ work, w.owner.work = some work := by
      cases hwork : w.owner.work with
      | none =>
        rw [q₁.owner, hwork] at hb
        exact absurd rfl hb
      | some work => exact ⟨work, rfl⟩
    have hstage : Stage w₁ work := by
      obtain ⟨before, edits, rest, ht, hedit, hret, hsince⟩ := h.busy hf work hwork
      unfold Since at hsince
      refine ⟨before, edits, rest, q₁.trace.trans ht, hedit, by rw [q₁.owner]; exact hret, ?_⟩
      unfold Since
      rw [q₁.owner, q₁.heap]
      exact hsince
    refine orFail_spec ((advance_spec (by rw [q₁.owner]; exact hwork) hstage).mono
      (fun b w₂ h₂ => ?_) fun _ _ h => h) fun e w₂ h₂ => .inr ⟨?_, hprep, by simp⟩
    · refine ⟨hprep, ?_⟩
      cases h₂ with
      | goes hg =>
        refine .goes ⟨by rw [hg.failure, q₁.owner], q₁.log.unreleased.trans hg.unreleased, hg.stage⟩
      | released work' hw' hp hr hprep' =>
        rw [q₁.owner] at hw'
        refine .released work' hw' hp ?_ (by rw [hprep', q₁.owner])
        cases hr with
        | table t hin ht hg =>
          rw [q₁.owner] at hin
          exact .table t hin (by rw [ht, q₁.trace]) ⟨by rw [hg.1, q₁.owner], hg.2⟩
        | finish id ht hfl hwk hret =>
          exact .finish id (by rw [ht, q₁.trace]) (by rw [hfl, q₁.owner]) hwk hret
    · obtain ⟨⟨d, hd, hrel⟩, hprep'⟩ := h₂
      refine ⟨⟨d, ?_, fun t ht => ?_⟩, ?_⟩
      · show w₂.trace = _
        rw [hd, q₁.trace]
      · have := hrel t ht
        rw [q₁.owner] at this
        exact this
      · show w₂.owner.prepared = _
        rw [hprep', q₁.owner]
  · obtain ⟨q₁, hs | ⟨-, hn⟩⟩ := h₁
    · exact .inl ⟨q₁.owner, q₁.heap, q₁.trace, .inl hs⟩
    · exact absurd hf hn

/-! ## The other calls -/

/-- The work and its traces are as they were. -/
structure Still (w w' : World E) : Prop where
  heap : w'.heap = w.heap
  trace : w'.trace = w.trace
  prepared : w'.owner.prepared = w.owner.prepared
  root : w'.owner.root = w.owner.root
  retired : w'.owner.retired = w.owner.retired
  work : w'.owner.work = w.owner.work
  failure : w'.owner.failure = w.owner.failure

theorem Quiet.still {K : E → Prop} (h : Quiet K w w') : Still w w' := by
  refine ⟨h.heap, h.trace, ?_, ?_, ?_, ?_, ?_⟩ <;> rw [h.owner]

theorem Still.trans {w'' : World E} (h : Still w w') (h' : Still w' w'') : Still w w'' :=
  ⟨h'.heap.trans h.heap, h'.trace.trans h.trace, h'.prepared.trans h.prepared, h'.root.trans h.root,
    h'.retired.trans h.retired, h'.work.trans h.work, h'.failure.trans h.failure⟩

theorem Traced.still (h : Traced w) (s : Still w w') : Traced w' := by
  refine ⟨?_, ?_, ?_, fun hf work hw => ?_⟩
  · rw [s.failure, s.prepared]
    exact h.failed
  · rw [s.prepared, s.work]
    exact h.unprepared
  · rw [s.failure, s.work, s.retired]
    exact h.idle
  · rw [s.failure] at hf
    rw [s.work] at hw
    obtain ⟨before, edits, rest, ht, hedit, hret, hsince⟩ := h.busy hf work hw
    refine ⟨before, edits, rest, s.trace.trans ht, hedit, by rw [s.retired]; exact hret, ?_⟩
    unfold Since at hsince ⊢
    rw [s.root, s.heap]
    exact hsince

theorem Still.update {f : Owner E → Owner E} {F : Error → World E → Prop} (s : Still w w')
    (hf : ∀ o, (f o).prepared = o.prepared ∧ (f o).root = o.root ∧ (f o).retired = o.retired ∧
      (f o).work = o.work ∧ (f o).failure = o.failure) :
    Spec (Vm.update f) w' (fun _ w'' => Still w w'') F := by
  obtain ⟨h₁, h₂, h₃, h₄, h₅⟩ := hf w'.owner
  exact ⟨s.heap, s.trace, h₁.trans s.prepared, h₂.trans s.root, h₃.trans s.retired,
    h₄.trans s.work, h₅.trans s.failure⟩

theorem bindSubmitted_still :
    Spec (bindSubmitted port) w (fun _ w' => Still w w') (fun _ w' => Still w w') := by
  unfold bindSubmitted
  refine .seq (rootAddress_spec (keeps_true port) trivial) (fun _ w₁ h₁ => ?_) fun _ _ h => h.still
  refine .get_bind (.failIf_bind (fun _ => h₁.1.still) fun _ => ?_)
  exact h₁.1.still.update fun _ => ⟨rfl, rfl, rfl, rfl, rfl⟩

theorem bindConfirmed_still :
    Spec (bindConfirmed port) w (fun _ w' => Still w w') (fun _ w' => Still w w') := by
  unfold bindConfirmed
  refine .seq (stable_spec (keeps_true port) trivial) (fun _ w₁ h₁ => ?_) fun _ _ h => h.1.still
  refine .get_bind (.failIf_bind (fun _ => h₁.1.still) fun _ => ?_)
  exact h₁.1.still.update fun _ => ⟨rfl, rfl, rfl, rfl, rfl⟩

theorem unbindConfirmed_still :
    Spec (unbindConfirmed port) w (fun _ w' => Still w w') (fun _ w' => Still w w') := by
  unfold unbindConfirmed
  refine .seq (stable_spec (keeps_true port) trivial) (fun _ w₁ h₁ => ?_) fun _ _ h => h.1.still
  refine .get_bind (.failIf_bind (fun _ => h₁.1.still) fun _ => ?_)
  exact h₁.1.still.update fun _ => ⟨rfl, rfl, rfl, rfl, rfl⟩

theorem reserve_still {id : RangeId} {bytes alignment fixed : Nat} :
    Spec (reserve port id bytes alignment fixed) w (fun _ w' => Still w w')
      (fun _ w' => Still w w') := by
  unfold reserve
  refine .seq (stable_spec (keeps_true port) trivial) (fun _ w₁ h₁ => ?_) fun _ _ h => h.1.still
  have s := h₁.1.still
  refine .get_bind (.failIf_bind (fun _ => s) fun _ => .failIf_bind (fun _ => s) fun _ => ?_)
  refine .failIf_bind (fun _ => s) fun _ => .lift_bind (fun _ _ => s) fun _ _ => ?_
  refine .lift_bind (fun _ _ => s) fun ⟨address, before, after⟩ _ => ?_
  refine .failIf_bind (fun _ => s) fun _ => .seq nextSerial_spec (fun serial w₂ h₂ => ?_) fun _ _ h => ?_
  · rw [h₂]
    exact update_bind (.pure ⟨s.heap, s.trace, s.prepared, s.root, s.retired, s.work, s.failure⟩)
  · rw [h.1]
    exact s

theorem releaseRange_still {id : RangeId} :
    Spec (releaseRange port id) w (fun _ w' => Still w w') (fun _ w' => Still w w') := by
  unfold releaseRange
  refine .seq (stable_spec (keeps_true port) trivial) (fun _ w₁ h₁ => ?_) fun _ _ h => h.1.still
  have s := h₁.1.still
  refine .get_bind (.lift_bind (fun _ _ => s) fun _ _ => .failIf_bind (fun _ => s) fun _ => ?_)
  exact h₁.1.still.update fun _ => ⟨rfl, rfl, rfl, rfl, rfl⟩

/-- A piece of work starts with nothing retired and an empty trace of its own. -/
theorem traced_start {id : BindingId} {mapping : Bool} {deadline : Nat} {bindings : List (Binding E)}
    (h : Traced w) (hf : w.owner.failure = none) (hp : w.owner.prepared = true)
    (hw : w.owner.work = none) (q : Quiet (fun _ => True) w w') :
    Traced { w' with
      owner := { w'.owner with bindings, work := some { binding := id, mapping, deadline } }
      trace := w'.trace ++ [.start id mapping] } := by
  have hret := h.idle hf hw
  refine ⟨fun _ => ?_, fun hn => ?_, fun _ hn => absurd hn (by simp), fun _ work hwork => ?_⟩
  · show w'.owner.prepared = true
    rw [q.owner, hp]
  · have hn : w'.owner.prepared = false := hn
    rw [q.owner, hp] at hn
    cases hn
  · cases hwork
    refine ⟨w'.trace, [], [], rfl, fun a ha => absurd ha (by simp), fun t ht => ?_, rfl⟩
    have ht : t ∈ w'.owner.retired := ht
    rw [q.owner, hret] at ht
    cases ht

theorem beginMap_traced {range : RangeId} {id : BindingId} {offset deadline : Nat} {source : Source E}
    (h : Traced w) :
    Spec (beginMap port range id offset source deadline) w (fun _ w' => Traced w')
      (fun _ w' => Traced w') := by
  unfold beginMap
  refine .seq (stable_spec (keeps_true port) trivial) (fun _ w₁ h₁ => ?_)
    fun _ _ hq => h.still hq.1.still
  obtain ⟨q₁, hf, hp⟩ := h₁
  have s := h.still q₁.still
  refine .get_bind (.lift_bind (fun _ _ => s) fun r _ => .failIf_bind (fun _ => s) fun hbusy => ?_)
  have hw : w.owner.work = none := by
    rw [← q₁.owner]
    by_contra hn
    exact hbusy (.inr (.inl (Option.isSome_iff_ne_none.mpr hn)))
  refine .get_bind (.failIf_bind (fun _ => s) fun _ => .failIf_bind (fun _ => s) fun _ => ?_)
  have q₂ : Quiet (fun _ => True) w { w₁ with env := (port.io.nowNs w₁.env).2 } :=
    ⟨q₁.owner, q₁.heap, q₁.trace, trivial⟩
  have s₂ := h.still q₂.still
  refine callback_bind (.failIf_bind (fun _ => s₂) fun _ => .get_bind ?_)
  refine .lift_bind (fun _ _ => s₂) fun _ _ => update_bind ?_
  exact traced_start h hf hp hw q₂

theorem beginUnmap_traced {id : BindingId} {deadline : Nat} {quiesced : Bool} (h : Traced w) :
    Spec (beginUnmap port id deadline quiesced) w (fun _ w' => Traced w') (fun _ w' => Traced w') := by
  unfold beginUnmap
  refine .seq (stable_spec (keeps_true port) trivial) (fun _ w₁ h₁ => ?_)
    fun _ _ hq => h.still hq.1.still
  obtain ⟨q₁, hf, hp⟩ := h₁
  have s := h.still q₁.still
  refine .get_bind (.lift_bind (fun _ _ => s) fun ⟨_, b⟩ _ => .failIf_bind (fun _ => s) fun hbusy => ?_)
  have hw : w.owner.work = none := by
    rw [← q₁.owner]
    by_contra hn
    exact hbusy (.inr (.inl (Option.isSome_iff_ne_none.mpr hn)))
  have q₂ : Quiet (fun _ => True) w { w₁ with env := (port.io.nowNs w₁.env).2 } :=
    ⟨q₁.owner, q₁.heap, q₁.trace, trivial⟩
  refine callback_bind (.failIf_bind (fun _ => h.still q₂.still) fun _ => update_bind ?_)
  exact traced_start h hf hp hw q₂

theorem prepare_traced {epoch base bytes : Nat} (h : Traced w) :
    Spec (prepare port epoch base bytes) w (fun _ w' => Traced w') (fun _ w' => Traced w') := by
  unfold prepare
  refine .get_bind (.failIf_bind (fun _ => h) fun hprep => ?_)
  have hprep : w.owner.prepared = false := by simpa using hprep
  have hf : w.owner.failure = none := by
    by_contra hn
    rw [h.failed hn] at hprep
    cases hprep
  have hw := h.unprepared hprep
  have hret := h.idle hf hw
  refine .lift_bind (fun _ _ => h) fun _ _ => .failIf_bind (fun _ => h) fun _ => ?_
  refine callback_bind (.failIf_bind (fun _ => ?_) fun _ => update_bind ?_)
  · exact h.still ⟨rfl, rfl, rfl, rfl, rfl, rfl, rfl⟩
  · refine .seq (orFail_spec createTable_edits fun e w₁ h₁ => ?_) (fun root w₁ h₁ => ?_)
      fun _ w₁ (h : Traced w₁) => h
    · refine .of_failed (by simp) ?_
      show w₁.owner.prepared = true
      rw [h₁.1]
    · obtain ⟨tables, retired, work, ho⟩ := h₁.1.owner
      obtain ⟨f, hwork, -⟩ := h₁.1.work
      obtain ⟨d, hd, -, hin⟩ := h₁.1.trace
      have hd : d = [] := List.self_eq_append_right.mp (h₁.2.symm.trans hd)
      refine .of_idle (fun _ => ?_) ?_ (List.eq_nil_iff_forall_not_mem.mpr fun t ht => ?_)
      · show w₁.owner.prepared = true
        rw [ho]
      · show w₁.owner.work = none
        rw [hwork]
        show w.owner.work.map f = none
        rw [hw]
        rfl
      · rcases hin t ht with ht | ⟨p, s, hs⟩
        · have ht : t ∈ w.owner.retired := ht
          rw [hret] at ht
          cases ht
        · rw [hd] at hs
          cases hs

theorem close_traced (h : Traced w) :
    Spec (close port) w (fun _ w' => Traced w') (fun _ w' => Traced w') := by
  have hempty {w : World E} (hw : w.owner = {}) : Traced w :=
    .of_idle (fun hn => absurd (by rw [hw]) hn) (by rw [hw]) (by rw [hw])
  unfold close
  refine .get_bind ?_
  dsimp only
  split
  · exact .pure h
  rename_i hprep
  have hprep : w.owner.prepared = true := by simpa using hprep
  refine .seq (stable_spec (keeps_true port) trivial) (fun _ w₁ h₁ => ?_)
    fun _ _ hq => h.still hq.1.still
  obtain ⟨q₁, -, -⟩ := h₁
  have s := h.still q₁.still
  refine .failIf_bind (fun _ => s) fun _ => ?_
  split
  · exact hempty rfl
  · refine .seq (tableValid_spec (keeps_true port) trivial) (fun _ w₂ q₂ => ?_)
      fun _ _ hq => h.still (q₁.trans hq.1).still
    have q := q₁.trans q₂
    refine .get_bind (.failIf_bind (fun _ => h.still q.still) fun _ => ?_)
    refine update_bind (log_bind (callback_bind ?_))
    split
    · refine orFail_spec (F := fun _ w' => w'.owner.prepared = true) (.throw ?_) fun e w' hp => ?_
      · show w₂.owner.prepared = true
        rw [q.owner, hprep]
      · exact .of_failed (by simp) hp
    · exact hempty rfl

/-! ## Runs -/

theorem Advanced.traced {b : Bool} (h : Advanced w w' b)
    (hp : w.owner.prepared = true) : Traced w' := by
  cases h with
  | goes hg =>
    obtain ⟨work, hw, hstage⟩ := hg.stage
    have hprep : w'.owner.prepared = true := hg.unreleased.prepared.trans hp
    refine ⟨fun _ => hprep, fun hn => absurd (hprep.symm.trans hn) (by simp),
      fun _ hn => absurd (hw.symm.trans hn) (by simp), fun _ work' hw' => ?_⟩
    obtain rfl : work = work' := Option.some.inj (hw.symm.trans hw')
    exact hstage
  | released work hw hph hr hprep =>
    have hprep : w'.owner.prepared = true := hprep.trans hp
    cases hr with
    | table t hin ht hg =>
      obtain ⟨-, work, hw, hstage⟩ := hg
      refine ⟨fun _ => hprep, fun hn => absurd (hprep.symm.trans hn) (by simp),
        fun _ hn => absurd (hw.symm.trans hn) (by simp), fun _ work' hw' => ?_⟩
      obtain rfl : work = work' := Option.some.inj (hw.symm.trans hw')
      exact hstage
    | finish id ht hfl hwk hret => exact .of_idle (fun _ => hprep) hwk hret

/-- A call that starts with the check of the epoch fails on a failed owner. -/
theorem stable_failed {α : Type} {f : Unit → VmCall E α} {Q : α → World E → Prop}
    (hf : w.owner.failure ≠ none) :
    Spec (stable port >>= f) w Q (fun _ w' => Quiet (fun _ => True) w w') :=
  .seq (stable_spec (keeps_true port) trivial) (fun _ _ h => absurd h.2.1 hf) fun _ _ h => h.1

/-- A failed owner refuses every call and stays as it is. -/
theorem call_failed {op : Op E} (h : Traced w) (hf : w.owner.failure ≠ none) :
    Spec (call port op) w (fun _ _ => False) (fun _ w' => Quiet (fun _ => True) w w') := by
  have hprep := h.failed hf
  have hself : Quiet (fun _ => True) w w := ⟨rfl, rfl, rfl, trivial⟩
  have hroot {α : Type} {f : Nat → VmCall E α} {Q : α → World E → Prop} :
      Spec (rootAddress port >>= f) w Q (fun _ w' => Quiet (fun _ => True) w w') :=
    .seq (rootAddress_spec (keeps_true port) trivial) (fun _ _ h => absurd h.2.1 hf) fun _ _ h => h
  cases op with
  | prepare epoch base bytes =>
    exact .bind (.get_bind (.failIf_bind (fun _ => hself) fun hn => absurd hprep hn))
  | rootAddress => exact hroot
  | bindSubmitted => exact .bind hroot
  | bindConfirmed => exact .bind (stable_failed hf)
  | unbindConfirmed => exact .bind (stable_failed hf)
  | reserve => exact .bind (stable_failed hf)
  | releaseRange => exact .bind (stable_failed hf)
  | beginMap => exact .bind (stable_failed hf)
  | beginUnmap => exact .bind (stable_failed hf)
  | poll => exact .bind (stable_failed hf)
  | close =>
    refine .bind ?_
    unfold close
    refine .get_bind ?_
    dsimp only
    rw [if_neg (by simp [hprep])]
    exact stable_failed hf

theorem call_traced {op : Op E} (h : Traced w) :
    Spec (call port op) w (fun _ w' => Traced w') (fun _ w' => Traced w') := by
  have hstill {α β : Type} {x : VmCall E α} {f : α → β}
      (hx : Spec x w (fun _ w' => Still w w') (fun _ w' => Still w w')) :
      Spec (do pure (f (← x))) w (fun _ w' => Traced w') (fun _ w' => Traced w') :=
    .seq hx (fun _ _ s => h.still s) fun _ _ s => h.still s
  cases op with
  | prepare => exact .seq (prepare_traced h) (fun _ _ h => h) fun _ _ h => h
  | rootAddress =>
    exact hstill ((rootAddress_spec (keeps_true port) trivial).mono (fun _ _ h => h.1.still)
      fun _ _ h => h.still)
  | bindSubmitted => exact hstill bindSubmitted_still
  | bindConfirmed => exact hstill bindConfirmed_still
  | unbindConfirmed => exact hstill unbindConfirmed_still
  | reserve => exact hstill reserve_still
  | releaseRange => exact hstill releaseRange_still
  | beginMap => exact .seq (beginMap_traced h) (fun _ _ h => h) fun _ _ h => h
  | beginUnmap => exact .seq (beginUnmap_traced h) (fun _ _ h => h) fun _ _ h => h
  | poll id =>
    by_cases hf : w.owner.failure = none
    · refine .seq (poll_spec h hf) (fun b w₁ h₁ => h₁.2.traced h₁.1) fun e w₁ h₁ => ?_
      rcases h₁ with hr | ⟨hfail, hp, hn⟩
      · exact h.still (Quiet.still (K := fun _ => True) ⟨hr.owner, hr.heap, hr.trace, trivial⟩)
      · exact .of_failed hn (hfail.prepared.trans hp)
    · exact (@call_failed _ _ _ (.poll id) h hf).mono (fun _ _ h => h.elim)
        fun _ _ hq => h.still hq.still
  | close => exact .seq (close_traced h) (fun _ _ h => h) fun _ _ h => h

/-- An owner that was never used. -/
def initial (heap : TableId → Table) (env : E) : World E := ⟨{}, heap, env, []⟩

theorem traced_run {heap : TableId → Table} {env : E}
    {h : List (Event (World E) (Op E) (Except Error Answer))}
    (hr : Run (step port) (initial heap env) h w) : Traced w := by
  refine hr.invariant (P := fun _ w => Traced w) (.of_idle (fun hn => absurd rfl hn) rfl rfl)
    fun _ w op out w' ih hs => ?_
  cases out with
  | ok a => exact (call_traced ih).ok (outcome_ok_iff.1 hs)
  | error e => exact (call_traced ih).error (outcome_error_iff.1 hs)

/-- **Nothing is given back before its invalidation.** In every run, with any register values, bus
errors, clocks and epochs: a poll gives a table back only if the current work unlinked it from its
parent, and this, as well as reporting the work finished, happens only when after the last write of
a table word the bus has seen the whole invalidation of the current root. A poll that fails leaves
the owner failed, unless it was refused at its entry without changing anything; and a failed owner
refuses every further call, gives nothing back and finishes nothing. -/
theorem retirement_run {heap : TableId → Table} {env : E}
    {h : List (Event (World E) (Op E) (Except Error Answer))}
    (hr : Run (step port) (initial heap env) h w) :
    ∀ e ∈ h,
      (∀ id, e.op = .poll id →
        (∃ d, e.post.trace = e.pre.trace ++ d ∧ ∀ t, .release t ∈ d →
          ∃ root edits p s, e.pre.owner.root = some root ∧
            Settled (e.pre.heap root).dma e.pre.trace edits ∧ .unlink t p s ∈ edits) ∧
        (e.out = .ok (.polled true) → ∃ root edits, e.pre.owner.root = some root ∧
          Settled (e.pre.heap root).dma e.pre.trace edits) ∧
        ∀ err, e.out = .error err →
          Refused id err e.pre e.post ∨ e.post.owner.failure ≠ none) ∧
      (e.pre.owner.failure ≠ none → e.post.owner = e.pre.owner ∧ e.post.heap = e.pre.heap ∧
        e.post.trace = e.pre.trace ∧ ∃ err, e.out = .error err) := by
  intro e he
  obtain ⟨h₁, h₂, rfl, hpre, hstep⟩ := hr.event he
  have ht := traced_run hpre
  obtain ⟨pre, op, out, post⟩ := e
  dsimp only at ht hstep ⊢
  have hfailed (hf : pre.owner.failure ≠ none) : post.owner = pre.owner ∧ post.heap = pre.heap ∧
      post.trace = pre.trace ∧ ∃ err, out = .error err := by
    cases out with
    | ok a => exact ((call_failed ht hf).ok (outcome_ok_iff.mp hstep)).elim
    | error err =>
      have q := (call_failed ht hf).error (outcome_error_iff.mp hstep)
      exact ⟨q.owner, q.heap, q.trace, err, rfl⟩
  refine ⟨fun id hop => ?_, hfailed⟩
  subst hop
  by_cases hf : pre.owner.failure = none
  swap
  · obtain ⟨ho, -, htrace, err, rfl⟩ := hfailed hf
    refine ⟨⟨[], by simp [htrace], fun t ht => absurd ht (by simp)⟩, fun hn => (by cases hn),
      fun _ _ => .inr (by rw [ho]; exact hf)⟩
  have hsettled {work : Work} (hw : pre.owner.work = some work) (hp : work.phase = .releasing) :=
    Settled.of_stage (ht.busy hf work hw) hp
  cases out with
  | error err =>
    rcases bind_error_iff.mp (outcome_error_iff.mp hstep) with hx | ⟨_, _, _, hy⟩
    swap
    · cases hy
    refine ⟨?_, fun hn => (by cases hn), fun err' herr => ?_⟩
    · rcases (poll_spec ht hf).error hx with hr | ⟨hfail, -, -⟩
      · exact ⟨[], by simp [hr.trace], fun t ht => absurd ht (by simp)⟩
      · obtain ⟨d, hd, hrel⟩ := hfail.trace
        refine ⟨d, hd, fun t hin => ?_⟩
        obtain ⟨hret, work, hw, hp⟩ := hrel t hin
        obtain ⟨root, edits, hroot, hset, hunlink⟩ := hsettled hw hp
        obtain ⟨p, s, hs⟩ := hunlink t hret
        exact ⟨root, edits, p, s, hroot, hset, hs⟩
    · cases herr
      rcases (poll_spec ht hf).error hx with hr | ⟨-, -, hn⟩
      · exact .inl hr
      · exact .inr hn
  | ok a =>
    obtain ⟨b, w₁, hx, hy⟩ := bind_ok_iff.mp (outcome_ok_iff.mp hstep)
    cases hy
    refine ⟨?_, fun hb => ?_, fun _ hn => (by cases hn)⟩
    · cases ((poll_spec ht hf).ok hx).2 with
      | goes hg =>
        obtain ⟨d, hd, hnot⟩ := hg.unreleased.trace
        exact ⟨d, hd, fun t hin => absurd hin (hnot t)⟩
      | released work hw hp hrel _ =>
        obtain ⟨root, edits, hroot, hset, hunlink⟩ := hsettled hw hp
        cases hrel with
        | table t hin htr hg =>
          refine ⟨_, htr, fun t' ht' => ?_⟩
          cases List.mem_singleton.mp ht'
          obtain ⟨p, s, hs⟩ := hunlink t hin
          exact ⟨root, edits, p, s, hroot, hset, hs⟩
        | finish id' htr =>
          refine ⟨_, htr, fun t' ht' => ?_⟩
          cases List.mem_singleton.mp ht'
    · cases hb
      cases ((poll_spec ht hf).ok hx).2 with
      | released work hw hp hrel _ =>
        obtain ⟨root, edits, hroot, hset, -⟩ := hsettled hw hp
        exact ⟨root, edits, hroot, hset⟩

/-! ## A calm device -/

/-- A device that hands out one page after the other and holds the root registers. -/
structure Calm where
  next : Nat := 1
  low : Nat := 0
  high : Nat := 0

def calmPort : Port Calm where
  io := {
    generation := fun e => (1, e)
    nowNs := fun e => (0, e)
    read32 := fun address e =>
      (some (if address = pdbLow then e.low else if address = pdbHigh then e.high else 0), e)
    write32 := fun address value e =>
      (true, if address = pdbLow then { e with low := value }
        else if address = pdbHigh then { e with high := value } else e) }
  allocate := fun e =>
    (.ok (e.next, { dma := e.next * 4096, cpu := some (e.next * 4096) }), { e with next := e.next + 1 })
  valid := fun _ _ e => (true, e)
  release := fun _ e => (none, e)

/-- One page of video memory. -/
def calmSource : Source Calm where
  valid := fun _ _ => true
  physical := fun offset _ => .ok (0x10000000 + offset)
  bytes := 4096
  policy := { aperture := .video }

/-- A binding is mapped, with one poll for another binding in between. -/
def calmOps : List (Op Calm) :=
  [.prepare 1 0 (1 <<< 48), .bindSubmitted, .bindConfirmed, .reserve 7 8192 4096 0,
    .beginMap 7 3 4096 calmSource 100, .poll 3, .poll 4] ++ List.replicate 10 (.poll 3)

def calmRun : List (Event (World Calm) (Op Calm) (Except Error Answer)) × World Calm :=
  exec (step calmPort) (initial (fun _ => {}) {}) calmOps

theorem retirement_run_calm : ∃ e ∈ calmRun.1, e.out = .ok (.polled true) ∧
    ∃ root edits, e.pre.owner.root = some root ∧
      Settled (e.pre.heap root).dma e.pre.trace edits := by
  have hin : calmRun.1.getLast (by simp [calmRun, calmOps, exec]) ∈ calmRun.1 := List.getLast_mem _
  have hrun : Run (step calmPort) (initial (fun _ => {}) {}) calmRun.1 calmRun.2 := Run.of_exec _ _ _
  have hop : (calmRun.1.getLast (by simp [calmRun, calmOps, exec])).op = .poll 3 := by rfl
  have hout : (calmRun.1.getLast (by simp [calmRun, calmOps, exec])).out = .ok (.polled true) := by
    decide +kernel
  exact ⟨_, hin, hout, ((retirement_run hrun _ hin).1 3 hop).2.1 hout⟩

/-- A poll for another binding fails, and after it the work still finishes: not every failing poll
leaves the owner failed. -/
theorem refused_poll_goes_on : ∃ h₁ e h₂, calmRun.1 = h₁ ++ e :: h₂ ∧ e.op = .poll 4 ∧
    e.out = .error .State ∧ ∃ e' ∈ h₂, e'.op = .poll 3 ∧ e'.out = .ok (.polled true) := by
  have hlast : (calmRun.1.drop 7)[9]? = some (calmRun.1.get ⟨16, by decide +kernel⟩) := by
    rw [List.getElem?_drop]
    exact List.getElem?_eq_getElem _
  refine ⟨calmRun.1.take 6, calmRun.1.get ⟨6, by decide +kernel⟩, calmRun.1.drop 7, ?_, rfl,
    by decide +kernel, _, List.mem_of_getElem? hlast, rfl, by decide +kernel⟩
  rw [List.get_eq_getElem, List.getElem_cons_drop, List.take_append_drop]

end Vm
end NvidiaGsp
