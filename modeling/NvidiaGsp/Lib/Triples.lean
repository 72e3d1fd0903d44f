import NvidiaGsp.Lib.Calls

/-!
# Lib.Triples

Pre- and postconditions of calls. `Spec x s Q E` says what holds after running `x` from `s`: `Q` of
the value and the state when it returns, `E` of the error and the state when it fails. The rules
follow the statements of a body; a loop or a helper gets a lemma of its own and enters through
`Spec.mono`.
-/

namespace NvidiaGsp
namespace Call

variable {ε σ α β : Type} {Q Q' : α → σ → Prop} {E F : ε → σ → Prop}

def Spec (x : Call ε σ α) (s : σ) (Q : α → σ → Prop) (E : ε → σ → Prop) : Prop :=
  match x s with
  | .ok a s' => Q a s'
  | .error e s' => E e s'

theorem Spec.ok {x : Call ε σ α} {s s' : σ} {a : α} (h : Spec x s Q E) (hx : x s = .ok a s') :
    Q a s' := by
  unfold Spec at h
  rw [hx] at h
  exact h

theorem Spec.error {x : Call ε σ α} {s s' : σ} {e : ε} (h : Spec x s Q E)
    (hx : x s = .error e s') : E e s' := by
  unfold Spec at h
  rw [hx] at h
  exact h

theorem Spec.intro {x : Call ε σ α} {s : σ} (hok : ∀ a s', x s = .ok a s' → Q a s')
    (herr : ∀ e s', x s = .error e s' → E e s') : Spec x s Q E := by
  unfold Spec
  split
  · exact hok _ _ ‹_›
  · exact herr _ _ ‹_›

theorem Spec.mono {x : Call ε σ α} {s : σ} (h : Spec x s Q E) (hq : ∀ a s', Q a s' → Q' a s')
    (he : ∀ e s', E e s' → F e s') : Spec x s Q' F :=
  .intro (fun a s' hx => hq a s' (h.ok hx)) fun e s' hx => he e s' (h.error hx)

theorem Spec.outcome {x : Call ε σ α} {s : σ} {P : Except ε α → σ → Prop}
    (h : Spec x s (fun a s' => P (.ok a) s') (fun e s' => P (.error e) s')) :
    P (Call.outcome x s).1 (Call.outcome x s).2 := by
  unfold Call.outcome
  cases hx : x s with
  | ok a s' => exact h.ok hx
  | error e s' => exact h.error hx

/-- A call that cannot fail returns. -/
theorem Spec.returns {x : Call ε σ α} {s : σ} (h : Spec x s Q fun _ _ => False) :
    ∃ a s', x s = .ok a s' ∧ Q a s' := by
  unfold Spec at h
  split at h
  · exact ⟨_, _, ‹_›, h⟩
  · exact h.elim

theorem Spec.of_ok {x : Call ε σ α} {s s' : σ} {a : α} (hx : x s = .ok a s') (h : Q a s') :
    Spec x s Q E := by
  unfold Spec
  rw [hx]
  exact h

/-- Two specifications of one call hold together. -/
theorem Spec.both {x : Call ε σ α} {s : σ} (h : Spec x s Q E) (h' : Spec x s Q' F) :
    Spec x s (fun a s' => Q a s' ∧ Q' a s') (fun e s' => E e s' ∧ F e s') :=
  .intro (fun _ _ hx => ⟨h.ok hx, h'.ok hx⟩) fun _ _ hx => ⟨h.error hx, h'.error hx⟩

theorem Spec.bind {x : Call ε σ α} {f : α → Call ε σ β} {s : σ} {R : β → σ → Prop}
    (h : Spec x s (fun a s' => Spec (f a) s' R E) E) : Spec (x >>= f) s R E := by
  refine .intro (fun b s'' hb => ?_) fun e s'' he => ?_
  · obtain ⟨a, s', hx, hf⟩ := bind_ok_iff.1 hb
    exact (h.ok hx).ok hf
  · rcases bind_error_iff.1 he with hx | ⟨a, s', hx, hf⟩
    · exact h.error hx
    · exact (h.ok hx).error hf

/-- The statement `x`, then the rest, with the postconditions of `x` known. -/
theorem Spec.seq {x : Call ε σ α} {f : α → Call ε σ β} {s : σ} {R : β → σ → Prop}
    (hx : Spec x s Q F) (hf : ∀ a s', Q a s' → Spec (f a) s' R E) (he : ∀ e s', F e s' → E e s') :
    Spec (x >>= f) s R E := .bind (hx.mono hf he)

/-- Nothing runs behind a statement that always fails. -/
theorem Spec.stop {x : Call ε σ α} {f : α → Call ε σ β} {s : σ} {R : β → σ → Prop}
    (h : Spec x s (fun _ _ => False) E) : Spec (x >>= f) s R E :=
  .bind (h.mono (fun _ _ hn => hn.elim) fun _ _ he => he)

theorem Spec.pure {a : α} {s : σ} (h : Q a s) : Spec (Pure.pure a : Call ε σ α) s Q E := h

theorem Spec.throw {e : ε} {s : σ} (h : E e s) : Spec (MonadExcept.throw e : Call ε σ α) s Q E := h

theorem Spec.get_bind {f : σ → Call ε σ β} {s : σ} {R : β → σ → Prop} (h : Spec (f s) s R E) :
    Spec (MonadState.get >>= f) s R E := h

theorem Spec.modify {g : σ → σ} {s : σ} {R : PUnit → σ → Prop} (h : R ⟨⟩ (g s)) :
    Spec (modifyGet fun s => (⟨⟩, g s) : Call ε σ PUnit) s R E := h

theorem Spec.modify_bind {g : σ → σ} {f : PUnit → Call ε σ β} {s : σ} {R : β → σ → Prop}
    (h : Spec (f ⟨⟩) (g s) R E) : Spec ((MonadStateOf.modifyGet fun s => (PUnit.unit, g s) : Call ε σ PUnit) >>= f) s R E := h

theorem Spec.set_bind {t : σ} {f : PUnit → Call ε σ β} {s : σ} {R : β → σ → Prop}
    (h : Spec (f ⟨⟩) t R E) : Spec (MonadStateOf.set t >>= f) s R E := h

/-- A check at the end of a body. -/
theorem Spec.ends {c : Prop} [Decidable c] {e : ε} {s : σ} {R : Unit → σ → Prop}
    (hc : c → E e s) (h : ¬ c → R () s) : Spec (failIf c e) s R E := by
  by_cases hcond : c
  · unfold Spec
    rw [failIf_of hcond]
    exact hc hcond
  · unfold Spec
    rw [failIf_of_not hcond]
    exact h hcond

theorem Spec.check {c : Prop} [Decidable c] {e : ε} {s : σ} {R : Unit → σ → Prop}
    (hc : c → E e s) (h : ¬ c → R () s) : Spec (failIf c e) s R E := by
  by_cases hcond : c
  · rw [Call.failIf, if_pos hcond]
    exact .throw (hc hcond)
  · rw [Call.failIf, if_neg hcond]
    exact .pure (h hcond)

theorem Spec.failIf_bind {c : Prop} [Decidable c] {e : ε} {f : Unit → Call ε σ β} {s : σ}
    {R : β → σ → Prop} (hc : c → E e s) (h : ¬ c → Spec (f ()) s R E) :
    Spec (failIf c e >>= f) s R E := by
  by_cases hcond : c
  · refine .bind ?_
    unfold Spec
    rw [failIf_of hcond]
    exact hc hcond
  · refine .bind ?_
    unfold Spec
    rw [failIf_of_not hcond]
    exact h hcond

theorem Spec.lift_bind {x : Except ε α} {f : α → Call ε σ β} {s : σ} {R : β → σ → Prop}
    (he : ∀ e, x = .error e → E e s) (h : ∀ a, x = .ok a → Spec (f a) s R E) :
    Spec (lift x >>= f) s R E := by
  cases x with
  | ok a => exact h a rfl
  | error e => exact he e rfl

theorem Spec.need_bind {o : Option α} {e : ε} {f : α → Call ε σ β} {s : σ} {R : β → σ → Prop}
    (he : o = none → E e s) (h : ∀ a, o = some a → Spec (f a) s R E) :
    Spec (need o e >>= f) s R E := by
  cases o with
  | some a => exact h a rfl
  | none => exact he rfl

/-! ## What a call leaves alone -/

/-- The call keeps a view of the state, whether it returns or fails. -/
def Frame {υ : Type} (view : σ → υ) (x : Call ε σ α) : Prop :=
  ∀ s, Spec x s (fun _ s' => view s' = view s) fun _ s' => view s' = view s

section

variable {υ : Type} {view : σ → υ}

theorem Frame.outcome {x : Call ε σ α} (h : Frame view x) (s : σ) :
    view (Call.outcome x s).2 = view s :=
  Spec.outcome (P := fun _ s' => view s' = view s) (h s)

theorem ReadOnly.frame {x : Call ε σ α} (h : ReadOnly x) : Frame view x := by
  intro s
  apply Spec.intro
  · intro a s' hx
    rw [h.1 s a s' hx]
  · intro e s' hx
    rw [h.2 s e s' hx]

theorem Frame.bind {x : Call ε σ α} {f : α → Call ε σ β} (hx : Frame view x)
    (hf : ∀ a, Frame view (f a)) : Frame view (x >>= f) := by
  intro s
  apply Spec.seq (hx s)
  · intro a s' h
    exact (hf a s').mono (fun _ _ h' => h'.trans h) fun _ _ h' => h'.trans h
  · intro _ _ h
    exact h

theorem Frame.pure (a : α) : Frame view (Pure.pure a : Call ε σ α) := fun _ => rfl

theorem Frame.throw (e : ε) : Frame view (MonadExcept.throw e : Call ε σ α) := fun _ => rfl

theorem Frame.get_bind {f : σ → Call ε σ β} (h : ∀ s, Frame view (f s)) :
    Frame view (MonadState.get >>= f) := readOnly_get.frame.bind h

theorem Frame.failIf (c : Prop) [Decidable c] (e : ε) : Frame view (Call.failIf c e : Call ε σ Unit) :=
  (readOnly_failIf c e).frame

theorem Frame.failIf_bind {c : Prop} [Decidable c] {e : ε} {f : Unit → Call ε σ β}
    (h : Frame view (f ())) : Frame view (Call.failIf c e >>= f) :=
  (Frame.failIf c e).bind fun _ => h

theorem Frame.lift_bind {x : Except ε α} {f : α → Call ε σ β} (h : ∀ a, Frame view (f a)) :
    Frame view (lift x >>= f) := (readOnly_lift x).frame.bind h

theorem Frame.need_bind {o : Option α} {e : ε} {f : α → Call ε σ β} (h : ∀ a, Frame view (f a)) :
    Frame view (need o e >>= f) := (readOnly_need o e).frame.bind h

end

/-! ## Calls on a part of the state -/

variable {τ ε' : Type}

/-- A call on a part of a larger state, with its errors among those of the caller. -/
def zoom (part : τ → σ) (store : σ → τ → τ) (wrap : ε → ε') (x : Call ε σ α) : Call ε' τ α := fun t =>
  match x (part t) with
  | .ok a s => .ok a (store s t)
  | .error e s => .error (wrap e) (store s t)

theorem zoom_ok {part : τ → σ} {store : σ → τ → τ} {wrap : ε → ε'} {x : Call ε σ α} {t : τ} {a : α}
    {s : σ} (h : x (part t) = .ok a s) : zoom part store wrap x t = .ok a (store s t) := by
  unfold zoom
  rw [h]

theorem zoom_error {part : τ → σ} {store : σ → τ → τ} {wrap : ε → ε'} {x : Call ε σ α} {t : τ} {e : ε}
    {s : σ} (h : x (part t) = .error e s) :
    zoom part store wrap x t = .error (wrap e) (store s t) := by
  unfold zoom
  rw [h]

theorem Spec.zoom {part : τ → σ} {store : σ → τ → τ} {wrap : ε → ε'} {x : Call ε σ α} {t : τ}
    {R : α → τ → Prop} {F : ε' → τ → Prop}
    (h : Spec x (part t) (fun a s => R a (store s t)) (fun e s => F (wrap e) (store s t))) :
    Spec (Call.zoom part store wrap x) t R F := by
  unfold Spec Call.zoom at *
  cases hx : x (part t) with
  | ok a s =>
    rw [hx] at h
    exact h
  | error e s =>
    rw [hx] at h
    exact h

/-- A call whose error the caller looks at. -/
def catching (x : Call ε σ α) : Call ε' σ (Except ε α) := fun s =>
  .ok (outcome x s).1 (outcome x s).2

theorem Spec.catching {x : Call ε σ α} {s : σ} {R : Except ε α → σ → Prop} {F : ε' → σ → Prop}
    (h : R (Call.outcome x s).1 (Call.outcome x s).2) : Spec (Call.catching x : Call ε' σ _) s R F := h

/-- `errdefer`: an error undoes what stood before the call. -/
def cleaning (x : Call ε σ α) (undo : σ → σ) : Call ε σ α := fun s =>
  match x s with
  | .ok a s' => .ok a s'
  | .error e s' => .error e (undo s')

theorem Spec.cleaning {x : Call ε σ α} {undo : σ → σ} {s : σ}
    (h : Spec x s Q fun e s' => E e (undo s')) : Spec (Call.cleaning x undo) s Q E := by
  unfold Spec Call.cleaning at *
  cases hx : x s with
  | ok a s' =>
    rw [hx] at h
    exact h
  | error e s' =>
    rw [hx] at h
    exact h

/-- `errdefer |e|`: an error leaves its mark on the state. -/
def marking (x : Call ε σ α) (mark : ε → σ → σ) : Call ε σ α := fun s =>
  match x s with
  | .ok a s' => .ok a s'
  | .error e s' => .error e (mark e s')

theorem Spec.marking {x : Call ε σ α} {mark : ε → σ → σ} {s : σ}
    (h : Spec x s Q fun e s' => E e (mark e s')) : Spec (Call.marking x mark) s Q E := by
  unfold Spec Call.marking at *
  cases hx : x s with
  | ok a s' =>
    rw [hx] at h
    exact h
  | error e s' =>
    rw [hx] at h
    exact h

end Call
end NvidiaGsp
