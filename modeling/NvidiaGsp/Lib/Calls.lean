import Mathlib

/-!
# Lib.Calls

Calls on a mutable owner, as the source writes them: a function reads and writes the state of the
object it is called on and returns a value or an error, and what it wrote before an error stays
written. `EStateM` is exactly that. This module holds the rules every later proof uses:

* inversion of a sequence of statements (`bind_ok_iff`, `bind_error_iff`) and of the checks
  `failIf` and `need`, which return early;
* `ReadOnly`, `Atomic`, `Total`: a call that writes nothing, a call whose errors write nothing, a
  call that cannot fail, and how a body "checks first, then writes" is atomic.
-/

namespace NvidiaGsp

/-- A call on the state `σ` with errors `ε` and result `α`. -/
abbrev Call (ε σ α : Type) := EStateM ε σ α

namespace Call

variable {ε σ α β : Type}

/-- The early return `if (c) return error.E;`. -/
def failIf (c : Prop) [Decidable c] (e : ε) : Call ε σ Unit := if c then throw e else pure ()

/-- The unwrapping `o orelse return error.E`. -/
def need (o : Option α) (e : ε) : Call ε σ α :=
  match o with
  | some a => pure a
  | none => throw e

/-- A `try` on a fallible function that touches no state. -/
def lift (x : Except ε α) : Call ε σ α :=
  match x with
  | .ok a => pure a
  | .error e => throw e

/-- What a caller sees of a call: the value or the error, and the state after it. -/
def outcome (x : Call ε σ α) (s : σ) : Except ε α × σ :=
  match x s with
  | .ok a s' => (.ok a, s')
  | .error e s' => (.error e, s')

theorem outcome_ok_iff {x : Call ε σ α} {s s' : σ} {a : α} :
    outcome x s = (.ok a, s') ↔ x s = .ok a s' := by
  unfold outcome
  cases x s <;> simp

theorem outcome_error_iff {x : Call ε σ α} {s s' : σ} {e : ε} :
    outcome x s = (.error e, s') ↔ x s = .error e s' := by
  unfold outcome
  cases x s <;> simp

/-! ## Inversion -/

@[simp] theorem pure_apply (a : α) (s : σ) : (pure a : Call ε σ α) s = .ok a s := rfl
@[simp] theorem throw_apply (e : ε) (s : σ) : (throw e : Call ε σ α) s = .error e s := rfl
@[simp] theorem get_apply (s : σ) : (get : Call ε σ σ) s = .ok s s := rfl
@[simp] theorem set_apply (t s : σ) : (set t : Call ε σ PUnit) s = .ok ⟨⟩ t := rfl
@[simp] theorem modify_apply (f : σ → σ) (s : σ) :
    (modify f : Call ε σ PUnit) s = .ok ⟨⟩ (f s) := rfl

theorem failIf_of {c : Prop} [Decidable c] (h : c) (e : ε) (s : σ) :
    (failIf c e : Call ε σ Unit) s = .error e s := by simp [failIf, h]

theorem failIf_of_not {c : Prop} [Decidable c] (h : ¬ c) (e : ε) (s : σ) :
    (failIf c e : Call ε σ Unit) s = .ok () s := by simp [failIf, h]

@[simp] theorem lift_ok_apply (a : α) (s : σ) :
    (lift (.ok a) : Call ε σ α) s = .ok a s := rfl
@[simp] theorem lift_error_apply (e : ε) (s : σ) :
    (lift (.error e) : Call ε σ α) s = .error e s := rfl

theorem bind_apply (x : Call ε σ α) (f : α → Call ε σ β) (s : σ) :
    (x >>= f) s = match x s with
      | .ok a s' => f a s'
      | .error e s' => .error e s' := rfl

theorem bind_ok_iff {x : Call ε σ α} {f : α → Call ε σ β} {s s'' : σ} {b : β} :
    (x >>= f) s = .ok b s'' ↔ ∃ a s', x s = .ok a s' ∧ f a s' = .ok b s'' := by
  rw [bind_apply]
  cases x s <;> simp

theorem bind_error_iff {x : Call ε σ α} {f : α → Call ε σ β} {s s'' : σ} {e : ε} :
    (x >>= f) s = .error e s'' ↔
      x s = .error e s'' ∨ ∃ a s', x s = .ok a s' ∧ f a s' = .error e s'' := by
  rw [bind_apply]
  cases x s <;> simp

@[simp] theorem failIf_ok_iff {c : Prop} [Decidable c] {e : ε} {s s' : σ} {u : Unit} :
    (failIf c e : Call ε σ Unit) s = .ok u s' ↔ ¬ c ∧ s' = s := by
  unfold failIf
  split <;> simp_all [eq_comm]

@[simp] theorem failIf_error_iff {c : Prop} [Decidable c] {e e' : ε} {s s' : σ} :
    (failIf c e : Call ε σ Unit) s = .error e' s' ↔ c ∧ e' = e ∧ s' = s := by
  unfold failIf
  split <;> simp_all [eq_comm]

@[simp] theorem need_ok_iff {o : Option α} {e : ε} {s s' : σ} {a : α} :
    (need o e : Call ε σ α) s = .ok a s' ↔ o = some a ∧ s' = s := by
  unfold need
  cases o <;> simp [eq_comm]

@[simp] theorem need_error_iff {o : Option α} {e e' : ε} {s s' : σ} :
    (need o e : Call ε σ α) s = .error e' s' ↔ o = none ∧ e' = e ∧ s' = s := by
  unfold need
  cases o <;> simp [eq_comm]

@[simp] theorem lift_ok_iff {x : Except ε α} {s s' : σ} {a : α} :
    (lift x : Call ε σ α) s = .ok a s' ↔ x = .ok a ∧ s' = s := by
  unfold lift
  cases x <;> simp [eq_comm]

@[simp] theorem lift_error_iff {x : Except ε α} {s s' : σ} {e : ε} :
    (lift x : Call ε σ α) s = .error e s' ↔ x = .error e ∧ s' = s := by
  unfold lift
  cases x <;> simp [eq_comm]

/-! ## Calls that write nothing, or nothing when they fail -/

/-- The call never changes the state. -/
def ReadOnly (x : Call ε σ α) : Prop :=
  (∀ s a s', x s = .ok a s' → s' = s) ∧ ∀ s e s', x s = .error e s' → s' = s

/-- A failing call leaves the state as it was. -/
def Atomic (x : Call ε σ α) : Prop := ∀ s e s', x s = .error e s' → s' = s

/-- The call never fails. -/
def Total (x : Call ε σ α) : Prop := ∀ s e s', x s ≠ .error e s'

theorem ReadOnly.atomic {x : Call ε σ α} (h : ReadOnly x) : Atomic x := h.2

theorem Total.atomic {x : Call ε σ α} (h : Total x) : Atomic x :=
  fun s e s' hx => absurd hx (h s e s')

theorem readOnly_pure (a : α) : ReadOnly (pure a : Call ε σ α) := by
  constructor <;> intro s x s' h <;> simp at h
  exact h.2.symm

theorem readOnly_get : ReadOnly (get : Call ε σ σ) := by
  constructor <;> intro s x s' h <;> simp at h
  exact h.2.symm

theorem readOnly_failIf (c : Prop) [Decidable c] (e : ε) :
    ReadOnly (failIf c e : Call ε σ Unit) := by
  constructor
  · intro s _ s' h
    exact (failIf_ok_iff.1 h).2
  · intro s _ s' h
    exact (failIf_error_iff.1 h).2.2

theorem readOnly_need (o : Option α) (e : ε) : ReadOnly (need o e : Call ε σ α) := by
  constructor
  · intro s _ s' h
    exact (need_ok_iff.1 h).2
  · intro s _ s' h
    exact (need_error_iff.1 h).2.2

theorem readOnly_lift (x : Except ε α) : ReadOnly (lift x : Call ε σ α) := by
  constructor
  · intro s _ s' h
    exact (lift_ok_iff.1 h).2
  · intro s _ s' h
    exact (lift_error_iff.1 h).2

theorem ReadOnly.bind {x : Call ε σ α} {f : α → Call ε σ β} (hx : ReadOnly x)
    (hf : ∀ a, ReadOnly (f a)) : ReadOnly (x >>= f) := by
  constructor
  · intro s b s'' h
    obtain ⟨a, s', h₁, h₂⟩ := bind_ok_iff.1 h
    rw [(hf a).1 _ _ _ h₂, hx.1 _ _ _ h₁]
  · intro s e s'' h
    rcases bind_error_iff.1 h with h | ⟨a, s', h₁, h₂⟩
    · exact hx.2 _ _ _ h
    · rw [(hf a).2 _ _ _ h₂, hx.1 _ _ _ h₁]

theorem ReadOnly.ite {x y : Call ε σ α} {c : Prop} [Decidable c] (hx : ReadOnly x)
    (hy : ReadOnly y) : ReadOnly (if c then x else y) := by
  split
  · exact hx
  · exact hy

/-- Checks first: a read-only prefix in front of an atomic body is atomic. -/
theorem ReadOnly.bind_atomic {x : Call ε σ α} {f : α → Call ε σ β} (hx : ReadOnly x)
    (hf : ∀ a, Atomic (f a)) : Atomic (x >>= f) := by
  intro s e s'' h
  rcases bind_error_iff.1 h with h | ⟨a, s', h₁, h₂⟩
  · exact hx.2 _ _ _ h
  · rw [hf a _ _ _ h₂, hx.1 _ _ _ h₁]

/-- Then writes: an atomic body followed by one that cannot fail is atomic. -/
theorem Atomic.bind_total {x : Call ε σ α} {f : α → Call ε σ β} (hx : Atomic x)
    (hf : ∀ a, Total (f a)) : Atomic (x >>= f) := by
  intro s e s'' h
  rcases bind_error_iff.1 h with h | ⟨a, s', -, h₂⟩
  · exact hx _ _ _ h
  · exact absurd h₂ (hf a _ _ _)

theorem total_pure (a : α) : Total (pure a : Call ε σ α) := by
  intro s e s' h
  simp at h

theorem total_set (t : σ) : Total (set t : Call ε σ PUnit) := by
  intro s e s' h
  simp at h

theorem total_modify (f : σ → σ) : Total (modify f : Call ε σ PUnit) := by
  intro s e s' h
  simp at h

theorem Total.bind {x : Call ε σ α} {f : α → Call ε σ β} (hx : Total x)
    (hf : ∀ a, Total (f a)) : Total (x >>= f) := by
  intro s e s'' h
  rcases bind_error_iff.1 h with h | ⟨a, s', -, h₂⟩
  · exact hx _ _ _ h
  · exact hf a _ _ _ h₂

end Call
end NvidiaGsp
