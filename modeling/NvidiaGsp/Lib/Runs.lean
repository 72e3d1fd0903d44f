import Mathlib

/-!
# Lib.Runs

Runs of a machine that answers one operation at a time. `step s op` gives the answer and the next
state; a run is the list of completed events, oldest first. `Run.invariant` is the one induction
behind every statement "in every reachable state": a predicate of the history and the state that
holds at the start and is kept by one step.
-/

namespace NvidiaGsp

/-- One completed operation: where it started, what was asked and answered, where it ended. -/
structure Event (σ Op Out : Type) where
  pre : σ
  op : Op
  out : Out
  post : σ

/-- From `s₀`, the events `h` lead to `s`. -/
inductive Run {σ Op Out : Type} (step : σ → Op → Out × σ) (s₀ : σ) :
    List (Event σ Op Out) → σ → Prop where
  | nil : Run step s₀ [] s₀
  | snoc {h : List (Event σ Op Out)} {s s' : σ} {op : Op} {out : Out} :
      Run step s₀ h s → step s op = (out, s') → Run step s₀ (h ++ [⟨s, op, out, s'⟩]) s'

namespace Run

variable {σ Op Out : Type} {step : σ → Op → Out × σ} {s₀ s : σ} {h : List (Event σ Op Out)}

/-- What holds at the start and is kept by every step holds in every reachable state. -/
theorem invariant {P : List (Event σ Op Out) → σ → Prop} (h₀ : P [] s₀)
    (hstep : ∀ h s op out s', P h s → step s op = (out, s') → P (h ++ [⟨s, op, out, s'⟩]) s')
    (hr : Run step s₀ h s) : P h s := by
  induction hr with
  | nil => exact h₀
  | snoc _ hs ih => exact hstep _ _ _ _ _ ih hs

/-- A run is a run up to any point of its history, and on from there. -/
theorem split {h₁ h₂ : List (Event σ Op Out)} (hr : Run step s₀ (h₁ ++ h₂) s) :
    ∃ s₁, Run step s₀ h₁ s₁ ∧ Run step s₁ h₂ s := by
  generalize hh : h₁ ++ h₂ = h at hr
  induction hr generalizing h₂ with
  | nil =>
    obtain ⟨rfl, rfl⟩ := List.append_eq_nil_iff.mp hh
    exact ⟨s₀, .nil, .nil⟩
  | @snoc h s s' op out hr hs ih =>
    rcases List.eq_nil_or_concat h₂ with rfl | ⟨h₃, e, rfl⟩
    · rw [List.append_nil] at hh
      exact ⟨s', hh ▸ .snoc hr hs, .nil⟩
    · rw [List.concat_eq_append, ← List.append_assoc] at hh
      obtain ⟨heq, he⟩ := List.append_inj' hh rfl
      obtain ⟨s₁, hr₁, hr₂⟩ := ih heq
      rw [List.singleton_inj] at he
      subst he
      exact ⟨s₁, hr₁, List.concat_eq_append ▸ .snoc hr₂ hs⟩

/-- The state before any event of a run is reached by the events before it. -/
theorem prior {h₁ h₂ : List (Event σ Op Out)} {e : Event σ Op Out}
    (hr : Run step s₀ (h₁ ++ e :: h₂) s) :
    Run step s₀ h₁ e.pre ∧ step e.pre e.op = (e.out, e.post) := by
  rw [List.append_cons] at hr
  obtain ⟨s₁, hr₁, -⟩ := hr.split
  generalize hh : h₁ ++ [e] = h at hr₁
  cases hr₁ with
  | nil => simp at hh
  | snoc hrun hs =>
    obtain ⟨rfl, he⟩ := List.append_inj' hh rfl
    rw [List.singleton_inj] at he
    subst he
    exact ⟨hrun, hs⟩

/-- A run goes on where another ends. -/
theorem append {h' : List (Event σ Op Out)} {s' : σ} (hr : Run step s₀ h s)
    (hr' : Run step s h' s') : Run step s₀ (h ++ h') s' := by
  induction hr' with
  | nil => rwa [List.append_nil]
  | snoc _ hs ih =>
    rw [← List.append_assoc]
    exact .snoc ih hs

/-- A run ends where its last event does. -/
theorem last {h₁ : List (Event σ Op Out)} {e : Event σ Op Out} (hr : Run step s₀ (h₁ ++ [e]) s) :
    s = e.post := by
  generalize hh : h₁ ++ [e] = h at hr
  cases hr with
  | nil => simp at hh
  | snoc hrun hs =>
    obtain ⟨-, he⟩ := List.append_inj' hh rfl
    rw [List.singleton_inj] at he
    rw [he]

/-- The states before and after each event of a run are reached by runs themselves, along a
prefix of the history. -/
theorem event {e : Event σ Op Out} (hr : Run step s₀ h s) (he : e ∈ h) :
    ∃ h₁ h₂, h = h₁ ++ e :: h₂ ∧ Run step s₀ h₁ e.pre ∧ step e.pre e.op = (e.out, e.post) := by
  obtain ⟨h₁, h₂, rfl⟩ := List.append_of_mem he
  exact ⟨h₁, h₂, rfl, hr.prior⟩

end Run

/-- The events and the last state of answering a list of operations in order. -/
def exec {σ Op Out : Type} (step : σ → Op → Out × σ) (s : σ) :
    List Op → List (Event σ Op Out) × σ
  | [] => ([], s)
  | op :: ops =>
    let r := step s op
    let rest := exec step r.2 ops
    (⟨s, op, r.1, r.2⟩ :: rest.1, rest.2)

theorem Run.cons {σ Op Out : Type} {step : σ → Op → Out × σ} {s s₁ s' : σ} {op : Op} {out : Out}
    {h : List (Event σ Op Out)} (hs : step s op = (out, s₁)) (hr : Run step s₁ h s') :
    Run step s (⟨s, op, out, s₁⟩ :: h) s' := by
  induction hr with
  | nil => exact .snoc (h := []) .nil hs
  | snoc _ hst ih => exact .snoc ih hst

/-- Every list of operations gives a run. -/
theorem Run.of_exec {σ Op Out : Type} (step : σ → Op → Out × σ) (s : σ) (ops : List Op) :
    Run step s (exec step s ops).1 (exec step s ops).2 := by
  induction ops generalizing s with
  | nil => exact .nil
  | cons op ops ih => exact .cons rfl (ih _)

/-- The operations of the run are the ones asked. -/
theorem mem_of_mem_exec {σ Op Out : Type} {step : σ → Op → Out × σ} {s : σ} {ops : List Op}
    {e : Event σ Op Out} (h : e ∈ (exec step s ops).1) : e.op ∈ ops := by
  induction ops generalizing s with
  | nil => simp [exec] at h
  | cons op ops ih =>
    rcases List.mem_cons.mp h with rfl | h
    · simp
    · exact List.mem_cons_of_mem _ (ih h)

end NvidiaGsp
