import NvidiaGsp.Lib.Runs

/-!
# Lib.Threads

Programs over shared state, and their interleavings. A program is a value or one atomic action with a
continuation; a pool runs any number of them, one action at a time, in any order. What an action
answers may depend on the outside, so a label carries an answer for it.

`Follows` says that a program keeps to an automaton: `next` relates a mode, an action with its result
and the mode after it, `final` gives the values it may end with in a mode. It splits over `bind`, so a
program is checked piece by piece, and a running thread follows its automaton from the mode it has
reached.
-/

namespace NvidiaGsp

inductive Prog (Act : Type) (Res : Act → Type) (α : Type) where
  | ret (value : α)
  | act (a : Act) (k : Res a → Prog Act Res α)

namespace Prog

variable {Act : Type} {Res : Act → Type} {α β : Type}

def bind : Prog Act Res α → (α → Prog Act Res β) → Prog Act Res β
  | .ret v, f => f v
  | .act a k, f => .act a fun r => (k r).bind f

instance : Monad (Prog Act Res) where
  pure := .ret
  bind := bind

def perform (a : Act) : Prog Act Res (Res a) := .act a .ret

/-- The statement `if (c) p;`. -/
def when (c : Prop) [Decidable c] (p : Prog Act Res Unit) : Prog Act Res Unit :=
  if c then p else pure ()

/-! ## Actions of a program -/

/-- Every action the program may take has a property. -/
def Only (P : Act → Prop) : Prog Act Res α → Prop
  | .ret _ => True
  | .act a k => P a ∧ ∀ r, Only P (k r)

variable {P Q : Act → Prop}

theorem Only.ret (v : α) : Only P (pure v : Prog Act Res α) := trivial

theorem Only.perform {a : Act} (h : P a) : Only P (perform a : Prog Act Res (Res a)) :=
  ⟨h, fun _ => trivial⟩

theorem Only.bind {p : Prog Act Res α} {f : α → Prog Act Res β} (hp : Only P p)
    (hf : ∀ v, Only P (f v)) : Only P (p >>= f) := by
  induction p with
  | ret v => exact hf v
  | act a k ih => exact ⟨hp.1, fun r => ih r (hp.2 r)⟩

theorem Only.when {c : Prop} [Decidable c] {p : Prog Act Res Unit} (hp : Only P p) :
    Only P (when c p) := by
  unfold Prog.when
  split
  · exact hp
  · exact .ret ()

theorem Only.mono (h : ∀ a, P a → Q a) {p : Prog Act Res α} (hp : Only P p) : Only Q p := by
  induction p with
  | ret v => trivial
  | act a k ih => exact ⟨h a hp.1, fun r => ih r (hp.2 r)⟩

/-! ## Automata -/

variable {M : Type} {next : M → (a : Act) → Res a → M → Prop}

def Follows (next : M → (a : Act) → Res a → M → Prop) (final : M → α → Prop) :
    M → Prog Act Res α → Prop
  | m, .ret v => final m v
  | m, .act a k => ∀ r, ∃ m', next m a r m' ∧ Follows next final m' (k r)

theorem Follows.mono {final final' : M → α → Prop} (h : ∀ m v, final m v → final' m v) {m : M}
    {p : Prog Act Res α} (hp : Follows next final m p) : Follows next final' m p := by
  induction p generalizing m with
  | ret v => exact h m v hp
  | act a k ih =>
    intro r
    obtain ⟨m', hm, hk⟩ := hp r
    exact ⟨m', hm, ih r hk⟩

theorem Follows.bind {final : M → β → Prop} {f : α → Prog Act Res β} {m : M} {p : Prog Act Res α}
    (h : Follows next (fun m v => Follows next final m (f v)) m p) :
    Follows next final m (p >>= f) := by
  induction p generalizing m with
  | ret v => exact h
  | act a k ih =>
    intro r
    obtain ⟨m', hm, hk⟩ := h r
    exact ⟨m', hm, ih r hk⟩

/-- A piece that stays in its mode, then the rest. -/
theorem Follows.seq {final : M → β → Prop} {f : α → Prog Act Res β} {m : M} {p : Prog Act Res α}
    (hp : Follows next (fun m' _ => m' = m) m p) (hf : ∀ v, Follows next final m (f v)) :
    Follows next final m (p >>= f) := by
  refine .bind (hp.mono fun m' v h => ?_)
  rw [h]
  exact hf v

theorem Follows.ret {final : M → α → Prop} {m : M} {v : α} (h : final m v) :
    Follows next final m (pure v) := h

/-- One action, then the rest from the mode it leads to. -/
theorem Follows.perform {final : M → β → Prop} {a : Act} {f : Res a → Prog Act Res β} {m : M}
    (h : ∀ r, ∃ m', next m a r m' ∧ Follows next final m' (f r)) :
    Follows next final m (Prog.perform a >>= f) := h

/-- Actions that do not change the mode. -/
theorem Only.follows {P : Act → Prop} {m : M} {p : Prog Act Res α}
    (h : ∀ a r, P a → next m a r m) (hp : Only P p) :
    Follows next (fun m' _ => m' = m) m p := by
  induction p with
  | ret v => rfl
  | act a k ih => exact fun r => ⟨m, h a r hp.1, ih r (hp.2 r)⟩

end Prog

/-! ## Pools -/

/-- Actions on a shared state `σ` and the thread's own `ℓ`; `start` and `finish` say what the
beginning and the end of a thread of some kind do. -/
structure System (σ ℓ κ Act : Type) (Res : Act → Type) (α : Type) where
  exec : (a : Act) → (answer : Nat) → ℓ → σ → Res a × ℓ × σ
  start : κ → σ → Option (ℓ × Prog Act Res α × σ)
  finish : κ → α → σ → σ

structure Thread (ℓ κ Act : Type) (Res : Act → Type) (α : Type) where
  kind : κ
  here : ℓ
  prog : Prog Act Res α

structure Pool (σ ℓ κ Act : Type) (Res : Act → Type) (α : Type) where
  shared : σ
  threads : Nat → Option (Thread ℓ κ Act Res α) := fun _ => none

/-- Whose turn it is. -/
inductive Label (κ : Type) where
  | start (t : Nat) (kind : κ)
  | act (t answer : Nat)
  | finish (t : Nat)

def Label.thread {κ : Type} : Label κ → Nat
  | .start t _ => t
  | .act t _ => t
  | .finish t => t

inductive Did (κ Act α : Type) where
  | started (t : Nat) (kind : κ)
  | acted (t : Nat) (kind : κ) (a : Act)
  | finished (t : Nat) (kind : κ) (value : α)
  | nothing

namespace System

variable {σ ℓ κ Act : Type} {Res : Act → Type} {α : Type}

/-- One step of the pool; a label that does not apply does nothing. -/
def step (S : System σ ℓ κ Act Res α) (p : Pool σ ℓ κ Act Res α) :
    Label κ → Did κ Act α × Pool σ ℓ κ Act Res α
  | .start t kind =>
    match p.threads t, S.start kind p.shared with
    | none, some (here, prog, shared) =>
      (.started t kind, ⟨shared, Function.update p.threads t (some ⟨kind, here, prog⟩)⟩)
    | _, _ => (.nothing, p)
  | .act t answer =>
    match p.threads t with
    | some ⟨kind, here, .act a k⟩ =>
      let r := S.exec a answer here p.shared
      (.acted t kind a, ⟨r.2.2, Function.update p.threads t (some ⟨kind, r.2.1, k r.1⟩)⟩)
    | _ => (.nothing, p)
  | .finish t =>
    match p.threads t with
    | some ⟨kind, _, .ret v⟩ =>
      (.finished t kind v, ⟨S.finish kind v p.shared, Function.update p.threads t none⟩)
    | _ => (.nothing, p)

/-- What a step can do. -/
inductive Moved (S : System σ ℓ κ Act Res α) (p : Pool σ ℓ κ Act Res α) :
    Did κ Act α → Pool σ ℓ κ Act Res α → Prop where
  | start {t : Nat} {kind : κ} {here : ℓ} {prog : Prog Act Res α} {shared : σ} :
      p.threads t = none → S.start kind p.shared = some (here, prog, shared) →
      Moved S p (.started t kind) ⟨shared, Function.update p.threads t (some ⟨kind, here, prog⟩)⟩
  | act {t answer : Nat} {kind : κ} {here : ℓ} {a : Act} {k : Res a → Prog Act Res α} :
      p.threads t = some ⟨kind, here, .act a k⟩ →
      Moved S p (.acted t kind a) ⟨(S.exec a answer here p.shared).2.2,
        Function.update p.threads t (some ⟨kind, (S.exec a answer here p.shared).2.1,
          k (S.exec a answer here p.shared).1⟩)⟩
  | finish {t : Nat} {kind : κ} {here : ℓ} {v : α} :
      p.threads t = some ⟨kind, here, .ret v⟩ →
      Moved S p (.finished t kind v) ⟨S.finish kind v p.shared, Function.update p.threads t none⟩
  | nothing : Moved S p .nothing p

theorem step_moved (S : System σ ℓ κ Act Res α) (p : Pool σ ℓ κ Act Res α) (label : Label κ) :
    Moved S p (S.step p label).1 (S.step p label).2 := by
  cases label with
  | start t kind =>
    unfold step
    dsimp only
    split
    · rename_i ht hs
      exact .start ht hs
    · exact .nothing
  | act t answer =>
    unfold step
    dsimp only
    split
    · rename_i ht
      exact .act ht
    · exact .nothing
  | finish t =>
    unfold step
    dsimp only
    split
    · rename_i ht
      exact .finish ht
    · exact .nothing

/-- A step of one thread leaves the others alone. -/
theorem step_other (S : System σ ℓ κ Act Res α) (p : Pool σ ℓ κ Act Res α) {label : Label κ} {t : Nat}
    (h : label.thread ≠ t) : (S.step p label).2.threads t = p.threads t := by
  cases label with
  | start u kind =>
    unfold step
    dsimp only
    split
    · exact Function.update_of_ne h.symm ..
    · rfl
  | act u answer =>
    unfold step
    dsimp only
    split
    · exact Function.update_of_ne h.symm ..
    · rfl
  | finish u =>
    unfold step
    dsimp only
    split
    · exact Function.update_of_ne h.symm ..
    · rfl

theorem exec_other (S : System σ ℓ κ Act Res α) (p : Pool σ ℓ κ Act Res α)
    {labels : List (Label κ)} {t : Nat} (h : ∀ label ∈ labels, label.thread ≠ t) :
    (NvidiaGsp.exec S.step p labels).2.threads t = p.threads t := by
  induction labels generalizing p with
  | nil => rfl
  | cons label rest ih =>
    have hrest := ih (S.step p label).2 fun l hl => h l (List.mem_cons_of_mem _ hl)
    exact hrest.trans (S.step_other p (h label List.mem_cons_self))

/-- A thread of the pool after a write of one of them. -/
theorem threads_update {threads : Nat → Option (Thread ℓ κ Act Res α)} {t u : Nat}
    {o : Option (Thread ℓ κ Act Res α)} {th : Thread ℓ κ Act Res α}
    (h : Function.update threads t o u = some th) :
    (u = t ∧ o = some th) ∨ (u ≠ t ∧ threads u = some th) := by
  by_cases hu : u = t
  · subst hu
    rw [Function.update_self] at h
    exact .inl ⟨rfl, h⟩
  · rw [Function.update_of_ne hu] at h
    exact .inr ⟨hu, h⟩

end System
end NvidiaGsp
