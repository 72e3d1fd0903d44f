import Mathlib

/-!
# Lib.Chains

Doubly linked lists as two pointer functions. `Chain previous next nodes` says that the pointers of
every node name its neighbours in `nodes`. Putting a node between two others, and taking one out,
changes one pointer of each neighbour.
-/

namespace NvidiaGsp

variable {α : Type} {previous next previous' next' : α → Option α} {before after : List α} {a : α}

def Chain (previous next : α → Option α) (nodes : List α) : Prop :=
  ∀ pre x post, nodes = pre ++ x :: post → previous x = pre.getLast? ∧ next x = post.head?

/-- A node stands in one place only. -/
theorem nodup_split {pre pre' post post' : List α} {x : α} (h : (pre ++ x :: post).Nodup)
    (heq : pre ++ x :: post = pre' ++ x :: post') : pre = pre' ∧ post = post' := by
  induction pre generalizing pre' with
  | nil =>
    cases pre' with
    | nil => exact ⟨rfl, (List.cons.inj heq).2⟩
    | cons y ys =>
      obtain ⟨rfl, hpost⟩ := List.cons.inj heq
      rw [List.nil_append, List.nodup_cons, hpost] at h
      exact absurd (List.mem_append_right _ List.mem_cons_self) h.1
  | cons z zs ih =>
    rw [List.cons_append, List.nodup_cons] at h
    cases pre' with
    | nil =>
      obtain ⟨rfl, -⟩ := List.cons.inj heq
      exact absurd (List.mem_append_right _ List.mem_cons_self) h.1
    | cons y ys =>
      obtain ⟨rfl, hrest⟩ := List.cons.inj heq
      obtain ⟨rfl, hpost⟩ := ih h.2 hrest
      exact ⟨rfl, hpost⟩

theorem ne_of_nodup {x y : α} {xs : List α} (h : (x :: xs).Nodup) (hy : y ∈ xs) : x ≠ y :=
  fun heq => (List.nodup_cons.mp h).1 (heq ▸ hy)

/-- The last element of a nonempty end. -/
theorem getLast?_append_cons (xs ys : List α) (y : α) :
    (xs ++ y :: ys).getLast? = (y :: ys).getLast? := by
  rw [List.getLast?_append]
  cases h : (y :: ys).getLast? with
  | none => simp at h
  | some z => rfl

variable [DecidableEq α]

/-- A node is put between two neighbours. -/
theorem Chain.insert (h : Chain previous next (before ++ after)) (hn : (before ++ a :: after).Nodup)
    (hp : ∀ x, previous' x = if x = a then before.getLast? else if some x = after.head? then some a
      else previous x)
    (hx : ∀ x, next' x = if x = a then after.head? else if some x = before.getLast? then some a
      else next x) : Chain previous' next' (before ++ a :: after) := by
  intro pre x post heq
  have hsplit {pre' post' : List α} (h' : before ++ a :: after = pre' ++ x :: post') :
      pre = pre' ∧ post = post' := nodup_split (heq ▸ hn) (heq.symm.trans h')
  obtain ⟨hnb, hna, hapart⟩ := List.nodup_append.mp hn
  have hafter := List.nodup_cons.mp hna
  have hmem : x ∈ before ++ a :: after := heq ▸ List.mem_append_right _ List.mem_cons_self
  rw [hp, hx]
  rcases List.mem_append.mp hmem with hbefore | hx
  · -- Before the new node: only the last one points to it.
    have hne : x ≠ a := fun he => hapart x hbefore a List.mem_cons_self he
    have hhead : some x ≠ after.head? := fun he =>
      hapart x hbefore x (List.mem_cons_of_mem _ (List.mem_of_mem_head? he.symm)) rfl
    rw [if_neg hne, if_neg hne, if_neg hhead]
    obtain ⟨b₁, b₂, rfl⟩ := List.append_of_mem hbefore
    obtain ⟨rfl, rfl⟩ := hsplit (List.append_assoc ..)
    obtain ⟨hprev, hnext⟩ := h pre x (b₂ ++ after) (List.append_assoc ..)
    refine ⟨hprev, ?_⟩
    rw [getLast?_append_cons]
    cases b₂ with
    | nil => exact if_pos rfl
    | cons y ys =>
      have hlast : some x ≠ (x :: y :: ys).getLast? := by
        rw [List.getLast?_cons_cons]
        intro he
        exact ne_of_nodup (List.nodup_append.mp hnb).2.1 (List.mem_of_getLast? he.symm) rfl
      rw [if_neg hlast, hnext]
      rfl
  · rcases List.mem_cons.mp hx with rfl | hin
    · obtain ⟨rfl, rfl⟩ := hsplit rfl
      exact ⟨if_pos rfl, if_pos rfl⟩
    · -- Behind the new node: only the first one points to it.
      have hne : x ≠ a := fun he => hafter.1 (he ▸ hin)
      have hlast : some x ≠ before.getLast? := fun he =>
        hapart x (List.mem_of_getLast? he.symm) x (List.mem_cons_of_mem _ hin) rfl
      rw [if_neg hne, if_neg hne, if_neg hlast]
      obtain ⟨a₁, a₂, rfl⟩ := List.append_of_mem hin
      obtain ⟨rfl, rfl⟩ := @hsplit (before ++ a :: a₁) a₂ (by simp)
      obtain ⟨hprev, hnext⟩ := h (before ++ a₁) x post (List.append_assoc ..).symm
      refine ⟨?_, hnext⟩
      rw [getLast?_append_cons]
      cases a₁ with
      | nil => exact if_pos rfl
      | cons y ys =>
        have hhead : some x ≠ (y :: ys ++ x :: post).head? := by
          intro he
          have he : x = y := Option.some.inj he
          exact ne_of_nodup hafter.2 (List.mem_append_right _ List.mem_cons_self) he.symm
        rw [if_neg hhead, hprev, getLast?_append_cons, List.getLast?_cons_cons]

/-- A node is taken out between its neighbours. -/
theorem Chain.remove (h : Chain previous next (before ++ a :: after))
    (hn : (before ++ a :: after).Nodup)
    (hp : ∀ x, x ≠ a → previous' x = if some x = after.head? then before.getLast? else previous x)
    (hx : ∀ x, x ≠ a → next' x = if some x = before.getLast? then after.head? else next x) :
    Chain previous' next' (before ++ after) := by
  intro pre x post heq
  obtain ⟨hnb, hna, hapart⟩ := List.nodup_append.mp hn
  have hafter := List.nodup_cons.mp hna
  have hnrest : (before ++ after).Nodup := List.nodup_append.mpr
    ⟨hnb, hafter.2, fun y hy z hz => hapart y hy z (List.mem_cons_of_mem _ hz)⟩
  have hsplit {pre' post' : List α} (h' : before ++ after = pre' ++ x :: post') :
      pre = pre' ∧ post = post' := nodup_split (heq ▸ hnrest) (heq.symm.trans h')
  have hmem : x ∈ before ++ after := heq ▸ List.mem_append_right _ List.mem_cons_self
  rcases List.mem_append.mp hmem with hin | hin
  · have hne : x ≠ a := fun he => hapart x hin a List.mem_cons_self he
    have hhead : some x ≠ after.head? := fun he =>
      hapart x hin x (List.mem_cons_of_mem _ (List.mem_of_mem_head? he.symm)) rfl
    rw [hp x hne, hx x hne, if_neg hhead]
    obtain ⟨b₁, b₂, rfl⟩ := List.append_of_mem hin
    obtain ⟨rfl, rfl⟩ := hsplit (List.append_assoc ..)
    obtain ⟨hprev, hnext⟩ := h pre x (b₂ ++ a :: after) (List.append_assoc ..)
    refine ⟨hprev, ?_⟩
    rw [getLast?_append_cons]
    cases b₂ with
    | nil => exact if_pos rfl
    | cons y ys =>
      have hlast : some x ≠ (x :: y :: ys).getLast? := by
        rw [List.getLast?_cons_cons]
        intro he
        exact ne_of_nodup (List.nodup_append.mp hnb).2.1 (List.mem_of_getLast? he.symm) rfl
      rw [if_neg hlast, hnext]
      rfl
  · have hne : x ≠ a := fun he => hafter.1 (he ▸ hin)
    have hlast : some x ≠ before.getLast? := fun he =>
      hapart x (List.mem_of_getLast? he.symm) x (List.mem_cons_of_mem _ hin) rfl
    rw [hp x hne, hx x hne, if_neg hlast]
    obtain ⟨a₁, a₂, rfl⟩ := List.append_of_mem hin
    obtain ⟨rfl, rfl⟩ := @hsplit (before ++ a₁) a₂ (List.append_assoc ..).symm
    obtain ⟨hprev, hnext⟩ := h (before ++ a :: a₁) x post (by simp)
    refine ⟨?_, hnext⟩
    cases a₁ with
    | nil =>
      rw [List.append_nil]
      exact if_pos rfl
    | cons y ys =>
      have hhead : some x ≠ (y :: ys ++ x :: post).head? := by
        intro he
        have he : x = y := Option.some.inj he
        exact ne_of_nodup hafter.2 (List.mem_append_right _ List.mem_cons_self) he.symm
      rw [if_neg hhead, hprev, getLast?_append_cons, List.getLast?_cons_cons, getLast?_append_cons]

end NvidiaGsp
