import Mathlib

/-!
# Lib.Parse

Parsers of untrusted bytes in a language that checks itself. A parser returns a value, rejects its
input with an error of its own, or traps: a slice out of bounds, an integer overflow, a cast that does
not fit. `Safe x Q` says that `x` never traps and that `Q` holds of what it returns; its rules follow
the statements of a body. The `_ok` lemmas say when a statement returns, and what.
-/

namespace NvidiaGsp

inductive Trap where
  | bounds | overflow | cast | shift
  deriving DecidableEq, Repr

inductive Stop (ε : Type) where
  | error (e : ε)
  | trap (t : Trap)
  deriving DecidableEq, Repr

abbrev Parse (ε α : Type) := Except (Stop ε) α

/-- A byte string: its length, and the byte at each place. -/
structure Slice where
  len : Nat
  byte : Nat → BitVec 8

namespace Slice

variable (s : Slice) (i : Nat)

def get : Nat := (s.byte i).toNat

def u16 : Nat := s.get i + 256 * s.get (i + 1)

def u32 : Nat := s.u16 i + 65536 * s.u16 (i + 2)

def u64 : Nat := s.u32 i + 4294967296 * s.u32 (i + 4)

/-- `s[offset..][0..n]`. -/
def sub (offset n : Nat) : Slice := ⟨n, fun i => s.byte (offset + i)⟩

def toList : List Nat := (List.range s.len).map s.get

/-- Texts written over zeros. -/
def written (len : Nat) (texts : List (Nat × List Nat)) : Slice where
  len := len
  byte i :=
    match texts.find? fun p => decide (p.1 ≤ i ∧ i < p.1 + p.2.length) with
    | some p => BitVec.ofNat 8 (p.2.getD (i - p.1) 0)
    | none => 0

theorem get_lt : s.get i < 256 := (s.byte i).isLt

theorem u16_lt : s.u16 i < 65536 := by
  have h := s.get_lt i
  have h' := s.get_lt (i + 1)
  unfold u16
  omega

theorem u32_lt : s.u32 i < 4294967296 := by
  have h := s.u16_lt i
  have h' := s.u16_lt (i + 2)
  unfold u32
  omega

variable {s i} {offset n : Nat}

@[simp] theorem sub_len : (s.sub offset n).len = n := rfl

@[simp] theorem sub_get : (s.sub offset n).get i = s.get (offset + i) := rfl

@[simp] theorem sub_u16 : (s.sub offset n).u16 i = s.u16 (offset + i) := by
  simp [u16, Nat.add_assoc]

@[simp] theorem sub_u32 : (s.sub offset n).u32 i = s.u32 (offset + i) := by
  simp [u32, Nat.add_assoc]

theorem sub_sub {o m : Nat} : (s.sub offset n).sub o m = s.sub (offset + o) m := by
  simp [sub, Nat.add_assoc]

@[simp] theorem length_toList : s.toList.length = s.len := by simp [toList]

theorem mem_toList {v : Nat} : v ∈ s.toList ↔ ∃ i < s.len, s.get i = v := by simp [toList]

end Slice

namespace Parse

variable {ε α β : Type}

/-- `return error.E` under a condition. -/
def reject (c : Prop) [Decidable c] (e : ε) : Parse ε Unit := if c then .error (.error e) else .ok ()

/-- `o orelse return error.E`. -/
def need (o : Option α) (e : ε) : Parse ε α :=
  match o with
  | some a => .ok a
  | none => .error (.error e)

/-- A value that the language checks at run time. -/
def checked (c : Prop) [Decidable c] (t : Trap) (a : α) : Parse ε α :=
  if c then .ok a else .error (.trap t)

/-- Arithmetic on `w` bits. -/
def fits (w v : Nat) : Parse ε Nat := checked (v < 2 ^ w) .overflow v

/-- A difference of unsigned integers. -/
def minus (a b : Nat) : Parse ε Nat := checked (b ≤ a) .overflow (a - b)

/-- `@intCast` to `w` bits. -/
def cast (w v : Nat) : Parse ε Nat := checked (v < 2 ^ w) .cast v

/-- `s[i]`. -/
def byteAt (s : Slice) (i : Nat) : Parse ε Nat := checked (i < s.len) .bounds (s.get i)

def u16At (s : Slice) (i : Nat) : Parse ε Nat := checked (i + 2 ≤ s.len) .bounds (s.u16 i)

def u32At (s : Slice) (i : Nat) : Parse ε Nat := checked (i + 4 ≤ s.len) .bounds (s.u32 i)

def u64At (s : Slice) (i : Nat) : Parse ε Nat := checked (i + 8 ≤ s.len) .bounds (s.u64 i)

/-- `s[offset..][0..n]`. -/
def part (s : Slice) (offset n : Nat) : Parse ε Slice :=
  checked (offset + n ≤ s.len) .bounds (s.sub offset n)

/-! ## When a statement returns -/

theorem bind_ok {x : Parse ε α} {f : α → Parse ε β} {b : β} :
    (x >>= f) = .ok b ↔ ∃ a, x = .ok a ∧ f a = .ok b := by
  cases x with
  | ok a => simp [bind, Except.bind]
  | error e => simp [bind, Except.bind]

@[simp] theorem pure_ok {a b : α} : (pure a : Parse ε α) = .ok b ↔ a = b := by
  simp [pure, Except.pure]

@[simp] theorem reject_ok {c : Prop} [Decidable c] {e : ε} {u : Unit} : reject c e = .ok u ↔ ¬ c := by
  unfold reject
  split <;> simp_all

@[simp] theorem checked_ok {c : Prop} [Decidable c] {t : Trap} {a b : α} :
    (checked c t a : Parse ε α) = .ok b ↔ c ∧ a = b := by
  unfold checked
  split <;> simp_all

@[simp] theorem need_ok {o : Option α} {e : ε} {a : α} : need o e = .ok a ↔ o = some a := by
  cases o <;> simp [need]

@[simp] theorem fits_ok {w v r : Nat} : (fits w v : Parse ε Nat) = .ok r ↔ v < 2 ^ w ∧ v = r :=
  checked_ok

@[simp] theorem cast_ok {w v r : Nat} : (cast w v : Parse ε Nat) = .ok r ↔ v < 2 ^ w ∧ v = r :=
  checked_ok

@[simp] theorem byteAt_ok {s : Slice} {i r : Nat} :
    (byteAt s i : Parse ε Nat) = .ok r ↔ i < s.len ∧ s.get i = r := checked_ok

@[simp] theorem u16At_ok {s : Slice} {i r : Nat} :
    (u16At s i : Parse ε Nat) = .ok r ↔ i + 2 ≤ s.len ∧ s.u16 i = r := checked_ok

@[simp] theorem u32At_ok {s : Slice} {i r : Nat} :
    (u32At s i : Parse ε Nat) = .ok r ↔ i + 4 ≤ s.len ∧ s.u32 i = r := checked_ok

@[simp] theorem u64At_ok {s : Slice} {i r : Nat} :
    (u64At s i : Parse ε Nat) = .ok r ↔ i + 8 ≤ s.len ∧ s.u64 i = r := checked_ok

@[simp] theorem part_ok {s r : Slice} {offset n : Nat} :
    (part s offset n : Parse ε Slice) = .ok r ↔ offset + n ≤ s.len ∧ s.sub offset n = r := checked_ok

section

variable {c : Prop} [Decidable c] {e : ε} {t : Trap} {a : α} {f : α → Parse ε β} {g : Unit → Parse ε β}

theorem reject_of (h : c) : (reject c e >>= g) = .error (.error e) := by
  unfold reject
  rw [if_pos h]
  rfl

theorem reject_of_not (h : ¬ c) : (reject c e >>= g) = g () := by
  unfold reject
  rw [if_neg h]
  rfl

theorem checked_of (h : c) : (checked c t a >>= f) = f a := by
  unfold checked
  rw [if_pos h]
  rfl

end

theorem fits_of {w v : Nat} {f : Nat → Parse ε β} (h : v < 2 ^ w) : (fits w v >>= f) = f v := checked_of h

theorem minus_of {a b : Nat} {f : Nat → Parse ε β} (h : b ≤ a) : (minus a b >>= f) = f (a - b) :=
  checked_of h

theorem cast_of {w v : Nat} {f : Nat → Parse ε β} (h : v < 2 ^ w) : (cast w v >>= f) = f v := checked_of h

/-! ## No traps -/

/-- `x` never traps; it returns only values with `Q` and rejects only with errors with `E`. -/
def Safe (x : Parse ε α) (Q : α → Prop) (E : ε → Prop := fun _ => True) : Prop :=
  match x with
  | .ok a => Q a
  | .error (.error e) => E e
  | .error (.trap _) => False

variable {x : Parse ε α} {f : α → Parse ε β} {Q : α → Prop} {R : β → Prop} {E : ε → Prop}

theorem Safe.no_trap (h : Safe x Q E) (t : Trap) : x ≠ .error (.trap t) := by
  rintro rfl
  exact h

theorem Safe.ok {a : α} (h : Safe x Q E) (hx : x = .ok a) : Q a := by
  subst hx
  exact h

theorem Safe.error {e : ε} (h : Safe x Q E) (hx : x = .error (.error e)) : E e := by
  subst hx
  exact h

theorem Safe.mono {Q' : α → Prop} (h : Safe x Q E) (hq : ∀ a, Q a → Q' a) : Safe x Q' E := by
  unfold Safe at *
  split <;> simp_all

theorem Safe.pure {a : α} (h : Q a) : Safe (Pure.pure a : Parse ε α) Q E := h

theorem Safe.bind (h : Safe x (fun a => Safe (f a) R E) E) : Safe (x >>= f) R E := by
  cases x with
  | ok a => exact h
  | error e =>
    cases e with
    | error _ => exact h
    | trap _ => exact h.elim

/-- A statement, then the rest. -/
theorem Safe.seq (hx : Safe x Q E) (hf : ∀ a, Q a → Safe (f a) R E) : Safe (x >>= f) R E :=
  .bind (hx.mono hf)

theorem Safe.reject_of {c : Prop} [Decidable c] {e : ε} (he : E e) : Safe (reject c e) (fun _ => ¬ c) E := by
  by_cases h : c <;> simp [Parse.reject, Safe, h, he]

theorem Safe.reject {c : Prop} [Decidable c] {e : ε} : Safe (reject c e) fun _ => ¬ c := .reject_of trivial

theorem Safe.need_of {o : Option α} {e : ε} (he : E e) : Safe (need o e) (fun a => o = some a) E := by
  cases o <;> simp [Parse.need, Safe, he]

theorem Safe.throw_of {e : ε} (he : E e) : Safe (.error (.error e) : Parse ε α) Q E := he

theorem Safe.reject_bind_of {c : Prop} [Decidable c] {e : ε} {f : Unit → Parse ε β} (he : E e)
    (h : ¬ c → Safe (f ()) R E) : Safe (Parse.reject c e >>= f) R E := (Safe.reject_of he).seq fun _ => h

theorem Safe.reject_bind {c : Prop} [Decidable c] {e : ε} {f : Unit → Parse ε β}
    (h : ¬ c → Safe (f ()) R) : Safe (Parse.reject c e >>= f) R := .reject_bind_of trivial h

theorem Safe.need_bind_of {o : Option α} {e : ε} (he : E e) (h : ∀ a, o = some a → Safe (f a) R E) :
    Safe (Parse.need o e >>= f) R E := (Safe.need_of he).seq h

theorem Safe.need_bind {o : Option α} {e : ε} (h : ∀ a, o = some a → Safe (f a) R) :
    Safe (Parse.need o e >>= f) R := .need_bind_of trivial h

theorem Safe.checked {c : Prop} [Decidable c] {t : Trap} {a : α} (hc : c) (h : Q a) :
    Safe (checked c t a : Parse ε α) Q E := by
  unfold Parse.checked
  rw [if_pos hc]
  exact h

theorem Safe.checked_bind {c : Prop} [Decidable c] {t : Trap} {a : α} (hc : c) (h : Safe (f a) R E) :
    Safe (Parse.checked c t a >>= f) R E := .bind (.checked hc h)

section

variable {w v i n : Nat} {s : Slice} {f : Nat → Parse ε β}

theorem Safe.fits_bind (hv : v < 2 ^ w) (h : Safe (f v) R E) : Safe (fits w v >>= f) R E :=
  .checked_bind hv h

theorem Safe.minus_bind {a b : Nat} (h : b ≤ a) (hf : Safe (f (a - b)) R E) :
    Safe (minus a b >>= f) R E := .checked_bind h hf

theorem Safe.cast_bind (hv : v < 2 ^ w) (h : Safe (f v) R E) : Safe (cast w v >>= f) R E :=
  .checked_bind hv h

theorem Safe.byteAt_bind (hi : i < s.len) (h : Safe (f (s.get i)) R E) : Safe (byteAt s i >>= f) R E :=
  .checked_bind hi h

theorem Safe.u16At_bind (hi : i + 2 ≤ s.len) (h : Safe (f (s.u16 i)) R E) : Safe (u16At s i >>= f) R E :=
  .checked_bind hi h

theorem Safe.u32At_bind (hi : i + 4 ≤ s.len) (h : Safe (f (s.u32 i)) R E) : Safe (u32At s i >>= f) R E :=
  .checked_bind hi h

theorem Safe.part_bind {f : Slice → Parse ε β} (hi : i + n ≤ s.len) (h : Safe (f (s.sub i n)) R E) :
    Safe (part s i n >>= f) R E := .checked_bind hi h

end

/-- A loop keeps its invariant; `P k` holds before item `k` of the list. -/
theorem Safe.foldlM {σ : Type} {step : σ → α → Parse ε σ} {P : Nat → σ → Prop} {xs : List α} {a : σ}
    (h0 : P 0 a) (hstep : ∀ k (hk : k < xs.length) s, P k s → Safe (step s xs[k]) (P (k + 1)) E) :
    Safe (xs.foldlM step a) (P xs.length) E := by
  induction xs generalizing a P with
  | nil => exact h0
  | cons x rest ih =>
    rw [List.foldlM_cons]
    refine (hstep 0 (by simp) a h0).seq fun b hb => ?_
    refine (ih (P := fun k => P (k + 1)) hb ?_).mono fun _ h => h
    intro k hk s hs
    exact hstep (k + 1) (by simpa using hk) s hs

/-- The trap of a parser, for evaluation on a fixed input. -/
def trapOf : Parse ε α → Option Trap
  | .error (.trap t) => some t
  | _ => none

theorem trap_of {t : Trap} (h : trapOf x = some t) : x = .error (.trap t) := by
  unfold trapOf at h
  split at h
  · rw [Option.some.inj h]
  · cases h

/-! ## Deciding a rule -/

/-- `x` returns exactly under `C`, and then a value with `Q`; otherwise it rejects. -/
def Decides (x : Parse ε α) (C : Prop) (Q : α → Prop) : Prop :=
  match x with
  | .ok a => C ∧ Q a
  | .error (.error _) => ¬ C
  | .error (.trap _) => False

variable {C D : Prop}

theorem Decides.safe (h : Decides x C Q) : Safe x fun a => C ∧ Q a := by
  cases x with
  | ok a => exact h
  | error e =>
    cases e with
    | error _ => trivial
    | trap _ => exact h

theorem Decides.accepts (h : Decides x C Q) (hc : C) : ∃ a, x = .ok a ∧ Q a := by
  cases x with
  | ok a => exact ⟨a, rfl, h.2⟩
  | error e =>
    cases e with
    | error _ => exact absurd hc h
    | trap _ => exact h.elim

theorem Decides.iff (h : Decides x C Q) (hd : C ↔ D) : Decides x D Q := propext hd ▸ h

theorem Decides.mono {Q' : α → Prop} (h : Decides x C Q) (hq : ∀ a, C → Q a → Q' a) : Decides x C Q' := by
  unfold Decides at *
  split <;> simp_all

theorem Decides.pure {a : α} (h : Q a) : Decides (Pure.pure a : Parse ε α) True Q := ⟨trivial, h⟩

theorem Decides.throw {e : ε} : Decides (.error (.error e) : Parse ε α) False Q := id

/-- A statement with its rule, then the rest with its own. -/
theorem Decides.bind (hx : Decides x C Q) (hf : ∀ a, C → Q a → Decides (f a) D R) :
    Decides (x >>= f) (C ∧ D) R := by
  cases x with
  | ok a =>
    have hrest := hf a hx.1 hx.2
    exact hrest.iff ⟨fun h => ⟨hx.1, h⟩, fun h => h.2⟩
  | error e =>
    cases e with
    | error _ => exact fun h => hx h.1
    | trap _ => exact hx.elim

theorem Decides.reject {c : Prop} [Decidable c] {e : ε} :
    Decides (reject c e) (¬ c) fun _ => True := by
  by_cases h : c <;> simp [Parse.reject, Decides, h]

theorem Decides.need {o : Option α} {e : ε} :
    Decides (need o e) (o.isSome = true) fun a => o = some a := by
  cases o <;> simp [Parse.need, Decides]

theorem Decides.reject_bind {c : Prop} [Decidable c] {e : ε} {f : Unit → Parse ε β}
    (h : ¬ c → Decides (f ()) D R) : Decides (Parse.reject c e >>= f) (¬ c ∧ D) R :=
  Decides.reject.bind fun _ hc _ => h hc

theorem Decides.checked_bind {c : Prop} [Decidable c] {t : Trap} {a : α} (hc : c)
    (h : Decides (f a) D R) : Decides (Parse.checked c t a >>= f) D R := by
  unfold Parse.checked
  rw [if_pos hc]
  exact h

/-- A loop decides the rules of its items; `P k` holds before item `k`. -/
theorem Decides.foldlM {σ : Type} {step : σ → α → Parse ε σ} {P : Nat → σ → Prop} {C : Nat → Prop}
    {xs : List α} {a : σ} (h0 : P 0 a) (hstep : ∀ k (hk : k < xs.length) s, (∀ j < k, C j) → P k s →
      Decides (step s xs[k]) (C k) (P (k + 1))) :
    Decides (xs.foldlM step a) (∀ k < xs.length, C k) (P xs.length) := by
  induction xs generalizing a P C with
  | nil => exact ⟨by simp, h0⟩
  | cons x rest ih =>
    have hrest : ∀ b, C 0 → P 1 b →
        Decides (rest.foldlM step b) (∀ k < rest.length, C (k + 1)) (P (rest.length + 1)) := by
      intro b hc hb
      refine ih (P := fun k => P (k + 1)) (C := fun k => C (k + 1)) hb fun k hk s hbefore hs => ?_
      refine hstep (k + 1) (by simpa using hk) s (fun j hj => ?_) hs
      cases j with
      | zero => exact hc
      | succ j => exact hbefore j (by omega)
    rw [List.foldlM_cons]
    refine ((hstep 0 (by simp) a (by simp) h0).bind hrest).iff ?_
    constructor
    · rintro ⟨hc, hlater⟩ k hk
      cases k with
      | zero => exact hc
      | succ k => exact hlater k (by simpa using hk)
    · intro h
      exact ⟨h 0 (by simp), fun k hk => h (k + 1) (by simpa using hk)⟩

end Parse
end NvidiaGsp
