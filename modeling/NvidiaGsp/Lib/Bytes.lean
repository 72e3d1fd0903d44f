import Mathlib

/-!
# Lib.Bytes

Byte buffers as lists: little-endian words, a copy into a buffer (`blit`), and the XOR of the words
of a prefix. Reads outside a buffer give zero; every user checks its bounds first.
-/

namespace NvidiaGsp

abbrev Byte := BitVec 8
abbrev Word := BitVec 32

namespace Bytes

/-- The four bytes of a word, least significant first. -/
def le32 (v : Word) : List Byte :=
  [BitVec.ofNat 8 v.toNat, BitVec.ofNat 8 (v.toNat / 256), BitVec.ofNat 8 (v.toNat / 65536),
    BitVec.ofNat 8 (v.toNat / 16777216)]

def ofLe32 (a b c d : Byte) : Word :=
  BitVec.ofNat 32 (a.toNat + 256 * b.toNat + 65536 * c.toNat + 16777216 * d.toNat)

@[simp] theorem length_le32 (v : Word) : (le32 v).length = 4 := rfl

/-- The little-endian word at an offset. -/
def word (bytes : List Byte) (offset : Nat) : Word :=
  ofLe32 (bytes.getD offset 0) (bytes.getD (offset + 1) 0) (bytes.getD (offset + 2) 0)
    (bytes.getD (offset + 3) 0)

@[simp] theorem word_le32 (v : Word) : word (le32 v) 0 = v := by
  apply BitVec.eq_of_toNat_eq
  have hv := v.isLt
  simp [word, le32, ofLe32]
  omega

/-- Words agree where their four bytes do. -/
theorem word_congr {a b : List Byte} {i j : Nat}
    (h : ∀ k < 4, a.getD (i + k) 0 = b.getD (j + k) 0) : word a i = word b j := by
  have h₀ := h 0 (by omega)
  rw [Nat.add_zero, Nat.add_zero] at h₀
  unfold word
  rw [h₀, h 1 (by omega), h 2 (by omega), h 3 (by omega)]

/-- The bytes of a part of a buffer. -/
theorem getD_part {bytes : List Byte} {k m i : Nat} (h : i < m) :
    ((bytes.drop k).take m).getD i 0 = bytes.getD (k + i) 0 := by
  simp only [List.getD_eq_getElem?_getD]
  rw [List.getElem?_take_of_lt h, List.getElem?_drop]

/-- Copy `src` into the buffer at an offset. -/
def blit (bytes : List Byte) (offset : Nat) (src : List Byte) : List Byte :=
  bytes.take offset ++ src ++ bytes.drop (offset + src.length)

/-- Store a word at an offset. -/
def put (bytes : List Byte) (offset : Nat) (v : Word) : List Byte := blit bytes offset (le32 v)

theorem length_blit {bytes src : List Byte} {offset : Nat}
    (h : offset + src.length ≤ bytes.length) : (blit bytes offset src).length = bytes.length := by
  simp only [blit, List.length_append, List.length_take, List.length_drop]
  omega

theorem length_put {bytes : List Byte} {offset : Nat} {v : Word} (h : offset + 4 ≤ bytes.length) :
    (put bytes offset v).length = bytes.length := length_blit h

theorem getD_blit {bytes src : List Byte} {offset : Nat} (h : offset + src.length ≤ bytes.length)
    (i : Nat) : (blit bytes offset src).getD i 0 =
      if offset ≤ i ∧ i < offset + src.length then src.getD (i - offset) 0 else bytes.getD i 0 := by
  have htake : (bytes.take offset).length = offset := by
    rw [List.length_take]
    omega
  simp only [blit, List.getD_eq_getElem?_getD, List.append_assoc]
  by_cases h₁ : i < offset
  · rw [List.getElem?_append_left (by omega), if_neg (by omega), List.getElem?_take_of_lt h₁]
  · rw [List.getElem?_append_right (by omega), htake]
    by_cases h₂ : i < offset + src.length
    · rw [List.getElem?_append_left (by omega), if_pos (by omega)]
    · rw [List.getElem?_append_right (by omega), if_neg (by omega), List.getElem?_drop]
      congr 2
      omega

theorem word_blit_of_disjoint {bytes src : List Byte} {offset o : Nat}
    (h : offset + src.length ≤ bytes.length) (ho : o + 4 ≤ offset ∨ offset + src.length ≤ o) :
    word (blit bytes offset src) o = word bytes o := by
  refine word_congr fun k hk => ?_
  rw [getD_blit h, if_neg (by omega)]

theorem word_put_same {bytes : List Byte} {offset : Nat} {v : Word}
    (h : offset + 4 ≤ bytes.length) : word (put bytes offset v) offset = v := by
  rw [← word_le32 v]
  refine word_congr fun k hk => ?_
  rw [put, getD_blit (by simpa using h), if_pos (by simp; omega)]
  simp

theorem word_put_of_disjoint {bytes : List Byte} {offset o : Nat} {v : Word}
    (h : offset + 4 ≤ bytes.length) (ho : o + 4 ≤ offset ∨ offset + 4 ≤ o) :
    word (put bytes offset v) o = word bytes o := word_blit_of_disjoint h ho

/-! ## Storing several words -/

/-- Store words at offsets, in order. -/
def putAll (bytes : List Byte) : List (Nat × Word) → List Byte
  | [] => bytes
  | (offset, v) :: rest => putAll (put bytes offset v) rest

/-- The fields lie inside the buffer, one after the other. -/
def Fields (n : Nat) (fields : List (Nat × Word)) : Prop :=
  (∀ f ∈ fields, f.1 + 4 ≤ n) ∧ fields.Pairwise fun f g => f.1 + 4 ≤ g.1

theorem Fields.tail {n : Nat} {f : Nat × Word} {rest : List (Nat × Word)}
    (h : Fields n (f :: rest)) : Fields n rest :=
  ⟨fun g hg => h.1 g (by simp [hg]), (List.pairwise_cons.mp h.2).2⟩

theorem length_putAll {bytes : List Byte} {fields : List (Nat × Word)}
    (h : Fields bytes.length fields) : (putAll bytes fields).length = bytes.length := by
  induction fields generalizing bytes with
  | nil => rfl
  | cons f rest ih =>
    have hlen : (put bytes f.1 f.2).length = bytes.length := length_put (h.1 f (by simp))
    rw [putAll, ih (by rw [hlen]; exact h.tail), hlen]

/-- A byte outside every field is as before. -/
theorem getD_putAll_of_disjoint {bytes : List Byte} {fields : List (Nat × Word)}
    (h : Fields bytes.length fields) {i : Nat} (hi : ∀ f ∈ fields, i < f.1 ∨ f.1 + 4 ≤ i) :
    (putAll bytes fields).getD i 0 = bytes.getD i 0 := by
  induction fields generalizing bytes with
  | nil => rfl
  | cons f rest ih =>
    have hf := h.1 f (by simp)
    have hlen : (put bytes f.1 f.2).length = bytes.length := length_put hf
    rw [putAll, ih (by rw [hlen]; exact h.tail) fun g hg => hi g (by simp [hg]), put,
      getD_blit hf, if_neg]
    have := hi f (by simp)
    simp only [length_le32]
    omega

/-- Each field holds its word. -/
theorem word_putAll {bytes : List Byte} {fields : List (Nat × Word)}
    (h : Fields bytes.length fields) {offset : Nat} {v : Word} (hm : (offset, v) ∈ fields) :
    word (putAll bytes fields) offset = v := by
  induction fields generalizing bytes with
  | nil => simp at hm
  | cons f rest ih =>
    have hf := h.1 f (by simp)
    have hlen : (put bytes f.1 f.2).length = bytes.length := length_put hf
    have hrest : Fields (put bytes f.1 f.2).length rest := by rw [hlen]; exact h.tail
    rcases List.mem_cons.mp hm with rfl | hm
    · have hafter := (List.pairwise_cons.mp h.2).1
      have hsame : word (putAll bytes ((offset, v) :: rest)) offset =
          word (put bytes offset v) offset := by
        refine word_congr fun k hk => getD_putAll_of_disjoint hrest fun g hg => ?_
        have := hafter g hg
        dsimp only at this
        omega
      rw [hsame, word_put_same hf]
    · rw [putAll]
      exact ih hrest hm

/-! ## The XOR of the words of a prefix -/

/-- The XOR of the first `n` words. -/
def xorWords (bytes : List Byte) : Nat → Word
  | 0 => 0
  | n + 1 => xorWords bytes n ^^^ word bytes (4 * n)

theorem xorWords_congr {a b : List Byte} {n : Nat} (h : ∀ k < n, word a (4 * k) = word b (4 * k)) :
    xorWords a n = xorWords b n := by
  induction n with
  | zero => rfl
  | succ n ih => rw [xorWords, xorWords, ih fun k hk => h k (by omega), h n (by omega)]

/-- Changing one word of the prefix changes the XOR by the old and the new word. -/
theorem xorWords_change {a b : List Byte} {n i : Nat} (hi : i < n)
    (h : ∀ k < n, k ≠ i → word a (4 * k) = word b (4 * k)) :
    xorWords a n = xorWords b n ^^^ word b (4 * i) ^^^ word a (4 * i) := by
  induction n with
  | zero => omega
  | succ n ih =>
    rw [xorWords, xorWords]
    by_cases hin : i = n
    · subst hin
      rw [xorWords_congr fun k hk => h k (by omega) (by omega), BitVec.xor_assoc (xorWords b i),
        BitVec.xor_self, BitVec.xor_zero]
    · rw [ih (by omega) fun k hk hne => h k (by omega) hne, h n (by omega) (Ne.symm hin)]
      ac_rfl

end Bytes
end NvidiaGsp
