import NvidiaGsp.Lib.Bytes

/-!
# Lib.Memory

A byte-addressed memory: `peek` a range, `poke` bytes at an offset, and the little-endian word at an
offset.
-/

namespace NvidiaGsp

abbrev Memory := Nat → Byte

namespace Memory

open Bytes

variable {m : Memory} {offset o n i : Nat} {bytes : List Byte} {v : Word}

def peek (m : Memory) (offset len : Nat) : List Byte := (List.range len).map fun i => m (offset + i)

def poke (m : Memory) (offset : Nat) (bytes : List Byte) : Memory :=
  fun i => if offset ≤ i ∧ i < offset + bytes.length then bytes.getD (i - offset) 0 else m i

def wordAt (m : Memory) (offset : Nat) : Word := word (peek m offset 4) 0

@[simp] theorem length_peek : (peek m offset n).length = n := by simp [peek]

theorem getD_peek (h : i < n) : (peek m offset n).getD i 0 = m (offset + i) := by
  simp [peek, List.getD_eq_getElem?_getD, List.getElem?_map, List.getElem?_range h]

/-- A range that agrees with a buffer byte by byte is that buffer. -/
theorem peek_eq (hlen : bytes.length = n) (h : ∀ i < n, m (offset + i) = bytes.getD i 0) :
    peek m offset n = bytes := by
  refine List.ext_getElem (by simp [hlen]) fun i hi hb => ?_
  rw [length_peek] at hi
  have := h i hi
  rw [List.getD_eq_getElem _ _ hb] at this
  simpa [peek] using this

theorem word_peek (h : o + 4 ≤ n) : word (peek m offset n) o = wordAt m (offset + o) := by
  refine word_congr fun k hk => ?_
  rw [getD_peek (by omega), getD_peek (by omega)]
  congr 1
  omega

theorem poke_outside (h : i < offset ∨ offset + bytes.length ≤ i) : poke m offset bytes i = m i := by
  unfold poke
  rw [if_neg (by omega)]

theorem poke_inside (h : i < bytes.length) : poke m offset bytes (offset + i) = bytes.getD i 0 := by
  unfold poke
  rw [if_pos (by omega), Nat.add_sub_cancel_left]

theorem wordAt_congr {m' : Memory} (h : ∀ k < 4, m' (offset + k) = m (offset + k)) :
    wordAt m' offset = wordAt m offset := by
  refine word_congr fun k hk => ?_
  rw [Nat.zero_add, getD_peek hk, getD_peek hk, h k hk]

theorem wordAt_poke_same : wordAt (poke m offset (le32 v)) offset = v := by
  rw [← word_le32 v]
  refine word_congr fun k hk => ?_
  rw [Nat.zero_add, getD_peek hk, word_le32, poke_inside (by simpa using hk)]

theorem wordAt_poke_other (h : o + 4 ≤ offset ∨ offset + bytes.length ≤ o) :
    wordAt (poke m offset bytes) o = wordAt m o :=
  wordAt_congr fun k hk => poke_outside (by omega)

end Memory
end NvidiaGsp
