import NvidiaGsp.Lib.Bytes

/-!
# Lib.Words

Little-endian numbers of any width in byte buffers: what is stored comes back, and a store leaves the
numbers beside it.
-/

namespace NvidiaGsp
namespace Bytes

variable {bytes src a b : List Byte} {offset o i j n m v : Nat}

/-- The first `n` bytes of a number, least significant first. -/
def le : Nat → Nat → List Byte
  | 0, _ => []
  | n + 1, v => BitVec.ofNat 8 v :: le n (v / 256)

/-- The number in `n` bytes from an offset on. -/
def number (bytes : List Byte) (offset : Nat) : Nat → Nat
  | 0 => 0
  | n + 1 => (bytes.getD offset 0).toNat + 256 * number bytes (offset + 1) n

/-- Store a number in `n` bytes. -/
def store (bytes : List Byte) (offset n v : Nat) : List Byte := blit bytes offset (le n v)

@[simp] theorem length_le : (le n v).length = n := by
  induction n generalizing v with
  | zero => rfl
  | succ n ih => rw [le, List.length_cons, ih]

theorem number_congr (h : ∀ k < n, a.getD (i + k) 0 = b.getD (j + k) 0) :
    number a i n = number b j n := by
  induction n generalizing i j with
  | zero => rfl
  | succ n ih =>
    have hfirst := h 0 (Nat.succ_pos n)
    rw [Nat.add_zero, Nat.add_zero] at hfirst
    rw [number, number, hfirst, ih fun k hk => ?_]
    have := h (k + 1) (Nat.succ_lt_succ hk)
    rwa [Nat.add_assoc, Nat.add_comm 1 k, Nat.add_assoc, Nat.add_comm 1 k]

theorem number_le : number (le n v) 0 n = v % 256 ^ n := by
  induction n generalizing v with
  | zero => rw [Nat.pow_zero, Nat.mod_one, number]
  | succ n ih =>
    have hrest : number (le (n + 1) v) 1 n = number (le n (v / 256)) 0 n :=
      number_congr fun k _ => by rw [le, Nat.add_comm 1 k, List.getD_cons_succ, Nat.zero_add]
    have hfirst : ((le (n + 1) v).getD 0 0).toNat = v % 256 := rfl
    rw [number, hfirst, Nat.zero_add, hrest, ih, Nat.pow_succ, Nat.mul_comm (256 ^ n), Nat.mod_mul]

theorem length_store (h : offset + n ≤ bytes.length) :
    (store bytes offset n v).length = bytes.length := length_blit (by rwa [length_le])

theorem number_store (h : offset + n ≤ bytes.length) :
    number (store bytes offset n v) offset n = v % 256 ^ n := by
  have hsame : number (store bytes offset n v) offset n = number (le n v) 0 n := by
    refine number_congr fun k hk => ?_
    rw [store, getD_blit (by rwa [length_le]), if_pos (by rw [length_le]; omega)]
    simp
  rw [hsame, number_le]

theorem number_blit_of_disjoint (h : offset + src.length ≤ bytes.length)
    (ho : o + m ≤ offset ∨ offset + src.length ≤ o) :
    number (blit bytes offset src) o m = number bytes o m := by
  refine number_congr fun k hk => ?_
  rw [getD_blit h, if_neg (by omega)]

theorem number_store_of_disjoint (h : offset + n ≤ bytes.length)
    (ho : o + m ≤ offset ∨ offset + n ≤ o) :
    number (store bytes offset n v) o m = number bytes o m :=
  number_blit_of_disjoint (by rwa [length_le]) (by rwa [length_le])

/-! ## A table of words -/

/-- Words of eight bytes, one after the other. -/
def storeWords (bytes : List Byte) (offset : Nat) : List Nat → List Byte
  | [] => bytes
  | v :: rest => storeWords (store bytes offset 8 v) (offset + 8) rest

theorem length_storeWords {vs : List Nat} (h : offset + 8 * vs.length ≤ bytes.length) :
    (storeWords bytes offset vs).length = bytes.length := by
  induction vs generalizing bytes offset with
  | nil => rfl
  | cons v rest ih =>
    rw [List.length_cons] at h
    have hlen : (store bytes offset 8 v).length = bytes.length := length_store (by omega)
    rw [storeWords, ih (by omega), hlen]

/-- The words before the table are as they were. -/
theorem number_storeWords_of_lt {vs : List Nat} (h : offset + 8 * vs.length ≤ bytes.length)
    (ho : o + m ≤ offset) : number (storeWords bytes offset vs) o m = number bytes o m := by
  induction vs generalizing bytes offset with
  | nil => rfl
  | cons v rest ih =>
    rw [List.length_cons] at h
    have hlen : (store bytes offset 8 v).length = bytes.length := length_store (by omega)
    rw [storeWords, ih (by omega) (by omega), number_store_of_disjoint (by omega) (.inl ho)]

theorem number_storeWords {vs : List Nat} (h : offset + 8 * vs.length ≤ bytes.length)
    (hi : i < vs.length) :
    number (storeWords bytes offset vs) (offset + 8 * i) 8 = vs[i] % 256 ^ 8 := by
  induction vs generalizing bytes offset i with
  | nil => cases hi
  | cons v rest ih =>
    rw [List.length_cons] at h
    have hlen : (store bytes offset 8 v).length = bytes.length := length_store (by omega)
    rw [storeWords]
    cases i with
    | zero =>
      have hkeep : number (storeWords (store bytes offset 8 v) (offset + 8) rest) offset 8 =
          number (store bytes offset 8 v) offset 8 :=
        number_storeWords_of_lt (by omega) (Nat.le_refl _)
      show number (storeWords (store bytes offset 8 v) (offset + 8) rest) offset 8 = v % 256 ^ 8
      rw [hkeep, number_store (by omega)]
    | succ i =>
      rw [List.length_cons] at hi
      have := @ih (store bytes offset 8 v) (offset + 8) i (by omega) (by omega)
      rw [Nat.mul_succ, Nat.add_comm (8 * i), ← Nat.add_assoc, this]
      rfl

end Bytes
end NvidiaGsp
