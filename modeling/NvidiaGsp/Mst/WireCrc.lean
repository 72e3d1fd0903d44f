import NvidiaGsp.Lib.Crc
import NvidiaGsp.Mst.Wire

/-!
# Mst.WireCrc

The checksums are remainders. Only the low `width` bits of the register are the remainder so far; a
bit that the shift leaves above them is never read again, so it does not matter whether the
polynomial clears it (`crcStep_low`). A checksum of eight bits then finds every error within eight
bits of the body (`crc_exact`).
-/

namespace NvidiaGsp
namespace Mst
namespace Wire

open Crc Polynomial

/-- The bits of a buffer in the order in which they are shifted in. -/
def bitAt (input : List Byte) (i : Nat) : Bool := (input.getD (i / 8) 0).getLsbD (7 - i % 8)

/-- The bits that `crc` shifts in: zeros follow the first `bits`. -/
def padded (input : List Byte) (bits i : Nat) : Bool := decide (i < bits) && bitAt input i

variable {input changed : List Byte} {bits m : Nat} {polynomial reg : BitVec 16}

/-! ## The register -/

theorem mask_bit {x : BitVec 16} {w : Nat} (hw : w < 16) :
    x &&& (1#16 <<< w) ≠ 0 ↔ x.getLsbD w = true := by
  have hpow : 1#16 <<< w = BitVec.twoPow 16 w := rfl
  rw [hpow, BitVec.and_twoPow]
  cases x.getLsbD w with
  | false => simp
  | true =>
    simp only [if_true, iff_true]
    intro hzero
    have hbit := congrArg (fun y => y.getLsbD w) hzero
    simp [hw] at hbit

theorem single_bit (b : Byte) {j : Nat} (hj : j < 8) (k : Nat) :
    (((b >>> j) &&& 1).setWidth 16).getLsbD k = (decide (k = 0) && b.getLsbD j) := by
  cases k with
  | zero =>
    simp
    omega
  | succ k => simp

/-- The register after the shift, before anything is subtracted. -/
def shifted (input : List Byte) (bits : Nat) (reg : BitVec 16) (i : Nat) : BitVec 16 :=
  if i < bits then reg <<< 1 ||| ((input.getD (i / 8) 0 >>> (7 - i % 8)) &&& 1).setWidth 16
  else reg <<< 1

theorem shifted_zero (i : Nat) : (shifted input bits reg i).getLsbD 0 = padded input bits i := by
  unfold shifted padded bitAt
  split
  · rename_i hi
    rw [BitVec.getLsbD_or, single_bit _ (by omega)]
    simp [hi]
  · rename_i hi
    simp [hi]

theorem shifted_succ (i : Nat) {k : Nat} (hk : k + 1 < 16) :
    (shifted input bits reg i).getLsbD (k + 1) = reg.getLsbD k := by
  unfold shifted
  split
  · rw [BitVec.getLsbD_or, single_bit _ (by omega)]
    simp [BitVec.getLsbD_eq_getElem (show k < 16 by omega), hk]
  · simp [BitVec.getLsbD_eq_getElem (show k < 16 by omega), hk]

theorem crcStep_low (hm : m + 1 < 16) (i k : Nat) :
    (crcStep input bits (m + 1) polynomial reg i).getLsbD k =
      ((shifted input bits reg i).getLsbD k ^^ (reg.getLsbD m && polynomial.getLsbD k)) := by
  have hstep : crcStep input bits (m + 1) polynomial reg i =
      if shifted input bits reg i &&& (1#16 <<< (m + 1)) ≠ 0 then
        shifted input bits reg i ^^^ polynomial
      else shifted input bits reg i := rfl
  rw [hstep]
  split
  · rename_i htop
    rw [mask_bit hm, shifted_succ i hm] at htop
    rw [BitVec.getLsbD_xor, htop, Bool.true_and]
  · rename_i htop
    rw [mask_bit hm, shifted_succ i hm, Bool.not_eq_true] at htop
    rw [htop, Bool.false_and, Bool.xor_false]

/-- After `n` turns the low bits are the remainder of the first `n` bits. -/
theorem register_remainder (hm : m + 1 < 16) (n : Nat) :
    low ((List.range n).foldl (crcStep input bits (m + 1) polynomial) 0).getLsbD (m + 1) =
      series (padded input bits) n %ₘ generator polynomial.getLsbD (m + 1) := by
  induction n with
  | zero => simp [low, bit, series_zero]
  | succ n ih =>
    rw [List.range_succ, List.foldl_append, List.foldl_cons, List.foldl_nil, series_succ]
    apply remainder_step _ _ ih
    · rw [crcStep_low hm, shifted_zero]
    · intro k hk
      rw [crcStep_low hm, shifted_succ n (by omega)]

theorem series_padded (k : Nat) :
    series (padded input bits) (bits + k) = series (bitAt input) bits * X ^ k := by
  have hbits : series (padded input bits) bits = series (bitAt input) bits := by
    apply series_congr
    intro i hi
    simp [padded, hi]
  rw [series_zeros fun i hi => by simp [padded, Nat.not_lt.mpr hi], hbits, mul_comm]

/-- The checksum is the remainder of the first bits, with `width` zeros behind them. -/
theorem crc_low (hm : m + 1 < 16) :
    low ((List.range (bits + (m + 1))).foldl (crcStep input bits (m + 1) polynomial) 0).getLsbD
        (m + 1) =
      (series (bitAt input) bits * X ^ (m + 1)) %ₘ generator polynomial.getLsbD (m + 1) := by
  rw [register_remainder hm, series_padded]

theorem crc_bit {w : Nat} (hmask : ∀ k < 16, ((1#16 <<< w) - 1).getLsbD k = decide (k < w)) (k : Nat)
    (hk : k < 16) : (crc input bits w polynomial).getLsbD k =
      (((List.range (bits + w)).foldl (crcStep input bits w polynomial) 0).getLsbD k &&
        decide (k < w)) := by
  unfold crc
  rw [BitVec.getLsbD_and, hmask k hk]

theorem crc_remainder (hm : m + 1 < 16)
    (hmask : ∀ k < 16, ((1#16 <<< (m + 1)) - 1).getLsbD k = decide (k < m + 1)) :
    low (crc input bits (m + 1) polynomial).getLsbD 16 =
      (series (bitAt input) bits * X ^ (m + 1)) %ₘ generator polynomial.getLsbD (m + 1) := by
  rw [← crc_low hm]
  exact low_masked (by omega) (crc_bit hmask)

/-! ## The two checksums -/

theorem header_generator : generator (0x13 : BitVec 16).getLsbD 4 = X ^ 4 + X + 1 := by
  have hset : ∀ k < 4, (0x13 : BitVec 16).getLsbD k = decide (k = 0 ∨ k = 1) := by decide
  unfold generator
  rw [low_congr hset]
  simp [low, Finset.sum_range_succ, bit]
  ring

theorem body_generator :
    generator (0xd5 : BitVec 16).getLsbD 8 = X ^ 8 + X ^ 7 + X ^ 6 + X ^ 4 + X ^ 2 + 1 := by
  have hset : ∀ k < 8, (0xd5 : BitVec 16).getLsbD k =
      decide (k = 0 ∨ k = 2 ∨ k = 4 ∨ k = 6 ∨ k = 7) := by decide
  unfold generator
  rw [low_congr hset]
  simp [low, Finset.sum_range_succ, bit]
  ring

theorem bodyCrc_remainder (input : List Byte) : low (bodyCrc input).getLsbD 8 =
    (series (bitAt input) (8 * input.length) * X ^ 8) %ₘ generator (0xd5 : BitVec 16).getLsbD 8 := by
  have hlow : low (bodyCrc input).getLsbD 8 =
      low ((List.range (input.length * 8 + 8)).foldl (crcStep input (input.length * 8) 8 0xd5) 0).getLsbD
        8 := by
    apply low_congr
    intro k hk
    unfold bodyCrc
    rw [BitVec.getLsbD_setWidth, crc_bit (by decide) k (by omega)]
    simp [hk]
  rw [hlow, crc_low (m := 7) (by decide), Nat.mul_comm]

/-! ## Errors -/

/-- The header only depends on its own bytes. -/
theorem readHeader_congr
    (h : ∀ i < (readHeader input).size, changed.getD i 0 = input.getD i 0) :
    readHeader changed = readHeader input := by
  have hsize : (readHeader input).size = 3 + ((input.getD 0 0 >>> 4).toNat - 1 + 1) / 2 := rfl
  have hzero : changed.getD 0 0 = input.getD 0 0 := h 0 (by omega)
  have hports (i : Fin 14) : (if i.val < (input.getD 0 0 >>> 4).toNat - 1 then
      (changed.getD (1 + i.val / 2) 0 >>> (if i.val % 2 = 0 then 4 else 0)) &&& 15 else 0 : Byte) =
      if i.val < (input.getD 0 0 >>> 4).toNat - 1 then
        (input.getD (1 + i.val / 2) 0 >>> (if i.val % 2 = 0 then 4 else 0)) &&& 15 else 0 := by
    by_cases hi : i.val < (input.getD 0 0 >>> 4).toNat - 1
    · rw [h (1 + i.val / 2) (by omega)]
    · rw [if_neg hi, if_neg hi]
  unfold readHeader
  simp only [hzero, hports, h (3 + ((input.getD 0 0 >>> 4).toNat - 1 + 1) / 2 - 2) (by omega),
    h (3 + ((input.getD 0 0 >>> 4).toNat - 1 + 1) / 2 - 1) (by omega)]

theorem decodeHeader_congr (hlen : changed.length = input.length)
    (h : ∀ i < (readHeader input).size, changed.getD i 0 = input.getD i 0)
    (hsize : (readHeader input).size ≤ input.length) :
    decodeHeader changed = decodeHeader input := by
  have hs : (readHeader input).size = 3 + ((readHeader input).route.depth + 1) / 2 := rfl
  have htake : changed.take (readHeader input).size = input.take (readHeader input).size := by
    apply List.ext_getElem
    · simp [hlen]
    · intro i hi hi'
      have hlt : i < (readHeader input).size := by
        rw [List.length_take] at hi'
        omega
      have hin : i < input.length := by omega
      have hbyte := h i hlt
      rw [List.getElem_take, List.getElem_take]
      simpa [hin, hlen] using hbyte
  unfold decodeHeader
  rw [readHeader_congr h, hlen, h 0 (by omega)]
  by_cases hodd : (readHeader input).route.depth % 2 ≠ 0
  · simp only [h (1 + (readHeader input).route.depth / 2) (by omega),
      h ((readHeader input).size - 1) (by omega), htake]
  · simp only [hodd, false_and, if_false, h ((readHeader input).size - 1) (by omega), htake]

/-- The bits of the body and its checksum, from the header on. -/
def codeword (input : List Byte) (size i : Nat) : Bool := bitAt input (8 * size + i)

theorem codeword_eq (size i : Nat) :
    codeword input size i = (input.getD (size + i / 8) 0).getLsbD (7 - i % 8) := by
  have hdiv : (8 * size + i) / 8 = size + i / 8 := by omega
  have hmod : (8 * size + i) % 8 = i % 8 := by omega
  rw [codeword, bitAt, hdiv, hmod]

/-- A body that fits its checksum is a multiple of the generator. -/
theorem codeword_dvd {size count : Nat} (hlen : size + count + 1 ≤ input.length)
    (h : bodyCrc ((input.take (size + count)).drop size) = input.getD (size + count) 0) :
    generator (0xd5 : BitVec 16).getLsbD 8 ∣ series (codeword input size) (8 * count + 8) := by
  have hbody : series (bitAt ((input.take (size + count)).drop size)) (8 * count) =
      series (codeword input size) (8 * count) := by
    apply series_congr
    intro i hi
    have hlt : size + i / 8 < size + count := by omega
    rw [codeword_eq]
    unfold bitAt
    simp only [List.getD_eq_getElem?_getD, List.getElem?_drop, List.getElem?_take, hlt, if_true]
  have hlength : ((input.take (size + count)).drop size).length = count := by
    rw [List.length_drop, List.length_take]
    omega
  have htail : series (fun i => codeword input size (8 * count + i)) 8 =
      low (bodyCrc ((input.take (size + count)).drop size)).getLsbD 8 := by
    rw [← series_low, h]
    apply series_congr
    intro i hi
    have hdiv : (8 * count + i) / 8 = count := by omega
    have hmod : (8 * count + i) % 8 = i := by omega
    rw [codeword_eq, hdiv, hmod]
  have hrem := bodyCrc_remainder ((input.take (size + count)).drop size)
  rw [hlength, hbody] at hrem
  rw [series_append, htail, hrem, mul_comm]
  exact dvd_add_remainder _ _

/-- Streams of bytes with the same bits are the same. -/
theorem eq_of_bitAt (hlen : changed.length = input.length) (h : ∀ i, bitAt changed i = bitAt input i) :
    changed = input := by
  apply List.ext_getElem hlen
  intro j hj hj'
  apply BitVec.eq_of_getLsbD_eq
  intro k hk
  have hbit := h (8 * j + (7 - k))
  have hdiv : (8 * j + (7 - k)) / 8 = j := by omega
  have hmod : 7 - (8 * j + (7 - k)) % 8 = k := by omega
  rw [bitAt, bitAt, hdiv, hmod] at hbit
  simpa [hj, hj'] using hbit

/-- A packet with an error of at most eight bits in its body and checksum is rejected. -/
theorem burst_rejected {fragment : Fragment} {p : Nat} (hd : decode input = .ok fragment)
    (hlen : changed.length = input.length) (hne : changed ≠ input)
    (hwindow : ∀ i, bitAt changed i ≠ bitAt input i →
      (8 * fragment.header.size ≤ i ∧ i < 8 * fragment.used) ∧ p ≤ i ∧ i < p + 8) :
    decode changed = .error .Payload := by
  obtain ⟨hheader, hused, hfit, hbody, hcrc⟩ := decode_ok.1 hd
  obtain ⟨hread, hr⟩ := decodeHeader_ok.1 hheader
  have hpayload := hr.payload
  set size := fragment.header.size with hsize
  obtain ⟨count, hcount⟩ : ∃ count, fragment.used = size + count + 1 :=
    ⟨fragment.header.payloadBytes - 1, by omega⟩
  have hbytes : ∀ i < size, changed.getD i 0 = input.getD i 0 := by
    intro i hi
    apply BitVec.eq_of_getLsbD_eq
    intro k hk
    by_contra hdiff
    have hdiv : (8 * i + (7 - k)) / 8 = i := by omega
    have hmod : 7 - (8 * i + (7 - k)) % 8 = k := by omega
    have hin := (hwindow (8 * i + (7 - k)) (by rwa [bitAt, bitAt, hdiv, hmod])).1
    omega
  have hsame : decodeHeader changed = .ok fragment.header := by
    rw [← hheader]
    apply decodeHeader_congr hlen
    · rw [← hread]
      exact hbytes
    · rw [← hread]
      exact hr.length
  unfold decode
  rw [hsame]
  dsimp only
  rw [← hsize, ← hused, hlen, if_neg (by omega), if_pos]
  intro hok
  -- Both packets fit their checksums, so both are multiples of the generator.
  rw [hcount, Nat.add_sub_cancel] at hok hcrc hbody
  rw [hbody] at hcrc
  apply hne
  apply eq_of_bitAt hlen
  have hburst := burst_detected (m := 7) (p := p - 8 * size) (n := 8 * count + 8)
    (f := codeword changed size) (g := codeword input size) (by decide)
    (codeword_dvd (by omega) hok) (codeword_dvd (by omega) hcrc) (by
      intro i hi hdiff
      have := (hwindow (8 * size + i) hdiff).2
      omega)
  intro i
  by_contra hdiff
  obtain ⟨⟨hlow, hhigh⟩, -⟩ := hwindow i hdiff
  apply hdiff
  obtain ⟨j, rfl⟩ := Nat.exists_eq_add_of_le hlow
  exact hburst j (by omega)

/-- The checksums are remainders, and the one of a packet's body finds every error of at most eight
consecutive bits. -/
theorem crc_exact :
    (∀ input bits, low (crc input bits 4 0x13).getLsbD 16 =
      (series (bitAt input) bits * X ^ 4) %ₘ (X ^ 4 + X + 1)) ∧
    (∀ input, low (bodyCrc input).getLsbD 8 = (series (bitAt input) (8 * input.length) * X ^ 8) %ₘ
      (X ^ 8 + X ^ 7 + X ^ 6 + X ^ 4 + X ^ 2 + 1)) ∧
    ∀ input fragment changed p, decode input = .ok fragment → changed.length = input.length →
      changed ≠ input →
      (∀ i, bitAt changed i ≠ bitAt input i →
        (8 * fragment.header.size ≤ i ∧ i < 8 * fragment.used) ∧ p ≤ i ∧ i < p + 8) →
      decode changed = .error .Payload := by
  refine ⟨fun input bits => ?_, fun input => ?_, fun _ _ _ _ => burst_rejected⟩
  · rw [← header_generator]
    exact crc_remainder (m := 3) (by decide) (by decide)
  · rw [← body_generator]
    exact bodyCrc_remainder _

set_option maxRecDepth 20000 in
/-- A packet with one bit of its body flipped. -/
theorem crc_exact_flipped : decode [0x10, 2, 0xcb, 0x23, 0xdb] = .error .Payload := by
  have hd : decode [0x10, 2, 0xcb, 0x22, 0xdb] =
      .ok ⟨{ payloadBytes := 2 }, [0x22], 5⟩ := by decide
  have hne : ([0x10, 2, 0xcb, 0x23, 0xdb] : List Byte) ≠ [0x10, 2, 0xcb, 0x22, 0xdb] := by decide
  refine crc_exact.2.2 _ _ _ 31 hd rfl hne fun i hi => ?_
  by_cases hlt : i < 40
  · have hall : ∀ i < 40, bitAt [0x10, 2, 0xcb, 0x23, 0xdb] i ≠ bitAt [0x10, 2, 0xcb, 0x22, 0xdb] i →
        i = 31 := by decide
    rw [hall i hlt hi]
    decide
  · apply absurd _ hi
    obtain ⟨j, hj⟩ : ∃ j, i / 8 = j + 5 := ⟨i / 8 - 5, by omega⟩
    unfold bitAt
    rw [hj]
    rfl

end Wire
end Mst
end NvidiaGsp
