import NvidiaGsp.Mst.WireCrc

/-!
# Mst.WireSpec

Headers come back as they were sent. `sealed` is a header with its checksum; whatever stands behind
it, it reads back (`decodeHeader_sealed`), and a header that was read and may be sent is written with
the bytes it was read from (`encodeHeader_decoded`).
-/

namespace NvidiaGsp
namespace Mst
namespace Wire

/-! ## Half bytes -/

set_option maxRecDepth 20000

theorem halves {a b : Byte} (ha : a.toNat ≤ 15) (hb : b.toNat ≤ 15) :
    ((a <<< 4 ||| b) >>> 4) &&& 15 = a ∧ (a <<< 4 ||| b) >>> 4 = a ∧ (a <<< 4 ||| b) &&& 15 = b := by
  have hall : ∀ x < 16, ∀ y < 16,
      ((BitVec.ofNat 8 x <<< 4 ||| BitVec.ofNat 8 y) >>> 4) &&& 15 = BitVec.ofNat 8 x ∧
      (BitVec.ofNat 8 x <<< 4 ||| BitVec.ofNat 8 y) >>> 4 = BitVec.ofNat 8 x ∧
      (BitVec.ofNat 8 x <<< 4 ||| BitVec.ofNat 8 y) &&& 15 = BitVec.ofNat 8 y := by decide
  have h := hall a.toNat (by omega) b.toNat (by omega)
  rwa [BitVec.ofNat_toNat, BitVec.ofNat_toNat, BitVec.setWidth_eq, BitVec.setWidth_eq] at h

theorem halves_join : ∀ b : Byte, ((b >>> 4) &&& 15) <<< 4 ||| (b &&& 15) = b ∧
    (b >>> 4) <<< 4 ||| (b &&& 15) = b ∧ (b &&& 15).toNat ≤ 15 ∧ ((b >>> 4) &&& 15).toNat ≤ 15 := by
  decide

theorem flags_split : ∀ (b p : Bool) (n : Nat), n < 64 →
    (flag b 7 ||| flag p 6 ||| BitVec.ofNat 8 n).getLsbD 7 = b ∧
    (flag b 7 ||| flag p 6 ||| BitVec.ofNat 8 n).getLsbD 6 = p ∧
    ((flag b 7 ||| flag p 6 ||| BitVec.ofNat 8 n) &&& 63).toNat = n := by
  have hall : ∀ (b p : Bool), ∀ n < 64,
      (flag b 7 ||| flag p 6 ||| BitVec.ofNat 8 n).getLsbD 7 = b ∧
      (flag b 7 ||| flag p 6 ||| BitVec.ofNat 8 n).getLsbD 6 = p ∧
      ((flag b 7 ||| flag p 6 ||| BitVec.ofNat 8 n) &&& 63).toNat = n := by decide
  exact hall

theorem flags_join : ∀ b : Byte,
    flag (b.getLsbD 7) 7 ||| flag (b.getLsbD 6) 6 ||| BitVec.ofNat 8 (b &&& 63).toNat = b := by
  decide

theorem tail_split : ∀ (s l : Bool) (q : Bit) (c : BitVec 4),
    (flag s 7 ||| flag l 6 ||| q.setWidth 8 <<< 4 ||| c.setWidth 8).getLsbD 7 = s ∧
    (flag s 7 ||| flag l 6 ||| q.setWidth 8 <<< 4 ||| c.setWidth 8).getLsbD 6 = l ∧
    ((flag s 7 ||| flag l 6 ||| q.setWidth 8 <<< 4 ||| c.setWidth 8) >>> 4).setWidth 1 = q ∧
    (flag s 7 ||| flag l 6 ||| q.setWidth 8 <<< 4 ||| c.setWidth 8) &&& 0x20 = 0 ∧
    (flag s 7 ||| flag l 6 ||| q.setWidth 8 <<< 4 ||| c.setWidth 8) &&& 15 = c.setWidth 8 := by
  decide

theorem tail_join : ∀ t : Byte, t &&& 0x20 = 0 →
    flag (t.getLsbD 7) 7 ||| flag (t.getLsbD 6) 6 ||| ((t >>> 4).setWidth 1 : Bit).setWidth 8 <<< 4 |||
      (t &&& 15) = t := by
  decide

theorem tail_upper : ∀ (t : Byte), t &&& 0x20 = 0 → ∀ k < 8, 4 ≤ k →
    (flag (t.getLsbD 7) 7 ||| flag (t.getLsbD 6) 6 |||
      ((t >>> 4).setWidth 1 : Bit).setWidth 8 <<< 4).getLsbD k = t.getLsbD k := by
  decide

/-! ## Routes -/

variable {r : Route} {h : Header}

theorem valid_iff : r.valid = true ↔ r.depth ≤ 14 ∧
    ∀ i : Fin 14, (r.ports.get i).toNat ≤ 15 ∧ (i.val < r.depth ∨ r.ports.get i = 0) := by
  simp [Route.valid]

theorem hop_of_lt {i : Nat} (hv : r.valid = true) (hi : i < r.depth) :
    ∃ hlt : i < 14, hop r i = r.ports.get ⟨i, hlt⟩ := by
  have hd := (valid_iff.1 hv).1
  refine ⟨by omega, ?_⟩
  unfold hop
  rw [if_pos hi, Vector.getElem?_eq_getElem (by omega)]
  rfl

theorem hop_le (hv : r.valid = true) (i : Nat) : (hop r i).toNat ≤ 15 := by
  by_cases hi : i < r.depth
  · obtain ⟨hlt, heq⟩ := hop_of_lt hv hi
    rw [heq]
    exact ((valid_iff.1 hv).2 _).1
  · unfold hop
    rw [if_neg hi]
    decide

/-! ## The bytes of a header -/

/-- What a receiver accepts of a header's fields. -/
structure Header.Fit (h : Header) : Prop where
  valid : h.route.valid = true
  payload : 2 ≤ h.payloadBytes
  fits : h.size + h.payloadBytes ≤ packetBytes
  toAll : h.broadcast = true → h.route.depth = 0 ∧ h.remaining ≤ 6
  toOne : h.broadcast = false → h.remaining ≤ h.route.depth

/-- The checksum that the encoder computes. -/
def checksum (h : Header) : BitVec 4 := (crc (plainHeader h) (h.size * 8 - 4) 4 0x13).setWidth 4

/-- The header with its checksum. -/
def sealed (h : Header) : List Byte := orLast (plainHeader h) ((checksum h).setWidth 8)

theorem hopBytes_length : (hopBytes r).length = (r.depth + 1) / 2 := by simp [hopBytes]

theorem plainHeader_length : (plainHeader h).length = h.size := by
  simp only [plainHeader, List.length_append, List.length_cons, List.length_nil, hopBytes_length,
    Header.size]
  omega

theorem orLast_append (l : List Byte) (x nibble : Byte) :
    orLast (l ++ [x]) nibble = l ++ [x ||| nibble] := by
  unfold orLast
  rw [List.dropLast_concat, List.getLastD_concat]

theorem plainHeader_eq : plainHeader h =
    ((BitVec.ofNat 8 (h.route.depth + 1) <<< 4 ||| BitVec.ofNat 8 h.remaining) :: (hopBytes h.route ++
      [flag h.broadcast 7 ||| flag h.path 6 ||| BitVec.ofNat 8 h.payloadBytes])) ++
      [flag h.start 7 ||| flag h.last 6 ||| h.sequence.setWidth 8 <<< 4] := by
  simp [plainHeader]

theorem sealed_eq : sealed h =
    (BitVec.ofNat 8 (h.route.depth + 1) <<< 4 ||| BitVec.ofNat 8 h.remaining) :: (hopBytes h.route ++
      [flag h.broadcast 7 ||| flag h.path 6 ||| BitVec.ofNat 8 h.payloadBytes,
        flag h.start 7 ||| flag h.last 6 ||| h.sequence.setWidth 8 <<< 4 ||| (checksum h).setWidth 8]) := by
  rw [sealed, plainHeader_eq, orLast_append]
  simp

theorem sealed_length : (sealed h).length = h.size := by
  rw [sealed_eq]
  simp only [List.length_cons, List.length_append, List.length_nil, hopBytes_length, Header.size]
  omega

theorem encodeHeader_ok {room : Nat} {bytes : List Byte} : encodeHeader h room = .ok bytes ↔
    (h.Fit ∧ (h.broadcast = true → h.remaining = 6)) ∧ h.size ≤ room ∧ bytes = sealed h := by
  have hcrc : headerCrc (plainHeader h) (h.size * 8 - 4) = .ok (checksum h) := by
    unfold headerCrc
    rw [if_neg (by rw [plainHeader_length]; omega)]
    rfl
  unfold encodeHeader
  split
  · rename_i hbad
    simp only [reduceCtorEq, false_iff]
    rintro ⟨⟨hf, hall⟩, -⟩
    obtain ⟨hv, hp, hs, ha, ho⟩ := hf
    rcases hbad with hb | hb | hb | ⟨hb, hn⟩ | ⟨hb, hn⟩
    · rw [hv] at hb
      cases hb
    · omega
    · omega
    · have := ha hb
      have := hall hb
      omega
    · have := ho hb
      omega
  · rename_i hgood
    simp only [not_or, not_and, not_lt, Bool.not_eq_false, ne_eq, not_not] at hgood
    obtain ⟨hv, hp, hs, ha, ho⟩ := hgood
    have hfit : h.Fit := ⟨hv, hp, by omega, fun hb => ⟨(ha hb).1, by rw [(ha hb).2]⟩, ho⟩
    split
    · simp only [reduceCtorEq, false_iff]
      omega
    · dsimp only
      rw [hcrc]
      constructor
      · intro heq
        cases heq
        exact ⟨⟨hfit, fun hb => (ha hb).2⟩, by omega, rfl⟩
      · rintro ⟨-, -, rfl⟩
        rfl

/-! ## Reading a header back -/

/-- The places in a header's bytes. -/
theorem layout (a f t : Byte) (middle rest : List Byte) :
    (a :: (middle ++ [f, t]) ++ rest).getD 0 0 = a ∧
    (∀ j < middle.length, (a :: (middle ++ [f, t]) ++ rest).getD (1 + j) 0 = middle.getD j 0) ∧
    (a :: (middle ++ [f, t]) ++ rest).getD (3 + middle.length - 2) 0 = f ∧
    (a :: (middle ++ [f, t]) ++ rest).getD (3 + middle.length - 1) 0 = t := by
  have hf : 3 + middle.length - 2 = middle.length + 1 := by omega
  have ht : 3 + middle.length - 1 = middle.length + 1 + 1 := by omega
  refine ⟨rfl, fun j hj => ?_, ?_, ?_⟩
  · rw [Nat.add_comm 1]
    simp [List.getElem?_append_left, hj]
  · rw [hf]
    simp
  · rw [ht]
    simp

theorem hopBytes_getD {j : Nat} (hj : j < (r.depth + 1) / 2) :
    (hopBytes r).getD j 0 = hop r (2 * j) <<< 4 ||| hop r (2 * j + 1) := by
  simp [hopBytes, hj]

/-- A port read from its half byte. -/
theorem read_hop {i : Nat} (hv : r.valid = true) (hi : i < r.depth) :
    ((hopBytes r).getD (i / 2) 0 >>> (if i % 2 = 0 then 4 else 0)) &&& 15 = hop r i := by
  rw [hopBytes_getD (by omega)]
  obtain ⟨hupper, -, hlower⟩ := halves (hop_le hv (2 * (i / 2))) (hop_le hv (2 * (i / 2) + 1))
  by_cases heven : i % 2 = 0
  · have heq : 2 * (i / 2) = i := by omega
    rw [if_pos heven, hupper, heq]
  · have heq : 2 * (i / 2) + 1 = i := by omega
    rw [if_neg heven, BitVec.ushiftRight_zero, hlower, heq]

theorem first_split {d m : Nat} (hd : d ≤ 14) (hm : m ≤ 14) :
    ((BitVec.ofNat 8 (d + 1) <<< 4 ||| BitVec.ofNat 8 m) >>> 4).toNat = d + 1 ∧
    ((BitVec.ofNat 8 (d + 1) <<< 4 ||| BitVec.ofNat 8 m) &&& 15).toNat = m := by
  have hdn : (BitVec.ofNat 8 (d + 1)).toNat = d + 1 := by
    rw [BitVec.toNat_ofNat]
    omega
  have hmn : (BitVec.ofNat 8 m).toNat = m := by
    rw [BitVec.toNat_ofNat]
    omega
  obtain ⟨-, hupper, hlower⟩ := halves (a := BitVec.ofNat 8 (d + 1)) (b := BitVec.ofNat 8 m)
    (by omega) (by omega)
  rw [hupper, hlower]
  exact ⟨hdn, hmn⟩

theorem Header.Fit.bounds (hf : h.Fit) : h.route.depth ≤ 14 ∧ h.remaining ≤ 14 ∧ h.payloadBytes < 64 := by
  have hd := (valid_iff.1 hf.valid).1
  have hfits := hf.fits
  have hsize : 3 ≤ h.size := Nat.le_add_right 3 _
  have hrem : h.remaining ≤ 14 := by
    cases hb : h.broadcast with
    | true => have := (hf.toAll hb).2; omega
    | false => have := hf.toOne hb; omega
  exact ⟨hd, hrem, by simp only [packetBytes] at hfits; omega⟩

theorem readHeader_sealed (hf : h.Fit) (rest : List Byte) : readHeader (sealed h ++ rest) = h := by
  obtain ⟨hd, hrem, hpay⟩ := hf.bounds
  have hv := hf.valid
  obtain ⟨⟨⟨depth, ports⟩, remaining, broadcast, path, start, last, sequence⟩, payloadBytes⟩ := h
  dsimp only at *
  rw [sealed_eq]
  dsimp only
  generalize checksum _ = c
  obtain ⟨hfirst, hhops, hflags, htail⟩ := layout
    (BitVec.ofNat 8 (depth + 1) <<< 4 ||| BitVec.ofNat 8 remaining)
    (flag broadcast 7 ||| flag path 6 ||| BitVec.ofNat 8 payloadBytes)
    (flag start 7 ||| flag last 6 ||| sequence.setWidth 8 <<< 4 ||| c.setWidth 8)
    (hopBytes ⟨depth, ports⟩) rest
  rw [hopBytes_length] at hhops hflags htail
  obtain ⟨hdepth, hremaining⟩ := first_split hd hrem
  obtain ⟨hbroadcast, hpath, hpayload⟩ := flags_split broadcast path payloadBytes hpay
  obtain ⟨hstart, hlast, hsequence, -, -⟩ := tail_split start last sequence c
  unfold readHeader
  simp only [hfirst, hdepth, Nat.add_sub_cancel, hflags, htail, hremaining, hbroadcast, hpath, hpayload,
    hstart, hlast, hsequence]
  congr 3
  apply Vector.ext
  intro i hi
  rw [Vector.getElem_ofFn]
  dsimp only
  split
  · rename_i hlt
    rw [hhops (i / 2) (show i / 2 < (depth + 1) / 2 by omega), read_hop hv hlt]
    exact (hop_of_lt hv hlt).2
  · rename_i hge
    exact (((valid_iff.1 hv).2 ⟨i, hi⟩).2.resolve_left hge).symm

/-! ## The checksum of a header -/

/-- A checksum depends on the bits it is about. -/
theorem crc_congr {a b : List Byte} {bits width : Nat} {polynomial : BitVec 16}
    (h : ∀ i < bits, bitAt a i = bitAt b i) : crc a bits width polynomial = crc b bits width polynomial := by
  have hstep : crcStep a bits width polynomial = crcStep b bits width polynomial := by
    funext reg i
    have hbit : i < bits → ((a.getD (i / 8) 0 >>> (7 - i % 8)) &&& 1).setWidth 16 =
        ((b.getD (i / 8) 0 >>> (7 - i % 8)) &&& 1).setWidth 16 := by
      intro hi
      apply BitVec.eq_of_getLsbD_eq
      intro k _
      have hb := h i hi
      unfold bitAt at hb
      rw [single_bit _ (by omega), single_bit _ (by omega), hb]
    unfold crcStep
    by_cases hi : i < bits
    · simp only [if_pos hi, hbit hi]
    · simp only [if_neg hi]
  unfold crc
  rw [hstep]

/-- The upper half of the last byte is covered by the header's checksum, the lower half is not. -/
theorem bitAt_last {l : List Byte} {x y : Byte} (h : ∀ k < 8, 4 ≤ k → x.getLsbD k = y.getLsbD k) {i : Nat}
    (hi : i < (l.length + 1) * 8 - 4) : bitAt (l ++ [x]) i = bitAt (l ++ [y]) i := by
  unfold bitAt
  by_cases hlt : i / 8 < l.length
  · simp [List.getElem?_append_left hlt]
  · have heq : i / 8 = l.length := by omega
    have hx : (l ++ [x]).getD (i / 8) 0 = x := by simp [heq]
    have hy : (l ++ [y]).getD (i / 8) 0 = y := by simp [heq]
    rw [hx, hy]
    exact h _ (by omega) (by omega)

theorem sealed_crc : crc (sealed h) (h.size * 8 - 4) 4 0x13 = crc (plainHeader h) (h.size * 8 - 4) 4 0x13 := by
  have hlen := plainHeader_length (h := h)
  apply crc_congr
  intro i hi
  rw [plainHeader_eq, List.length_append, List.length_singleton] at hlen
  rw [sealed, plainHeader_eq, orLast_append]
  rw [← hlen] at hi
  apply bitAt_last _ hi
  intro k hk hfour
  rw [BitVec.getLsbD_or, BitVec.getLsbD_setWidth, BitVec.getLsbD_of_ge _ _ hfour, Bool.and_false,
    Bool.or_false]

theorem readable_sealed (hf : h.Fit) (rest : List Byte) : Readable (sealed h ++ rest) h := by
  obtain ⟨hd, hrem, -⟩ := hf.bounds
  have hcrc : headerCrc (sealed h) (h.size * 8 - 4) = .ok (checksum h) := by
    unfold headerCrc
    rw [if_neg (by rw [sealed_length]; omega), sealed_crc]
    rfl
  obtain ⟨hfirst, hhops, -, htail⟩ := layout
    (BitVec.ofNat 8 (h.route.depth + 1) <<< 4 ||| BitVec.ofNat 8 h.remaining)
    (flag h.broadcast 7 ||| flag h.path 6 ||| BitVec.ofNat 8 h.payloadBytes)
    (flag h.start 7 ||| flag h.last 6 ||| h.sequence.setWidth 8 <<< 4 ||| (checksum h).setWidth 8)
    (hopBytes h.route) rest
  rw [← sealed_eq, hopBytes_length] at hhops htail
  rw [← sealed_eq] at hfirst
  obtain ⟨-, -, -, hreserved, hnibble⟩ := tail_split h.start h.last h.sequence (checksum h)
  refine ⟨?_, ?_, fun hodd => ?_, ?_, hf.payload, hf.fits, hf.toAll, hf.toOne, checksum h, ?_, ?_⟩
  · rw [List.length_append, sealed_length]
    exact Nat.le_add_right _ _
  · rw [hfirst]
    intro hzero
    have hdepth := (first_split hd hrem).1
    rw [hzero] at hdepth
    simp at hdepth
  · rw [hhops (h.route.depth / 2) (by omega), hopBytes_getD (by omega),
      (halves (hop_le hf.valid _) (hop_le hf.valid _)).2.2]
    unfold hop
    rw [if_neg (by omega)]
  · exact (congrArg (· &&& 0x20) htail).trans hreserved
  · rw [← sealed_length (h := h), List.take_left, sealed_length]
    exact hcrc
  · exact (congrArg (· &&& 15) htail).trans hnibble |>.symm

/-- A header reads back, whatever stands behind it. -/
theorem decodeHeader_sealed (hf : h.Fit) (rest : List Byte) : decodeHeader (sealed h ++ rest) = .ok h :=
  decodeHeader_ok.2 ⟨(readHeader_sealed hf rest).symm, readable_sealed hf rest⟩

/-! ## Writing a header again -/

theorem eq_of_getD {a b : List Byte} (hlen : a.length = b.length)
    (h : ∀ i < a.length, a.getD i 0 = b.getD i 0) : a = b := by
  apply List.ext_getElem hlen
  intro i hi hi'
  have hbyte := h i hi
  simpa [hi, hi'] using hbyte

variable {input : List Byte}

/-- A port of a header that was read. -/
theorem hop_readHeader (input : List Byte) {i : Nat} (hi : i < (readHeader input).route.depth) :
    hop (readHeader input).route i = (input.getD (1 + i / 2) 0 >>> (if i % 2 = 0 then 4 else 0)) &&& 15 := by
  have hdepth : (readHeader input).route.depth = (input.getD 0 0 >>> 4).toNat - 1 := rfl
  have hbyte : (input.getD 0 0 >>> 4).toNat ≤ 15 := by
    rw [BitVec.toNat_ushiftRight, Nat.shiftRight_eq_div_pow]
    have := (input.getD 0 0).isLt
    omega
  have hlt : i < 14 := by omega
  unfold hop
  rw [if_pos hi, Vector.getElem?_eq_getElem hlt]
  unfold readHeader
  simp only [Option.getD_some, Vector.getElem_ofFn]
  rw [if_pos (hdepth ▸ hi)]

theorem hopBytes_readHeader (hr : Readable input (readHeader input)) {j : Nat}
    (hj : j < ((readHeader input).route.depth + 1) / 2) :
    (hopBytes (readHeader input).route).getD j 0 = input.getD (1 + j) 0 := by
  obtain ⟨hjoin, -, -, -⟩ := halves_join (input.getD (1 + j) 0)
  have hupper := hop_readHeader input (i := 2 * j) (by omega)
  have hdiv : 2 * j / 2 = j := by omega
  have hmod : 2 * j % 2 = 0 := by omega
  rw [hdiv, hmod, if_pos rfl] at hupper
  rw [hopBytes_getD hj, hupper]
  by_cases hlast : 2 * j + 1 < (readHeader input).route.depth
  · have hlower := hop_readHeader input hlast
    have hdiv' : (2 * j + 1) / 2 = j := by omega
    have hmod' : ¬ (2 * j + 1) % 2 = 0 := by omega
    rw [hdiv', if_neg hmod', BitVec.ushiftRight_zero] at hlower
    rw [hlower, hjoin]
  · -- The route ends in the upper half, and the lower half is clear.
    have hdepth : (readHeader input).route.depth = 2 * j + 1 := by omega
    have hspare := hr.spare (by omega)
    have hhalf : (2 * j + 1) / 2 = j := by omega
    rw [hdepth, hhalf] at hspare
    have hnone : hop (readHeader input).route (2 * j + 1) = 0 := by
      unfold hop
      rw [if_neg hlast]
    rw [hspare] at hjoin
    rw [hnone, hjoin]

/-- The bytes a header was read from. -/
theorem take_readHeader (hr : Readable input (readHeader input)) :
    input.take (readHeader input).size =
      ((BitVec.ofNat 8 ((readHeader input).route.depth + 1) <<< 4 |||
        BitVec.ofNat 8 (readHeader input).remaining) :: (hopBytes (readHeader input).route ++
        [flag (readHeader input).broadcast 7 ||| flag (readHeader input).path 6 |||
          BitVec.ofNat 8 (readHeader input).payloadBytes])) ++
        [input.getD ((readHeader input).size - 1) 0] := by
  have hsize : (readHeader input).size = 3 + ((readHeader input).route.depth + 1) / 2 := rfl
  have hlen : (input.take (readHeader input).size).length = (readHeader input).size := by
    rw [List.length_take]
    exact Nat.min_eq_left hr.length
  have hhops := fun j hj => hopBytes_readHeader hr (j := j) hj
  obtain ⟨hfirst, hmiddle, hflags, htail⟩ := layout
    (BitVec.ofNat 8 ((readHeader input).route.depth + 1) <<< 4 |||
      BitVec.ofNat 8 (readHeader input).remaining)
    (flag (readHeader input).broadcast 7 ||| flag (readHeader input).path 6 |||
      BitVec.ofNat 8 (readHeader input).payloadBytes)
    (input.getD ((readHeader input).size - 1) 0) (hopBytes (readHeader input).route) []
  rw [hopBytes_length] at hmiddle hflags htail
  have hdepth : (readHeader input).route.depth = (input.getD 0 0 >>> 4).toNat - 1 := rfl
  have hne : (input.getD 0 0 >>> 4).toNat ≠ 0 := fun hz => hr.hops (BitVec.eq_of_toNat_eq hz)
  have hzero : BitVec.ofNat 8 ((readHeader input).route.depth + 1) <<< 4 |||
      BitVec.ofNat 8 (readHeader input).remaining = input.getD 0 0 := by
    have hsucc : (readHeader input).route.depth + 1 = (input.getD 0 0 >>> 4).toNat := by omega
    have hrem : (readHeader input).remaining = (input.getD 0 0 &&& 15).toNat := rfl
    rw [hsucc, hrem, BitVec.ofNat_toNat, BitVec.ofNat_toNat, BitVec.setWidth_eq, BitVec.setWidth_eq]
    exact (halves_join _).2.1
  have hflag : flag (readHeader input).broadcast 7 ||| flag (readHeader input).path 6 |||
      BitVec.ofNat 8 (readHeader input).payloadBytes = input.getD ((readHeader input).size - 2) 0 :=
    flags_join _
  apply eq_of_getD
  · rw [hlen]
    simp only [List.length_append, List.length_cons, List.length_nil, hopBytes_length]
    omega
  intro i hi
  rw [hlen] at hi
  have htake : (input.take (readHeader input).size).getD i 0 = input.getD i 0 := by
    simp [hi]
  rw [htake, ← List.append_nil (_ ++ [_]), List.cons_append, List.append_assoc, List.singleton_append]
  rcases Nat.eq_zero_or_pos i with rfl | hpos
  · rw [hfirst, hzero]
  obtain ⟨j, rfl⟩ : ∃ j, i = 1 + j := ⟨i - 1, by omega⟩
  rcases Nat.lt_trichotomy j (((readHeader input).route.depth + 1) / 2) with hj | hj | hj
  · rw [hmiddle j hj, hhops j hj]
  · have hat : 1 + j = 3 + ((readHeader input).route.depth + 1) / 2 - 2 := by omega
    rw [hat, hflags, hflag]
    rfl
  · have hat : 1 + j = 3 + ((readHeader input).route.depth + 1) / 2 - 1 := by omega
    rw [hat, htail]
    rfl

/-- A header that was read and that may be sent is written as it was read. -/
theorem encodeHeader_decoded {room : Nat} {bytes : List Byte} (hd : decodeHeader input = .ok h)
    (he : encodeHeader h room = .ok bytes) : bytes = input.take h.size := by
  obtain ⟨rfl, hr⟩ := decodeHeader_ok.1 hd
  obtain ⟨-, -, rfl⟩ := encodeHeader_ok.1 he
  have htake := take_readHeader hr
  obtain ⟨c, hcrc, hnibble⟩ := hr.crc
  have hplain := plainHeader_eq (h := readHeader input)
  have hlen := plainHeader_length (h := readHeader input)
  rw [sealed, hplain, orLast_append, htake]
  rw [hplain, List.length_append, List.length_singleton] at hlen
  unfold headerCrc at hcrc
  split at hcrc
  · cases hcrc
  cases hcrc
  -- The encoder's checksum is the one that was read: both are about the same bits.
  have hsame : checksum (readHeader input) =
      (crc (input.take (readHeader input).size) ((readHeader input).size * 8 - 4) 4 0x13).setWidth 4 := by
    unfold checksum
    congr 1
    apply crc_congr
    intro i hi
    rw [hplain, htake]
    rw [← hlen] at hi
    exact bitAt_last (tail_upper _ hr.reserved) hi
  rw [hsame, hnibble]
  exact congrArg (fun t => _ ++ [t]) (tail_join _ hr.reserved)

end Wire
end Mst
end NvidiaGsp
