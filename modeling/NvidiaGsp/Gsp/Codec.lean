import NvidiaGsp.Gsp.Message

/-!
# Gsp.Codec

The codec of `gsp_message.zig` over the caller's buffers: what `encode` leaves in its output, what
`decode` makes of it under another sequence, and of a record with one word changed.
-/

namespace NvidiaGsp
namespace Gsp

open Bytes

/-- `encode` with the buffer it writes to, which an error leaves as it is. -/
def encodeInto (profile : Profile) (queueSequence : Word) (rpc : Rpc) (payload output : Slice) :
    Except Error Shape × List Byte :=
  match encode profile queueSequence rpc payload output.addr output.bytes.length with
  | .error e => (.error e, output.bytes)
  | .ok (shape, data) => (.ok shape, blit output.bytes 0 data)

variable {profile : Profile} {queueSequence expected v : Word} {rpc : Rpc} {payload : List Byte}
  {bytes : List Byte} {shape : Shape} {k : Nat}

/-- A payload apart from a buffer is apart from its first part. -/
theorem overlaps_mono {payload : Slice} {target len size : Nat} (hle : len ≤ size)
    (h : payload.overlaps target size = false) : payload.overlaps target len = false := by
  unfold Slice.overlaps at h ⊢
  rw [Bool.and_eq_false_iff] at h ⊢
  refine h.imp id fun h => ?_
  split
  · rename_i hge
    rw [if_pos hge] at h
    simp only [decide_eq_false_iff_not] at h ⊢
    omega
  · rename_i hlt
    rw [if_neg hlt] at h
    exact h

/-- The prefix check decides on the shape by the length word alone. -/
theorem inspectPrefix_shape (h : inspectPrefix profile bytes = .ok shape) :
    shape = shapeFor (outerBytes + (word bytes (outerBytes + 8)).toNat) := by
  unfold inspectPrefix at h
  split at h
  · cases h
  split at h
  · cases h
  dsimp only at h
  split at h
  · cases h
  split at h
  · cases h
  split at h
  · cases h
  split at h
  · cases h
  split at h
  · cases h
  · cases h
    rfl

/-- What an accepted record has passed. -/
theorem decode_ok {record : Record} (h : decode profile bytes expected = .ok record) :
    inspectPrefix profile bytes = .ok record.shape ∧
      checksum bytes record.shape.checksumBytes = 0 := by
  unfold decode at h
  split at h
  · cases h
  rename_i shape hshape
  split at h
  · cases h
  split at h
  · cases h
  split at h
  · cases h
  rename_i hsum
  dsimp only at h
  split at h
  · cases h
  · cases h
    exact ⟨hshape, Decidable.not_not.mp hsum⟩

/-- A record under another sequence passes every check but that one. -/
theorem decode_sequence (hprof : profile.admitted = true) (hp : payload.length ≤ maxPayloadBytes)
    (hne : expected ≠ queueSequence) :
    decode profile (frame queueSequence rpc payload) expected = .error .Sequence := by
  have hdecode := @decode_frame profile queueSequence rpc payload hprof hp
  have hword : word (frame queueSequence rpc payload) 36 = queueSequence :=
    word_frame queueSequence rpc hp (by simp [headerFields])
  unfold decode at hdecode ⊢
  rw [inspectPrefix_frame hprof hp] at hdecode ⊢
  dsimp only at hdecode ⊢
  split at hdecode
  · cases hdecode
  rename_i hlength
  split at hdecode
  · cases hdecode
  rename_i hpadding
  split at hdecode
  · cases hdecode
  rename_i hsum
  rw [if_neg hlength, if_neg hpadding, if_neg hsum, hword, if_pos (Ne.symm hne)]

/-- One changed word of the prefix changes its checksum. -/
theorem checksum_put {n : Nat} (hk : 4 * k + 4 ≤ n) (hn : n ≤ bytes.length) (hne : v ≠ word bytes (4 * k))
    (hsum : checksum bytes n = 0) : checksum (put bytes (4 * k) v) n ≠ 0 := by
  have hin : 4 * k + 4 ≤ bytes.length := by omega
  have hsame : ∀ i < n / 4, i ≠ k → word (put bytes (4 * k) v) (4 * i) = word bytes (4 * i) :=
    fun i _ hi => word_put_of_disjoint hin (by omega)
  unfold checksum at hsum ⊢
  rw [xorWords_change (show k < n / 4 by omega) hsame, hsum, word_put_same hin]
  intro hzero
  have hxor : word bytes (4 * k) ^^^ v = 0#32 := by simpa using hzero
  exact hne (BitVec.xor_eq_zero_iff.mp hxor).symm

/-- A word of the checksummed part that is not the length word cannot change. -/
theorem decode_changed (hp : payload.length ≤ maxPayloadBytes)
    (hk : 4 * k + 4 ≤ (shapeFor (headerBytes + payload.length)).checksumBytes)
    (hlength : 4 * k ≠ outerBytes + 8) (hne : v ≠ word (frame queueSequence rpc payload) (4 * k)) :
    ∃ e, decode profile (put (frame queueSequence rpc payload) (4 * k) v) expected = .error e := by
  have hlen := length_frame queueSequence rpc hp
  have hbounds := shape_bounds hp
  have hin : 4 * k + 4 ≤ (frame queueSequence rpc payload).length := by omega
  have houter : outerBytes = 48 := rfl
  cases hdecode : decode profile (put (frame queueSequence rpc payload) (4 * k) v) expected with
  | error e => exact ⟨e, rfl⟩
  | ok record =>
    obtain ⟨hshape, hsum⟩ := decode_ok hdecode
    have hword : word (frame queueSequence rpc payload) (outerBytes + 8) =
        BitVec.ofNat 32 (rpcBytes + payload.length) :=
      word_frame queueSequence rpc hp (by simp [headerFields])
    have hsmall : rpcBytes + payload.length < 2 ^ 32 := by
      simp only [maxPayloadBytes, maxBytes, maxElements, elementBytes, headerBytes, outerBytes,
        rpcBytes] at *
      omega
    have hshape : record.shape = shapeFor (headerBytes + payload.length) := by
      rw [inspectPrefix_shape hshape, word_put_of_disjoint hin (by omega), hword,
        BitVec.toNat_ofNat, Nat.mod_eq_of_lt hsmall, ← Nat.add_assoc]
      rfl
    rw [hshape] at hsum
    exact absurd hsum (checksum_put hk (by omega) hne (checksum_frame queueSequence rpc hp))

/-- A successful call reports the shape of the whole record. -/
theorem encodeInto_shape {payload output : Slice} {data : List Byte}
    (h : encodeInto profile queueSequence rpc payload output = (.ok shape, data)) :
    shape = shapeFor (headerBytes + payload.bytes.length) := by
  unfold encodeInto encode at h
  split at h
  · cases h
  · rename_i heq
    dsimp only at heq
    repeat' split at heq
    all_goals cases heq
    cases h
    rfl

/-- **The codec.** A record of an admitted profile is encoded into any buffer that is large enough and
apart from its payload, and nothing behind it is touched. It decodes to what was encoded under its
sequence, to a sequence error under any other, and to an error when a word of its checksummed part
other than the length word is changed. -/
theorem codec_exact (hprof : profile.admitted = true) (queueSequence : Word) (rpc : Rpc)
    (payload output : Slice) (hp : payload.bytes.length ≤ maxPayloadBytes)
    (hroom : (shapeFor (headerBytes + payload.bytes.length)).storageBytes ≤ output.bytes.length)
    (hapart : payload.overlaps output.addr output.bytes.length = false) :
    ∃ shape data, encodeInto profile queueSequence rpc payload output = (.ok shape, data) ∧
      data.length = output.bytes.length ∧
      data.drop shape.storageBytes = output.bytes.drop shape.storageBytes ∧
      decode profile (data.take shape.storageBytes) queueSequence =
        .ok ⟨shape, queueSequence, rpc, payload.bytes⟩ ∧
      (∀ expected, expected ≠ queueSequence →
        decode profile (data.take shape.storageBytes) expected = .error .Sequence) ∧
      ∀ k v expected, 4 * k + 4 ≤ shape.checksumBytes → 4 * k ≠ outerBytes + 8 →
        v ≠ word (data.take shape.storageBytes) (4 * k) →
        ∃ e, decode profile (put (data.take shape.storageBytes) (4 * k) v) expected = .error e := by
  have hlen := length_frame queueSequence rpc hp
  have hencode : encode profile queueSequence rpc payload output.addr output.bytes.length =
      .ok (shapeFor (headerBytes + payload.bytes.length), frame queueSequence rpc payload.bytes) := by
    unfold encode
    dsimp only
    rw [if_neg (by rw [hprof]; decide), if_neg (by omega), if_neg (by omega),
      if_neg (by rw [overlaps_mono hroom hapart]; decide)]
  have hdata : blit output.bytes 0 (frame queueSequence rpc payload.bytes) =
      frame queueSequence rpc payload.bytes ++ output.bytes.drop
        (shapeFor (headerBytes + payload.bytes.length)).storageBytes := by
    rw [blit, List.take_zero, List.nil_append, Nat.zero_add, hlen]
  have htake : (blit output.bytes 0 (frame queueSequence rpc payload.bytes)).take
      (shapeFor (headerBytes + payload.bytes.length)).storageBytes =
        frame queueSequence rpc payload.bytes := by
    rw [hdata, ← hlen, List.take_left']
    rfl
  refine ⟨_, _, by rw [encodeInto, hencode], ?_, ?_, ?_, fun expected hne => ?_,
    fun k v expected hk hlength hne => ?_⟩
  · rw [length_blit (by omega)]
  · rw [hdata, ← hlen, List.drop_left']
    rfl
  · rw [htake]
    exact decode_frame hprof hp
  · rw [htake]
    exact decode_sequence hprof hp hne
  · rw [htake] at hne ⊢
    exact decode_changed hp hk hlength hne

/-- A payload of 4021 bytes fills a second slot and needs three bytes of padding; the buffer has a
hundred bytes more than the two slots. -/
theorem codec_exact_padded : ∃ data, encodeInto ⟨0x172, false⟩ 7 ⟨1, 2, 3, 4, 5⟩
    ⟨0, List.replicate 4021 0x5a⟩ ⟨65536, List.replicate 8292 0⟩ = (.ok ⟨4101, 4104, 8192, 2⟩, data) ∧
      data.length = 8292 ∧ data.drop 8192 = List.replicate 100 0 ∧
      decode ⟨0x172, false⟩ (data.take 8192) 7 =
        .ok ⟨⟨4101, 4104, 8192, 2⟩, 7, ⟨1, 2, 3, 4, 5⟩, List.replicate 4021 0x5a⟩ ∧
      decode ⟨0x172, false⟩ (data.take 8192) 8 = .error .Sequence ∧
      ∀ v, v ≠ word (data.take 8192) 4100 →
        ∃ e, decode ⟨0x172, false⟩ (put (data.take 8192) 4100 v) 7 = .error e := by
  have hpayload : (List.replicate 4021 (0x5a : Byte)).length = 4021 := List.length_replicate
  have houtput : (List.replicate 8292 (0 : Byte)).length = 8292 := List.length_replicate
  obtain ⟨shape, data, hencode, hlength, hbehind, hdecode, hsequence, hchanged⟩ := codec_exact
    (by decide : Profile.admitted ⟨0x172, false⟩ = true) 7 ⟨1, 2, 3, 4, 5⟩
    ⟨0, List.replicate 4021 0x5a⟩ ⟨65536, List.replicate 8292 0⟩
    (by rw [hpayload]; decide) (by rw [hpayload, houtput]; decide)
    (by rw [Slice.overlaps, hpayload, houtput]; decide)
  have hshape : shape = ⟨4101, 4104, 8192, 2⟩ := by
    rw [encodeInto_shape hencode, hpayload]
    decide
  subst hshape
  exact ⟨data, hencode, hlength.trans houtput, hbehind.trans List.drop_replicate, hdecode,
    hsequence 8 (by decide), fun v hv => hchanged 1025 v 7 (by decide) (by decide) hv⟩

end Gsp
end NvidiaGsp
