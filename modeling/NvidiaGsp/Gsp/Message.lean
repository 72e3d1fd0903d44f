import NvidiaGsp.Lib.Bytes

/-!
# Gsp.Message

Bounded framing of the cleartext GSP/RPC transport (`gsp_message.zig`): a record is a 48-byte queue
header, a 32-byte RPC header and a payload, stored in one to sixteen 4-KiB elements under an XOR
checksum. `decode_frame` is the round trip: what `encode` writes, `decode` reads back.
-/

namespace NvidiaGsp
namespace Gsp

open Bytes

/-- The errors of the GSP transport modules; the source's errors are global names. -/
inductive Error where
  | Profile | Length | Elements | Version | Signature | Sequence | Checksum | Padding | Output
  | Overlap
  | NotReady | Header | Cursor | Unavailable
  | State | Stale | Deadline | AdmissionExpired | Clock | Io | PeerProgress | Pending | Exhausted
  | Notification
  | UnknownEvent | Payload | Guest | FirmwareResult | Handler
  | Unexpected | Handle | Query | Obsolete | Bounds
  deriving DecidableEq, Repr

/-! ## Chip profiles -/

inductive Boot where
  | tu102 | tu116 | ga102 | ad102 | gb202Fsp
  deriving DecidableEq, Repr

/-- The boot flow of each chip (`generation.zig`). -/
def profiles : List (Nat × Boot) :=
  [(0x162, .tu102), (0x164, .tu102), (0x166, .tu102), (0x167, .tu116), (0x168, .tu116),
    (0x172, .ga102), (0x173, .ga102), (0x174, .ga102), (0x176, .ga102), (0x177, .ga102),
    (0x192, .ad102), (0x193, .ad102), (0x194, .ad102), (0x196, .ad102), (0x197, .ad102),
    (0x1b2, .gb202Fsp), (0x1b3, .gb202Fsp), (0x1b5, .gb202Fsp), (0x1b6, .gb202Fsp),
    (0x1b7, .gb202Fsp)]

def ga102Hal (id : Nat) : Bool :=
  match profiles.find? fun p => p.1 == id with
  | some p => p.2 == .ga102 || p.2 == .ad102
  | none => false

structure Profile where
  chipId : Nat
  confidentialCompute : Bool := false
  deriving DecidableEq, Repr

def Profile.admitted (p : Profile) : Bool := ga102Hal p.chipId && !p.confidentialCompute

/-! ## Records -/

def elementBytes : Nat := 4096
def maxElements : Nat := 16
def maxBytes : Nat := maxElements * elementBytes
def outerBytes : Nat := 48
def rpcBytes : Nat := 32
def headerBytes : Nat := outerBytes + rpcBytes
def maxPayloadBytes : Nat := maxBytes - headerBytes
def headerVersion : Word := 0x03000000
def signature : Word := 0x43505256
def pendingResult : Word := 0xffffffff

structure Rpc where
  function : Word
  result : Word := pendingResult
  resultPrivate : Word := pendingResult
  sequence : Word := 0
  cpuRmGfid : Word := 0
  deriving DecidableEq

structure Shape where
  messageBytes : Nat
  checksumBytes : Nat
  storageBytes : Nat
  elements : Nat
  deriving DecidableEq, Repr

structure Record where
  shape : Shape
  queueSequence : Word
  rpc : Rpc
  payload : List Byte
  deriving DecidableEq

def shapeFor (messageBytes : Nat) : Shape :=
  let elements := (messageBytes + elementBytes - 1) / elementBytes
  ⟨messageBytes, (messageBytes + 7) / 8 * 8, elements * elementBytes, elements⟩

/-- The XOR of the 32-bit words of `bytes[0..n]`. -/
def checksum (bytes : List Byte) (n : Nat) : Word := xorWords bytes (n / 4)

def inspectPrefix (profile : Profile) (bytes : List Byte) : Except Error Shape :=
  if profile.admitted = false then .error .Profile else
  if bytes.length < headerBytes then .error .Length else
  let elements := (word bytes 40).toNat
  if elements = 0 ∨ elements > maxElements then .error .Elements else
  let length := (word bytes (outerBytes + 8)).toNat
  if length < rpcBytes ∨ length > maxBytes - outerBytes then .error .Length else
  let shape := shapeFor (outerBytes + length)
  if shape.elements ≠ elements then .error .Elements else
  if word bytes outerBytes ≠ headerVersion then .error .Version else
  if word bytes (outerBytes + 4) ≠ signature then .error .Signature else
  .ok shape

def decode (profile : Profile) (bytes : List Byte) (expected : Word) : Except Error Record :=
  match inspectPrefix profile bytes with
  | .error e => .error e
  | .ok shape =>
    if bytes.length ≠ shape.storageBytes then .error .Length else
    if ((bytes.take shape.checksumBytes).drop shape.messageBytes).all (· == 0) = false then
      .error .Padding else
    if checksum bytes shape.checksumBytes ≠ 0 then .error .Checksum else
    let sequence := word bytes 36
    if sequence ≠ expected then .error .Sequence else
    .ok ⟨shape, sequence,
      ⟨word bytes 60, word bytes 64, word bytes 68, word bytes 72, word bytes 76⟩,
      (bytes.take shape.messageBytes).drop headerBytes⟩

/-- A caller's bytes and where they lie. -/
structure Slice where
  addr : Nat
  bytes : List Byte

/-- The alias check of `encode`: the payload meets `len` bytes at `target`. -/
def Slice.overlaps (payload : Slice) (target len : Nat) : Bool :=
  payload.bytes.length != 0 &&
    if payload.addr ≥ target then decide (payload.addr - target < len)
    else decide (target - payload.addr < payload.bytes.length)

/-- The header words of a record, except its checksum. -/
def headerFields (queueSequence : Word) (rpc : Rpc) (payloadBytes : Nat) : List (Nat × Word) :=
  [(36, queueSequence), (40, BitVec.ofNat 32 (shapeFor (headerBytes + payloadBytes)).elements),
    (outerBytes, headerVersion), (outerBytes + 4, signature),
    (outerBytes + 8, BitVec.ofNat 32 (rpcBytes + payloadBytes)), (60, rpc.function),
    (64, rpc.result), (68, rpc.resultPrivate), (72, rpc.sequence), (76, rpc.cpuRmGfid)]

/-- The record before its checksum is stored. -/
def frameBody (queueSequence : Word) (rpc : Rpc) (payload : List Byte) : List Byte :=
  blit (putAll (List.replicate (shapeFor (headerBytes + payload.length)).storageBytes 0)
    (headerFields queueSequence rpc payload.length)) headerBytes payload

/-- The stored record: the slot span that `encode` writes. -/
def frame (queueSequence : Word) (rpc : Rpc) (payload : List Byte) : List Byte :=
  let body := frameBody queueSequence rpc payload
  put body 32 (checksum body (shapeFor (headerBytes + payload.length)).checksumBytes)

/-- Encode into the buffer of `size` bytes at `output`. -/
def encode (profile : Profile) (queueSequence : Word) (rpc : Rpc) (payload : Slice)
    (output size : Nat) : Except Error (Shape × List Byte) :=
  if profile.admitted = false then .error .Profile else
  if payload.bytes.length > maxPayloadBytes then .error .Length else
  let shape := shapeFor (headerBytes + payload.bytes.length)
  if size < shape.storageBytes then .error .Output else
  if payload.overlaps output shape.storageBytes then .error .Overlap else
  .ok (shape, frame queueSequence rpc payload.bytes)

/-! ## Shapes -/

section

variable {n : Nat}

/-- The bounds a message length gives its shape. -/
theorem shapeFor_bounds (hlo : headerBytes ≤ n) (hhi : n ≤ maxBytes) :
    1 ≤ (shapeFor n).elements ∧ (shapeFor n).elements ≤ maxElements ∧
      n ≤ (shapeFor n).storageBytes ∧ n ≤ (shapeFor n).checksumBytes ∧
      (shapeFor n).checksumBytes ≤ (shapeFor n).storageBytes ∧
      (shapeFor n).checksumBytes % 8 = 0 ∧ (shapeFor n).checksumBytes < n + 8 := by
  simp only [headerBytes, outerBytes, rpcBytes, maxBytes, maxElements, elementBytes, shapeFor] at *
  omega

@[simp] theorem shapeFor_messageBytes : (shapeFor n).messageBytes = n := rfl

end

/-! ## The round trip -/

theorem fields_headerFields (queueSequence : Word) (rpc : Rpc) {n m : Nat} (hm : headerBytes ≤ m) :
    Fields m (headerFields queueSequence rpc n) := by
  simp only [headerBytes, outerBytes, rpcBytes] at hm
  refine ⟨fun f hf => ?_, by simp [headerFields, outerBytes]⟩
  simp only [headerFields, outerBytes, List.mem_cons, List.not_mem_nil, or_false] at hf
  rcases hf with rfl | rfl | rfl | rfl | rfl | rfl | rfl | rfl | rfl | rfl <;> dsimp only <;> omega

section

variable (queueSequence : Word) (rpc : Rpc) {payload : List Byte}

/-- The message of a payload that fits has a shape within bounds. -/
theorem shape_bounds (hp : payload.length ≤ maxPayloadBytes) :
    headerBytes + payload.length ≤ (shapeFor (headerBytes + payload.length)).storageBytes ∧
      (shapeFor (headerBytes + payload.length)).checksumBytes ≤
        (shapeFor (headerBytes + payload.length)).storageBytes := by
  have h := shapeFor_bounds (n := headerBytes + payload.length) (by omega) (by
    simp only [maxPayloadBytes, maxBytes, maxElements, elementBytes, headerBytes, outerBytes,
      rpcBytes] at *
    omega)
  exact ⟨h.2.2.1, h.2.2.2.2.1⟩

/-- The header words fit the blank record. -/
theorem fields_blank (hp : payload.length ≤ maxPayloadBytes) :
    Fields (List.replicate (shapeFor (headerBytes + payload.length)).storageBytes (0 : Byte)).length
      (headerFields queueSequence rpc payload.length) := by
  have hb := (shape_bounds hp).1
  refine fields_headerFields _ _ ?_
  rw [List.length_replicate]
  omega

theorem length_frameBody (hp : payload.length ≤ maxPayloadBytes) :
    (frameBody queueSequence rpc payload).length =
      (shapeFor (headerBytes + payload.length)).storageBytes := by
  have hb := (shape_bounds hp).1
  have hlen := length_putAll (fields_blank queueSequence rpc hp)
  rw [List.length_replicate] at hlen
  rw [frameBody, length_blit (by rw [hlen]; omega), hlen]

theorem length_frame (hp : payload.length ≤ maxPayloadBytes) :
    (frame queueSequence rpc payload).length =
      (shapeFor (headerBytes + payload.length)).storageBytes := by
  have hb := (shape_bounds hp).1
  have hlen := length_frameBody queueSequence rpc hp
  have hhead : headerBytes = 80 := rfl
  rw [frame, length_put, hlen]
  rw [hlen]
  omega

/-- Every header word of the record. -/
theorem word_frame (hp : payload.length ≤ maxPayloadBytes) {offset : Nat} {v : Word}
    (hm : (offset, v) ∈ headerFields queueSequence rpc payload.length) :
    word (frame queueSequence rpc payload) offset = v := by
  have hb := (shape_bounds hp).1
  have hfields := fields_blank queueSequence rpc hp
  have hrange : 36 ≤ offset ∧ offset + 4 ≤ headerBytes := by
    refine ⟨?_, (fields_headerFields queueSequence rpc (Nat.le_refl _)).1 _ hm⟩
    simp only [headerFields, outerBytes, List.mem_cons, Prod.mk.injEq, List.not_mem_nil,
      or_false] at hm
    omega
  have hlen := length_frameBody queueSequence rpc hp
  have hhead : headerBytes = 80 := rfl
  rw [frame, word_put_of_disjoint (by rw [hlen]; omega) (by omega), frameBody,
    word_blit_of_disjoint _ (by omega), word_putAll hfields hm]
  rw [length_putAll hfields, List.length_replicate]
  omega

/-- Every byte from the payload on. -/
theorem getD_frame (hp : payload.length ≤ maxPayloadBytes) {i : Nat} (hi : headerBytes ≤ i) :
    (frame queueSequence rpc payload).getD i 0 = payload.getD (i - headerBytes) 0 := by
  have hb := (shape_bounds hp).1
  have hfields := fields_blank queueSequence rpc hp
  have hlen := length_frameBody queueSequence rpc hp
  have hhead : headerBytes = 80 := rfl
  rw [frame, put, getD_blit (by rw [hlen]; simp; omega), if_neg (by simp; omega), frameBody,
    getD_blit (by rw [length_putAll hfields, List.length_replicate]; omega)]
  split
  · rfl
  · rw [getD_putAll_of_disjoint hfields]
    · rw [List.getD_eq_default payload _ (by omega)]
      rw [List.getD_eq_getElem?_getD, List.getElem?_replicate]
      split <;> rfl
    · intro f hf
      have := (fields_headerFields queueSequence rpc (Nat.le_refl _)).1 _ hf
      omega

/-- The checksum field is blank until it is stored. -/
theorem word_frameBody_checksum (hp : payload.length ≤ maxPayloadBytes) :
    word (frameBody queueSequence rpc payload) 32 = 0 := by
  have hb := (shape_bounds hp).1
  have hfields := fields_blank queueSequence rpc hp
  have hhead : headerBytes = 80 := rfl
  have hblank : word (List.replicate (shapeFor (headerBytes + payload.length)).storageBytes
      (0 : Byte)) 32 = 0 := by
    simp only [word, List.getD_eq_getElem?_getD, List.getElem?_replicate]
    rw [if_pos (by omega), if_pos (by omega), if_pos (by omega), if_pos (by omega)]
    rfl
  rw [frameBody, word_blit_of_disjoint (by rw [length_putAll hfields, List.length_replicate]; omega)
    (by omega), ← hblank]
  refine word_congr fun k hk => getD_putAll_of_disjoint hfields fun f hf => ?_
  simp only [headerFields, outerBytes, List.mem_cons, List.not_mem_nil, or_false] at hf
  rcases hf with rfl | rfl | rfl | rfl | rfl | rfl | rfl | rfl | rfl | rfl <;> dsimp only <;> omega

theorem checksum_frame (hp : payload.length ≤ maxPayloadBytes) :
    checksum (frame queueSequence rpc payload)
      (shapeFor (headerBytes + payload.length)).checksumBytes = 0 := by
  have hb := (shape_bounds hp).1
  have hlen := length_frameBody queueSequence rpc hp
  have hhead : headerBytes = 80 := rfl
  have hbig : 8 < (shapeFor (headerBytes + payload.length)).checksumBytes / 4 := by
    simp only [shapeFor]
    omega
  -- Only word 8 differs from the body, where it is blank.
  have hsame : ∀ k < (shapeFor (headerBytes + payload.length)).checksumBytes / 4, k ≠ 8 →
      word (frame queueSequence rpc payload) (4 * k) =
        word (frameBody queueSequence rpc payload) (4 * k) :=
    fun k _ hk => word_put_of_disjoint (by rw [hlen]; omega) (by omega)
  rw [checksum, xorWords_change hbig hsame]
  rw [word_frameBody_checksum _ _ hp, frame, word_put_same (by rw [hlen]; omega), checksum]
  simp

end

/-- Only the first 80 bytes matter to the prefix check. -/
theorem inspectPrefix_congr {profile : Profile} {a b : List Byte} (ha : headerBytes ≤ a.length)
    (hb : headerBytes ≤ b.length) (h : ∀ i < headerBytes, a.getD i 0 = b.getD i 0) :
    inspectPrefix profile a = inspectPrefix profile b := by
  have hhead : headerBytes = 80 := rfl
  have hw : ∀ o, o + 4 ≤ headerBytes → word a o = word b o :=
    fun o ho => word_congr fun k hk => h _ (by omega)
  unfold inspectPrefix
  rw [hw 40 (by omega), hw (outerBytes + 8) (by simp [outerBytes, hhead]),
    hw outerBytes (by simp [outerBytes, hhead]), hw (outerBytes + 4) (by simp [outerBytes, hhead])]
  simp only [Nat.not_lt.mpr ha, Nat.not_lt.mpr hb]

section

variable {profile : Profile} {queueSequence : Word} {rpc : Rpc} {payload : List Byte}

theorem inspectPrefix_frame (hprof : profile.admitted = true)
    (hp : payload.length ≤ maxPayloadBytes) :
    inspectPrefix profile (frame queueSequence rpc payload) =
      .ok (shapeFor (headerBytes + payload.length)) := by
  have hw {o v} := @word_frame queueSequence rpc payload hp o v
  have hlen := length_frame queueSequence rpc hp
  have hmax : headerBytes + payload.length ≤ maxBytes := by
    simp only [maxPayloadBytes, maxBytes, maxElements, elementBytes, headerBytes, outerBytes,
      rpcBytes] at *
    omega
  obtain ⟨hlo, hhi, hstore, -⟩ := shapeFor_bounds (by omega) hmax
  have helems : (word (frame queueSequence rpc payload) 40).toNat =
      (shapeFor (headerBytes + payload.length)).elements := by
    rw [hw (v := BitVec.ofNat 32 (shapeFor (headerBytes + payload.length)).elements)
      (by simp [headerFields])]
    simp only [BitVec.toNat_ofNat]
    simp only [maxElements] at hhi
    omega
  have hlength : (word (frame queueSequence rpc payload) (outerBytes + 8)).toNat =
      rpcBytes + payload.length := by
    rw [hw (v := BitVec.ofNat 32 (rpcBytes + payload.length)) (by simp [headerFields])]
    simp only [BitVec.toNat_ofNat, maxBytes, maxElements, elementBytes, headerBytes, outerBytes,
      rpcBytes] at *
    omega
  have hversion : word (frame queueSequence rpc payload) outerBytes = headerVersion :=
    hw (by simp [headerFields])
  have hsig : word (frame queueSequence rpc payload) (outerBytes + 4) = signature :=
    hw (by simp [headerFields])
  have hshape : shapeFor (outerBytes + (rpcBytes + payload.length)) =
      shapeFor (headerBytes + payload.length) := by rw [← Nat.add_assoc]; rfl
  unfold inspectPrefix
  simp only [hprof, helems, hlength, hversion, hsig, hshape, hlen]
  rw [if_neg (by simp), if_neg (by omega), if_neg (by simp only [maxElements] at hhi ⊢; omega),
    if_neg (by
      simp only [maxBytes, maxElements, elementBytes, headerBytes, outerBytes, rpcBytes] at *
      omega), if_neg (by simp), if_neg (by simp), if_neg (by simp)]

/-- What `encode` writes, `decode` reads back. -/
theorem decode_frame (hprof : profile.admitted = true) (hp : payload.length ≤ maxPayloadBytes) :
    decode profile (frame queueSequence rpc payload) queueSequence =
      .ok ⟨shapeFor (headerBytes + payload.length), queueSequence, rpc, payload⟩ := by
  have hw {o v} := @word_frame queueSequence rpc payload hp o v
  have hlen := length_frame queueSequence rpc hp
  have hb := (shape_bounds hp)
  have hpad : (((frame queueSequence rpc payload).take
      (shapeFor (headerBytes + payload.length)).checksumBytes).drop
        (headerBytes + payload.length)).all (· == 0) = true := by
    rw [List.all_eq_true]
    intro x hx
    obtain ⟨i, hi⟩ := List.mem_iff_getElem?.mp hx
    rw [List.getElem?_drop] at hi
    have hlt := (List.getElem?_eq_some_iff.mp hi).1
    rw [List.length_take] at hlt
    rw [List.getElem?_take_of_lt (by omega)] at hi
    have hget := getD_frame queueSequence rpc hp
      (i := headerBytes + payload.length + i) (by omega)
    rw [List.getD_eq_getElem?_getD, hi, List.getD_eq_default _ _ (by omega)] at hget
    simpa using hget
  have hpayload : ((frame queueSequence rpc payload).take (headerBytes + payload.length)).drop
      headerBytes = payload := by
    refine List.ext_getElem? fun i => ?_
    rw [List.getElem?_drop]
    by_cases hi : i < payload.length
    · rw [List.getElem?_take_of_lt (by omega)]
      have hget := getD_frame queueSequence rpc hp
        (i := headerBytes + i) (by omega)
      have hin : headerBytes + i < (frame queueSequence rpc payload).length := by
        rw [hlen]
        omega
      rw [Nat.add_sub_cancel_left, List.getD_eq_getElem _ _ hin, List.getD_eq_getElem _ _ hi] at hget
      rw [List.getElem?_eq_getElem hin, List.getElem?_eq_getElem hi, hget]
    · rw [List.getElem?_eq_none (by rw [List.length_take]; omega),
        List.getElem?_eq_none (by omega)]
  have hseq : word (frame queueSequence rpc payload) 36 = queueSequence :=
    hw (by simp [headerFields])
  have hrpc : (⟨word (frame queueSequence rpc payload) 60,
      word (frame queueSequence rpc payload) 64, word (frame queueSequence rpc payload) 68,
      word (frame queueSequence rpc payload) 72, word (frame queueSequence rpc payload) 76⟩ : Rpc) =
        rpc := by
    rw [hw (v := rpc.function) (by simp [headerFields]), hw (v := rpc.result) (by simp [headerFields]),
      hw (v := rpc.resultPrivate) (by simp [headerFields]),
      hw (v := rpc.sequence) (by simp [headerFields]),
      hw (v := rpc.cpuRmGfid) (by simp [headerFields])]
  unfold decode
  simp only [inspectPrefix_frame hprof hp, shapeFor_messageBytes, hlen, hpad, checksum_frame queueSequence rpc hp, hseq,
    hrpc, hpayload]
  simp

end

end Gsp
end NvidiaGsp
