import NvidiaGsp.Gsp.Ring
import NvidiaGsp.Gsp.Codec

/-!
# Gsp.RingCopy

Records in and out of a ring (`gather` and `scatter` of `gsp_ring.zig`). What is spread over disjoint
spans and collected from them again is unchanged, and the bytes outside the spans are too.
-/

namespace NvidiaGsp
namespace Gsp

open Bytes Cyclic

namespace Ring

/-- The loop of `gather`. -/
def collect (snapshot : List Byte) : List Span → List Byte
  | [] => []
  | span :: rest => (snapshot.drop span.offset).take span.bytes ++ collect snapshot rest

/-- The loop of `scatter`. -/
def spread (encoded : List Byte) : List Byte → Nat → List Span → List Byte
  | shadow, _, [] => shadow
  | shadow, copied, span :: rest =>
    spread encoded (blit shadow span.offset ((encoded.drop copied).take span.bytes))
      (copied + span.bytes) rest

def overlap (first : Slice) (addr len : Nat) : Bool := len != 0 && first.overlaps addr len

def gather (profile : Profile) (layout : Layout) (read write : Nat) (sequence : Word)
    (snapshot : Slice) (scratchAddr scratchLen : Nat) : Except Error (Plan × Record) :=
  if snapshot.bytes.length ≠ queueBytes then .error .Length else
  match receive layout read write 1 with
  | .error e => .error e
  | .ok first =>
    let offset := (first.spans.map Span.offset).headD 0
    match inspectPrefix profile ((snapshot.bytes.drop offset).take headerBytes) with
    | .error e => .error e
    | .ok shape =>
      match receive layout read write shape.elements with
      | .error e => .error e
      | .ok transfer =>
        if scratchLen < shape.storageBytes then .error .Output else
        if overlap snapshot scratchAddr shape.storageBytes then .error .Overlap else
        match decode profile (collect snapshot.bytes transfer.spans) sequence with
        | .error e => .error e
        | .ok record => .ok (transfer, record)

/-- The checks of `scatter`, all before its first write. -/
def admitScatter (profile : Profile) (layout : Layout) (write read : Nat) (sequence : Word)
    (encoded shadow : Slice) : Except Error Plan :=
  if shadow.bytes.length ≠ queueBytes then .error .Length else
  match decode profile encoded.bytes sequence with
  | .error e => .error e
  | .ok record =>
    match transmit layout write read record.shape.elements with
    | .error e => .error e
    | .ok transfer =>
      if overlap encoded shadow.addr shadow.bytes.length then .error .Overlap else .ok transfer

def scatter (profile : Profile) (layout : Layout) (write read : Nat) (sequence : Word)
    (encoded shadow : Slice) : Except Error Plan × List Byte :=
  match admitScatter profile layout write read sequence encoded shadow with
  | .error e => (.error e, shadow.bytes)
  | .ok transfer => (.ok transfer, spread encoded.bytes shadow.bytes 0 transfer.spans)

/-! ## Disjoint spans -/

variable {encoded shadow bytes : List Byte} {spans : List Span} {span : Span} {copied i n : Nat}
  {layout : Layout} {cursor count : Nat}

def total (spans : List Span) : Nat := (spans.map Span.bytes).sum

/-- Spans inside a buffer, apart from each other. -/
structure Placed (n : Nat) (spans : List Span) : Prop where
  inside : ∀ s ∈ spans, s.offset + s.bytes ≤ n
  apart : spans.Pairwise fun s t => s.offset + s.bytes ≤ t.offset ∨ t.offset + t.bytes ≤ s.offset

theorem Placed.tail (h : Placed n (span :: spans)) : Placed n spans :=
  ⟨fun s hs => h.inside s (List.mem_cons_of_mem _ hs), (List.pairwise_cons.mp h.apart).2⟩

theorem length_piece (h : copied + n ≤ bytes.length) : ((bytes.drop copied).take n).length = n := by
  rw [List.length_take, List.length_drop]
  omega

/-- The first of the spans is written, the others are left to write. -/
theorem spread_cons (hplaced : Placed shadow.length (span :: spans))
    (hroom : copied + total (span :: spans) ≤ encoded.length) :
    let piece := (encoded.drop copied).take span.bytes
    piece.length = span.bytes ∧ span.offset + piece.length ≤ shadow.length ∧
      (blit shadow span.offset piece).length = shadow.length ∧
      copied + span.bytes + total spans ≤ encoded.length := by
  have htotal : total (span :: spans) = span.bytes + total spans := by simp [total]
  have hpiece : ((encoded.drop copied).take span.bytes).length = span.bytes := length_piece (by omega)
  have hinside := hplaced.inside span List.mem_cons_self
  refine ⟨hpiece, by omega, length_blit (by omega), by omega⟩

theorem length_spread (hplaced : Placed shadow.length spans)
    (hroom : copied + total spans ≤ encoded.length) :
    (spread encoded shadow copied spans).length = shadow.length := by
  induction spans generalizing shadow copied with
  | nil => rfl
  | cons span rest ih =>
    obtain ⟨-, -, hlength, hrest⟩ := spread_cons hplaced hroom
    rw [spread, ih (hlength ▸ hplaced.tail) hrest, hlength]

/-- A byte outside the spans stays. -/
theorem getD_spread (hplaced : Placed shadow.length spans)
    (hroom : copied + total spans ≤ encoded.length)
    (hi : ∀ s ∈ spans, i < s.offset ∨ s.offset + s.bytes ≤ i) :
    (spread encoded shadow copied spans).getD i 0 = shadow.getD i 0 := by
  induction spans generalizing shadow copied with
  | nil => rfl
  | cons span rest ih =>
    obtain ⟨hpiece, hinside, hlength, hrest⟩ := spread_cons hplaced hroom
    have hout := hi span List.mem_cons_self
    rw [spread, ih (hlength ▸ hplaced.tail) hrest fun s hs => hi s (List.mem_cons_of_mem _ hs),
      getD_blit hinside, if_neg (by omega)]

/-- Pieces of buffers that agree byte by byte. -/
theorem piece_eq {a b : List Byte} {j : Nat} (ha : i + n ≤ a.length) (hb : j + n ≤ b.length)
    (h : ∀ k < n, a.getD (i + k) 0 = b.getD (j + k) 0) :
    (a.drop i).take n = (b.drop j).take n := by
  refine List.ext_getElem (by rw [length_piece ha, length_piece hb]) fun k hka hkb => ?_
  rw [length_piece ha] at hka
  have hbyte := h k hka
  rw [List.getD_eq_getElem _ _ (by omega), List.getD_eq_getElem _ _ (by omega)] at hbyte
  rw [List.getElem_take, List.getElem_drop, List.getElem_take, List.getElem_drop, hbyte]

/-- What was spread is collected again. -/
theorem collect_spread (hplaced : Placed shadow.length spans)
    (hroom : copied + total spans ≤ encoded.length) :
    collect (spread encoded shadow copied spans) spans = (encoded.drop copied).take (total spans) := by
  induction spans generalizing shadow copied with
  | nil => simp [collect, total]
  | cons span rest ih =>
    obtain ⟨hpiece, hinside, hlength, hrest⟩ := spread_cons hplaced hroom
    have hspread := length_spread (hlength ▸ hplaced.tail) hrest
    have hfirst : ((spread encoded (blit shadow span.offset ((encoded.drop copied).take span.bytes))
        (copied + span.bytes) rest).drop span.offset).take span.bytes =
          (encoded.drop copied).take span.bytes := by
      refine piece_eq (by omega) (by omega) fun k hk => ?_
      have happart (s : Span) (hs : s ∈ rest) :
          span.offset + k < s.offset ∨ s.offset + s.bytes ≤ span.offset + k := by
        have := (List.pairwise_cons.mp hplaced.apart).1 s hs
        omega
      rw [getD_spread (hlength ▸ hplaced.tail) hrest happart, getD_blit hinside, if_pos (by omega),
        Nat.add_sub_cancel_left, getD_part hk]
    have htotal : total (span :: rest) = span.bytes + total rest := by simp [total]
    rw [collect, spread, hfirst, ih (hlength ▸ hplaced.tail) hrest, htotal, List.take_add, List.drop_drop]

/-! ## The spans of a record -/

/-- The one or two spans of a record. -/
theorem spansAt_placed (hv : Valid layout) (hc : cursor < layout.slots) (hn : count < layout.slots) :
    Placed queueBytes (spansAt layout cursor count) ∧
      total (spansAt layout cursor count) = count * elementBytes := by
  obtain ⟨-, -, hroom⟩ := hv.slots_bounds
  simp only [elementBytes] at hroom
  simp only [spansAt, elementBytes]
  split
  · refine ⟨⟨?_, by simp⟩, ?_⟩
    · simp only [List.mem_singleton, forall_eq]
      omega
    · simp only [total, List.map_cons, List.map_nil, List.sum_cons, List.sum_nil]
      omega
  · refine ⟨⟨?_, ?_⟩, ?_⟩
    · simp only [List.mem_cons, List.not_mem_nil, or_false, forall_eq_or_imp, forall_eq]
      omega
    · simp only [List.pairwise_cons, List.mem_singleton, forall_eq, List.not_mem_nil, false_imp_iff,
        implies_true, List.Pairwise.nil, and_true]
      omega
    · simp only [total, List.map_cons, List.map_nil, List.sum_cons, List.sum_nil]
      omega

/-- A byte outside the slots of a record is outside its spans. -/
theorem outside_spans (hc : cursor < layout.slots) (hn : count < layout.slots)
    (hi : ∀ k < layout.slots, InSlot layout k i → count ≤ distance layout.slots cursor k) :
    ∀ s ∈ spansAt layout cursor count, i < s.offset ∨ s.offset + s.bytes ≤ i := by
  intro s hs
  by_contra hin
  have hk : i - s.offset < s.bytes := by omega
  obtain ⟨k, hslot, hslotted, hlt⟩ := spansAt_slot hc hn hs hk
  rw [show s.offset + (i - s.offset) = i by omega] at hslotted
  have := hi k hslot hslotted
  omega

/-- Two slots that share a byte are one. -/
theorem inSlot_unique {j k : Nat} (hj : InSlot layout j i) (hk : InSlot layout k i) : j = k := by
  simp only [InSlot, elementBytes] at hj hk
  omega

/-- The first slot of a record holds its header. -/
theorem head_spansAt : ((spansAt layout cursor count).map Span.offset).headD 0 =
    layout.entriesOffset + cursor * elementBytes := rfl

/-! ## The round trip -/

theorem transmit_fits {write read : Nat} (hv : Valid layout) (hr : read < layout.slots)
    (hw : write < layout.slots) (hcount : 0 < count ∧ count ≤ maxElements)
    (hfit : count + distance layout.slots read write < layout.slots) :
    transmit layout write read count = .ok ⟨spansAt layout write count, count,
      layout.slots - distance layout.slots read write - 1, write, advance layout.slots write count⟩ := by
  unfold transmit
  rw [available_ok.2 ⟨hv, hr, hw, rfl⟩, ← nextAt_eq hw]
  exact plan_ok.2 ⟨hcount.1, hcount.2, by omega, rfl⟩

/-- The slots in use lie behind those that a record takes. -/
theorem free_behind {slots read write k n : Nat} (hr : read < slots) (hw : write < slots)
    (hfit : n + distance slots read write < slots)
    (hused : distance slots read k < distance slots read write) : n ≤ distance slots write k := by
  unfold distance at *
  split at hfit <;> split at hused <;> split <;> omega

theorem overlap_congr {a b : Slice} {addr len : Nat} (h : a.bytes.length = b.bytes.length)
    (haddr : a.addr = b.addr) : overlap a addr len = overlap b addr len := by
  unfold overlap Slice.overlaps
  rw [h, haddr]

/-- A buffer whose slots collect to a record begins with its header at the first of them. -/
theorem getD_collected {snapshot record : List Byte} (hc : cursor < layout.slots)
    (hcount : 0 < count) (hlength : snapshot.length = queueBytes) (hv : Valid layout)
    (hcollect : collect snapshot (spansAt layout cursor count) = record) (hi : i < headerBytes) :
    snapshot.getD (layout.entriesOffset + cursor * elementBytes + i) 0 = record.getD i 0 := by
  obtain ⟨-, -, hroom⟩ := hv.slots_bounds
  have hhead : headerBytes = 80 := rfl
  simp only [elementBytes] at hroom
  unfold spansAt at hcollect
  dsimp only at hcollect
  rw [collect] at hcollect
  have hlt : i < min count (layout.slots - cursor) * elementBytes := by
    simp only [elementBytes]
    omega
  have hin : layout.entriesOffset + cursor * elementBytes +
      min count (layout.slots - cursor) * elementBytes ≤ snapshot.length := by
    simp only [elementBytes]
    omega
  have hpiece := length_piece hin
  rw [← hcollect, List.getD_append _ _ _ _ (by rw [hpiece]; exact hlt), getD_part hlt]

/-- The prefix check needs the header alone. -/
theorem inspectPrefix_part {profile : Profile} {snapshot : List Byte} {o : Nat} (record : List Byte)
    (hin : o + headerBytes ≤ snapshot.length) (hrecord : headerBytes ≤ record.length)
    (h : ∀ i < headerBytes, snapshot.getD (o + i) 0 = record.getD i 0) :
    inspectPrefix profile ((snapshot.drop o).take headerBytes) = inspectPrefix profile record := by
  refine inspectPrefix_congr (Nat.le_of_eq (length_piece hin).symm) hrecord fun i hi => ?_
  rw [getD_part hi, h i hi]

/-- A record that fits the free space is scattered, a reader at the writer's cursor gathers it with the
cursor that the plan announces, and no byte outside its slots changes. -/
theorem frame_round_trip {profile : Profile} (hprof : profile.admitted = true) (layout : Layout)
    (hv : Valid layout) (write read : Nat) (hw : write < layout.slots) (hr : read < layout.slots)
    (sequence : Word) (rpc : Rpc) (payload : List Byte) (hp : payload.length ≤ maxPayloadBytes)
    (hfit : (shapeFor (headerBytes + payload.length)).elements ≤
      layout.slots - distance layout.slots read write - 1)
    (encodedAddr scratchAddr scratchLen : Nat) (shadow : Slice)
    (hshadow : shadow.bytes.length = queueBytes)
    (hapart : overlap ⟨encodedAddr, frame sequence rpc payload⟩ shadow.addr shadow.bytes.length = false)
    (hscratch : (shapeFor (headerBytes + payload.length)).storageBytes ≤ scratchLen)
    (hscratchApart : overlap shadow scratchAddr
      (shapeFor (headerBytes + payload.length)).storageBytes = false) :
    ∃ sent shadow' received record,
      scatter profile layout write read sequence ⟨encodedAddr, frame sequence rpc payload⟩ shadow =
        (.ok sent, shadow') ∧
      gather profile layout write sent.nextCursor sequence ⟨shadow.addr, shadow'⟩ scratchAddr scratchLen =
        .ok (received, record) ∧
      record.rpc = rpc ∧ record.payload = payload ∧ received.slots = sent.slots ∧
      received.nextCursor = sent.nextCursor ∧
      (∀ i, (∀ k < layout.slots, InSlot layout k i →
          sent.slots ≤ distance layout.slots write k) → shadow'.getD i 0 = shadow.bytes.getD i 0) ∧
      (∀ i k, k < layout.slots → InSlot layout k i →
        distance layout.slots read k < distance layout.slots read write →
          shadow'.getD i 0 = shadow.bytes.getD i 0) ∧
      (∀ i < layout.entriesOffset, shadow'.getD i 0 = shadow.bytes.getD i 0) := by
  have hlen := length_frame sequence rpc hp
  have hhead : headerBytes = 80 := rfl
  have hmax : headerBytes + payload.length ≤ maxBytes := by
    simp only [maxPayloadBytes, maxBytes, maxElements, elementBytes, headerBytes, outerBytes,
      rpcBytes] at *
    omega
  obtain ⟨hlow, hhigh, hstore, -⟩ := shapeFor_bounds (by omega) hmax
  have hstorage : (shapeFor (headerBytes + payload.length)).storageBytes =
      (shapeFor (headerBytes + payload.length)).elements * elementBytes := rfl
  have hlt := distance_lt hr hw
  generalize hn : (shapeFor (headerBytes + payload.length)).elements = n at hlow hhigh hfit hstorage
  have hslots : n < layout.slots := by omega
  have hsend := transmit_fits hv hr hw ⟨hlow, hhigh⟩ (by omega : n + _ < _)
  have hdecode := @decode_frame profile sequence rpc payload hprof hp
  obtain ⟨hplaced, htotal⟩ := spansAt_placed hv hw hslots
  rw [← hshadow] at hplaced
  have hroom : 0 + total (spansAt layout write n) ≤ (frame sequence rpc payload).length := by
    omega
  have hspread := length_spread hplaced hroom
  have hcollect := collect_spread hplaced hroom
  rw [List.drop_zero, htotal, ← hstorage, ← hlen, List.take_length] at hcollect
  have hkeep (i : Nat) (hi : ∀ k < layout.slots, InSlot layout k i →
      n ≤ distance layout.slots write k) := getD_spread hplaced hroom (outside_spans hw hslots hi)
  have hscatter : scatter profile layout write read sequence ⟨encodedAddr, frame sequence rpc payload⟩
      shadow = (.ok ⟨spansAt layout write n, n, layout.slots - distance layout.slots read write - 1,
        write, advance layout.slots write n⟩,
          spread (frame sequence rpc payload) shadow.bytes 0 (spansAt layout write n)) := by
    unfold scatter admitScatter
    rw [if_neg (by omega), hdecode]
    dsimp only
    rw [hn, hsend]
    dsimp only
    rw [hapart]
    rfl
  have hnext : advance layout.slots write n < layout.slots := advance_lt hw (by omega)
  have hahead : distance layout.slots write (advance layout.slots write n) = n :=
    distance_advance hw hslots
  have hfirst := receive_ok.2 ⟨hv, hw, hnext, Nat.one_pos, (by decide : 1 ≤ maxElements),
    (by omega : 1 ≤ distance layout.slots write (advance layout.slots write n)), rfl⟩
  have hall := receive_ok.2 ⟨hv, hw, hnext, hlow, hhigh, Nat.le_of_eq hahead.symm, rfl⟩
  obtain ⟨-, -, hend⟩ := hv.slots_bounds
  have hshape : inspectPrefix profile (((spread (frame sequence rpc payload) shadow.bytes 0
      (spansAt layout write n)).drop (layout.entriesOffset + write * elementBytes)).take headerBytes) =
        .ok (shapeFor (headerBytes + payload.length)) := by
    rw [inspectPrefix_part (frame sequence rpc payload), inspectPrefix_frame hprof hp]
    · rw [hspread, hshadow]
      simp only [elementBytes] at hend ⊢
      omega
    · omega
    · exact fun i hi => getD_collected hw hlow (hspread.trans hshadow) hv hcollect hi
  have hsame : overlap ⟨shadow.addr, spread (frame sequence rpc payload) shadow.bytes 0
      (spansAt layout write n)⟩ scratchAddr (shapeFor (headerBytes + payload.length)).storageBytes =
        false := by
    rw [← hscratchApart]
    exact overlap_congr hspread rfl
  have hgather : gather profile layout write (advance layout.slots write n) sequence ⟨shadow.addr,
      spread (frame sequence rpc payload) shadow.bytes 0 (spansAt layout write n)⟩ scratchAddr scratchLen =
        .ok (⟨spansAt layout write n, n, distance layout.slots write (advance layout.slots write n), write,
          advance layout.slots write n⟩, ⟨shapeFor (headerBytes + payload.length), sequence, rpc, payload⟩) := by
    unfold gather
    dsimp only
    rw [if_neg (by omega), hfirst]
    dsimp only
    rw [head_spansAt, hshape]
    dsimp only
    rw [hn, hall]
    dsimp only
    rw [if_neg (by omega), hsame, if_neg (by decide), hcollect, hdecode]
  refine ⟨_, _, _, _, hscatter, hgather, rfl, rfl, rfl, rfl, hkeep, fun i k hk hslot hused => ?_,
    fun i hi => ?_⟩
  · refine hkeep i fun j hj hslot' => ?_
    rw [inSlot_unique hslot' hslot]
    exact free_behind hr hw (by omega) hused
  · exact hkeep i fun k _ hslot => absurd hslot.1 (by omega)

theorem encode_frame {profile : Profile} {sequence : Word} {rpc : Rpc} {payload : Slice}
    {output size : Nat} {shape : Shape} {encoded : List Byte}
    (h : encode profile sequence rpc payload output size = .ok (shape, encoded)) :
    profile.admitted = true ∧ payload.bytes.length ≤ maxPayloadBytes ∧
      shape = shapeFor (headerBytes + payload.bytes.length) ∧ encoded = frame sequence rpc payload.bytes := by
  unfold encode at h
  split at h
  · cases h
  rename_i hprof
  split at h
  · cases h
  rename_i hlength
  dsimp only at h
  split at h
  · cases h
  split at h
  · cases h
  · cases h
    exact ⟨by simpa using hprof, by omega, rfl, rfl⟩

/-- All checks come before the first write. -/
theorem scatter_error {profile : Profile} {write read : Nat} {sequence : Word} {encoded shadow : Slice}
    {e : Error} (h : (scatter profile layout write read sequence encoded shadow).1 = .error e) :
    (scatter profile layout write read sequence encoded shadow).2 = shadow.bytes := by
  unfold scatter at h ⊢
  split at h
  · rfl
  · cases h

/-- **Records through a ring.** A record that was encoded and fits the free space is scattered; a reader
at the writer's cursor gathers the same record, with the same slots and next cursor; the bytes outside
its slots stay, those of the slots in use and of the headers among them; and an error leaves all. -/
theorem ring_round_trip {profile : Profile} {sequence : Word} {rpc : Rpc} {payload : Slice}
    {output size : Nat} {shape : Shape} {encoded : List Byte}
    (hencode : encode profile sequence rpc payload output size = .ok (shape, encoded))
    (layout : Layout) (hlayout : validate layout = .ok ()) (write read : Nat)
    (hw : write < layout.slots) (hr : read < layout.slots)
    (hfit : shape.elements ≤ layout.slots - distance layout.slots read write - 1)
    (encodedAddr scratchAddr scratchLen : Nat) (shadow : Slice)
    (hshadow : shadow.bytes.length = queueBytes)
    (hapart : overlap ⟨encodedAddr, encoded⟩ shadow.addr shadow.bytes.length = false)
    (hscratch : shape.storageBytes ≤ scratchLen)
    (hscratchApart : overlap shadow scratchAddr shape.storageBytes = false) :
    (∃ sent shadow' received record,
      scatter profile layout write read sequence ⟨encodedAddr, encoded⟩ shadow = (.ok sent, shadow') ∧
      gather profile layout write sent.nextCursor sequence ⟨shadow.addr, shadow'⟩ scratchAddr scratchLen =
        .ok (received, record) ∧
      record.rpc = rpc ∧ record.payload = payload.bytes ∧ received.slots = sent.slots ∧
      received.nextCursor = sent.nextCursor ∧
      (∀ i, (∀ k < layout.slots, InSlot layout k i →
          sent.slots ≤ distance layout.slots write k) → shadow'.getD i 0 = shadow.bytes.getD i 0) ∧
      (∀ i k, k < layout.slots → InSlot layout k i →
        distance layout.slots read k < distance layout.slots read write →
          shadow'.getD i 0 = shadow.bytes.getD i 0) ∧
      ∀ i < layout.entriesOffset, shadow'.getD i 0 = shadow.bytes.getD i 0) ∧
    ∀ layout' write' read' sequence' encoded' e,
      (scatter profile layout' write' read' sequence' encoded' shadow).1 = .error e →
        (scatter profile layout' write' read' sequence' encoded' shadow).2 = shadow.bytes := by
  obtain ⟨hprof, hp, hshape, hencoded⟩ := encode_frame hencode
  rw [hshape] at hfit hscratch hscratchApart
  rw [hencoded] at hapart ⊢
  refine ⟨frame_round_trip hprof layout (validate_ok.mp hlayout) write read hw hr sequence rpc
    payload.bytes hp hfit encodedAddr scratchAddr scratchLen shadow hshadow hapart hscratch
    hscratchApart, fun _ _ _ _ _ _ h => scatter_error h⟩

theorem overlap_behind {a : Slice} {addr len : Nat} (h : addr + len ≤ a.addr) :
    overlap a addr len = false := by
  unfold overlap Slice.overlaps
  have hfar : ¬ a.addr - addr < len := by omega
  rw [if_pos (by omega), decide_eq_false hfar, Bool.and_false, Bool.and_false]

/-- The slots a frame is scattered over are those planned for its length. -/
theorem scatter_plan {profile : Profile} {write read : Nat} {sequence : Word} {rpc : Rpc}
    {payload : List Byte} {encodedAddr : Nat} {shadow : Slice} {sent : Plan} {shadow' : List Byte}
    (hprof : profile.admitted = true) (hp : payload.length ≤ maxPayloadBytes)
    (h : scatter profile layout write read sequence ⟨encodedAddr, frame sequence rpc payload⟩ shadow =
      (.ok sent, shadow')) :
    transmit layout write read (shapeFor (headerBytes + payload.length)).elements = .ok sent := by
  unfold scatter admitScatter at h
  rw [decode_frame hprof hp] at h
  dsimp only at h
  split at h
  · cases h
  rename_i hadmit
  cases h
  split at hadmit
  · cases hadmit
  split at hadmit
  · cases hadmit
  rename_i htransmit
  split at hadmit <;> cases hadmit
  exact htransmit

/-- A record of two slots over the end of a ring: the first slot is the last of the ring, the second
slot its first. -/
theorem ring_round_trip_last : ∃ shadow' received record,
    scatter ⟨0x172, false⟩ ⟨32, 4096, 63, 0⟩ 62 5 7
      ⟨524288, frame 7 ⟨1, 2, 3, 4, 5⟩ (List.replicate 4021 0x5a)⟩ ⟨65536, List.replicate queueBytes 0⟩ =
        (.ok ⟨[⟨258048, 4096⟩, ⟨4096, 4096⟩], 2, 5, 62, 1⟩, shadow') ∧
      gather ⟨0x172, false⟩ ⟨32, 4096, 63, 0⟩ 62 1 7 ⟨65536, shadow'⟩ 0 8192 =
        .ok (received, record) ∧
      record.rpc = ⟨1, 2, 3, 4, 5⟩ ∧ record.payload = List.replicate 4021 0x5a ∧
      received.slots = 2 ∧ received.nextCursor = 1 ∧
      ∀ i < 4096, shadow'.getD i 0 = (List.replicate queueBytes (0 : Byte)).getD i 0 := by
  have hpayload : (List.replicate 4021 (0x5a : Byte)).length = 4021 := List.length_replicate
  have hshadow : (List.replicate queueBytes (0 : Byte)).length = queueBytes := List.length_replicate
  have hencode : encode ⟨0x172, false⟩ 7 ⟨1, 2, 3, 4, 5⟩ ⟨0, List.replicate 4021 0x5a⟩ 524288 8192 =
      .ok (shapeFor 4101, frame 7 ⟨1, 2, 3, 4, 5⟩ (List.replicate 4021 0x5a)) := by
    unfold encode Slice.overlaps
    dsimp only
    rw [hpayload]
    rfl
  obtain ⟨⟨sent, shadow', received, record, hscatter, hgather, hrpc, hrecord, hslots, hnext, -, -,
    hheaders⟩, -⟩ := ring_round_trip hencode ⟨32, 4096, 63, 0⟩ rfl 62 5 (by decide) (by decide)
      (by decide) 524288 0 8192 ⟨65536, List.replicate queueBytes 0⟩ hshadow
      (overlap_behind (by rw [hshadow]; decide)) (by decide) (overlap_behind (by decide))
  have hplan := scatter_plan (by decide) (by rw [hpayload]; decide) hscatter
  rw [hpayload] at hplan
  have hsent : sent = ⟨[⟨258048, 4096⟩, ⟨4096, 4096⟩], 2, 5, 62, 1⟩ :=
    Except.ok.inj (hplan.symm.trans (by decide))
  subst hsent
  exact ⟨shadow', received, record, hscatter, hgather, hrpc, hrecord, hslots, hnext, hheaders⟩

end Ring
end Gsp
end NvidiaGsp
