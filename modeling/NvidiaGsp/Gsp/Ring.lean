import NvidiaGsp.Lib.Cyclic
import NvidiaGsp.Gsp.Message

/-!
# Gsp.Ring

Bounded plans for the GSP command and status rings (`gsp_ring.zig`): header admission, the free and
used slots of a ring, and the one or two spans a record occupies. One slot always stays free, so that
equal cursors mean an empty ring.
-/

namespace NvidiaGsp
namespace Gsp

open Bytes Cyclic

def queueBytes : Nat := 256 * 1024
def ringHeaderBytes : Nat := 32

inductive Queue where
  | command | status
  deriving DecidableEq, Repr

structure Location where
  queue : Queue
  offset : Nat
  deriving DecidableEq, Repr

structure Layout where
  rxOffset : Nat
  entriesOffset : Nat
  slots : Nat
  flags : Nat
  deriving DecidableEq, Repr

structure RingHeader where
  layout : Layout
  write : Nat
  deriving DecidableEq, Repr

structure Link where
  command : RingHeader
  status : RingHeader
  swapped : Bool
  commandRead : Location
  statusRead : Location
  deriving DecidableEq, Repr

structure Span where
  offset : Nat
  bytes : Nat
  deriving DecidableEq, Repr

structure Plan where
  /-- The spans in use, `spans[0..span_count]`. -/
  spans : List Span
  slots : Nat
  availableBefore : Nat
  currentCursor : Nat
  nextCursor : Nat
  deriving DecidableEq, Repr

namespace Ring

/-- The layout of a ring the driver accepts. -/
structure Valid (layout : Layout) : Prop where
  flags : layout.flags ≤ 1
  rxLow : ringHeaderBytes ≤ layout.rxOffset
  rxHigh : layout.rxOffset ≤ queueBytes - 4
  rxAligned : layout.rxOffset % 4 = 0
  entriesLow : layout.rxOffset + 4 ≤ layout.entriesOffset
  entriesAligned : layout.entriesOffset % elementBytes = 0
  entriesHigh : layout.entriesOffset ≤ queueBytes - 2 * elementBytes
  slots : layout.slots = (queueBytes - layout.entriesOffset) / elementBytes

def invalid (layout : Layout) : Prop :=
  layout.flags > 1 ∨ layout.rxOffset < ringHeaderBytes ∨ layout.rxOffset > queueBytes - 4 ∨
    layout.rxOffset % 4 ≠ 0 ∨ layout.entriesOffset < layout.rxOffset + 4 ∨
    layout.entriesOffset % elementBytes ≠ 0 ∨
    layout.entriesOffset > queueBytes - 2 * elementBytes ∨
    layout.slots ≠ (queueBytes - layout.entriesOffset) / elementBytes

instance (layout : Layout) : Decidable (invalid layout) := by
  unfold invalid
  infer_instance

def validate (layout : Layout) : Except Error Unit :=
  if invalid layout then .error .Header else .ok ()

def inspect (bytes : List Byte) : Except Error RingHeader :=
  if bytes.length ≠ ringHeaderBytes then .error .Length else
  if bytes.all (· == 0) then .error .NotReady else
  if word bytes 0 ≠ 0 ∨ (word bytes 4).toNat ≠ queueBytes ∨ (word bytes 8).toNat ≠ elementBytes then
    .error .Header else
  let layout : Layout := ⟨(word bytes 24).toNat, (word bytes 28).toNat, (word bytes 12).toNat,
    (word bytes 20).toNat⟩
  let write := (word bytes 16).toNat
  match validate layout with
  | .error e => .error e
  | .ok () => if write ≥ layout.slots then .error .Cursor else .ok ⟨layout, write⟩

def inspectLink (command status : List Byte) : Except Error Link :=
  match inspect command with
  | .error e => .error e
  | .ok own =>
    match inspect status with
    | .error e => .error e
    | .ok peer =>
      let swapped := own.layout.flags &&& peer.layout.flags &&& 1 != 0
      let ownRx : Location := ⟨.command, own.layout.rxOffset⟩
      let peerRx : Location := ⟨.status, peer.layout.rxOffset⟩
      .ok ⟨own, peer, swapped, if swapped then peerRx else ownRx, if swapped then ownRx else peerRx⟩

def available (layout : Layout) (read write : Nat) : Except Error Nat :=
  match validate layout with
  | .error e => .error e
  | .ok () =>
    if read ≥ layout.slots ∨ write ≥ layout.slots then .error .Cursor
    else .ok (if write ≥ read then write - read else layout.slots - read + write)

/-- Where the record of `count` slots at a cursor lies. -/
def spansAt (layout : Layout) (cursor count : Nat) : List Span :=
  let first := min count (layout.slots - cursor)
  let second := count - first
  ⟨layout.entriesOffset + cursor * elementBytes, first * elementBytes⟩ ::
    if second = 0 then [] else [⟨layout.entriesOffset, second * elementBytes⟩]

/-- The cursor after it. -/
def nextAt (layout : Layout) (cursor count : Nat) : Nat :=
  let second := count - min count (layout.slots - cursor)
  if second = 0 ∧ cursor + count < layout.slots then cursor + count else second

def plan (layout : Layout) (cursor count capacity : Nat) : Except Error Plan :=
  if count = 0 ∨ count > maxElements then .error .Elements else
  if count > capacity then .error .Unavailable else
  .ok ⟨spansAt layout cursor count, count, capacity, cursor, nextAt layout cursor count⟩

def receive (layout : Layout) (read write count : Nat) : Except Error Plan :=
  match available layout read write with
  | .error e => .error e
  | .ok capacity => plan layout read count capacity

def transmit (layout : Layout) (write read count : Nat) : Except Error Plan :=
  match available layout read write with
  | .error e => .error e
  | .ok used => plan layout write count (layout.slots - used - 1)

/-! ## Admitted layouts -/

theorem validate_ok {layout : Layout} {u : Unit} : validate layout = .ok u ↔ Valid layout := by
  unfold validate
  constructor
  · intro h
    split at h
    · cases h
    · rename_i hv
      simp only [invalid, not_or] at hv
      obtain ⟨h₁, h₂, h₃, h₄, h₅, h₆, h₇, h₈⟩ := hv
      exact ⟨Nat.not_lt.mp h₁, Nat.not_lt.mp h₂, Nat.not_lt.mp h₃, not_not.mp h₄, Nat.not_lt.mp h₅, not_not.mp h₆,
        Nat.not_lt.mp h₇, not_not.mp h₈⟩
  · rintro ⟨h₁, h₂, h₃, h₄, h₅, h₆, h₇, h₈⟩
    rw [if_neg]
    simp only [invalid, not_or]
    exact ⟨Nat.not_lt.mpr h₁, Nat.not_lt.mpr h₂, Nat.not_lt.mpr h₃, not_not.mpr h₄, Nat.not_lt.mpr h₅, not_not.mpr h₆,
      Nat.not_lt.mpr h₇, not_not.mpr h₈⟩

theorem Valid.slots_bounds {layout : Layout} (h : Valid layout) :
    2 ≤ layout.slots ∧ layout.slots ≤ 63 ∧
      layout.entriesOffset + layout.slots * elementBytes ≤ queueBytes := by
  obtain ⟨h₁, h₂, h₃, h₄, h₅, h₆, h₇, h₈⟩ := h
  simp only [queueBytes, elementBytes, ringHeaderBytes] at *
  omega

/-- The header an accepted ring announces. -/
def headerOf (bytes : List Byte) : RingHeader :=
  ⟨⟨(word bytes 24).toNat, (word bytes 28).toNat, (word bytes 12).toNat, (word bytes 20).toNat⟩,
    (word bytes 16).toNat⟩

theorem inspect_eq_ok {bytes : List Byte} {header : RingHeader} :
    inspect bytes = .ok header ↔ bytes.length = ringHeaderBytes ∧
      bytes.all (· == 0) = false ∧ word bytes 0 = 0 ∧ (word bytes 4).toNat = queueBytes ∧
      (word bytes 8).toNat = elementBytes ∧ header = headerOf bytes ∧ Valid header.layout ∧
      header.write < header.layout.slots := by
  unfold inspect
  constructor
  · intro h
    split at h
    · cases h
    · rename_i hlen
      split at h
      · cases h
      · rename_i hzero
        split at h
        · cases h
        · rename_i hwords
          dsimp only at h
          split at h
          · cases h
          · rename_i hv
            split at h
            · cases h
            · rename_i hw
              cases h
              simp only [not_or, Decidable.not_not] at hwords hlen
              exact ⟨hlen, by simpa using hzero, hwords.1, hwords.2.1, hwords.2.2, rfl,
                validate_ok.1 hv, Nat.not_le.mp hw⟩
  · rintro ⟨hlen, hzero, h₀, h₄, h₈, rfl, hv, hw⟩
    rw [if_neg (by simp [hlen]), if_neg (by rw [hzero]; simp), if_neg (by simp [h₀, h₄, h₈])]
    have hok := validate_ok (u := ()).mpr hv
    unfold headerOf at *
    simp only at hok hw
    simp only [hok]
    rw [if_neg (by omega)]

theorem inspect_ok {bytes : List Byte} {header : RingHeader} (h : inspect bytes = .ok header) :
    Valid header.layout ∧ header.write < header.layout.slots := by
  obtain ⟨-, -, -, -, -, -, hv, hw⟩ := inspect_eq_ok.1 h
  exact ⟨hv, hw⟩

theorem inspectLink_ok {command status : List Byte} {link : Link}
    (h : inspectLink command status = .ok link) :
    inspect command = .ok link.command ∧ inspect status = .ok link.status ∧
      link.swapped = (link.command.layout.flags &&& link.status.layout.flags &&& 1 != 0) ∧
      link.commandRead =
        (if link.swapped then ⟨.status, link.status.layout.rxOffset⟩
          else ⟨.command, link.command.layout.rxOffset⟩) ∧
      link.statusRead =
        (if link.swapped then ⟨.command, link.command.layout.rxOffset⟩
          else ⟨.status, link.status.layout.rxOffset⟩) := by
  unfold inspectLink at h
  split at h
  · cases h
  · rename_i own hown
    split at h
    · cases h
    · rename_i peer hpeer
      cases h
      exact ⟨hown, hpeer, rfl, rfl, rfl⟩

/-! ## Plans -/

theorem nextAt_eq {layout : Layout} {cursor count : Nat} (hc : cursor < layout.slots) :
    nextAt layout cursor count = advance layout.slots cursor count := by
  unfold nextAt advance
  dsimp only
  split <;> split <;> omega

theorem available_ok {layout : Layout} {read write n : Nat} :
    available layout read write = .ok n ↔ Valid layout ∧ read < layout.slots ∧
      write < layout.slots ∧ n = distance layout.slots read write := by
  unfold available distance
  constructor
  · intro h
    split at h
    · cases h
    · rename_i hv
      split at h
      · cases h
      · rename_i hc
        cases h
        exact ⟨validate_ok.1 hv, by omega, by omega, rfl⟩
  · rintro ⟨hv, hr, hw, rfl⟩
    rw [validate_ok (u := ()).mpr hv]
    exact if_neg (by omega)

theorem plan_ok {layout : Layout} {cursor count capacity : Nat} {p : Plan} :
    plan layout cursor count capacity = .ok p ↔ 0 < count ∧ count ≤ maxElements ∧
      count ≤ capacity ∧
      p = ⟨spansAt layout cursor count, count, capacity, cursor, nextAt layout cursor count⟩ := by
  unfold plan
  constructor
  · intro h
    split at h
    · cases h
    · split at h
      · cases h
      · cases h
        exact ⟨by omega, by omega, by omega, rfl⟩
  · rintro ⟨h₁, h₂, h₃, rfl⟩
    rw [if_neg (by omega), if_neg (by omega)]

theorem transmit_ok {layout : Layout} {write read count : Nat} {p : Plan}
    (h : transmit layout write read count = .ok p) : Valid layout ∧ read < layout.slots ∧
      write < layout.slots ∧ 0 < count ∧ count + distance layout.slots read write < layout.slots ∧
      p.spans = spansAt layout write count ∧ p.nextCursor = advance layout.slots write count := by
  unfold transmit at h
  split at h
  · cases h
  · rename_i used hu
    obtain ⟨hv, hr, hw, rfl⟩ := available_ok.1 hu
    obtain ⟨h₁, h₂, h₃, rfl⟩ := plan_ok.1 h
    have hlt := distance_lt hr hw
    exact ⟨hv, hr, hw, h₁, by omega, rfl, nextAt_eq hw⟩

theorem receive_ok {layout : Layout} {read write count : Nat} {p : Plan} :
    receive layout read write count = .ok p ↔ Valid layout ∧ read < layout.slots ∧
      write < layout.slots ∧ 0 < count ∧ count ≤ maxElements ∧
      count ≤ distance layout.slots read write ∧
      p = ⟨spansAt layout read count, count, distance layout.slots read write, read,
        advance layout.slots read count⟩ := by
  unfold receive
  constructor
  · intro h
    split at h
    · cases h
    · rename_i capacity hc
      obtain ⟨hv, hr, hw, rfl⟩ := available_ok.1 hc
      obtain ⟨h₁, h₂, h₃, rfl⟩ := plan_ok.1 h
      exact ⟨hv, hr, hw, h₁, h₂, h₃, by rw [nextAt_eq hr]⟩
  · rintro ⟨hv, hr, hw, h₁, h₂, h₃, rfl⟩
    rw [available_ok.2 ⟨hv, hr, hw, rfl⟩, ← nextAt_eq hr]
    exact plan_ok.2 ⟨h₁, h₂, h₃, rfl⟩

/-- A record longer than what the ring holds is not ready. -/
theorem receive_unavailable {layout : Layout} {read write count : Nat} (hv : Valid layout)
    (hr : read < layout.slots) (hw : write < layout.slots) (hc : 0 < count ∧ count ≤ maxElements)
    (hd : distance layout.slots read write < count) :
    receive layout read write count = .error .Unavailable := by
  unfold receive
  rw [available_ok.2 ⟨hv, hr, hw, rfl⟩]
  show plan layout read count _ = _
  unfold plan
  rw [if_neg (by omega), if_pos hd]

/-! ## Slots -/

/-- Byte `offset` of the queue belongs to slot `i`. -/
def InSlot (layout : Layout) (i offset : Nat) : Prop :=
  layout.entriesOffset + i * elementBytes ≤ offset ∧
    offset < layout.entriesOffset + (i + 1) * elementBytes

/-- The spans of a record lie in the `count` slots from its cursor on. -/
theorem spansAt_slot {layout : Layout} {cursor count k : Nat} {span : Span}
    (hc : cursor < layout.slots) (hn : count < layout.slots) (hs : span ∈ spansAt layout cursor count)
    (hk : k < span.bytes) :
    ∃ i < layout.slots, InSlot layout i (span.offset + k) ∧ distance layout.slots cursor i < count := by
  obtain ⟨q, r, rfl, hr⟩ : ∃ q r, k = q * elementBytes + r ∧ r < elementBytes :=
    ⟨k / elementBytes, k % elementBytes, (Nat.div_add_mod' k elementBytes).symm,
      Nat.mod_lt k (by decide)⟩
  have hle {m : Nat} (h : q * elementBytes + r < m * elementBytes) : q < m := by
    simp only [elementBytes] at h
    omega
  unfold spansAt at hs
  dsimp only at hs
  unfold InSlot distance
  rcases List.mem_cons.mp hs with rfl | hs
  · have hlt := hle hk
    refine ⟨cursor + q, by omega, ?_, by rw [if_pos] <;> omega⟩
    simp only [elementBytes] at *
    omega
  · split at hs
    · simp at hs
    · rw [List.mem_singleton] at hs
      subst hs
      have hlt := hle hk
      refine ⟨q, by omega, ?_, by rw [if_neg] <;> omega⟩
      simp only [elementBytes] at *
      omega

end Ring
end Gsp
end NvidiaGsp
