import NvidiaGsp.Mst.Sideband

/-!
# Mst.Wire

The bytes of a sideband packet (`gsp_mst_wire.zig`): a header with the route in half bytes and a
checksum of four bits, a part of the message, and a checksum of eight bits behind it. `Sender` cuts
a message into packets, `decode` takes one apart, `Assembly` (in `Mst.Sideband`) puts the message
together again.

Functions that write to a buffer return the bytes they write; `room` is the buffer's length.
-/

namespace NvidiaGsp
namespace Mst
namespace Wire

inductive Error where
  | Bounds | Payload | Stale | Unsupported
  deriving DecidableEq, Repr

def packetBytes : Nat := 48

/-- The header with the length of what follows it, the checksum of the body included. -/
structure Header extends Mst.Header where
  payloadBytes : Nat := 0
  deriving DecidableEq

def Header.size (h : Header) : Nat := 3 + (h.route.depth + 1) / 2

/-! ## Checksums -/

/-- One turn of the loop in `crc`. -/
def crcStep (input : List Byte) (bits width : Nat) (polynomial remainder : BitVec 16) (i : Nat) :
    BitVec 16 :=
  let remainder := remainder <<< 1
  let remainder :=
    if i < bits then remainder ||| ((input.getD (i / 8) 0 >>> (7 - i % 8)) &&& 1).setWidth 16
    else remainder
  if remainder &&& (1#16 <<< width) ≠ 0 then remainder ^^^ polynomial else remainder

def crc (input : List Byte) (bits width : Nat) (polynomial : BitVec 16) : BitVec 16 :=
  (List.range (bits + width)).foldl (crcStep input bits width polynomial) 0 &&&
    ((1#16 <<< width) - 1)

def headerCrc (input : List Byte) (bits : Nat) : Except Error (BitVec 4) :=
  if bits > input.length * 8 then .error .Bounds
  else .ok ((crc input bits 4 0x13).setWidth 4)

def bodyCrc (input : List Byte) : Byte := (crc input (input.length * 8) 8 0xd5).setWidth 8

/-! ## Headers -/

/-- A port of the route's part that is in use. -/
def hop (r : Route) (i : Nat) : Byte := if i < r.depth then r.ports[i]?.getD 0 else 0

/-- The ports in half bytes, the first in the upper half. -/
def hopBytes (r : Route) : List Byte :=
  (List.range ((r.depth + 1) / 2)).map fun j => hop r (2 * j) <<< 4 ||| hop r (2 * j + 1)

def flag (b : Bool) (place : Nat) : Byte := (BitVec.ofBool b).setWidth 8 <<< place

/-- The header without its checksum. -/
def plainHeader (h : Header) : List Byte :=
  (BitVec.ofNat 8 (h.route.depth + 1) <<< 4 ||| BitVec.ofNat 8 h.remaining) :: hopBytes h.route ++
    [flag h.broadcast 7 ||| flag h.path 6 ||| BitVec.ofNat 8 h.payloadBytes,
      flag h.start 7 ||| flag h.last 6 ||| h.sequence.setWidth 8 <<< 4]

/-- The last byte also gets `nibble`. -/
def orLast (bytes : List Byte) (nibble : Byte) : List Byte :=
  bytes.dropLast ++ [bytes.getLastD 0 ||| nibble]

def encodeHeader (header : Header) (room : Nat) : Except Error (List Byte) :=
  if header.route.valid = false ∨ header.payloadBytes < 2 ∨
      header.payloadBytes + header.size > packetBytes ∨
      (header.broadcast = true ∧ (header.route.depth ≠ 0 ∨ header.remaining ≠ 6)) ∨
      (header.broadcast = false ∧ header.remaining > header.route.depth) then .error .Payload
  else if room < header.size then .error .Bounds
  else
    let bytes := plainHeader header
    match headerCrc bytes (header.size * 8 - 4) with
    | .error e => .error e
    | .ok crc => .ok (orLast bytes (crc.setWidth 8))

/-- The fields of a header as they stand in a buffer. -/
def readHeader (input : List Byte) : Header :=
  let depth := (input.getD 0 0 >>> 4).toNat - 1
  let count := 3 + (depth + 1) / 2
  let ports : Vector Byte 14 := Vector.ofFn fun i =>
    if i.val < depth then
      (input.getD (1 + i / 2) 0 >>> (if i.val % 2 = 0 then 4 else 0)) &&& 15
    else 0
  let flags := input.getD (count - 2) 0
  let tail := input.getD (count - 1) 0
  { route := { depth, ports }
    remaining := (input.getD 0 0 &&& 15).toNat
    broadcast := flags.getLsbD 7
    path := flags.getLsbD 6
    payloadBytes := (flags &&& 63).toNat
    start := tail.getLsbD 7
    last := tail.getLsbD 6
    sequence := (tail >>> 4).setWidth 1 }

def decodeHeader (input : List Byte) : Except Error Header :=
  if input.length < 3 then .error .Bounds
  else if input.getD 0 0 >>> 4 = 0 then .error .Payload
  else
    let header := readHeader input
    let count := header.size
    let tail := input.getD (count - 1) 0
    if input.length < count then .error .Bounds
    else if header.route.depth % 2 ≠ 0 ∧ input.getD (1 + header.route.depth / 2) 0 &&& 15 ≠ 0 then
      .error .Payload
    else if tail &&& 0x20 ≠ 0 ∨ header.payloadBytes < 2 ∨
        count + header.payloadBytes > packetBytes ∨
        (header.broadcast = true ∧ (header.route.depth ≠ 0 ∨ header.remaining > 6)) ∨
        (header.broadcast = false ∧ header.remaining > header.route.depth) then .error .Payload
    else match headerCrc (input.take count) (count * 8 - 4) with
      | .error e => .error e
      | .ok crc => if crc.setWidth 8 ≠ tail &&& 15 then .error .Payload else .ok header

/-! ## Packets -/

structure Fragment where
  header : Header
  body : List Byte
  used : Nat
  deriving DecidableEq

def decode (input : List Byte) : Except Error Fragment :=
  match decodeHeader input with
  | .error e => .error e
  | .ok header =>
    let used := header.size + header.payloadBytes
    if input.length < used then .error .Bounds
    else
      let body := (input.take (used - 1)).drop header.size
      if bodyCrc body ≠ input.getD (used - 1) 0 then .error .Payload
      else .ok ⟨header, body, used⟩

structure Sender extends Mst.Sender where
  offset : Nat := 0
  deriving DecidableEq

/-- The next packet of the message, and the sender behind it. -/
def Sender.next (s : Sender) (body : List Byte) (room : Nat) :
    Except Error (Option (List Byte) × Sender) :=
  if s.route.valid = false ∨ body.length = 0 ∨ body.length > messageBytes ∨ s.offset > body.length then
    .error .Bounds
  else if s.offset = body.length then .ok (none, s)
  else
    let header : Header := {
      route := if s.broadcast then {} else s.route
      remaining := if s.broadcast then 6 else s.route.depth
      sequence := s.sequence
      path := s.path
      broadcast := s.broadcast
      start := s.offset == 0 }
    let count := min (body.length - s.offset) (packetBytes - header.size - 1)
    let header : Header :=
      { header with last := s.offset + count == body.length, payloadBytes := count + 1 }
    if room < header.size + count + 1 then .error .Bounds
    else match encodeHeader header room with
      | .error e => .error e
      | .ok bytes =>
        let part := (body.drop s.offset).take count
        .ok (some (bytes ++ part ++ [bodyCrc part]), { s with offset := s.offset + count })

/-! ## What is accepted -/

variable {input : List Byte} {h : Header}

/-- The checks of `decodeHeader`. -/
structure Readable (input : List Byte) (h : Header) : Prop where
  length : h.size ≤ input.length
  hops : input.getD 0 0 >>> 4 ≠ 0
  spare : h.route.depth % 2 ≠ 0 → input.getD (1 + h.route.depth / 2) 0 &&& 15 = 0
  reserved : input.getD (h.size - 1) 0 &&& 0x20 = 0
  payload : 2 ≤ h.payloadBytes
  fits : h.size + h.payloadBytes ≤ packetBytes
  toAll : h.broadcast = true → h.route.depth = 0 ∧ h.remaining ≤ 6
  toOne : h.broadcast = false → h.remaining ≤ h.route.depth
  crc : ∃ c, headerCrc (input.take h.size) (h.size * 8 - 4) = .ok c ∧
    c.setWidth 8 = input.getD (h.size - 1) 0 &&& 15

theorem decodeHeader_ok : decodeHeader input = .ok h ↔ h = readHeader input ∧ Readable input h := by
  constructor
  · intro hd
    unfold decodeHeader at hd
    dsimp only at hd
    split at hd
    · cases hd
    split at hd
    · cases hd
    split at hd
    · cases hd
    split at hd
    · cases hd
    split at hd
    · cases hd
    rename_i hlen hhops hcount hspare hfields
    simp only [not_or, not_and, not_lt, ne_eq, not_not] at hspare hfields
    obtain ⟨hreserved, hpayload, hfits, hall, hone⟩ := hfields
    split at hd
    · cases hd
    rename_i c hcrc
    split at hd
    · cases hd
    rename_i heq
    cases hd
    exact ⟨rfl, by omega, hhops, hspare, hreserved, hpayload, hfits, hall, hone,
      c, hcrc, Decidable.not_not.mp heq⟩
  · rintro ⟨rfl, hr⟩
    have hsize : 3 ≤ (readHeader input).size := Nat.le_add_right 3 _
    have hlen := hr.length
    obtain ⟨c, hcrc, heq⟩ := hr.crc
    unfold decodeHeader
    dsimp only
    rw [if_neg (by omega), if_neg hr.hops, if_neg (by omega),
      if_neg (fun hn => hn.2 (hr.spare hn.1)), if_neg, hcrc]
    · dsimp only
      rw [if_neg (fun hn => hn heq)]
    · have hall := hr.toAll
      have hone := hr.toOne
      have hpayload := hr.payload
      have hfits := hr.fits
      rintro (hn | hn | hn | ⟨hb, hn⟩ | ⟨hb, hn⟩)
      · exact hn hr.reserved
      · omega
      · omega
      · obtain ⟨hdepth, hrem⟩ := hall hb
        omega
      · have := hone hb
        omega

theorem decode_ok {fragment : Fragment} : decode input = .ok fragment ↔
    decodeHeader input = .ok fragment.header ∧
      fragment.used = fragment.header.size + fragment.header.payloadBytes ∧
      fragment.used ≤ input.length ∧
      fragment.body = (input.take (fragment.used - 1)).drop fragment.header.size ∧
      bodyCrc fragment.body = input.getD (fragment.used - 1) 0 := by
  constructor
  · intro h
    unfold decode at h
    cases hheader : decodeHeader input with
    | error e =>
      rw [hheader] at h
      cases h
    | ok header =>
      rw [hheader] at h
      dsimp only at h
      split at h
      · cases h
      rename_i hused
      split at h
      · cases h
      rename_i hcrc
      cases h
      exact ⟨rfl, rfl, Nat.not_lt.mp hused, rfl, Decidable.not_not.mp hcrc⟩
  · rintro ⟨hheader, hused, hlen, hbody, hcrc⟩
    obtain ⟨header, body, used⟩ := fragment
    dsimp only at *
    subst hused hbody
    unfold decode
    rw [hheader]
    dsimp only
    rw [if_neg (by omega), if_neg (fun hn => hn hcrc)]

end Wire
end Mst
end NvidiaGsp
