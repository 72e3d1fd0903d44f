import NvidiaGsp.Lib.Memory
import NvidiaGsp.Gsp.TransportSpec

/-!
# Gsp.Producer

An honest producer of the status ring: the firmware end of the receive path. It builds the header of
its ring in any number of writes, which a session refuses until the last one. Then it appends records
to its stream, stores the stream slot by slot into slots that are free with respect to the read cursor
the session last published, and publishes its write cursor at any stored slot, also in the middle of
a record. It takes the commands of the session when it wants. Its steps happen before every access of
the session, in bursts a script chooses; the script also chooses what the clock, the epoch and the
failures of the port are.
-/

namespace NvidiaGsp
namespace Gsp

open Bytes Cyclic Memory

/-- A record the producer sends. -/
structure Produced where
  rpc : Rpc
  payload : List Byte
  deriving DecidableEq

/-- The slots of a record. -/
def Produced.slots (r : Produced) : Nat := (shapeFor (headerBytes + r.payload.length)).elements

/-- The slots of a list of records. -/
def slotsOf (records : List Produced) : Nat := (records.map Produced.slots).sum

/-- The encoded records, with consecutive queue sequences from `n`. -/
def stream : Nat → List Produced → List Byte
  | _, [] => []
  | n, r :: rs => frame (BitVec.ofNat 32 n) r.rpc r.payload ++ stream (n + 1) rs

/-- The geometry both ends agree on: the command ring and the status ring. -/
structure Firmware where
  command : Layout
  layout : Layout
  commandValid : Ring.Valid command
  valid : Ring.Valid layout

namespace Firmware

/-- Both rings ask for the cursors of their readers in the other queue. -/
def swapped (f : Firmware) : Bool := f.command.flags &&& f.layout.flags &&& 1 != 0

/-- Where the session publishes how far it has read. -/
def readAt (f : Firmware) : Location :=
  if f.swapped then ⟨.command, f.command.rxOffset⟩ else ⟨.status, f.layout.rxOffset⟩

/-- Where the firmware publishes how far it has taken the commands. -/
def commandAt (f : Firmware) : Location :=
  if f.swapped then ⟨.status, f.layout.rxOffset⟩ else ⟨.command, f.command.rxOffset⟩

end Firmware

structure Device where
  command : Memory
  status : Memory
  /-- The header of the status ring is complete. -/
  ready : Bool := false
  records : List Produced := []
  /-- The slots of the stream stored and published so far. -/
  stored : Nat := 0
  published : Nat := 0
  tick : Nat := 0

/-- One step of the firmware. -/
inductive Act where
  /-- A write of the header of the status ring, which is refused until it is complete. -/
  | construct (header : List Byte)
  /-- Any cursor of the commands it has taken. -/
  | consume (cursor : Word)
  | append (r : Produced)
  | store
  | publish (count : Nat)

/-- What the surroundings of the session do at each access. -/
structure Script where
  acts : Nat → List Act
  generation : Nat → Nat
  now : Nat → Nat
  readError : Nat → Option Nat
  /-- A failed publication may have written its bytes or not. -/
  publishError : Nat → Option (Nat × Bool)
  /-- Whether a notification is bound, and its epochs. -/
  notification : Option (Nat → Nat)

namespace Device

variable (f : Firmware) (script : Script)

def mem (d : Device) : Queue → Memory
  | .command => d.command
  | .status => d.status

def write (d : Device) (queue : Queue) (offset : Nat) (bytes : List Byte) : Device :=
  match queue with
  | .command => { d with command := poke d.command offset bytes }
  | .status => { d with status := poke d.status offset bytes }

/-- The read cursor the session last published. -/
def readCursor (d : Device) : Nat := (wordAt (d.mem f.readAt.queue) f.readAt.offset).toNat

/-- The bytes of slot `k` of the stream. -/
def slotBytes (d : Device) (k : Nat) : List Byte :=
  ((stream 0 d.records).drop (k * elementBytes)).take elementBytes

def slotOffset (k : Nat) : Nat :=
  f.layout.entriesOffset + k % f.layout.slots * elementBytes

def act (d : Device) : Act → Device
  | .construct header =>
    if d.ready = true ∨ header.length ≠ ringHeaderBytes then d
    else match Ring.inspect header with
      | .error _ => d.write .status 0 header
      | .ok own =>
        if own = ⟨f.layout, 0⟩ then { d.write .status 0 header with ready := true } else d
  | .consume cursor => d.write f.commandAt.queue f.commandAt.offset (le32 cursor)
  | .append r =>
    if r.payload.length ≤ maxPayloadBytes then { d with records := d.records ++ [r] } else d
  | .store =>
    if d.ready = true ∧ d.stored < slotsOf d.records ∧
        distance f.layout.slots (d.readCursor f) (d.stored % f.layout.slots) + 1 < f.layout.slots then
      { d.write .status (slotOffset f d.stored) (d.slotBytes d.stored) with stored := d.stored + 1 }
    else d
  | .publish count =>
    if d.ready = true then
      let next := min d.stored (d.published + count)
      { d.write .status 16 (le32 (BitVec.ofNat 32 (next % f.layout.slots))) with published := next }
    else d

/-- The burst of steps before an access. -/
def advance (d : Device) : Device :=
  { (script.acts d.tick).foldl (act f) d with tick := d.tick + 1 }

def read (queue : Queue) (offset : Nat) (d : Device) : Except Nat (Nat → Byte) × Device :=
  match script.readError d.tick with
  | some code => (.error code, d.advance f script)
  | none => (.ok fun i => (d.advance f script).mem queue (offset + i), d.advance f script)

def publish (queue : Queue) (offset : Nat) (bytes : List Byte) (d : Device) : Option Nat × Device :=
  match script.publishError d.tick with
  | none => (none, (d.advance f script).write queue offset bytes)
  | some (code, true) => (some code, (d.advance f script).write queue offset bytes)
  | some (code, false) => (some code, d.advance f script)

/-- The port of a session on this device. -/
def port : Port Device where
  generation d := (script.generation d.tick, d.advance f script)
  nowNs d := (script.now d.tick, d.advance f script)
  read _ queue offset _ := read f script queue offset
  publish _ := publish f script
  notification := script.notification.map fun generation =>
    ⟨fun d => (generation d.tick, d.advance f script), fun _ d => (none, d.advance f script),
      fun _ d => (none, d.advance f script)⟩

end Device

/-! ## The stream -/

section

variable {n : Nat} {r : Produced} {rs : List Produced}

theorem stream_append (n : Nat) (rs ss : List Produced) :
    stream n (rs ++ ss) = stream n rs ++ stream (n + rs.length) ss := by
  induction rs generalizing n with
  | nil => simp [stream]
  | cons r rs ih =>
    rw [List.cons_append, stream, stream, ih, List.append_assoc, List.length_cons]
    congr 3
    omega

theorem slotsOf_append (rs ss : List Produced) : slotsOf (rs ++ ss) = slotsOf rs + slotsOf ss := by
  simp [slotsOf]

@[simp] theorem slotsOf_nil : slotsOf [] = 0 := rfl

@[simp] theorem slotsOf_cons (r : Produced) (rs : List Produced) :
    slotsOf (r :: rs) = r.slots + slotsOf rs := by simp [slotsOf]

/-- Every record can be encoded. -/
def Sized (rs : List Produced) : Prop := ∀ r ∈ rs, r.payload.length ≤ maxPayloadBytes

theorem length_stream (h : Sized rs) : (stream n rs).length = slotsOf rs * elementBytes := by
  induction rs generalizing n with
  | nil => simp [stream]
  | cons r rs ih =>
    have hr := h r (by simp)
    have hrs : Sized rs := fun s hs => h s (by simp [hs])
    rw [stream, List.length_append, ih hrs, length_frame _ _ hr, slotsOf_cons, Nat.add_mul]
    rfl

/-- A record takes one to sixteen slots. -/
theorem slots_bounds (h : r.payload.length ≤ maxPayloadBytes) :
    1 ≤ r.slots ∧ r.slots ≤ maxElements := by
  have hb := shapeFor_bounds (n := headerBytes + r.payload.length) (by omega) (by
    simp only [maxPayloadBytes, maxBytes, maxElements, elementBytes, headerBytes, outerBytes,
      rpcBytes] at *
    omega)
  exact ⟨hb.1, hb.2.1⟩

/-- The bytes of the record after `rs`. -/
theorem getD_stream_record (ss : List Produced) (hrs : Sized rs)
    (hr : r.payload.length ≤ maxPayloadBytes) {i : Nat} (hi : i < r.slots * elementBytes) :
    (stream 0 (rs ++ r :: ss)).getD (slotsOf rs * elementBytes + i) 0 =
      (frame (BitVec.ofNat 32 rs.length) r.rpc r.payload).getD i 0 := by
  have hlen := length_stream (n := 0) hrs
  rw [stream_append, stream, List.getD_append_right _ _ _ _ (by omega), hlen,
    Nat.add_sub_cancel_left, Nat.zero_add, List.getD_append _ _ _ _ (by rw [length_frame _ _ hr]; exact hi)]

/-- What is stored stays as the stream grows. -/
theorem getD_stream_append {ss : List Produced} (hrs : Sized rs) {i : Nat}
    (hi : i < slotsOf rs * elementBytes) :
    (stream 0 (rs ++ ss)).getD i 0 = (stream 0 rs).getD i 0 := by
  have hlen := length_stream (n := 0) hrs
  rw [stream_append, List.getD_append _ _ _ _ (by omega)]

end

end Gsp
end NvidiaGsp
