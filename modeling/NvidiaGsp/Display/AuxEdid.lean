import NvidiaGsp.Lib.Bytes

/-!
# Display.AuxEdid

One EDID block over AUX (`gsp_aux_edid.zig`), with the part of the AUX wire (`gsp_aux_wire.zig`) that it
uses and the channel's rule for the open I2C transaction. A sink is anything that answers a request's
48 bytes with a status and 48 bytes.
-/

namespace NvidiaGsp
namespace Aux

open Bytes

inductive Error where
  | State | Query | Clock | FirmwareResult | Payload | Unexpected
  deriving DecidableEq, Repr

/-! ## The wire -/

/-- The I2C operations of `aux_wire.Operation`. -/
inductive Operation where
  | segment (segment : Nat)
  | segmentStatus
  | offset (offset : Nat)
  | offsetStatus
  | read (count : Nat) (last : Bool)
  | stop
  deriving DecidableEq, Repr

inductive ReplyType where
  | ack | nack | deferReply | timeout | i2cNack | i2cDefer | invalidArgument
  deriving DecidableEq, Repr

def ReplyType.ofWord (v : Nat) : Option ReplyType :=
  if v = 0 then some .ack
  else if v = 1 then some .nack
  else if v = 2 then some .deferReply
  else if v = 3 then some .timeout
  else if v = 4 then some .i2cNack
  else if v = 8 then some .i2cDefer
  else if v = 0xffffffff then some .invalidArgument
  else none

/-- `data` is the copied bytes; the source's sixteen are zero after them. -/
structure Reply where
  status : Nat := 0
  kind : ReplyType := .ack
  retryMs : Nat := 0
  count : Nat := 0
  data : List Byte := []
  deriving DecidableEq

def Operation.length : Operation → Nat
  | .read count _ => count
  | .stop => 0
  | _ => 1

def Operation.cmd : Operation → Nat
  | .segment _ => 4
  | .offset _ => 4
  | .segmentStatus => 6
  | .offsetStatus => 6
  | .read _ last => if last then 1 else 5
  | .stop => 0

def Operation.address : Operation → Nat
  | .segment _ => 0x30
  | .segmentStatus => 0x30
  | _ => 0x50

/-- The data byte of a write. -/
def Operation.value : Operation → Nat
  | .segment v => v
  | .offset v => v
  | _ => 0

/-- The flag of a transaction without data. -/
def Operation.only : Operation → Nat
  | .stop => 1
  | _ => 0

def Operation.refused : Operation → Bool
  | .segment v => decide (16 ≤ v)
  | .read count _ => decide (count = 0 ∨ 16 < count)
  | _ => false

def encode (displayId : Nat) (op : Operation) : Except Error (List Byte) :=
  if displayId = 0 ∨ displayId &&& (displayId - 1) ≠ 0 ∨ op.refused = true then .error .Query
  else .ok (putAll (List.replicate 48 0)
    [(4, BitVec.ofNat 32 displayId), (8, BitVec.ofNat 32 op.only), (12, BitVec.ofNat 32 op.cmd),
      (16, BitVec.ofNat 32 op.address), (20, BitVec.ofNat 32 op.value),
      (36, BitVec.ofNat 32 (op.length - 1))])

def get (bytes : List Byte) (i : Nat) : Nat := (word bytes i).toNat

def decode (displayId : Nat) (op : Operation) (status : Nat) (input : List Byte) : Except Error Reply :=
  if input.length ≠ 48 then .error .Payload
  else if get input 0 ≠ 0 ∨ get input 4 ≠ displayId ∨
      (input.getD 8 0).toNat ≠ op.only ∨ get input 12 ≠ op.cmd ∨
      get input 16 ≠ op.address then .error .Unexpected
  else if status ≠ 0 then
    .ok { status, retryMs := if status = 3 ∨ status = 0x66 then get input 44 else 0 }
  else match ReplyType.ofWord (get input 40) with
  | none => .error .Payload
  | some kind =>
    if kind ≠ .ack then .ok { kind }
    else if get input 36 > op.length then .error .Payload
    else .ok { kind, count := get input 36
               data := match op with
                 | .read _ _ => (input.drop 20).take (get input 36)
                 | _ => [] }

/-! ## The reader -/

inductive State where
  | segment | offset | read | stop | complete | rejected
  deriving DecidableEq, Repr

structure Reader where
  block : Nat
  state : State
  forceZero : Bool
  statusQuery : Bool := false
  cursor : Nat := 0
  bytes : List Byte := List.replicate 128 0
  rmRetries : Nat := 0
  deferRetries : Nat := 0
  retries : Nat := 0
  retryAtNs : Nat := 0
  failureStatus : Option Nat := none
  failureReply : Option ReplyType := none
  aborting : Bool := false

/-- Where a selection begins: at the segment, unless it is the first and not forced. -/
def selection (block : Nat) (forceZero : Bool) : State :=
  if block ≥ 2 ∨ forceZero = true then .segment else .offset

def Reader.init (block : Nat) (forceZero : Bool) : Except Error Reader :=
  if block ≥ 32 then .error .Query
  else .ok { block, forceZero, state := selection block forceZero }

def Reader.query (r : Reader) : Except Error Operation :=
  match r.state with
  | .segment => .ok (if r.statusQuery then .segmentStatus else .segment (r.block / 2))
  | .offset => .ok (if r.statusQuery then .offsetStatus else .offset (r.block % 2 * 128 + r.cursor))
  | .read => .ok (.read (min 16 (128 - r.cursor)) (decide (r.cursor ≥ 112)))
  | .stop => .ok .stop
  | .complete | .rejected => .error .State

def Reader.abort (r : Reader) (opened : Bool) : Reader :=
  { r with aborting := true, state := if opened then .stop else .rejected, retryAtNs := 0
           statusQuery := false }

abbrev Outcome := Except Error Unit × Reader

def Reader.delay (r : Reader) (now delayNs : Nat) : Outcome :=
  if now + delayNs ≥ 2 ^ 64 then (.error .Clock, r)
  else (.ok (), { r with retryAtNs := now + delayNs, retries := r.retries + 1 })

/-- The way out of a reply that ends the read. -/
def Reader.fail (r : Reader) (opened : Bool) : Outcome :=
  if r.state = .stop then (.error .FirmwareResult, r) else (.ok (), r.abort opened)

def Reader.advance (r : Reader) (reply : Reply) : Outcome :=
  match r.state with
  | .segment => (.ok (), { r with state := .offset })
  | .offset => (.ok (), { r with state := .read })
  | .read =>
    if reply.count > 128 - r.cursor ∨ reply.count > 16 then (.error .State, r)
    else
      let cursor := r.cursor + reply.count
      let bytes := blit r.bytes r.cursor reply.data
      (.ok (), { r with
        bytes, cursor
        state := if cursor = 128 then .complete
          else if r.cursor ≥ 112 then selection r.block r.forceZero else r.state })
  | .stop => (.ok (), { r with state := .rejected })
  | .complete | .rejected => (.error .State, r)

def Reader.consume (r : Reader) (reply : Reply) (now : Nat) (opened : Bool) : Outcome :=
  if r.state = .complete ∨ r.state = .rejected then (.error .State, r)
  else if reply.status ≠ 0 then
    if (reply.status = 3 ∨ reply.status = 0x66) ∧ r.rmRetries < 2 then
      Reader.delay { r with rmRetries := r.rmRetries + 1 } now (max 500000 (reply.retryMs * 1000000))
    else Reader.fail { r with failureStatus := some reply.status } opened
  else if reply.kind = .deferReply ∨ reply.kind = .i2cDefer ∨
      (reply.kind = .ack ∧ reply.count = 0 ∧ r.state ≠ .stop ∧ r.state ≠ .read) then
    if r.deferRetries < 7 then
      Reader.delay { r with
        deferRetries := r.deferRetries + 1
        statusQuery := r.statusQuery ||
          decide (reply.kind = .i2cDefer ∧ (r.state = .segment ∨ r.state = .offset)) } now 500000
    else Reader.fail { r with failureReply := some reply.kind } opened
  else if reply.kind ≠ .ack ∨ (reply.count = 0 ∧ r.state = .read) then
    Reader.fail { r with failureReply := some reply.kind } opened
  else Reader.advance { r with rmRetries := 0, deferRetries := 0, retryAtNs := 0, statusQuery := false } reply

/-! ## The channel -/

/-- A reader and whether its I2C transaction is open. -/
structure Link where
  reader : Reader
  opened : Bool := false

def Link.ended (l : Link) : Bool := decide (l.reader.state = .complete ∨ l.reader.state = .rejected)

/-- The answer of a sink: a status and the copied-out bytes. -/
structure Answer where
  status : Nat
  bytes : List Byte

/-- Is the transaction open after this reply? -/
def closes (op : Operation) (reply : Reply) : Bool :=
  decide (reply.status = 0 ∧ reply.kind = .ack) &&
    match op with
    | .stop => true
    | .read _ last => last
    | _ => false

/-- One request and its reply: the channel opens and closes the transaction, the reader takes the
reply. A stop is sent in an open transaction only. -/
def Link.take (l : Link) (displayId : Nat) (op : Operation) (answer : Answer) (now : Nat) :
    Except Error Unit × Link :=
  if op = .stop ∧ l.opened = false then (.error .Query, l)
  else match encode displayId op with
  | .error e => (.error e, l)
  | .ok _ =>
    match decode displayId op answer.status answer.bytes with
    | .error e => (.error e, { l with opened := true })
    | .ok reply =>
      let opened := !closes op reply
      let (out, reader) := l.reader.consume reply now opened
      (out, ⟨reader, opened⟩)

/-- `answer` is given the request's bytes. -/
def Link.step (displayId : Nat) (l : Link) (op : (Answer × Nat)) : Except Error Unit × Link :=
  match l.reader.query with
  | .error e => (.error e, l)
  | .ok query => l.take displayId query op.1 op.2

end Aux
end NvidiaGsp
