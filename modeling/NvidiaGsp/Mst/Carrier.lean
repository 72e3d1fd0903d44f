import NvidiaGsp.Display.AuxEdid
import NvidiaGsp.Mst.Messages
import NvidiaGsp.Mst.WireRuns

/-!
# Mst.Carrier

One sideband exchange over the root's AUX (`transport.Work` of `gsp_mst_transport.zig`): the request's
packets are written to the mailbox in pieces of at most sixteen bytes, then the interrupt byte is read
until a reply is announced, a packet of the reply is read in pieces up to the length its header gives,
and the interrupt is cleared before the next one.

The packet buffer with its count is a list. `Link` closes the work with the branches at the other end,
which put off an access, or answer it.
-/

namespace NvidiaGsp
namespace Mst

/-- The messages that every branch on the way takes part in. -/
def Wire.Request.path : Wire.Request → Bool
  | .allocate .. | .enumPath _ | .clear => true
  | _ => false

namespace Carrier

open Wire (Request packetBytes)

inductive Error where
  | Descriptor | Stale | Deadline | Pending | State | RetryExhausted | RmRejected | Aux
  | wire (e : Wire.Error)
  | frame (e : Mst.Error)
  /-- The code unwrapped an optional that was null. -/
  | Unreachable
  deriving DecidableEq

inductive Stage where
  | send | ready | read | clear | complete | cancelled
  deriving DecidableEq, Repr

/-- The operations of `aux_wire.Mst` on the mailboxes of a request and its reply. -/
inductive Query where
  | write (offset : Nat) (data : List Byte)
  | irq
  | read (offset count : Nat)
  | ack
  deriving DecidableEq

def Query.length : Query → Nat
  | .write _ data => data.length
  | .read _ count => count
  | .irq | .ack => 1

/-- `packetCount` is the length of the packet, zero until its header is there. -/
structure Work where
  root : Nat
  generation : Nat
  deadline : Nat
  request : Request
  sender : Wire.Sender
  assembly : Assembly
  stage : Stage := .send
  body : List Byte
  packet : List Byte
  packetCount : Nat
  cursor : Nat := 0
  pending : Option Query := none
  lastReceipt : Nat := 0
  completionReceipt : Nat := 0
  notBefore : Nat := 0
  retries : Nat := 0
  upPending : Bool := false
  failure : Option Error := none

abbrev Result := Except Error Unit × Work

namespace Work

def init (root generation deadline : Nat) (route : Route) (sequence : Bit) (request : Request) :
    Except Error Work :=
  if root = 0 ∨ root &&& (root - 1) ≠ 0 ∨ generation = 0 ∨ deadline = 0 ∨ route.valid = false then
    .error .Descriptor
  else
    let broadcast := request == .clear
    let sender : Wire.Sender := { route, sequence, path := request.path, broadcast }
    let assembly : Assembly := {
      route := if request == .clear then {} else route, sequence, path := request.path, broadcast }
    match request.encode 24 with
    | .error e => .error (.wire e)
    | .ok body =>
      match sender.next body packetBytes with
      | .error e => .error (.wire e)
      | .ok (none, _) => .error .Unreachable
      | .ok (some packet, sender) => .ok {
          root, generation, deadline, request, sender, assembly, body, packet
          packetCount := packet.length }

def invalidate (w : Work) : Work := { w with stage := .cancelled }

def guard (w : Work) (generation now : Nat) : Except Error Unit :=
  if w.failure ≠ none ∨ generation ≠ w.generation ∨ w.stage = .cancelled then .error .Stale
  else if now ≥ w.deadline then .error .Deadline
  else .ok ()

/-- The next access to the mailboxes. -/
def query (w : Work) : Except Error Query :=
  match w.stage with
  | .send =>
    let count := min (w.packetCount - w.cursor) 16
    .ok (.write w.cursor ((w.packet.drop w.cursor).take count))
  | .ready => .ok .irq
  | .read => .ok (.read w.cursor (if w.cursor = 0 then 16 else min (w.packetCount - w.cursor) 16))
  | .clear => .ok .ack
  | .complete | .cancelled => .error .Unreachable

def prepare (w : Work) (generation now : Nat) : Except Error (Option Query) × Work :=
  match w.guard generation now with
  | .error e => (.error e, w)
  | .ok () =>
    if w.pending ≠ none then (.error .Pending, w)
    else if w.stage = .complete ∨ now < w.notBefore then (.ok none, w)
    else match w.query with
      | .error e => (.error e, w)
      | .ok q => (.ok (some q), { w with pending := some q })

def done (w : Work) : Result := (.ok (), w)

def fail (w : Work) (e : Error) : Result := (.error e, { w with failure := some e })

/-- So many milliseconds later, as far as the clock goes. -/
def later (now ms : Nat) : Nat := min (now + ms * 1000000) (2 ^ 64 - 1)

def retry (w : Work) (now ms : Nat) : Result :=
  if ms = 0 ∨ ms > 500 ∨ w.retries = 7 then w.fail .RetryExhausted
  else done { w with retries := w.retries + 1, notBefore := later now ms }

/-- A piece of the packet was taken. -/
def sent (w : Work) (count : Nat) : Result :=
  let cursor := w.cursor + count
  if cursor = w.packetCount then
    match w.sender.next w.body packetBytes with
    | .error e => { w with cursor := 0 }.fail (.wire e)
    | .ok (some packet, sender) =>
      done { w with cursor := 0, sender, packet, packetCount := packet.length }
    | .ok (none, sender) => done { w with cursor := 0, sender, stage := .ready, packetCount := 0 }
  else done { w with cursor }

/-- The interrupt byte: a reply, or a request of the other side. -/
def status (w : Work) (irq : Byte) (now : Nat) : Result :=
  let w := { w with upPending := w.upPending || decide (irq &&& 0x20 ≠ 0) }
  if irq &&& 0x10 = 0 then done { w with notBefore := later now 1 }
  else done { w with stage := .read, cursor := 0, packetCount := 0 }

/-- The length of the packet that begins with these bytes. -/
def announced (bytes : List Byte) : Except Error Nat :=
  match Wire.decodeHeader bytes with
  | .error e => .error (.wire e)
  | .ok header => .ok (header.size + header.payloadBytes)

/-- A piece of the reply. -/
def received (w : Work) (data : List Byte) : Result :=
  let packet := w.packet.take w.cursor ++ data
  let w := { w with packet, cursor := w.cursor + data.length }
  match if w.packetCount = 0 then announced packet else .ok w.packetCount with
  | .error e => w.fail e
  | .ok packetCount =>
    let w := { w with packetCount }
    if w.cursor ≥ packetCount then
      match Wire.decode (packet.take packetCount) with
      | .error e => w.fail (.wire e)
      | .ok frame =>
        match w.assembly.consume ⟨frame.header.toHeader, frame.body⟩ with
        | .error e => w.fail (.frame e)
        | .ok assembly => done { w with assembly, stage := .clear }
    else w.done

def cleared (w : Work) (serial : Nat) : Result :=
  if w.assembly.complete = true then
    match Wire.reply w.request w.assembly.bytes with
    | .error e => w.fail (.wire e)
    | .ok _ => done { w with completionReceipt := serial, stage := .complete }
  else done { w with stage := .ready, cursor := 0, packetCount := 0 }

/-- An access that was acknowledged whole. -/
def accepted (w : Work) (reply : Aux.Reply) (serial now : Nat) : Result :=
  match w.stage with
  | .send => w.sent reply.count
  | .ready => w.status (reply.data.getD 0 0) now
  | .read => w.received (reply.data.takeD reply.count 0)
  | .clear => w.cleared serial
  | .complete | .cancelled => w.fail .State

def consume (w : Work) (generation : Nat) (reply : Aux.Reply) (serial now : Nat) : Result :=
  match w.pending with
  | none => (.error .Pending, w)
  | some q =>
    if serial = 0 ∨ serial ≤ w.lastReceipt then (.error .Stale, w)
    else
      let w := { w with pending := none, lastReceipt := serial }
      if w.stage = .cancelled ∨ generation ≠ w.generation then done { w with stage := .cancelled }
      else match w.guard generation now with
        | .error e => w.fail e
        | .ok () =>
          if reply.status = 3 ∨ reply.status = 0x66 then w.retry now reply.retryMs
          else if reply.status ≠ 0 then w.fail .RmRejected
          else if reply.kind = .deferReply then w.retry now 1
          else if reply.kind ≠ .ack ∨ reply.count ≠ q.length then w.fail .Aux
          else { w with retries := 0, notBefore := 0 }.accepted reply serial now

def result (w : Work) (generation : Nat) : Except Error Wire.Reply :=
  if w.failure ≠ none ∨ generation ≠ w.generation ∨ w.stage ≠ .complete ∨ w.pending ≠ none ∨
      w.completionReceipt = 0 then .error .Stale
  else match Wire.assembled w.assembly with
    | .error e => .error (.wire e)
    | .ok body =>
      match Wire.reply w.request body with
      | .error e => .error (.wire e)
      | .ok reply => .ok reply

end Work

/-! ## The other end -/

/-- The branches behind the root. `inbox` is what was written of a packet, `outbox` the packets of the
reply that were not cleared yet; the box shows the first of them, with anything behind it. -/
structure Sink where
  assembly : Assembly
  inbox : List Byte := []
  outbox : List (List Byte) := []
  behind : List Byte := []

/-- What happens to an access: it is put off, by the sink or by the firmware, or served. The sink may
be slow to announce its reply. -/
inductive Choice where
  | defer
  | busy (status retryMs : Nat)
  | idle (irq : Byte) (behind : List Byte)
  | serve (irq : Byte) (behind : List Byte)

def acked (data : List Byte) : Aux.Reply := { count := data.length, data }

/-- The message is taken with the last byte of its packet, and `respond` gives the packets of the
reply to it. -/
def Sink.take (respond : List Byte → List (List Byte)) (k : Sink) (offset : Nat) (data : List Byte) : Sink :=
  let inbox := k.inbox.take offset ++ data
  match Wire.receive k.assembly inbox with
  | none => { k with inbox }
  | some assembly =>
    let outbox := if assembly.complete = true then (respond assembly.bytes).map Wire.finalHop else []
    { k with assembly, inbox := [], outbox }

/-- The interrupt byte with the reply bit as it is. -/
def irqByte (irq : Byte) (ready : Bool) : Byte := irq &&& 0xef ||| Wire.flag ready 4

def Sink.serve (respond : List Byte → List (List Byte)) (k : Sink) (irq : Byte) (behind : List Byte) :
    Query → Sink × Aux.Reply
  | .write offset data => (k.take respond offset data, { count := data.length })
  | .irq => ({ k with behind }, acked [irqByte irq !k.outbox.isEmpty])
  | .read offset count => (k, acked (((k.outbox.headD [] ++ k.behind).drop offset).takeD count 0))
  | .ack => ({ k with outbox := k.outbox.tail }, { count := 1 })

def Sink.answer (respond : List Byte → List (List Byte)) (k : Sink) : Choice → Query → Sink × Aux.Reply
  | .defer, _ => (k, { kind := .deferReply })
  | .busy status retryMs, _ => (k, { status, retryMs })
  | .idle irq behind, .irq => ({ k with behind }, acked [irqByte irq false])
  | .idle irq behind, q | .serve irq behind, q => k.serve respond irq behind q

/-- `served` counts the accesses that were served. -/
structure Link where
  work : Work
  sink : Sink
  now : Nat := 0
  served : Nat := 0

/-- Is this access one that brings the exchange on? -/
def Choice.serves : Choice → Query → Bool
  | .defer, _ | .busy .., _ | .idle .., .irq => false
  | _, _ => true

/-- The owner waits until the work may go on, puts its access to the sink and gives the answer back. The
access and its answer have one time, the answer's: an access prepared earlier is the same access
(`Work.prepare_earlier`). -/
def Link.step (respond : List Byte → List (List Byte)) (l : Link) (wait : Nat) (c : Choice) :
    Except Error Link :=
  let now := max (l.now + wait) l.work.notBefore
  match l.work.prepare l.work.generation now with
  | (.error e, _) => .error e
  | (.ok none, work) => .ok { l with work, now }
  | (.ok (some q), work) =>
    let (sink, reply) := l.sink.answer respond c q
    match work.consume work.generation reply (work.lastReceipt + 1) now with
    | (.error e, _) => .error e
    | (.ok (), work) => .ok { work, sink, now, served := l.served + if c.serves q then 1 else 0 }

/-- When an access is prepared makes no difference, as long as the answer is in time. -/
theorem Work.prepare_earlier {w w' : Work} {generation now answered : Nat} {q : Query} (hle : now ≤ answered)
    (hready : w.notBefore ≤ now) (h : w.prepare generation answered = (.ok (some q), w')) :
    w.prepare generation now = (.ok (some q), w') := by
  have hlater : ¬ answered < w.notBefore := by omega
  have hnow : ¬ now < w.notBefore := by omega
  have hguard : w.guard generation answered = .ok () → w.guard generation now = .ok () := by
    unfold Work.guard
    intro hg
    split at hg
    · cases hg
    split at hg
    · cases hg
    rename_i hlive htime
    rw [if_neg hlive, if_neg (by omega)]
  unfold Work.prepare at h ⊢
  cases hg : w.guard generation answered with
  | error e =>
    rw [hg] at h
    cases h
  | ok u =>
    rw [hg] at h
    rw [hguard hg]
    simpa only [hlater, hnow] using h

/-- A run of the link: how long the owner waited, and what happened to its access. -/
def Link.drive (respond : List Byte → List (List Byte)) (l : Link) (choices : List (Nat × Choice)) :
    Except Error Link := choices.foldlM (fun l c => l.step respond c.1 c.2) l

/-- May this happen, when so many accesses in a row are still put off? The firmware asks for a delay that
it may ask for. -/
def Choice.tolerated (left : Nat) : Choice → Prop
  | .defer => 0 < left
  | .busy status retryMs => 0 < left ∧ (status = 3 ∨ status = 0x66) ∧ 0 < retryMs ∧ retryMs ≤ 500
  | .idle .. | .serve .. => True

def Choice.after (left : Nat) : Choice → Nat
  | .defer | .busy .. => left - 1
  | .idle .. | .serve .. => 7

def patient : Nat → List (Nat × Choice) → Prop
  | _, [] => True
  | left, c :: rest => c.2.tolerated left ∧ patient (c.2.after left) rest

/-- The pieces of a packet. -/
def pieces (p : List Byte) : Nat := (p.length + 15) / 16

/-- The accesses for the packets of a reply: each is announced, read and cleared. -/
def toRead (packets : List (List Byte)) : Nat := (packets.map fun p => pieces p + 2).sum

end Carrier
end Mst
end NvidiaGsp
