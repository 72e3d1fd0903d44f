import NvidiaGsp.Mst.CarrierSpec

/-!
# Mst.CarrierRuns

What both ends of an exchange know of each other at every access (`Place`), kept by an access that is
served and by one that is put off. An exchange that is not put off too often ends with the reply to its
request, after a number of accesses that depends on the packets alone (`exchange_exact`).
-/

namespace NvidiaGsp
namespace Mst
namespace Carrier

open Wire (packet receive finalHop packetBytes Sent)

/-! ## The two ends -/

/-- The reply to the request of a work, and its packets. -/
structure Deal (respond : List Byte → List (List Byte)) (w₀ : Work) (answer : List Byte) (reply : Wire.Reply) :
    Prop where
  assembly : w₀.assembly = w₀.sender.assembly
  packet : ∃ h part, w₀.packet = packet h part ∧ h.Fit ∧ part.length + 1 = h.payloadBytes
  whole : w₀.sender.next w₀.body packetBytes = .ok (none, w₀.sender)
  taken : ∃ a, receive w₀.assembly w₀.packet = some a ∧ a.complete = true ∧ a.bytes = w₀.body
  coming : Coming w₀.sender answer 0 (respond w₀.body)
  nonempty : 0 < answer.length
  reply : Wire.reply w₀.request answer = .ok reply

/-- What an exchange does not change. -/
def Work.terms (w : Work) := (w.generation, w.deadline, w.request, w.body, w.sender)

section

variable (respond : List Byte → List (List Byte)) (w₀ : Work) (answer : List Byte)

def Sending (w : Work) (k : Sink) (left : Nat) : Prop :=
  w.packet = w₀.packet ∧ w.packetCount = w₀.packet.length ∧ w.cursor < w₀.packet.length ∧
    k.inbox = w₀.packet.take w.cursor ∧ k.assembly = w₀.assembly ∧ w.assembly = w₀.assembly ∧
    left = (w₀.packet.length - w.cursor + 15) / 16 + toRead (respond w₀.body)

def Awaiting (w : Work) (k : Sink) (left : Nat) : Prop :=
  ∃ o packets, Coming w₀.sender answer o packets ∧ o < answer.length ∧ k.outbox = packets.map finalHop ∧
    w.assembly = w₀.sender.progress answer o ∧ left = toRead packets

def Reading (w : Work) (k : Sink) (left : Nat) : Prop :=
  ∃ (o o' : Nat) (h : Wire.Header) (part : List Byte) (rest : List (List Byte)), h.Fit ∧
    part.length + 1 = h.payloadBytes ∧
    receive (w₀.sender.progress answer o) (packet h part) = some (w₀.sender.progress answer o') ∧
    Coming w₀.sender answer o' rest ∧ k.outbox = finalHop (packet h part) :: rest.map finalHop ∧
    w.assembly = w₀.sender.progress answer o ∧ w.cursor < (packet h part).length ∧
    w.packetCount = (if w.cursor = 0 then 0 else (packet h part).length) ∧
    w.packet.take w.cursor = (finalHop (packet h part) ++ k.behind).takeD w.cursor 0 ∧
    left = ((packet h part).length - w.cursor + 15) / 16 + 1 + toRead rest

def Clearing (w : Work) (k : Sink) (left : Nat) : Prop :=
  ∃ o q rest, Coming w₀.sender answer o rest ∧ k.outbox = q :: rest.map finalHop ∧
    w.assembly = w₀.sender.progress answer o ∧ left = 1 + toRead rest

def Finished (w : Work) (k : Sink) (left : Nat) : Prop :=
  w.assembly = w₀.sender.progress answer answer.length ∧ k.outbox = [] ∧ w.completionReceipt ≠ 0 ∧ left = 0

/-- Where the exchange is, with `left` accesses to go. -/
def Place (w : Work) (k : Sink) (left : Nat) : Prop :=
  match w.stage with
  | .send => Sending respond w₀ w k left
  | .ready => Awaiting w₀ answer w k left
  | .read => Reading w₀ answer w k left
  | .clear => Clearing w₀ answer w k left
  | .complete => Finished w₀ answer w k left
  | .cancelled => False

end

variable {respond : List Byte → List (List Byte)} {w₀ w : Work} {answer : List Byte} {reply : Wire.Reply}
  {k : Sink} {left serial now : Nat} {irq : Byte} {behind : List Byte}

/-- The work goes on, at the place of an access less. -/
structure Went (respond : List Byte → List (List Byte)) (w₀ : Work) (answer : List Byte) (w : Work) (k : Sink)
    (left : Nat) (r : Result) : Prop where
  ok : r.1 = .ok ()
  place : ∃ left', left = left' + 1 ∧ Place respond w₀ answer r.2 k left'
  terms : r.2.terms = w.terms
  quiet : (r.2.failure, r.2.pending, r.2.retries) = (w.failure, w.pending, w.retries)

theorem takeD_self (l : List Byte) : l.takeD l.length 0 = l := by
  rw [List.takeD_eq_take _ (Nat.le_refl _), List.take_length]

theorem finalHop_length {h : Wire.Header} {part : List Byte} (hf : h.Fit) (hpart : part.length + 1 = h.payloadBytes) :
    (finalHop (packet h part)).length = (packet h part).length := by
  rw [Wire.finalHop_packet hf, Wire.packet_length hpart,
    Wire.packet_length (h := { h with remaining := 0 }) hpart]
  rfl

theorem Coming.le {s : Wire.Sender} {body : List Byte} {o : Nat} {packets : List (List Byte)}
    (hc : Coming s body o packets) : o ≤ body.length := by
  cases hc with
  | done => exact Nat.le_refl _
  | more ho => exact Nat.le_of_lt ho

theorem irq_ready (irq : Byte) : irqByte irq true &&& 0x10 ≠ 0 := by
  have h : ∀ b : Byte, (b &&& 0xef ||| Wire.flag true 4) &&& 0x10 ≠ 0 := by decide +kernel
  exact h irq

theorem irq_idle (irq : Byte) : irqByte irq false &&& 0x10 = 0 := by
  have h : ∀ b : Byte, (b &&& 0xef ||| Wire.flag false 4) &&& 0x10 = 0 := by decide +kernel
  exact h irq

/-! ## An access that is served -/

theorem sent_went (hd : Deal respond w₀ answer reply) (hp : Sending respond w₀ w k left) (hterms : w.terms = w₀.terms)
    (hstage : w.stage = .send) :
    Went respond w₀ answer w
      (k.take respond w.cursor ((w.packet.drop w.cursor).take (min (w.packetCount - w.cursor) 16))) left
      (w.sent (min (w.packetCount - w.cursor) 16)) := by
  obtain ⟨hpacket, hcount, hcursor, hinbox, hfresh, hassembly, hleft⟩ := hp
  obtain ⟨h, part, hp, hf, hpart⟩ := hd.packet
  obtain ⟨a, htaken, hcomplete, hbytes⟩ := hd.taken
  simp only [Work.terms, Prod.mk.injEq] at hterms
  obtain ⟨-, -, -, hbody, hsender⟩ := hterms
  have hbox : k.inbox.take w.cursor ++ (w.packet.drop w.cursor).take (min (w.packetCount - w.cursor) 16) =
      w₀.packet.take (w.cursor + min (w₀.packet.length - w.cursor) 16) := by
    rw [hinbox, hpacket, hcount, List.take_take, Nat.min_self, List.take_add]
  rw [hcount] at hbox ⊢
  by_cases hend : w.cursor + min (w₀.packet.length - w.cursor) 16 = w₀.packet.length
  · have hsink : k.take respond w.cursor ((w.packet.drop w.cursor).take (min (w₀.packet.length - w.cursor) 16)) =
        { k with assembly := a, inbox := [], outbox := (respond w₀.body).map finalHop } := by
      unfold Sink.take
      dsimp only
      rw [hbox, hend, List.take_length, hfresh, htaken]
      dsimp only
      rw [if_pos hcomplete, hbytes]
    have hsent : w.sent (min (w₀.packet.length - w.cursor) 16) =
        (.ok (), { w with cursor := 0, sender := w₀.sender, stage := .ready, packetCount := 0 }) := by
      unfold Work.sent
      dsimp only
      rw [hcount, if_pos hend, hsender, hbody, hd.whole]
      rfl
    rw [hsink, hsent]
    have hone : (w₀.packet.length - w.cursor + 15) / 16 = 1 := by omega
    have hprogress : w₀.assembly = w₀.sender.progress answer 0 := by
      have hne : ¬ 0 = answer.length := Nat.ne_of_lt hd.nonempty
      rw [hd.assembly]
      simp [Wire.Sender.progress, Wire.Sender.assembly, hne]
    refine ⟨rfl, ⟨toRead (respond w₀.body), by omega, ?_⟩, by simp [Work.terms, hsender], rfl⟩
    exact ⟨0, _, hd.coming, hd.nonempty, rfl, hassembly.trans hprogress, rfl⟩
  · have hpiece : min (w₀.packet.length - w.cursor) 16 = 16 := by omega
    have hnone : receive w₀.assembly (w₀.packet.take (w.cursor + 16)) = none := by
      have hsize := size_le hf
      have hlt : w.cursor + 16 < w₀.packet.length := by omega
      rw [hp] at hlt ⊢
      exact receive_partial hf hpart (by omega) hlt
    have hsink : k.take respond w.cursor ((w.packet.drop w.cursor).take (min (w₀.packet.length - w.cursor) 16)) =
        { k with inbox := w₀.packet.take (w.cursor + 16) } := by
      unfold Sink.take
      dsimp only
      rw [hbox, hpiece, hfresh, hnone]
    have hsent : w.sent (min (w₀.packet.length - w.cursor) 16) = (.ok (), { w with cursor := w.cursor + 16 }) := by
      unfold Work.sent
      dsimp only
      rw [hcount, if_neg hend, hpiece]
      rfl
    rw [hsink, hsent]
    refine ⟨rfl, ⟨left - 1, by omega, ?_⟩, rfl, rfl⟩
    unfold Place
    dsimp only
    rw [hstage]
    exact ⟨hpacket, hcount, by dsimp only; omega, rfl, hfresh, hassembly, by dsimp only; omega⟩

theorem status_went (hp : Awaiting w₀ answer w k left) :
    Went respond w₀ answer w { k with behind } left (w.status (irqByte irq true) now) := by
  obtain ⟨o, packets, hc, ho, hout, hassembly, hleft⟩ := hp
  cases hc with
  | done => omega
  | @more _ o' h part rest _ hf hpart hr hrest =>
    unfold Work.status
    dsimp only
    rw [if_neg (irq_ready irq)]
    have hleft' : left = ((packet h part).length + 15) / 16 + 1 + toRead rest + 1 := by
      rw [hleft]
      simp only [toRead, pieces, List.map_cons, List.sum_cons]
      omega
    refine ⟨rfl, ⟨_, hleft', ?_⟩, rfl, rfl⟩
    refine ⟨o, o', h, part, rest, hf, hpart, hr, hrest, hout, hassembly, ?_, rfl, ?_, rfl⟩
    · have hlen := Wire.packet_length hpart
      have hpos := hf.payload
      dsimp only [Work.done]
      omega
    · simp [Work.done]

theorem cleared_went (hd : Deal respond w₀ answer reply) (hp : Clearing w₀ answer w k left) (hterms : w.terms = w₀.terms)
    (hserial : serial ≠ 0) :
    Went respond w₀ answer w { k with outbox := k.outbox.tail } left (w.cleared serial) := by
  obtain ⟨o, q, rest, hc, hout, hassembly, hleft⟩ := hp
  simp only [Work.terms, Prod.mk.injEq] at hterms
  have hrequest := hterms.2.2.1
  unfold Work.cleared
  rw [hout, hassembly]
  by_cases hend : o = answer.length
  · have hbytes : (w₀.sender.progress answer o).bytes = answer := by
      rw [hend]
      exact List.take_length
    rw [if_pos (by simpa [Wire.Sender.progress] using hend), hbytes, hrequest, hd.reply]
    have hrest : rest = [] := by
      cases hc with
      | done => rfl
      | more ho => omega
    subst hrest
    exact ⟨rfl, ⟨0, by simpa [toRead] using hleft,
      congrArg (w₀.sender.progress answer) hend, rfl, hserial, rfl⟩, by simp [Work.terms, Work.done, hrequest], rfl⟩
  · rw [if_neg (by simpa [Wire.Sender.progress] using hend)]
    have hle := hc.le
    exact ⟨rfl, ⟨toRead rest, by omega, o, rest, hc, by omega, rfl, rfl, rfl⟩, rfl, rfl⟩

theorem received_went (hp : Reading w₀ answer w k left) (hstage : w.stage = .read) {data : List Byte}
    (hdata : data = ((k.outbox.headD [] ++ k.behind).drop w.cursor).takeD
      (if w.cursor = 0 then 16 else min (w.packetCount - w.cursor) 16) 0) :
    Went respond w₀ answer w k left (w.received data) := by
  obtain ⟨o, o', h, part, rest, hf, hpart, hr, hrest, hout, hassembly, hcursor, hcount, htake, hleft⟩ := hp
  obtain ⟨f, hdecode, hconsume⟩ := receive_some hr
  have hsame := finalHop_length hf hpart
  have hfinal : finalHop (packet h part) = packet { h with remaining := 0 } part := Wire.finalHop_packet hf
  generalize hq : finalHop (packet h part) = q at *
  generalize hn : (if w.cursor = 0 then 16 else min (w.packetCount - w.cursor) 16) = n at hdata
  have hstep : w.cursor + n < q.length → n = 16 := by
    intro hlt
    rw [← hn, hcount] at *
    split at hlt <;> split <;> first | rfl | contradiction | omega
  have hreach : q.length - w.cursor ≤ 16 ∨ n = 16 := by
    rw [← hn, hcount]
    split
    · exact .inr rfl
    · omega
  have hlen : data.length = n := by rw [hdata, List.takeD_length]
  have hbox : w.packet.take w.cursor ++ data = (q ++ k.behind).takeD (w.cursor + n) 0 := by
    rw [hdata, hout, htake, List.headD_cons, takeD_add]
  have hannounced : (if w.packetCount = 0 then Work.announced ((q ++ k.behind).takeD (w.cursor + n) 0)
      else .ok w.packetCount) = .ok q.length := by
    by_cases hz : w.cursor = 0
    · rw [if_pos (by rw [hcount, if_pos hz]), ← hn, if_pos hz, hz, hfinal]
      exact announced_piece hf.final hpart k.behind
    · rw [hcount, if_neg hz, if_neg (by omega), hsame]
  unfold Work.received
  dsimp only
  rw [hbox, hannounced, hlen]
  dsimp only
  by_cases hend : q.length ≤ w.cursor + n
  · have hwhole : ((q ++ k.behind).takeD (w.cursor + n) 0).take q.length = q := by
      rw [takeD_append 0 hend, List.take_left]
    rw [if_pos hend, hwhole, hdecode, hassembly]
    dsimp only
    rw [hconsume]
    have hone : (q.length - w.cursor + 15) / 16 = 1 := by omega
    refine ⟨rfl, ⟨1 + toRead rest, by omega, o', q, rest, hrest, hout, rfl, rfl⟩, rfl, rfl⟩
  · rw [if_neg hend]
    have hpiece := hstep (by omega)
    subst hpiece
    refine ⟨rfl, ⟨left - 1, by omega, ?_⟩, rfl, rfl⟩
    unfold Place
    dsimp only [Work.done]
    rw [hstage]
    refine ⟨o, o', h, part, rest, hf, hpart, hr, hrest, hq ▸ hout, hassembly, by dsimp only; omega, ?_, ?_, ?_⟩
    · dsimp only
      rw [if_neg (by omega), hsame]
    · dsimp only
      rw [List.take_of_length_le (by rw [List.takeD_length]), hq]
    · dsimp only
      omega

variable {q : Query} {r : Aux.Reply} {k' : Sink}

/-- An access that is served brings both ends on. -/
theorem serve_went (serial now : Nat) (hd : Deal respond w₀ answer reply)
    (hp : Place respond w₀ answer w k left) (hterms : w.terms = w₀.terms) (hq : w.query = .ok q) (hserial : serial ≠ 0)
    (hr : k.serve respond irq behind q = (k', r)) :
    r.status = 0 ∧ r.kind = .ack ∧ r.count = q.length ∧ Went respond w₀ answer w k' left (w.accepted r serial now) := by
  unfold Place at hp
  unfold Work.query at hq
  unfold Work.accepted
  cases hstage : w.stage with
  | send =>
    rw [hstage] at hp hq
    cases hq
    cases hr
    obtain ⟨hpacket, hcount, -⟩ := id hp
    have hlen : ((w.packet.drop w.cursor).take (min (w.packetCount - w.cursor) 16)).length =
        min (w.packetCount - w.cursor) 16 := by
      rw [List.length_take, List.length_drop, hcount, hpacket]
      omega
    refine ⟨rfl, rfl, rfl, ?_⟩
    dsimp only
    rw [hlen]
    exact sent_went hd hp hterms hstage
  | ready =>
    rw [hstage] at hp hq
    cases hq
    cases hr
    refine ⟨rfl, rfl, rfl, ?_⟩
    obtain ⟨o, packets, hc, ho, hout, -⟩ := id hp
    obtain ⟨p, rest, rfl⟩ := hc.nonempty ho
    have hready : (!k.outbox.isEmpty) = true := by rw [hout]; rfl
    rw [hready]
    exact status_went hp
  | read =>
    rw [hstage] at hp hq
    cases hq
    cases hr
    refine ⟨rfl, rfl, List.takeD_length .., ?_⟩
    dsimp only [acked]
    rw [takeD_self]
    exact received_went hp hstage rfl
  | clear =>
    rw [hstage] at hp hq
    cases hq
    cases hr
    exact ⟨rfl, rfl, rfl, cleared_went hd hp hterms hserial⟩
  | complete =>
    rw [hstage] at hq
    cases hq
  | cancelled =>
    rw [hstage] at hq
    cases hq

/-! ## What the work does with an answer -/

theorem guard_ok (now : Nat) (hfailure : w.failure = none) (hlive : w.stage ≠ .cancelled) :
    w.guard w.generation now = if now ≥ w.deadline then .error .Deadline else .ok () := by
  unfold Work.guard
  rw [if_neg]
  rintro (hn | hn | hn)
  · exact hn hfailure
  · exact hn rfl
  · exact hlive hn

theorem consume_open (hfailure : w.failure = none) (hlive : w.stage ≠ .cancelled) (hnow : now < w.deadline) :
    ({ w with pending := some q } : Work).consume w.generation r (w.lastReceipt + 1) now =
      let w := { w with pending := none, lastReceipt := w.lastReceipt + 1 }
      if r.status = 3 ∨ r.status = 0x66 then w.retry now r.retryMs
      else if r.status ≠ 0 then w.fail .RmRejected
      else if r.kind = .deferReply then w.retry now 1
      else if r.kind ≠ .ack ∨ r.count ≠ q.length then w.fail .Aux
      else ({ w with retries := 0, notBefore := 0 } : Work).accepted r w.lastReceipt now := by
  have hguard := guard_ok (w := { w with pending := none, lastReceipt := w.lastReceipt + 1 }) now hfailure hlive
  rw [if_neg (show ¬now ≥ w.deadline by omega)] at hguard
  unfold Work.consume
  dsimp only
  rw [if_neg (by omega), if_neg (not_or.mpr ⟨hlive, fun hn => hn rfl⟩), hguard]

theorem consume_serve (hfailure : w.failure = none) (hlive : w.stage ≠ .cancelled) (hnow : now < w.deadline)
    (hstatus : r.status = 0) (hkind : r.kind = .ack) (hcount : r.count = q.length) :
    ({ w with pending := some q } : Work).consume w.generation r (w.lastReceipt + 1) now =
      ({ w with pending := none, lastReceipt := w.lastReceipt + 1, retries := 0, notBefore := 0 } : Work).accepted r
        (w.lastReceipt + 1) now := by
  rw [consume_open hfailure hlive hnow]
  dsimp only
  rw [if_neg (by omega), if_neg (fun hn => hn hstatus), if_neg (by rw [hkind]; decide),
    if_neg (not_or.mpr ⟨fun hn => hn hkind, fun hn => hn hcount⟩)]

theorem retry_ok {ms : Nat} (hms : 0 < ms) (hmax : ms ≤ 500) (hretries : w.retries < 7) :
    w.retry now ms = (.ok (), { w with retries := w.retries + 1, notBefore := Work.later now ms }) := by
  unfold Work.retry
  rw [if_neg (by omega)]
  rfl

/-! ## The run -/

/-- An open exchange, with so many accesses served or to go, and so many that may still be put off. -/
structure Inv (respond : List Byte → List (List Byte)) (w₀ : Work) (answer : List Byte) (patience : Nat) (l : Link) :
    Prop where
  failure : l.work.failure = none
  pending : l.work.pending = none
  terms : l.work.terms = w₀.terms
  place : ∃ left, l.served + left = pieces w₀.packet + toRead (respond w₀.body) ∧
    Place respond w₀ answer l.work l.sink left
  patience : l.work.stage = .complete ∨ l.work.retries + patience ≤ 7

variable {l : Link} {patience wait : Nat} {c : Choice}

theorem Inv.live (hi : Inv respond w₀ answer patience l) : l.work.stage ≠ .cancelled := by
  intro hstage
  obtain ⟨left, -, hp⟩ := hi.place
  unfold Place at hp
  rw [hstage] at hp
  exact hp

theorem query_ok (hlive : w.stage ≠ .cancelled) (hopen : w.stage ≠ .complete) : ∃ q, w.query = .ok q := by
  unfold Work.query
  cases hs : w.stage with
  | complete => exact absurd hs hopen
  | cancelled => exact absurd hs hlive
  | _ => exact ⟨_, rfl⟩

/-- An access put off leaves the exchange where it is, with one retry more. -/
theorem putOff_inv (ms now : Nat) (hi : Inv respond w₀ answer patience l) (hopen : l.work.stage ≠ .complete)
    (hpatience : 0 < patience) :
    Inv respond w₀ answer (patience - 1) { l with
      work := { l.work with pending := none, lastReceipt := l.work.lastReceipt + 1, retries := l.work.retries + 1, notBefore := Work.later now ms }
      now } where
  failure := hi.failure
  pending := rfl
  terms := hi.terms
  place := hi.place
  patience := by
    have hle := hi.patience.resolve_left hopen
    dsimp only
    omega

theorem served_inv (hd : Deal respond w₀ answer reply) (hi : Inv respond w₀ answer patience l)
    (hlive : l.work.stage ≠ .cancelled) (hq : l.work.query = .ok q) (hnow : now < l.work.deadline)
    (hr : l.sink.serve respond irq behind q = (k', r)) :
    ∃ w', ({ l.work with pending := some q } : Work).consume l.work.generation r (l.work.lastReceipt + 1) now =
      (.ok (), w') ∧ Inv respond w₀ answer 7 { work := w', sink := k', now, served := l.served + 1 } := by
  obtain ⟨left, hsum, hp⟩ := hi.place
  obtain ⟨hstatus, hkind, hcount, hw⟩ := serve_went (l.work.lastReceipt + 1) now
    (w := { l.work with pending := none, lastReceipt := l.work.lastReceipt + 1, retries := 0, notBefore := 0 })
    hd hp hi.terms hq (Nat.succ_ne_zero _) hr
  rw [consume_serve hi.failure hlive hnow hstatus hkind hcount]
  obtain ⟨left', hleft, hplace⟩ := hw.place
  have hquiet := hw.quiet
  simp only [Prod.mk.injEq] at hquiet
  obtain ⟨hfailure, hpending, hretries⟩ := hquiet
  exact ⟨_, Prod.ext hw.ok rfl, hfailure.trans hi.failure, hpending, hw.terms.trans hi.terms,
    ⟨left', by dsimp only; omega, hplace⟩, .inr (Nat.le_of_eq (congrArg (· + 7) hretries))⟩

/-- The interrupt byte without the reply bit: the work asks again. -/
theorem idle_inv (irq : Byte) (behind : List Byte) (hi : Inv respond w₀ answer patience l) (hlive : l.work.stage ≠ .cancelled)
    (hq : l.work.query = .ok .irq) (hnow : now < l.work.deadline) :
    ∃ w', ({ l.work with pending := some .irq } : Work).consume l.work.generation (acked [irqByte irq false])
      (l.work.lastReceipt + 1) now = (.ok (), w') ∧
      Inv respond w₀ answer 7 { work := w', sink := { l.sink with behind }, now, served := l.served } := by
  have hstage : l.work.stage = .ready := by
    unfold Work.query at hq
    cases hs : l.work.stage <;> rw [hs] at hq <;> first | rfl | cases hq
  rw [consume_serve hi.failure hlive hnow rfl rfl rfl]
  unfold Work.accepted
  dsimp only
  rw [hstage]
  unfold Work.status
  dsimp only
  rw [if_pos (show (acked [irqByte irq false]).data.getD 0 0 &&& 0x10 = 0 from irq_idle irq)]
  obtain ⟨left, hsum, hp⟩ := hi.place
  unfold Place at hp
  rw [hstage] at hp
  exact ⟨_, rfl, hi.failure, rfl, hi.terms, ⟨left, hsum, hp⟩, .inr (by dsimp only; omega)⟩

theorem step_inv (wait : Nat) (hd : Deal respond w₀ answer reply) (hi : Inv respond w₀ answer patience l)
    (hc : c.tolerated patience) : l.step respond wait c = .error .Deadline ∨
      ∃ l', l.step respond wait c = .ok l' ∧ Inv respond w₀ answer (c.after patience) l' := by
  have hlive := hi.live
  unfold Link.step
  dsimp only
  generalize hnow : max (l.now + wait) l.work.notBefore = now
  have hguard := guard_ok now hi.failure hlive
  by_cases hlate : now ≥ l.work.deadline
  · rw [if_pos hlate] at hguard
    unfold Work.prepare
    rw [hguard]
    exact .inl rfl
  rw [if_neg hlate] at hguard
  have hnow' : now < l.work.deadline := Nat.lt_of_not_ge hlate
  refine .inr ?_
  by_cases hopen : l.work.stage = .complete
  · have hprepare : l.work.prepare l.work.generation now = (.ok none, l.work) := by
      unfold Work.prepare
      rw [hguard]
      dsimp only
      rw [if_neg (fun hn => hn hi.pending), if_pos (.inl hopen)]
    rw [hprepare]
    exact ⟨_, rfl, hi.failure, hi.pending, hi.terms, hi.place, .inl hopen⟩
  · obtain ⟨q, hq⟩ := query_ok hlive hopen
    have hprepare : l.work.prepare l.work.generation now = (.ok (some q), { l.work with pending := some q }) := by
      unfold Work.prepare
      rw [hguard]
      dsimp only
      rw [if_neg (fun hn => hn hi.pending), if_neg (not_or.mpr ⟨hopen, by omega⟩), hq]
    rw [hprepare]
    dsimp only
    cases c with
    | defer =>
      have hretry := hi.patience.resolve_left hopen
      have hpos : 0 < patience := hc
      refine ⟨_, ?_, putOff_inv 1 now hi hopen hpos⟩
      simp only [Sink.answer, consume_open (q := q) hi.failure hlive hnow', Choice.serves]
      rw [if_neg (by decide), if_neg (by decide), if_pos trivial, retry_ok (by decide) (by decide) (by dsimp only; omega)]
      rfl
    | busy status retryMs =>
      obtain ⟨hpos, hstatus, hms, hmax⟩ := hc
      have hretry := hi.patience.resolve_left hopen
      refine ⟨_, ?_, putOff_inv retryMs now hi hopen hpos⟩
      simp only [Sink.answer, consume_open (q := q) hi.failure hlive hnow', Choice.serves]
      rw [if_pos hstatus, retry_ok hms hmax (by dsimp only; omega)]
      rfl
    | idle irq behind =>
      by_cases hirq : q = .irq
      · subst hirq
        obtain ⟨w', hconsume, hinv⟩ := idle_inv irq behind hi hlive hq hnow'
        dsimp only [Sink.answer]
        rw [hconsume]
        exact ⟨_, rfl, hinv⟩
      · have hanswer : l.sink.answer respond (.idle irq behind) q = l.sink.serve respond irq behind q := by
          cases q <;> first | rfl | exact absurd rfl hirq
        have hserves : (Choice.idle irq behind).serves q = true := by
          cases q <;> first | rfl | exact absurd rfl hirq
        rw [hanswer, hserves]
        obtain ⟨w', hconsume, hinv⟩ := served_inv hd hi hlive hq hnow' (Prod.mk.eta (p := l.sink.serve respond irq behind q)).symm
        rw [hconsume]
        exact ⟨_, rfl, hinv⟩
    | serve irq behind =>
      obtain ⟨w', hconsume, hinv⟩ := served_inv hd hi hlive hq hnow' (Prod.mk.eta (p := l.sink.serve respond irq behind q)).symm
      have hserves : (Choice.serve irq behind).serves q = true := by cases q <;> rfl
      rw [hserves]
      dsimp only [Sink.answer]
      rw [hconsume]
      exact ⟨_, rfl, hinv⟩

theorem drive_inv (hd : Deal respond w₀ answer reply) {choices : List (Nat × Choice)}
    (hi : Inv respond w₀ answer patience l) (hc : patient patience choices) :
    l.drive respond choices = .error .Deadline ∨
      ∃ l' patience', l.drive respond choices = .ok l' ∧ Inv respond w₀ answer patience' l' := by
  induction choices generalizing l patience with
  | nil => exact .inr ⟨l, patience, rfl, hi⟩
  | cons c choices ih =>
    obtain ⟨hc, hrest⟩ := hc
    unfold Link.drive
    rw [List.foldlM_cons]
    rcases step_inv c.1 hd hi hc with he | ⟨l', hstep, hi'⟩
    · rw [he]
      exact .inl rfl
    · rw [hstep]
      exact ih hi' hrest

/-! ## The exchange -/

theorem encode_length {request : Wire.Request} {room : Nat} {body : List Byte} (he : request.encode room = .ok body) :
    body.length ≤ room := by
  unfold Wire.Request.encode at he
  split at he
  · cases he
  split at he
  · cases he
  split at he
  · cases he
  · cases he
    rw [List.length_cons]
    omega

/-- The work at the start of an exchange. -/
structure Fresh (w₀ : Work) (generation : Nat) : Prop where
  failure : w₀.failure = none
  pending : w₀.pending = none
  stage : w₀.stage = .send
  cursor : w₀.cursor = 0
  retries : w₀.retries = 0
  count : w₀.packetCount = w₀.packet.length
  generation : w₀.generation = generation

theorem init_fresh {root generation deadline : Nat} {route : Route} {sequence : Bit} {request : Wire.Request}
    (hinit : Work.init root generation deadline route sequence request = .ok w₀) : Fresh w₀ generation ∧
      w₀.assembly = w₀.sender.assembly ∧ w₀.sender.next w₀.body packetBytes = .ok (none, w₀.sender) ∧
      (∃ h part, w₀.packet = packet h part ∧ h.Fit ∧ part.length + 1 = h.payloadBytes) ∧
      ∃ a, receive w₀.assembly w₀.packet = some a ∧ a.complete = true ∧ a.bytes = w₀.body := by
  unfold Work.init at hinit
  split at hinit
  · cases hinit
  dsimp only at hinit
  split at hinit
  · cases hinit
  rename_i body hbody
  split at hinit
  · cases hinit
  · cases hinit
  rename_i p s' hnext
  cases hinit
  have hlen := encode_length hbody
  obtain ⟨hv, hpos, hmax, -⟩ := next_cases hnext
  obtain ⟨h, part, rfl, hf, hpart, hlt, rfl, hr⟩ := next_more hnext
  have hwhole := next_whole (s := { route, sequence, path := request.path, broadcast := request == .clear }) hv rfl hpos hlen
  have hzero : ¬ 0 = body.length := by omega
  have hfresh (s : Wire.Sender) : s.progress body 0 = s.assembly := by
    simp [Wire.Sender.progress, Wire.Sender.assembly, hzero]
  refine ⟨⟨rfl, rfl, rfl, rfl, rfl, rfl, rfl⟩, rfl, ?_, ⟨h, part, rfl, hf, hpart⟩, _, hfresh _ ▸ hr, ?_, ?_⟩
  · dsimp only
    unfold Wire.Sender.next
    dsimp only
    rw [hwhole, if_neg (by rw [hv]; simp only [Bool.true_eq_false, false_or]; omega), if_pos (Nat.zero_add _)]
  · simp [Wire.Sender.progress, hwhole]
  · simp [Wire.Sender.progress, hwhole]

/-- An exchange whose accesses are put off at most seven times in a row, while its time is not up, never
fails; it is complete after as many accesses as the packets have pieces, and one more to announce and one
to clear each packet of the reply. The branches got the request as it was encoded, and the result is their
reply to it. -/
theorem exchange_exact {root generation deadline : Nat} {route : Route} {sequence : Bit} {request : Wire.Request}
    (hinit : Work.init root generation deadline route sequence request = .ok w₀)
    (hsent : Sent answer packetBytes { w₀.sender with offset := 0 } (respond w₀.body))
    (hreply : Wire.reply w₀.request answer = .ok reply) {choices : List (Nat × Choice)} (hp : patient 7 choices) :
    ({ work := w₀, sink := { assembly := w₀.assembly, behind } } : Link).drive respond choices = .error .Deadline ∨
      ∃ l, ({ work := w₀, sink := { assembly := w₀.assembly, behind } } : Link).drive respond choices = .ok l ∧
        l.served ≤ pieces w₀.packet + toRead (respond w₀.body) ∧
        (l.work.stage = .complete ↔ l.served = pieces w₀.packet + toRead (respond w₀.body)) ∧
        (l.work.stage = .complete → l.work.result generation = .ok reply ∧ l.sink.outbox = []) := by
  obtain ⟨hfresh, hassembly, hwhole, hpacket, htaken⟩ := init_fresh hinit
  have hcoming := (coming_of_sent hsent).offset
  have hnonempty : 0 < answer.length := by
    generalize respond w₀.body = packets at hsent
    cases hsent with
    | done hn => exact (next_cases hn).2.1
    | more hn => exact (next_cases hn).2.1
  have hd : Deal respond w₀ answer reply :=
    ⟨hassembly, hpacket, hwhole, htaken, hcoming, hnonempty, hreply⟩
  have hpos : 0 < w₀.packet.length := by
    obtain ⟨h, part, hpk, hf, hpart⟩ := hpacket
    have hpayload := hf.payload
    rw [hpk, Wire.packet_length hpart]
    omega
  have hstart : Inv respond w₀ answer 7 { work := w₀, sink := { assembly := w₀.assembly, behind } } := by
    refine ⟨hfresh.failure, hfresh.pending, rfl, ⟨_, Nat.zero_add _, ?_⟩, .inr (by dsimp only; rw [hfresh.retries])⟩
    unfold Place
    dsimp only
    rw [hfresh.stage]
    refine ⟨rfl, hfresh.count, by rw [hfresh.cursor]; exact hpos, by rw [hfresh.cursor]; rfl, rfl, rfl, ?_⟩
    rw [hfresh.cursor]
    rfl
  refine (drive_inv hd hstart hp).imp_right fun ⟨l, patience, hl, hi⟩ => ⟨l, hl, ?_⟩
  obtain ⟨left, hsum, hplace⟩ := hi.place
  unfold Place at hplace
  have hterms := hi.terms
  simp only [Work.terms, Prod.mk.injEq] at hterms
  refine ⟨by omega, ⟨fun hdone => ?_, fun hall => ?_⟩, fun hdone => ?_⟩
  · rw [hdone] at hplace
    have hleft := hplace.2.2.2
    omega
  · have hzero : left = 0 := by omega
    cases hs : l.work.stage with
    | complete => rfl
    | send =>
      rw [hs] at hplace
      obtain ⟨-, -, hcursor, -, -, -, hleft⟩ := hplace
      omega
    | ready =>
      rw [hs] at hplace
      obtain ⟨o, packets, hc, ho, -, -, hleft⟩ := hplace
      obtain ⟨p, rest, rfl⟩ := hc.nonempty ho
      simp only [toRead, List.map_cons, List.sum_cons] at hleft
      omega
    | read =>
      rw [hs] at hplace
      obtain ⟨o, o', h, part, rest, -, -, -, -, -, -, -, -, -, hleft⟩ := hplace
      omega
    | clear =>
      rw [hs] at hplace
      obtain ⟨o, q, rest, -, -, -, hleft⟩ := hplace
      omega
    | cancelled => exact absurd hs hi.live
  · rw [hdone] at hplace
    obtain ⟨hall, hout, hreceipt, -⟩ := hplace
    refine ⟨?_, hout⟩
    have hbytes : l.work.assembly.complete = true ∧ l.work.assembly.bytes = answer := by
      rw [hall]
      exact ⟨decide_eq_true rfl, List.take_length⟩
    unfold Work.result Wire.assembled
    rw [if_neg, if_neg (by rw [hbytes.1]; decide), hbytes.2]
    · dsimp only
      rw [hterms.2.2.1, hreply]
    · rintro (hn | hn | hn | hn | hn)
      · exact hn hi.failure
      · exact hn (hfresh.generation.symm.trans hterms.1.symm)
      · exact hn hdone
      · exact hn hi.pending
      · exact hreceipt hn

/-! ## An EDID block over a long route -/

/-- The way to a branch nine hops down. -/
def edidRoute : Route := { depth := 9, ports := Vector.ofFn fun i => if i.val = 0 then 3 else 0 }

def edidSender (offset : Nat) : Wire.Sender where
  route := edidRoute
  sequence := 1
  path := false
  broadcast := false
  offset := offset

/-- The reply with a block of the EDID behind port 2. -/
def edidAnswer : List Byte := 0x22 :: 2 :: 128 :: List.replicate 128 0x5a

def edidPacket (start last : Bool) (part : List Byte) : List Byte :=
  packet { route := edidRoute, remaining := 9, start, last, sequence := 1, payloadBytes := part.length + 1 } part

/-- Its four packets, of 48, 48, 48 and 23 bytes. -/
def edidPackets : List (List Byte) :=
  [edidPacket true false (edidAnswer.take 39), edidPacket false false ((edidAnswer.drop 39).take 39),
    edidPacket false false ((edidAnswer.drop 78).take 39), edidPacket false true (edidAnswer.drop 117)]

/-- The first access is put off twice, the first announcement comes late. -/
def edidChoices : List (Nat × Choice) :=
  [(0, .defer), (5, .busy 3 20), (0, .serve 0 []), (7, .serve 0 []), (0, .idle 0x20 [1, 2])] ++
    List.replicate 19 (3, .serve 0 [0xff])

/-- The exchange over a fresh link. -/
def edidLink (w₀ : Work) : Link := { work := w₀, sink := { assembly := w₀.assembly } }

theorem edid_sent : Sent edidAnswer packetBytes (edidSender 0) edidPackets := by
  have hnext : (edidSender 0).next edidAnswer packetBytes = .ok (edidPackets[0]?, edidSender 39) ∧
      (edidSender 39).next edidAnswer packetBytes = .ok (edidPackets[1]?, edidSender 78) ∧
      (edidSender 78).next edidAnswer packetBytes = .ok (edidPackets[2]?, edidSender 117) ∧
      (edidSender 117).next edidAnswer packetBytes = .ok (edidPackets[3]?, edidSender 131) ∧
      (edidSender 131).next edidAnswer packetBytes = .ok (none, edidSender 131) := by decide +kernel
  obtain ⟨h₀, h₁, h₂, h₃, h₄⟩ := hnext
  exact .more h₀ (.more h₁ (.more h₂ (.more h₃ (.done h₄))))

/-- A request of two pieces and a reply of four packets take 21 accesses, whatever is put off; so the
exchange of `edidChoices` ends with the block. -/
theorem exchange_exact_edid : ∃ w₀, Work.init 1 1 1000000000 edidRoute 1 (.edid 2 0) = .ok w₀ ∧
    (∀ choices, patient 7 choices →
      (edidLink w₀).drive (fun _ => edidPackets) choices = .error .Deadline ∨
        ∃ l, (edidLink w₀).drive (fun _ => edidPackets) choices = .ok l ∧ l.served ≤ 21 ∧
          (l.work.stage = .complete ↔ l.served = 21)) ∧
    ∃ l, (edidLink w₀).drive (fun _ => edidPackets) edidChoices = .ok l ∧ l.served = 21 ∧
      l.work.result 1 = .ok (.data 2 (List.replicate 128 0x5a)) ∧ l.sink.outbox = [] := by
  have hfields : (Work.init 1 1 1000000000 edidRoute 1 (.edid 2 0)).toOption.map (fun w =>
      (w.sender, w.request, w.packet.length, ((edidLink w).drive (fun _ => edidPackets) edidChoices).toOption.map
        Link.served)) = some (edidSender 8, .edid 2 0, 17, some 21) := by decide +kernel
  cases hw : Work.init 1 1 1000000000 edidRoute 1 (.edid 2 0) with
  | error e =>
    rw [hw] at hfields
    cases hfields
  | ok w₀ =>
    rw [hw] at hfields
    obtain ⟨hsender, hrequest, hpacket, hdrive⟩ : w₀.sender = _ ∧ w₀.request = _ ∧ w₀.packet.length = _ ∧ _ := by
      simpa only [Except.toOption, Option.map_some, Option.some.injEq, Prod.mk.injEq] using hfields
    have hsent : Sent edidAnswer packetBytes { w₀.sender with offset := 0 } edidPackets := by
      rw [hsender]
      exact edid_sent
    have hreply : Wire.reply w₀.request edidAnswer = .ok (.data 2 (List.replicate 128 0x5a)) := by
      rw [hrequest]
      decide +kernel
    have hcount : pieces w₀.packet + toRead edidPackets = 21 := by
      unfold pieces
      rw [hpacket]
      decide
    have hrun {choices : List (Nat × Choice)} (hp : patient 7 choices) :=
      @exchange_exact (fun _ => edidPackets) w₀ edidAnswer _ [] _ _ _ _ _ _ hw hsent hreply choices hp
    simp only [hcount] at hrun
    refine ⟨w₀, rfl, fun choices hp => ?_, ?_⟩
    · rcases hrun hp with hdead | ⟨l, hl, hle, hiff, -⟩
      · exact .inl hdead
      · exact .inr ⟨l, hl, hle, hiff⟩
    · have hp : patient 7 edidChoices := by
        simp [patient, edidChoices, Choice.tolerated, Choice.after]
      rcases hrun hp with hdead | ⟨l, hl, -, hiff, hdone⟩
      · unfold edidLink at hdrive
        rw [hdead] at hdrive
        cases hdrive
      · unfold edidLink at hdrive
        rw [hl] at hdrive
        have hserved : l.served = 21 := Option.some.inj hdrive
        obtain ⟨hresult, houtbox⟩ := hdone (hiff.mpr hserved)
        exact ⟨l, hl, hserved, hresult, houtbox⟩

end Carrier
end Mst
end NvidiaGsp
