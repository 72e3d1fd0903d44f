import NvidiaGsp.Mst.WireSpec

/-!
# Mst.WireRuns

A message on its way through packets. `Sent` is the sender called until it has nothing left;
`finalHop` is what the last branch does to a packet before it hands it on, and `receive` is the
assembly behind it. The sender at an offset and the assembly with that many bytes belong together
(`sent_from`), so a message arrives whole, and only with its last packet (`framing_exact`).
-/

namespace NvidiaGsp
namespace Mst
namespace Wire

/-- The packets of a message, in order. -/
inductive Sent (body : List Byte) (room : Nat) : Sender → List (List Byte) → Prop where
  | done {s s' : Sender} (h : s.next body room = .ok (none, s')) : Sent body room s []
  | more {s s' : Sender} {packet : List Byte} {rest : List (List Byte)}
      (h : s.next body room = .ok (some packet, s')) (hrest : Sent body room s' rest) :
      Sent body room s (packet :: rest)

/-- The last hop of the route: nothing remains, under a new checksum. -/
def finalHop (packet : List Byte) : List Byte :=
  sealed { readHeader packet with remaining := 0 } ++ packet.drop (readHeader packet).size

def receive (a : Assembly) (packet : List Byte) : Option Assembly :=
  match decode (finalHop packet) with
  | .error _ => none
  | .ok frame =>
    match a.consume ⟨frame.header.toHeader, frame.body⟩ with
    | .error _ => none
    | .ok a' => some a'

def feed (a : Assembly) (packets : List (List Byte)) : Option Assembly := packets.foldlM receive a

/-- `Assembly.body`. -/
def assembled (a : Assembly) : Except Error (List Byte) :=
  if a.complete = false then .error .Stale else .ok a.bytes

/-- The assembly for the replies to a sender. -/
def Sender.assembly (s : Sender) : Assembly where
  route := if s.broadcast then {} else s.route
  sequence := s.sequence
  path := s.path
  broadcast := s.broadcast

/-! ## One packet -/

variable {h : Header} {part body : List Byte} {s : Sender} {room o : Nat}

/-- A part of a message behind its header, with its checksum. -/
def packet (h : Header) (part : List Byte) : List Byte := sealed h ++ (part ++ [bodyCrc part])

theorem packet_length (hpart : part.length + 1 = h.payloadBytes) :
    (packet h part).length = h.size + h.payloadBytes := by
  simp only [packet, List.length_append, sealed_length, List.length_singleton]
  omega

theorem decode_packet (hf : h.Fit) {part : List Byte} (hpart : part.length + 1 = h.payloadBytes) :
    decode (packet h part) = .ok ⟨h, part, h.size + h.payloadBytes⟩ := by
  have hlen := packet_length hpart
  have hused : h.size + h.payloadBytes - 1 = h.size + part.length := by omega
  have hbody : ((packet h part).take (h.size + part.length)).drop h.size = part := by
    rw [packet, ← sealed_length (h := h), List.take_append, List.drop_append_of_le_length (by simp)]
    simp
  have hlast : (packet h part).getD (h.size + part.length) 0 = bodyCrc part := by
    rw [packet, ← List.append_assoc, ← sealed_length (h := h), ← List.length_append]
    simp
  apply decode_ok.2
  dsimp only
  rw [hused, hbody, hlast, hlen]
  exact ⟨decodeHeader_sealed hf _, rfl, Nat.le_refl _, rfl, rfl⟩

theorem Header.Fit.final (hf : h.Fit) : ({ h with remaining := 0 } : Header).Fit :=
  ⟨hf.valid, hf.payload, hf.fits, fun hb => ⟨(hf.toAll hb).1, Nat.zero_le _⟩, fun _ => Nat.zero_le _⟩

theorem finalHop_packet (hf : h.Fit) : finalHop (packet h part) = packet { h with remaining := 0 } part := by
  unfold finalHop packet
  rw [readHeader_sealed hf]
  have hdrop : (sealed h ++ (part ++ [bodyCrc part])).drop h.size = part ++ [bodyCrc part] := by
    rw [← sealed_length (h := h), List.drop_left]
  rw [hdrop]

/-! ## The sender -/

/-- The header of the next packet. -/
def Sender.label (s : Sender) (body : List Byte) (count : Nat) : Header where
  route := if s.broadcast then {} else s.route
  remaining := if s.broadcast then 6 else s.route.depth
  broadcast := s.broadcast
  path := s.path
  start := s.offset == 0
  last := s.offset + count == body.length
  sequence := s.sequence
  payloadBytes := count + 1

/-- How much of the message the next packet takes. -/
def Sender.count (s : Sender) (body : List Byte) : Nat :=
  min (body.length - s.offset) (packetBytes - (s.label body 0).size - 1)

theorem label_fit (hv : s.route.valid = true) {count : Nat} (hpos : 0 < count)
    (hfits : (s.label body count).size + count + 1 ≤ packetBytes) : (s.label body count).Fit := by
  refine ⟨?_, ?_, hfits, fun hb => ?_, fun hb => ?_⟩
  · unfold Sender.label
    dsimp only
    split
    · decide
    · exact hv
  · exact Nat.succ_le_succ hpos
  · have hb : s.broadcast = true := hb
    simp [Sender.label, hb]
  · have hb : s.broadcast = false := hb
    simp [Sender.label, hb]

theorem label_size (hv : s.route.valid = true) (body : List Byte) (count : Nat) : (s.label body count).size ≤ 10 := by
  have hd := (valid_iff.1 hv).1
  unfold Header.size Sender.label
  dsimp only
  split
  · decide
  · omega

theorem next_packet (hv : s.route.valid = true) (hlen : body.length ≤ messageBytes)
    (ho : s.offset < body.length) (hroom : packetBytes ≤ room) :
    0 < s.count body ∧ s.offset + s.count body ≤ body.length ∧
      (s.label body (s.count body)).Fit ∧
      s.next body room = .ok (some (packet (s.label body (s.count body))
        ((body.drop s.offset).take (s.count body))), { s with offset := s.offset + s.count body }) := by
  have hsize := label_size hv body 0
  have hcount : s.count body ≤ body.length - s.offset ∧
      s.count body ≤ packetBytes - (s.label body 0).size - 1 ∧ 0 < s.count body := by
    unfold Sender.count
    simp only [packetBytes] at *
    omega
  have hsame : (s.label body (s.count body)).size = (s.label body 0).size := rfl
  have hfit : (s.label body (s.count body)).Fit := by
    apply label_fit hv hcount.2.2
    simp only [packetBytes] at *
    omega
  refine ⟨hcount.2.2, by omega, hfit, ?_⟩
  have hencode : encodeHeader (s.label body (s.count body)) room = .ok (sealed (s.label body (s.count body))) := by
    refine encodeHeader_ok.2 ⟨⟨hfit, fun hb => ?_⟩, ?_, rfl⟩
    · have hb : s.broadcast = true := hb
      simp [Sender.label, hb]
    · simp only [packetBytes] at *
      omega
  unfold Sender.next
  rw [if_neg, if_neg (by omega)]
  · dsimp only
    rw [if_neg]
    · split
      · rename_i e he
        cases he.symm.trans hencode
      · rename_i bytes he
        obtain rfl : bytes = sealed (s.label body (s.count body)) := Except.ok.inj (he.symm.trans hencode)
        simp [packet, Sender.count, Sender.label, Header.size]
    · have hfits : (s.label body (s.count body)).size + (s.count body + 1) ≤ packetBytes := hfit.fits
      change ¬ room < (s.label body (s.count body)).size + s.count body + 1
      omega
  · rw [hv]
    simp only [Bool.true_eq_false, false_or]
    omega

/-! ## The message -/

/-- The assembly that has the first `o` bytes of a message. -/
def Sender.progress (s : Sender) (body : List Byte) (o : Nat) : Assembly :=
  { s.assembly with bytes := body.take o, started := decide (o ≠ 0), complete := decide (o = body.length) }

/-- A frame that an assembly takes. -/
structure Matches (a : Assembly) (frame : Mst.Fragment) : Prop where
  unfinished : a.complete = false
  arrived : frame.header.remaining = 0
  route : a.route = frame.header.route
  sequence : a.sequence = frame.header.sequence
  path : a.path = frame.header.path
  broadcast : a.broadcast = frame.header.broadcast
  start : a.started ≠ frame.header.start
  nonempty : 0 < frame.body.length
  room : frame.body.length ≤ messageBytes - a.bytes.length

theorem Matches.consume {a : Assembly} {frame : Mst.Fragment} (h : Matches a frame) : a.consume frame =
    .ok { a with bytes := a.bytes ++ frame.body, started := true, complete := frame.header.last } := by
  have hroom := h.room
  have hnonempty := h.nonempty
  unfold Assembly.consume
  dsimp only
  rw [if_neg, if_neg (by omega)]
  rintro (hn | hn | hn | hn | hn | hn | hn)
  · rw [h.unfinished] at hn
    cases hn
  · exact hn h.arrived
  · exact hn h.route
  · exact hn h.sequence
  · exact hn h.path
  · exact hn h.broadcast
  · exact h.start hn

/-- A packet takes the assembly from the sender's offset to the next. -/
theorem receive_packet (hf : (s.label body (s.count body)).Fit) (hpos : 0 < s.count body)
    (hfits : s.offset + s.count body ≤ body.length) (hlen : body.length ≤ messageBytes) :
    receive (s.progress body s.offset)
      (packet (s.label body (s.count body)) ((body.drop s.offset).take (s.count body))) =
      some (s.progress body (s.offset + s.count body)) := by
  have hpart : ((body.drop s.offset).take (s.count body)).length = s.count body := by
    rw [List.length_take, List.length_drop]
    omega
  have htake : body.take s.offset ++ (body.drop s.offset).take (s.count body) =
      body.take (s.offset + s.count body) := by
    rw [List.take_add]
  have hbytes : (body.take s.offset).length = s.offset := by
    rw [List.length_take]
    omega
  have hdecode := decode_packet hf.final
    (by rw [hpart]; rfl : ((body.drop s.offset).take (s.count body)).length + 1 = _)
  have hmatches : Matches (s.progress body s.offset)
      ⟨({ s.label body (s.count body) with remaining := 0 } : Header).toHeader,
        (body.drop s.offset).take (s.count body)⟩ := by
    refine ⟨?_, rfl, rfl, rfl, rfl, rfl, ?_, ?_, ?_⟩
    · simp only [Sender.progress, decide_eq_false_iff_not]
      omega
    · by_cases hz : s.offset = 0 <;> simp [Sender.progress, Sender.label, hz]
    · rw [hpart]
      exact hpos
    · simp only [Sender.progress, hpart, hbytes]
      omega
  unfold receive
  rw [finalHop_packet hf, hdecode]
  dsimp only
  rw [hmatches.consume]
  have hstarted : decide (s.offset + s.count body ≠ 0) = true := by
    rw [decide_eq_true_eq]
    omega
  unfold Sender.progress
  rw [hstarted, ← htake]
  rfl

theorem Sent.length_pos {packets : List (List Byte)} (h : Sent body room s packets)
    (hlt : s.offset < body.length) (hv : s.route.valid = true) (hlen : body.length ≤ messageBytes)
    (hroom : packetBytes ≤ room) : packets ≠ [] := by
  cases h with
  | done hnext =>
    obtain ⟨-, -, -, hsome⟩ := next_packet hv hlen hlt hroom
    rw [hsome] at hnext
    cases hnext
  | more => exact List.cons_ne_nil _ _

/-- What each packet of a message is: well formed, and marked by its place. -/
structure Framed (o : Nat) (packets : List (List Byte)) (n : Nat) (p : List Byte) (f : Fragment) : Prop where
  decoded : decode p = .ok f
  used : f.used = p.length
  small : p.length ≤ packetBytes
  start : f.header.start = true ↔ o = 0 ∧ n = 0
  last : f.header.last = true ↔ n + 1 = packets.length

/-- The packets from an offset on, and the assembly behind them. -/
theorem sent_from (hv : s.route.valid = true) (hlen : body.length ≤ messageBytes)
    (hroom : packetBytes ≤ room) (hlt : s.offset < body.length) : ∃ packets, Sent body room s packets ∧
    (∀ n p, packets[n]? = some p → ∃ f, Framed s.offset packets n p f) ∧
    ∀ m ≤ packets.length, ∃ o, feed (s.progress body s.offset) (packets.take m) = some (s.progress body o) ∧
      (o = body.length ↔ m = packets.length) := by
  induction hn : body.length - s.offset using Nat.strong_induction_on generalizing s with
  | _ n ih =>
  obtain ⟨hpos, hfits, hf, hnext⟩ := next_packet hv hlen hlt hroom
  have hreceive := receive_packet hf hpos hfits hlen
  have hpart : ((body.drop s.offset).take (s.count body)).length = s.count body := by
    rw [List.length_take, List.length_drop]
    omega
  have hpayload : ((body.drop s.offset).take (s.count body)).length + 1 =
      (s.label body (s.count body)).payloadBytes := by
    rw [hpart]
    rfl
  generalize hp : packet (s.label body (s.count body)) ((body.drop s.offset).take (s.count body)) = p at *
  have hdecode := hp ▸ decode_packet hf hpayload
  have hplen := hp ▸ packet_length hpayload
  have hhead (packets : List (List Byte)) (hlast : s.offset + s.count body = body.length ↔ 1 = packets.length) :
      ∃ f, Framed s.offset packets 0 p f := by
    refine ⟨_, hdecode, hplen.symm, hplen ▸ hf.fits, ?_, ?_⟩
    · simp [Sender.label]
    · simpa [Sender.label] using hlast
  by_cases hend : s.offset + s.count body = body.length
  · have hdone : Sent body room { s with offset := s.offset + s.count body } [] := by
      refine .done (show Sender.next _ body room =
        .ok (none, { s with offset := s.offset + s.count body }) from ?_)
      unfold Sender.next
      dsimp only
      rw [if_neg (by rw [hv]; simp only [Bool.true_eq_false, false_or]; omega), if_pos hend]
    refine ⟨[p], .more hnext hdone, fun n q hq => ?_, fun m hm => ?_⟩
    · cases n with
      | zero =>
        cases hq
        exact hhead [p] ⟨fun _ => rfl, fun _ => hend⟩
      | succ n => cases hq
    · cases m with
      | zero => exact ⟨s.offset, rfl, by simp; omega⟩
      | succ m =>
        have hm : m = 0 := by simpa using hm
        subst hm
        exact ⟨body.length, by simp [feed, hreceive, hend], by simp⟩
  · obtain ⟨packets, hsent, hframed, hfeed⟩ := ih (body.length - (s.offset + s.count body)) (by omega)
      (s := { s with offset := s.offset + s.count body }) hv (by dsimp only; omega) rfl
    have hne := hsent.length_pos (by dsimp only; omega) hv hlen hroom
    have hposlen := List.length_pos_iff.mpr hne
    refine ⟨p :: packets, .more hnext hsent, fun n q hq => ?_, fun m hm => ?_⟩
    · cases n with
      | zero =>
        cases hq
        refine hhead _ ⟨fun h => absurd h hend, fun h => ?_⟩
        rw [List.length_cons] at h
        omega
      | succ n =>
        obtain ⟨f, hfr⟩ := hframed n q hq
        refine ⟨f, hfr.decoded, hfr.used, hfr.small, ?_, ?_⟩
        · rw [hfr.start]
          dsimp only
          omega
        · rw [hfr.last, List.length_cons]
          omega
    · cases m with
      | zero => exact ⟨s.offset, rfl, by simp; omega⟩
      | succ m =>
        obtain ⟨o, hfed, hiff⟩ := hfeed m (by simpa using hm)
        refine ⟨o, ?_, by rw [hiff, List.length_cons]; omega⟩
        simp only [feed, List.take_succ_cons, List.foldlM_cons, hreceive]
        exact hfed

/-! ## Any frames -/

/-- The assembly behind a list of frames; those it refuses leave it as it is. -/
def consumeAll (a : Assembly) (frames : List Mst.Fragment) : Assembly :=
  frames.foldl (fun a frame => match a.consume frame with
    | .error _ => a
    | .ok a' => a') a

theorem consume_bytes {a a' : Assembly} {frame : Mst.Fragment} (hle : a.bytes.length ≤ messageBytes)
    (h : a.consume frame = .ok a') : a'.bytes.length ≤ messageBytes := by
  unfold Assembly.consume at h
  dsimp only at h
  split at h
  · cases h
  split at h
  · cases h
  · cases h
    dsimp only
    rw [List.length_append]
    omega

theorem consumeAll_bytes (frames : List Mst.Fragment) {a : Assembly} (hle : a.bytes.length ≤ messageBytes) :
    (consumeAll a frames).bytes.length ≤ messageBytes := by
  induction frames generalizing a with
  | nil => exact hle
  | cons frame frames ih =>
    apply ih
    dsimp only
    split
    · exact hle
    · rename_i ha
      exact consume_bytes hle ha

/-- Headers read back and are written as they were read; a message of a valid sender goes out in
packets of at most 48 bytes, each of which decodes, and the assembly behind the last hop is complete
with the message after the last of them and not before; no assembly grows past 512 bytes. -/
theorem framing_exact :
    (∀ h room bytes, encodeHeader h room = .ok bytes → decodeHeader bytes = .ok h) ∧
    (∀ input h room bytes, decodeHeader input = .ok h → encodeHeader h room = .ok bytes →
      bytes = input.take h.size) ∧
    (∀ (s : Sender) (body : List Byte) (room : Nat), s.route.valid = true → s.offset = 0 →
      0 < body.length → body.length ≤ messageBytes → packetBytes ≤ room →
      ∃ packets, Sent body room s packets ∧
        (∀ n p, packets[n]? = some p → ∃ f, decode p = .ok f ∧ f.used = p.length ∧
          p.length ≤ packetBytes ∧ (f.header.start = true ↔ n = 0) ∧
          (f.header.last = true ↔ n + 1 = packets.length)) ∧
        ∀ m ≤ packets.length, ∃ a, feed s.assembly (packets.take m) = some a ∧
          (a.complete = true ↔ m = packets.length) ∧
          (m = packets.length → assembled a = .ok body)) ∧
    ∀ (s : Sender) (frames : List Mst.Fragment),
      (consumeAll s.assembly frames).bytes.length ≤ messageBytes := by
  refine ⟨fun h room bytes he => ?_, fun input h room bytes hd he => encodeHeader_decoded hd he,
    fun s body room hv ho hpos hlen hroom => ?_, fun s frames => consumeAll_bytes frames (Nat.zero_le _)⟩
  · obtain ⟨⟨hf, -⟩, -, rfl⟩ := encodeHeader_ok.mp he
    rw [← List.append_nil (sealed h)]
    exact decodeHeader_sealed hf []
  · have hfresh : s.assembly = s.progress body s.offset := by
      have hne : ¬ 0 = body.length := by omega
      simp [Sender.progress, Sender.assembly, ho, hne]
    obtain ⟨packets, hsent, hframed, hfeed⟩ := sent_from hv hlen hroom (by rw [ho]; exact hpos)
    refine ⟨packets, hsent, fun n p hp => ?_, fun m hm => ?_⟩
    · obtain ⟨f, hf⟩ := hframed n p hp
      have hstart := hf.start
      rw [ho] at hstart
      exact ⟨f, hf.decoded, hf.used, hf.small, by simpa using hstart, hf.last⟩
    · obtain ⟨o, hfed, hiff⟩ := hfeed m hm
      refine ⟨_, hfresh ▸ hfed, ?_, fun hlast => ?_⟩
      · rw [← hiff]
        simp [Sender.progress]
      · obtain rfl := hiff.mpr hlast
        simp [assembled, Sender.progress]

/-- The sender of a path request over a route of two hops. -/
def hopSender : Sender where
  route := { depth := 2, ports := (Vector.replicate 14 0).set 0 3 }
  sequence := 1
  path := true
  broadcast := false

/-- A message of a hundred bytes over a route of two hops: each packet decodes, the assembly is open
before the last of them, and has the message after it. -/
theorem framing_exact_two_hops : ∃ packets a,
    Sent (List.replicate 100 0x5a) 48 hopSender packets ∧
      (∀ n p, packets[n]? = some p → ∃ f, decode p = .ok f ∧ f.used = p.length ∧
        p.length ≤ packetBytes ∧ (f.header.start = true ↔ n = 0) ∧
          (f.header.last = true ↔ n + 1 = packets.length)) ∧
      (∀ m < packets.length, ∃ b, feed hopSender.assembly (packets.take m) = some b ∧
        b.complete = false) ∧
      feed hopSender.assembly packets = some a ∧ a.complete = true ∧
      assembled a = .ok (List.replicate 100 0x5a) := by
  obtain ⟨packets, hsent, hframes, hfed⟩ := framing_exact.2.2.1 hopSender (List.replicate 100 0x5a) 48
    (by decide) rfl (by simp) (by simp [messageBytes]) (Nat.le_refl _)
  obtain ⟨a, ha, hcomplete, hbody⟩ := hfed packets.length (Nat.le_refl _)
  rw [List.take_length] at ha
  refine ⟨packets, a, hsent, hframes, fun m hm => ?_, ha, hcomplete.mpr rfl, hbody rfl⟩
  obtain ⟨b, hb, hiff, -⟩ := hfed m (Nat.le_of_lt hm)
  exact ⟨b, hb, Bool.eq_false_iff.mpr fun hc => absurd (hiff.mp hc) (Nat.ne_of_lt hm)⟩

end Wire
end Mst
end NvidiaGsp
