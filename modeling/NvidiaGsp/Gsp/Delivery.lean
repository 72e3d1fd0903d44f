import NvidiaGsp.Gsp.TransportReceive
import NvidiaGsp.Gsp.ProducerInv

/-!
# Gsp.Delivery

The receive path against an honest producer. `Synced f n s d` says that session `s` has acknowledged
the first `n` records of device `d`: its cursors are the absolute positions of the ring modulo its
slots, so cyclic distances become differences and the peer checks never fire. A receive then returns
exactly record `n`.
-/

namespace NvidiaGsp
namespace Gsp

open Bytes Call Cyclic Memory

/-! ## Windows of the ring -/

section

variable {f : Firmware} {a : Nat} {d : Device}

/-- The stream bytes of slots that do not wrap. -/
theorem Serves.window {b m i : Nat} (h : Serves f a d) (hb : a ≤ b)
    (hm : b % f.layout.slots + m ≤ f.layout.slots) (hs : b + m ≤ d.stored)
    (hi : i < m * elementBytes) : d.status (Device.slotOffset f b + i) =
      (stream 0 d.records).getD (b * elementBytes + i) 0 := by
  obtain ⟨q, j, rfl, hj⟩ : ∃ q j, i = q * elementBytes + j ∧ j < elementBytes :=
    ⟨i / elementBytes, i % elementBytes, (Nat.div_add_mod' i elementBytes).symm,
      Nat.mod_lt i (by decide)⟩
  have hq : q < m := by
    simp only [elementBytes] at hi
    omega
  have hmod : (b + q) % f.layout.slots = b % f.layout.slots + q := by
    rw [← Nat.mod_add_mod, Nat.mod_eq_of_lt (by omega)]
  have hdata := h.data (b + q) (by omega) (by omega) j hj
  unfold Device.slotOffset at *
  rw [hmod] at hdata
  have haddr : f.layout.entriesOffset + b % f.layout.slots * elementBytes + (q * elementBytes + j) =
      f.layout.entriesOffset + (b % f.layout.slots + q) * elementBytes + j := by
    rw [Nat.add_mul]
    omega
  have hindex : b * elementBytes + (q * elementBytes + j) = (b + q) * elementBytes + j := by
    rw [Nat.add_mul, Nat.add_assoc]
  rw [haddr, hdata, hindex]

end

theorem Grows.take {d d' : Device} {n : Nat} (g : Grows d d') (hn : n ≤ d.records.length) :
    d'.records.take n = d.records.take n := by
  obtain ⟨t, ht⟩ := g.records
  rw [← ht, List.take_append_of_le_length hn]

theorem Grows.length {d d' : Device} (g : Grows d d') : d.records.length ≤ d'.records.length :=
  g.records.length_le

/-! ## The session in step with the producer -/

/-- The absolute slot of record `n`. -/
def Device.start (d : Device) (n : Nat) : Nat := slotsOf (d.records.take n)

/-- The session has acknowledged `n` records, and holds one more while a ticket is pending. -/
structure Synced (f : Firmware) (n : Nat) (s : Session) (d : Device) : Prop where
  link : ∃ link, s.link = some link ∧ link.status.layout = f.layout ∧ link.statusRead = f.readAt
  profile : s.profile.admitted = true
  count : n ≤ d.records.length
  serves : Serves f (d.start n) d
  rxRead : s.rxRead = d.start n % f.layout.slots
  sequence : s.rxSequence = BitVec.ofNat 32 n
  peer : ∃ p, d.start n ≤ p ∧ p ≤ d.published ∧ s.rxPeerWrite = p % f.layout.slots ∧
    ∀ t, s.pending = some t → d.start (n + 1) ≤ p
  pending : ∀ t, s.pending = some t → n < d.records.length ∧
    t.next = d.start (n + 1) % f.layout.slots

variable {f : Firmware} {n : Nat} {script : Script}

theorem Synced.grow {s : Session} {d d' : Device} (h : Synced f n s d) (g : Grows d d')
    (hs : Serves f (d.start n) d') : Synced f n s d' := by
  have htake : d'.start n = d.start n := by
    unfold Device.start
    rw [g.take h.count]
  have hlen := g.length
  have hnext (t : Ticket) (ht : s.pending = some t) : d'.start (n + 1) = d.start (n + 1) := by
    unfold Device.start
    rw [g.take (h.pending t ht).1]
  obtain ⟨p, hlow, hhigh, hp, hheld⟩ := h.peer
  refine ⟨h.link, h.profile, Nat.le_trans h.count hlen, by rw [htake]; exact hs,
    by rw [htake]; exact h.rxRead, h.sequence,
    ⟨p, by rw [htake]; exact hlow, Nat.le_trans hhigh g.published, hp, ?_⟩, ?_⟩
  · intro t ht
    rw [hnext t ht]
    exact hheld t ht
  · intro t ht
    obtain ⟨hlt, heq⟩ := h.pending t ht
    exact ⟨Nat.lt_of_lt_of_le hlt hlen, by rw [hnext t ht]; exact heq⟩

theorem Synced.quiet {s : Session} {d d' : Device} (h : Synced f n s d)
    (hq : Session.Quiet (Device.port f script) d d') : Synced f n s d' ∧ Grows d d' := by
  obtain ⟨hs, g⟩ := h.serves.quiet hq
  exact ⟨h.grow g hs, g⟩

theorem Synced.clock {s : Session} {d : Device} {now : Nat} (h : Synced f n s d) :
    Synced f n { s with lastClock := now } d :=
  ⟨h.link, h.profile, h.count, h.serves, h.rxRead, h.sequence, h.peer, h.pending⟩

/-- The session went on in step, from `w` to `w'`. -/
structure Kept (f : Firmware) (n : Nat) (w w' : World Device) : Prop where
  synced : Synced f n w'.session w'.env
  grows : Grows w.env w'.env
  session : ∃ now, w'.session = { w.session with lastClock := now }

theorem Kept.trans {w w' w'' : World Device} (h : Kept f n w w') (h' : Kept f n w' w'') :
    Kept f n w w'' := by
  obtain ⟨now, hn⟩ := h.session
  obtain ⟨now', hn'⟩ := h'.session
  exact ⟨h'.synced, h.grows.trans h'.grows, now', by rw [hn', hn]⟩

theorem Kept.state {w w' : World Device} (h : Kept f n w w') :
    w'.session.state = w.session.state := by
  obtain ⟨now, hn⟩ := h.session
  rw [hn]

/-- A read sees one moment of the device, between two others. -/
theorem reads_kept {w w' : World Device} {deadline offset len : Nat} {queue : Queue}
    {bytes : List Byte} (h : Synced f n w.session w.env)
    (hr : Session.Reads (Device.port f script) deadline queue offset len bytes w w') :
    Kept f n w w' ∧ ∃ d, Synced f n w.session d ∧ Grows w.env d ∧ Grows d w'.env ∧
      bytes = peek (d.mem queue) offset len := by
  obtain ⟨d₁, d₂, content, hq₁, hread, hbytes, hq₂⟩ := hr.port
  obtain ⟨now, hnow⟩ := hr.session
  obtain ⟨h₁, g₁⟩ := h.quiet hq₁
  obtain ⟨hs, g⟩ := h₁.serves.advance script
  have h₂ := h₁.grow g hs
  have hread' : Device.read f script queue offset d₁ = (.ok content, d₂) := hread
  unfold Device.read at hread'
  split at hread'
  · cases hread'
  · cases hread'
    obtain ⟨h₃, g₃⟩ := h₂.quiet hq₂.quiet
    refine ⟨⟨?_, (g₁.trans g).trans g₃, now, hnow⟩, _, h₂, g₁.trans g, g₃, hbytes⟩
    rw [hnow]
    exact h₃.clock

/-! ## Gathering a record -/

/-- The encoded record `n`. -/
def Produced.encoded (p : Produced) (n : Nat) : List Byte :=
  frame (BitVec.ofNat 32 n) p.rpc p.payload

theorem records_split {rs : List Produced} {p : Produced} (h : rs[n]? = some p) :
    rs = rs.take n ++ p :: rs.drop (n + 1) := by
  obtain ⟨hlt, rfl⟩ := List.getElem?_eq_some_iff.mp h
  rw [List.getElem_cons_drop, List.take_append_drop]

theorem start_succ {d : Device} {p : Produced} (h : d.records[n]? = some p) :
    d.start (n + 1) = d.start n + p.slots := by
  obtain ⟨hlt, rfl⟩ := List.getElem?_eq_some_iff.mp h
  unfold Device.start
  rw [List.take_succ_eq_append_getElem hlt, slotsOf_append]
  simp

theorem Serves.payload {a : Nat} {d : Device} {p : Produced} (h : Serves f a d)
    (hp : d.records[n]? = some p) : p.payload.length ≤ maxPayloadBytes :=
  h.sized p (List.mem_of_getElem? hp)

/-- The bytes of record `n` in the stream. -/
theorem getD_encoded {a i : Nat} {d : Device} {p : Produced} (h : Serves f a d)
    (hp : d.records[n]? = some p) (hi : i < p.slots * elementBytes) :
    (stream 0 d.records).getD (d.start n * elementBytes + i) 0 = (p.encoded n).getD i 0 := by
  have hlt := (List.getElem?_eq_some_iff.mp hp).1
  have hsized : Sized (d.records.take n) := fun s hs => h.sized s (List.mem_of_mem_take hs)
  have hget := getD_stream_record (d.records.drop (n + 1)) hsized (h.payload hp) hi
  rw [← records_split hp, List.length_take, Nat.min_eq_left (by omega)] at hget
  exact hget

theorem length_encoded {p : Produced} (hp : p.payload.length ≤ maxPayloadBytes) :
    (p.encoded n).length = p.slots * elementBytes := length_frame _ _ hp

/-- A part of record `n` that lies in one piece. -/
theorem peek_part {d : Device} {p : Produced} {k m : Nat} (h : Serves f (d.start n) d)
    (hp : d.records[n]? = some p)
    (hm : (d.start n + k) % f.layout.slots + m ≤ f.layout.slots) (hin : k + m ≤ p.slots)
    (hs : d.start n + k + m ≤ d.stored) :
    peek d.status (Device.slotOffset f (d.start n + k)) (m * elementBytes) =
      ((p.encoded n).drop (k * elementBytes)).take (m * elementBytes) := by
  have hlen := length_encoded (n := n) (h.payload hp)
  have hle : k * elementBytes + m * elementBytes ≤ p.slots * elementBytes := by
    rw [← Nat.add_mul]
    exact Nat.mul_le_mul_right _ hin
  refine peek_eq ?_ fun i hi => ?_
  · rw [List.length_take, List.length_drop, hlen]
    omega
  · rw [h.window (by omega) hm hs hi, getD_part hi, ← getD_encoded h hp (by omega), Nat.add_mul,
      Nat.add_assoc]

/-- The pieces of record `n`, as `spansAt` cuts it. -/
def parts (f : Firmware) (n a : Nat) (p : Produced) : List (List Byte) :=
  let first := min p.slots (f.layout.slots - a % f.layout.slots)
  (p.encoded n).take (first * elementBytes) ::
    if p.slots - first = 0 then [] else [(p.encoded n).drop (first * elementBytes)]

theorem flatten_parts {a : Nat} {p : Produced} (hp : p.payload.length ≤ maxPayloadBytes) :
    (parts f n a p).flatten = p.encoded n := by
  have hlen := length_encoded (n := n) hp
  unfold parts
  dsimp only
  split
  · rename_i h
    have hfirst : min p.slots (f.layout.slots - a % f.layout.slots) = p.slots := by omega
    rw [hfirst, ← hlen, List.take_length]
    simp
  · simp

/-- Every later moment of the device shows the pieces of record `n` in its spans. -/
theorem peek_parts {d : Device} {p : Produced} (h : Serves f (d.start n) d)
    (hp : d.records[n]? = some p) (hpub : d.start n + p.slots ≤ d.published) :
    List.Forall₂ (fun span part => ∀ d', Serves f (d.start n) d' → Grows d d' →
        peek d'.status span.offset span.bytes = part)
      (Ring.spansAt f.layout (d.start n % f.layout.slots) p.slots) (parts f n (d.start n) p) := by
  have hslots := f.valid.slots_bounds
  have hmod := Nat.mod_lt (d.start n) (show 0 < f.layout.slots by omega)
  have hroom := h.room
  have hahead := h.ahead
  have hlater {d' : Device} (g : Grows d d') : d'.start n = d.start n ∧ d'.records[n]? = some p := by
    have hlt := (List.getElem?_eq_some_iff.mp hp).1
    obtain ⟨t, ht⟩ := g.records
    refine ⟨congrArg slotsOf (g.take (Nat.le_of_lt hlt)), ?_⟩
    rw [← ht, List.getElem?_append_left hlt]
    exact hp
  unfold Ring.spansAt parts
  dsimp only
  refine .cons (fun d' h' g => ?_) ?_
  · obtain ⟨hstart, hrec⟩ := hlater g
    have hpub' := g.published
    have hahead' := h'.ahead
    rw [← hstart] at h' ⊢
    have hpeek := peek_part (k := 0) (m := min p.slots (f.layout.slots -
      d'.start n % f.layout.slots)) h' hrec (by rw [Nat.add_zero, hstart]; omega) (by omega) (by
        rw [hstart]
        omega)
    simpa [Device.slotOffset] using hpeek
  · split
    · exact .nil
    · rename_i hsecond
      refine .cons (fun d' h' g => ?_) .nil
      obtain ⟨hstart, hrec⟩ := hlater g
      have hpub' := g.published
      have hahead' := h'.ahead
      have hlen := length_encoded (n := n) (h'.payload hrec)
      rw [← hstart] at h' hmod hsecond ⊢
      have hwrap : (d'.start n + min p.slots (f.layout.slots - d'.start n % f.layout.slots)) %
          f.layout.slots = 0 := by
        rw [Nat.min_eq_right (by omega), ← Nat.mod_add_mod]
        rw [show d'.start n % f.layout.slots + (f.layout.slots - d'.start n % f.layout.slots) =
          f.layout.slots by omega, Nat.mod_self]
      have hpeek := peek_part (k := min p.slots (f.layout.slots -
        d'.start n % f.layout.slots)) (m := p.slots - min p.slots (f.layout.slots -
          d'.start n % f.layout.slots)) h' hrec (by omega) (by omega) (by omega)
      unfold Device.slotOffset at hpeek
      rw [hwrap, Nat.zero_mul, Nat.add_zero] at hpeek
      rw [hpeek, List.take_of_length_le]
      refine Nat.le_of_eq ?_
      rw [List.length_drop, hlen, Nat.sub_mul]

/-! ## Receive -/

theorem Synced.start_eq {s : Session} {d d' : Device} (h : Synced f n s d) (g : Grows d d') :
    d'.start n = d.start n := congrArg slotsOf (g.take h.count)

theorem Grows.record {d d' : Device} {p : Produced} (g : Grows d d')
    (hp : d.records[n]? = some p) : d'.records[n]? = some p := by
  obtain ⟨t, ht⟩ := g.records
  rw [← ht, List.getElem?_append_left (List.getElem?_eq_some_iff.mp hp).1]
  exact hp

/-- Published slots belong to records. -/
theorem Synced.record {s : Session} {d : Device} (h : Synced f n s d)
    (hlt : d.start n < d.published) : ∃ p, d.records[n]? = some p := by
  have hahead := h.serves.ahead
  have hfits := h.serves.fits
  have hn : n < d.records.length := by
    by_contra hge
    unfold Device.start at hlt
    rw [List.take_of_length_le (by omega)] at hlt
    omega
  exact ⟨d.records[n], List.getElem?_eq_getElem hn⟩

section

variable {w : World Device} {deadline : Nat}

theorem readSpans_kept {a : Nat} {d₀ : Device} {spans : List Span} {parts : List (List Byte)}
    (hs : w.session.state ≠ .failed) (h : Synced f n w.session w.env) (ha : w.env.start n = a)
    (hg : Grows d₀ w.env)
    (hp : List.Forall₂ (fun span part => ∀ d', Serves f a d' → Grows d₀ d' →
      peek d'.status span.offset span.bytes = part) spans parts) :
    Spec (Session.readSpans (Device.port f script) deadline spans) w
      (fun bytes w' => bytes = parts.flatten ∧ Kept f n w w')
      (fun e w' => Session.Lost (Device.port f script) e w w') := by
  induction hp generalizing w with
  | nil => exact ⟨rfl, h, .refl _, w.session.lastClock, rfl⟩
  | @cons span part spans parts hpart _ ih =>
    refine .seq (Session.read_spec hs) (fun bytes w₁ h₁ => ?_) fun _ _ h => h.1
    obtain ⟨hk, d, hd, g₁, -, hbytes⟩ := reads_kept h h₁
    have hstart := h.start_eq g₁
    have hserves := hd.serves
    rw [hstart, ha] at hserves
    have hbytes : bytes = part := hbytes.trans (hpart d hserves (hg.trans g₁))
    have hstart₁ := h.start_eq hk.grows
    refine .seq (ih (by rw [hk.state]; exact hs) hk.synced (hstart₁.trans ha) (hg.trans hk.grows))
      (fun rest w₂ h₂ => .pure ⟨?_, hk.trans h₂.2⟩) fun e w₂ h₂ => ?_
    · rw [hbytes, h₂.1]
      rfl
    · obtain ⟨now, hnow⟩ := hk.session
      refine ⟨h₂.lifetime, h₂.failed, Session.Frame.trans ?_ h₂.frame, h₁.reach.trans h₂.env⟩
      rw [hnow]
      exact Session.frame_clock _ _

/-- The prefix of record `n` is recognised. -/
theorem inspectPrefix_encoded {d : Device} {p : Produced} {profile : Profile}
    (hprof : profile.admitted = true) (h : Serves f (d.start n) d) (hp : d.records[n]? = some p)
    (hs : d.start n < d.stored) :
    inspectPrefix profile (peek d.status (Device.slotOffset f (d.start n)) headerBytes) =
      .ok (shapeFor (headerBytes + p.payload.length)) := by
  have hpay := h.payload hp
  have hlen := length_encoded (n := n) hpay
  have hbound := (slots_bounds hpay).1
  have hslots := f.valid.slots_bounds
  have hmod := Nat.mod_lt (d.start n) (show 0 < f.layout.slots by omega)
  have hsmall : headerBytes ≤ elementBytes := by decide
  have hlong : headerBytes ≤ p.slots * elementBytes := by
    simp only [elementBytes] at *
    omega
  rw [← @inspectPrefix_frame profile (BitVec.ofNat 32 n) p.rpc p.payload hprof hpay]
  refine inspectPrefix_congr (by simp) (by rw [← Produced.encoded, hlen]; exact hlong) fun i hi => ?_
  rw [getD_peek hi, h.window (Nat.le_refl _) (m := 1) (by omega) (by omega) (by omega),
    getD_encoded h hp (by omega)]
  rfl

/-- Record `n` is published to its end. -/
def Complete (n : Nat) (d : Device) : Prop :=
  ∃ p, d.records[n]? = some p ∧ d.start n + p.slots ≤ d.published

/-- A receive that fails honestly: by a fault of the port, or because the record goes on behind the
cursor `peer`. -/
def Excused (f : Firmware) (script : Script) (n peer : Nat) (e : Error) (w w' : World Device) :
    Prop :=
  Session.Lost (Device.port f script) e w w' ∨ Kept f n w w' ∧
    ∃ p, w.env.records[n]? = some p ∧ peer < w.env.start n + p.slots

theorem Session.Lost.of_kept {e : Error} {w w' w'' : World Device} (h : Kept f n w w')
    (hr : Session.Reach (Device.port f script) w.env w'.env)
    (h' : Session.Lost (Device.port f script) e w' w'') :
    Session.Lost (Device.port f script) e w w'' := by
  obtain ⟨now, hnow⟩ := h.session
  refine ⟨h'.lifetime, h'.failed, Session.Frame.trans ?_ h'.frame, hr.trans h'.env⟩
  rw [hnow]
  exact Session.frame_clock _ _

/-- The receipt of record `n`. -/
structure Receipt (f : Firmware) (n : Nat) (r : Received) (w w' : World Device) : Prop where
  synced : Synced f n w'.session w'.env
  pending : w'.session.pending = some r.ticket
  state : w'.session.state = w.session.state
  grows : Grows w.env w'.env
  record : ∃ p, w'.env.records[n]? = some p ∧ r.record.rpc = p.rpc ∧ r.record.payload = p.payload

theorem receiveRecord_kept (peer : Nat) (hs : w.session.state ≠ .failed)
    (h : Synced f n w.session w.env) (hlow : w.env.start n < peer) (hhigh : peer ≤ w.env.published)
    (hpeer : w.session.rxPeerWrite = peer % f.layout.slots) :
    Spec (Session.receiveRecord (Device.port f script) deadline f.layout (peer % f.layout.slots)) w
      (fun r w' => Receipt f n r w w') (fun e w' => Excused f script n peer e w w') := by
  obtain ⟨p, hp⟩ := h.record (by omega)
  have hpay := h.serves.payload hp
  have hbounds := slots_bounds hpay
  have hslots := f.valid.slots_bounds
  have hroom := h.serves.room
  have hahead := h.serves.ahead
  have hread : w.session.rxRead < f.layout.slots := by
    rw [h.rxRead]
    exact Nat.mod_lt _ (by omega)
  have hwrite : peer % f.layout.slots < f.layout.slots := Nat.mod_lt _ (by omega)
  have hdist : distance f.layout.slots w.session.rxRead (peer % f.layout.slots) =
      peer - w.env.start n := by
    rw [h.rxRead, distance_mod (by omega) (by omega) (by omega)]
  unfold Session.receiveRecord
  refine .get_bind (.lift_bind (fun e he => ?_) fun first hfirst => ?_)
  · rw [Ring.receive_ok.2 ⟨f.valid, hread, hwrite, by omega, by decide, by omega, rfl⟩] at he
    cases he
  obtain ⟨-, -, -, -, -, -, rfl⟩ := Ring.receive_ok.1 hfirst
  refine .seq (Session.read_spec hs) (fun head w₁ h₁ => ?_) fun _ _ h => .inl h.1
  obtain ⟨k₁, d, hd, g₁, g₂, hhead⟩ := reads_kept h h₁
  have hstart := h.start_eq g₁
  have hhead : inspectPrefix w.session.profile head =
      .ok (shapeFor (headerBytes + p.payload.length)) := by
    have hpub := g₁.published
    have hahead := hd.serves.ahead
    have := inspectPrefix_encoded h.profile hd.serves (g₁.record hp) (by omega)
    rw [hhead, ← this, h.rxRead, ← hstart]
    rfl
  rw [hhead]
  refine .bind (?_ : Spec (Session.orNotReady _ >>= _) _ _ _)
  by_cases hfull : p.slots ≤ peer - w.env.start n
  · rw [show (shapeFor (headerBytes + p.payload.length)).elements = p.slots from rfl,
      Ring.receive_ok.2 ⟨f.valid, hread, hwrite, by omega, hbounds.2, by omega, rfl⟩]
    refine .bind (?_ : Spec (Session.readSpans _ _ _ >>= _) _ _ _)
    have hstart₁ := h.start_eq k₁.grows
    have hparts := peek_parts h.serves hp (by omega)
    rw [← h.rxRead] at hparts
    refine .seq (readSpans_kept (by rw [k₁.state]; exact hs) k₁.synced hstart₁ k₁.grows hparts)
      (fun bytes w₂ h₂ => ?_) fun e w₂ h₂ => .inl (.of_kept k₁ h₁.reach h₂)
    obtain ⟨rfl, k₂⟩ := h₂
    rw [flatten_parts hpay, h.sequence]
    unfold Produced.encoded
    rw [decode_frame h.profile hpay]
    have k := k₁.trans k₂
    obtain ⟨now, hnow⟩ := k.session
    have hp₂ := k.grows.record hp
    have hstart₂ := h.start_eq k.grows
    have hpub₂ := k.grows.published
    refine .bind (Session.orFail_spec (fun e he => by cases he) fun record hrec => ?_)
    cases hrec
    refine Session.update_bind (.pure ⟨?_, rfl, by rw [hnow], k.grows, p, hp₂, rfl, rfl⟩)
    have hsync := k.synced
    refine ⟨hsync.link, hsync.profile, hsync.count, hsync.serves, hsync.rxRead, hsync.sequence,
      ⟨peer, ?_, ?_, ?_, ?_⟩, ?_⟩
    · show w₂.env.start n ≤ peer
      omega
    · show peer ≤ w₂.env.published
      omega
    · rw [hnow]
      exact hpeer
    · intro _ _
      show w₂.env.start (n + 1) ≤ peer
      rw [start_succ hp₂]
      omega
    · intro t ht
      cases ht
      refine ⟨(List.getElem?_eq_some_iff.mp hp₂).1, ?_⟩
      show advance f.layout.slots w.session.rxRead p.slots = _
      rw [start_succ hp₂, hstart₂, h.rxRead, advance_mod (by omega) (by omega)]
  · rw [show (shapeFor (headerBytes + p.payload.length)).elements = p.slots from rfl,
      Ring.receive_unavailable f.valid hread hwrite hbounds (by omega)]
    exact .bind (.inr ⟨k₁, p, hp, by omega⟩)

/-- A call that fails: the session is lost to a fault of the port or has used up its tickets, or it
goes on in step and the call failed for `why`. -/
inductive Fails (f : Firmware) (n : Nat) (why : Prop) (e : Error) (w w' : World Device) : Prop where
  | lost (hl : Session.Lifetime e) (hf : w'.session.state = .failed)
      (hg : w.env.records <+: w'.env.records)
  | exhausted (he : e = .Exhausted) (ht : w.session.nextTicket = maxU64)
      (hf : w'.session.state = .failed) (hg : w.env.records <+: w'.env.records)
  | kept (hs : w'.session.state = w.session.state) (hp : w'.session.pending = w.session.pending)
      (h : Synced f n w'.session w'.env) (hg : Grows w.env w'.env) (hwhy : why)

theorem write_records (d : Device) (queue : Queue) (offset : Nat) (bytes : List Byte) :
    (d.write queue offset bytes).records = d.records := by
  cases queue <;> rfl

theorem act_records (d : Device) (x : Act) : d.records <+: (d.act f x).records := by
  cases x with
  | construct header =>
    unfold Device.act
    dsimp only
    repeat' split
    all_goals exact List.prefix_rfl
  | consume cursor =>
    unfold Device.act
    rw [write_records]
  | append r =>
    unfold Device.act
    dsimp only
    split
    · exact List.prefix_append _ _
    · exact List.prefix_rfl
  | store =>
    unfold Device.act
    dsimp only
    split
    · exact List.prefix_rfl
    · exact List.prefix_rfl
  | publish count =>
    unfold Device.act
    dsimp only
    split
    · exact List.prefix_rfl
    · exact List.prefix_rfl

theorem advance_records (d : Device) : d.records <+: (d.advance f script).records := by
  show d.records <+: ((script.acts d.tick).foldl (Device.act f) d).records
  generalize script.acts d.tick = xs
  induction xs generalizing d with
  | nil => exact List.prefix_rfl
  | cons x xs ih => exact (act_records d x).trans (ih _)

theorem quiet_records {d d' : Device} (h : Session.Quiet (Device.port f script) d d') :
    d.records <+: d'.records := by
  induction h with
  | refl => exact List.prefix_rfl
  | generation _ ih => exact ih.trans (advance_records _)
  | nowNs _ ih => exact ih.trans (advance_records _)
  | notification hn _ ih =>
    unfold Device.port at hn
    obtain ⟨gen, -, rfl⟩ := Option.map_eq_some_iff.mp hn
    exact ih.trans (advance_records _)

/-- The producer never takes a record back, whatever the session does. -/
theorem reach_records {d d' : Device} (h : Session.Reach (Device.port f script) d d') :
    d.records <+: d'.records := by
  induction h with
  | quiet hq => exact quiet_records hq
  | read deadline queue offset len _ hq ih =>
    refine ih.trans (List.IsPrefix.trans ?_ (quiet_records hq))
    show _ <+: (Device.read f script queue offset _).2.records
    unfold Device.read
    split <;> exact advance_records _
  | publish deadline queue offset input _ hq ih =>
    refine ih.trans (List.IsPrefix.trans ?_ (quiet_records hq))
    show _ <+: (Device.publish f script queue offset input _).2.records
    unfold Device.publish
    split
    · rw [write_records]
      exact advance_records _
    · rw [write_records]
      exact advance_records _
    · exact advance_records _
  | signal deadline prepare hn _ hq ih =>
    refine ih.trans (List.IsPrefix.trans ?_ (quiet_records hq))
    unfold Device.port at hn
    obtain ⟨gen, -, rfl⟩ := Option.map_eq_some_iff.mp hn
    cases prepare <;> exact advance_records _

theorem Fails.of_lost {why : Prop} {e : Error} {w' : World Device}
    (h : Session.Lost (Device.port f script) e w w') : Fails f n why e w w' :=
  .lost h.lifetime h.failed (reach_records h.env)

theorem receive_kept (hs : w.session.state = .active) (h : Synced f n w.session w.env) :
    Spec (Session.receive (Device.port f script) deadline) w
      (fun r w' => w.session.pending = none ∧ w'.session.state = .active ∧
        Synced f n w'.session w'.env ∧ Grows w.env w'.env ∧
        w'.session.pending = r.map (·.ticket) ∧ (r = none → ¬ Complete n w.env) ∧
        ∀ item, r = some item → Receipt f n item w w')
      (fun e w' => Fails f n (w.session.pending ≠ none ∨ ¬ Complete n w.env) e w w') := by
  have hslots := f.valid.slots_bounds
  unfold Session.receive
  refine .get_bind (.failIf_bind (fun hn => absurd hs hn) fun _ => ?_)
  refine .failIf_bind (fun hn => .kept rfl rfl h (.refl _) (.inl hn)) fun hidle => ?_
  have hidle : w.session.pending = none := Decidable.not_not.mp hidle
  refine .bind (Session.stopIf_spec (fun ht => .exhausted rfl ht rfl List.prefix_rfl) fun _ => ?_)
  obtain ⟨link, hlink, hlayout, -⟩ := h.link
  refine .need_bind (fun hnone => by rw [hlink] at hnone; cases hnone) fun link' hlink' => ?_
  obtain rfl : link = link' := by
    rw [hlink] at hlink'
    exact Option.some.inj hlink'
  rw [hlayout]
  refine .seq (Session.readWord_spec (by rw [hs]; simp)) (fun v w₁ h₁ => ?_)
    fun _ _ h => .of_lost h.1
  obtain ⟨bytes, rfl, h₁⟩ := h₁
  obtain ⟨k₁, d, hd, g₁, g₂, hbytes⟩ := reads_kept h h₁
  have hcursor : (word bytes 0).toNat = d.published % f.layout.slots := by
    rw [← toNat_cursor, ← hd.serves.cursor, hbytes]
    rfl
  obtain ⟨p, hplow, hphigh, hp, -⟩ := h.peer
  have hstart := h.start_eq g₁
  have hpub := g₁.published
  have hroom := hd.serves.room
  have hahead := hd.serves.ahead
  obtain ⟨now, hnow⟩ := k₁.session
  rw [hcursor]
  refine .bind (Session.stopIf_spec (fun hover => ?_) fun _ => ?_)
  · rw [h.rxRead, hp, distance_mod (by omega) (by omega) (by omega),
      distance_mod (by omega) (by omega) (by omega)] at hover
    have := Nat.mod_lt d.published (show 0 < f.layout.slots by omega)
    omega
  have hstart₁ := h.start_eq k₁.grows
  have hpub₁ := g₂.published
  have hsync : Synced f n { w₁.session with rxPeerWrite := d.published % f.layout.slots } w₁.env := by
    have hk := k₁.synced
    refine ⟨hk.link, hk.profile, hk.count, hk.serves, hk.rxRead, hk.sequence,
      ⟨d.published, by omega, by omega, rfl, fun t ht => ?_⟩, hk.pending⟩
    rw [hnow] at ht
    rw [hidle] at ht
    cases ht
  refine Session.update_bind ?_
  split
  · rename_i heq
    refine .pure ⟨hidle, ?_, hsync, k₁.grows, ?_, fun _ hc => ?_, fun item hitem => by cases hitem⟩
    · rw [hnow]
      exact hs
    · rw [hnow]
      exact hidle
    · obtain ⟨q, hq, hle⟩ := hc
      have hpos := (slots_bounds (h.serves.payload hq)).1
      rw [h.rxRead] at heq
      have hdist := distance_mod (n := f.layout.slots) (p := w.env.start n) (q := d.published)
        (by omega) (by omega) (by omega)
      rw [heq, distance_self] at hdist
      omega
  · rename_i hne
    have hlt : d.start n < d.published := by
      have hbehind := hd.serves.behind
      refine Nat.lt_of_le_of_ne hbehind fun heq => hne ?_
      rw [h.rxRead, ← hstart, heq]
    refine .bind (?_ : Spec (Session.receiveRecord _ _ _ _) _ _ _)
    have hlt₁ : w₁.env.start n < d.published := by omega
    refine (receiveRecord_kept (w := { w₁ with session := { w₁.session with
      rxPeerWrite := d.published % f.layout.slots } }) d.published (by rw [hnow, hs]; simp) hsync
      hlt₁ hpub₁ rfl).mono (fun r w₂ h₂ => ?_) fun e w₂ h₂ => ?_
    · have hstate := h₂.state
      rw [hnow] at hstate
      have hgrows := k₁.grows.trans h₂.grows
      refine .pure ⟨hidle, hstate.trans hs, h₂.synced, hgrows, h₂.pending,
        fun hr => (Option.some_ne_none _ hr).elim, fun item hitem => ?_⟩
      cases hitem
      exact ⟨h₂.synced, h₂.pending, hstate, hgrows, h₂.record⟩
    · rcases h₂ with hlost | ⟨k₂, q, hq, hlong⟩
      · exact .lost hlost.lifetime hlost.failed (k₁.grows.records.trans (reach_records hlost.env))
      · obtain ⟨now₂, hnow₂⟩ := k₂.session
        rw [hnow] at hnow₂
        refine .kept (by rw [hnow₂]) (by rw [hnow₂]) k₂.synced (k₁.grows.trans k₂.grows)
          (.inr fun hc => ?_)
        obtain ⟨q', hq', hle⟩ := hc
        have hsame := k₁.grows.record hq'
        rw [show w₁.env.records[n]? = some q from hq] at hsame
        cases hsame
        have hlong : d.published < w₁.env.start n + q.slots := hlong
        omega

/-! ## Acknowledge -/

theorem publish_ok {queue : Queue} {offset : Nat} {bytes : List Byte} {d d' : Device}
    (h : (Device.port f script).publish deadline queue offset bytes d = (none, d')) :
    d' = (d.advance f script).write queue offset bytes := by
  have h' : Device.publish f script queue offset bytes d = (none, d') := h
  unfold Device.publish at h'
  split at h'
  · exact (congrArg Prod.snd h').symm
  · cases h'
  · cases h'

theorem acknowledge_kept {ticket : Ticket} (hs : w.session.state = .active)
    (h : Synced f n w.session w.env) :
    Spec (Session.acknowledge (Device.port f script) deadline ticket) w
      (fun _ w' => w.session.pending = some ticket ∧ w'.session.state = .active ∧
        w'.session.pending = none ∧ Synced f (n + 1) w'.session w'.env ∧ Grows w.env w'.env ∧
        ∃ d, Serves f (w'.env.start (n + 1)) d ∧ w'.env = d.advance f script)
      (fun e w' => Fails f n (w.session.pending ≠ some ticket) e w w') := by
  refine Session.acknowledge_spec.mono (fun _ w' hw => ?_) fun e w' hw => ?_
  · obtain ⟨⟨-, hpend, now, hsession⟩, link, hlink, w₁, hpub, henv, -⟩ := hw
    obtain ⟨hlt, hnext⟩ := h.pending ticket hpend
    obtain ⟨link', hlink', hlayout, hreadAt⟩ := h.link
    obtain rfl : link' = link := by
      rw [hlink] at hlink'
      exact (Option.some.inj hlink').symm
    obtain ⟨d₁, d₂, hq₁, hok, hq₂⟩ := hpub.port
    obtain ⟨h₁, g₁⟩ := h.quiet hq₁
    obtain ⟨hs₂, g₂⟩ := h₁.serves.advance script
    have h₂ := h₁.grow g₂ hs₂
    have g := g₁.trans g₂
    obtain ⟨p, hp⟩ : ∃ p, w.env.records[n]? = some p := ⟨_, List.getElem?_eq_getElem hlt⟩
    have hstart := h.start_eq g
    have hp₂ := g.record hp
    have hnext₂ : (d₁.advance f script).start (n + 1) = w.env.start (n + 1) := by
      rw [start_succ hp₂, start_succ hp, hstart]
    obtain ⟨peer, hlow, hhigh, hpeer, hheld⟩ := h.peer
    have hpub₂ := g.published
    have hheld := hheld ticket hpend
    have hack := h₂.serves.acknowledge ((d₁.advance f script).start (n + 1))
      (by rw [start_succ hp₂]; omega) (by omega)
    rw [hreadAt, hnext, ← hnext₂] at hok
    have hd₂ := publish_ok hok
    rw [← hd₂] at hack
    obtain ⟨hserves, g₃⟩ := hack.quiet hq₂.quiet
    have hrec : d₂.records = (d₁.advance f script).records := by
      rw [hd₂, write_records]
    have hgrow : Grows (d₁.advance f script) d₂ := by
      refine ⟨hrec ▸ List.prefix_rfl, Nat.le_of_eq ?_⟩
      rw [hd₂]
      cases f.readAt.queue <;> rfl
    have gall := (g.trans hgrow).trans g₃
    have hpub₃ := gall.published
    have hp₃ := gall.record hp
    have hstart₃ := h.start_eq gall
    have hnext₃ : w₁.env.start (n + 1) = (d₁.advance f script).start (n + 1) := by
      rw [start_succ hp₃, start_succ hp₂, hstart₃, hstart]
    obtain ⟨d₃, hq₃, hd₃⟩ := hq₂
    refine ⟨hpend, by rw [hsession]; exact hs, by rw [hsession], ?_, henv ▸ gall, d₃, ?_,
      henv.trans hd₃⟩
    swap
    · rw [henv, hnext₃]
      exact (hack.quiet hq₃).1
    rw [henv, hsession]
    refine ⟨⟨link', hlink', hlayout, hreadAt⟩, h.profile,
      (List.getElem?_eq_some_iff.mp hp₃).1, hnext₃ ▸ hserves, ?_, ?_, ⟨peer, ?_, ?_, hpeer, ?_⟩, ?_⟩
    · rw [hnext₃, hnext₂]
      exact hnext
    · show w.session.rxSequence + 1 = _
      rw [h.sequence, BitVec.ofNat_add]
      rfl
    · rw [hnext₃, hnext₂]
      exact hheld
    · omega
    · intro t ht
      cases ht
    · intro t ht
      cases ht
  · rcases hw with ⟨rfl, hwhy⟩ | ⟨-, hlost⟩
    · refine .kept rfl rfl h (.refl _) ?_
      obtain ⟨link, hlink, -⟩ := h.link
      rcases hwhy with hn | hn | hn
      · exact absurd hs hn
      · exact hn
      · rw [hlink] at hn
        cases hn
    · exact .of_lost hlost

theorem guard_kept (hs : w.session.state = .active) (h : Synced f n w.session w.env) :
    Spec (Session.guard (Device.port f script) deadline) w
      (fun _ w' => w'.session.state = .active ∧ w'.session.pending = w.session.pending ∧
        Synced f n w'.session w'.env ∧ Grows w.env w'.env)
      (fun e w' => Fails f n False e w w') := by
  unfold Session.guard
  refine (Session.check_spec (by rw [hs]; simp)).mono (fun _ w' hw => ?_) fun _ _ h => .of_lost h.1
  obtain ⟨h', g⟩ := h.quiet hw.env
  obtain ⟨now, hnow⟩ := hw.session
  rw [hnow]
  exact ⟨hs, rfl, h'.clock, g⟩

end

end Gsp
end NvidiaGsp
