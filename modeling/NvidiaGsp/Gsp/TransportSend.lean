import NvidiaGsp.Gsp.TransportSpec

/-!
# Gsp.TransportSend

The send path. The peer's read cursor is untrusted: `send` admits it only between the last admitted
one and the write cursor, and then writes behind the write cursor only. `SendTrace` says which
accesses one send makes; `send_spec` proves it for every answer of the port.
-/

namespace NvidiaGsp
namespace Gsp
namespace Session

open Bytes Call Cyclic

variable {D : Type}

/-- The cursors of a connected session lie in its rings. -/
structure Linked (s : Session) (link : Link) : Prop where
  bound : s.link = some link
  command : Ring.Valid link.command.layout
  status : Ring.Valid link.status.layout
  txWrite : s.txWrite < link.command.layout.slots
  txPeerRead : s.txPeerRead < link.command.layout.slots

/-- A read cursor that is out of range, or further from the last admitted one than the write
cursor is. -/
def Overrun (slots before write peer : Nat) : Prop :=
  peer ≥ slots ∨ distance slots before peer > distance slots before write

/-- Message data for slots outside the cyclic interval from `peer` to `write`. -/
def Vacant (layout : Layout) (peer write : Nat) (a : Access) : Prop :=
  ∃ offset bytes, a = .publish .command offset bytes ∧ ∀ k < bytes.length,
    ∃ i < layout.slots, Ring.InSlot layout i (offset + k) ∧
      ¬ distance layout.slots peer i < distance layout.slots peer write

/-- The write cursor `next`, which does not catch up with `peer`. -/
def NewCursor (layout : Layout) (peer : Nat) (a : Access) : Prop :=
  ∃ next, a = .publish .command 16 (le32 (BitVec.ofNat 32 next)) ∧ next < layout.slots ∧
    next ≠ peer

def SendAccess (layout : Layout) (peer write : Nat) (a : Access) : Prop :=
  a = .prepare ∨ a = .submit ∨ Vacant layout peer write a ∨ NewCursor layout peer a

/-- The accesses of one send, between the sessions `s` and `s'`. -/
inductive SendTrace (link : Link) (s s' : Session) : List Access → Prop where
  | none : SendTrace link s s' []
  | read (bytes : List Byte)
      (hover : Overrun link.command.layout.slots s.txPeerRead s.txWrite (word bytes 0).toNat →
        s'.state = .failed) :
      SendTrace link s s' [.read link.commandRead.queue link.commandRead.offset bytes]
  | sent (bytes : List Byte) (rest : List Access)
      (hover : ¬ Overrun link.command.layout.slots s.txPeerRead s.txWrite (word bytes 0).toNat)
      (hpeer : s'.txPeerRead = (word bytes 0).toNat)
      (hrest : ∀ a ∈ rest, SendAccess link.command.layout s'.txPeerRead s.txWrite a) :
      SendTrace link s s' (.read link.commandRead.queue link.commandRead.offset bytes :: rest)

/-- What a send refuses before it has published anything. -/
def Refusal (e : Error) : Prop :=
  e = .Unavailable ∨ e = .Profile ∨ e = .Length ∨ e = .Output ∨ e = .Overlap

section

variable {port : Port D} {w : World D} {deadline : Nat} {link : Link}

/-- A planned record only covers vacant slots. -/
theorem vacant_of_within {layout : Layout} {peer write count : Nat} {spans : List Span} {a : Access}
    (hp : peer < layout.slots) (hw : write < layout.slots)
    (hroom : count + distance layout.slots peer write < layout.slots)
    (hspans : spans = Ring.spansAt layout write count) (h : Within spans a) :
    Vacant layout peer write a := by
  subst hspans
  obtain ⟨span, hm, bytes, hlen, rfl⟩ := h
  refine ⟨span.offset, bytes, rfl, fun k hk => ?_⟩
  obtain ⟨i, hi, hslot, hdist⟩ := Ring.spansAt_slot hw (by omega) hm (by omega : k < span.bytes)
  refine ⟨i, hi, hslot, ?_⟩
  rw [distance_add hp hw (by omega)]
  omega

/-- The new cursor is not the peer's. -/
theorem newCursor_advance {layout : Layout} {peer write count : Nat} (hp : peer < layout.slots)
    (hw : write < layout.slots) (hroom : count + distance layout.slots peer write < layout.slots)
    (hpos : 0 < count) :
    NewCursor layout peer (.publish .command 16
      (le32 (BitVec.ofNat 32 (advance layout.slots write count)))) := by
  refine ⟨_, rfl, advance_lt hw (by omega), fun heq => ?_⟩
  have h := distance_advance_from hp hw (k := count) (by omega)
  rw [heq, distance_self] at h
  omega

/-- A send that returns: the record and the new cursor are out. -/
structure SendOk (link : Link) (w w' : World D) : Prop where
  trace : ∃ t, w'.trace = w.trace ++ t ∧ SendTrace link w.session w'.session t
  session : ∃ now peer count, w'.session = { w.session with
    lastClock := now
    txPeerRead := peer
    txWrite := advance link.command.layout.slots w.session.txWrite count
    txSequence := w.session.txSequence + 1 } ∧ peer < link.command.layout.slots ∧
    count < link.command.layout.slots

/-- A send that fails with `e`, perhaps with the session. -/
structure SendError (link : Link) (e : Error) (w w' : World D) : Prop where
  trace : ∃ t, w'.trace = w.trace ++ t ∧ SendTrace link w.session w'.session t ∧
    (Refusal e → ∀ q o b, Access.publish q o b ∉ t)
  session : w'.session.state = .failed ∨ ∃ now peer, w'.session = { w.session with
    lastClock := now
    txPeerRead := peer } ∧ peer < link.command.layout.slots
  frame : w'.session.txWrite = w.session.txWrite ∧ w'.session.txSequence = w.session.txSequence

theorem Lifetime.not_refusal {e : Error} (h : Lifetime e) : ¬ Refusal e := by
  unfold Lifetime Refusal at *
  rcases h with rfl | rfl | rfl | rfl <;> simp

theorem Frame.tx {s s' : Session} (h : Frame s s') :
    s'.txWrite = s.txWrite ∧ s'.txSequence = s.txSequence ∧ s'.txPeerRead = s.txPeerRead := by
  rw [h]
  exact ⟨rfl, rfl, rfl⟩

/-- The part of a send after the peer's cursor was admitted. -/
def sendRecord (port : Port D) (deadline : Nat) (plan : Plan) (bytes : List Byte) :
    Transport D Unit := do
  signal port deadline true
  publishSpans port deadline plan.spans bytes
  publishWord port deadline (cursorAt .command) plan.nextCursor
  signal port deadline false
  update fun s => { s with txWrite := plan.nextCursor, txSequence := s.txSequence + 1 }

theorem sendRecord_spec {n : Notification D} (hn : port.notification = some n) {layout : Layout}
    {peer write count : Nat} {plan : Plan} {bytes : List Byte} (hs : w.session.state ≠ .failed)
    (hp : peer < layout.slots) (hw : write < layout.slots)
    (hroom : count + distance layout.slots peer write < layout.slots) (hpos : 0 < count)
    (hspans : plan.spans = Ring.spansAt layout write count)
    (hnext : plan.nextCursor = advance layout.slots write count) :
    Spec (sendRecord port deadline plan bytes) w
      (fun _ w' => Did (SendAccess layout peer write) w w' ∧ ∃ now, w'.session = { w.session with
        lastClock := now
        txWrite := advance layout.slots write count
        txSequence := w.session.txSequence + 1 })
      (fun e w' => Ends port (SendAccess layout peer write) e w w') := by
  have hsignal (b : Bool) (a : Access) (ha : a = if b then .prepare else .submit) :
      SendAccess layout peer write a := by
    cases b
    · exact .inr (.inl ha)
    · exact .inl ha
  have hdata (a : Access) (ha : Within plan.spans a) : SendAccess layout peer write a :=
    .inr (.inr (.inl (vacant_of_within hp hw hroom hspans ha)))
  have hcursor (a : Access) (ha : a = .publish .command 16
      (le32 (BitVec.ofNat 32 plan.nextCursor))) : SendAccess layout peer write a := by
    rw [ha, hnext]
    exact .inr (.inr (.inr (newCursor_advance hp hw hroom hpos)))
  unfold sendRecord
  refine .seq (signal_goes hn hs) (fun _ w₁ h₁ => ?_) (fun _ _ h => h.mono (hsignal true))
  have g₁ := h₁.mono (hsignal true)
  refine .seq (publishSpans_goes (by rw [g₁.state]; exact hs)) (fun _ w₂ h₂ => ?_)
    (fun _ _ h => .of_goes g₁ (h.mono hdata))
  have g₂ := g₁.trans (h₂.mono hdata)
  refine .seq (publish_goes (by rw [g₂.state]; exact hs)) (fun _ w₃ h₃ => ?_)
    (fun _ _ h => .of_goes g₂ (h.mono hcursor))
  have g₃ := g₂.trans (h₃.mono hcursor)
  refine .seq (signal_goes hn (by rw [g₃.state]; exact hs)) (fun _ w₄ h₄ => ?_)
    (fun _ _ h => .of_goes g₃ (h.mono (hsignal false)))
  have g₄ := g₃.trans (h₄.mono (hsignal false))
  obtain ⟨now, hnow⟩ := g₄.session
  refine update_spec ⟨g₄.did, now, ?_⟩
  rw [hnow, hnext]

theorem send_spec {rpc : Rpc} {payload : Slice} (hs : w.session.state = .active)
    (hl : Linked w.session link) :
    Spec (send port deadline rpc payload) w (fun _ w' => SendOk link w w')
      (fun e w' => SendError link e w w') := by
  have hlive {w' : World D} (h : w'.session.state = w.session.state) :
      w'.session.state ≠ .failed := by
    rw [h, hs]
    simp
  unfold send
  refine .get_bind (.failIf_bind (fun h => absurd hs h) fun _ => ?_)
  refine .seq (check_spec (hlive rfl)) (fun _ w₁ h₁ => ?_) fun e w₁ h₁ => ?_
  · have hframe₁ := h₁.frame.tx
    refine .bind (stopIf_spec (fun _ => ?_) fun hnote => ?_)
    · exact ⟨⟨[], by simp [h₁.trace], .none, by simp⟩, .inl rfl, hframe₁.1, hframe₁.2.1⟩
    obtain ⟨n, hn⟩ : ∃ n, port.notification = some n := by
      cases hport : port.notification with
      | none => simp [hport] at hnote
      | some n => exact ⟨n, rfl⟩
    refine .need_bind (fun h => ?_) fun link' hlink => ?_
    · rw [hl.bound] at h
      cases h
    obtain rfl : link = link' := by
      rw [hl.bound] at hlink
      exact Option.some.inj hlink
    obtain ⟨now₁, hnow₁⟩ := h₁.session
    refine .lift_bind (fun e he => ?_) fun encoded henc => ?_
    · refine ⟨⟨[], by simp [h₁.trace], .none, by simp⟩, .inr ⟨now₁, w.session.txPeerRead, ?_, ?_⟩,
        hframe₁.1, hframe₁.2.1⟩
      · rw [hnow₁]
      · exact hl.txPeerRead
    refine .seq (readWord_spec (hlive h₁.state)) (fun peer w₂ h₂ => ?_) fun e w₂ h₂ => ?_
    · obtain ⟨bytes, rfl, h₂⟩ := h₂
      obtain ⟨now₂, hnow₂⟩ := h₂.session
      rw [hnow₁] at hnow₂
      have htrace : w₂.trace = w.trace ++
          [.read link.commandRead.queue link.commandRead.offset bytes] := by
        rw [h₂.trace, h₁.trace]
      refine .bind (stopIf_spec (fun _ => ?_) fun hover => ?_)
      · refine ⟨⟨_, htrace, .read bytes fun _ => rfl, by simp⟩, .inl rfl, ?_⟩
        rw [hnow₂]
        exact ⟨rfl, rfl⟩
      have hpeer : (word bytes 0).toNat < link.command.layout.slots := by omega
      refine update_bind (.lift_bind (fun e he => ?_) fun plan hplan => ?_)
      · refine ⟨⟨_, htrace, .read bytes fun h => absurd h hover, by simp⟩, .inr ⟨now₂, _, ?_, hpeer⟩,
          ?_⟩
        · rw [hnow₂]
        · rw [hnow₂]
          exact ⟨rfl, rfl⟩
      · obtain ⟨-, -, hwrite, hpos, hroom, hspans, hnext⟩ := Ring.transmit_ok hplan
        refine (sendRecord_spec hn (hlive (by rw [hnow₂])) hpeer hwrite hroom hpos hspans
          hnext).mono (fun _ w₃ h₃ => ?_) fun e w₃ h₃ => ?_
        · obtain ⟨⟨t, ht, hacc⟩, now₃, hnow₃⟩ := h₃
          rw [hnow₂] at hnow₃
          refine ⟨⟨_ :: t, ?_, .sent bytes t hover (by rw [hnow₃]) ?_⟩,
            now₃, (word bytes 0).toNat, encoded.1.elements, hnow₃, hpeer, by omega⟩
          · rw [ht]
            simp [htrace]
          · rw [hnow₃]
            exact hacc
        · obtain ⟨⟨t, ht, hacc⟩, hlost⟩ := h₃
          have htx := hlost.frame.tx
          rw [hnow₂] at htx
          refine ⟨⟨_ :: t, ?_, .sent bytes t hover htx.2.2 ?_,
            fun h => absurd h hlost.lifetime.not_refusal⟩, .inl hlost.failed, htx.1, htx.2.1⟩
          · rw [ht]
            simp [htrace]
          · rw [htx.2.2]
            exact hacc
    · have htx := (h₁.frame.trans h₂.1.frame).tx
      refine ⟨?_, .inl h₂.1.failed, htx.1, htx.2.1⟩
      rcases h₂.2 with ht | ⟨bytes, ht⟩
      · exact ⟨[], by rw [ht, h₁.trace]; simp, .none, by simp⟩
      · exact ⟨_, by rw [ht, h₁.trace], .read bytes fun _ => h₂.1.failed, by simp⟩
  · have htx := h₁.1.frame.tx
    exact ⟨⟨[], by simp [h₁.2], .none, by simp⟩, .inl h₁.1.failed, htx.1, htx.2.1⟩

end

end Session
end Gsp
end NvidiaGsp
