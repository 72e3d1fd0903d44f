import NvidiaGsp.Gsp.TransportSpec

/-!
# Gsp.TransportReceive

The receive path, for any device: a receive only reads, takes at most one ticket and changes nothing
of the send side; an acknowledgement publishes one read cursor and gives the ticket back.
-/

namespace NvidiaGsp
namespace Gsp
namespace Session

open Bytes Call Cyclic

variable {D : Type} {port : Port D} {w : World D} {deadline : Nat}

def IsRead (a : Access) : Prop := ∃ q o b, a = .read q o b

/-- Beyond `Frame`, the peer's write cursor may have been refreshed. -/
def RxFrame (s s' : Session) : Prop :=
  s' = { s with
    state := s'.state
    lastClock := s'.lastClock
    lastIoError := s'.lastIoError
    lastIoFailure := s'.lastIoFailure
    rxPeerWrite := s'.rxPeerWrite }

theorem Frame.rx {s s' : Session} (h : Frame s s') : RxFrame s s' := by
  unfold Frame at h
  unfold RxFrame
  rw [h]

theorem RxFrame.trans {s s' s'' : Session} (h : RxFrame s s') (h' : RxFrame s' s'') :
    RxFrame s s'' := by
  unfold RxFrame at *
  rw [h', h]

theorem rxFrame_peer (s : Session) (peer : Nat) : RxFrame s { s with rxPeerWrite := peer } := rfl

theorem Reads.goes {queue : Queue} {offset len : Nat} {bytes : List Byte} {w' : World D}
    (h : Reads port deadline queue offset len bytes w w') : Goes port IsRead w w' :=
  ⟨(Did.single h.trace).mono fun _ ha => ⟨_, _, _, ha⟩, h.reach, h.session⟩

theorem read_goes {queue : Queue} {offset len : Nat} (hs : w.session.state ≠ .failed) :
    Spec (read port deadline queue offset len) w (fun _ w' => Goes port IsRead w w')
      (fun e w' => Ends port IsRead e w w') := by
  refine (read_spec hs).mono (fun _ w' h => h.goes) fun e w' h => ?_
  rcases h.2 with ht | ⟨bytes, ht⟩
  · exact ⟨.of_eq ht, h.1⟩
  · exact ⟨(Did.single ht).mono fun _ ha => ⟨_, _, _, ha⟩, h.1⟩

theorem readWord_goes {location : Location} (hs : w.session.state ≠ .failed) :
    Spec (readWord port deadline location) w (fun _ w' => Goes port IsRead w w')
      (fun e w' => Ends port IsRead e w w') := by
  unfold readWord
  exact .seq (read_goes hs) (fun _ _ h => h) fun _ _ h => h

theorem readSpans_goes {spans : List Span} (hs : w.session.state ≠ .failed) :
    Spec (readSpans port deadline spans) w (fun _ w' => Goes port IsRead w w')
      (fun e w' => Ends port IsRead e w w') := by
  induction spans generalizing w with
  | nil => exact ⟨.of_eq rfl, .refl, w.session.lastClock, rfl⟩
  | cons span spans ih =>
    refine .seq (read_goes hs) (fun bytes w₁ h₁ => ?_) fun _ _ h => h
    refine .seq (ih (by rw [h₁.state]; exact hs)) (fun rest w₂ h₂ => h₁.trans h₂) fun _ _ h => ?_
    exact .of_goes h₁ h

/-! ## Receive -/

/-- The ticket of the record at the read cursor. -/
def nextTicketOf (s : Session) (next : Nat) : Ticket :=
  ⟨s.epoch, s.nextTicket, s.rxSequence, s.rxRead, next⟩

/-- What a receive that returns did to the session. -/
inductive ReceiveOk (s : Session) : Option Received → Session → Prop where
  | empty (now peer : Nat) : ReceiveOk s none { s with lastClock := now, rxPeerWrite := peer }
  | record (now peer next : Nat) (record : Record) :
      ReceiveOk s (some ⟨nextTicketOf s next, record⟩) { s with
        lastClock := now
        rxPeerWrite := peer
        pending := some (nextTicketOf s next)
        nextTicket := s.nextTicket + 1 }

/-- A failing receive takes no ticket. -/
structure ReceiveError (s s' : Session) : Prop where
  frame : RxFrame s s'
  state : s'.state = .failed ∨ s'.state = s.state

theorem Ends.receiveError {P : Access → Prop} {e : Error} {w' : World D} (h : Ends port P e w w') :
    ReceiveError w.session w'.session := ⟨h.lost.frame.rx, .inl h.lost.failed⟩

theorem ReceiveError.of_goes {P : Access → Prop} {w' : World D} {s : Session} (h : Goes port P w w')
    (h' : ReceiveError w'.session s) : ReceiveError w.session s :=
  ⟨h.frame.rx.trans h'.frame, by rw [← h.state]; exact h'.state⟩

theorem orFail_spec {α : Type} {x : Except Error α} {Q : α → World D → Prop}
    {E : Error → World D → Prop}
    (he : ∀ e, x = .error e → E e { w with session := { w.session with state := .failed } })
    (h : ∀ a, x = .ok a → Q a w) : Spec (orFail x : Transport D α) w Q E := by
  cases x with
  | ok a => exact h a rfl
  | error e => exact he e rfl

theorem orNotReady_spec {α : Type} {x : Except Error α} {Q : α → World D → Prop}
    {E : Error → World D → Prop} (hu : x = .error .Unavailable → E .NotReady w)
    (he : ∀ e, e ≠ .Unavailable → x = .error e →
      E e { w with session := { w.session with state := .failed } })
    (h : ∀ a, x = .ok a → Q a w) : Spec (orNotReady x : Transport D α) w Q E := by
  cases x with
  | ok a => exact h a rfl
  | error e =>
    by_cases heq : e = .Unavailable
    · subst heq
      exact hu rfl
    · have := he e heq rfl
      cases e <;> first | exact this | exact absurd rfl heq

theorem receiveError_self (s : Session) : ReceiveError s s := ⟨rfl, .inr rfl⟩

theorem receiveError_failed (s : Session) : ReceiveError s { s with state := .failed } :=
  ⟨rfl, .inl rfl⟩

theorem receiveRecord_spec {layout : Layout} {peer : Nat} (hs : w.session.state ≠ .failed) :
    Spec (receiveRecord port deadline layout peer) w
      (fun r w' => Did IsRead w w' ∧ ∃ now next, r.ticket = nextTicketOf w.session next ∧
        w'.session = { w.session with
          lastClock := now
          pending := some (nextTicketOf w.session next)
          nextTicket := w.session.nextTicket + 1 })
      (fun _ w' => Did IsRead w w' ∧ ReceiveError w.session w'.session) := by
  unfold receiveRecord
  refine .get_bind (.lift_bind (fun e _ => ⟨.of_eq rfl, receiveError_self _⟩) fun first _ => ?_)
  refine .seq (read_goes hs) (fun head w₁ h₁ => ?_) fun _ _ h => ⟨h.did, h.receiveError⟩
  refine .bind (orFail_spec (fun e _ => ?_) fun shape _ => ?_)
  · exact ⟨h₁.did.trans (.of_eq rfl), .of_goes h₁ (receiveError_failed _)⟩
  refine .bind (orNotReady_spec (fun _ => ?_) (fun e _ _ => ?_) fun plan _ => ?_)
  · exact ⟨h₁.did, .of_goes h₁ (receiveError_self _)⟩
  · exact ⟨h₁.did.trans (.of_eq rfl), .of_goes h₁ (receiveError_failed _)⟩
  refine .seq (readSpans_goes (by rw [h₁.state]; exact hs)) (fun bytes w₂ h₂ => ?_) fun _ _ h => ?_
  · have g₂ := h₁.trans h₂
    refine .bind (orFail_spec (fun e _ => ?_) fun record _ => ?_)
    · exact ⟨g₂.did.trans (.of_eq rfl), .of_goes g₂ (receiveError_failed _)⟩
    obtain ⟨now, hnow⟩ := g₂.session
    refine update_bind (.pure ⟨g₂.did.trans (.of_eq rfl), now, plan.nextCursor, rfl, ?_⟩)
    rw [hnow]
    rfl
  · exact ⟨h₁.did.trans h.did, .of_goes h₁ h.receiveError⟩

theorem receive_spec :
    Spec (receive port deadline) w
      (fun r w' => w.session.state = .active ∧ w.session.pending = none ∧ Did IsRead w w' ∧
        ReceiveOk w.session r w'.session)
      (fun _ w' => Did IsRead w w' ∧ ReceiveError w.session w'.session) := by
  unfold receive
  have hself : Did IsRead w w ∧ ReceiveError w.session w.session :=
    ⟨.of_eq rfl, receiveError_self _⟩
  refine .get_bind (.failIf_bind (fun _ => hself) fun hstate => ?_)
  refine .failIf_bind (fun _ => hself) fun hpending => ?_
  refine .bind (stopIf_spec (fun _ => ⟨.of_eq rfl, receiveError_failed _⟩) fun _ => ?_)
  refine .need_bind (fun _ => hself) fun link hlink => ?_
  have hactive : w.session.state = .active := Decidable.not_not.mp hstate
  have hlive : w.session.state ≠ .failed := by
    rw [hactive]
    simp
  refine .seq (readWord_goes hlive) (fun peer w₁ h₁ => ?_) fun _ _ h => ⟨h.did, h.receiveError⟩
  refine .bind (stopIf_spec (fun _ => ?_) fun hover => ?_)
  · exact ⟨h₁.did.trans (.of_eq rfl), .of_goes h₁ (receiveError_failed _)⟩
  obtain ⟨now, hnow⟩ := h₁.session
  refine update_bind ?_
  split
  · refine .pure ⟨hactive, Decidable.not_not.mp hpending, h₁.did.trans (.of_eq rfl), ?_⟩
    rw [hnow]
    exact .empty now peer.toNat
  · refine .bind (?_ : Spec (receiveRecord _ _ _ _) _ _ _)
    refine (receiveRecord_spec (by rw [hnow]; exact hlive)).mono (fun r w₂ h₂ => ?_) fun e w₂ h₂ => ?_
    · obtain ⟨hdid, now₂, next, hticket, hsession⟩ := h₂
      refine .pure ⟨hactive, Decidable.not_not.mp hpending, h₁.did.trans hdid, ?_⟩
      obtain ⟨ticket, record⟩ := r
      dsimp only at hticket
      subst hticket
      rw [hsession, hnow]
      exact .record now₂ peer.toNat next record
    · refine ⟨h₁.did.trans h₂.1, ?_⟩
      refine .of_goes h₁ ⟨?_, h₂.2.state⟩
      exact (rxFrame_peer _ _).trans h₂.2.frame

/-! ## Acknowledge -/

/-- The acknowledgement that returns: the ticket's cursor is out and the ticket given back. -/
structure AckOk (ticket : Ticket) (s s' : Session) : Prop where
  state : s.state = .active
  pending : s.pending = some ticket
  session : ∃ now, s' = { s with
    lastClock := now
    rxRead := ticket.next
    rxSequence := s.rxSequence + 1
    pending := none }

theorem acknowledge_spec {ticket : Ticket} :
    Spec (acknowledge port deadline ticket) w
      (fun _ w' => AckOk ticket w.session w'.session ∧ ∃ link, w.session.link = some link ∧
        ∃ w₁, Publishes port deadline link.statusRead.queue link.statusRead.offset
          (le32 (BitVec.ofNat 32 ticket.next)) w w₁ ∧ w'.env = w₁.env ∧ w'.trace = w₁.trace)
      (fun e w' => w' = w ∧ (w.session.state ≠ .active ∨ w.session.pending ≠ some ticket ∨
          w.session.link = none) ∨ w.session.pending = some ticket ∧ Lost port e w w') := by
  unfold acknowledge
  refine .get_bind (.failIf_bind (fun hn => .inl ⟨rfl, .inl hn⟩) fun hstate => ?_)
  refine .need_bind (fun hn => .inl ⟨rfl, .inr (.inl (by rw [hn]; simp))⟩) fun expected hexp => ?_
  refine .failIf_bind (fun hn => .inl ⟨rfl, .inr (.inl ?_)⟩) fun heq => ?_
  · rw [hexp]
    exact fun h => hn (Option.some.inj h)
  refine .need_bind (fun hn => .inl ⟨rfl, .inr (.inr hn)⟩) fun link hlink => ?_
  have hactive : w.session.state = .active := Decidable.not_not.mp hstate
  obtain rfl : expected = ticket := Decidable.not_not.mp heq
  refine .seq (publish_spec (by rw [hactive]; simp)) (fun _ w₁ h₁ => ?_)
    fun _ _ h => .inr ⟨hexp, h.1⟩
  obtain ⟨now, hnow⟩ := h₁.session
  refine update_spec ⟨⟨hactive, hexp, now, ?_⟩, link, hlink, w₁, h₁, rfl, rfl⟩
  rw [hnow]

/-! ## What the other calls leave to the receive side -/

/-- The receive side of the session is as it was. -/
structure RxSame (s s' : Session) : Prop where
  link : s'.link = s.link
  rxRead : s'.rxRead = s.rxRead
  rxPeerWrite : s'.rxPeerWrite = s.rxPeerWrite
  rxSequence : s'.rxSequence = s.rxSequence
  nextTicket : s'.nextTicket = s.nextTicket
  pending : s'.pending = s.pending

theorem RxSame.refl (s : Session) : RxSame s s := ⟨rfl, rfl, rfl, rfl, rfl, rfl⟩

theorem RxSame.trans {s s' s'' : Session} (h : RxSame s s') (h' : RxSame s' s'') : RxSame s s'' :=
  ⟨h'.link.trans h.link, h'.rxRead.trans h.rxRead, h'.rxPeerWrite.trans h.rxPeerWrite,
    h'.rxSequence.trans h.rxSequence, h'.nextTicket.trans h.nextTicket, h'.pending.trans h.pending⟩

theorem Frame.rxSame {s s' : Session} (h : Frame s s') : RxSame s s' := by
  refine ⟨?_, ?_, ?_, ?_, ?_, ?_⟩ <;> rw [h]

theorem check_failed (hs : w.session.state = .failed) :
    check port deadline w = .error .State w := by
  unfold check checkLifetimeClock
  simp [bind_apply, failIf_of hs]

theorem guard_rxSame :
    Spec (guard port deadline) w (fun _ w' => RxSame w.session w'.session)
      (fun _ w' => RxSame w.session w'.session) := by
  unfold guard
  by_cases hs : w.session.state = .failed
  · unfold Spec
    rw [check_failed hs]
    exact .refl _
  · exact (check_spec hs).mono (fun _ _ h => h.frame.rxSame) fun _ _ h => h.1.frame.rxSame

theorem guardUnsubmitted_rxSame :
    Spec (guardUnsubmitted port deadline) w (fun _ w' => RxSame w.session w'.session)
      (fun _ w' => RxSame w.session w'.session) := by
  unfold guardUnsubmitted
  refine .get_bind (.failIf_bind (fun _ => .refl _) fun hs => ?_)
  have hlive : w.session.state ≠ .failed := by
    intro h
    simp [h] at hs
  refine .seq (checkLifetimeClock_spec hlive) (fun _ w₁ h₁ => ?_) fun _ _ h => h.1.frame.rxSame
  have h₁ := h₁.1.frame.rxSame
  refine .get_bind (.bind (stopIf_spec (fun _ => h₁.trans (frame_fail _).rxSame) fun _ => ?_))
  exact .intro (fun _ _ h => (failIf_ok_iff.1 h).2 ▸ h₁)
    fun _ _ h => (failIf_error_iff.1 h).2.2 ▸ h₁

theorem send_rxSame {rpc : Rpc} {payload : Slice} :
    Spec (send port deadline rpc payload) w (fun _ w' => RxSame w.session w'.session)
      (fun _ w' => RxSame w.session w'.session) := by
  unfold send
  refine .get_bind (.failIf_bind (fun _ => .refl _) fun hs => ?_)
  have hlive {w' : World D} (h : w'.session.state = w.session.state) :
      w'.session.state ≠ .failed := by
    rw [h, Decidable.not_not.mp hs]
    simp
  refine .seq (check_spec (hlive rfl)) (fun _ w₁ h₁ => ?_) fun _ _ h => h.1.frame.rxSame
  have r₁ := h₁.frame.rxSame
  refine .bind (stopIf_spec (fun _ => r₁.trans (frame_fail _).rxSame) fun hnote => ?_)
  obtain ⟨n, hn⟩ : ∃ n, port.notification = some n := by
    cases hport : port.notification with
    | none => simp [hport] at hnote
    | some n => exact ⟨n, rfl⟩
  refine .need_bind (fun _ => r₁) fun link _ => .lift_bind (fun _ _ => r₁) fun encoded _ => ?_
  refine .seq (readWord_goes (hlive h₁.state)) (fun peer w₂ h₂ => ?_)
    fun _ _ h => r₁.trans h.lost.frame.rxSame
  have r₂ := r₁.trans h₂.frame.rxSame
  refine .bind (stopIf_spec (fun _ => r₂.trans (frame_fail _).rxSame) fun _ => update_bind ?_)
  have s₃ := h₂.state.trans h₁.state
  have r₃ : RxSame w.session { w₂.session with txPeerRead := peer.toNat } :=
    r₂.trans ⟨rfl, rfl, rfl, rfl, rfl, rfl⟩
  refine .lift_bind (fun _ _ => r₃) fun plan _ => ?_
  refine .seq (signal_goes hn (hlive s₃)) (fun _ w₄ h₄ => ?_)
    fun _ _ h => r₃.trans h.lost.frame.rxSame
  have r₄ := r₃.trans h₄.frame.rxSame
  have s₄ := h₄.state.trans s₃
  refine .seq (publishSpans_goes (hlive s₄)) (fun _ w₅ h₅ => ?_)
    fun _ _ h => r₄.trans h.lost.frame.rxSame
  have r₅ := r₄.trans h₅.frame.rxSame
  have s₅ := h₅.state.trans s₄
  refine .seq (publish_goes (hlive s₅)) (fun _ w₆ h₆ => ?_)
    fun _ _ h => r₅.trans h.lost.frame.rxSame
  have r₆ := r₅.trans h₆.frame.rxSame
  have s₆ := h₆.state.trans s₅
  refine .seq (signal_goes hn (hlive s₆)) (fun _ w₇ h₇ => ?_)
    fun _ _ h => r₆.trans h.lost.frame.rxSame
  exact update_spec ((r₆.trans h₇.frame.rxSame).trans ⟨rfl, rfl, rfl, rfl, rfl, rfl⟩)

end Session
end Gsp
end NvidiaGsp
