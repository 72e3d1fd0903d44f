import NvidiaGsp.Gsp.Transport

/-!
# Gsp.TransportSpec

What the helpers of a session do. `Quiet` is how the environment moves while a session only asks for
clocks and epochs, `Frame` what an access leaves of the session as it was, `Did` which accesses it
made. Each helper gets one triple; a failing one ends the session (`Lost`).
-/

namespace NvidiaGsp
namespace Gsp
namespace Session

open Bytes Call

variable {D : Type}

/-- The environment after some clock and epoch callbacks. -/
inductive Quiet (port : Port D) (d : D) : D → Prop where
  | refl : Quiet port d d
  | generation {d' : D} : Quiet port d d' → Quiet port d (port.generation d').2
  | nowNs {d' : D} : Quiet port d d' → Quiet port d (port.nowNs d').2
  | notification {d' : D} {n : Notification D} : port.notification = some n → Quiet port d d' →
      Quiet port d (n.generation d').2

theorem Quiet.trans {port : Port D} {d d' d'' : D} (h : Quiet port d d') (h' : Quiet port d' d'') :
    Quiet port d d'' := by
  induction h' with
  | refl => exact h
  | generation _ ih => exact ih.generation
  | nowNs _ ih => exact ih.nowNs
  | notification hn _ ih => exact ih.notification hn

/-- The environment after a whole check, whose last callback asks for the time. -/
def Clocked (port : Port D) (d d' : D) : Prop := ∃ d₁, Quiet port d d₁ ∧ d' = (port.nowNs d₁).2

theorem Clocked.quiet {port : Port D} {d d' : D} (h : Clocked port d d') : Quiet port d d' := by
  obtain ⟨d₁, h₁, rfl⟩ := h
  exact h₁.nowNs

/-- The environment after any callbacks. -/
inductive Reach (port : Port D) (d : D) : D → Prop where
  | quiet {d' : D} : Quiet port d d' → Reach port d d'
  | read {d' d'' : D} (deadline : Nat) (queue : Queue) (offset len : Nat) : Reach port d d' →
      Quiet port (port.read deadline queue offset len d').2 d'' → Reach port d d''
  | publish {d' d'' : D} (deadline : Nat) (queue : Queue) (offset : Nat) (input : List Byte) :
      Reach port d d' → Quiet port (port.publish deadline queue offset input d').2 d'' →
      Reach port d d''
  | signal {d' d'' : D} {n : Notification D} (deadline : Nat) (prepare : Bool) :
      port.notification = some n → Reach port d d' →
      Quiet port ((if prepare then n.prepare deadline else n.submit deadline) d').2 d'' →
      Reach port d d''

theorem Reach.refl {port : Port D} {d : D} : Reach port d d := .quiet .refl

theorem Reach.then {port : Port D} {d d' d'' : D} (h : Reach port d d') (h' : Quiet port d' d'') :
    Reach port d d'' := by
  cases h with
  | quiet h => exact .quiet (h.trans h')
  | read deadline queue offset len h hq => exact .read deadline queue offset len h (hq.trans h')
  | publish deadline queue offset input h hq =>
    exact .publish deadline queue offset input h (hq.trans h')
  | signal deadline prepare hn h hq => exact .signal deadline prepare hn h (hq.trans h')

theorem Reach.trans {port : Port D} {d d' d'' : D} (h : Reach port d d') (h' : Reach port d' d'') :
    Reach port d d'' := by
  induction h' with
  | quiet hq => exact h.then hq
  | read deadline queue offset len _ hq ih => exact .read deadline queue offset len ih hq
  | publish deadline queue offset input _ hq ih =>
    exact .publish deadline queue offset input ih hq
  | signal deadline prepare hn _ hq ih => exact .signal deadline prepare hn ih hq

/-- Only the state, the clock and the record of the last failed callback may differ. -/
def Frame (s s' : Session) : Prop :=
  s' = { s with
    state := s'.state
    lastClock := s'.lastClock
    lastIoError := s'.lastIoError
    lastIoFailure := s'.lastIoFailure }

theorem Frame.refl (s : Session) : Frame s s := rfl

theorem Frame.trans {s s' s'' : Session} (h : Frame s s') (h' : Frame s' s'') : Frame s s'' := by
  unfold Frame at *
  rw [h', h]

theorem frame_fail (s : Session) : Frame s { s with state := .failed } := rfl

theorem frame_clock (s : Session) (now : Nat) : Frame s { s with lastClock := now } := rfl

/-- The accesses made from `w` to `w'` all satisfy `P`. -/
def Did (P : Access → Prop) (w w' : World D) : Prop :=
  ∃ t, w'.trace = w.trace ++ t ∧ ∀ a ∈ t, P a

theorem Did.of_eq {P : Access → Prop} {w w' : World D} (h : w'.trace = w.trace) : Did P w w' :=
  ⟨[], by simp [h], by simp⟩

theorem Did.trans {P : Access → Prop} {w w' w'' : World D} (h : Did P w w') (h' : Did P w' w'') :
    Did P w w'' := by
  obtain ⟨t, ht, hp⟩ := h
  obtain ⟨t', ht', hp'⟩ := h'
  refine ⟨t ++ t', by rw [ht', ht, List.append_assoc], fun a ha => ?_⟩
  rcases List.mem_append.mp ha with ha | ha
  · exact hp a ha
  · exact hp' a ha

theorem Did.mono {P Q : Access → Prop} {w w' : World D} (h : Did P w w') (hpq : ∀ a, P a → Q a) :
    Did Q w w' := by
  obtain ⟨t, ht, hp⟩ := h
  exact ⟨t, ht, fun a ha => hpq a (hp a ha)⟩

/-- The errors of a clock, a deadline, an epoch or a callback of the port. -/
def Lifetime (e : Error) : Prop := e = .Stale ∨ e = .Clock ∨ e = .Deadline ∨ e = .Io

/-- The session went on: at most the clock and the environment moved. -/
structure Ticks (port : Port D) (w w' : World D) : Prop where
  env : Quiet port w.env w'.env
  trace : w'.trace = w.trace
  session : ∃ now, w'.session = { w.session with lastClock := now }

/-- The session failed with `e`. -/
structure Lost (port : Port D) (e : Error) (w w' : World D) : Prop where
  lifetime : Lifetime e
  failed : w'.session.state = .failed
  frame : Frame w.session w'.session
  env : Reach port w.env w'.env

section

variable {port : Port D} {w w' w'' : World D} {deadline : Nat}

theorem Ticks.refl : Ticks port w w := ⟨.refl, rfl, w.session.lastClock, rfl⟩

theorem Ticks.trans (h : Ticks port w w') (h' : Ticks port w' w'') : Ticks port w w'' := by
  obtain ⟨now, hn⟩ := h.session
  obtain ⟨now', hn'⟩ := h'.session
  exact ⟨h.env.trans h'.env, h'.trace.trans h.trace, now', by rw [hn', hn]⟩

theorem Ticks.state (h : Ticks port w w') : w'.session.state = w.session.state := by
  obtain ⟨now, hn⟩ := h.session
  rw [hn]

theorem Ticks.frame (h : Ticks port w w') : Frame w.session w'.session := by
  obtain ⟨now, hn⟩ := h.session
  rw [hn]
  exact frame_clock _ _

theorem Lost.of_ticks {e : Error} (h : Ticks port w w') (h' : Lost port e w' w'') : Lost port e w w'' :=
  ⟨h'.lifetime, h'.failed, h.frame.trans h'.frame, (Reach.quiet h.env).trans h'.env⟩

/-! ## Lifetime and clock -/

theorem stopIf_spec {c : Prop} [Decidable c] {e : Error} {Q : Unit → World D → Prop}
    {E : Error → World D → Prop}
    (hc : c → E e { w with session := { w.session with state := .failed } })
    (h : ¬ c → Q () w) : Spec (stopIf c e : Transport D Unit) w Q E := by
  unfold stopIf
  split
  · exact hc ‹_›
  · exact h ‹_›

theorem update_spec {f : Session → Session} {Q : Unit → World D → Prop} {E : Error → World D → Prop}
    (h : Q () { w with session := f w.session }) : Spec (update f : Transport D Unit) w Q E := h

theorem update_bind {β : Type} {f : Session → Session} {g : Unit → Transport D β}
    {Q : β → World D → Prop} {E : Error → World D → Prop}
    (h : Spec (g ()) { w with session := f w.session } Q E) : Spec (update f >>= g) w Q E := h

theorem checkNotification_spec {epoch : Nat} :
    Spec (checkNotification port epoch) w (fun _ w' => Ticks port w w')
      (fun e w' => Lost port e w w' ∧ w'.trace = w.trace) := by
  unfold checkNotification
  split
  · exact Ticks.refl
  · rename_i n hn
    refine .bind (?_ : Spec (stopIf _ _) _ _ _)
    exact stopIf_spec
      (fun _ => ⟨⟨.inl rfl, rfl, frame_fail _, .quiet (.notification hn .refl)⟩, rfl⟩)
      (fun _ => ⟨.notification hn .refl, rfl, w.session.lastClock, rfl⟩)

theorem checkLifetimeClock_spec (hs : w.session.state ≠ .failed) :
    Spec (checkLifetimeClock port) w (fun _ w' => Ticks port w w' ∧ Clocked port w.env w'.env)
      (fun e w' => Lost port e w w' ∧ w'.trace = w.trace) := by
  unfold checkLifetimeClock
  refine .get_bind (.failIf_bind (fun h => absurd h hs) fun _ => ?_)
  refine .bind (?_ : Spec (stopIf _ _ >>= _) _ _ _)
  have hw : Ticks port w { w with env := (port.generation w.env).2 } :=
    ⟨.generation .refl, rfl, w.session.lastClock, rfl⟩
  refine .bind (stopIf_spec (fun _ => ⟨⟨.inl rfl, rfl, frame_fail _, .quiet hw.env⟩, rfl⟩)
    fun _ => ?_)
  refine .seq checkNotification_spec (fun _ w₁ h₁ => ?_)
    (fun e w₁ h₁ => ⟨h₁.1.of_ticks hw, h₁.2.trans hw.trace⟩)
  have hw₁ := hw.trans h₁
  refine .bind (?_ : Spec (stopIf _ _ >>= _) _ _ _)
  have hw₂ : Ticks port w { w₁ with env := (port.nowNs w₁.env).2 } :=
    hw₁.trans ⟨.nowNs .refl, rfl, w₁.session.lastClock, rfl⟩
  refine .bind (stopIf_spec (fun _ => ?_) fun _ => ?_)
  · exact ⟨⟨.inr (.inl rfl), rfl, hw₂.frame.trans (frame_fail _), .quiet hw₂.env⟩, hw₂.trace⟩
  · exact ⟨hw₂.trans ⟨.refl, rfl, _, rfl⟩, w₁.env, hw₁.env, rfl⟩

theorem check_clocked (hs : w.session.state ≠ .failed) :
    Spec (check port deadline) w (fun _ w' => Ticks port w w' ∧ Clocked port w.env w'.env)
      (fun e w' => Lost port e w w' ∧ w'.trace = w.trace) := by
  unfold check
  refine .seq (checkLifetimeClock_spec hs) (fun _ w₁ h₁ => .get_bind ?_) (fun _ _ h => h)
  refine stopIf_spec (fun _ => ?_) fun _ => h₁
  have h₁ := h₁.1
  exact ⟨⟨.inr (.inr (.inl rfl)), rfl, h₁.frame.trans (frame_fail _), .quiet h₁.env⟩, h₁.trace⟩

theorem check_spec (hs : w.session.state ≠ .failed) :
    Spec (check port deadline) w (fun _ w' => Ticks port w w')
      (fun e w' => Lost port e w w' ∧ w'.trace = w.trace) :=
  (check_clocked hs).mono (fun _ _ h => h.1) fun _ _ h => h

/-! ## Accesses -/

theorem lost_io {d : D} (hd : Reach port w.env d) (t : List Access) (code : Nat)
    (failure : IoFailure) : Lost port .Io w ⟨{ w.session with
      lastIoError := some code
      lastIoFailure := some failure
      state := .failed }, d, t⟩ :=
  ⟨.inr (.inr (.inr rfl)), rfl, rfl, hd⟩

/-- A read that succeeded: what the port answered, between quiet moves of the environment. -/
structure Reads (port : Port D) (deadline : Nat) (queue : Queue) (offset len : Nat)
    (bytes : List Byte) (w w' : World D) : Prop where
  trace : w'.trace = w.trace ++ [.read queue offset bytes]
  session : ∃ now, w'.session = { w.session with lastClock := now }
  port : ∃ d₁ d₂ content, Quiet port w.env d₁ ∧
    port.read deadline queue offset len d₁ = (.ok content, d₂) ∧
    bytes = (List.range len).map content ∧ Clocked port d₂ w'.env

theorem Reads.state {queue : Queue} {offset len : Nat} {bytes : List Byte}
    (h : Reads port deadline queue offset len bytes w w') :
    w'.session.state = w.session.state := by
  obtain ⟨now, hn⟩ := h.session
  rw [hn]

theorem Reads.reach {queue : Queue} {offset len : Nat} {bytes : List Byte}
    (h : Reads port deadline queue offset len bytes w w') : Reach port w.env w'.env := by
  obtain ⟨d₁, d₂, content, h₁, hread, -, h₂⟩ := h.port
  exact .read deadline queue offset len (.quiet h₁) (by rw [hread]; exact h₂.quiet)

theorem read_spec {queue : Queue} {offset len : Nat} (hs : w.session.state ≠ .failed) :
    Spec (read port deadline queue offset len) w
      (fun bytes w' => Reads port deadline queue offset len bytes w w')
      (fun e w' => Lost port e w w' ∧ (w'.trace = w.trace ∨
        ∃ bytes, w'.trace = w.trace ++ [.read queue offset bytes])) := by
  unfold read
  refine .seq (check_spec hs) (fun _ w₁ h₁ => ?_) (fun _ _ h => ⟨h.1, .inl h.2⟩)
  refine .bind (?_ : Spec (settleRead _ _ _ _ _ >>= _) _ _ _)
  cases hread : port.read deadline queue offset len w₁.env with
  | mk result d =>
    have hd : Reach port w₁.env d :=
      .read deadline queue offset len .refl (by rw [hread]; exact .refl)
    cases result with
    | error code =>
      refine .bind ?_
      exact ⟨.of_ticks h₁ (lost_io hd w₁.trace code _), .inl h₁.trace⟩
    | ok content =>
      refine .bind ?_
      refine .bind (?_ : Spec (check port deadline >>= fun _ => _) _ _ _)
      refine .seq (check_clocked (by rw [h₁.state]; exact hs)) (fun _ w₂ h₂ => ?_)
        fun e w₂ h₂ => ?_
      · obtain ⟨now, hn⟩ := h₁.session
        obtain ⟨now', hn'⟩ := h₂.1.session
        refine ⟨?_, ⟨now', ?_⟩, w₁.env, d, content, h₁.env, hread, rfl, h₂.2⟩
        · rw [h₂.1.trace, h₁.trace]
        · rw [hn', hn]
      · refine ⟨⟨h₂.1.lifetime, h₂.1.failed, h₁.frame.trans h₂.1.frame,
          (Reach.quiet h₁.env).trans (hd.trans h₂.1.env)⟩,
          .inr ⟨(List.range len).map content, ?_⟩⟩
        rw [h₂.2, h₁.trace]

/-- A publication that succeeded. -/
structure Publishes (port : Port D) (deadline : Nat) (queue : Queue) (offset : Nat)
    (input : List Byte) (w w' : World D) : Prop where
  trace : w'.trace = w.trace ++ [.publish queue offset input]
  session : ∃ now, w'.session = { w.session with lastClock := now }
  port : ∃ d₁ d₂, Quiet port w.env d₁ ∧ port.publish deadline queue offset input d₁ = (none, d₂) ∧
    Clocked port d₂ w'.env

theorem Publishes.state {queue : Queue} {offset : Nat} {input : List Byte}
    (h : Publishes port deadline queue offset input w w') :
    w'.session.state = w.session.state := by
  obtain ⟨now, hn⟩ := h.session
  rw [hn]

theorem Publishes.reach {queue : Queue} {offset : Nat} {input : List Byte}
    (h : Publishes port deadline queue offset input w w') : Reach port w.env w'.env := by
  obtain ⟨d₁, d₂, h₁, hpub, h₂⟩ := h.port
  exact .publish deadline queue offset input (.quiet h₁) (by rw [hpub]; exact h₂.quiet)

theorem publish_spec {queue : Queue} {offset : Nat} {input : List Byte}
    (hs : w.session.state ≠ .failed) :
    Spec (publish port deadline queue offset input) w
      (fun _ w' => Publishes port deadline queue offset input w w')
      (fun e w' => Lost port e w w' ∧ (w'.trace = w.trace ∨
        w'.trace = w.trace ++ [.publish queue offset input])) := by
  unfold publish
  refine .seq (check_spec hs) (fun _ w₁ h₁ => ?_) (fun _ _ h => ⟨h.1, .inl h.2⟩)
  refine .bind (?_ : Spec (callback _ >>= _) _ _ _)
  refine .bind (?_ : Spec (settle _ _ >>= _) _ _ _)
  cases hpub : port.publish deadline queue offset input w₁.env with
  | mk result d =>
    have hd : Reach port w₁.env d :=
      .publish deadline queue offset input .refl (by rw [hpub]; exact .refl)
    have htrace : w₁.trace ++ [.publish queue offset input] =
        w.trace ++ [.publish queue offset input] := by rw [h₁.trace]
    cases result with
    | some code =>
      refine .bind ?_
      exact ⟨.of_ticks h₁ (lost_io hd _ code _), .inr htrace⟩
    | none =>
      refine .bind (?_ : Spec (check port deadline) _ _ _)
      refine (check_clocked (by rw [h₁.state]; exact hs)).mono (fun _ w₂ h₂ => ?_) fun e w₂ h₂ => ?_
      · obtain ⟨now, hn⟩ := h₁.session
        obtain ⟨now', hn'⟩ := h₂.1.session
        refine ⟨?_, ⟨now', ?_⟩, w₁.env, d, h₁.env, hpub, h₂.2⟩
        · rw [h₂.1.trace]
          exact htrace
        · rw [hn', hn]
      · refine ⟨⟨h₂.1.lifetime, h₂.1.failed, h₁.frame.trans h₂.1.frame,
          (Reach.quiet h₁.env).trans (hd.trans h₂.1.env)⟩, .inr ?_⟩
        rw [h₂.2]
        exact htrace

theorem readWord_spec {location : Location} (hs : w.session.state ≠ .failed) :
    Spec (readWord port deadline location) w
      (fun v w' => ∃ bytes, v = word bytes 0 ∧
        Reads port deadline location.queue location.offset 4 bytes w w')
      (fun e w' => Lost port e w w' ∧ (w'.trace = w.trace ∨
        ∃ bytes, w'.trace = w.trace ++ [.read location.queue location.offset bytes])) := by
  unfold readWord
  exact .seq (read_spec hs) (fun bytes w₁ h₁ => ⟨bytes, rfl, h₁⟩) fun _ _ h => h

/-- The session went on after accesses that satisfy `P`. -/
structure Goes (port : Port D) (P : Access → Prop) (w w' : World D) : Prop where
  did : Did P w w'
  env : Reach port w.env w'.env
  session : ∃ now, w'.session = { w.session with lastClock := now }

/-- The session failed with `e` after accesses that satisfy `P`. -/
structure Ends (port : Port D) (P : Access → Prop) (e : Error) (w w' : World D) : Prop where
  did : Did P w w'
  lost : Lost port e w w'

theorem Goes.state {P : Access → Prop} (h : Goes port P w w') :
    w'.session.state = w.session.state := by
  obtain ⟨now, hn⟩ := h.session
  rw [hn]

theorem Goes.frame {P : Access → Prop} (h : Goes port P w w') : Frame w.session w'.session := by
  obtain ⟨now, hn⟩ := h.session
  rw [hn]
  exact frame_clock _ _

theorem Ticks.goes {P : Access → Prop} (h : Ticks port w w') : Goes port P w w' :=
  ⟨.of_eq h.trace, .quiet h.env, h.session⟩

theorem Goes.trans {P : Access → Prop} (h : Goes port P w w') (h' : Goes port P w' w'') : Goes port P w w'' := by
  obtain ⟨now, hn⟩ := h.session
  obtain ⟨now', hn'⟩ := h'.session
  exact ⟨h.did.trans h'.did, h.env.trans h'.env, now', by rw [hn', hn]⟩

theorem Goes.mono {P Q : Access → Prop} (h : Goes port P w w') (hpq : ∀ a, P a → Q a) : Goes port Q w w' :=
  ⟨h.did.mono hpq, h.env, h.session⟩

theorem Ends.of_goes {P : Access → Prop} {e : Error} (h : Goes port P w w') (h' : Ends port P e w' w'') :
    Ends port P e w w'' :=
  ⟨h.did.trans h'.did, h'.lost.lifetime, h'.lost.failed, h.frame.trans h'.lost.frame,
    h.env.trans h'.lost.env⟩

theorem Ends.mono {P Q : Access → Prop} {e : Error} (h : Ends port P e w w') (hpq : ∀ a, P a → Q a) :
    Ends port Q e w w' := ⟨h.did.mono hpq, h.lost⟩

theorem Did.single {a : Access} (h : w'.trace = w.trace ++ [a]) : Did (· = a) w w' :=
  ⟨[a], h, by simp⟩

theorem publish_goes {queue : Queue} {offset : Nat} {input : List Byte}
    (hs : w.session.state ≠ .failed) :
    Spec (publish port deadline queue offset input) w
      (fun _ w' => Goes port (· = .publish queue offset input) w w')
      (fun e w' => Ends port (· = .publish queue offset input) e w w') := by
  refine (publish_spec hs).mono (fun _ w' h => ⟨.single h.trace, h.reach, h.session⟩)
    fun e w' h => ?_
  rcases h.2 with ht | ht
  · exact ⟨.of_eq ht, h.1⟩
  · exact ⟨.single ht, h.1⟩

theorem signal_goes {prepare : Bool} {n : Notification D} (hn : port.notification = some n)
    (hs : w.session.state ≠ .failed) :
    Spec (signal port deadline prepare) w
      (fun _ w' => Goes port (· = if prepare then .prepare else .submit) w w')
      (fun e w' => Ends port (· = if prepare then .prepare else .submit) e w w') := by
  unfold signal
  refine .seq (check_spec hs) (fun _ w₁ h₁ => ?_) (fun _ _ h => ⟨.of_eq h.2, h.1⟩)
  simp only [hn]
  unfold notify
  refine .bind (?_ : Spec (callback _ >>= _) _ _ _)
  refine .bind (?_ : Spec (settle _ _ >>= _) _ _ _)
  cases hsig : (if prepare then n.prepare deadline else n.submit deadline) w₁.env with
  | mk result d =>
    have hd : Reach port w₁.env d := .signal deadline prepare hn .refl (by rw [hsig]; exact .refl)
    have htrace : w₁.trace ++ [if prepare then .prepare else .submit] =
        w.trace ++ [if prepare then .prepare else .submit] := by rw [h₁.trace]
    cases result with
    | some code =>
      refine .bind ?_
      exact ⟨.single htrace, .of_ticks h₁ (lost_io hd _ code _)⟩
    | none =>
      refine .bind (?_ : Spec (check port deadline) _ _ _)
      refine (check_spec (by rw [h₁.state]; exact hs)).mono (fun _ w₂ h₂ => ?_) fun e w₂ h₂ => ?_
      · obtain ⟨now, hn₁⟩ := h₁.session
        obtain ⟨now', hn₂⟩ := h₂.session
        exact ⟨.single (h₂.trace.trans htrace), (Reach.quiet h₁.env).trans (hd.then h₂.env), now',
          by rw [hn₂, hn₁]⟩
      · exact ⟨.single (h₂.2.trans htrace), h₂.1.lifetime, h₂.1.failed,
          h₁.frame.trans h₂.1.frame, (Reach.quiet h₁.env).trans (hd.trans h₂.1.env)⟩

/-- The publications of a record cover its spans and nothing else. -/
def Within (spans : List Span) (a : Access) : Prop :=
  ∃ span ∈ spans, ∃ bytes : List Byte, bytes.length ≤ span.bytes ∧
    a = .publish .command span.offset bytes

theorem publishSpans_goes {spans : List Span} {bytes : List Byte}
    (hs : w.session.state ≠ .failed) :
    Spec (publishSpans port deadline spans bytes) w (fun _ w' => Goes port (Within spans) w w')
      (fun e w' => Ends port (Within spans) e w w') := by
  induction spans generalizing w bytes with
  | nil => exact ⟨.of_eq rfl, .refl, w.session.lastClock, rfl⟩
  | cons span spans ih =>
    have hhead (a : Access) (ha : a = .publish .command span.offset (bytes.take span.bytes)) :
        Within (span :: spans) a :=
      ⟨span, by simp, bytes.take span.bytes, List.length_take_le _ _, ha⟩
    have htail (a : Access) (ha : Within spans a) : Within (span :: spans) a := by
      obtain ⟨s, hm, rest⟩ := ha
      exact ⟨s, List.mem_cons_of_mem _ hm, rest⟩
    refine .seq (publish_goes hs) (fun _ w₁ h₁ => ?_) (fun e w₁ h₁ => h₁.mono hhead)
    have hg := h₁.mono hhead
    refine (ih (by rw [h₁.state]; exact hs)).mono (fun _ w₂ h₂ => ?_) fun e w₂ h₂ => ?_
    · exact hg.trans (h₂.mono htail)
    · exact .of_goes hg (h₂.mono htail)

end

end Session
end Gsp
end NvidiaGsp
