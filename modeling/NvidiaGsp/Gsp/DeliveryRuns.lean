import NvidiaGsp.Gsp.ExchangeRuns
import NvidiaGsp.Gsp.Delivery

/-!
# Gsp.DeliveryRuns

Whole runs of the receive path. A session waits for its device, through a preload and any number of
refused connects (`Awaits`). The connect that succeeds puts it in step with the producer
(`connect_synced`), every receive, acknowledgement and guard keeps it so, and the acknowledged
records are a prefix of the produced ones (`delivery_run`).
-/

namespace NvidiaGsp
namespace Gsp

open Bytes Call Cyclic Memory

variable {f : Firmware} {script : Script}

/-! ## Connecting -/

/-- A device before its session connects: the command ring is set up, and the status ring is set up
and empty or will be. -/
structure Fresh (f : Firmware) (d : Device) : Prop where
  command : Announces f.command d.command
  read : wordAt (d.mem f.readAt.queue) f.readAt.offset = 0
  records : d.records = []
  stored : d.stored = 0
  published : d.published = 0
  status : if d.ready then Announces f.layout d.status ∧ wordAt d.status 16 = 0
    else ∀ header, Ring.inspect (peek d.status 0 ringHeaderBytes) ≠ .ok header

theorem Fresh.waits {d : Device} (h : Fresh f d) : Waits f d := by
  have hslots := f.valid.slots_bounds
  have hsized : Sized d.records := by
    rw [h.records]
    intro r hr
    cases hr
  have hstatus := h.status
  cases hready : d.ready with
  | false =>
    rw [hready, if_neg (by decide)] at hstatus
    exact ⟨h.command, h.read, hsized, .inl ⟨hready, h.stored, h.published, hstatus⟩⟩
  | true =>
    rw [hready, if_pos rfl] at hstatus
    refine .of_serves ⟨hready, ?_, ?_, Nat.zero_le _, ?_, ?_, hsized, ?_, ?_⟩ h.command hstatus.1
    · rw [h.read, Nat.zero_mod]
      rfl
    · rw [hstatus.2, h.published, Nat.zero_mod]
      rfl
    · rw [h.published]
      exact Nat.zero_le _
    · rw [h.stored]
      omega
    · rw [h.stored]
      exact Nat.zero_le _
    · intro k _ hk
      rw [h.stored] at hk
      omega

theorem Waits.quiet {d d' : Device} (h : Waits f d)
    (hq : Session.Quiet (Device.port f script) d d') : Waits f d' := by
  induction hq with
  | refl => exact h
  | generation _ ih => exact ih.advance script
  | nowNs _ ih => exact ih.advance script
  | notification hn _ ih =>
    unfold Device.port at hn
    obtain ⟨gen, -, rfl⟩ := Option.map_eq_some_iff.mp hn
    exact ih.advance script

/-- A predicate the producer keeps holds at the moment a read sees, and after it. -/
theorem reads_moment {P : Device → Prop} {w w' : World Device} {deadline offset len : Nat}
    {queue : Queue} {bytes : List Byte}
    (hr : Session.Reads (Device.port f script) deadline queue offset len bytes w w')
    (hP : ∀ d, P d → P (d.advance f script)) (h : P w.env) :
    P w'.env ∧ ∃ d, P d ∧ bytes = peek (d.mem queue) offset len ∧
      Session.Clocked (Device.port f script) d w'.env := by
  have hquiet {d d' : Device} (hd : P d) (hq : Session.Quiet (Device.port f script) d d') :
      P d' := by
    induction hq with
    | refl => exact hd
    | generation _ ih => exact hP _ ih
    | nowNs _ ih => exact hP _ ih
    | notification hn _ ih =>
      unfold Device.port at hn
      obtain ⟨gen, -, rfl⟩ := Option.map_eq_some_iff.mp hn
      exact hP _ ih
  obtain ⟨d₁, d₂, content, hq₁, hread, hbytes, hq₂⟩ := hr.port
  have h₂ := hP _ (hquiet h hq₁)
  have hread' : Device.read f script queue offset d₁ = (.ok content, d₂) := hread
  unfold Device.read at hread'
  split at hread'
  · cases hread'
  · cases hread'
    exact ⟨hquiet h₂ hq₂.quiet, _, h₂, hbytes, hq₂⟩

/-- A session that did not connect yet, and its device. -/
structure Awaits (f : Firmware) (w : World Device) : Prop where
  state : w.session.state = .linking
  profile : w.session.profile.admitted = true
  rxRead : w.session.rxRead = 0
  rxSequence : w.session.rxSequence = 0
  pending : w.session.pending = none
  device : Waits f w.env

theorem Awaits.ticks {w w' : World Device} (h : Awaits f w)
    (ht : Session.Ticks (Device.port f script) w w') : Awaits f w' := by
  obtain ⟨now, hnow⟩ := ht.session
  rw [show w' = ⟨w'.session, w'.env, w'.trace⟩ from rfl, hnow]
  exact ⟨h.state, h.profile, h.rxRead, h.rxSequence, h.pending, h.device.quiet ht.env⟩

theorem connect_synced {w w' : World Device} (h : Awaits f w)
    (hc : Session.ConnectOk (Device.port f script) w w') :
    w'.session.state = .active ∧ w'.session.pending = none ∧ Synced f 0 w'.session w'.env := by
  obtain ⟨-, limit, own, peer, txRead, rxRead, link, w₁, w₂, w₃, w₄, now, r₁, r₂, hlink, r₃, r₄, -,
    henv, hsession⟩ := hc
  have hwaits (d : Device) (hd : Waits f d) : Waits f (d.advance f script) := hd.advance script
  obtain ⟨h₁, d₁, hd₁, hown, -⟩ := reads_moment r₁ hwaits h.device
  obtain ⟨-, d₂, hd₂, hpeer, hq⟩ := reads_moment r₂ hwaits h₁
  obtain ⟨hcommand, hstatus, hswap, -, hread⟩ := Ring.inspectLink_ok hlink
  rw [hown] at hcommand
  rw [hpeer] at hstatus
  obtain ⟨hs₂, hannounces⟩ := hd₂.status.resolve_left fun hopen => hopen.2.2.2 _ hstatus
  -- The cursor read with the header bounds every later one.
  have hlater (d : Device) (hd' : Serves f 0 d ∧ d₂.published ≤ d.published) :
      Serves f 0 (d.advance f script) ∧ d₂.published ≤ (d.advance f script).published := by
    obtain ⟨hs, g⟩ := hd'.1.advance script
    exact ⟨hs, Nat.le_trans hd'.2 g.published⟩
  obtain ⟨hs₂', g₂⟩ := hs₂.quiet hq.quiet
  obtain ⟨h₃, -⟩ := reads_moment r₃ hlater ⟨hs₂', g₂.published⟩
  obtain ⟨h₄, -⟩ := reads_moment r₄ hlater h₃
  have hlayout : link.command.layout = f.command :=
    (announces_inspect hcommand).1.unique hd₁.command
  obtain ⟨hpeers, hwrite⟩ := announces_inspect hstatus
  have hlayout' : link.status.layout = f.layout := hpeers.unique hannounces
  have hcursor : link.status.write = d₂.published % f.layout.slots := by
    rw [hwrite, ← toNat_cursor, ← hs₂.cursor]
    rfl
  have hat : link.statusRead = f.readAt := by
    rw [hread, hswap, hlayout, hlayout']
    rfl
  have hnone (t : Ticket) (ht : w.session.pending = some t) : False := by
    rw [h.pending] at ht
    cases ht
  rw [henv, hsession]
  refine ⟨rfl, h.pending, ⟨link, rfl, hlayout', hat⟩, h.profile, Nat.zero_le _, h₄.1, ?_,
    h.rxSequence, ⟨d₂.published, Nat.zero_le _, h₄.2, hcursor, fun t ht => (hnone t ht).elim⟩,
    fun t ht => (hnone t ht).elim⟩
  rw [show w₄.env.start 0 = 0 from rfl, Nat.zero_mod]
  exact h.rxRead

/-- A connect that is refused without failing the session can be repeated. -/
theorem connect_awaits {w w' : World Device} (h : Awaits f w)
    (hc : Session.ConnectError (Device.port f script) w w') (hlive : w'.session.state ≠ .failed) :
    Awaits f w' := by
  have hwaits (d : Device) (hd : Waits f d) : Waits f (d.advance f script) := hd.advance script
  rcases hc.outcome with hf | rfl | ⟨limit, own, peer, w₁, r₁, r₂⟩
  · exact absurd hf hlive
  · exact h
  · obtain ⟨h₁, -⟩ := reads_moment r₁ hwaits h.device
    obtain ⟨h₂, -⟩ := reads_moment r₂ hwaits h₁
    obtain ⟨now₁, hnow₁⟩ := r₁.session
    obtain ⟨now₂, hnow₂⟩ := r₂.session
    have hsession : w'.session = { w.session with lastClock := now₂, linkDeadline := some limit } := by
      rw [hnow₂, hnow₁]
    rw [show w' = ⟨w'.session, w'.env, w'.trace⟩ from rfl, hsession]
    exact ⟨h.state, h.profile, h.rxRead, h.rxSequence, h.pending, h₂⟩

/-! ## Preloading -/

section

variable {w : World Device} {deadline : Nat}

theorem publish_waits {offset : Nat} {input : List Byte} (hs : w.session.state ≠ .failed)
    (h : Waits f w.env) (hout : f.command.entriesOffset ≤ offset ∨ offset = 16 ∧ input.length = 4) :
    Spec (Session.publish (Device.port f script) deadline .command offset input) w
      (fun _ w' => w'.session.state = w.session.state ∧ Waits f w'.env) fun _ _ => True := by
  refine (Session.publish_spec hs).mono (fun _ w' hp => ⟨hp.state, ?_⟩) fun _ _ _ => trivial
  obtain ⟨d₁, d₂, hq₁, hok, hq₂⟩ := hp.port
  rw [publish_ok hok] at hq₂
  exact (((h.quiet hq₁).advance script).preload hout).quiet hq₂.quiet

theorem publishSpans_waits {spans : List Span} {bytes : List Byte}
    (hs : w.session.state ≠ .failed) (h : Waits f w.env)
    (hspans : ∀ span ∈ spans, f.command.entriesOffset ≤ span.offset) :
    Spec (Session.publishSpans (Device.port f script) deadline spans bytes) w
      (fun _ w' => w'.session.state = w.session.state ∧ Waits f w'.env) fun _ _ => True := by
  induction spans generalizing w bytes with
  | nil => exact ⟨rfl, h⟩
  | cons span spans ih =>
    refine .seq (publish_waits hs h (.inl (hspans span List.mem_cons_self)))
      (fun _ w₁ h₁ => ?_) fun _ _ _ => trivial
    refine (ih (by rw [h₁.1]; exact hs) h₁.2 fun s hm => hspans s (List.mem_cons_of_mem _ hm)).mono
      (fun _ w₂ h₂ => ⟨h₂.1.trans h₁.1, h₂.2⟩) fun _ _ _ => trivial

theorem spansAt_low {layout : Layout} {cursor count : Nat} :
    ∀ span ∈ Ring.spansAt layout cursor count, layout.entriesOffset ≤ span.offset := by
  intro span hspan
  unfold Ring.spansAt at hspan
  dsimp only at hspan
  rcases List.mem_cons.mp hspan with rfl | hspan
  · exact Nat.le_add_right _ _
  · split at hspan
    · cases hspan
    · rw [List.mem_singleton.mp hspan]

theorem preloadMessage_waits {payload : Slice} {function : Word} (hs : w.session.state ≠ .failed)
    (h : Waits f w.env) :
    Spec (Session.preloadMessage (Device.port f script) deadline f.command payload function) w
      (fun _ w' => w'.session.state = w.session.state ∧ Waits f w'.env) fun _ _ => True := by
  unfold Session.preloadMessage
  refine .get_bind (.lift_bind (fun _ _ => trivial) fun encoded _ => ?_)
  refine .lift_bind (fun _ _ => trivial) fun plan hplan => ?_
  obtain ⟨-, -, -, -, -, hspans, -⟩ := Ring.transmit_ok hplan
  rw [hspans]
  refine .seq (publishSpans_waits hs h spansAt_low) (fun _ w₁ h₁ => ?_) fun _ _ _ => trivial
  refine .seq (publish_waits (by rw [h₁.1]; exact hs) h₁.2 (.inr ⟨rfl, length_le32 _⟩))
    (fun _ w₂ h₂ => ?_) fun _ _ _ => trivial
  exact Session.update_spec ⟨h₂.1.trans h₁.1, h₂.2⟩

theorem preloadBody_waits {system registry : Slice} (hs : w.session.state ≠ .failed)
    (h : Waits f w.env) :
    Spec (Session.preloadBody (Device.port f script) deadline system registry) w
      (fun _ w' => Waits f w'.env) fun _ _ => True := by
  have hwaits (d : Device) (hd : Waits f d) : Waits f (d.advance f script) := hd.advance script
  unfold Session.preloadBody
  refine .seq (Session.read_spec hs) (fun own w₁ r₁ => ?_) fun _ _ _ => trivial
  obtain ⟨h₁, d₁, hd₁, hown, -⟩ := reads_moment r₁ hwaits h
  refine .lift_bind (fun _ _ => trivial) fun header hheader => .failIf_bind (fun _ => trivial) fun _ => ?_
  rw [hown] at hheader
  have hlayout : header.layout = f.command := (announces_inspect hheader).1.unique hd₁.command
  have hs₁ : w₁.session.state ≠ .failed := by
    rw [r₁.state]
    exact hs
  refine .seq (Session.readWord_spec hs₁) (fun _ w₂ r₂ => ?_) fun _ _ _ => trivial
  obtain ⟨_, -, r₂⟩ := r₂
  obtain ⟨h₂, -⟩ := reads_moment r₂ hwaits h₁
  have hs₂ : w₂.session.state ≠ .failed := by
    rw [r₂.state]
    exact hs₁
  refine .failIf_bind (fun _ => trivial) fun _ => ?_
  refine .seq (Session.read_spec hs₂) (fun _ w₃ r₃ => ?_) fun _ _ _ => trivial
  obtain ⟨h₃, -⟩ := reads_moment r₃ hwaits h₂
  have hs₃ : w₃.session.state ≠ .failed := by
    rw [r₃.state]
    exact hs₂
  refine .failIf_bind (fun _ => trivial) fun _ => Session.update_bind ?_
  rw [hlayout]
  refine .seq (preloadMessage_waits hs₃ h₃) (fun _ w₄ h₄ => ?_) fun _ _ _ => trivial
  exact (preloadMessage_waits (by rw [h₄.1]; exact hs₃) h₄.2).mono (fun _ _ h₅ => h₅.2)
    fun _ _ _ => trivial

/-- A preload leaves the session linking, or it was refused at its entry, or the session failed. -/
theorem preloadInit_awaits {system registry : Slice} (h : Awaits f w) :
    Spec (Session.preloadInit (Device.port f script) deadline system registry) w
      (fun _ w' => Awaits f w') (fun _ w' => w' = w ∨ w'.session.state = .failed) := by
  unfold Session.preloadInit
  refine .get_bind (.failIf_bind (fun _ => .inl rfl) fun _ => .failIf_bind (fun _ => .inl rfl) fun _ => ?_)
  have hlive : w.session.state ≠ .failed := by simp [h.state]
  have hbody := (@Session.preloadBody_spec _ (Device.port f script)
    { w with session := { w.session with preloaded := true } } deadline system registry hlive).both
    (preloadBody_waits hlive h.device)
  refine Session.update_bind (Session.errdefer_spec (hbody.mono (fun _ w₁ h₁ => ?_) fun _ _ _ => .inr rfl))
  obtain ⟨hp, hd⟩ := h₁
  exact ⟨hp.state.trans h.state, hp.profile ▸ h.profile, hp.rxRead.trans h.rxRead,
    hp.rxSequence.trans h.rxSequence, hp.pending.trans h.pending, hd⟩

end

/-! ## Histories -/

/-- The calls that set a session up. -/
def Connecting : Session.Op → Prop
  | .preloadInit _ _ _ | .connect _ => True
  | _ => False

/-- The calls of a session that is set up. -/
def Receiving : Session.Op → Prop
  | .receive _ | .acknowledge _ _ | .guard _ => True
  | _ => False

/-- The calls of the receive path. -/
def Reception (op : Session.Op) : Prop := Connecting op ∨ Receiving op

/-- What the caller has in hand: the record of the last receipt while it is not acknowledged, and
the acknowledged records in order. -/
structure Inbox where
  held : Option Record := none
  done : List Record := []

abbrev ReceiveLog := List (Event (World Device) Session.Op (Except Error Session.Answer))

def Inbox.after (b : Inbox) (e : Event (World Device) Session.Op (Except Error Session.Answer)) :
    Inbox :=
  match e.op, e.out with
  | .receive _, .ok (.received (some r)) => { b with held := some r.record }
  | .acknowledge _ _, .ok _ => ⟨none, b.done ++ b.held.toList⟩
  | _, _ => b

def inbox (h : ReceiveLog) : Inbox := h.foldl Inbox.after {}

theorem inbox_snoc (h : ReceiveLog) (e : Event (World Device) Session.Op (Except Error Session.Answer)) :
    inbox (h ++ [e]) = (inbox h).after e := by
  simp [inbox, List.foldl_append]

/-- The record as its producer knows it. -/
def Record.content (r : Record) : Produced := ⟨r.rpc, r.payload⟩

/-- The inbox agrees with the producer, and a session that still works is in step. -/
structure Delivers (f : Firmware) (b : Inbox) (w : World Device) : Prop where
  done : b.done.map Record.content <+: w.env.records
  held : ∀ r, b.held = some r → w.env.records[b.done.length]? = some r.content
  live : w.session.state ≠ .failed → w.session.state = .active ∧
    Synced f b.done.length w.session w.env ∧
    ∀ t, w.session.pending = some t → b.held ≠ none

/-- The reasons a call of the receive path may fail the session for. -/
def Reason (s : Session) (e : Error) : Prop :=
  Session.Lifetime e ∨ e = .Exhausted ∧ s.nextTicket = maxU64

theorem prefix_snoc {α : Type} {l m : List α} {x : α} (h : l <+: m) (hx : m[l.length]? = some x) :
    l ++ [x] <+: m := by
  obtain ⟨t, rfl⟩ := h
  rw [List.getElem?_append_right (Nat.le_refl _), Nat.sub_self] at hx
  cases t with
  | nil => cases hx
  | cons y t =>
    cases hx
    exact ⟨t, by simp⟩

section

variable {b : Inbox} {w w' : World Device}

theorem Delivers.grow (h : Delivers f b w) (hg : w.env.records <+: w'.env.records)
    (hlive : w'.session.state ≠ .failed → w'.session.state = .active ∧
      Synced f b.done.length w'.session w'.env ∧
      ∀ t, w'.session.pending = some t → b.held ≠ none) : Delivers f b w' := by
  refine ⟨h.done.trans hg, fun r hr => ?_, hlive⟩
  have hget := h.held r hr
  obtain ⟨t, ht⟩ := hg
  rw [← ht, List.getElem?_append_left (List.getElem?_eq_some_iff.mp hget).1]
  exact hget

theorem Delivers.fails {why : Prop} {e : Error} (h : Delivers f b w)
    (hs : w.session.state = .active) (he : Fails f b.done.length why e w w') :
    Delivers f b w' ∧ (w'.session.state = .failed → Reason w.session e) := by
  cases he with
  | lost hl hf hg => exact ⟨h.grow hg fun hn => absurd hf hn, fun _ => .inl hl⟩
  | exhausted he ht hf hg => exact ⟨h.grow hg fun hn => absurd hf hn, fun _ => .inr ⟨he, ht⟩⟩
  | kept hst hp hsync hg _ =>
    have hlive := h.live (by rw [hs]; simp)
    refine ⟨h.grow hg.records fun _ => ⟨hst.trans hs, hsync, fun t ht => ?_⟩, fun hf => ?_⟩
    · exact hlive.2.2 t (hp ▸ ht)
    · rw [hst, hs] at hf
      cases hf

theorem Delivers.receive {r : Option Received} (h : Delivers f b w)
    (hsync : Synced f b.done.length w'.session w'.env) (hs : w'.session.state = .active)
    (hg : w.env.records <+: w'.env.records) (hp : w'.session.pending = r.map (·.ticket))
    (hr : ∀ item, r = some item → Receipt f b.done.length item w w') :
    Delivers f (match r with | some item => { b with held := some item.record } | none => b) w' := by
  cases r with
  | none =>
    refine h.grow hg fun _ => ⟨hs, hsync, fun t ht => ?_⟩
    rw [hp] at ht
    cases ht
  | some item =>
    obtain ⟨p, hget, hrpc, hpay⟩ := (hr item rfl).record
    refine ⟨h.done.trans hg, fun r' hr' => ?_, fun _ => ⟨hs, hsync, fun _ _ => by simp⟩⟩
    cases hr'
    rw [hget]
    unfold Record.content
    rw [hrpc, hpay]

theorem Delivers.acknowledge {ticket : Ticket} (h : Delivers f b w)
    (hs : w.session.state = .active) (hpend : w.session.pending = some ticket)
    (hs' : w'.session.state = .active) (hnone : w'.session.pending = none)
    (hsync : Synced f (b.done.length + 1) w'.session w'.env) (hg : Grows w.env w'.env) :
    Delivers f ⟨none, b.done ++ b.held.toList⟩ w' := by
  cases hheld : b.held with
  | none => exact absurd hheld ((h.live (by rw [hs]; simp)).2.2 ticket hpend)
  | some r =>
    refine ⟨?_, fun r' hr' => absurd hr' (by simp), fun _ => ⟨hs', ?_, fun t ht => ?_⟩⟩
    · rw [Option.toList_some, List.map_append]
      refine (prefix_snoc h.done ?_).trans hg.records
      rw [List.length_map]
      exact h.held r hheld
    · rw [Option.toList_some, List.length_append]
      exact hsync
    · rw [hnone] at ht
      cases ht

/-- A failed session answers the receive path with `State` and stays as it is. -/
theorem receiving_failed {op : Session.Op} (hop : Receiving op) (hf : w.session.state = .failed) :
    Session.step (Device.port f script) w op = (.error .State, w) := by
  rw [Session.step, outcome_error_iff]
  cases op with
  | receive => simp [Session.call, Session.receive, bind_apply, failIf_of, hf]
  | acknowledge => simp [Session.call, Session.acknowledge, bind_apply, failIf_of, hf]
  | guard => simp [Session.call, Session.guard, bind_apply, Session.check_failed hf]
  | _ => exact absurd hop (by simp [Receiving])

/-- A session that is set up is not set up again. -/
theorem connecting_refused {op : Session.Op} (hop : Connecting op)
    (hs : w.session.state ≠ .linking) :
    Session.step (Device.port f script) w op = (.error .State, w) := by
  rw [Session.step, outcome_error_iff]
  cases op with
  | preloadInit => simp [Session.call, Session.preloadInit, bind_apply, failIf_of, hs]
  | connect => simp [Session.call, Session.connect, bind_apply, failIf_of, hs]
  | _ => exact absurd hop (by simp [Connecting])

/-- One call of a session that is set up. -/
theorem Delivers.step {op : Session.Op} {out : Except Error Session.Answer} (h : Delivers f b w)
    (hop : Receiving op) (hs : Session.step (Device.port f script) w op = (out, w')) :
    Delivers f (b.after ⟨w, op, out, w'⟩) w' ∧
      (w.session.state ≠ .failed → w'.session.state = .failed →
        ∃ e, out = .error e ∧ Reason w.session e) := by
  by_cases hf : w.session.state = .failed
  · rw [receiving_failed hop hf] at hs
    cases hs
    refine ⟨?_, fun hn => absurd hf hn⟩
    cases op <;> exact h
  obtain ⟨hactive, hsync, -⟩ := h.live hf
  cases out with
  | error e =>
    have hfails : ∃ why, Fails f b.done.length why e w w' := by
      cases op with
      | receive =>
        rcases bind_error_iff.1 (outcome_error_iff.1 hs) with hx | ⟨_, _, _, hy⟩
        · exact ⟨_, (receive_kept hactive hsync).error hx⟩
        · cases hy
      | acknowledge =>
        rcases bind_error_iff.1 (outcome_error_iff.1 hs) with hx | ⟨_, _, _, hy⟩
        · exact ⟨_, (acknowledge_kept hactive hsync).error hx⟩
        · cases hy
      | guard =>
        rcases bind_error_iff.1 (outcome_error_iff.1 hs) with hx | ⟨_, _, _, hy⟩
        · exact ⟨_, (guard_kept hactive hsync).error hx⟩
        · cases hy
      | _ => exact absurd hop (by simp [Receiving])
    obtain ⟨why, hfails⟩ := hfails
    obtain ⟨hd, hreason⟩ := h.fails hactive hfails
    refine ⟨?_, fun _ hf' => ⟨e, rfl, hreason hf'⟩⟩
    cases op <;> exact hd
  | ok a =>
    cases op with
    | receive =>
      obtain ⟨item, w₁, hx, hy⟩ := bind_ok_iff.1 (outcome_ok_iff.1 hs)
      cases hy
      obtain ⟨-, hst, hsync', hg, hp, -, hr⟩ := (receive_kept hactive hsync).ok hx
      refine ⟨?_, fun _ hf' => by rw [hst] at hf'; cases hf'⟩
      have hd := h.receive hsync' hst hg.records hp hr
      cases item <;> exact hd
    | acknowledge =>
      obtain ⟨_, w₁, hx, hy⟩ := bind_ok_iff.1 (outcome_ok_iff.1 hs)
      cases hy
      obtain ⟨hpend, hst, hnone, hsync', hg, -⟩ := (acknowledge_kept hactive hsync).ok hx
      refine ⟨?_, fun _ hf' => by rw [hst] at hf'; cases hf'⟩
      exact h.acknowledge hactive hpend hst hnone hsync' hg
    | guard =>
      obtain ⟨_, w₁, hx, hy⟩ := bind_ok_iff.1 (outcome_ok_iff.1 hs)
      cases hy
      obtain ⟨hst, hp, hsync', hg⟩ := (guard_kept hactive hsync).ok hx
      refine ⟨?_, fun _ hf' => by rw [hst] at hf'; cases hf'⟩
      refine h.grow hg.records fun _ => ⟨hst, hsync', fun t ht => ?_⟩
      exact (h.live hf).2.2 t (hp ▸ ht)
    | _ => exact absurd hop (by simp [Receiving])

/-- Before the session connects nothing is in hand. -/
theorem Delivers.failed (hf : w.session.state = .failed) : Delivers f {} w :=
  ⟨List.nil_prefix, fun _ hr => absurd hr (by simp), fun hn => absurd hf hn⟩

theorem Delivers.connected (hc : Session.ConnectOk (Device.port f script) w w') (h : Awaits f w) :
    Delivers f {} w' := by
  obtain ⟨hstate, hnone, hsync⟩ := connect_synced h hc
  refine ⟨List.nil_prefix, fun _ hr => absurd hr (by simp), fun _ => ⟨hstate, hsync, fun t ht => ?_⟩⟩
  rw [hnone] at ht
  cases ht

/-- A call that sets the session up: it is connected, or it failed, or it can be set up again. -/
theorem Awaits.connecting {op : Session.Op} {out : Except Error Session.Answer} (h : Awaits f w)
    (hop : Connecting op) (hs : Session.step (Device.port f script) w op = (out, w')) :
    Awaits f w' ∨ Delivers f {} w' := by
  cases op with
  | preloadInit deadline system registry =>
    cases out with
    | ok a =>
      obtain ⟨_, w₁, hx, hy⟩ := bind_ok_iff.1 (outcome_ok_iff.1 hs)
      cases hy
      exact .inl ((preloadInit_awaits h).ok hx)
    | error e =>
      rcases bind_error_iff.1 (outcome_error_iff.1 hs) with hx | ⟨_, _, _, hy⟩
      · rcases (preloadInit_awaits h).error hx with rfl | hf
        · exact .inl h
        · exact .inr (.failed hf)
      · cases hy
  | connect deadline =>
    cases out with
    | ok a =>
      obtain ⟨_, w₁, hx, hy⟩ := bind_ok_iff.1 (outcome_ok_iff.1 hs)
      cases hy
      exact .inr (.connected (Session.connect_spec.ok hx) h)
    | error e =>
      rcases bind_error_iff.1 (outcome_error_iff.1 hs) with hx | ⟨_, _, _, hy⟩
      · by_cases hf : w'.session.state = .failed
        · exact .inr (.failed hf)
        · exact .inl (connect_awaits h (Session.connect_spec.error hx) hf)
      · cases hy
  | _ => exact absurd hop (by simp [Connecting])

/-- A session that is not set up has nothing to receive; its guard may lose it. -/
theorem Awaits.receiving {op : Session.Op} {out : Except Error Session.Answer} (h : Awaits f w)
    (hop : Receiving op) (hs : Session.step (Device.port f script) w op = (out, w')) :
    Inbox.after {} ⟨w, op, out, w'⟩ = {} ∧ (Awaits f w' ∨ Delivers f {} w') ∧
      (w'.session.state = .failed → ∃ e, out = .error e ∧ Reason w.session e) := by
  have hstate := h.state
  have hrefused (hs : (out, w') = (.error .State, w)) :
      (Awaits f w' ∨ Delivers f {} w') ∧
        (w'.session.state = .failed → ∃ e, out = .error e ∧ Reason w.session e) := by
    cases hs
    refine ⟨.inl h, fun hf => ?_⟩
    rw [hstate] at hf
    cases hf
  cases op with
  | receive deadline =>
    have hstep : Session.step (Device.port f script) w (.receive deadline) = (.error .State, w) := by
      rw [Session.step, outcome_error_iff]
      simp [Session.call, Session.receive, bind_apply, failIf_of, hstate]
    rw [hstep] at hs
    cases hs
    exact ⟨rfl, hrefused rfl⟩
  | acknowledge deadline ticket =>
    have hstep : Session.step (Device.port f script) w (.acknowledge deadline ticket) =
        (.error .State, w) := by
      rw [Session.step, outcome_error_iff]
      simp [Session.call, Session.acknowledge, bind_apply, failIf_of, hstate]
    rw [hstep] at hs
    cases hs
    exact ⟨rfl, hrefused rfl⟩
  | guard deadline =>
    refine ⟨rfl, ?_⟩
    have hlive : w.session.state ≠ .failed := by simp [hstate]
    have hcheck : Spec (Session.check (Device.port f script) deadline) w
        (fun _ w' => Session.Ticks (Device.port f script) w w')
        (fun e w' => Session.Lost (Device.port f script) e w w' ∧ w'.trace = w.trace) :=
      Session.check_spec hlive
    cases out with
    | ok a =>
      obtain ⟨_, w₁, hx, hy⟩ := bind_ok_iff.1 (outcome_ok_iff.1 hs)
      cases hy
      have hawaits := h.ticks (hcheck.ok hx)
      refine ⟨.inl hawaits, fun hf => ?_⟩
      rw [hawaits.state] at hf
      cases hf
    | error e =>
      rcases bind_error_iff.1 (outcome_error_iff.1 hs) with hx | ⟨_, _, _, hy⟩
      · have hlost := (hcheck.error hx).1
        exact ⟨.inr (.failed hlost.failed), fun _ => ⟨e, rfl, .inl hlost.lifetime⟩⟩
      · cases hy
  | _ => exact absurd hop (by simp [Receiving])

/-- What a run keeps: the session is not set up and nothing is in hand, or it delivers. -/
def Follows (f : Firmware) (b : Inbox) (w : World Device) : Prop :=
  b = {} ∧ Awaits f w ∨ Delivers f b w

/-- Nothing has been delivered while the session waits for its device. -/
theorem Follows.delivered (h : Follows f b w) :
    b.done.map Record.content <+: w.env.records ∧
      ∀ r, b.held = some r → w.env.records[b.done.length]? = some r.content := by
  rcases h with ⟨rfl, -⟩ | h
  · exact ⟨List.nil_prefix, fun _ hr => by cases hr⟩
  · exact ⟨h.done, h.held⟩

/-- One call of the receive path. -/
theorem Follows.step {op : Session.Op} {out : Except Error Session.Answer} (h : Follows f b w)
    (hop : Reception op) (hs : Session.step (Device.port f script) w op = (out, w')) :
    Follows f (b.after ⟨w, op, out, w'⟩) w' ∧
      (w.session.state ≠ .failed → ¬ (w.session.state = .linking ∧ Connecting op) →
        w'.session.state = .failed → ∃ e, out = .error e ∧ Reason w.session e) := by
  rcases hop with hop | hop
  · have hafter : b.after ⟨w, op, out, w'⟩ = b := by
      cases op with
      | preloadInit => rfl
      | connect => rfl
      | _ => exact absurd hop (by simp [Connecting])
    rw [hafter]
    by_cases hl : w.session.state = .linking
    · refine ⟨?_, fun _ hn => absurd ⟨hl, hop⟩ hn⟩
      rcases h with ⟨rfl, h⟩ | h
      · exact (h.connecting hop hs).imp_left fun h' => ⟨rfl, h'⟩
      · -- A session that delivers is active or failed.
        have hactive := (h.live (by rw [hl]; simp)).1
        rw [hl] at hactive
        cases hactive
    · rw [connecting_refused hop hl] at hs
      cases hs
      exact ⟨h, fun hn _ hf => absurd hf hn⟩
  · rcases h with ⟨rfl, h⟩ | h
    · obtain ⟨hafter, hkept, hreason⟩ := h.receiving hop hs
      rw [hafter]
      exact ⟨hkept.imp_left fun h' => ⟨rfl, h'⟩, fun _ _ => hreason⟩
    · obtain ⟨hkept, hreason⟩ := h.step hop hs
      exact ⟨.inr hkept, fun hn _ => hreason hn⟩

end

/-- A fresh session waits for its device. -/
theorem awaits_init {profile : Profile} {epoch tx rx : Nat} {s₀ : Session} {d₀ : Device}
    (hi : Session.init profile epoch tx rx = .ok s₀) (hd : Fresh f d₀) : Awaits f ⟨s₀, d₀, []⟩ := by
  unfold Session.init at hi
  generalize (if tx ≥ rx then tx - rx else rx - tx) = gap at hi
  split at hi
  · cases hi
  · rename_i hprof
    split at hi
    · cases hi
    · split at hi
      · cases hi
      · cases hi
        exact ⟨rfl, by simpa using hprof, rfl, rfl, rfl, hd.waits⟩

/-! ## A calm device -/

/-- The record the calm producer repeats. -/
def ping : Produced := ⟨{ function := 0x100c }, []⟩

/-- The producer appends, stores and publishes one record at every access; no clock, epoch or port
ever misbehaves. -/
def busyScript : Script where
  acts _ := [.append ping, .store, .publish 1]
  generation _ := 1
  now _ := 0
  readError _ := none
  publishError _ := none
  notification := none

/-- Rings of sixty-three slots. -/
def ringLayout : Layout := ⟨32, 4096, 63, 0⟩

def ringFirmware : Firmware where
  command := ringLayout
  layout := ringLayout
  commandValid := by constructor <;> decide
  valid := by constructor <;> decide

def ringMemory : Memory := fun i => Session.freshHeader.getD i 0

/-- A device with empty rings. -/
def ringDevice : Device := { command := ringMemory, status := ringMemory, ready := true }

theorem ringMemory_announces : Announces ringLayout ringMemory := by
  constructor <;> decide

theorem ringDevice_fresh : Fresh ringFirmware ringDevice :=
  ⟨ringMemory_announces, by decide, rfl, rfl, rfl, ringMemory_announces, by decide⟩

theorem idleSession_init : Session.init ⟨0x172, false⟩ 1 0 0x80000 = .ok Session.idleSession := by
  decide

/-- **The receive path delivers exactly once and in order.** A session is initialized, preloaded or
not, and asked to connect until the firmware has its rings complete; it receives, acknowledges and
guards in any order, with the producer's steps anywhere in between. Then the acknowledged records are
a prefix of the produced ones and the record in hand is the next one. Once it is connected it fails
only for a clock, a deadline, an epoch, a port error, or because its ticket serials are used up, and
so does a guard before. -/
theorem delivery_run {profile : Profile} {epoch tx rx : Nat} {s₀ : Session} {d₀ : Device}
    {w : World Device} {h : ReceiveLog} (hi : Session.init profile epoch tx rx = .ok s₀)
    (hd : Fresh f d₀) (hr : Run (Session.step (Device.port f script)) ⟨s₀, d₀, []⟩ h w)
    (hops : ∀ e ∈ h, Reception e.op) :
    (inbox h).done.map Record.content <+: w.env.records ∧
      (∀ r, (inbox h).held = some r →
        w.env.records[(inbox h).done.length]? = some r.content) ∧
      ∀ e ∈ h, e.pre.session.state ≠ .failed →
        ¬ (e.pre.session.state = .linking ∧ Connecting e.op) → e.post.session.state = .failed →
        ∃ err, e.out = .error err ∧ Reason e.pre.session err := by
  have hinv : ∀ h w, Run (Session.step (Device.port f script)) ⟨s₀, d₀, []⟩ h w →
      (∀ e ∈ h, Reception e.op) → Follows f (inbox h) w := by
    intro h w hr
    refine hr.invariant (P := fun h w => (∀ e ∈ h, Reception e.op) → Follows f (inbox h) w)
      (fun _ => .inl ⟨rfl, awaits_init hi hd⟩) fun h w op out w' ih hs hops => ?_
    rw [inbox_snoc]
    refine ((ih fun e he => hops e (by simp [he])).step ?_ hs).1
    exact hops ⟨w, op, out, w'⟩ (by simp)
  obtain ⟨hdone, hheld⟩ := (hinv h w hr hops).delivered
  refine ⟨hdone, hheld, fun e he hn hset hf => ?_⟩
  obtain ⟨h₁, h₂, rfl, hpre, hstep⟩ := hr.event he
  have hprior := hinv h₁ e.pre hpre fun e' he' => hops e' (by simp [he'])
  exact (hprior.step (hops e he) hstep).2 hn hset hf

/-- A record of three bytes. -/
def pong : Produced := ⟨{ function := 0x100d }, [1, 2, 3]⟩

/-- A firmware that completes its status ring late, and then sends two records. -/
def lateScript : Script := { busyScript with
  acts := fun tick =>
    if tick = 45 then [.construct (Session.freshHeader.take ringHeaderBytes)]
    else if tick = 50 then [.append ping, .append pong]
    else [.store, .publish 1] }

def lateDevice : Device := { command := ringMemory, status := fun _ => 0 }

theorem lateDevice_fresh : Fresh ringFirmware lateDevice := by
  refine ⟨ringMemory_announces, by decide, rfl, rfl, rfl, fun header hheader => ?_⟩
  -- A ring of no bytes is refused.
  have hsize := (announces_inspect hheader).1.size
  exact absurd hsize (by decide)

/-- The session preloads, is refused once, connects, and takes both records. -/
def lateRun : ReceiveLog × World Device :=
  exec (Session.step (Device.port ringFirmware lateScript)) ⟨Session.idleSession, lateDevice, []⟩
    [.preloadInit 5 ⟨0x90000, [1, 2]⟩ ⟨0x90010, [3]⟩, .connect 5, .connect 5, .receive 5, .guard 5,
      .acknowledge 5 ⟨1, 1, 0, 0, 1⟩, .receive 5, .acknowledge 5 ⟨1, 2, 1, 1, 2⟩]

theorem delivery_run_late :
    (lateRun.1.map fun e => e.out.isOk) = [true, false, true, true, true, true, true, true] ∧
    (inbox lateRun.1).done.map Record.content = [ping, pong] ∧
    [ping, pong] <+: lateRun.2.env.records ∧
    ∀ e ∈ lateRun.1, e.pre.session.state ≠ .failed →
      ¬ (e.pre.session.state = .linking ∧ Connecting e.op) → e.post.session.state = .failed →
      ∃ err, e.out = .error err ∧ Reason e.pre.session err := by
  have hrun : (lateRun.1.map fun e => e.out.isOk) =
        [true, false, true, true, true, true, true, true] ∧
      (inbox lateRun.1).done.map Record.content = [ping, pong] := by decide +kernel
  obtain ⟨houts, hdone⟩ := hrun
  have hops : ∀ e ∈ lateRun.1, Reception e.op := by
    intro e he
    have hop := mem_of_mem_exec he
    simp only [List.mem_cons, List.not_mem_nil, or_false] at hop
    rcases hop with hop | hop | hop | hop | hop | hop | hop | hop <;> rw [hop] <;>
      simp [Reception, Connecting, Receiving]
  have hr : Run (Session.step (Device.port ringFirmware lateScript))
      ⟨Session.idleSession, lateDevice, []⟩ lateRun.1 lateRun.2 := Run.of_exec _ _ _
  obtain ⟨hinbox, -, hfails⟩ := delivery_run idleSession_init lateDevice_fresh hr hops
  rw [hdone] at hinbox
  exact ⟨houts, hdone, hinbox, hfails⟩

end Gsp
end NvidiaGsp
