import NvidiaGsp.Gsp.DeliveryRuns

/-!
# Gsp.DeliveryLimit

The one bound on delivery: the serials of the receipts. A calm device that always has a record ready
is received from and acknowledged until the next serial is the last of its 64 bits; the receive after
that fails the session with `Exhausted`, without any fault of clock, epoch or port.
-/

namespace NvidiaGsp
namespace Gsp

open Bytes Call Cyclic Memory

/-! ## Errors of the codecs -/

theorem inspectPrefix_not_lifetime {profile : Profile} {bytes : List Byte} {e : Error}
    (h : inspectPrefix profile bytes = .error e) : ¬ Session.Lifetime e := by
  unfold inspectPrefix at h
  dsimp only at h
  repeat' split at h
  all_goals cases h
  all_goals simp [Session.Lifetime]

theorem decode_not_lifetime {profile : Profile} {bytes : List Byte} {sequence : Word} {e : Error}
    (h : decode profile bytes sequence = .error e) : ¬ Session.Lifetime e := by
  unfold decode at h
  cases hp : inspectPrefix profile bytes with
  | error e' =>
    rw [hp] at h
    cases h
    exact inspectPrefix_not_lifetime hp
  | ok shape =>
    rw [hp] at h
    dsimp only at h
    repeat' split at h
    all_goals cases h
    all_goals simp [Session.Lifetime]

theorem ringReceive_not_lifetime {layout : Layout} {read write count : Nat} {e : Error}
    (h : Ring.receive layout read write count = .error e) : ¬ Session.Lifetime e := by
  unfold Ring.receive at h
  cases ha : Ring.available layout read write with
  | error e' =>
    rw [ha] at h
    cases h
    unfold Ring.available at ha
    cases hv : Ring.validate layout with
    | error e'' =>
      rw [hv] at ha
      cases ha
      unfold Ring.validate at hv
      split at hv
      · cases hv
        simp [Session.Lifetime]
      · cases hv
    | ok =>
      rw [hv] at ha
      dsimp only at ha
      split at ha
      · cases ha
        simp [Session.Lifetime]
      · cases ha
  | ok capacity =>
    rw [ha] at h
    dsimp only at h
    unfold Ring.plan at h
    repeat' split at h
    all_goals cases h
    all_goals simp [Session.Lifetime]

/-! ## A calm device that is always ahead -/

theorem advance_busy {f : Firmware} {a : Nat} {d : Device} (h : Serves f a d) :
    a < (d.advance f busyScript).published := by
  have hping : ping.payload.length ≤ maxPayloadBytes := by decide
  have hslots := f.valid.slots_bounds
  obtain ⟨h₁, -⟩ := h.act (.append ping)
  have hmore : (d.act f (.append ping)).stored < slotsOf (d.act f (.append ping)).records := by
    have hfits := h.fits
    have hact : d.act f (.append ping) = { d with records := d.records ++ [ping] } := by
      unfold Device.act
      exact if_pos hping
    rw [hact]
    show d.stored < slotsOf (d.records ++ [ping])
    rw [slotsOf_append]
    have : slotsOf [ping] = 1 := by decide
    omega
  generalize hd₁ : d.act f (.append ping) = d₁ at h₁ hmore
  obtain ⟨h₂, -⟩ := h₁.act .store
  have hstored : a < (d₁.act f .store).stored := by
    have hbehind := h₁.behind
    have hahead := h₁.ahead
    have hready := h₁.ready
    unfold Device.act
    dsimp only
    split
    · show a < d₁.stored + 1
      omega
    · rename_i hc
      rw [h₁.free] at hc
      by_contra hle
      exact hc ⟨hready, hmore, by omega⟩
  generalize hd₂ : d₁.act f .store = d₂ at h₂ hstored
  have hbehind := h₂.behind
  have hready := h₂.ready
  show a < (([.append ping, .store, .publish 1] : List Act).foldl (Device.act f) d).published
  rw [List.foldl_cons, hd₁, List.foldl_cons, hd₂]
  have hpublish : d₂.act f (.publish 1) = { d₂.write .status 16 (le32 (BitVec.ofNat 32
      (min d₂.stored (d₂.published + 1) % f.layout.slots))) with
      published := min d₂.stored (d₂.published + 1) } := by
    unfold Device.act
    exact if_pos hready
  rw [List.foldl_cons, hpublish]
  show a < min d₂.stored (d₂.published + 1)
  omega

/-- Nothing but pings is produced. -/
def Pings (d : Device) : Prop := ∀ r ∈ d.records, r = ping

theorem Pings.advance {f : Firmware} {d : Device} (h : Pings d) :
    Pings (d.advance f busyScript) := by
  have happend : Pings (d.act f (.append ping)) := by
    unfold Device.act
    dsimp only
    split
    · intro r hr
      rcases List.mem_append.mp hr with hr | hr
      · exact h r hr
      · exact List.mem_singleton.mp hr
    · exact h
  show Pings (([.append ping, .store, .publish 1] : List Act).foldl (Device.act f) d)
  rw [List.foldl_cons]
  generalize d.act f (.append ping) = d₁ at happend
  have hrecords : ((d₁.act f .store).act f (.publish 1)).records = d₁.records := by
    unfold Device.act
    dsimp only
    repeat' split
    all_goals rfl
  intro r hr
  refine happend r ?_
  rw [← hrecords]
  exact hr

theorem Pings.complete {f : Firmware} {n : Nat} {s : Session} {d : Device} (h : Pings d)
    (hs : Synced f n s d) (hlt : d.start n < d.published) : Complete n d := by
  obtain ⟨p, hp⟩ := hs.record hlt
  have hping : p.slots = 1 := by
    rw [h p (List.mem_of_getElem? hp)]
    decide
  exact ⟨p, hp, by omega⟩

/-! ## No fault on the calm device -/

/-- The session of a calm run. -/
structure Steady (w : World Device) : Prop where
  epoch : w.session.epoch = 1
  clock : w.session.lastClock = 0
  active : w.session.state = .active
  pings : Pings w.env

section

variable {f : Firmware} {w : World Device}

theorem check_calm (h : Steady w) :
    Spec (Session.check (Device.port f busyScript) 5) w (fun _ w' => Steady w')
      (fun _ _ => False) := by
  unfold Session.check Session.checkLifetimeClock
  refine .bind (.get_bind (.failIf_bind (fun hf => ?_) fun _ => ?_))
  · rw [h.active] at hf
    cases hf
  refine .bind (?_ : Spec (Session.stopIf _ _ >>= _) _ _ _)
  refine .bind (Session.stopIf_spec (fun hne => hne h.epoch.symm) fun _ => ?_)
  refine .bind (?_ : Spec (Session.callback _ >>= _) _ _ _)
  refine .bind (?_ : Spec (Session.stopIf _ _ >>= _) _ _ _)
  refine .bind (Session.stopIf_spec (fun hc => ?_) fun _ => ?_)
  · rw [h.clock] at hc
    rcases hc with hc | hc
    · have hc : (0 : Nat) = maxU64 := hc
      exact absurd hc (by decide)
    · exact absurd hc (Nat.not_lt_zero _)
  refine Session.update_spec (.get_bind (Session.stopIf_spec (fun hc => ?_) fun _ => ?_))
  · rcases hc with hc | hc
    · have hc : (5 : Nat) = maxU64 := hc
      exact absurd hc (by decide)
    · have hc : (0 : Nat) ≥ 5 := hc
      omega
  · exact ⟨h.epoch, rfl, h.active, h.pings.advance.advance⟩

theorem read_calm {queue : Queue} {offset len : Nat} (h : Steady w) :
    Spec (Session.read (Device.port f busyScript) 5 queue offset len) w (fun _ w' => Steady w')
      (fun _ _ => False) := by
  unfold Session.read
  refine .seq (check_calm h) (fun _ w₁ h₁ => ?_) fun _ _ h => h
  refine .bind (?_ : Spec (Session.settleRead _ _ _ _ _ >>= _) _ _ _)
  refine .bind (?_ : Spec (Session.check _ _ >>= fun _ => _) _ _ _)
  refine .seq (check_calm ⟨h₁.epoch, h₁.clock, h₁.active, h₁.pings.advance⟩) (fun _ _ h => h)
    fun _ _ h => h

theorem readWord_calm {location : Location} (h : Steady w) :
    Spec (Session.readWord (Device.port f busyScript) 5 location) w (fun _ w' => Steady w')
      (fun _ _ => False) := by
  unfold Session.readWord
  exact .seq (read_calm h) (fun _ _ h => h) fun _ _ h => h

theorem readSpans_calm {spans : List Span} (h : Steady w) :
    Spec (Session.readSpans (Device.port f busyScript) 5 spans) w (fun _ w' => Steady w')
      (fun _ _ => False) := by
  induction spans generalizing w with
  | nil => exact h
  | cons span spans ih =>
    refine .seq (read_calm h) (fun _ w₁ h₁ => ?_) fun _ _ h => h
    exact .seq (ih h₁) (fun _ _ h => h) fun _ _ h => h

theorem publish_calm {queue : Queue} {offset : Nat} {input : List Byte} (h : Steady w) :
    Spec (Session.publish (Device.port f busyScript) 5 queue offset input) w
      (fun _ w' => Steady w') (fun _ _ => False) := by
  unfold Session.publish
  refine .seq (check_calm h) (fun _ w₁ h₁ => ?_) fun _ _ h => h
  refine .bind (?_ : Spec (Session.callback _ >>= _) _ _ _)
  refine .bind (?_ : Spec (Session.settle _ _ >>= _) _ _ _)
  refine .bind (?_ : Spec (Session.check _ _) _ _ _)
  refine check_calm ⟨h₁.epoch, h₁.clock, h₁.active, ?_⟩
  show Pings ((w₁.env.advance f busyScript).write queue offset input)
  unfold Pings
  rw [write_records]
  exact h₁.pings.advance

theorem receive_calm (h : Steady w) :
    Spec (Session.receive (Device.port f busyScript) 5) w (fun _ w' => Steady w')
      (fun e _ => ¬ Session.Lifetime e) := by
  unfold Session.receive
  refine .get_bind (.failIf_bind (fun _ => by simp [Session.Lifetime]) fun _ => ?_)
  refine .failIf_bind (fun _ => by simp [Session.Lifetime]) fun _ => ?_
  refine .bind (Session.stopIf_spec (fun _ => by simp [Session.Lifetime]) fun _ => ?_)
  refine .need_bind (fun _ => by simp [Session.Lifetime]) fun link _ => ?_
  refine .seq (readWord_calm h) (fun peer w₁ h₁ => ?_) fun _ _ h => h.elim
  refine .bind (Session.stopIf_spec (fun _ => by simp [Session.Lifetime]) fun _ => ?_)
  refine Session.update_bind ?_
  have h₂ : Steady { w₁ with session := { w₁.session with rxPeerWrite := peer.toNat } } :=
    ⟨h₁.epoch, h₁.clock, h₁.active, h₁.pings⟩
  split
  · exact .pure h₂
  refine .bind (?_ : Spec (Session.receiveRecord _ _ _ _) _ _ _)
  unfold Session.receiveRecord
  refine .get_bind (.lift_bind (fun e he => ringReceive_not_lifetime he) fun first _ => ?_)
  refine .seq (read_calm h₂) (fun head w₃ h₃ => ?_) fun _ _ h => h.elim
  refine .bind (Session.orFail_spec (fun e he => inspectPrefix_not_lifetime he) fun shape _ => ?_)
  refine .bind (Session.orNotReady_spec (fun _ => by simp [Session.Lifetime])
    (fun e _ he => ringReceive_not_lifetime he) fun plan _ => ?_)
  refine .seq (readSpans_calm h₃) (fun bytes w₄ h₄ => ?_) fun _ _ h => h.elim
  refine .bind (Session.orFail_spec (fun e he => decode_not_lifetime he) fun record _ => ?_)
  exact Session.update_bind (.pure ⟨h₄.epoch, h₄.clock, h₄.active, h₄.pings⟩)

theorem acknowledge_calm {ticket : Ticket} (h : Steady w) :
    Spec (Session.acknowledge (Device.port f busyScript) 5 ticket) w (fun _ w' => Steady w')
      (fun _ w' => w'.session.state = .active) := by
  unfold Session.acknowledge
  refine .get_bind (.failIf_bind (fun _ => h.active) fun _ => ?_)
  refine .need_bind (fun _ => h.active) fun expected _ => .failIf_bind (fun _ => h.active) fun _ => ?_
  refine .need_bind (fun _ => h.active) fun link _ => ?_
  refine .seq (publish_calm h) (fun _ w₁ h₁ => ?_) fun _ _ h => h.elim
  exact Session.update_spec ⟨h₁.epoch, h₁.clock, h₁.active, h₁.pings⟩

end

/-! ## Serials run out -/

/-- The calm session has delivered `n` records, each under its own serial, and the next one waits. -/
structure Busy (n : Nat) (w : World Device) : Prop where
  steady : Steady w
  idle : w.session.pending = none
  serial : w.session.nextTicket = n + 1
  synced : Synced ringFirmware n w.session w.env
  complete : Complete n w.env

abbrev busyPort : Port Device := Device.port ringFirmware busyScript

/-- The calm session before and after it connects. -/
def restWorld : World Device := ⟨Session.idleSession, ringDevice, []⟩

def busyWorld : World Device := (outcome (Session.connect busyPort 5) restWorld).2

theorem busyWorld_connected : Session.connect busyPort 5 restWorld = .ok () busyWorld := by
  have hok : (outcome (Session.connect busyPort 5) restWorld).1.isOk = true := by decide +kernel
  unfold busyWorld
  unfold outcome at hok ⊢
  cases h : Session.connect busyPort 5 restWorld with
  | ok u w => rfl
  | error e w =>
    rw [h] at hok
    cases hok

theorem busyWorld_busy : Busy 0 busyWorld := by
  have hawaits : Awaits ringFirmware restWorld := awaits_init idleSession_init ringDevice_fresh
  obtain ⟨hactive, hidle, hsync⟩ :=
    connect_synced hawaits (Session.connect_spec.ok busyWorld_connected)
  have hcalm : busyWorld.session.epoch = 1 ∧ busyWorld.session.lastClock = 0 ∧
      busyWorld.session.nextTicket = 1 ∧ (∀ r ∈ busyWorld.env.records, r = ping) ∧
      0 < busyWorld.env.published := by decide +kernel
  obtain ⟨hepoch, hclock, hserial, hpings, hpublished⟩ := hcalm
  have hpings : Pings busyWorld.env := hpings
  exact ⟨⟨hepoch, hclock, hactive, hpings⟩, hidle, hserial, hsync, hpings.complete hsync hpublished⟩

variable {n : Nat} {w : World Device}

/-- With serials left, the waiting record is received. -/
theorem Busy.receive (h : Busy n w) (hn : n + 1 < maxU64) :
    ∃ r w₁, Session.receive busyPort 5 w = .ok (some r) w₁ ∧ Steady w₁ ∧
      w₁.session.pending = some r.ticket ∧ w₁.session.nextTicket = n + 2 ∧
      Synced ringFirmware n w₁.session w₁.env := by
  have hkept : Spec (Session.receive busyPort 5) w _ _ := receive_kept h.steady.active h.synced
  have hcalm := receive_calm (f := ringFirmware) h.steady
  cases hx : Session.receive busyPort 5 w with
  | error e w₁ =>
    rcases hkept.error hx with ⟨hl, -, -⟩ | ⟨-, ht, -, -⟩ | ⟨-, -, -, -, hwhy⟩
    · exact absurd hl (hcalm.error hx)
    · rw [h.serial] at ht
      omega
    · rcases hwhy with hwhy | hwhy
      · exact absurd h.idle hwhy
      · exact absurd h.complete hwhy
  | ok r w₁ =>
    obtain ⟨-, -, hsync, -, hpend, hnone, -⟩ := hkept.ok hx
    have hspec := Session.receive_spec.ok hx
    obtain ⟨-, -, -, hok⟩ := hspec
    cases hok' : r with
    | none => exact absurd h.complete (hnone hok')
    | some item =>
      subst hok'
      refine ⟨item, w₁, rfl, hcalm.ok hx, hpend, ?_, hsync⟩
      generalize hs : w₁.session = s at hok
      cases hok
      show w.session.nextTicket + 1 = n + 2
      rw [h.serial]

/-- And acknowledged; the next record is there by then. -/
theorem acknowledge_busy {ticket : Ticket} (hs : Steady w) (hp : w.session.pending = some ticket)
    (ht : w.session.nextTicket = n + 2) (hsync : Synced ringFirmware n w.session w.env) :
    ∃ w₁, Session.acknowledge busyPort 5 ticket w = .ok () w₁ ∧ Busy (n + 1) w₁ := by
  have hkept : Spec (Session.acknowledge busyPort 5 ticket) w _ _ := acknowledge_kept hs.active hsync
  have hcalm : Spec (Session.acknowledge busyPort 5 ticket) w _ _ := acknowledge_calm hs
  cases hx : Session.acknowledge busyPort 5 ticket w with
  | error e w₁ =>
    have hactive := hcalm.error hx
    rcases hkept.error hx with ⟨-, hf, -⟩ | ⟨-, -, hf, -⟩ | ⟨-, -, -, -, hwhy⟩
    · rw [hactive] at hf
      cases hf
    · rw [hactive] at hf
      cases hf
    · exact absurd hp hwhy
  | ok u w₁ =>
    obtain ⟨-, -, hnone, hsync₁, -, d, hserves, hd⟩ := hkept.ok hx
    obtain ⟨⟨-, -, now, hsession⟩, -⟩ := Session.acknowledge_spec.ok hx
    have hsteady := hcalm.ok hx
    refine ⟨w₁, rfl, hsteady, hnone, ?_, hsync₁, hsteady.pings.complete hsync₁ ?_⟩
    · rw [hsession]
      exact ht
    · have := advance_busy hserves
      rw [← hd] at this
      exact this

/-- Serials up to the last can be used. -/
theorem busy_run (hn : n < maxU64) : ∃ (h : ReceiveLog) (w : World Device),
    Run (Session.step busyPort) restWorld h w ∧ (∀ e ∈ h, Reception e.op) ∧ Busy n w := by
  induction n with
  | zero =>
    have hs : Session.step busyPort restWorld (.connect 5) = (.ok .done, busyWorld) := by
      rw [Session.step, outcome_ok_iff]
      exact bind_ok_iff.2 ⟨_, _, busyWorld_connected, rfl⟩
    refine ⟨[] ++ [⟨restWorld, .connect 5, _, busyWorld⟩], busyWorld, Run.nil.snoc hs,
      fun e he => ?_, busyWorld_busy⟩
    rw [List.mem_singleton.mp he]
    exact .inl trivial
  | succ n ih =>
    obtain ⟨h, w, hr, hops, hb⟩ := ih (by omega)
    obtain ⟨r, w₁, hrec, hs, hp, ht, hsync⟩ := hb.receive hn
    obtain ⟨w₂, hack, hb₂⟩ := acknowledge_busy hs hp ht hsync
    have s₁ : Session.step busyPort w (.receive 5) = (.ok (.received (some r)), w₁) := by
      rw [Session.step, outcome_ok_iff]
      exact bind_ok_iff.2 ⟨_, _, hrec, rfl⟩
    have s₂ : Session.step busyPort w₁ (.acknowledge 5 r.ticket) = (.ok .done, w₂) := by
      rw [Session.step, outcome_ok_iff]
      exact bind_ok_iff.2 ⟨_, _, hack, rfl⟩
    refine ⟨h ++ [⟨w, .receive 5, _, w₁⟩] ++ [⟨w₁, .acknowledge 5 r.ticket, _, w₂⟩], w₂,
      (hr.snoc s₁).snoc s₂, fun e he => ?_, hb₂⟩
    rcases List.mem_append.mp he with he | he
    · rcases List.mem_append.mp he with he | he
      · exact hops e he
      · rw [List.mem_singleton.mp he]
        exact .inr trivial
    · rw [List.mem_singleton.mp he]
      exact .inr trivial

/-- At the last serial a receive gives the session up. -/
theorem Busy.exhausted (h : Busy n w) (hn : n + 1 = maxU64) :
    Spec (Session.receive busyPort 5) w (fun _ _ => False)
      (fun e w' => e = .Exhausted ∧ w'.session.state = .failed) := by
  unfold Session.receive
  refine .get_bind (.failIf_bind (fun hf => absurd h.steady.active hf) fun _ => ?_)
  refine .failIf_bind (fun hp => absurd h.idle hp) fun _ => ?_
  refine .bind (Session.stopIf_spec (fun _ => ⟨rfl, rfl⟩) fun ht => ?_)
  rw [h.serial] at ht
  exact absurd hn ht

/-- **The serials are the bound of delivery.** On a calm device, without any fault of clock, deadline,
epoch or port, a session connects, delivers 2^64 - 2 records and fails at the next receive with
`Exhausted`. -/
theorem serials_run_out :
    Session.init ⟨0x172, false⟩ 1 0 0x80000 = .ok Session.idleSession ∧
    Fresh ringFirmware ringDevice ∧ ∃ (h : ReceiveLog) (w : World Device),
      Run (Session.step busyPort) ⟨Session.idleSession, ringDevice, []⟩ h w ∧
      (∀ e ∈ h, Reception e.op) ∧ ∃ e ∈ h, e.pre.session.state = .active ∧
        e.post.session.state = .failed ∧ e.out = .error .Exhausted ∧
        ¬ Session.Lifetime .Exhausted := by
  refine ⟨idleSession_init, ringDevice_fresh, ?_⟩
  have hlast : maxU64 - 1 < maxU64 := by decide
  obtain ⟨h, w, hr, hops, hb⟩ := busy_run hlast
  cases hx : Session.receive busyPort 5 w with
  | ok r w₁ => exact absurd ((hb.exhausted (by decide)).ok hx) id
  | error e w₁ =>
    obtain ⟨rfl, hfailed⟩ := (hb.exhausted (by decide)).error hx
    have hs : Session.step busyPort w (.receive 5) = (.error .Exhausted, w₁) := by
      rw [Session.step, outcome_error_iff]
      exact bind_error_iff.mpr (.inl hx)
    refine ⟨_, _, hr.snoc hs, fun e he => ?_,
      ⟨w, .receive 5, _, _⟩, List.mem_append_right _ (List.mem_singleton.mpr rfl),
      hb.steady.active, hfailed, rfl, by simp [Session.Lifetime]⟩
    rcases List.mem_append.mp he with he | he
    · exact hops e he
    · rw [List.mem_singleton.mp he]
      exact .inr trivial

end Gsp
end NvidiaGsp
