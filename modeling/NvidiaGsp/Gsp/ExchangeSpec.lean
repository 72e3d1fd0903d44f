import NvidiaGsp.Gsp.TransportReceive
import NvidiaGsp.Gsp.Exchange

/-!
# Gsp.ExchangeSpec

The request protocol as a monitor of the log. `View` is what an observer of the calls knows, `after`
how one call changes it, and `Allowed` what the protocol permits next; a log is `Lawful` when every
call in it was allowed. `Tracks` ties the fields of the exchange and of its session to the view.
-/

namespace NvidiaGsp
namespace Gsp
namespace Exchange

open Call

/-- What the log so far says. -/
structure View where
  /-- Inside the window from the receipt of a lockdown event to the completion of its end. -/
  lockdown : Bool
  /-- Received and not yet acknowledged. -/
  unacked : List Ticket
  /-- Every ticket received, and every one an acknowledgement was tried for. -/
  seen : List Ticket
  acked : List Ticket
  /-- The function of a request that was begun and not yet sent or cancelled. -/
  begun : Option Word
  /-- The functions of the requests sent without a response yet. -/
  outstanding : List Word

def View.start (inLockdown : Bool) : View := ⟨inLockdown, [], [], [], none, []⟩

/-- The event that opens the lockdown window. -/
def engages (record : Record) : Bool :=
  decide (record.rpc.function = Gsp.lockdown) && decide (record.payload.getD 0 0 = 1)

def View.after (v : View) : Note → View
  | .began function => { v with begun := some function }
  | .cancelled => { v with begun := none }
  | .sent function (.ok ()) =>
    { v with begun := none, outstanding := v.outstanding ++ [function] }
  | .sent _ (.error .Unavailable) => v
  | .sent _ (.error _) => { v with begun := none }
  | .received item =>
    { v with
      lockdown := v.lockdown || engages item.record
      unacked := v.unacked ++ [item.ticket]
      seen := v.seen ++ [item.ticket] }
  | .dispatched d =>
    { v with outstanding := if d.response then v.outstanding.tail else v.outstanding }
  | .acked d (.ok ()) =>
    { v with
      lockdown := if d.record.rpc.function = Gsp.lockdown then engages d.record else v.lockdown
      unacked := v.unacked.erase d.ticket
      acked := v.acked ++ [d.ticket] }
  | .acked d (.error _) => { v with acked := v.acked ++ [d.ticket] }

/-- What the protocol permits next. -/
def Allowed (v : View) : Note → Prop
  | .began _ => v.begun = none
  | .cancelled => True
  | .sent function _ => v.begun = some function ∧ v.lockdown = false ∧ v.unacked = []
  | .received item => item.ticket ∉ v.seen
  | .dispatched d => d.response = true → v.outstanding = [d.record.rpc.function]
  | .acked d _ => d.ticket ∈ v.unacked ∧ d.ticket ∉ v.acked

/-- The view after a whole log. -/
def view (inLockdown : Bool) (log : List Note) : View := log.foldl View.after (.start inLockdown)

/-- Every call of the log was allowed when it was made. -/
def Lawful (inLockdown : Bool) (log : List Note) : Prop :=
  ∀ before n rest, log = before ++ n :: rest → Allowed (view inLockdown before) n

theorem view_snoc (b : Bool) (log : List Note) (n : Note) :
    view b (log ++ [n]) = (view b log).after n := by
  simp [view, List.foldl_append]

theorem lawful_nil (b : Bool) : Lawful b [] := by
  intro before n rest h
  simp at h

theorem Lawful.snoc {b : Bool} {log : List Note} {n : Note} (h : Lawful b log)
    (hn : Allowed (view b log) n) : Lawful b (log ++ [n]) := by
  intro before m rest heq
  rcases List.eq_nil_or_concat rest with rfl | ⟨rest', last, rfl⟩
  · obtain ⟨rfl, hm⟩ := List.append_inj' heq rfl
    rw [List.singleton_inj] at hm
    subst hm
    exact hn
  · rw [List.concat_eq_append, ← List.cons_append, ← List.append_assoc] at heq
    obtain ⟨hlog, -⟩ := List.append_inj' heq rfl
    exact h before m rest' hlog

/-! ## The invariant -/

/-- The exchange and its session agree with the view. -/
structure Tracks (v : View) (x : Exchange) (s : Session) : Prop where
  lockdown : v.lockdown = x.inLockdown
  pending : s.pending = x.pending.map (·.ticket)
  unacked : v.unacked = (x.pending.map (·.ticket)).toList
  seen : ∀ t ∈ v.seen, t.serial < s.nextTicket
  acked : ∀ t ∈ v.acked, t ∈ v.seen
  fresh : ∀ t ∈ v.unacked, t ∈ v.seen ∧ t ∉ v.acked
  begun : v.begun = if x.phase = .prepared then some x.function else none
  outstanding : v.outstanding = if x.phase = .waiting ∧ ∀ d, x.pending = some d → d.response = false
    then [x.function] else []
  response : ∀ d, x.pending = some d → d.response = true →
    d.record.rpc.function = x.function ∧ x.phase = .waiting
  function : x.phase ≠ .idle → x.function.toNat < 0x1000

def Live (x : Exchange) : Prop := x.phase ≠ .failed ∧ x.phase ≠ .handedOff

structure Inv {D : Type} (b : Bool) (o : Owner D) : Prop where
  lawful : Lawful b o.log
  tracks : Live o.exchange → Tracks (view b o.log) o.exchange o.world.session

variable {D : Type} {port : Port D} {o : Owner D} {b : Bool}

/-! ## Rules -/

theorem update_spec {f : Exchange → Exchange} {Q : Unit → Owner D → Prop}
    {E : Error → Owner D → Prop} (h : Q () { o with exchange := f o.exchange }) :
    Spec (update f : Serving D Unit) o Q E := h

theorem update_bind {β : Type} {f : Exchange → Exchange} {g : Unit → Serving D β}
    {Q : β → Owner D → Prop} {E : Error → Owner D → Prop}
    (h : Spec (g ()) { o with exchange := f o.exchange } Q E) : Spec (update f >>= g) o Q E := h

theorem note_bind {β : Type} {n : Note} {g : Unit → Serving D β} {Q : β → Owner D → Prop}
    {E : Error → Owner D → Prop} (h : Spec (g ()) { o with log := o.log ++ [n] } Q E) :
    Spec (note n >>= g) o Q E := h

theorem attempt_bind {α β : Type} {x : Transport D α} {g : Except Error α → Serving D β}
    {Q : β → Owner D → Prop} {E : Error → Owner D → Prop}
    (h : Spec x o.world (fun a w => Spec (g (.ok a)) { o with world := w } Q E)
      (fun e w => Spec (g (.error e)) { o with world := w } Q E)) :
    Spec (attempt x >>= g) o Q E := by
  refine .bind ?_
  unfold Spec attempt at *
  cases hx : x o.world with
  | ok a w => simpa [hx] using h
  | error e w => simpa [hx] using h

/-- Failing ends the exchange; only the log matters from there on. -/
theorem fail_spec {α : Type} {e : Error} {Q : α → Owner D → Prop} (h : Lawful b o.log) :
    Spec (fail e : Serving D α) o Q (fun _ o' => Inv b o') := by
  unfold fail
  refine .get_bind (.failIf_bind (fun hp => ⟨h, fun hl => absurd hp hl.2⟩) fun hp => ?_)
  show Inv b (recordFailure e o)
  unfold recordFailure
  split
  · exact ⟨h, fun hl => absurd ‹_› hl.1⟩
  · exact ⟨h, fun hl => absurd rfl hl.1⟩

theorem stopIf_spec {c : Prop} [Decidable c] {e : Error} {Q : Unit → Owner D → Prop}
    (h : Lawful b o.log) (hq : ¬ c → Q () o) :
    Spec (stopIf c e : Serving D Unit) o Q (fun _ o' => Inv b o') := by
  unfold stopIf
  split
  · exact fail_spec h
  · exact hq ‹_›

theorem orFail_spec {α : Type} {r : Except Error α} {Q : α → Owner D → Prop} (h : Lawful b o.log)
    (hq : ∀ a, r = .ok a → Q a o) :
    Spec (orFail r : Serving D α) o Q (fun _ o' => Inv b o') := by
  unfold orFail
  cases r with
  | ok a => exact hq a rfl
  | error e => exact fail_spec h

theorem Tracks.session {v : View} {x : Exchange} {s s' : Session} (h : Tracks v x s)
    (hp : s'.pending = s.pending) (hn : s'.nextTicket = s.nextTicket) : Tracks v x s' :=
  ⟨h.lockdown, hp.trans h.pending, h.unacked, fun t ht => hn ▸ h.seen t ht, h.acked, h.fresh,
    h.begun, h.outstanding, h.response, h.function⟩

theorem Inv.session {w : World D} (h : Inv b o)
    (hp : w.session.pending = o.world.session.pending)
    (hn : w.session.nextTicket = o.world.session.nextTicket) : Inv b { o with world := w } :=
  ⟨h.lawful, fun hl => (h.tracks hl).session hp hn⟩

/-- Fields the view says nothing about. -/
theorem Inv.exchange {x : Exchange} (h : Inv b o) (hp : x.phase = o.exchange.phase)
    (hfun : x.function = o.exchange.function) (hlock : x.inLockdown = o.exchange.inLockdown)
    (hpend : x.pending = o.exchange.pending) : Inv b { o with exchange := x } := by
  refine ⟨h.lawful, fun hl => ?_⟩
  have ht := h.tracks (by unfold Live at *; rw [hp] at hl; exact hl)
  constructor
  · rw [hlock]
    exact ht.lockdown
  · rw [hpend]
    exact ht.pending
  · rw [hpend]
    exact ht.unacked
  · exact ht.seen
  · exact ht.acked
  · exact ht.fresh
  · rw [hp, hfun]
    exact ht.begun
  · rw [hp, hfun, hpend]
    exact ht.outstanding
  · rw [hp, hfun, hpend]
    exact ht.response
  · rw [hp, hfun]
    exact ht.function

/-! ## Guards -/

/-- A guard that returns leaves the exchange as it was. -/
theorem guard_spec {limit : Nat} (h : Inv b o) :
    Spec (guard port limit) o
      (fun _ o' => Live o.exchange ∧ o'.exchange = o.exchange ∧ o'.log = o.log ∧
        Session.RxSame o.world.session o'.world.session ∧ Inv b o')
      (fun _ o' => Inv b o') := by
  unfold guard
  refine .get_bind (.failIf_bind (fun _ => h) fun hp => ?_)
  have hlive : Live o.exchange := not_or.mp hp
  refine attempt_bind (Session.guard_rxSame.mono (fun _ w hw => ?_) fun e w hw => ?_)
  · exact orFail_spec h.lawful fun _ _ => ⟨hlive, rfl, rfl, hw, h.session hw.pending hw.nextTicket⟩
  · exact fail_spec h.lawful

theorem guardUnsubmitted_spec {limit : Nat} (h : Inv b o) :
    Spec (guardUnsubmitted port limit) o (fun _ o' => Inv b o') (fun _ o' => Inv b o') := by
  unfold guardUnsubmitted
  refine .get_bind (.failIf_bind (fun _ => h) fun hp => ?_)
  refine attempt_bind (Session.guardUnsubmitted_rxSame.mono (fun _ w hw => ?_) fun e w hw => ?_)
  · exact h.session hw.pending hw.nextTicket
  · unfold orExpired
    split
    · exact h.session hw.pending hw.nextTicket
    · exact orFail_spec h.lawful fun _ _ => h.session hw.pending hw.nextTicket

theorem invalidate_spec (hl : Live o.exchange) (h : Lawful b o.log) :
    Spec invalidate o (fun _ o' => ∃ n, o' = { o with
      exchange := { o.exchange with revision := n } }) (fun _ o' => Inv b o') := by
  unfold invalidate
  refine .get_bind (.failIf_bind (fun hp => absurd hp (not_or.mpr hl)) fun _ => ?_)
  exact .bind (stopIf_spec h fun _ => update_spec ⟨_, rfl⟩)

/-! ## Begin and cancel -/

theorem begin_spec {function : Word} {payload : Slice} {deadline : Nat} (h : Inv b o) :
    Spec (begin port function payload deadline) o (fun _ o' => Inv b o') (fun _ o' => Inv b o') := by
  unfold begin
  refine .get_bind (.failIf_bind (fun _ => h) fun hidle => .failIf_bind (fun _ => h) fun hpend => ?_)
  refine .seq (guard_spec h) (fun _ o₁ h₁ => ?_) fun _ _ h => h
  obtain ⟨hlive, hx, -, -, hinv⟩ := h₁
  have hidle : o₁.exchange.phase = .idle := by
    rw [hx]
    exact Decidable.not_not.mp hidle
  have hpend : o₁.exchange.pending = none := by
    rw [hx]
    exact Decidable.not_not.mp hpend
  refine .failIf_bind (fun _ => hinv) fun hfun => .failIf_bind (fun _ => hinv) fun _ => ?_
  have ht := hinv.tracks (hx ▸ hlive)
  have hbegun := ht.begun
  rw [hidle, if_neg (by simp)] at hbegun
  have hout := ht.outstanding
  rw [hidle, if_neg (by simp)] at hout
  refine note_bind (update_spec ⟨hinv.lawful.snoc hbegun, fun _ => ?_⟩)
  rw [view_snoc]
  refine ⟨ht.lockdown, ht.pending, ht.unacked, ht.seen, ht.acked, ht.fresh, rfl, ?_, ?_, ?_⟩
  · rw [if_neg (by simp)]
    exact hout
  · intro d hd
    simp [hpend] at hd
  · intro _
    show function.toNat < 0x1000
    omega

theorem cancelPrepared_spec (h : Inv b o) :
    Spec (cancelPrepared port) o (fun _ o' => Inv b o') (fun _ o' => Inv b o') := by
  unfold cancelPrepared
  refine .get_bind (.failIf_bind (fun _ => h) fun hp => .need_bind (fun _ => h) fun limit _ => ?_)
  obtain ⟨hprep, hpend⟩ := not_or.mp hp
  refine .seq (guard_spec h) (fun _ o₁ h₁ => ?_) fun _ _ h => h
  obtain ⟨hlive, hx, -, -, hinv⟩ := h₁
  have hpend : o₁.exchange.pending = none := by
    rw [hx]
    exact Decidable.not_not.mp hpend
  have ht := hinv.tracks (hx ▸ hlive)
  have hout := ht.outstanding
  rw [hx, Decidable.not_not.mp hprep, if_neg (by simp)] at hout
  refine note_bind (update_spec ⟨hinv.lawful.snoc trivial, fun _ => ?_⟩)
  rw [view_snoc]
  refine ⟨ht.lockdown, ht.pending, ht.unacked, ht.seen, ht.acked, ht.fresh, rfl, ?_, ?_, ?_⟩
  · rw [if_neg (by simp)]
    exact hout
  · intro d hd
    simp [hpend] at hd
  · intro hne
    exact absurd rfl hne

/-! ## Poll -/

theorem observeLockdown_spec {record : Record} (h : Lawful b o.log) :
    Spec (observeLockdown record) o
      (fun _ o' => o' = { o with exchange := { o.exchange with
        inLockdown := o.exchange.inLockdown || engages record } }) (fun _ o' => Inv b o') := by
  unfold observeLockdown engages
  split
  · rename_i hf
    refine .bind (stopIf_spec h fun _ => update_spec ?_)
    split <;> rename_i hv
    · rw [decide_eq_true hf, decide_eq_true hv]
      simp
    · rw [decide_eq_false hv]
      simp
  · rename_i hf
    show o = _
    simp [hf]

theorem notification_spec {record : Record} (hl : Live o.exchange) (h : Lawful b o.log) :
    Spec (notification record) o
      (fun _ o' => ∃ n, o' = { o with exchange := { o.exchange with
        inLockdown := o.exchange.inLockdown || engages record
        revision := n } }) (fun _ o' => Inv b o') := by
  unfold notification
  refine .bind (stopIf_spec h fun _ => ?_)
  refine .seq (observeLockdown_spec h) (fun _ o₁ h₁ => ?_) fun _ _ h => h
  subst h₁
  unfold observeChange
  split
  · exact invalidate_spec hl h
  · exact ⟨o.exchange.revision, rfl⟩

/-- An answer to a request is no lockdown event. -/
theorem Tracks.not_lockdown {v : View} {x : Exchange} {s : Session} {record : Record}
    (ht : Tracks v x s) (h : record.rpc.function = x.function ∧ x.phase = .waiting) :
    record.rpc.function ≠ Gsp.lockdown := by
  have hlt := ht.function (by rw [h.2]; simp)
  intro heq
  rw [← h.1, heq] at hlt
  simp [Gsp.lockdown] at hlt

theorem classify_spec {record : Record} {response : Bool} (hl : Live o.exchange)
    (h : Lawful b o.log) (hr : response = true → engages record = false) :
    Spec (classify record response) o
      (fun _ o' => ∃ n, o' = { o with exchange := { o.exchange with
        inLockdown := o.exchange.inLockdown || engages record
        revision := n } }) (fun _ o' => Inv b o') := by
  unfold classify
  split
  · rename_i hresp
    refine ⟨o.exchange.revision, ?_⟩
    rw [hr hresp]
    simp
  · exact notification_spec hl h

/-- The message `item` arrived after a log with view `v`, and is not handed out yet. -/
structure Arrived (b : Bool) (v : View) (s : Session) (item : Received) (o : Owner D) : Prop where
  lawful : Lawful b o.log
  log : view b o.log = v.after (.received item)
  live : Live o.exchange
  tracks : Tracks v o.exchange s
  none : o.exchange.pending = none
  serial : item.ticket.serial = s.nextTicket
  pending : o.world.session.pending = some item.ticket
  next : o.world.session.nextTicket = s.nextTicket + 1

theorem deliver_spec {v : View} {s : Session} {item : Received} {response : Bool}
    (h : Arrived b v s item o) (hr : response = o.exchange.answers item.record) :
    Spec (deliver item response) o (fun _ o' => Inv b o') (fun _ o' => Inv b o') := by
  have ht := h.tracks
  have hunacked : v.unacked = [] := by
    rw [ht.unacked, h.none]
    rfl
  have hanswer (h : response = true) :
      item.record.rpc.function = o.exchange.function ∧ o.exchange.phase = .waiting :=
    of_decide_eq_true (hr.symm.trans h)
  have hans (h : response = true) : engages item.record = false := by
    unfold engages
    rw [decide_eq_false (ht.not_lockdown (hanswer h)), Bool.false_and]
  have hout := ht.outstanding
  simp only [h.none, reduceCtorEq, IsEmpty.forall_iff, implies_true, and_true] at hout
  unfold deliver
  refine .seq (classify_spec h.live h.lawful hans) (fun _ o₁ h₁ => ?_) fun _ _ h => h
  obtain ⟨n, rfl⟩ := h₁
  refine note_bind (update_bind (.pure ⟨h.lawful.snoc fun hresp => ?_, fun _ => ?_⟩))
  · rw [h.log]
    show v.outstanding = [item.record.rpc.function]
    rw [hout, if_pos (hanswer hresp).2, (hanswer hresp).1]
  · dsimp only
    rw [view_snoc, h.log]
    refine ⟨?_, h.pending, ?_, ?_, ?_, ?_, ht.begun, ?_, ?_, ht.function⟩
    · show (v.lockdown || engages item.record) = _
      rw [ht.lockdown]
    · show v.unacked ++ [item.ticket] = _
      rw [hunacked]
      rfl
    · intro t hmem
      have hnext := h.next
      rcases List.mem_append.mp hmem with hmem | hmem
      · have := ht.seen t hmem
        omega
      · have := h.serial
        rw [List.mem_singleton.mp hmem]
        omega
    · exact fun t hmem => List.mem_append_left _ (ht.acked t hmem)
    · intro t hmem
      have hin : t ∈ v.unacked ++ [item.ticket] := hmem
      rw [hunacked, List.nil_append, List.mem_singleton] at hin
      subst hin
      refine ⟨List.mem_append.mpr (.inr (List.mem_singleton_self _)), fun hack => ?_⟩
      have := ht.seen _ (ht.acked _ hack)
      have := h.serial
      omega
    · show (if response = true then v.outstanding.tail else v.outstanding) = _
      rw [hout]
      cases response with
      | true => simp [(hanswer rfl).2]
      | false => simp
    · intro d hd hresp
      cases hd
      exact hanswer hresp

theorem dispatch_spec {s : Session} {item : Received} (hlog : Lawful b o.log)
    (hl : Live o.exchange) (ht : Tracks (view b o.log) o.exchange s)
    (hnone : o.exchange.pending = none) (hserial : item.ticket.serial = s.nextTicket)
    (hpending : o.world.session.pending = some item.ticket)
    (hnext : o.world.session.nextTicket = s.nextTicket + 1) :
    Spec (dispatch item) o (fun _ o' => Inv b o') (fun _ o' => Inv b o') := by
  have hlog₁ : Lawful b (o.log ++ [.received item]) := by
    refine hlog.snoc fun hm => ?_
    have := ht.seen _ hm
    omega
  have ht₁ : Tracks (view b o.log) { o.exchange with lastRpc := some item.record.rpc } s :=
    ⟨ht.lockdown, ht.pending, ht.unacked, ht.seen, ht.acked, ht.fresh, ht.begun, ht.outstanding,
      ht.response, ht.function⟩
  unfold dispatch
  refine note_bind (update_bind (.bind (stopIf_spec hlog₁ fun _ => .get_bind ?_)))
  exact deliver_spec ⟨hlog₁, view_snoc .., hl, ht₁, hnone, hserial, hpending, hnext⟩ rfl

theorem settleSend_spec {v : View} {result : Except Error Unit} (hlog : Lawful b o.log)
    (hv : view b o.log = v.after (.sent o.exchange.function result))
    (ht : Tracks v o.exchange o.world.session) (hprep : o.exchange.phase = .prepared)
    (hnone : o.exchange.pending = none) :
    Spec (settleSend result) o (fun _ o' => Inv b o') (fun _ o' => Inv b o') := by
  unfold settleSend
  split
  · exact ⟨hlog, fun _ => by rw [hv]; exact ht⟩
  · exact fail_spec hlog
  · have hout := ht.outstanding
    rw [hprep, if_neg (by simp)] at hout
    refine update_bind (.pure ⟨hlog, fun _ => ?_⟩)
    dsimp only
    rw [hv]
    refine ⟨ht.lockdown, ht.pending, ht.unacked, ht.seen, ht.acked, ht.fresh, rfl, ?_, ?_, ?_⟩
    · show v.outstanding ++ [o.exchange.function] = _
      rw [hout]
      simp [hnone]
    · intro d hd
      simp [hnone] at hd
    · intro _
      exact ht.function (by rw [hprep]; simp)

theorem submit_spec {limit : Nat} (h : Inv b o) (hl : Live o.exchange)
    (hnone : o.exchange.pending = none) :
    Spec (submit port limit) o (fun _ o' => Inv b o') (fun _ o' => Inv b o') := by
  unfold submit
  refine .get_bind ?_
  have ht := h.tracks hl
  split
  · rename_i hcond
    have hbegun := ht.begun
    rw [hcond.1, if_pos rfl] at hbegun
    have hallowed (r : Except Error Unit) :
        Allowed (view b o.log) (.sent o.exchange.function r) := by
      refine ⟨hbegun, ht.lockdown.trans hcond.2, ?_⟩
      rw [ht.unacked, hnone]
      rfl
    refine attempt_bind (Session.send_rxSame.mono (fun _ w hw => ?_) fun e w hw => ?_)
    · exact note_bind (settleSend_spec (h.lawful.snoc (hallowed _)) (view_snoc ..)
        (ht.session hw.pending hw.nextTicket) hcond.1 hnone)
    · exact note_bind (settleSend_spec (h.lawful.snoc (hallowed _)) (view_snoc ..)
        (ht.session hw.pending hw.nextTicket) hcond.1 hnone)
  · refine update_bind (.pure ?_)
    split
    · exact h.exchange rfl rfl rfl rfl
    · exact h

theorem poll_spec {deadline : Nat} (h : Inv b o) :
    Spec (poll port deadline) o (fun _ o' => Inv b o') (fun _ o' => Inv b o') := by
  unfold poll
  refine .get_bind (.seq (guard_spec h) (fun _ o₁ h₁ => ?_) fun _ _ h => h)
  obtain ⟨hlive, hx, -, -, hinv⟩ := h₁
  have hinv₁ : Inv b { o₁ with exchange := { o₁.exchange with
      deadline := some (o.exchange.limitOf deadline) } } := hinv.exchange rfl rfl rfl rfl
  refine update_bind (.failIf_bind (fun _ => hinv₁) fun hnone => ?_)
  have hlive₁ : Live o₁.exchange := hx ▸ hlive
  have hnone₁ : o₁.exchange.pending = none := by
    rw [hx]
    exact Decidable.not_not.mp hnone
  have ht := hinv₁.tracks hlive₁
  refine attempt_bind (Session.receive_spec.mono (fun r w hw => ?_) fun e w hw => ?_)
  · obtain ⟨-, -, -, hok⟩ := hw
    unfold settleReceive
    generalize hs : w.session = s' at hok
    cases hok with
    | empty now peer =>
      exact submit_spec (hinv₁.session (by rw [hs]) (by rw [hs])) hlive₁ hnone₁
    | record now peer next record =>
      refine dispatch_spec hinv₁.lawful hlive₁ ht hnone₁ rfl ?_ ?_
      · rw [hs]
      · rw [hs]
  · unfold settleReceive
    split
    · have hframe := hw.2.frame
      exact hinv₁.session (by rw [hframe]) (by rw [hframe])
    · exact fail_spec hinv₁.lawful
    · cases ‹Except.error _ = Except.ok _›
    · cases ‹Except.error _ = Except.ok _›

/-! ## Completion -/

theorem borrow_spec {ticket : Ticket} (h : Inv b o) :
    Spec (borrow port ticket) o
      (fun d o' => Live o.exchange ∧ o.exchange.pending = some d ∧ d.ticket = ticket ∧
        o'.exchange = o.exchange ∧ o'.log = o.log ∧ Inv b o')
      (fun _ o' => Inv b o') := by
  unfold borrow
  refine .get_bind (.need_bind (fun _ => h) fun d hd => .need_bind (fun _ => h) fun limit _ => ?_)
  refine .seq (guard_spec h) (fun _ o₁ h₁ => ?_) fun _ _ h => h
  obtain ⟨hlive, hx, hlog, -, hinv⟩ := h₁
  refine .failIf_bind (fun _ => hinv) fun hticket => .pure ?_
  exact ⟨hlive, hd, Decidable.not_not.mp hticket, hx, hlog, hinv⟩

/-- The acknowledged message leaves the exchange in step with the view. -/
theorem tracks_completed {v : View} {x : Exchange} {s s' : Session} {d : Dispatch}
    (ht : Tracks v x s) (hd : x.pending = some d) (hp : s'.pending = none)
    (hn : s'.nextTicket = s.nextTicket) :
    Tracks (v.after (.acked d (.ok ()))) (completed d x) s' := by
  have hunacked : v.unacked = [d.ticket] := by
    rw [ht.unacked, hd]
    rfl
  have hempty : (v.after (.acked d (.ok ()))).unacked = [] := by
    show v.unacked.erase d.ticket = []
    rw [hunacked]
    simp
  have hseen (t : Ticket) (hm : t ∈ v.seen) : t.serial < s'.nextTicket := hn ▸ ht.seen t hm
  have hacked (t : Ticket) (hm : t ∈ v.acked ++ [d.ticket]) : t ∈ v.seen := by
    rcases List.mem_append.mp hm with hm | hm
    · exact ht.acked t hm
    · rw [List.mem_singleton.mp hm]
      exact (ht.fresh _ (by rw [hunacked]; exact List.mem_singleton_self _)).1
  have hfresh (t : Ticket) (hm : t ∈ (v.after (.acked d (.ok ()))).unacked) :
      t ∈ v.seen ∧ t ∉ v.acked ++ [d.ticket] := by
    rw [hempty] at hm
    cases hm
  have hout := ht.outstanding
  have hbegun := ht.begun
  unfold completed
  cases hresp : d.response with
  | true =>
    have hw := ht.response d hd hresp
    refine ⟨?_, hp, hempty, hseen, hacked, hfresh, ?_, ?_, ?_, ?_⟩
    · show (if d.record.rpc.function = Gsp.lockdown then engages d.record else v.lockdown) = _
      rw [if_neg (ht.not_lockdown hw), ht.lockdown]
      rfl
    · show v.begun = none
      rw [hbegun, hw.2, if_neg (by simp)]
    · show v.outstanding = _
      rw [hout, if_neg, if_neg]
      · simp
      · intro hall
        rw [hall.2 d hd] at hresp
        cases hresp
    · intro d' hd'
      cases hd'
    · intro hne
      exact absurd rfl hne
  | false =>
    refine ⟨?_, hp, hempty, hseen, hacked, hfresh, hbegun, ?_, ?_, ht.function⟩
    · show (if d.record.rpc.function = Gsp.lockdown then engages d.record else v.lockdown) =
        if d.record.rpc.function = Gsp.lockdown then decide (d.record.payload.getD 0 0 = 1)
          else x.inLockdown
      split
      · rename_i hf
        unfold engages
        rw [decide_eq_true hf, Bool.true_and]
      · exact ht.lockdown
    · show v.outstanding = _
      rw [hout]
      simp [hd, hresp]
    · intro d' hd'
      cases hd'

theorem complete_spec {ticket : Ticket} (h : Inv b o) :
    Spec (complete port ticket) o (fun _ o' => Inv b o') (fun _ o' => Inv b o') := by
  unfold complete
  refine .seq (borrow_spec h) (fun d o₁ h₁ => ?_) fun _ _ h => h
  obtain ⟨hlive, hd, rfl, hx, -, hinv⟩ := h₁
  have hd : o₁.exchange.pending = some d := by
    rw [hx]
    exact hd
  have ht := hinv.tracks (hx ▸ hlive)
  have hunacked : (view b o₁.log).unacked = [d.ticket] := by
    rw [ht.unacked, hd]
    rfl
  have hmem : d.ticket ∈ (view b o₁.log).unacked := by
    rw [hunacked]
    exact List.mem_singleton_self _
  have hallowed (r : Except Error Unit) : Allowed (view b o₁.log) (.acked d r) :=
    ⟨hmem, (ht.fresh _ hmem).2⟩
  refine .get_bind (.need_bind (fun _ => hinv) fun limit _ => ?_)
  refine attempt_bind (Session.acknowledge_spec.mono (fun _ w hw => ?_) fun e w hw => ?_)
  · have hlog := hinv.lawful.snoc (hallowed (.ok ()))
    refine note_bind (.bind (orFail_spec hlog fun _ _ => update_spec ⟨hlog, fun _ => ?_⟩))
    obtain ⟨now, hsession⟩ := hw.1.session
    rw [view_snoc]
    exact tracks_completed ht hd (by rw [hsession]) (by rw [hsession])
  · exact note_bind (.bind (fail_spec (hinv.lawful.snoc (hallowed _))))

theorem reject_spec {ticket : Ticket} (h : Inv b o) :
    Spec (reject port ticket) o (fun _ o' => Inv b o') (fun _ o' => Inv b o') := by
  unfold reject
  refine .seq (borrow_spec h) (fun d o₁ h₁ => ?_) fun _ _ h => h
  exact fail_spec h₁.2.2.2.2.2.lawful

theorem handoff_spec {deadline : Nat} (h : Inv b o) :
    Spec (handoff port deadline) o (fun _ o' => Inv b o') (fun _ o' => Inv b o') := by
  unfold handoff
  refine .get_bind (.failIf_bind (fun _ => h) fun _ => ?_)
  refine .seq (guard_spec h) (fun _ o₁ h₁ => ?_) fun _ _ h => h
  exact update_bind (.pure ⟨h₁.2.2.2.2.lawful, fun hl => absurd rfl hl.2⟩)

end Exchange
end Gsp
end NvidiaGsp
