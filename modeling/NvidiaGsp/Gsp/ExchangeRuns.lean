import NvidiaGsp.Gsp.TransportRuns
import NvidiaGsp.Gsp.ExchangeSpec

/-!
# Gsp.ExchangeRuns

Whole runs of an exchange against any firmware: every log is lawful (`exchange_run`), and a failed
exchange is frozen. A request may be tried several times while the ring is full; only one try per
request gets past that answer.
-/

namespace NvidiaGsp
namespace Gsp
namespace Exchange

open Call Bytes

variable {D : Type} {port : Port D} {o : Owner D} {b : Bool}

theorem then_done {α : Type} {x : Serving D α} {f : α → Answer} {P : Owner D → Prop}
    (h : Spec x o (fun _ o' => P o') (fun _ o' => P o')) :
    Spec (do let a ← x; pure (f a) : Serving D Answer) o (fun _ o' => P o') (fun _ o' => P o') :=
  .seq h (fun _ _ h => h) fun _ _ h => h

theorem call_spec (op : Op) (h : Inv b o) :
    Spec (call port op) o (fun _ o' => Inv b o') (fun _ o' => Inv b o') := by
  cases op with
  | fail => exact fail_spec h.lawful
  | guard => exact then_done ((guard_spec h).mono (fun _ _ h => h.2.2.2.2) fun _ _ h => h)
  | guardUnsubmitted => exact then_done (guardUnsubmitted_spec h)
  | invalidate =>
    by_cases hl : Live o.exchange
    · refine then_done ((invalidate_spec hl h.lawful).mono (fun _ o' h' => ?_) fun _ _ h => h)
      obtain ⟨n, rfl⟩ := h'
      exact h.exchange rfl rfl rfl rfl
    · refine then_done ?_
      unfold invalidate
      exact .get_bind (.failIf_bind (fun _ => h) fun hp => absurd (not_or.mp hp) hl)
  | begin => exact then_done (begin_spec h)
  | cancelPrepared => exact then_done (cancelPrepared_spec h)
  | poll => exact then_done (poll_spec h)
  | borrow => exact then_done ((borrow_spec h).mono (fun _ _ h => h.2.2.2.2.2) fun _ _ h => h)
  | complete => exact then_done (complete_spec h)
  | reject => exact then_done (reject_spec h)
  | handoff => exact then_done (handoff_spec h)

theorem step_inv {op : Op} {out : Except Error Answer} {o' : Owner D} (hi : Inv b o)
    (h : step port o op = (out, o')) : Inv b o' := by
  cases out with
  | ok a => exact (call_spec op hi).ok (outcome_ok_iff.1 h)
  | error e => exact (call_spec op hi).error (outcome_error_iff.1 h)

theorem init_inv {runtime r : Handoff} {deadline : Nat} {w w₀ : World D} {x : Exchange}
    (h : init port runtime deadline w = .ok (x, r) w₀) : Inv runtime.inLockdown ⟨x, w₀, []⟩ := by
  have hspec : Spec (init port runtime deadline) w
      (fun p w' => Inv runtime.inLockdown ⟨p.1, w', []⟩) (fun _ _ => True) := by
    unfold init
    refine .get_bind (.failIf_bind (fun _ => trivial) fun hcond => ?_)
    refine .seq Session.guard_rxSame (fun _ w₁ h₁ => .pure ⟨lawful_nil _, fun _ => ?_⟩)
      fun _ _ _ => trivial
    have hnone : w.session.pending = none := by
      by_contra hne
      exact hcond (.inr (.inr hne))
    refine ⟨rfl, h₁.pending.trans hnone, rfl, ?_, ?_, ?_, rfl, rfl, ?_, ?_⟩
    all_goals simp [view, View.start]
  exact hspec.ok h

/-! ## After a failure -/

/-- Every call on a failed exchange is refused and changes nothing at all. -/
theorem call_failed (op : Op) (hf : o.exchange.phase = .failed) :
    ∃ e, call port op o = .error e o := by
  have hguard (limit : Nat) : guard port limit o = .error .State o := by
    simp [guard, bind_apply, failIf_of, hf]
  have hborrow (ticket : Ticket) : ∃ e, borrow port ticket o = .error e o := by
    unfold borrow
    cases hp : o.exchange.pending with
    | none => exact ⟨.Stale, by simp [bind_apply, need, hp]⟩
    | some d =>
      cases hd : o.exchange.deadline with
      | none => exact ⟨.State, by simp [bind_apply, need, hp, hd]⟩
      | some limit => exact ⟨.State, by simp [bind_apply, need, hp, hd, hguard]⟩
  cases op with
  | fail reason =>
    refine ⟨reason, ?_⟩
    simp [call, fail, bind_apply, failIf_of_not, hf, recordFailure]
  | guard limit => exact ⟨.State, by simp [call, bind_apply, hguard]⟩
  | guardUnsubmitted =>
    exact ⟨.State, by simp [call, guardUnsubmitted, bind_apply, failIf_of, hf]⟩
  | invalidate => exact ⟨.State, by simp [call, invalidate, bind_apply, failIf_of, hf]⟩
  | begin => exact ⟨.State, by simp [call, begin, bind_apply, failIf_of, hf]⟩
  | cancelPrepared => exact ⟨.State, by simp [call, cancelPrepared, bind_apply, failIf_of, hf]⟩
  | poll => exact ⟨.State, by simp [call, poll, bind_apply, hguard]⟩
  | borrow ticket =>
    obtain ⟨e, he⟩ := hborrow ticket
    exact ⟨e, by simp [call, bind_apply, he]⟩
  | complete ticket =>
    obtain ⟨e, he⟩ := hborrow ticket
    exact ⟨e, by simp [call, complete, bind_apply, he]⟩
  | reject ticket =>
    obtain ⟨e, he⟩ := hborrow ticket
    exact ⟨e, by simp [call, reject, bind_apply, he]⟩
  | handoff => exact ⟨.State, by simp [call, handoff, bind_apply, failIf_of, hf]⟩

theorem frozen {o₁ : Owner D} {h : List (Event (Owner D) Op (Except Error Answer))}
    (hf : o₁.exchange.phase = .failed) (hr : Run (step port) o₁ h o) : o = o₁ := by
  refine hr.invariant (P := fun _ o => o = o₁) rfl fun _ o₂ op out o' heq hs => ?_
  subst heq
  obtain ⟨e, he⟩ := @call_failed D port _ op hf
  rw [step, outcome, he] at hs
  exact (congrArg Prod.snd hs).symm

/-! ## Every run -/

/-- In every run of an exchange, against any firmware and any device: every session call is allowed
by the protocol when it is made, so a request is sent only after its begin, outside the lockdown
window and with no message unacknowledged, and once it got past a full ring not again; a response is
handed out only against the one outstanding request of its function, which it settles; every message
is acknowledged at most once. A failed exchange stays exactly as it is. -/
theorem exchange_run {runtime r : Handoff} {deadline : Nat} {w w₀ : World D} {x : Exchange}
    {h : List (Event (Owner D) Op (Except Error Answer))}
    (h₀ : init port runtime deadline w = .ok (x, r) w₀) (hr : Run (step port) ⟨x, w₀, []⟩ h o) :
    Lawful runtime.inLockdown o.log ∧
      (Live o.exchange → o.exchange.inLockdown = (view runtime.inLockdown o.log).lockdown) ∧
      ∀ h₁ h₂ o₁, h = h₁ ++ h₂ → Run (step port) ⟨x, w₀, []⟩ h₁ o₁ → Run (step port) o₁ h₂ o →
        o₁.exchange.phase = .failed → o = o₁ := by
  have hinv : Inv runtime.inLockdown o :=
    hr.invariant (P := fun _ o => Inv runtime.inLockdown o) (init_inv h₀)
      fun _ _ _ _ _ hi hs => step_inv hi hs
  exact ⟨hinv.lawful, fun hl => (hinv.tracks hl).lockdown.symm, fun _ _ _ _ _ hr₂ hf => frozen hf hr₂⟩

/-- The session of `port` after its first connect. -/
def connected (port : Port Unit) : World Unit :=
  (exec (Session.step port) ⟨Session.idleSession, (), []⟩ [.connect 5]).2

/-- The exchange that takes the connected session over, after `ops`. -/
def served (port : Port Unit) (ops : List Op) :
    List (Event (Owner Unit) Op (Except Error Answer)) × Owner Unit :=
  exec (step port) ⟨{ inLockdown := false }, connected port, []⟩ ops

theorem exchange_run_idle :
    let o := (served Session.idlePort [.begin 5 ⟨0x100000, [1]⟩ 5, .poll 5]).2
    o.exchange.phase = .waiting ∧ Lawful false o.log ∧
      (Live o.exchange → o.exchange.inLockdown = (view false o.log).lockdown) ∧
      ∀ h₁ h₂ o₁, (served Session.idlePort [.begin 5 ⟨0x100000, [1]⟩ 5, .poll 5]).1 = h₁ ++ h₂ →
        Run (step Session.idlePort) ⟨{ inLockdown := false }, connected Session.idlePort, []⟩ h₁ o₁ →
        Run (step Session.idlePort) o₁ h₂ o → o₁.exchange.phase = .failed → o = o₁ := by
  refine ⟨by decide +kernel, ?_⟩
  have hinit : init Session.idlePort ⟨false, false⟩ 5 (connected Session.idlePort) =
      .ok ({ inLockdown := false }, ⟨false, true⟩) (connected Session.idlePort) := by
    rfl
  exact exchange_run hinit (Run.of_exec _ _ _)

/-- A ring of two slots has no room for a record of two. -/
def tightPort : Port Unit :=
  { Session.idlePort with
    read := fun _ _ offset _ _ => (.ok fun i => (putAll Session.freshHeader
      [(12, 2), (28, BitVec.ofNat 32 (queueBytes - 2 * elementBytes))]).getD (offset + i) 0, ()) }

def isSent : Note → Bool
  | .sent _ _ => true
  | _ => false

def isBegun : Note → Bool
  | .began _ => true
  | _ => false

/-- One begin, and two calls of `send` for it: the first poll found the ring full. -/
theorem send_retried :
    let o := (served tightPort [.begin 5 ⟨0x100000, List.replicate 5000 0⟩ 5, .poll 5, .poll 5]).2
    o.log.countP isBegun = 1 ∧ o.log.countP isSent = 2 := by
  decide +kernel

end Exchange
end Gsp
end NvidiaGsp
