import Mathlib

/-!
# Rm.WaitPolicy

The bounded wait (`wait_policy.zig`): read the clock until the requested time or the deadline is
reached, sleep or spin in between, and give up on a clock that does not move.
-/

namespace NvidiaGsp
namespace Rm
namespace Wait

inductive Result where
  | ok | invalid | context | cancelled | deadline | clock
  deriving DecidableEq, Repr

inductive Mode where
  | busy | adaptive | sleep
  deriving DecidableEq, Repr

structure Options where
  durationNs : Nat
  deadlineNs : Nat := 0
  mode : Mode
  frequencyHz : Nat
  sleepable : Bool
  irq : Bool := false
  freeRunning : Bool := true
  stalledReadLimit : Nat := 1024 * 1024

def unavailable : Nat := 2 ^ 64 - 1
def nsPerS : Nat := 1000000000

/-- One call of the surroundings, and what it returned. -/
inductive Event where
  | read (value : Nat)
  | stop (result : Result)
  | sleep (ticks : Nat) (result : Result)
  | relax
  deriving DecidableEq

/-- What the surroundings answer, by how many calls came before. -/
structure Ops where
  now : Nat → Nat
  checkStop : Nat → Result
  sleepTicks : Nat → Result

def Options.maySleep (o : Options) : Bool := o.mode ≠ .busy && o.sleepable

/-- The variables of the loop, and the calls so far, the last one first. -/
structure Loop where
  now : Nat
  stalled : Nat := 0
  polls : Nat := 0
  events : List Event

section

variable (o : Options) (ops : Ops)

def ticks (remaining : Nat) : Nat :=
  if o.maySleep then min (remaining * o.frequencyHz / nsPerS) (unavailable - 1) else 0

/-- Every 4096 polls, outside an interrupt: whether the wait is to end. -/
def checked (s : Loop) : Loop × Result :=
  if s.polls % 4096 = 0 ∧ ¬ o.irq then
    ({ s with events := .stop (ops.checkStop s.events.length) :: s.events },
      ops.checkStop s.events.length)
  else (s, .ok)

/-- The pause between two readings. -/
def paused (limit : Nat) (s : Loop) : Loop × Result :=
  let ticks := ticks o (limit - s.now)
  if ticks ≠ 0 then
    ({ s with events := .sleep ticks (ops.sleepTicks s.events.length) :: s.events },
      ops.sleepTicks s.events.length)
  else ({ s with events := .relax :: s.events }, .ok)

/-- The next reading. -/
def reread (s : Loop) : Loop × Result :=
  let next := ops.now s.events.length
  let s := { s with events := .read next :: s.events }
  if next = unavailable ∨ next < s.now then (s, .clock)
  else if next = s.now then
    if s.stalled ≥ o.stalledReadLimit then (s, .clock)
    else ({ s with stalled := s.stalled + 1, polls := s.polls + 1 }, .ok)
  else ({ s with now := next, stalled := 0, polls := s.polls + 1 }, .ok)

/-- One turn of the loop; it ends with a result that is not `ok`. -/
def turn (limit : Nat) (s : Loop) : Loop × Result :=
  match checked o ops s with
  | (s, .ok) =>
    match paused o ops limit s with
    | (s, .ok) => reread o ops s
    | (s, r) => (s, r)
  | (s, r) => (s, r)

end

variable {o : Options} {p : Ops} {l : Nat} {s s' : Loop}

theorem checked_kept : (checked o p s).1.now = s.now ∧ (checked o p s).1.stalled = s.stalled := by
  unfold checked
  split <;> exact ⟨rfl, rfl⟩

theorem paused_kept : (paused o p l s).1.now = s.now ∧
    (paused o p l s).1.stalled = s.stalled := by
  unfold paused
  dsimp only
  split <;> exact ⟨rfl, rfl⟩

/-- A turn that goes on follows its checks, its pause and its reading. -/
theorem turn_ok (h : turn o p l s = (s', .ok)) : ∃ s₁ s₂, checked o p s = (s₁, .ok) ∧
    paused o p l s₁ = (s₂, .ok) ∧ reread o p s₂ = (s', .ok) := by
  unfold turn at h
  split at h
  · rename_i s₁ hc
    split at h
    · rename_i s₂ hp
      exact ⟨s₁, s₂, hc, hp, h⟩
    · rename_i r hne hp
      exact absurd (Prod.mk.inj h).2 hne
  · rename_i r hne hc
    exact absurd (Prod.mk.inj h).2 hne

/-- A turn that goes on has seen the clock move, or one more stalled reading. -/
theorem turn_measure (h : turn o p l s = (s', .ok)) :
    s.now < s'.now ∨ (s'.now = s.now ∧ s.stalled < o.stalledReadLimit ∧
      s'.stalled = s.stalled + 1) := by
  obtain ⟨s₁, s₂, hc, hp, hr⟩ := turn_ok h
  obtain ⟨hnow₁, hstalled₁⟩ := checked_kept (o := o) (s := s) (p := p)
  obtain ⟨hnow₂, hstalled₂⟩ := paused_kept (o := o) (s := s₁) (p := p) (l := l)
  rw [hc] at hnow₁ hstalled₁
  rw [hp] at hnow₂ hstalled₂
  dsimp only at hnow₁ hstalled₁ hnow₂ hstalled₂
  unfold reread at hr
  dsimp only at hr
  split at hr
  · cases hr
  rename_i hnext
  split at hr
  · split at hr
    · cases hr
    · obtain rfl := (Prod.mk.inj hr).1
      dsimp only
      omega
  · obtain rfl := (Prod.mk.inj hr).1
    dsimp only
    omega

/-- The loop: the clock moves towards the limit, or the readings that may stall run out. -/
def loop (o : Options) (ops : Ops) (limit : Nat) (s : Loop) : Loop × Result :=
  if s.now < limit then
    match _h : turn o ops limit s with
    | (s', .ok) => loop o ops limit s'
    | (s', r) => (s', r)
  else (s, if o.deadlineNs ≠ 0 ∧ s.now ≥ o.deadlineNs then .deadline else .ok)
termination_by (limit - s.now, o.stalledReadLimit - s.stalled)
decreasing_by
  have := turn_measure _h
  rw [Prod.lex_def]
  dsimp only
  omega

/-- The time at which a wait may end. -/
def due (o : Options) (start : Nat) : Nat :=
  if o.deadlineNs = 0 then start + o.durationNs else min (start + o.durationNs) o.deadlineNs

/-- `run`: the result, and the calls it made, the last one first. -/
def run (o : Options) (ops : Ops) : List Event × Result :=
  if o.mode = .sleep ∧ ¬ o.sleepable then ([], .context)
  else if o.irq ∧ o.durationNs > 20 * 1000000 then ([], .context)
  else
    let now := ops.now 0
    let events := [Event.read now]
    if now = unavailable then (events, .clock)
    else if o.deadlineNs ≠ 0 ∧ now ≥ o.deadlineNs then (events, .deadline)
    else if now + o.durationNs ≥ 2 ^ 64 then (events, .invalid)
    else if now + o.durationNs = unavailable then (events, .invalid)
    else
      let limit := due o now
      if o.maySleep ∧ o.frequencyHz = 0 then (events, .clock)
      else if now < limit ∧ ¬ o.sleepable ∧ ¬ o.freeRunning then (events, .clock)
      else
        let (s, r) := loop o ops limit { now := now, events := events }
        (s.events, r)

end Wait
end Rm
end NvidiaGsp
