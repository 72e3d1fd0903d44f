import NvidiaGsp.Lib.Bytes
import NvidiaGsp.Lib.Triples

/-!
# Power.Policy

The performance demand of one device (`gsp_power_policy.zig`): from what the workload does, a finite
boost request or none, and the reply to it.
-/

namespace NvidiaGsp
namespace Power

open Call

inductive Error where
  | Clock | Parameter | Overflow | State | Stale | Binding | Api | Map | Descriptor | Synchronization
  /-- An error of the exchange, the encoder, the decoder or the telemetry reader. -/
  | Other
  deriving DecidableEq, Repr

def maxU64 : Nat := 2 ^ 64 - 1

/-- The saturating sum of two times. -/
def later (now span : Nat) : Nat := min (now + span) maxU64

def holdNs : Nat := 250 * 1000000
def renewNs : Nat := 1000000000
def durationSeconds : Nat := 2
def nsPerS : Nat := 1000000000

inductive Reason where
  | idle | settling | desktop | multiOutput | render | fullscreen | video | compute | limited | stopping
  deriving DecidableEq, Repr

inductive Availability where
  | unprobed | available | rejected
  deriving DecidableEq, Repr

structure Activity where
  copy : Bool := false
  render : Bool := false
  video : Bool := false
  compute : Bool := false
  displayCommit : Bool := false
  cursor : Bool := false
  fullscreen : Bool := false
  outputs : Nat := 0
  stopping : Bool := false
  deriving DecidableEq

/-- Something is at work. -/
def Activity.working (a : Activity) : Bool :=
  a.copy || a.render || a.compute || a.video || a.displayCommit || a.cursor

structure Request where
  serial : Nat
  level : Nat
  seconds : Nat
  reason : Reason
  issuedNs : Nat
  deriving DecidableEq, Repr

structure Policy where
  available : Availability := .unprobed
  rejection : Option Word := none
  reason : Reason := .idle
  lastNow : Nat := 0
  lastActivity : Option Nat := none
  lastHighActivity : Option Nat := none
  lastAccepted : Nat := 0
  acceptedLevel : Nat := 0
  acceptedUntil : Nat := 0
  serial : Nat := 0
  pending : Option Request := none
  acceptedRequests : Nat := 0

/-- The firmware's throttle mask names a cap, a slowdown or a brake. -/
def constrained (throttle : Option Word) : Bool :=
  match throttle with
  | some mask => mask &&& 0xec != 0
  | none => false

/-- Why the device is demanded, and at which level, before the last high demand is held. -/
def Policy.wanted (p : Policy) (now : Nat) (activity : Activity) (throttle : Option Word) :
    Reason × Nat :=
  if activity.stopping then (.stopping, 0)
  else if constrained throttle then (.limited, 0)
  else if activity.compute then (.compute, 2)
  else if activity.fullscreen && (activity.copy || activity.render) then (.fullscreen, 2)
  else if activity.render then (.render, 2)
  else if activity.video then (.video, 2)
  else if activity.copy || activity.displayCommit || activity.cursor then
    (if activity.outputs > 1 then .multiOutput else .desktop, 1)
  else
    match p.lastActivity with
    | some last => (if now - last < holdNs then .settling else .idle, 0)
    | none => (.idle, 0)

/-- A recent high demand lifts a low one. -/
def Policy.held (p : Policy) (now level : Nat) : Nat :=
  match p.lastHighActivity with
  | some last => if level = 1 ∧ now - last < holdNs then 2 else level
  | none => level

/-- What is seen of the workload, whatever is asked for it. -/
def Policy.observe (p : Policy) (now : Nat) (reason : Reason) (first level : Nat) : Policy :=
  { p with
    lastNow := now
    reason := reason
    lastHighActivity := if first = 2 then some now else p.lastHighActivity
    lastActivity := if level ≠ 0 then some now else p.lastActivity }

/-- An accepted level lapses at its time. -/
def Policy.lapse (p : Policy) (now : Nat) : Policy :=
  { p with acceptedLevel := if p.acceptedLevel ≠ 0 ∧ now ≥ p.acceptedUntil then 0 else p.acceptedLevel }

/-- The request for a level. -/
def Policy.request (p : Policy) (now level : Nat) : Request where
  serial := p.serial + 1
  level := level
  seconds := if level = 0 then 0 else durationSeconds
  reason := p.reason
  issuedNs := now

/-- `next`: the boost request to send, if any. -/
def next (now : Nat) (activity : Activity) (throttle : Option Word) :
    Call Error Policy (Option Request) := do
  let p ← get
  failIf (now = 0 ∨ now < p.lastNow) .Clock
  failIf (activity.outputs > 8) .Parameter
  let wanted := p.wanted now activity throttle
  let level := p.held now wanted.2
  set (p.observe now wanted.1 wanted.2 level)
  if p.pending.isSome ∨ p.available = .rejected ∨ wanted.1 = .settling then return none
  else do
    modify fun p => p.lapse now
    let p ← get
    if level = p.acceptedLevel ∧ (level = 0 ∨ now - p.lastAccepted < renewNs) then return none
    else do
      failIf (p.serial = maxU64) .Overflow
      set { p with serial := p.serial + 1, pending := some (p.request now level) }
      return some (p.request now level)

/-- The policy behind an accepted request. -/
def Policy.accept (p : Policy) (request : Request) (now : Nat) : Policy :=
  { p with
    available := .available
    acceptedLevel := request.level
    lastAccepted := now
    acceptedUntil := later now (request.seconds * nsPerS)
    acceptedRequests := p.acceptedRequests + 1 }

/-- `complete`: the reply to the pending request. -/
def complete (request : Request) (status : Word) (now : Nat) : Call Error Policy Unit := do
  let p ← get
  let pending ← need p.pending .State
  failIf (pending ≠ request) .Stale
  failIf (now = 0 ∨ now < p.lastNow ∨ now < request.issuedNs) .Clock
  let p := { p with lastNow := now, pending := none }
  set (if status ≠ 0 then { p with available := .rejected, rejection := some status }
    else p.accept request now)

end Power
end NvidiaGsp
