import NvidiaGsp.Lib.Calls

/-!
# Sched.Turns

The work scheduler (`gsp_work_scheduling.zig`): eight slots, and turns that order the producers and
the jobs of one producer. A driver chooses a slot, does a bounded piece of its work, and yields or
releases the slot it chose; `State.latest` is the choice not given back yet. The quanta of
`configure` bound a piece of work and are left out.
-/

namespace NvidiaGsp
namespace Sched

open Call

inductive Error where
  | State | Descriptor | Exhausted
  /-- A slot is given back that was not chosen. -/
  | NotChosen
  deriving DecidableEq, Repr

def capacity : Nat := 8

def maxU64 : Nat := 2 ^ 64 - 1

structure Producer where
  kind : Nat
  id : Nat
  generation : Nat
  deriving DecidableEq

structure Entry where
  producer : Producer
  producerTurn : Nat
  jobTurn : Nat := 0
  deriving DecidableEq

/-- The fields of a job that say who produced it. -/
structure Job where
  size : Nat
  timeline : Nat
  deviceGeneration : Nat
  producerKind : Nat
  producerReserved : Nat
  producerId : Nat
  producerGeneration : Nat

structure Owner where
  entries : Fin capacity → Option Entry := fun _ => none
  turn : Nat := 0
  slices : Nat := 0
  highWater : Nat := 0

abbrev TurnCall (α : Type) := Call Error Owner α

def slot (index : Nat) : Option (Fin capacity) :=
  if h : index < capacity then some ⟨index, h⟩ else none

def Owner.count (o : Owner) : Nat := (List.finRange capacity).countP fun i => (o.entries i).isSome

/-- The turn of the first entry of a producer. -/
def Owner.peerTurn (o : Owner) (producer : Producer) : Option Nat :=
  (List.finRange capacity).findSome? fun i =>
    match o.entries i with
    | some peer => if peer.producer = producer then some peer.producerTurn else none
    | none => none

/-- `jobBytes` is the size of a job that names its producer. -/
def Job.producer (jobBytes : Nat) (job : Job) : Except Error Producer :=
  if job.size ≥ jobBytes ∧ job.producerKind ≠ 0 then
    if job.producerKind > 3 ∨ job.producerReserved ≠ 0 ∨ job.producerId = 0 ∨
        job.producerGeneration = 0 then .error .Descriptor
    else .ok ⟨job.producerKind, job.producerId, job.producerGeneration⟩
  else .ok ⟨0, job.timeline, job.deviceGeneration⟩

def admitJob (jobBytes index : Nat) (job : Job) : TurnCall Unit := do
  let o ← get
  let i ← need (slot index) .State
  failIf ((o.entries i).isSome ∨ job.timeline = 0) .State
  let producer ← lift (job.producer jobBytes)
  let last := (o.peerTurn producer).getD o.turn
  let entry : Entry := { producer := producer, producerTurn := last, jobTurn := o.turn }
  let admitted := { o with entries := Function.update o.entries i (some entry) }
  set { admitted with highWater := max o.highWater admitted.count }

/-- The earlier entry stays chosen unless the candidate is strictly before it. -/
def Owner.pick (o : Owner) (chosen : Option (Fin capacity)) (i : Fin capacity) :
    Option (Fin capacity) :=
  match o.entries i with
  | none => chosen
  | some candidate =>
    match chosen.bind o.entries with
    | none => some i
    | some other =>
      if candidate.producerTurn > other.producerTurn ∨
          (candidate.producerTurn = other.producerTurn ∧ candidate.jobTurn ≥ other.jobTurn) then chosen
      else some i

def Owner.choose (o : Owner) : Option (Fin capacity) := (List.finRange capacity).foldl o.pick none

/-- The entries after a turn of the slot `i`. -/
def Owner.turned (o : Owner) (i : Fin capacity) (producer : Producer) : Owner :=
  { o with
    turn := o.turn + 1
    slices := min (o.slices + 1) maxU64
    entries := fun j => (o.entries j).map fun peer =>
      { peer with
        producerTurn := if peer.producer = producer then o.turn + 1 else peer.producerTurn
        jobTurn := if j = i then o.turn + 1 else peer.jobTurn } }

def yield (index : Nat) : TurnCall Unit := do
  let o ← get
  let i ← need (slot index) .Exhausted
  let entry ← need (o.entries i) .Exhausted
  failIf (o.turn = maxU64) .Exhausted
  set (o.turned i entry.producer)

def release (index : Nat) : TurnCall Unit := do
  yield index
  let o ← get
  let i ← need (slot index) .Exhausted
  set { o with entries := Function.update o.entries i none }

/-! ## Choices and turns -/

structure State where
  owner : Owner := {}
  latest : Option (Fin capacity) := none

inductive Op where
  | admitJob (index : Nat) (job : Job)
  | choose
  | yield
  | release

inductive Answer where
  | done
  | chosen (index : Option (Fin capacity))
  deriving DecidableEq

/-- Gives back the latest choice. -/
def giveBack (f : Nat → TurnCall Unit) (s : State) : Except Error Answer × State :=
  match s.latest with
  | none => (.error .NotChosen, s)
  | some i =>
    match f i s.owner with
    | .ok _ o => (.ok .done, ⟨o, none⟩)
    | .error e o => (.error e, ⟨o, some i⟩)

def step (jobBytes : Nat) (s : State) : Op → Except Error Answer × State
  | .admitJob index job =>
    match admitJob jobBytes index job s.owner with
    | .ok _ o => (.ok .done, { s with owner := o })
    | .error e o => (.error e, { s with owner := o })
  | .choose => (.ok (.chosen s.owner.choose), { s with latest := s.owner.choose })
  | .yield => giveBack yield s
  | .release => giveBack release s

end Sched
end NvidiaGsp
