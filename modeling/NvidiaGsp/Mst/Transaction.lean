import NvidiaGsp.Mst.Budget

/-!
# Mst.Transaction

Resident before/after tables for one root transaction (`gsp_mst_transaction.zig`). A journal leases
the display IDs of both tables when it is reserved and gives them back when the hardware work has
committed, was restored, was stopped, or when the root is gone and its last head has stopped.

A `World` holds what the calls touch: the journal, the live state of its root and the registry.
`reserve` takes the state it starts from as an argument, as the source does.
-/

namespace NvidiaGsp
namespace Mst
namespace Transaction

open Call
open Registry (Reg Handle StreamLease Image notSingleBit maxU64)
open Payload

structure Token (D : Type) where
  epoch : Nat
  root : Nat
  generation : Nat
  serial : Nat
  revision : Nat
  before : D
  after : D
  deriving DecidableEq

inductive Phase where
  | vacant | reserved | posted | restoring | disconnected | committed | restored | retained
  deriving DecidableEq, Repr

structure Journal (D : Type) where
  phase : Phase := .vacant
  token : Option (Token D) := none
  previous : State := {}
  target : Budget := {}
  /-- The leased handles, `handles[0..handle_count]`. -/
  handles : List Handle := []
  firstPosted : Nat := 0
  lastReceipt : Nat := 0
  missingReceipt : Nat := 0
  stoppedHeads : Nat := 0

structure World (D : Type) where
  journal : Journal D := {}
  live : State := {}
  ids : Reg := {}

/-- The digest of a table and the link arithmetic. -/
structure Env (D : Type) where
  hash : Content → D
  links : Links

abbrev Op (D α : Type) := Call Error (World D) α

variable {D : Type} [DecidableEq D]

/-- A registry call made by the journal. -/
def onIds {α : Type} (x : Registry.Op α) : Op D α := fun w =>
  match x w.ids with
  | .ok a r => .ok a { w with ids := r }
  | .error e r => .error e { w with ids := r }

def setJournal (f : Journal D → Journal D) : Op D Unit :=
  modify fun w => { w with journal := f w.journal }

def setLive (s : State) : Op D Unit := modify fun w => { w with live := s }

def Token.lease (t : Token D) : StreamLease := ⟨t.epoch, t.root, t.serial⟩

/-- The handles of the entries that are not in `acc` yet, in order. -/
def collect : List Handle → List Entry → List Handle
  | acc, [] => acc
  | acc, entry :: rest =>
    collect (if entry.handle ∈ acc then acc else acc ++ [entry.handle]) rest

/-- The state a transaction starts from does not belong to this root or cannot be followed. -/
def Unfit (ids : Reg) (epoch root generation serial : Nat) (previous : State) : Prop :=
  epoch = 0 ∨ ids.epoch ≠ epoch ∨ notSingleBit root ∨ generation = 0 ∨ serial = 0 ∨
    (previous.epoch ≠ 0 ∧ (previous.epoch ≠ epoch ∨ previous.root ≠ root)) ∨
    previous.revision = maxU64

instance (ids : Reg) (epoch root generation serial : Nat) (previous : State) :
    Decidable (Unfit ids epoch root generation serial previous) := by
  unfold Unfit
  infer_instance

/-- A running table must have been installed and trained on the target's link. -/
def Unproven (epoch : Nat) (previous : State) (target : Budget) : Prop :=
  previous.table.count ≠ 0 ∧
    (previous.epoch ≠ epoch ∨ previous.revision = 0 ∨ previous.completionReceipt = 0 ∨
      ¬ previous.training.any fun t => t.receipt != 0 && t.link == target.link)

instance (epoch : Nat) (previous : State) (target : Budget) :
    Decidable (Unproven epoch previous target) := by
  unfold Unproven
  infer_instance

variable (env : Env D)

def reserve (epoch root generation serial : Nat) (previous : State) (target : Budget) :
    Op D (Token D) := do
  let w ← get
  failIf (w.journal.phase ≠ .vacant ∨ w.journal.token ≠ none) .Busy
  failIf (Unfit w.ids epoch root generation serial previous) .Stale
  failIf (Unproven epoch previous target) .Stale
  lift (validateTable env.links previous.table epoch root target.link)
  lift (validateTable env.links target.table epoch root target.link)
  let before ← lift (previous.table.digest env.hash)
  let after ← lift (target.table.digest env.hash)
  let handles := collect (collect [] previous.table.used) target.table.used
  failIf (handles.length = 0) .Descriptor
  onIds (Registry.holdStreams ⟨epoch, root, serial⟩ handles)
  let token : Token D := ⟨epoch, root, generation, serial, previous.revision, before, after⟩
  setJournal fun j => { j with previous := previous, target := target, handles := handles,
                               token := some token, phase := .reserved }
  return token

def validate (token : Token D) : Op D Unit := do
  let w ← get
  failIf (w.journal.phase = .vacant ∨ w.journal.token ≠ some token ∨
    w.live.revision ≠ token.revision ∨
    (w.live.epoch ≠ 0 ∧ (w.live.epoch ≠ token.epoch ∨ w.live.root ≠ token.root)) ∨
    w.live.completionReceipt ≠ w.journal.previous.completionReceipt ∨
    w.live.training ≠ w.journal.previous.training) .Stale
  let live ← lift (w.live.table.digest env.hash)
  failIf (live ≠ token.before) .Stale
  let previous ← lift (w.journal.previous.table.digest env.hash)
  failIf (previous ≠ token.before) .Stale
  let target ← lift (w.journal.target.table.digest env.hash)
  failIf (target ≠ token.after) .Stale

def posted (token : Token D) (submission : Nat) : Op D Unit := do
  let w ← get
  failIf (w.journal.token ≠ some token ∨ submission = 0 ∨
    (w.journal.phase ≠ .reserved ∧ w.journal.phase ≠ .posted ∧ w.journal.phase ≠ .restoring ∧
      w.journal.phase ≠ .disconnected)) .Stale
  setJournal fun j => { j with
    firstPosted := if j.firstPosted = 0 then submission else j.firstPosted,
    phase := if j.phase = .reserved then .posted else j.phase }

def receipt (token : Token D) (serial : Nat) : Op D Unit := do
  let w ← get
  failIf (w.journal.token ≠ some token ∨ serial = 0 ∨ serial ≤ w.journal.lastReceipt ∨
    w.journal.phase = .vacant ∨ w.journal.phase = .committed ∨ w.journal.phase = .restored) .Stale
  setJournal fun j => { j with lastReceipt := serial }

def restoring (token : Token D) : Op D Unit := do
  let w ← get
  failIf (w.journal.token ≠ some token ∨ w.journal.phase ≠ .posted ∨ w.journal.firstPosted = 0)
    .Stale
  setJournal fun j => { j with phase := .restoring }

def disconnected (token : Token D) (serial : Nat) : Op D (Token D) := do
  validate env token
  let w ← get
  failIf (w.journal.phase ≠ .posted ∨ w.journal.previous.table.count = 0 ∨
    w.journal.missingReceipt ≠ 0 ∨ serial = 0 ∨ serial ≠ w.journal.lastReceipt) .Stale
  let after ← lift (Table.digest env.hash {})
  let next := { token with after := after }
  setJournal fun j => { j with target := { j.target with table := {} }, token := some next,
                               phase := .disconnected, missingReceipt := serial }
  return next

/-- The image of a slot. -/
def imageAt (r : Reg) (index : Nat) : Option Image :=
  if h : index < Registry.slotCount then (r.slots ⟨index, h⟩).image else none

/-- The heads of a table, as a mask. -/
def headMask : List Entry → Nat
  | [] => 0
  | entry :: rest => (1 <<< entry.allocation.head) ||| headMask rest

/-- Give the leased handles back. -/
def releaseAll (token : Token D) : Op D Unit := do
  let w ← get
  onIds (Registry.releaseStreams token.lease w.journal.handles)

/-- Install a state and vacate the journal. -/
def finish (token : Token D) (live : State) : Op D Unit := do
  releaseAll token
  setLive live
  setJournal fun _ => {}

def disconnectedHead (token : Token D) (displayId : Nat) (previous : Image)
    (corePoint windowPoint source last : Nat) : Op D Bool := do
  validate env token
  let w ← get
  failIf (w.journal.phase ≠ .disconnected ∨ w.journal.missingReceipt = 0 ∨
    source ≤ w.journal.missingReceipt ∨ last ≤ source ∨ last ≠ w.journal.lastReceipt ∨
    w.ids.epoch ≠ token.epoch) .Stale
  let entry ← need (w.journal.previous.table.find displayId) .Stale
  failIf (previous.head ≠ entry.allocation.head ∨ previous.window ≠ entry.window ∨
    corePoint ≤ previous.corePoint ∨ windowPoint ≤ previous.windowPoint) .Stale
  let handle ← lift (w.ids.handle entry.handle.slot)
  failIf (entry.handle ≠ handle) .Stale
  let image ← need (imageAt w.ids entry.handle.slot) .Stale
  failIf (previous ≠ image) .Stale
  failIf (w.journal.stoppedHeads &&& (1 <<< previous.head) ≠ 0) .Stale
  let stopped := w.journal.stoppedHeads ||| (1 <<< previous.head)
  if stopped ≠ headMask w.journal.previous.table.used then do
    setJournal fun j => { j with stoppedHeads := stopped }
    return false
  else do
    finish token { epoch := token.epoch, root := token.root, revision := token.revision + 1,
                   completionReceipt := last }
    return true

/-- The only entry of a one-stream table. -/
def Table.first (t : Table) : Entry := t.entries.toList.getD 0 {}

def retargetTraining (token : Token D) (desired : Budget) (serial : Nat) : Op D (Token D) := do
  validate env token
  let w ← get
  failIf (w.journal.phase ≠ .posted ∨ w.journal.previous.table.count ≠ 0 ∨
    w.journal.target.table.count ≠ 1 ∨ desired.table.count ≠ 1 ∨ serial = 0 ∨
    serial ≠ w.journal.lastReceipt) .Stale
  lift (validateTable env.links desired.table token.epoch token.root desired.link)
  let old := Table.first w.journal.target.table
  let next := Table.first desired.table
  failIf (old.allocation.displayId ≠ next.allocation.displayId ∨
    old.allocation.head ≠ next.allocation.head ∨
    old.allocation.payloadId ≠ next.allocation.payloadId ∨ next.allocation.start ≠ 1) .Stale
  failIf ({ old with allocation := next.allocation } ≠ next) .Stale
  let after ← lift (desired.table.digest env.hash)
  let updated := { token with after := after }
  setJournal fun j => { j with target := desired, token := some updated }
  return updated

def cancelUnsubmitted (token : Token D) : Op D Unit := do
  let w ← get
  failIf (w.journal.token ≠ some token ∨ w.journal.phase ≠ .reserved ∨
    w.journal.firstPosted ≠ 0) .Retained
  releaseAll token
  setJournal fun _ => {}

def retain : Op D Unit :=
  setJournal fun j => if j.phase ≠ .vacant then { j with phase := .retained } else j

def commit (token : Token D) (training : Training) (receiptSerial : Nat) : Op D Nat := do
  validate env token
  let w ← get
  failIf (w.journal.phase ≠ .posted ∨ w.journal.firstPosted = 0 ∨ receiptSerial = 0 ∨
    receiptSerial ≠ w.journal.lastReceipt ∨ training.receipt = 0 ∨
    training.receipt ≥ receiptSerial ∨ training.link ≠ w.journal.target.link ∨
    trained training.lanes training.link.lanes = false) .Stale
  finish token { epoch := token.epoch, root := token.root, revision := token.revision + 1,
                 table := w.journal.target.table, training := some training,
                 completionReceipt := receiptSerial }
  return token.revision + 1

/-- The training that proves the rebuilt link is the one of the previous state. -/
def proves (previous : State) (source cleared act branches last : Nat) (proof : Training) : Prop :=
  proof.receipt ≠ 0 ∧ proof.receipt < source ∧
    (previous.training.any fun t => t.link == proof.link && t.source == proof.source &&
      t.dpcd == proof.dpcd) ∧
    trained proof.lanes proof.link.lanes = true ∧ cleared < act ∧ act < branches ∧ branches < last

instance (previous : State) (source cleared act branches last : Nat) (proof : Training) :
    Decidable (proves previous source cleared act branches last proof) := by
  unfold proves
  infer_instance

/-- The proof a rebuild must show: a training for a running table, nothing for an empty one. -/
def rebuilt (goal : Table) (previous : State) (training : Option Training)
    (source cleared act branches last : Nat) : Prop :=
  if goal.count ≠ 0 then ∃ proof ∈ training, proves previous source cleared act branches last proof
  else training = none ∧ act = 0 ∧ branches = 0

instance (goal : Table) (previous : State) (training : Option Training)
    (source cleared act branches last : Nat) :
    Decidable (rebuilt goal previous training source cleared act branches last) := by
  unfold rebuilt
  infer_instance

def finishRebuild (token : Token D) (training : Option Training)
    (source cleared act branches last : Nat) (restore : Bool) : Op D Nat := do
  validate env token
  let w ← get
  let goal := if restore then w.journal.previous.table else w.journal.target.table
  failIf (w.journal.phase ≠ (if restore then .restoring else .posted) ∨
    w.journal.firstPosted = 0 ∨ source = 0 ∨ cleared ≤ source ∨ last ≠ w.journal.lastReceipt ∨
    last < cleared) .Stale
  failIf (¬ rebuilt goal w.journal.previous training source cleared act branches last) .Stale
  finish token { epoch := token.epoch, root := token.root, revision := token.revision + 1,
                 table := goal, training := training, completionReceipt := last }
  return token.revision + 1

def restored (token : Token D) (training : Option Training)
    (source cleared act branches last : Nat) : Op D Nat :=
  finishRebuild env token training source cleared act branches last true

def stopped (token : Token D) (training : Option Training)
    (source cleared act branches last : Nat) : Op D Nat :=
  finishRebuild env token training source cleared act branches last false

/-! ## The journal as a machine -/

inductive Request (D : Type) where
  | reserve (epoch root generation serial : Nat) (previous : State) (target : Budget)
  | posted (token : Token D) (submission : Nat)
  | receipt (token : Token D) (serial : Nat)
  | restoring (token : Token D)
  | disconnected (token : Token D) (serial : Nat)
  | disconnectedHead (token : Token D) (displayId : Nat) (previous : Image)
      (corePoint windowPoint source last : Nat)
  | retargetTraining (token : Token D) (desired : Budget) (serial : Nat)
  | cancelUnsubmitted (token : Token D)
  | retain
  | commit (token : Token D) (training : Training) (receiptSerial : Nat)
  | restored (token : Token D) (training : Option Training)
      (source cleared act branches last : Nat)
  | stopped (token : Token D) (training : Option Training)
      (source cleared act branches last : Nat)
  /-- A registry call of someone else. -/
  | registry (req : Registry.Request)

inductive Answer (D : Type) where
  | done
  | token (t : Token D)
  | finished (last : Bool)
  | revision (n : Nat)
  | failed (e : Error)
  | registry (a : Registry.Answer)
  deriving DecidableEq

/-- The answer to a call, `ok` read by `f`. -/
def answer {α : Type} (f : α → Answer D) (x : Op D α) (w : World D) : Answer D × World D :=
  match x w with
  | .ok a w' => (f a, w')
  | .error e w' => (.failed e, w')

def step (w : World D) : Request D → Answer D × World D
  | .reserve epoch root generation serial previous target =>
    answer .token (reserve env epoch root generation serial previous target) w
  | .posted token submission => answer (fun _ => .done) (posted token submission) w
  | .receipt token serial => answer (fun _ => .done) (receipt token serial) w
  | .restoring token => answer (fun _ => .done) (restoring token) w
  | .disconnected token serial => answer .token (disconnected env token serial) w
  | .disconnectedHead token displayId previous corePoint windowPoint source last =>
    answer .finished
      (disconnectedHead env token displayId previous corePoint windowPoint source last) w
  | .retargetTraining token desired serial =>
    answer .token (retargetTraining env token desired serial) w
  | .cancelUnsubmitted token => answer (fun _ => .done) (cancelUnsubmitted token) w
  | .retain => answer (fun _ => .done) retain w
  | .commit token training receiptSerial =>
    answer .revision (commit env token training receiptSerial) w
  | .restored token training source cleared act branches last =>
    answer .revision (restored env token training source cleared act branches last) w
  | .stopped token training source cleared act branches last =>
    answer .revision (stopped env token training source cleared act branches last) w
  | .registry req =>
    let r := Registry.step w.ids req
    (.registry r.1, { w with ids := r.2 })

end Transaction
end Mst
end NvidiaGsp
