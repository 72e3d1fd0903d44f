import NvidiaGsp.Lib.Triples
import NvidiaGsp.Display.TableRuns

/-!
# Display.Notifier

The two notifier records of a window, which it arms in turn, and the image resources whose storage
their FINISHED status frees. The display writes BEGUN and FINISHED into the record of a submitted
point; `World.points` is the history of what was armed, shown and retired.
-/

namespace NvidiaGsp
namespace Notifier

open Call
open DisplayTable (Table Descriptor capacity)

inductive Error where
  | stale | state | busy | completion | bounds | handle | retained | exhausted | unsupported
  deriving DecidableEq, Repr

inductive Phase where
  | ready | armed | submitted | complete | begun | failed
  deriving DecidableEq, Repr

structure Result where
  word : Word
  timestamp : Nat
  deriving DecidableEq, Repr

/-- One window's notifier. `intact` stands for the checks on its retained backing and mapping. -/
structure Owner where
  opened : Bool := false
  intact : Bool := true
  words : Nat → Word := fun _ => 0
  channel : Nat := 0
  phase : Phase := .ready
  point : Nat := 0
  deadline : Nat := 0
  result : Option Result := none
  offset : Nat := 0
  windowUsed : BitVec 2 := 0
  windowPoints : Nat → Nat := fun _ => 0
  failed : Bool := false

def maxU64 : Nat := 2 ^ 64 - 1

namespace Owner

def valid (n : Owner) : Prop := n.opened ∧ ¬ n.failed ∧ n.intact

instance {n : Owner} : Decidable n.valid := by
  unfold valid
  infer_instance

/-- The status of the record at an offset: two bits of its first word. -/
def status (n : Owner) (offset : Nat) : Word := n.words (offset / 4) >>> 30

/-- The record's bit in the set of used records. -/
def bit (offset : Nat) : BitVec 2 := 1#2 <<< (offset / 16)

/-- The record that was not armed last; the first one for a window that uses none. -/
def following (n : Owner) : Nat := if n.windowUsed = 0 then 0 else n.offset ^^^ 16

/-- Clear a record's four words. -/
def clear (n : Owner) (offset : Nat) : Owner :=
  { n with words := fun i => if offset / 4 ≤ i ∧ i < offset / 4 + 4 then 0 else n.words i }

/-- A record's status and time, once it is seen twice alike. -/
def observed (n : Owner) : Result :=
  { word := n.words (n.offset / 4)
    timestamp := (n.words (n.offset / 4 + 3)).toNat * 2 ^ 32 + (n.words (n.offset / 4 + 2)).toNat }

end Owner

/-- Open a window's notifier on zeroed storage. -/
def openOwner (channel : Nat) : Call Error Owner Unit := do
  let n ← get
  failIf n.opened .busy
  set { opened := true, channel := channel : Owner }

def reset (point deadline offset : Nat) : Call Error Owner Unit := do
  let n ← get
  failIf (point = 0 ∨ point ≤ n.point ∨ deadline = 0 ∨ deadline = maxU64) .state
  set { n.clear offset with
    offset := offset
    point := point
    deadline := deadline
    result := none
    phase := .armed }

def nextWindowOffset : Call Error Owner Nat := do
  let n ← get
  failIf (¬ n.valid ∨ n.channel = 0 ∨ n.offset > 16) .stale
  failIf (n.phase ≠ .ready ∧ n.phase ≠ .begun ∧ n.phase ≠ .complete) .busy
  let used := n.windowUsed &&& Owner.bit n.following ≠ 0
  failIf (used ∧ n.status n.following = 3) .completion
  failIf (used ∧ n.status n.following ≠ 2) .busy
  return n.following

def armWindow (point deadline offset : Nat) : Call Error Owner Unit := do
  let next ← nextWindowOffset
  failIf (next ≠ offset) .stale
  reset point deadline offset
  modify fun n => { n with
    windowUsed := n.windowUsed ||| Owner.bit offset
    windowPoints := Function.update n.windowPoints (offset / 16) point }

/-- `second` is what the second read of the status word sees. -/
def windowFinished (n : Owner) (point offset : Nat) (second : Word) : Except Error Bool :=
  if ¬ n.valid ∨ n.channel = 0 ∨ point = 0 ∨ (offset ≠ 0 ∧ offset ≠ 16) then .error .stale
  else if n.windowPoints (offset / 16) < point then .error .stale
  else if n.windowPoints (offset / 16) > point then .ok true
  else if n.status offset = 3 then .error .completion
  else .ok (n.status offset = 2 && second = n.words (offset / 4))

def submitted (point deadline : Nat) : Call Error Owner Unit := do
  let n ← get
  failIf (¬ n.valid ∨ n.phase ≠ .armed ∨ n.point ≠ point ∨ n.deadline ≠ deadline) .stale
  set { n with phase := .submitted }

/-- What a poll does with a record that has been written. -/
def settle (n : Owner) (second : Word) : Call Error Owner (Option Result) :=
  if second ≠ n.words (n.offset / 4) then pure none
  else do
    set { n with
      result := some n.observed
      phase := if n.status n.offset = 2 then .complete else .begun }
    return some n.observed

def pollWindowRecord (detached : Bool) (second : Word) : Call Error Owner (Option Result) := do
  let n ← get
  failIf (¬ n.valid ∨ n.phase ≠ .submitted ∨ n.channel = 0 ∨ n.offset > 16) .state
  if n.status n.offset = 0 then return none
  else do
    failIf (n.status n.offset ≠ 1 ∧ ¬ (detached ∧ n.status n.offset = 2)) .completion
    settle n second

def retireWindowNoImage (point deadline : Nat) : Call Error Owner Unit := do
  let n ← get
  failIf (¬ n.valid ∨ n.channel = 0 ∨ (n.offset ≠ 0 ∧ n.offset ≠ 16) ∨ n.point ≠ point ∨
    n.deadline ≠ deadline ∨ n.windowPoints (n.offset / 16) ≠ point) .stale
  failIf (n.phase ≠ .submitted ∧ n.phase ≠ .begun ∧ n.phase ≠ .complete) .state
  failIf (n.status n.offset = 3) .completion
  set { n with windowUsed := n.windowUsed &&& ~~~ Owner.bit n.offset, phase := .complete }

/-! ## The image resources -/

structure Use where
  point : Nat
  offset : Nat
  deriving DecidableEq, Repr

/-- The resources of one display session: its table, one notifier a channel, and for each entry the
last window point that showed it. `images` marks the entries a presentation image can be made of,
`consoles` those of reserved memory. -/
structure Resources where
  world : DisplayTable.World := {}
  notifiers : Nat → Owner := fun _ => {}
  lastWindowUse : Fin capacity → Option Use := fun _ => none
  images : Fin capacity → Bool := fun _ => false
  consoles : Fin capacity → Bool := fun _ => false
  failed : Bool := false
  /-- The storages closed so far: the entry's channel, and its last recorded use. -/
  closed : List (Nat × Option Use) := []

namespace Resources

def table (r : Resources) : Table := r.world.table

def onTable (r : Resources) (t : Table) : Resources := { r with world := { r.world with table := t } }

/-- `sound` is the outcome of the checks on the session, the bindings and the storages. -/
def valid (r : Resources) (sound : Bool) : Prop := ¬ r.failed ∧ r.table.valid ∧ sound

instance {r : Resources} {sound : Bool} : Decidable (r.valid sound) := by
  unfold valid
  infer_instance

/-- A presentation image can be made of the published entry. -/
def publishedImage (r : Resources) (sound : Bool) (channel handle : Word) : Prop :=
  r.valid sound ∧ r.table.published channel handle ∧
    (r.table.indexOf channel handle).any fun i => r.images i

instance {r : Resources} {sound : Bool} {channel handle : Word} :
    Decidable (r.publishedImage sound channel handle) := by
  unfold publishedImage
  infer_instance

def imageFinished (r : Resources) (sound : Bool) (channel handle second : Word) :
    Except Error Bool :=
  if ¬ r.valid sound ∨ channel = 0 ∨ channel.toNat ≥ 9 then .error .stale
  else
    match r.table.indexOf channel handle with
    | none => .error .stale
    | some index =>
      match r.lastWindowUse index with
      | none => .ok true
      | some used => windowFinished (r.notifiers channel.toNat) used.point used.offset second

/-- Every part of the session stops for good. -/
def quarantine (r : Resources) : Resources :=
  { r.onTable { r.table with failed := true } with
    failed := true
    notifiers := fun channel =>
      if (r.notifiers channel).opened then
        { r.notifiers channel with failed := true, phase := .failed }
      else r.notifiers channel }

end Resources

/-- The table's errors among the resources' own. -/
def ofTable : DisplayTable.Error → Error
  | .bounds => .bounds
  | .handle => .handle
  | .busy => .busy
  | .stale => .stale
  | .exhausted => .exhausted
  | .unsupported => .unsupported

/-- A call of the table from its resources. -/
def tableCall {α : Type} (x : Call DisplayTable.Error Table α) : Call Error Resources α :=
  zoom Resources.table (fun t r => r.onTable t) ofTable x

def removeImage (sound : Bool) (channel handle second : Word) : Call Error Resources Unit := do
  let r ← get
  failIf (¬ r.publishedImage sound channel handle) .stale
  failIf ((r.table.indexOf channel handle).any fun i => r.consoles i) .retained
  let finished ← lift (r.imageFinished sound channel handle second)
  failIf (finished = false) .busy
  tableCall (DisplayTable.remove channel handle)

def recordImageUse (sound : Bool) (channel handle : Word) (point offset : Nat) :
    Call Error Resources Unit := do
  let r ← get
  failIf (¬ r.publishedImage sound channel handle ∨ channel = 0 ∨ channel.toNat ≥ 9 ∨
    (offset ≠ 0 ∧ offset ≠ 16)) .stale
  let note := r.notifiers channel.toNat
  failIf (¬ note.valid ∨ note.phase ≠ .armed ∨ note.point ≠ point ∨ note.offset ≠ offset ∨
    note.windowPoints (offset / 16) ≠ point) .stale
  let index ← need (r.table.indexOf channel handle) .stale
  set { r with lastWindowUse := Function.update r.lastWindowUse index (some ⟨point, offset⟩) }

/-- Close a withdrawn entry's storage and give its name and its index back. `closes` and `retires`
are the outcomes of the two releases. -/
def release (index : Fin capacity) (channel : Nat) (closes retires : Bool) :
    Call Error Resources Unit := do
  modify fun r => { r with closed := (channel, r.lastWindowUse index) :: r.closed }
  if closes = false then do
    modify Resources.quarantine
    throw .retained
  else if retires = false then do
    modify Resources.quarantine
    throw .retained
  else do
    let _ ← tableCall DisplayTable.finishRemove
    modify fun r => { r with
      images := Function.update r.images index false
      lastWindowUse := Function.update r.lastWindowUse index none }

/-- Add an image's entry at the first free index. -/
def bindSource (input : Descriptor) (image console : Bool) : Call Error Resources Unit := do
  let r ← get
  let index ← need r.table.freeIndex .exhausted
  tableCall (DisplayTable.add input)
  modify fun r => { r with
    images := Function.update r.images index image
    consoles := Function.update r.consoles index console }

def finishRemoval (sound : Bool) (second : Word) (closes retires : Bool) :
    Call Error Resources Unit := do
  let r ← get
  failIf (¬ r.valid sound) .stale
  match r.table.change with
  | none => return ()
  | some change => do
    failIf (¬ change.remove ∨ r.table.uploading ∨ r.table.revision ≠ r.table.uploadedRevision) .busy
    let descriptor ← need (r.table.entries change.index) .stale
    let finished ← lift (r.imageFinished sound descriptor.channel descriptor.handle second)
    failIf (finished = false) .busy
    release change.index descriptor.channel.toNat closes retires

/-! ## The resources and the display -/

/-- The history of one window point: its record, whether it shows an image, and how far it is. -/
structure Point where
  offset : Nat
  image : Bool
  submitted : Bool := false
  begun : Bool := false
  finished : Bool := false
  retired : Bool := false
  deriving DecidableEq, Repr

structure World where
  resources : Resources := {}
  points : Nat → Nat → Option Point := fun _ _ => none

inductive Event where
  | table (e : DisplayTable.Event)
  | bindSource (input : Descriptor) (image console : Bool)
  | openNotifier (channel : Nat)
  | loseNotifier (channel : Nat)
  | armWindow (channel point deadline offset : Nat) (image : Bool)
  | recordImageUse (sound : Bool) (channel handle : Word) (point offset : Nat)
  | submitted (channel point deadline : Nat)
  | pollWindow (channel : Nat) (detached : Bool) (second : Word)
  | retireWindowNoImage (channel point deadline : Nat)
  | removeImage (sound : Bool) (channel handle second : Word)
  | finishRemoval (sound : Bool) (second : Word) (closes retires : Bool)
  /-- The display writes BEGUN into the record of a point, or FINISHED. -/
  | begin (channel point : Nat) (time : BitVec 30) (rest : Nat → Word)
  | finish (channel point : Nat) (time : BitVec 30) (rest : Nat → Word)

namespace World

def note (w : World) (channel : Nat) : Owner := w.resources.notifiers channel

def setNote (w : World) (channel : Nat) (n : Owner) : World :=
  { w with resources :=
    { w.resources with notifiers := Function.update w.resources.notifiers channel n } }

def setPoint (w : World) (channel point : Nat) (s : Point) : World :=
  { w with points :=
    Function.update w.points channel (Function.update (w.points channel) point (some s)) }

/-- A call of a notifier, and what it adds to a point's history when it succeeds. -/
def noteCall {α : Type} (w : World) (channel point : Nat) (x : Call Error Owner α)
    (mark : Point → Point) : World :=
  match outcome x (w.note channel) with
  | (.ok _, n) =>
    match w.points channel point with
    | some s => (w.setNote channel n).setPoint channel point (mark s)
    | none => w.setNote channel n
  | (.error _, n) => w.setNote channel n

def call {α : Type} (w : World) (x : Call Error Resources α) : World :=
  { w with resources := (outcome x w.resources).2 }

/-- A record's four words as the display writes them. -/
def record (status : Word) (time : BitVec 30) (offset : Nat) (rest old : Nat → Word) : Nat → Word :=
  fun i =>
    if i = offset / 4 then (status <<< 30) ||| time.setWidth 32
    else if offset / 4 < i ∧ i < offset / 4 + 4 then rest i else old i

/-- The display writes a status into the record of a submitted point. -/
def write (w : World) (channel point : Nat) (s : Point) (status : Word) (time : BitVec 30)
    (rest : Nat → Word) : World :=
  let n := w.note channel
  (w.setNote channel { n with words := record status time s.offset rest n.words }).setPoint channel
    point { s with begun := true, finished := s.finished || status = 2 }

end World

/-- The table's events that are not calls of its resources. -/
def Outside : DisplayTable.Event → Bool
  | .remove .. | .finishRemove => false
  | _ => true

/-- One step. With `stops` the display no longer writes for a point that was retired: what the
runtime establishes, by the stop it reads back, before it retires the point. -/
def act (wyhash : List Byte → Nat) (stops : Bool) (w : World) : Event → World
  | .table e =>
    if Outside e then
      { w with resources :=
        { w.resources with world := DisplayTable.act wyhash w.resources.world e } }
    else w
  | .bindSource input image console => w.call (bindSource input image console)
  | .openNotifier channel =>
    w.setNote channel (outcome (openOwner channel) (w.note channel)).2
  | .loseNotifier channel => w.setNote channel { w.note channel with intact := false }
  | .armWindow channel point deadline offset image =>
    match outcome (armWindow point deadline offset) (w.note channel) with
    | (.ok _, n) => (w.setNote channel n).setPoint channel point { offset := offset, image := image }
    | (.error _, n) => w.setNote channel n
  | .recordImageUse sound channel handle point offset =>
    if (w.points channel.toNat point).any fun s => s.image then
      w.call (recordImageUse sound channel handle point offset)
    else w
  | .submitted channel point deadline =>
    w.noteCall channel point (submitted point deadline) fun s => { s with submitted := true }
  | .pollWindow channel detached second =>
    w.setNote channel (outcome (pollWindowRecord detached second) (w.note channel)).2
  | .retireWindowNoImage channel point deadline =>
    if (w.points channel point).any fun s => !s.image then
      w.noteCall channel point (retireWindowNoImage point deadline)
        fun s => { s with retired := true }
    else w
  | .removeImage sound channel handle second => w.call (removeImage sound channel handle second)
  | .finishRemoval sound second closes retires =>
    w.call (finishRemoval sound second closes retires)
  | .begin channel point time rest =>
    match w.points channel point with
    | some s =>
      if s.submitted ∧ ¬ s.begun ∧ ¬ s.finished ∧ ¬ (stops ∧ s.retired) then
        w.write channel point s 1 time rest
      else w
    | none => w
  | .finish channel point time rest =>
    match w.points channel point with
    | some s =>
      if s.begun ∧ ¬ s.finished ∧ ¬ (stops ∧ s.retired) then w.write channel point s 2 time rest
      else w
    | none => w

def run (wyhash : List Byte → Nat) (stops : Bool) (events : List Event) : World :=
  events.foldl (act wyhash stops) {}

end Notifier
end NvidiaGsp
