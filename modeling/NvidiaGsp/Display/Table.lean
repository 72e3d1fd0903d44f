import NvidiaGsp.Lib.Calls
import NvidiaGsp.Display.Context

/-!
# Display.Table

The table of display DMA contexts: 64 descriptors and the hash buckets that publish them, kept in
a CPU image, and the incremental upload of that image. `act` closes it with the copy engine: a
completed part copies its range of the staged image into the device's instance memory.
-/

namespace NvidiaGsp
namespace DisplayTable

open Call Bytes Memory
open DisplayContext (slots)

abbrev capacity : Nat := 64
def ramhtBytes : Nat := 8192
def descriptorBytes : Nat := 32
def imageBytes : Nat := ramhtBytes + capacity * descriptorBytes
def maxU64 : Nat := 2 ^ 64 - 1

inductive Error where
  | bounds | handle | busy | stale | exhausted | unsupported
  deriving DecidableEq, Repr

inductive Target where
  | vram | coherentSystem
  deriving DecidableEq, Repr

inductive PageSize where
  | small | big
  deriving DecidableEq, Repr

structure Descriptor where
  channel : Word
  handle : Word
  target : Target
  physical : Nat
  bytes : Nat
  reservedConsole : Bool := false
  pageSize : PageSize := .small
  deriving DecidableEq, Repr

structure Change where
  index : Fin capacity
  bucket : Fin slots
  remove : Bool
  deriving DecidableEq, Repr

structure Range where
  offset : Nat
  bytes : Nat
  deriving DecidableEq, Repr

structure Table where
  initialised : Bool := false
  client : Word := 0
  root : Word := 0
  epoch : Nat := 0
  image : Memory := fun _ => 0
  entries : Fin capacity → Option Descriptor := fun _ => none
  buckets : Fin slots → Option (Fin capacity) := fun _ => none
  entryRevisions : Fin capacity → Nat := fun _ => 0
  change : Option Change := none
  count : Nat := 0
  revision : Nat := 0
  uploadedRevision : Nat := 0
  uploading : Bool := false
  digest : Nat := 0
  failed : Bool := false

def validate (input : Descriptor) : Except Error Unit :=
  if input.channel.toNat > 8 ∨ input.handle = 0 then .error .handle
  else if input.reservedConsole ∧ input.target ≠ .vram then .error .unsupported
  else if (input.physical = 0 ∧ ¬ input.reservedConsole) ∨ input.physical % 256 ≠ 0 ∨
      input.bytes = 0 ∨ input.bytes % 256 ≠ 0 ∨ input.physical ≥ 2 ^ 40 ∨
      input.bytes > 2 ^ 40 - input.physical then .error .bounds
  else .ok ()

/-- The bucket a handle is looked for first, by the decoder's own hash. -/
def hash (client channel handle : Word) : Fin slots :=
  DisplayContext.hash (client.setWidth 14) handle (channel.setWidth 7)

/-- The six words of a hardware descriptor. -/
def descriptor (input : Descriptor) : List Word :=
  let start := input.physical / 256
  let limit := (input.physical + input.bytes - 1) / 256
  let flags : Word := (if input.target = .vram then 5 else 7) |||
    (if input.pageSize = .small then 0x40 else 0)
  [flags, BitVec.ofNat 32 start, BitVec.ofNat 32 (start / 2 ^ 32), BitVec.ofNat 32 limit,
    BitVec.ofNat 32 (limit / 2 ^ 32), 0]

/-- Where a descriptor lies in the image. -/
def slotOffset (index : Fin capacity) : Nat := ramhtBytes + index * descriptorBytes

/-- The second word of a bucket. -/
def contextWord (client channel : Word) (index : Fin capacity) : Word :=
  (channel <<< 25) ||| (BitVec.ofNat 32 (slotOffset index) <<< 9) ||| (client &&& 0x3fff)

def put (bytes : Memory) (offset : Nat) (v : Word) : Memory := poke bytes offset (le32 v)

/-- Store words one after the other. -/
def putWords (bytes : Memory) (offset : Nat) : List Word → Memory
  | [] => bytes
  | v :: rest => putWords (put bytes offset v) (offset + 4) rest

/-- Walk on from a bucket to the first free one, through `left` buckets at most. -/
def probe (buckets : Fin slots → Option (Fin capacity)) : Nat → Fin slots → Option (Fin slots)
  | 0, _ => none
  | left + 1, bucket =>
    if (buckets bucket).isSome then probe buckets left (bucket + 1) else some bucket

namespace Table

def valid (t : Table) : Prop :=
  t.initialised ∧ ¬ t.failed ∧ t.epoch ≠ 0 ∧ t.client ≠ 0 ∧ t.root ≠ 0 ∧ t.count ≤ capacity ∧
    t.uploadedRevision ≤ t.revision

instance {t : Table} : Decidable t.valid := by
  unfold valid
  infer_instance

def freeIndex (t : Table) : Option (Fin capacity) :=
  (List.finRange capacity).find? fun i => (t.entries i).isNone

def indexOf (t : Table) (channel handle : Word) : Option (Fin capacity) :=
  (List.finRange capacity).find? fun i =>
    (t.entries i).any fun d => d.channel = channel && d.handle = handle

/-- Some entry has this handle. -/
def holds (t : Table) (handle : Word) : Bool :=
  (List.finRange capacity).any fun i => (t.entries i).any fun d => d.handle = handle

/-- Write a new entry at a free index and publish it in a free bucket of the image. -/
def place (t : Table) (input : Descriptor) (index : Fin capacity) (bucket : Fin slots) : Table :=
  let image := putWords t.image (slotOffset index) (descriptor input)
  let image := put image (bucket * 8) input.handle
  { t with
    image := put image (bucket * 8 + 4) (contextWord t.client input.channel index)
    entries := Function.update t.entries index (some input)
    buckets := Function.update t.buckets bucket (some index)
    count := t.count + 1
    revision := t.revision + 1
    entryRevisions := Function.update t.entryRevisions index (t.revision + 1)
    change := if t.uploadedRevision ≠ 0 then some ⟨index, bucket, false⟩ else t.change }

/-- Clear a bucket of the image; its entry stays until the clearing is uploaded. -/
def withdraw (t : Table) (index : Fin capacity) (bucket : Fin slots) : Table :=
  { t with
    image := put (put t.image (bucket * 8) 0) (bucket * 8 + 4) 0
    revision := t.revision + 1
    change := some ⟨index, bucket, true⟩ }

/-- Give a withdrawn entry's index and bucket back. -/
def discard (t : Table) (change : Change) : Table :=
  { t with
    entries := Function.update t.entries change.index none
    entryRevisions := Function.update t.entryRevisions change.index 0
    buckets := Function.update t.buckets change.bucket none
    count := t.count - 1
    image := poke t.image (slotOffset change.index) (List.replicate descriptorBytes 0)
    change := none }

def uploadRange (t : Table) (part : Nat) : Except Error Range :=
  if ¬ t.valid then .error .stale
  else
    match t.change with
    | some change =>
      if ¬ change.remove ∧ part = 0 then .ok ⟨slotOffset change.index, descriptorBytes⟩
      else if part = (if change.remove then 0 else 1) then .ok ⟨change.bucket * 8, 8⟩
      else .error .bounds
    | none =>
      if part ≠ 0 ∨ t.uploadedRevision ≠ 0 then .error .bounds
      else .ok ⟨0, imageBytes⟩

def uploadParts (t : Table) : Nat :=
  match t.change with
  | some change => if change.remove then 1 else 2
  | none => 1

def published (t : Table) (channel handle : Word) : Bool :=
  decide t.valid && t.uploadedRevision != 0 &&
    match t.indexOf channel handle with
    | none => false
    | some index =>
      !(t.change.any fun change => change.remove && change.index == index) &&
        t.entryRevisions index != 0 && t.entryRevisions index ≤ t.uploadedRevision

end Table

def init (client root : Word) (epoch : Nat) : Call Error Table Unit := do
  let t ← get
  failIf t.initialised .busy
  failIf (client = 0 ∨ root = 0 ∨ root = client ∨ epoch = 0) .handle
  set { initialised := true, client := client, root := root, epoch := epoch : Table }

def add (input : Descriptor) : Call Error Table Unit := do
  let t ← get
  failIf (¬ t.valid) .stale
  failIf (t.uploading ∨ t.change.isSome) .busy
  lift (validate input)
  failIf (input.handle = t.root ∨ input.handle = t.client) .handle
  failIf (t.count ≥ capacity ∨ t.revision = maxU64) .exhausted
  failIf (t.holds input.handle) .handle
  let index ← need t.freeIndex .exhausted
  let bucket ← need (probe t.buckets slots (hash t.client input.channel input.handle)) .exhausted
  set (t.place input index bucket)

def remove (channel handle : Word) : Call Error Table Unit := do
  let t ← get
  failIf (¬ t.valid) .stale
  failIf (t.uploading ∨ t.change.isSome ∨ t.revision ≠ t.uploadedRevision) .busy
  let index ← need (t.indexOf channel handle) .handle
  failIf (t.revision = maxU64) .exhausted
  let bucket ← need ((List.finRange slots).find? fun b => t.buckets b = some index) .stale
  set (t.withdraw index bucket)

def finishRemove : Call Error Table (Fin capacity) := do
  let t ← get
  failIf (¬ t.valid ∨ t.uploading ∨ t.uploadedRevision ≠ t.revision) .stale
  let change ← need t.change .stale
  failIf (¬ change.remove) .stale
  set (t.discard change)
  return change.index

section

-- the content hash that guards the staged image; any function of the bytes will do
variable (wyhash : List Byte → Nat)

def beginUpload : Call Error Table Memory := do
  let t ← get
  failIf (¬ t.valid) .stale
  failIf (t.uploading ∨ t.count = 0 ∨ t.uploadedRevision = t.revision) .busy
  set { t with digest := wyhash (peek t.image 0 imageBytes), uploading := true }
  return t.image

def uploadingRevision (t : Table) (revision : Nat) : Prop :=
  t.valid ∧ t.uploading ∧ t.revision = revision ∧ t.digest = wyhash (peek t.image 0 imageBytes)

instance {t : Table} {revision : Nat} : Decidable (uploadingRevision wyhash t revision) := by
  unfold uploadingRevision
  infer_instance

def completeUpload (revision : Nat) : Call Error Table Unit := do
  let t ← get
  failIf (¬ uploadingRevision wyhash t revision) .stale
  set { t with
    uploadedRevision := revision
    uploading := false
    change := t.change.filter fun change => change.remove }

def cancelUpload (revision : Nat) : Call Error Table Unit := do
  let t ← get
  failIf (¬ uploadingRevision wyhash t revision) .stale
  set { t with uploading := false }

/-! ## The table, the staged image and the device -/

/-- The table, the upload in progress and the device's instance memory. `live` records which
handles the device has been told of: those whose last part was copied and whose withdrawal was
not. -/
structure World where
  table : Table := {}
  staged : Memory := fun _ => 0
  part : Nat := 0
  device : Memory := fun _ => 0
  live : Word → Word → Bool := fun _ _ => false

inductive Event where
  | init (client root : Word) (epoch : Nat)
  | add (input : Descriptor)
  | remove (channel handle : Word)
  | finishRemove
  | beginUpload
  | part
  | cancelUpload (revision : Nat)
  | completeUpload (revision : Nat)
  deriving Repr

/-- The copy engine copies one range of the staged image. -/
def copy (staged device : Memory) (range : Range) : Memory :=
  poke device range.offset (peek staged range.offset range.bytes)

/-- The handles the device knows once the last part of an upload is copied. -/
def settled (t : Table) (live : Word → Word → Bool) (channel handle : Word) : Bool :=
  match t.change with
  | none => (t.indexOf channel handle).isSome
  | some change =>
    if (t.entries change.index).any fun d => d.channel = channel && d.handle = handle then
      !change.remove
    else live channel handle

def World.call {α : Type} (w : World) (c : Call Error Table α) : World :=
  { w with table := (outcome c w.table).2 }

/-- The next part of the upload completes. -/
def World.copyPart (w : World) : World :=
  if w.table.uploading ∧ w.part < w.table.uploadParts then
    match w.table.uploadRange w.part with
    | .error _ => w
    | .ok range =>
      { w with
        device := copy w.staged w.device range
        part := w.part + 1
        live := if w.part + 1 = w.table.uploadParts then settled w.table w.live else w.live }
  else w

def World.stage (w : World) : World :=
  match outcome (beginUpload wyhash) w.table with
  | (.ok image, t) => { w with table := t, staged := image, part := 0 }
  | (.error _, t) => { w with table := t }

def act (w : World) : Event → World
  | .init client root epoch => w.call (init client root epoch)
  | .add input => w.call (add input)
  | .remove channel handle => w.call (remove channel handle)
  | .finishRemove => w.call finishRemove
  | .beginUpload => w.stage wyhash
  | .part => w.copyPart
  | .cancelUpload revision => w.call (cancelUpload wyhash revision)
  | .completeUpload revision =>
    -- the upload's owner reports completion only after its last part
    if w.part = w.table.uploadParts then w.call (completeUpload wyhash revision) else w

def run (events : List Event) : World := events.foldl (act wyhash) {}

end

end DisplayTable
end NvidiaGsp
