import NvidiaGsp.Lib.Calls
import NvidiaGsp.Lib.Memory

/-!
# Render.Cache

The cache of resident render packets (`gsp_render_cache.zig`): three slots of one buffer, written by
the copy engine and read by the graphics engine, and the mirror of the current slot in the owner. The
encoder of the packets lives in another library; `Encoder` is what the cache calls of it. Storage
handles are read through `Ports`, which may answer differently at every call.
-/

namespace NvidiaGsp
namespace Render

open Call

inductive Error where
  | State | Busy | Descriptor | Stale | Retained | Bounds | Binding
  /-- An error of the encoder. -/
  | encoder (code : Nat)
  deriving DecidableEq, Repr

inductive Kind where
  | programs | packet
  deriving DecidableEq, Repr

structure Range where
  address : Nat
  bytes : Nat
  deriving DecidableEq

structure Fence where
  timeline : Nat := 0
  point : Nat := 0
  deviceGeneration : Nat := 0
  resetGeneration : Nat := 0
  deriving DecidableEq

/-- What a storage handle tells of its buffer. -/
structure Info where
  epoch : Nat
  address : Nat
  bytes : Nat
  adapter : Nat
  driverOwner : Nat

abbrev Ports := Kind → Option Info

structure Binding (Draw : Type) where
  classId : Nat
  draw : Draw
  additional : List Draw
  programs : Range
  packet : Range

/-- The functions and sizes of the render library. -/
structure Encoder (Draw : Type) where
  packetBytes : Nat
  batchCapacity : Nat
  packetCapacityBytes : Nat
  profile : Nat → Bool
  shaderBytesFor : Nat → Except Error Nat
  shaderUploadFor : (classId room : Nat) → Except Error (List Byte)
  validateRange : Range → (alignment bytes : Nat) → Except Error Unit
  validate : Binding Draw → Except Error Unit
  bindingMatches : Binding Draw → List Draw → Bool
  packetUpload : Draw → Except Error (List Byte)
  packetUploadList : List Draw → (room : Nat) → Except Error (List Byte)

def packetSlots : Nat := 3

/-- `a +| b` on a `u64`. -/
def satAdd (a b : Nat) : Nat := min (a + b) (2 ^ 64 - 1)

structure Packet (Draw : Type) where
  draw : Option Draw := none
  additional : List Draw := []
  cePoint : Nat := 0
  queueFence : Fence := {}
  grSubmitted : Nat := 0
  grCompleted : Nat := 0

structure Owner (Draw : Type) where
  selfAddress : Nat := 0
  epoch : Nat := 0
  classId : Nat := 0
  programPoint : Nat := 0
  packetPoint : Nat := 0
  packets : Nat → Packet Draw := fun _ => {}
  packetSlot : Nat := 0
  nextPacket : Nat := 0
  submissionPoint : Nat := 0
  draw : Option Draw := none
  additional : List Draw := []
  pendingDraw : Option Draw := none
  pendingAdditional : List Draw := []
  uploading : Option Kind := none
  borrowed : Bool := false
  failed : Bool := false
  programUploads : Nat := 0
  packetUploads : Nat := 0
  packetReuses : Nat := 0
  packetRebinds : Nat := 0
  lastReuseRebound : Bool := false
  lastReuseResident : Bool := false
  residentReuses : Nat := 0
  residentCompleted : Nat := 0
  uploadedBytes : Nat := 0

section

-- `me` is the address of the owner.
variable {Draw : Type} (r : Encoder Draw) (me : Nat)

abbrev CacheCall (Draw α : Type) := Call Error (Owner Draw) α

def packetStorageBytes : Nat := packetSlots * r.packetCapacityBytes

def initializeFor (epoch classId : Nat) : CacheCall Draw Unit := do
  let o ← get
  failIf (o.selfAddress ≠ 0 ∨ epoch = 0) .State
  let _ ← lift (r.shaderBytesFor classId)
  set { selfAddress := me, epoch := epoch, classId := classId : Owner Draw }

def Owner.valid (o : Owner Draw) : Prop :=
  o.selfAddress = me ∧ o.epoch ≠ 0 ∧ r.profile o.classId = true ∧ o.failed = false ∧
    o.additional.length < r.batchCapacity ∧ o.pendingAdditional.length < r.batchCapacity ∧
    o.packetSlot < packetSlots ∧ o.nextPacket < packetSlots

instance (o : Owner Draw) : Decidable (o.valid r me) := by
  unfold Owner.valid
  infer_instance

def storageRanges (ports : Ports) (o : Owner Draw) : Except Error (Range × Range) :=
  match ports .programs, ports .packet with
  | some programs, some packet =>
    if programs.epoch ≠ o.epoch ∨ packet.epoch ≠ o.epoch ∨ programs.adapter ≠ packet.adapter ∨
        programs.driverOwner ≠ packet.driverOwner then .error .Stale
    else .ok (⟨programs.address, programs.bytes⟩, ⟨packet.address, packet.bytes⟩)
  | _, _ => .error .Stale

def packetBinding (ports : Ports) (o : Owner Draw) (slot : Nat) : Except Error (Binding Draw) :=
  match storageRanges ports o with
  | .error e => .error e
  | .ok (programs, packetRange) =>
    let packet := o.packets slot
    match packet.draw with
    | none => .error .State
    | some draw =>
      if packet.cePoint = 0 ∨ packet.additional.length ≥ r.batchCapacity ∨
          packetRange.bytes < packetStorageBytes r then .error .State
      else
        let result : Binding Draw :=
          { classId := o.classId, draw := draw, additional := packet.additional, programs := programs
            packet := ⟨packetRange.address + slot * r.packetCapacityBytes, r.packetCapacityBytes⟩ }
        match r.validate result with
        | .error e => .error e
        | .ok _ => .ok result

/-- The encodings agree draw by draw. -/
def sameBytes : List Draw → List Draw → Except Error Bool
  | current :: cs, draw :: ds =>
    match r.packetUpload current with
    | .error e => .error e
    | .ok previous =>
      match r.packetUpload draw with
      | .error e => .error e
      | .ok candidate => if previous ≠ candidate then .ok false else sameBytes cs ds
  | _, _ => .ok true

def Owner.selectPacket (o : Owner Draw) (slot : Nat) : Owner Draw :=
  { o with
    packetSlot := slot
    packetPoint := (o.packets slot).cePoint
    draw := (o.packets slot).draw
    additional := (o.packets slot).additional }

/-- The end of a reuse: the slot records the draws it was asked for and becomes the current one. -/
def Owner.rebind (o : Owner Draw) (slot : Nat) (draw : Draw) (rest : List Draw) (rebound : Bool) :
    Owner Draw :=
  let resident := decide (slot ≠ o.packetSlot)
  let recorded := { o with
    lastReuseResident := resident
    residentReuses := if resident then satAdd o.residentReuses 1 else o.residentReuses
    packets := Function.update o.packets slot
      { o.packets slot with draw := some draw, additional := rest } }
  let selected := recorded.selectPacket slot
  { selected with
    packetRebinds := if rebound then satAdd o.packetRebinds 1 else o.packetRebinds
    lastReuseRebound := rebound || o.lastReuseRebound
    packetReuses := satAdd o.packetReuses 1 }

def reuseFrom (ports : Ports) (draw : Draw) (rest : List Draw) : List Nat → CacheCall Draw Bool
  | [] => pure false
  | offset :: offsets => do
    let o ← get
    let slot := (o.packetSlot + offset) % packetSlots
    let packet := o.packets slot
    if packet.cePoint = 0 ∨ packet.draw.isNone ∨ packet.additional.length + 1 ≠ rest.length + 1 ∨
        packet.grSubmitted ≠ packet.grCompleted then
      reuseFrom ports draw rest offsets
    else
      let current ← lift (packetBinding r ports o slot)
      let rebound := !r.bindingMatches current (draw :: rest)
      let same ← lift (if rebound then sameBytes r (current.draw :: current.additional) (draw :: rest)
        else .ok true)
      if same then
        set (o.rebind slot draw rest rebound)
        pure true
      else reuseFrom ports draw rest offsets

def reusePacketList (ports : Ports) (draws : List Draw) : CacheCall Draw Bool := do
  let o ← get
  failIf (¬ o.valid r me ∨ o.borrowed = true ∨ o.uploading ≠ none) .Busy
  let o := { o with lastReuseRebound := false, lastReuseResident := false }
  set o
  match draws with
  | [] => throw .Descriptor
  | draw :: rest =>
    failIf (rest.length + 1 > r.batchCapacity) .Descriptor
    if o.programPoint = 0 then pure false else
    let (programs, packet) ← lift (storageRanges ports o)
    lift (r.validate ⟨o.classId, draw, rest, programs, packet⟩)
    reuseFrom r ports draw rest [0, 1, 2]

/-- Returns what the encoder wrote into the caller's buffer of `room` bytes. -/
def beginUploadList (ports : Ports) (kind : Kind) (draws : List Draw) (room : Nat) :
    CacheCall Draw (List Byte) := do
  let o ← get
  failIf (¬ o.valid r me ∨ o.borrowed = true ∨ o.uploading ≠ none) .Busy
  let o := { o with lastReuseRebound := false, lastReuseResident := false }
  set o
  failIf ((kind = .programs ∧ draws.length ≠ 0) ∨
    (kind = .packet ∧ (draws.length = 0 ∨ draws.length > r.batchCapacity))) .Descriptor
  let info ← need (ports kind) .State
  failIf (info.epoch ≠ o.epoch) .Stale
  let bytes ← lift (if kind = .programs then r.shaderBytesFor o.classId
    else .ok (r.packetBytes * draws.length))
  lift (r.validateRange ⟨info.address, info.bytes⟩ 256 bytes)
  match kind with
  | .programs =>
    failIf (o.programPoint ≠ 0) .State
    let written ← lift (r.shaderUploadFor o.classId room)
    set { o with uploading := some .programs }
    pure written
  | .packet =>
    failIf (o.programPoint = 0) .State
    let slot := o.nextPacket
    let old := o.packets slot
    failIf (old.grSubmitted ≠ old.grCompleted) .Retained
    failIf (info.bytes < packetStorageBytes r) .Bounds
    let written ← lift (r.packetUploadList draws room)
    set { o with
      packetSlot := slot
      nextPacket := (slot + 1) % packetSlots
      packets := Function.update o.packets slot {}
      pendingDraw := draws.head?
      pendingAdditional := draws.tail
      packetPoint := 0
      draw := none
      additional := []
      uploading := some .packet }
    pure written

def completeUpload (kind : Kind) (point : Nat) : CacheCall Draw Unit := do
  let o ← get
  failIf (¬ o.valid r me ∨ o.uploading ≠ some kind ∨ point = 0) .State
  match kind with
  | .programs =>
    let o := { o with programPoint := point, programUploads := satAdd o.programUploads 1 }
    set o
    let bytes ← lift (r.shaderBytesFor o.classId)
    set { o with uploadedBytes := satAdd o.uploadedBytes bytes, uploading := none }
  | .packet =>
    let draw ← need o.pendingDraw .State
    set { o with
      draw := some draw
      additional := o.pendingAdditional
      pendingAdditional := []
      pendingDraw := none
      packetPoint := point
      packets := Function.update o.packets o.packetSlot
        { draw := some draw, additional := o.pendingAdditional, cePoint := point }
      packetUploads := satAdd o.packetUploads 1
      uploadedBytes := satAdd o.uploadedBytes (r.packetBytes * (1 + o.pendingAdditional.length))
      uploading := none }

def cancelUpload : CacheCall Draw Unit := do
  let o ← get
  failIf (¬ o.valid r me ∨ o.uploading = none) .State
  set { o with uploading := none, pendingDraw := none, pendingAdditional := [] }

/-- The binding of the current slot shows the mirror, which the job may have stamped. -/
def binding (ports : Ports) (o : Owner Draw) : Except Error (Binding Draw) :=
  if ¬ o.valid r me ∨ o.uploading ≠ none ∨ o.programPoint = 0 ∨ o.packetPoint = 0 then .error .State
  else match packetBinding r ports o o.packetSlot with
  | .error e => .error e
  | .ok result =>
    match o.draw with
    | none => .error .State
    | some draw =>
      let result := { result with draw := draw, additional := o.additional }
      match r.validate result with
      | .error e => .error e
      | .ok _ => .ok result

def Owner.uploadOffset (o : Owner Draw) : Nat :=
  if o.uploading = some .packet then o.packetSlot * r.packetCapacityBytes else 0

/-- Writes one field of the current slot. -/
def Owner.setPacket (o : Owner Draw) (f : Packet Draw → Packet Draw) : Owner Draw :=
  { o with packets := Function.update o.packets o.packetSlot (f (o.packets o.packetSlot)) }

def bindQueueFence (fence : Fence) : CacheCall Draw Unit := do
  let o ← get
  failIf (o.borrowed = false ∨ o.submissionPoint ≠ 0 ∨ fence.timeline = 0 ∨ fence.point = 0 ∨
    fence.deviceGeneration = 0 ∨ fence.resetGeneration = 0) .Binding
  set (o.setPacket fun p => { p with queueFence := fence })

def submitted (point : Nat) : CacheCall Draw Unit := do
  let o ← get
  failIf (¬ o.valid r me ∨ o.borrowed = false ∨ o.submissionPoint ≠ 0 ∨ point = 0) .State
  let packet := o.packets o.packetSlot
  failIf (packet.grSubmitted ≠ packet.grCompleted) .Retained
  set { o.setPacket fun p => { p with grSubmitted := point } with submissionPoint := point }

def completed (point : Nat) : CacheCall Draw Unit := do
  let o ← get
  failIf (¬ o.valid r me ∨ o.borrowed = false ∨ point = 0 ∨ point ≠ o.submissionPoint) .State
  failIf ((o.packets o.packetSlot).grSubmitted ≠ point) .Stale
  set { o.setPacket fun p => { p with grCompleted := point } with
    submissionPoint := 0
    residentCompleted := if o.lastReuseResident then satAdd o.residentCompleted 1
      else o.residentCompleted }

def acquire (ports : Ports) : CacheCall Draw (Binding Draw) := do
  let o ← get
  failIf (o.borrowed = true) .Busy
  let result ← lift (binding r me ports o)
  set { o.setPacket fun p => { p with queueFence := {} } with borrowed := true }
  pure result

def release : CacheCall Draw Unit := do
  let o ← get
  failIf (¬ o.valid r me ∨ o.borrowed = false ∨ o.submissionPoint ≠ 0) .State
  set { o with borrowed := false }

/-! ## The owner, the buffer of the upload and the memory of the packets -/

structure Machine (Draw : Type) where
  owner : Owner Draw
  staged : List Byte
  memory : Memory

inductive Op (Draw : Type) where
  | reusePacketList (ports : Ports) (draws : List Draw)
  | beginUploadList (ports : Ports) (kind : Kind) (draws : List Draw) (room : Nat)
  /-- The copy engine leaves some bytes in the slot of an upload that is not complete. -/
  | copying (bytes : List Byte)
  | completeUpload (kind : Kind) (point : Nat)
  | cancelUpload
  | binding (ports : Ports)
  | acquire (ports : Ports)
  | bindQueueFence (fence : Fence)
  | submitted (point : Nat)
  | completed (point : Nat)
  | release

inductive Answer (Draw : Type) where
  | done
  | reused (value : Bool)
  | binding (value : Binding Draw)

/-- The copy engine writes bytes at the offset of the upload. -/
def Machine.copy (m : Machine Draw) (bytes : List Byte) : Machine Draw :=
  if m.owner.uploading = some .packet then
    let offset := m.owner.uploadOffset r
    { m with memory := m.memory.poke offset (bytes.take r.packetCapacityBytes) }
  else m

def onOwner {α : Type} (x : CacheCall Draw α) (f : α → Answer Draw) (m : Machine Draw) :
    Except Error (Answer Draw) × Machine Draw :=
  match x m.owner with
  | .ok a o => (.ok (f a), { m with owner := o })
  | .error e o => (.error e, { m with owner := o })

/-- An upload is completed once the engine has copied the staged bytes. -/
def step (m : Machine Draw) : Op Draw → Except Error (Answer Draw) × Machine Draw
  | .reusePacketList ports draws => onOwner (reusePacketList r me ports draws) .reused m
  | .beginUploadList ports kind draws room =>
    match beginUploadList r me ports kind draws room m.owner with
    | .ok bytes o => (.ok .done, { m with owner := o, staged := bytes })
    | .error e o => (.error e, { m with owner := o })
  | .copying bytes => (.ok .done, m.copy r bytes)
  | .completeUpload kind point =>
    onOwner (completeUpload r me kind point) (fun _ => .done) (m.copy r m.staged)
  | .cancelUpload => onOwner (cancelUpload r me) (fun _ => .done) m
  | .binding ports => onOwner (do lift (binding r me ports (← get))) .binding m
  | .acquire ports => onOwner (acquire r me ports) .binding m
  | .bindQueueFence fence => onOwner (bindQueueFence fence) (fun _ => .done) m
  | .submitted point => onOwner (submitted r me point) (fun _ => .done) m
  | .completed point => onOwner (completed r me point) (fun _ => .done) m
  | .release => onOwner (release r me) (fun _ => .done) m

end

end Render
end NvidiaGsp
