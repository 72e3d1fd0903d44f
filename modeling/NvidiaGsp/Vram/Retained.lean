import NvidiaGsp.Gsp.Message
import NvidiaGsp.Lib.Moves
import NvidiaGsp.Lib.Triples
import NvidiaGsp.Vram.Inventory

/-!
# Vram.Retained

How `prepare` collects what the boot retains (`gsp_memory_inventory.zig`): the union of the spans in
an array of fixed size, with its running byte count, and how much of the reported regions it leaves.
`Vram.Inventory` has the same union as a list.
-/

namespace NvidiaGsp
namespace Vram
namespace Retained

open Call Moves Inventory

inductive Fault where
  | MemoryState | MemoryBinding | MemoryBounds | MemoryRegion | MemoryCapacity | MemoryAperture
  | Lease | Overflow | Trap
  deriving DecidableEq, Repr

def maxRegions : Nat := 16
def maxRanges : Nat := 1024
def maxPages : Nat := 128
def payloadMaxSpans : Nat := 8 * 6 + (8 * 3 + 8 * 2)

inductive Status where
  | detached | prepared | published | invalidated
  deriving DecidableEq, Repr

/-- `Summary`, as far as `prepare` computes it. -/
structure Summary where
  epoch : Nat := 0
  bootEpoch : Nat := 0
  physicalBytes : Nat := 0
  reportedBytes : Nat := 0
  regionBytes : Nat := 0
  regionHoles : Nat := 0
  speculativeReserved : Nat := 0
  retainedBytes : Nat := 0
  screenedBytes : Nat := 0
  regionCount : Nat := 0
  retainedCount : Nat := 0
  surfaceExtents : Nat := 0
  tablePages : Nat := 0
  payloadExtents : Nat := 0
  instanceActive : Bool := false
  firmwareLayoutMatches : Bool := false
  firmwareLayoutReported : Bool := false
  firmwareLayoutUsable : Bool := false

structure Owner where
  attached : Bool := false
  state : Status := .detached
  data : Summary := {}
  regions : List Region := []
  retained : Nat → Extent := fun _ => ⟨0, 0⟩

abbrev Step (α : Type) := Call Fault Owner α

def checkBounds (span : Extent) : Step Unit := do
  let o ← get
  failIf (span.bytes = 0 ∨ span.base ≥ o.data.physicalBytes ∨
    span.bytes > o.data.physicalBytes - span.base) .MemoryBounds

/-! ## The union -/

/-- The first loop of `add`: the entries that end before the span begins. -/
def skip (retained : Nat → Extent) (count start : Nat) : Nat → Nat → Nat
  | 0, first => first
  | n + 1, first =>
    if first < count ∧ (retained first).stop < start then skip retained count start n (first + 1)
    else first

/-- The variables of the second loop of `add`. -/
structure Growing where
  last : Nat
  start : Nat
  stop : Nat
  replaced : Nat

/-- The second loop of `add`: the span grows over the entries it touches. -/
def swallow (retained : Nat → Extent) (count : Nat) : Nat → Growing → Growing
  | 0, g => g
  | n + 1, g =>
    if g.last < count ∧ (retained g.last).base ≤ g.stop then
      swallow retained count n {
        last := g.last + 1
        start := min g.start (retained g.last).base
        stop := max g.stop (retained g.last).stop
        replaced := g.replaced + (retained g.last).bytes }
    else g

/-- The entries from `last` on move behind the new one at `first`. -/
def shift (retained : Nat → Extent) (first last count : Nat) (span : Extent) : Nat → Extent :=
  let moved := if last = first then copyBackwards retained (first + 1) first (count - first)
    else copyForwards retained (first + 1) last (count - last)
  Function.update moved first span

def add (span : Extent) : Step Unit := do
  checkBounds span
  let o ← get
  let first := skip o.retained o.data.retainedCount span.base o.data.retainedCount 0
  let g := swallow o.retained o.data.retainedCount o.data.retainedCount
    { last := first, start := span.base, stop := span.stop, replaced := 0 }
  let count := o.data.retainedCount - (g.last - first) + 1
  failIf (count > maxSpans) .MemoryCapacity
  failIf (o.data.retainedBytes < g.replaced ∨
    2 ^ 64 ≤ o.data.retainedBytes - g.replaced + g.stop) .Trap
  set { o with
    retained := shift o.retained first g.last o.data.retainedCount ⟨g.start, g.stop - g.start⟩
    data := { o.data with
      retainedCount := count
      retainedBytes := o.data.retainedBytes - g.replaced + g.stop - g.start } }

def addAll : List Extent → Step Unit
  | [] => pure ()
  | span :: rest => do
    add span
    addAll rest

/-- The retained spans, as a list. -/
def Owner.spans (o : Owner) : List Extent := (List.range' 0 o.data.retainedCount).map o.retained

/-! ## The bytes that are left -/

/-- `bytes -= overlap(..)` for every retained span; `none` where this would underflow. -/
def subtractAll (region : Extent) : List Extent → Nat → Option Nat
  | [], bytes => some bytes
  | span :: rest, bytes =>
    if region.overlap span ≤ bytes then subtractAll region rest (bytes - region.overlap span) else none

/-- The screening loop over the regions; `none` where a subtraction would underflow. -/
def screen (spans : List Extent) : List Region → Nat → Option Nat
  | [], screened => some screened
  | region :: rest, screened =>
    if region.isProtected ∨ region.reserved ≠ 0 then screen spans rest screened
    else
      match subtractAll region.span spans region.bytes with
      | some bytes => screen spans rest (screened + bytes)
      | none => none

/-! ## The preparation -/

inductive BarKind where
  | absent | io | memory32 | memory64 | upper | invalid
  deriving DecidableEq, Repr

structure Bar where
  kind : BarKind
  base : Nat
  bytes : Nat

/-- The check of `window`. -/
def Bar.usable (bar : Bar) : Prop :=
  bar.bytes = 0 ∨ (bar.kind = .memory32 ∨ bar.kind = .memory64) ∧ bar.base ≠ 0 ∧
    bar.base ≤ 2 ^ 64 - 1 - bar.bytes

instance {bar : Bar} : Decidable bar.usable := by
  unfold Bar.usable
  infer_instance

/-- What `prepare` reads of the lease and of the static information. The boot has
refused a memory of more than 2^40 bytes. -/
structure Sources where
  bindingEpoch : Option Nat
  fbBytes : Nat
  fbSmall : fbBytes ≤ 2 ^ 40
  reserved : Extent
  planNonWprHeap : Nat
  planFrts : Nat
  bars : Option (List Bar)
  vga : Option Extent
  chipId : Nat
  ranges : List Extent
  pages : List Nat
  mapFramebufferBytes : Nat
  surfaceBytes : Nat
  originalBytes : Option Nat
  contextFramebufferBytes : Nat
  instanceActive : Bool
  instanceSpan : Extent
  payload : List Extent
  infoFbBytes : Nat
  infoRegions : List Region
  infoNonWprHeap : Nat
  infoFrts : Nat

/-- The summary before anything is retained. -/
def Sources.summary (src : Sources) (epoch bootEpoch : Nat) : Summary :=
  let layoutMatches := src.infoNonWprHeap = src.planNonWprHeap ∧ src.infoFrts = src.planFrts
  let reported := src.infoNonWprHeap ≠ 0 ∨ src.infoFrts ≠ 0
  { epoch := epoch
    bootEpoch := bootEpoch
    physicalBytes := src.fbBytes
    reportedBytes := src.infoFbBytes
    regionCount := src.infoRegions.length
    surfaceExtents := src.ranges.length
    tablePages := src.pages.length
    payloadExtents := src.payload.length
    instanceActive := src.instanceActive
    firmwareLayoutMatches := layoutMatches
    firmwareLayoutReported := reported
    firmwareLayoutUsable := layoutMatches ∨ ¬ reported ∧ Gsp.ga102Hal src.chipId }

/-- The owner before anything is retained. -/
def Owner.empty (o : Owner) (src : Sources) (epoch bootEpoch : Nat) : Owner :=
  { o with attached := true, data := src.summary epoch bootEpoch, regions := [] }

/-- The reported regions, each apart from those before it. -/
def takeRegions : List Region → Step Unit
  | [] => pure ()
  | region :: rest => do
    checkBounds region.span
    failIf (region.reserved > region.bytes) .MemoryBounds
    let o ← get
    failIf (∃ prior ∈ o.regions, region.span.overlap prior.span ≠ 0) .MemoryRegion
    modify fun o => { o with
      regions := o.regions ++ [region]
      data := { o.data with
        regionBytes := o.data.regionBytes + region.bytes
        speculativeReserved := o.data.speculativeReserved + region.reserved } }
    takeRegions rest

/-- The surface's ranges, and their bytes. -/
def addRanges : List Extent → Nat → Step Nat
  | [], surface => pure surface
  | span :: rest, surface => do
    add span
    failIf (surface + span.bytes ≥ 2 ^ 64) .Overflow
    addRanges rest (surface + span.bytes)

def addPages : List Nat → Step Unit
  | [] => pure ()
  | base :: rest => do
    failIf (base % 4096 ≠ 0) .MemoryBounds
    add ⟨base, 4096⟩
    addPages rest

def addIf (active : Bool) (span : Extent) : Step Unit := if active then add span else pure ()

/-- The screened bytes are counted, unless the layout of the firmware is in doubt. -/
def screening : Step Unit := do
  let o ← get
  if o.data.firmwareLayoutUsable then do
    let bytes ← need (screen o.spans o.regions 0) .Trap
    set { o with data := { o.data with screenedBytes := bytes } }
  else pure ()

/-- The body of `prepare`, behind its first checks. -/
def collect (src : Sources) (bars : List Bar) (vga : Extent) : Step Unit := do
  failIf (src.infoFbBytes = 0 ∨ src.infoFbBytes > src.fbBytes) .MemoryBounds
  failIf (¬ ∀ bar ∈ bars, bar.usable) .MemoryAperture
  takeRegions src.infoRegions
  modify fun o => { o with
    data := { o.data with regionHoles := src.fbBytes - o.data.regionBytes } }
  add src.reserved
  add vga
  let surface ← addRanges src.ranges 0
  failIf (src.originalBytes ≠ some surface ∨ surface ≠ src.surfaceBytes) .MemoryBinding
  addPages src.pages
  addIf src.instanceActive src.instanceSpan
  addAll src.payload
  screening
  modify fun o => { o with state := .prepared }

def prepare (src : Sources) (epoch : Nat) : Step Unit := do
  let o ← get
  failIf (o.attached ∨ epoch = 0) .MemoryState
  let bootEpoch ← need src.bindingEpoch .Lease
  let bars ← need src.bars .MemoryBinding
  let vga ← need src.vga .MemoryBinding
  failIf (src.infoRegions.length = 0 ∨ src.infoRegions.length > maxRegions ∨ src.ranges.length = 0 ∨
    src.ranges.length > maxRanges ∨ src.pages.length > maxPages ∨
    src.mapFramebufferBytes ≠ src.fbBytes ∨ src.contextFramebufferBytes ≠ src.fbBytes ∨
    src.payload.length > payloadMaxSpans) .MemoryBinding
  set (o.empty src epoch bootEpoch)
  marking (collect src bars vga) fun _ o => { o with state := .invalidated }

end Retained
end Vram
end NvidiaGsp
