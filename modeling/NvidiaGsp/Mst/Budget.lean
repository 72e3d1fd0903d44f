import NvidiaGsp.Mst.Registry

/-!
# Mst.Budget

The payload table of one MST root (`gsp_mst_budget.zig`, `gsp_mst_payload.zig`): which streams it
carries, the exact rational demand of each, and the check a table passes before it may be installed.

The link arithmetic of the EDID package is a parameter (`Links`), and so is the SHA-256 digest: it is
a function of the hashed content into an arbitrary type.
-/

namespace NvidiaGsp
namespace Mst
namespace Payload

open Registry (Handle Key notSingleBit)

/-! ## Payload demand -/

/-- A pixel clock as the EDID package holds it. -/
structure Clock where
  numerator : Nat := 0
  denominator : Nat := 1
  deriving DecidableEq, Repr

/-- What the planner uses of the EDID package's `links`. -/
structure Links where
  /-- Payload bits per second of a link rate and lane count, if the link is supported. -/
  dp8b10bPayload : Nat → Nat → Option Nat
  atMost : Clock → Nat → Bool
  ceilHz : Clock → Option Nat

structure Link where
  rate : Nat := 0
  lanes : Nat := 0
  deriving DecidableEq, Repr

structure Timing where
  clock : Clock := {}
  width : Nat := 0
  total : Nat := 0
  bpc : Nat := 0
  deriving DecidableEq, Repr

structure Demand where
  pbn : Nat := 0
  slots : Nat := 0
  timeslicePbn : Nat := 0
  hblank : Nat := 0
  vblank : Nat := 0
  audio48k : Bool := false
  deriving DecidableEq, Repr

def Link.pbnPerSlot (links : Links) (link : Link) : Except Error Nat :=
  match links.dp8b10bPayload link.rate link.lanes with
  | some bits => .ok (bits / 8 / 64 / 843750)
  | none => .error .Unsupported

def ceil (n d : Nat) : Nat := (n + d - 1) / d

/-- The bits one line needs for its blanking, rounded up to a symbol. -/
def blankBits (width bpp : Nat) : Nat :=
  let bits := (if width % 4 = 0 then 0 else (4 - width % 4) * bpp) + 184
  bits + (32 - bits % 32)

/-- The demand of a timing whose PBN and slots are known and whose pixel clock is `pclk`. -/
def blanking (link : Link) (timing : Timing) (perSlot pbn slots pclk : Nat) : Except Error Demand :=
  let bpp := timing.bpc * 3
  let linkHz := link.rate * 27000000 * 994 / 1000
  let minBlank := (blankBits timing.width bpp + bpp - 1) / bpp
  if minBlank > timing.total - timing.width then .error .Bandwidth else
  let hdelay := 4 + if link.lanes = 1 then 9 else if link.lanes = 2 then 6 else 3
  let hblank := (timing.total - timing.width - minBlank) * linkHz / pclk - hdelay
  let vdelay := 1 + if link.lanes = 1 then 39 else if link.lanes = 2 then 21 else 12
  let vblank := (timing.width - 40) * linkHz / pclk - vdelay
  let samples := ceil (48000 * timing.total) pclk
  let audioSymbols := 10 * (samples + 2 - samples % 2) + 16
  if hblank ≥ 2 ^ 32 ∨ vblank ≥ 2 ^ 32 then .error .Bandwidth
  else .ok ⟨pbn, slots, slots * perSlot, hblank, vblank, decide (hblank ≥ audioSymbols)⟩

def demand (links : Links) (link : Link) (timing : Timing) : Except Error Demand :=
  match link.pbnPerSlot links with
  | .error e => .error e
  | .ok perSlot =>
    if links.atMost timing.clock 4000000000 = false ∨ timing.width ≤ 60 ∨
        timing.total ≤ timing.width ∨ timing.total > 65535 ∨ (timing.bpc ≠ 8 ∧ timing.bpc ≠ 10) then
      .error .Descriptor
    else
    let pbn := ceil (timing.clock.numerator * (timing.bpc * 3) * 1006 * 64)
      (timing.clock.denominator * 8 * 54000000 * 1000)
    let slots := ceil pbn perSlot
    if pbn = 0 ∨ pbn > 65535 ∨ slots = 0 ∨ slots > 63 then .error .Bandwidth else
    match links.ceilHz timing.clock with
    | none => .error .Descriptor
    | some pclk => blanking link timing perSlot pbn slots pclk

/-! ## Tables -/

/-- A branch output named by GUID, relative address and port. -/
structure PathEdge where
  guid : Guid := Vector.replicate 16 0
  route : Route := {}
  port : Nat := 0
  deriving DecidableEq

structure Allocation where
  displayId : Nat := 0
  payloadId : Nat := 0
  head : Nat := 0
  start : Nat := 0
  demand : Demand := {}
  deriving DecidableEq

def maxPath : Nat := 15
def maxStreams : Nat := 8

structure Entry where
  handle : Handle := ⟨0, 0, 0⟩
  key : Key := {}
  window : Nat := 0
  pathCount : Nat := 0
  path : Vector PathEdge maxPath := Vector.replicate maxPath {}
  timing : Timing := {}
  allocation : Allocation := {}
  deriving DecidableEq

structure Table where
  count : Nat := 0
  slots : Nat := 0
  usedPbn : Nat := 0
  entries : Vector Entry maxStreams := Vector.replicate maxStreams {}
  deriving DecidableEq

/-- The entries in use, `entries[0..count]`. -/
def Table.used (t : Table) : List Entry := t.entries.toList.take t.count

def Table.find (t : Table) (id : Nat) : Option Entry :=
  if t.count > maxStreams then none
  else t.used.find? fun entry => entry.allocation.displayId == id

/-- What `digest` hashes: the three counters and the used entries. -/
structure Content where
  count : Nat
  slots : Nat
  usedPbn : Nat
  entries : List Entry
  deriving DecidableEq

def Table.content (t : Table) : Content := ⟨t.count, t.slots, t.usedPbn, t.used⟩

def Table.digest {D : Type} (hash : Content → D) (t : Table) : Except Error D :=
  if t.count > maxStreams then .error .Bounds else .ok (hash t.content)

/-! ## Table validation -/

/-- The running totals of the check. -/
structure Tally where
  slots : Nat := 0
  pbn : Nat := 0
  ids : Nat := 0
  heads : Nat := 0
  windows : Nat := 0

/-- The path of a stream: valid, named edges, none twice. -/
def checkPath (seen : List PathEdge) : List PathEdge → Except Error Unit
  | [] => .ok ()
  | edge :: rest =>
    if edge.route.valid = false ∨ edge.guid.isZero = true then .error .Stale
    else if edge ∈ seen then .error .Descriptor
    else checkPath (edge :: seen) rest

/-- The last edge of the path. -/
def Entry.terminal (entry : Entry) : PathEdge := entry.path.toList.getD (entry.pathCount - 1) {}

/-- A stream whose IDs, head, window or path bounds are not in order. -/
def Entry.malformed (entry : Entry) (epoch root : Nat) (t : Tally) : Prop :=
  notSingleBit entry.allocation.displayId ∨ entry.allocation.head ≥ 8 ∨ entry.window ≥ 8 ∨
    entry.allocation.payloadId ≠ entry.allocation.head + 1 ∨ entry.handle.epoch ≠ epoch ∨
    entry.handle.serial = 0 ∨ entry.handle.slot ≥ 32 ∨ entry.key.root ≠ root ∨
    entry.pathCount = 0 ∨ entry.pathCount > maxPath ∨ t.ids &&& entry.allocation.displayId ≠ 0 ∨
    t.heads &&& (1 <<< entry.allocation.head) ≠ 0 ∨ t.windows &&& (1 <<< entry.window) ≠ 0

instance (entry : Entry) (epoch root : Nat) (t : Tally) :
    Decidable (entry.malformed epoch root t) := by
  unfold Entry.malformed
  infer_instance

/-- The path does not end at the stream's key. -/
def Entry.misrouted (entry : Entry) : Prop :=
  entry.terminal.guid ≠ entry.key.branchGuid ∨ entry.terminal.route ≠ entry.key.route ∨
    entry.terminal.port ≠ entry.key.port ∨ entry.key.rootGuid.isZero = true

instance (entry : Entry) : Decidable entry.misrouted := by
  unfold Entry.misrouted
  infer_instance

def checkEntry (links : Links) (epoch root : Nat) (link : Link) (t : Tally) (entry : Entry) :
    Except Error Tally :=
  if entry.malformed epoch root t then .error .Descriptor else
  match demand links link entry.timing with
  | .error e => .error e
  | .ok wanted =>
    if entry.allocation.demand ≠ wanted ∨ entry.allocation.start ≠ t.slots + 1 then .error .Stale else
    if entry.misrouted then .error .Stale else
    match checkPath [] (entry.path.toList.take entry.pathCount) with
    | .error e => .error e
    | .ok () => .ok
      { slots := t.slots + entry.allocation.demand.slots, pbn := t.pbn + entry.allocation.demand.pbn,
        ids := t.ids ||| entry.allocation.displayId,
        heads := t.heads ||| (1 <<< entry.allocation.head),
        windows := t.windows ||| (1 <<< entry.window) }

def checkEntries (links : Links) (epoch root : Nat) (link : Link) (t : Tally) :
    List Entry → Except Error Tally
  | [] => .ok t
  | entry :: rest =>
    match checkEntry links epoch root link t entry with
    | .error e => .error e
    | .ok t => checkEntries links epoch root link t rest

def validateTable (links : Links) (table : Table) (epoch root : Nat) (link : Link) :
    Except Error Unit :=
  if table.count > maxStreams then .error .Descriptor else
  match checkEntries links epoch root link {} table.used with
  | .error e => .error e
  | .ok t =>
    if t.slots > 63 ∨ table.slots ≠ t.slots ∨ table.usedPbn ≠ t.pbn then .error .Descriptor
    else .ok ()

/-! ## Live state -/

/-- The DSC encoder capabilities of the source. -/
structure DscSource where
  advertised : Bool := false
  usable : Bool := false
  formats : Nat := 0
  lineBufferPixels : Nat := 0
  rateBufferBytes : Nat := 0
  bppIncrementX16 : Nat := 0
  maxSlices : Nat := 0
  lineBufferBits : Nat := 0
  deriving DecidableEq

structure DpSource where
  rate : Nat
  increasedWatermark : Bool
  dp14 : Bool := false
  mst : Bool := false
  singleHeadMst : Bool := false
  fec : Bool := false
  uhbrMask : Nat := 0
  dsc : DscSource := {}
  deriving DecidableEq

structure Training where
  link : Link
  source : DpSource
  dpcd : Vector Byte 16
  lanes : Vector Byte 8
  receipt : Nat
  deriving DecidableEq

structure State where
  epoch : Nat := 0
  root : Nat := 0
  revision : Nat := 0
  table : Table := {}
  training : Option Training := none
  completionReceipt : Nat := 0
  deriving DecidableEq

structure Budget where
  link : Link := {}
  table : Table := {}
  deriving DecidableEq

/-- The status of one lane: clock recovery, equalisation and symbol lock (`gsp_dp_link.trained`). -/
def laneLocked (status : Vector Byte 8) (lane : Nat) : Bool :=
  ((status.toList.getD (2 + lane / 2) 0) >>> ((lane % 2) * 4)) &&& 7 == 7

def trained (status : Vector Byte 8) (lanes : Nat) : Bool :=
  (lanes == 1 || lanes == 2 || lanes == 4) &&
    (status.toList.getD 0 0 &&& 0xbf != 0 && status.toList.getD 4 0 &&& 1 != 0) &&
    (List.range lanes).all fun lane => laneLocked status lane

end Payload
end Mst
end NvidiaGsp
