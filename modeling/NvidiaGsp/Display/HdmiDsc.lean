import NvidiaGsp.Lib.Bytes
import NvidiaGsp.Mst.Budget

/-!
# Display.HdmiDsc

The search for a compressed HDMI link (`gsp_hdmi_dsc.zig`): the work asks the resource manager for the
encoder, a slice layout and a precomputed configuration, and then probes rates and bits per pixel
until one is answered possible. The EDID package and the vendored PPS generator are parameters
(`Package`); a link rate is its code, with zero for none.
-/

namespace NvidiaGsp
namespace Hdmi

open Bytes
open Mst.Payload (Clock DscSource)

inductive Error where
  | Unsupported | Parameter | Bandwidth | Pps | Stale | Payload | Unexpected | State
  deriving DecidableEq, Repr

/-! ## The picture parameters -/

/-- `links.HdmiDsc`. -/
structure Receiver where
  advertised : Bool := false
  supportedFields : Bool := false
  bpcMask : Nat := 0
  maxFrl : Nat := 0
  allBpp : Bool := false
  maxSlices : Nat := 0
  maxChunkBytes : Nat := 0
  maxSliceClockMhz : Nat := 0
  deriving DecidableEq

structure Sink where
  advertised : Bool
  usable : Bool
  versionMajor : Nat
  versionMinor : Nat
  sliceMask : Nat
  lineBufferBits : Nat
  blockPrediction : Bool
  maxBppX16 : Nat
  formats : Nat
  bpcMask : Nat
  sliceClockMhz : Nat
  maxSliceWidth : Nat
  bppIncrementX16 : Nat

/-- `dsc.Request`, of an HDMI transport. -/
structure Generate where
  clock : Clock
  width : Nat
  height : Nat
  bpc : Nat
  hblank : Nat
  source : DscSource
  sink : Sink
  payloadBps : Nat
  forcedBppX16 : Nat
  forcedSliceWidth : Nat

/-- `dsc.Plan`. -/
structure Params where
  pps : List Word := []
  bppX16 : Nat := 0
  slices : Nat := 0
  sliceWidth : Nat := 0
  sliceHeight : Nat := 0
  chunkBytes : Nat := 0
  rcBufferBytes : Nat := 0
  deriving DecidableEq

structure Package where
  valid : Clock → Bool
  lanes : Nat → Nat
  gigabits : Nat → Nat
  /-- The code of `.lanes3_3g`. -/
  lowest : Nat
  generate : Generate → Except Error Params

structure Request where
  clock : Clock
  width : Nat
  height : Nat
  hblank : Nat
  bpc : Nat
  source : DscSource
  receiver : Receiver
  rate : Nat
  bppX16 : Nat
  sliceWidth : Nat
  slices : Nat

def Receiver.bpcSupported (r : Receiver) (bpc : Nat) : Prop :=
  (bpc = 8 ∨ bpc = 10) ∧ r.bpcMask &&& (if bpc = 8 then 1 else 2) ≠ 0

instance (r : Receiver) (bpc : Nat) : Decidable (r.bpcSupported bpc) :=
  inferInstanceAs (Decidable (_ ∧ _))

def Receiver.maxBpp (r : Receiver) (bpc : Nat) : Nat := if r.allBpp then bpc * 48 - 1 else 192

/-- The horizontal slice counts a receiver takes, one bit each. -/
def sliceMask (maxSlices : Nat) : Nat :=
  ([1, 2, 4, 8, 12, 16].filter fun count => count ≤ maxSlices).foldl (fun mask count => mask ||| 1 <<< count) 0

def Request.generate (p : Package) (r : Request) : Generate where
  clock := r.clock
  width := r.width
  height := r.height
  bpc := r.bpc
  hblank := r.hblank
  source := r.source
  sink :=
    { advertised := true, usable := true, versionMajor := 1, versionMinor := 2
      sliceMask := sliceMask r.receiver.maxSlices, lineBufferBits := 13, blockPrediction := true
      maxBppX16 := r.receiver.maxBpp r.bpc, formats := 1, bpcMask := r.receiver.bpcMask &&& 7
      sliceClockMhz := r.receiver.maxSliceClockMhz, maxSliceWidth := 2720, bppIncrementX16 := 1 }
  payloadBps := p.lanes r.rate * p.gigabits r.rate * 1000000000
  forcedBppX16 := r.bppX16
  forcedSliceWidth := r.sliceWidth

def pps (p : Package) (r : Request) : Except Error Params :=
  let receiver := r.receiver
  if receiver.advertised = false ∨ receiver.supportedFields = false ∨ r.rate = 0 ∨
      r.rate > receiver.maxFrl ∨ ¬ receiver.bpcSupported r.bpc then .error .Unsupported
  else if r.bppX16 < 128 ∨ r.bppX16 > receiver.maxBpp r.bpc ∨ r.sliceWidth = 0 ∨ r.slices = 0 ∨
      r.slices > receiver.maxSlices ∨ receiver.maxChunkBytes = 0 ∨
      (r.width + r.sliceWidth - 1) / r.sliceWidth ≠ r.slices then .error .Parameter
  else
    match p.generate (r.generate p) with
    | .error e => .error e
    | .ok plan =>
      if plan.slices ≠ r.slices ∨ plan.chunkBytes * plan.slices > receiver.maxChunkBytes then
        .error .Bandwidth
      else .ok plan

/-! ## The work -/

/-- `dsc.HdmiPlan`. -/
structure Plan where
  params : Params
  rate : Nat
  hcActiveBytes : Nat
  hcActiveTriBytes : Nat
  hcBlankTriBytes : Nat
  blankRatioX1k : Nat
  deriving DecidableEq

structure Input where
  clock : Clock
  width : Nat
  height : Nat
  total : Nat
  bpc : Nat
  vic : Nat
  receiver : Receiver
  maximum : Nat
  fixed : Option Plan := none

inductive Stage where
  | source | layout | precalc | preconfig | capacity | complete
  deriving DecidableEq, Repr

inductive Search where
  | rate | coarse | fine | fixed
  deriving DecidableEq, Repr

structure Work where
  input : Input
  stage : Stage := .source
  source : DscSource := {}
  rate : Nat := 0
  bpp : Nat := 128
  slices : Nat := 0
  sliceWidth : Nat := 0
  search : Search := .rate
  result : Option Plan := none
  triBytesBorrowed : Nat := 0
  receipt : Nat := 0
  probes : Nat := 0

def Input.top (input : Input) : Nat := min input.maximum input.receiver.maxFrl

def Work.maximum (w : Work) : Nat := w.input.top

def Input.maxBpp (input : Input) : Nat := input.receiver.maxBpp input.bpc

def Work.maxBpp (w : Work) : Nat := w.input.maxBpp

def Work.length (w : Work) : Nat := if w.stage = .source then 64 else 132

/-- The pixel clock in units of 10 kHz, rounded up. -/
def Input.pclk (input : Input) : Nat :=
  (input.clock.numerator + input.clock.denominator * 10000 - 1) / (input.clock.denominator * 10000)

/-- An input that the first test of `encode` lets through. -/
structure Input.Accepted (p : Package) (input : Input) : Prop where
  clock : p.valid input.clock = true
  total : input.width < input.total
  width : 0 < input.width ∧ input.width ≤ 65535
  height : 8 ≤ input.height ∧ input.height ≤ 65535
  advertised : input.receiver.advertised = true ∧ input.receiver.supportedFields = true
  maximum : input.top ≠ 0
  bpc : input.receiver.bpcSupported input.bpc
  chunk : input.receiver.maxChunkBytes ≠ 0 ∧ input.receiver.maxChunkBytes % 1024 = 0

/-- The first test of `encode`, without the stage. -/
def Input.refused (p : Package) (input : Input) : Prop :=
  p.valid input.clock = false ∨ input.total ≤ input.width ∨ input.width = 0 ∨ input.width > 65535 ∨
    input.height < 8 ∨ input.height > 65535 ∨ input.receiver.advertised = false ∨
    input.receiver.supportedFields = false ∨ input.top = 0 ∨ ¬ input.receiver.bpcSupported input.bpc ∨
    input.receiver.maxChunkBytes = 0 ∨ input.receiver.maxChunkBytes % 1024 ≠ 0

instance (p : Package) (input : Input) : Decidable (input.refused p) := by
  unfold Input.refused
  infer_instance

def field (at_ value : Nat) : Nat × Word := (at_, BitVec.ofNat 32 value)

/-- A request with the timing; `before` and `after` are its other words. -/
def Input.timed (input : Input) (before between after : List (Nat × Word)) : Except Error (List Byte) :=
  if input.pclk > 400000 then .error .Unsupported
  else .ok (putAll (List.replicate 132 0) (before ++
    [field 12 input.pclk, field 16 input.total, field 20 input.width, field 24 input.bpc, field 36 2,
      field 40 48] ++ between ++ [field 56 (input.receiver.maxChunkBytes / 1024)] ++ after))

def Work.encode (p : Package) (w : Work) (room : Nat) : Except Error (List Byte) :=
  let input := w.input
  if room < w.length ∨ w.stage = .complete ∨ input.refused p then .error .Unsupported
  else match w.stage with
  | .source => .ok (List.replicate 64 0)
  | .precalc => .ok (putAll (List.replicate 132 0) [field 0 3, field 96 input.vic, field 104 input.bpc])
  | .preconfig => .ok (putAll (List.replicate 132 0) [field 0 5, field 96 input.vic, field 104 input.bpc])
  | .layout => input.timed [field 0 6] []
      [field 120 (min w.source.maxSlices input.receiver.maxSlices), field 124 5120]
  | .capacity =>
    if w.rate = 0 ∨ w.rate > w.maximum ∨ w.bpp < 128 ∨ w.bpp > w.maxBpp then .error .Bandwidth
    else input.timed [field 0 2, field 4 (p.lanes w.rate), field 8 (p.gigabits w.rate)]
      [field 44 w.bpp, field 48 w.slices, field 52 w.sliceWidth] []
  | .complete => .error .Unsupported

/-! ## The answers -/

/-- `data[a..b]` is what was sent. -/
def same (data expected : List Byte) (a b : Nat) : Prop :=
  (data.drop a).take (b - a) = (expected.drop a).take (b - a)

instance (data expected : List Byte) (a b : Nat) : Decidable (same data expected a b) :=
  inferInstanceAs (Decidable (_ = _))

def at_ (data : List Byte) (i : Nat) : Nat := (data.getD i 0).toNat

def num (data : List Byte) (i : Nat) : Nat := (word data i).toNat

/-- `DscSource.decode`. -/
def decodeSource (data : List Byte) : Except Error DscSource :=
  if data.length ≠ 28 ∨ at_ data 0 > 1 then .error .Payload
  else if at_ data 0 = 0 then .ok {}
  else
    let formats := num data 4
    let lineBufferPixels := num data 8 * 1024
    let rateBufferBytes := num data 12 * 1024
    let precision := num data 16
    let bppIncrementX16 := if 1 ≤ precision ∧ precision ≤ 5 then 1 <<< (precision - 1) else 0
    let maxSlices := num data 20
    let lineBufferBits := num data 24
    .ok { advertised := true
          usable := decide (formats &&& 1 ≠ 0 ∧ bppIncrementX16 ≠ 0 ∧ lineBufferPixels ≠ 0 ∧
            rateBufferBytes ≠ 0 ∧ maxSlices ≠ 0 ∧ 8 ≤ lineBufferBits ∧ lineBufferBits ≤ 16)
          formats, lineBufferPixels, rateBufferBytes, bppIncrementX16, maxSlices, lineBufferBits }

def Work.startSearch (p : Package) (w : Work) : Work :=
  { w with rate := p.lowest, bpp := 128, search := .rate, stage := .capacity }

def Work.request (w : Work) : Request where
  clock := w.input.clock
  width := w.input.width
  height := w.input.height
  hblank := w.input.total - w.input.width
  bpc := w.input.bpc
  source := w.source
  receiver := w.input.receiver
  rate := w.rate
  bppX16 := w.bpp
  sliceWidth := w.sliceWidth
  slices := w.slices

/-- A call returns with an error or without; the work is what it is then. -/
abbrev Outcome := Except Error Unit × Work

def Work.finish (p : Package) (w : Work) (data : List Byte) : Outcome :=
  match pps p w.request with
  | .error e => (.error e, w)
  | .ok params =>
    if num data 80 = 0 ∨ num data 80 > 65535 ∨ num data 84 = 0 ∨ num data 84 > 65535 ∨
        num data 88 > 65535 ∨ num data 92 > 1000 then (.error .Payload, w)
    else
      let plan : Plan := ⟨params, w.rate, num data 80, num data 84, num data 88, num data 92⟩
      if w.input.fixed.any fun fixed => decide (plan ≠ fixed) then (.error .Stale, w)
      else (.ok (), { w with result := some plan, triBytesBorrowed := num data 76, stage := .complete })

def Work.takeSource (w : Work) (expected data : List Byte) : Outcome :=
  if ¬ same data expected 0 8 then (.error .Unexpected, w)
  else match decodeSource ((data.drop 36).take 28) with
  | .error e => (.error e, w)
  | .ok source =>
    let w := { w with source }
    if source.usable = false ∨ source.bppIncrementX16 ≠ 1 then (.error .Unsupported, w)
    else (.ok (), { w with stage := .layout })

def Work.takeLayout (w : Work) (expected data : List Byte) : Outcome :=
  if ¬ same data expected 0 48 ∨ ¬ same data expected 56 128 ∨ at_ data 128 > 1 then (.error .Unexpected, w)
  else if at_ data 128 = 0 then (.error .Unsupported, w)
  else
    let slices := num data 48
    let width := num data 52
    if slices = 0 ∨ slices > min w.source.maxSlices w.input.receiver.maxSlices ∨ slices > 16 ∨
        width = 0 ∨ width > 2720 ∨ (w.input.width + width - 1) / width ≠ slices then (.error .Payload, w)
    else
      let w := { w with slices, sliceWidth := width }
      match w.input.fixed with
      | some fixed =>
        if fixed.params.slices ≠ slices ∨ fixed.params.sliceWidth ≠ width then (.error .Stale, w)
        else (.ok (), { w with rate := fixed.rate, bpp := fixed.params.bppX16, search := .fixed,
                               stage := .capacity })
      | none => (.ok (), { w with stage := .precalc })

def Work.takePrecalc (p : Package) (w : Work) (expected data : List Byte) : Outcome :=
  if ¬ same data expected 0 108 ∨ ¬ same data expected 120 132 ∨ at_ data 116 > 1 then
    (.error .Unexpected, w)
  else if at_ data 116 = 1 then (.ok (), { w with stage := .preconfig })
  else (.ok (), w.startSearch p)

def Work.takePreconfig (p : Package) (w : Work) (expected data : List Byte) : Outcome :=
  if ¬ same data expected 0 108 ∨ ¬ same data expected 120 132 then (.error .Unexpected, w)
  else if num data 108 = 7 then (.ok (), w.startSearch p)
  else if num data 108 = 0 ∨ num data 108 > w.maximum ∨ num data 112 < 128 ∨ num data 112 > w.maxBpp then
    (.error .Bandwidth, w)
  else (.ok (), { w with rate := num data 108, bpp := num data 112, search := .fixed, stage := .capacity })

/-- All five flags are set. -/
def possible (data : List Byte) : Prop := ∀ i < 5, at_ data (68 + i) = 1

instance (data : List Byte) : Decidable (possible data) :=
  inferInstanceAs (Decidable (∀ i < 5, _))

/-- The next probe after one that was answered possible, if there is one. -/
def Work.raise (w : Work) : Option Work :=
  if w.search = .rate ∧ w.bpp ≠ w.maxBpp then some { w with bpp := w.maxBpp, search := .coarse }
  else if w.search = .coarse ∧ w.bpp ≠ w.maxBpp then
    some { w with bpp := min w.maxBpp (w.bpp + 15), search := .fine }
  else none

/-- The next probe after one that was not. -/
def Work.lower (w : Work) : Outcome :=
  match w.search with
  | .fixed => (.error .Bandwidth, w)
  | .rate =>
    if w.rate = w.maximum then (.error .Bandwidth, w) else (.ok (), { w with rate := w.rate + 1 })
  | .coarse =>
    if w.bpp = 128 then (.error .Bandwidth, w) else (.ok (), { w with bpp := max 128 (w.bpp - 16) })
  | .fine =>
    if w.bpp = 128 then (.error .Bandwidth, w) else (.ok (), { w with bpp := max 128 (w.bpp - 1) })

def Work.takeCapacity (p : Package) (w : Work) (expected data : List Byte) : Outcome :=
  if ¬ same data expected 0 60 ∨ ¬ same data expected 96 132 then (.error .Unexpected, w)
  else if ¬ ∀ i < 5, at_ data (68 + i) ≤ 1 then (.error .Payload, w)
  else if (num data 60 ≠ 0 ∧ num data 60 ≠ w.rate) ∨ (num data 64 ≠ 0 ∧ num data 64 ≠ w.bpp) then
    (.error .Unexpected, w)
  else if possible data then
    match w.raise with
    | some w => (.ok (), w)
    | none => w.finish p data
  else w.lower

def Work.take (p : Package) (w : Work) (expected data : List Byte) : Outcome :=
  match w.stage with
  | .source => w.takeSource expected data
  | .layout => w.takeLayout expected data
  | .precalc => w.takePrecalc p expected data
  | .preconfig => w.takePreconfig p expected data
  | .capacity => w.takeCapacity p expected data
  | .complete => (.error .State, w)

def Work.consume (p : Package) (w : Work) (data : List Byte) (receipt : Nat) : Outcome :=
  if receipt = 0 ∨ receipt ≤ w.receipt ∨ w.probes ≥ 64 then (.error .Stale, w)
  else match w.encode p 132 with
  | .error e => (.error e, w)
  | .ok expected =>
    if data.length ≠ expected.length then (.error .Payload, w)
    else match w.take p expected data with
    | (.error e, w) => (.error e, w)
    | (.ok (), w) => (.ok (), { w with receipt, probes := w.probes + 1 })

end Hdmi
end NvidiaGsp
