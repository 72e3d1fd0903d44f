import NvidiaGsp.FirstBoot.RadixSpec

/-!
# FirstBoot.Wpr

The WPR metadata (`gsp_wpr.zig`): the template over a fresh layout, with the descriptor of the boot
image inspected first (`gsp_boot.zig`), and the addresses written into it. The embedded firmware lock
and the hash are parameters. `encode_matches` is the check that later compares the metadata with a
layout.
-/

namespace NvidiaGsp
namespace FirstBoot
namespace Wpr

open Bytes Parse

def bytes : Nat := 256
def magic : Nat := 0xdc3aae21371a60b3
def revision : Nat := 1
def imageBytes : Nat := 63541248
def signatureBytes : Nat := 4096

structure Artifact where
  bytes : Nat
  sha256 : List Byte

structure BootSpecification where
  image : Artifact
  descriptor : Artifact

structure Lock where
  bootSpecification : Nat → Option BootSpecification
  digestMatches : List Byte → List Byte → Bool

/-! ## The boot image's descriptor -/

structure Info where
  version : Nat
  appVersion : Nat
  imageBytes : Nat
  bootloader : Range
  parameters : Range
  manifest : Range
  monitorData : Range
  monitorCode : Range
  fbReservedBytes : Nat

/-- The word of a descriptor at an index. -/
def at_ (descriptor : List Byte) (index : Nat) : Nat := (word descriptor (index * 4)).toNat

def range (descriptor : List Byte) (index capacity : Nat) : Parse Error Range := do
  let r : Range := ⟨at_ descriptor index, at_ descriptor (index + 1)⟩
  reject (r.bytes = 0 ∨ r.offset > capacity ∨ r.bytes > capacity - r.offset) .Bounds
  pure r

def Range.meets (a b : Range) : Prop := a.offset < b.stop ∧ b.offset < a.stop

instance {a b : Range} : Decidable (Range.meets a b) := inferInstanceAs (Decidable (_ ∧ _))

/-- `firmware.lock.boot.descriptor.bytes`. -/
def descriptorBytes : Nat := 84

def inspect (descriptor : List Byte) (size : Nat) : Parse Error Info := do
  reject (descriptor.length ≠ descriptorBytes ∨ size = 0 ∨ size > 1024 * 1024) .WrongSize
  reject (at_ descriptor 0 ≠ 5) .DescriptorVersion
  reject ([5, 6, 7, 15, 16, 17, 18, 20].any fun index => at_ descriptor index != 0)
    .UnsupportedDescriptor
  reject (at_ descriptor 14 ≠ 1) .UnsupportedDescriptor
  reject (at_ descriptor 19 ≠ size) .Bounds
  let bootloader ← range descriptor 1 size
  let parameters ← range descriptor 3 size
  let manifest ← range descriptor 8 size
  let monitorData ← range descriptor 10 size
  let monitorCode ← range descriptor 12 size
  let ranges := [bootloader, parameters, manifest, monitorData, monitorCode]
  reject (¬ ranges.Pairwise fun a b => ¬ Range.meets a b) .Overlap
  pure {
    version := 5
    appVersion := at_ descriptor 7
    imageBytes := size
    bootloader := bootloader
    parameters := parameters
    manifest := manifest
    monitorData := monitorData
    monitorCode := monitorCode
    fbReservedBytes := at_ descriptor 19 }

/-! ## The metadata -/

structure Input where
  chipId : Nat
  raw : Raw
  imageBytes : Nat
  descriptor : List Byte
  signatureBytes : Nat

structure Prepared where
  plan : Plan
  bootInfo : Info
  unboundTemplate : List Byte

structure Bindings where
  gspSegments : List Radix.Segment
  bootImage : Radix.Segment
  signature : Radix.Segment
  crashQueue : Option Radix.Segment := none

/-- What the metadata says about the video memory. -/
def planFields (plan : Plan) : List Nat :=
  [plan.reserved.offset, plan.nonWprHeap.offset, plan.nonWprHeap.bytes, plan.wpr.offset,
    plan.heap.offset, plan.heap.bytes, plan.firmware.offset, plan.boot.offset, plan.frts.offset,
    plan.frts.bytes, plan.wpr.stop, plan.fbBytes, plan.vga.offset, plan.vga.bytes]

def fields (input : Input) (info : Info) (plan : Plan) : List Nat :=
  [magic, revision, 0, input.imageBytes, 0, info.imageBytes, info.monitorCode.offset,
    info.monitorData.offset, info.manifest.offset, 0, input.signatureBytes] ++ planFields plan

def prepare (lock : Lock) (input : Input) : Parse Error Prepared := do
  reject (input.imageBytes ≠ imageBytes) .ImageSize
  reject (input.signatureBytes ≠ signatureBytes) .SignatureSize
  let spec ← need (lock.bootSpecification input.chipId) .UnsupportedChip
  reject (input.descriptor.length ≠ spec.descriptor.bytes) .WrongSize
  reject (¬ lock.digestMatches input.descriptor spec.descriptor.sha256) .WrongHash
  let size ← cast 32 spec.image.bytes
  let info ← inspect input.descriptor size
  let plan ← firstBoot input.chipId input.raw input.imageBytes info.imageBytes
  pure {
    plan := plan
    bootInfo := info
    unboundTemplate := storeWords (List.replicate bytes 0) 0 (fields input info plan) }

def matchesPlan (data : List Byte) (plan : Plan) : Bool :=
  data.length == bytes && (List.range (planFields plan).length).all fun i =>
    number data ((11 + i) * 8) 8 == (planFields plan).getD i 0

/-- The checks of the crash queue, if there is one. -/
def checkQueue : Option Radix.Segment → Parse Error Unit
  | none => pure ()
  | some queue => do
    queue.check
    reject (queue.bytes > 2 ^ 32 - 1) .CrashQueueSize

def storeQueue (output : List Byte) : Option Radix.Segment → List Byte
  | none => output
  | some queue => store (store output 224 8 queue.address) 232 4 queue.bytes

def encode (lock : Lock) (input : Input) (bindings : Bindings) : Parse Error (List Byte) := do
  let prepared ← prepare lock input
  let required ← Radix.requirements input.imageBytes
  let segments := bindings.gspSegments
  reject (segments.length = 0 ∨ segments.length > Radix.maxSegments) .Segments
  let covered ← Radix.cover required.allocationBytes segments [] 0
  reject (covered ≠ required.allocationBytes) .Capacity
  bindings.bootImage.check
  bindings.signature.check
  reject (bindings.bootImage.bytes ≠ prepared.bootInfo.imageBytes) .WrongSize
  reject (bindings.signature.bytes ≠ signatureBytes) .SignatureSize
  checkQueue bindings.crashQueue
  let extra := bindings.bootImage :: bindings.signature :: bindings.crashQueue.toList
  reject (¬ extra.Pairwise (fun a b => ¬ b.overlaps a) ∨
    ¬ ∀ a ∈ extra, ∀ b ∈ segments, ¬ a.overlaps b) .Overlap
  let root ← need segments[0]? .Segments
  let output := store prepared.unboundTemplate 16 8 root.address
  let output := store output 32 8 bindings.bootImage.address
  let output := store output 72 8 bindings.signature.address
  pure (storeQueue output bindings.crashQueue)

/-! ## The comparison -/

variable {lock : Lock} {input : Input} {bindings : Bindings} {data : List Byte} {plan : Plan}
  {i bootBytes size : Nat}

theorem length_planFields : (planFields plan).length = 14 := rfl

theorem length_fields {info : Info} : (fields input info plan).length = 25 := rfl

theorem fields_behind {info : Info} : (fields input info plan)[11 + i]? = (planFields plan)[i]? := by
  unfold fields
  rw [List.getElem?_append_right (by simp)]
  simp

/-- The words behind the first eleven are those of the layout. -/
theorem matchesPlan_of (hlen : data.length = bytes)
    (h : ∀ i < 14, number data ((11 + i) * 8) 8 = (planFields plan).getD i 0) :
    matchesPlan data plan = true := by
  unfold matchesPlan
  rw [hlen, length_planFields]
  simp only [beq_self_eq_true, Bool.true_and, List.all_eq_true, List.mem_range, beq_iff_eq]
  exact h

theorem matchesPlan_congr {data' : List Byte} (hlen : data'.length = data.length)
    (h : ∀ i < 14, number data' ((11 + i) * 8) 8 = number data ((11 + i) * 8) 8)
    (hm : matchesPlan data plan = true) : matchesPlan data' plan = true := by
  unfold matchesPlan at *
  rw [length_planFields] at *
  simp only [Bool.and_eq_true, List.all_eq_true, List.mem_range, beq_iff_eq] at *
  exact ⟨hlen.trans hm.1, fun i hi => (h i hi).trans (hm.2 i hi)⟩

/-- A store before the layout's words or behind them leaves the comparison as it was. -/
theorem matchesPlan_store {offset n v : Nat} (hn : offset + n ≤ 88 ∨ 200 ≤ offset ∧ offset + n ≤ 256)
    (hm : matchesPlan data plan = true) : matchesPlan (store data offset n v) plan = true := by
  have hlen : data.length = 256 := by
    unfold matchesPlan at hm
    simp only [Bool.and_eq_true, beq_iff_eq] at hm
    exact hm.1
  refine matchesPlan_congr (length_store (by omega)) (fun i hi => ?_) hm
  exact number_store_of_disjoint (by omega) (by omega)

/-- The fields of a layout are words. -/
theorem planFields_lt (h : LaidOut size bootBytes plan) : ∀ v ∈ planFields plan, v < 2 ^ 64 := by
  have hin := h.inside
  have hreserved := h.reserved
  have hmost := h.prescrubbed.2.2
  simp only [Plan.regions, Range.stop, List.forall_mem_cons, List.not_mem_nil, false_imp_iff,
    implies_true, and_true] at hin hreserved
  simp only [planFields, Range.stop, List.forall_mem_cons, List.not_mem_nil, false_imp_iff,
    implies_true, and_true]
  omega

theorem prepare_matches {prepared : Prepared} (h : prepare lock input = .ok prepared) :
    firstBoot input.chipId input.raw input.imageBytes prepared.bootInfo.imageBytes =
        .ok prepared.plan ∧ matchesPlan prepared.unboundTemplate prepared.plan = true := by
  unfold prepare at h
  simp only [bind_ok, reject_ok, need_ok, cast_ok, pure_ok] at h
  obtain ⟨_, himage, _, hsignature, spec, _, _, _, _, _, _, _, info, hinfo, plan, hplan, rfl⟩ := h
  have hroom : 0 + 8 * (fields input info plan).length ≤ (List.replicate bytes (0 : Byte)).length := by
    rw [length_fields, List.length_replicate]
    decide
  refine ⟨hplan, matchesPlan_of ((length_storeWords hroom).trans List.length_replicate) fun i hi => ?_⟩
  have hsmall := planFields_lt (firstBoot_safe.ok hplan)
  have hi' : i < (planFields plan).length := hi
  have hlt : 11 + i < (fields input info plan).length := by
    rw [length_fields]
    omega
  have hword := number_storeWords hroom hlt
  have hfield : (fields input info plan)[11 + i] = (planFields plan)[i] := by
    have h := @fields_behind input plan i info
    rw [List.getElem?_eq_getElem hlt, List.getElem?_eq_getElem hi'] at h
    exact Option.some.inj h
  have hlow : (planFields plan)[i] % 256 ^ 8 = (planFields plan)[i] :=
    Nat.mod_eq_of_lt (Nat.lt_of_lt_of_eq (hsmall _ (List.getElem_mem hi')) (show 2 ^ 64 = 256 ^ 8 from rfl))
  rw [hfield, hlow, Nat.zero_add, Nat.mul_comm] at hword
  rw [hword, List.getD_eq_getElem?_getD, List.getElem?_eq_getElem hi']
  rfl

theorem matchesPlan_storeQueue {queue : Option Radix.Segment} (hm : matchesPlan data plan = true) :
    matchesPlan (storeQueue data queue) plan = true := by
  cases queue with
  | none => exact hm
  | some queue => exact matchesPlan_store (by omega) (matchesPlan_store (by omega) hm)

theorem encode_prepared (h : encode lock input bindings = .ok data) : ∃ prepared,
    prepare lock input = .ok prepared ∧ matchesPlan data prepared.plan = true := by
  unfold encode at h
  simp only [bind_ok, reject_ok, need_ok, pure_ok] at h
  obtain ⟨prepared, hprepared, required, _, _, _, covered, _, _, _, _, _, _, _, _, _, _, _, _, _, _,
    _, root, _, rfl⟩ := h
  have hm := (prepare_matches hprepared).2
  refine ⟨prepared, hprepared, matchesPlan_storeQueue ?_⟩
  exact matchesPlan_store (by omega) (matchesPlan_store (by omega) (matchesPlan_store (by omega) hm))

end Wpr
end FirstBoot
end NvidiaGsp
