import NvidiaGsp.Gsp.Message
import NvidiaGsp.Vm.Page

/-!
# Virtual.Wire

The messages that allocate and free a virtual range (`gsp_virtual_wire.zig`): the checks of a
requested allocation, its encoding, and the reading of the firmware's answer. Only the inner status
of an answer proves a rejection; every other deviation is an error of the exchange.
-/

namespace NvidiaGsp
namespace Virtual

open Gsp Bytes

structure Encoded where
  function : Word
  bytes : List Byte

inductive Reply where
  | ok (address : Nat)
  | rejected (status : Word)
  deriving DecidableEq

inductive Location where
  | system | video
  deriving DecidableEq, Repr

structure Layout where
  kind : Word
  memoryType : Word
  attributes : Word

def layout (blocklinear : Bool) (pteKind : Nat) : Except Error Layout :=
  let kind := if pteKind ≠ 0 then pteKind else if blocklinear then 6 else 0
  let tile : Word := 2 <<< 16
  match kind with
  | 0 => .ok ⟨0, 6, 0⟩
  | 1 => .ok ⟨1, 1, tile ||| 2 ||| (7 <<< 19)⟩
  | 2 => .ok ⟨2, 16, tile ||| 1⟩
  | 3 => .ok ⟨3, 1, tile ||| 4 ||| (1 <<< 19)⟩
  | 4 => .ok ⟨4, 1, tile ||| 5 ||| (1 <<< 18) ||| (5 <<< 19)⟩
  | 5 => .ok ⟨5, 1, tile ||| 4⟩
  | 6 => .ok ⟨6, 6, tile⟩
  | _ => .error .Profile

def systemAttributes : Word := 0x22800000
def systemGpuCache : Word := 8

/-- `vaspace.Info`; `host` says that the space is managed by the host's own tables. -/
structure Space where
  epoch : Nat
  client : Nat
  device : Nat
  handle : Nat
  base : Nat
  bytes : Nat
  host : Bool := false
  deriving DecidableEq

structure Allocation where
  space : Space
  object : Nat
  bytes : Nat
  alignment : Nat := 4096
  fixedAddress : Nat := 0
  location : Location := .system
  blocklinear : Bool := false
  pteKind : Nat := 0
  privileged : Bool := false
  deriving DecidableEq

namespace Allocation

def validateAddress (a : Allocation) (address : Nat) : Except Error Unit :=
  let s := a.space
  if a.alignment = 0 ∨ a.bytes > s.bytes ∨ address < s.base ∨ address % a.alignment ≠ 0 ∨
      address - s.base > s.bytes - a.bytes ∨ (a.fixedAddress ≠ 0 ∧ address ≠ a.fixedAddress) then
    .error .Bounds
  else .ok ()

def validate (a : Allocation) : Except Error Unit := do
  let _ ← layout a.blocklinear a.pteKind
  let s := a.space
  if s.epoch = 0 ∨ s.client = 0 ∨ s.device = 0 ∨ s.handle = 0 ∨ a.object = 0 then .error .Handle
  else if s.client = s.device ∨ s.client = s.handle ∨ s.device = s.handle then .error .Handle
  else if a.object = s.client ∨ a.object = s.device ∨ a.object = s.handle then .error .Handle
  else if s.base = 0 ∨ (s.base ||| s.bytes) &&& 4095 ≠ 0 ∨ s.bytes < 4096 ∨ s.base ≥ Vm.vaLimit ∨
      s.bytes > Vm.vaLimit - s.base ∨ a.bytes = 0 ∨ a.bytes &&& 4095 ≠ 0 ∨ a.bytes > s.bytes ∨
      a.alignment < 4096 ∨ a.alignment > s.bytes ∨ a.alignment &&& (a.alignment - 1) ≠ 0 then
    .error .Bounds
  else if a.fixedAddress ≠ 0 then a.validateAddress a.fixedAddress
  else .ok ()

end Allocation

/-- `writeInt` of 32 and of 64 bits. -/
def field (at_ value : Nat) : List (Nat × Word) := [(at_, BitVec.ofNat 32 value)]

def wide (at_ value : Nat) : List (Nat × Word) :=
  [(at_, BitVec.ofNat 32 value), (at_ + 4, BitVec.ofNat 32 (value / 2 ^ 32))]

def long (bytes : List Byte) (at_ : Nat) : Nat :=
  (word bytes at_).toNat + 2 ^ 32 * (word bytes (at_ + 4)).toNat

/-- The words of an allocation request; the parameters start at byte 32. -/
def allocationFields (a : Allocation) (image : Layout) : List (Nat × Word) :=
  let flags : Word := 0x88100 ||| (if a.fixedAddress ≠ 0 then 0x10 else 0) |||
    (if a.privileged then 0x08000000 else 0)
  field 0 a.space.client ++ field 4 a.space.device ++ field 8 a.object ++ field 12 0x50a0 ++
  field 20 128 ++
  [(32, 0xdeaf000c), (36, image.memoryType), (40, flags),
    (56, (if a.location = .system then systemAttributes else 0x00800000) ||| image.attributes),
    (60, if a.location = .system then systemGpuCache else 4), (64, image.kind)] ++
  wide 96 a.bytes ++ wide 104 a.alignment ++ wide 112 a.fixedAddress ++ field 140 a.space.handle

def allocate (a : Allocation) : Except Error Encoded := do
  a.validate
  let image ← layout a.blocklinear a.pteKind
  pure ⟨103, putAll (List.replicate 160 0) (allocationFields a image)⟩

def free (a : Allocation) : Except Error Encoded := do
  a.validate
  pure ⟨10, putAll (List.replicate 16 0) (field 0 a.space.client ++ field 8 a.object)⟩

/-! ## Answers -/

/-- The inner status of an answer to `request`. -/
def receipt (record : Record) (request : Encoded) (statusAt : Nat) (shortAllocate : Bool) :
    Except Error Word :=
  let data := record.payload
  if record.rpc.function ≠ request.function ∨ record.rpc.cpuRmGfid ≠ 0 then .error .Unexpected
  else if record.rpc.result = pendingResult then .error .Payload
  else if record.rpc.result ≠ 0 then .error .FirmwareResult
  else if data.length ≠ request.bytes.length ∧ ¬ (shortAllocate = true ∧ data.length = 32) then
    .error .Payload
  else if (List.range (min data.length 32)).any fun i =>
      !(decide (statusAt ≤ i) && decide (i < statusAt + 4)) &&
        data.getD i 0 != request.bytes.getD i 0 then .error .Unexpected
  else .ok (word data statusAt)

def allocationAttributes (request response : List Byte) (isVirtual : Bool) : Except Error Unit :=
  if request.length ≠ 128 ∨ response.length ≠ 128 then .error .Payload else
  let before := word request 24
  let after := word response 24
  let physicalityMask : Word := 3 <<< 27
  let locationMask : Word := 3 <<< 25
  let allowed := physicalityMask ||| if isVirtual then locationMask else 0
  let physicality := after &&& physicalityMask
  let attr2Before := word request 28
  let attr2After := word response 28
  let kindBefore := word request 32
  let kindAfter := word response 32
  let memoryType := word request 4
  if before &&& ~~~allowed ≠ after &&& ~~~allowed then .error .Payload
  else if isVirtual = true ∧ (after &&& locationMask ≠ before &&& locationMask ∧
      after &&& locationMask ≠ locationMask ∨
      physicality ≠ before &&& physicalityMask ∧ physicality ≠ 2 <<< 27) then .error .Payload
  else if isVirtual = false ∧ (physicality ≠ 1 <<< 27 ∧ physicality ≠ 2 <<< 27 ∨
      before &&& physicalityMask = 2 <<< 27 ∧ physicality ≠ 2 <<< 27) then .error .Payload
  else if attr2After ≠ attr2Before ∧ ¬ (attr2Before &&& 3 = 0 ∧ attr2After = attr2Before ||| 1) then
    .error .Payload
  else if kindAfter ≠ kindBefore ∧ ¬ (kindBefore = 0 ∧ kindAfter = 6 ∧ before &&& (3 <<< 12) = 0 ∧
      (memoryType = 0 ∨ memoryType = 5 ∨ memoryType = 6 ∨ memoryType = 8)) then .error .Payload
  else .ok ()

/-- The address an allocation got. The range limits may stay zero. -/
def allocationParameters (space : Space) (request response : List Byte) : Except Error Nat := do
  allocationAttributes request response true
  if (List.range response.length).any fun i =>
      !(decide (24 ≤ i ∧ i < 36) || decide (48 ≤ i ∧ i < 64) || decide (80 ≤ i ∧ i < 96)) &&
        response.getD i 0 != request.getD i 0 then .error .Payload
  else
    let bytes := long request 64
    let alignment := long request 72
    let address := long response 80
    let fixed : Bool := word request 8 &&& 0x10 ≠ 0
    let lo := long response 48
    let hi := long response 56
    if bytes = 0 ∨ bytes > space.bytes ∨ alignment < 4096 ∨ alignment &&& (alignment - 1) ≠ 0 ∨
        long response 88 ≠ bytes - 1 ∨ address < space.base ∨ address % alignment ≠ 0 ∨
        address - space.base > space.bytes - bytes then .error .Bounds
    else if fixed = true ∧ address ≠ long request 80 then .error .Bounds
    else if (lo ≠ 0 ∨ hi ≠ 0) ∧ (lo < space.base ∨ lo > address ∨ lo &&& 4095 ≠ 0 ∨
        hi &&& 4095 ≠ 4095 ∨ hi < address ∨ hi - address < bytes - 1 ∨ hi - space.base ≥ space.bytes ∨
        fixed = true ∧ (lo ≠ address ∨ hi - address ≠ bytes - 1)) then .error .Bounds
    else .ok address

def allocated (a : Allocation) (record : Record) : Except Error Reply := do
  let request ← allocate a
  let status ← receipt record request 16 true
  if status ≠ 0 then .ok (.rejected status)
  else if record.payload.length ≠ 160 then .error .Payload
  else
    let address ← allocationParameters a.space (request.bytes.drop 32) (record.payload.drop 32)
    a.validateAddress address
    pure (.ok address)

def freed (a : Allocation) (record : Record) : Except Error Reply := do
  let request ← free a
  let status ← receipt record request 12 false
  if status = 0 then pure (.ok 0) else pure (.rejected status)

/-! ## What the checks give -/

/-- The bounds of a request that passed its checks. -/
structure Allocation.Bounded (a : Allocation) : Prop where
  bytes : 0 < a.bytes ∧ a.bytes &&& 4095 = 0
  low : 4096 ≤ a.alignment
  high : a.alignment ≤ Vm.vaLimit
  power : a.alignment &&& (a.alignment - 1) = 0
  fixed : a.alignment ∣ a.fixedAddress

theorem Allocation.validate_bounded {a : Allocation} (h : a.validate = .ok ()) : a.Bounded := by
  unfold Allocation.validate at h
  cases hl : layout a.blocklinear a.pteKind with
  | error e =>
    rw [hl] at h
    cases h
  | ok image =>
    rw [hl] at h
    change (if _ then _ else _) = _ at h
    split at h
    · cases h
    split at h
    · cases h
    split at h
    · cases h
    split at h
    · cases h
    rename_i hbounds
    have hfixed : a.alignment ∣ a.fixedAddress := by
      split at h
      · unfold Allocation.validateAddress at h
        dsimp only at h
        split at h
        · cases h
        · rename_i hplace
          apply Nat.dvd_of_mod_eq_zero
          by_contra hmod
          exact hplace (by simp [hmod])
      · rename_i hzero
        have hzero : a.fixedAddress = 0 := by simpa using hzero
        rw [hzero]
        exact Nat.dvd_zero _
    simp only [not_or, not_le, not_lt, ne_eq, not_not] at hbounds
    obtain ⟨-, -, -, -, hspace, hpos, hpage, -, hlow, hhigh, hpower⟩ := hbounds
    exact ⟨⟨Nat.pos_of_ne_zero hpos, hpage⟩, hlow, by omega, hpower, hfixed⟩

/-- An answer that echoes the request around a non-zero status rejects it. -/
theorem allocated_rejected {a : Allocation} {request : Encoded} {record : Record} {status : Word}
    (ha : allocate a = .ok request) (hrpc : record.rpc.function = request.function ∧
      record.rpc.cpuRmGfid = 0 ∧ record.rpc.result = 0) (hlen : request.bytes.length = 160)
    (hpayload : record.payload = put request.bytes 16 status) (hs : status ≠ 0) :
    allocated a record = .ok (.rejected status) := by
  obtain ⟨hfunction, hguest, hresult⟩ := hrpc
  have hin : 16 + 4 ≤ request.bytes.length := by omega
  have hword : word record.payload 16 = status := by rw [hpayload, word_put_same hin]
  have hsame : record.payload.length = request.bytes.length := by rw [hpayload, length_put hin]
  have hecho : (List.range (min record.payload.length 32)).any (fun i =>
      !(decide (16 ≤ i) && decide (i < 16 + 4)) &&
        record.payload.getD i 0 != request.bytes.getD i 0) = false := by
    rw [List.any_eq_false]
    intro i _
    by_cases hi : 16 ≤ i ∧ i < 20
    · simp [hi.1, hi.2]
    · have heq : record.payload.getD i 0 = request.bytes.getD i 0 := by
        rw [hpayload, put, getD_blit (by simpa using hin), if_neg (by simpa using hi)]
      simp only [heq, bne_self_eq_false, Bool.and_false, Bool.false_eq_true, not_false_eq_true]
  have hreceipt : receipt record request 16 true = .ok status := by
    unfold receipt
    dsimp only
    rw [if_neg (by simp [hfunction, hguest]), if_neg (by rw [hresult]; decide),
      if_neg (by simp [hresult]), if_neg (by simp [hsame]), hecho, hword]
    rfl
  unfold allocated
  rw [ha]
  change (do let s ← receipt record request 16 true; if s ≠ 0 then _ else _) = _
  rw [hreceipt]
  exact if_pos hs

end Virtual
end NvidiaGsp
