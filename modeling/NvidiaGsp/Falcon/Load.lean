import NvidiaGsp.Falcon.Device
import NvidiaGsp.Gsp.Message
import NvidiaGsp.Rom.Fwsec

/-!
# Falcon.Load

The plan of one upload: for a prepared FWSEC image (`fwsec_load.zig`) and for a prepared Booter image
(`booter.zig`), and the check every plan passes before it is executed (`falcon_hs.zig`).
-/

namespace NvidiaGsp
namespace Falcon

def dmaMask : Nat := 2 ^ 49 - 1
def maxU32 : Nat := 2 ^ 32 - 1
def signatureBytes : Nat := 384

/-- Some address or size is off the 256-byte grid. -/
def misaligned (values : List Nat) : Bool := values.any fun v => v % blockBytes != 0

structure Transfer where
  base : Nat
  destination : Nat
  sourceOffset : Nat
  bytes : Nat
  command : Word
  deriving DecidableEq, Repr

structure Plan where
  imem : Transfer
  dmem : Transfer
  bootVector : Nat
  signatureAddress : Nat
  engineMask : Nat
  ucodeId : Nat
  deriving DecidableEq, Repr

def imemCommand : Word := 0x614
def dmemCommand : Word := 0x600

/-! ## FWSEC -/

/-- `fwsec_prepare.Prepared`: the selected entry, and the size and command of its image. -/
structure Prepared where
  entry : Fwsec.Entry
  bytes : Nat
  command : Nat

def supported (entry : Fwsec.Entry) : Prop :=
  (entry.application = 0x45 ∨ entry.application = 0x85) ∧ entry.target = 7 ∧
    entry.descriptorVersion = 3 ∧ entry.flags = 1 ∧ entry.engineMask = 0x400 ∧
    entry.ucodeId ≥ 1 ∧ entry.ucodeId ≤ 16

instance {entry : Fwsec.Entry} : Decidable (supported entry) := by
  unfold supported
  infer_instance

/-- `fwsec_load.plan`. -/
def plan (prepared : Prepared) (address bytes : Nat) : Except Error Plan :=
  let entry := prepared.entry
  if ¬ supported entry then .error .Unsupported
  else if prepared.command ≠ 0x19 ∧ prepared.command ≠ 0x15 then .error .Unsupported
  else if bytes = 0 ∨ bytes ≠ prepared.bytes ∨ bytes ≠ entry.image.bytes then .error .Bounds
  else if address = 0 ∨ address > dmaMask ∨ bytes - 1 > dmaMask - address then .error .Address
  else if misaligned [address, bytes, entry.code.bytes, entry.data.bytes, entry.imemPa, entry.imemVa,
      entry.dmemPa] then .error .Alignment
  else if entry.code.bytes = 0 ∨ entry.data.bytes = 0 ∨ entry.code.offset ≠ entry.image.offset ∨
      entry.code.offset + entry.code.bytes ≠ entry.data.offset ∨
      entry.code.bytes + entry.data.bytes > bytes then .error .Layout
  else if entry.imemPa + entry.code.bytes > 0x1000000 ∨ entry.dmemPa + entry.data.bytes > 0x1000000 ∨
      entry.imemVa + entry.code.bytes > maxU32 + 1 then .error .Bounds
  else if entry.imemVa > address then .error .Address
  else if entry.signatureSlot.offset < entry.data.offset ∨
      entry.signatureSlot.bytes ≠ signatureBytes ∨
      entry.signatureSlot.offset + signatureBytes > entry.data.offset + entry.data.bytes then
    .error .Bounds
  else .ok {
    imem := { base := address - entry.imemVa, destination := entry.imemPa,
              sourceOffset := entry.imemVa, bytes := entry.code.bytes, command := imemCommand }
    dmem := { base := address + entry.code.bytes, destination := entry.dmemPa, sourceOffset := 0,
              bytes := entry.data.bytes, command := dmemCommand }
    bootVector := entry.imemVa
    signatureAddress := entry.signatureSlot.offset - entry.data.offset
    engineMask := entry.engineMask
    ucodeId := entry.ucodeId }

/-! ## Booter -/

structure Info where
  imageBytes : Nat
  codeOffset : Nat
  codeBytes : Nat
  dataOffset : Nat
  dataBytes : Nat
  signatureOffset : Nat

/-- `booter.Prepared`: the layout of the image and the signature its fuses select. -/
structure Booter where
  info : Info
  fuseVersion : Nat
  signatureIndex : Nat

/-- `booter.loadPlan`. -/
def loadPlan (prepared : Booter) (address bytes : Nat) : Except Error Plan :=
  let info := prepared.info
  let dataEnd := info.dataOffset + info.dataBytes
  if bytes = 0 ∨ bytes ≠ info.imageBytes ∨ info.codeOffset + info.codeBytes ≠ info.dataOffset ∨
      dataEnd > bytes ∨ bytes - dataEnd > 256 ∨ info.codeOffset ≠ 256 ∨ info.codeBytes = 0 ∨
      info.dataBytes = 0 ∨ info.dataOffset + 16 ≠ info.signatureOffset ∨
      info.signatureOffset + signatureBytes ≥ dataEnd then .error .Layout
  else if address = 0 ∨ address > dmaMask ∨ bytes - 1 > dmaMask - address then .error .Address
  else if misaligned [address, bytes, info.codeBytes, info.dataBytes, info.dataOffset] then
    .error .Alignment
  else if info.codeBytes > 0x1000000 ∨ info.dataBytes > 0x1000000 ∨ prepared.fuseVersion > 1 ∨
      prepared.signatureIndex ≠ 1 - prepared.fuseVersion then .error .Profile
  else .ok {
    imem := { base := address, destination := 0, sourceOffset := 256, bytes := info.codeBytes,
              command := imemCommand }
    dmem := { base := address + info.dataOffset, destination := 0, sourceOffset := 0,
              bytes := info.dataBytes, command := dmemCommand }
    bootVector := 256
    signatureAddress := 16
    engineMask := 1
    ucodeId := 3 }

/-! ## The check of an upload -/

def bootId (boot0 : Word) : Nat :=
  (boot0.toNat >>> 20 &&& 0x1ff) ||| ((boot0.toNat &&& 0x100) <<< 1)

/-- `falcon_hs.Options`. -/
structure Options where
  engine : Engine
  boot0 : Word
  epoch : Nat
  deadline : Nat
  plan : Plan
  imemCapacity : Nat
  dmemCapacity : Nat
  mailboxes : Option Word × Option Word := (none, none)
  deriving DecidableEq

/-- The check of one transfer against the capacity of its memory. -/
def validateTransfer (transfer : Transfer) (capacity : Nat) : Except Error Unit :=
  if capacity = 0 ∨ capacity > 0x1000000 ∨ capacity % 256 ≠ 0 ∨ transfer.bytes = 0 ∨
      transfer.bytes % 256 ≠ 0 ∨ transfer.bytes > capacity then .error .Capacity
  else if transfer.base = 0 ∨ transfer.base % 256 ≠ 0 ∨ transfer.base > dmaMask ∨
      transfer.sourceOffset > dmaMask - transfer.base ∨
      transfer.bytes - 1 > dmaMask - transfer.base - transfer.sourceOffset then .error .Address
  else if transfer.sourceOffset + transfer.bytes > maxU32 + 1 then .error .Address
  else .ok ()

def validate (options : Options) : Except Error Unit :=
  let plan := options.plan
  let gsp : Bool := options.engine = .gsp
  if options.epoch = 0 ∨ options.deadline = 0 ∨ options.deadline = maxU64 then .error .Options
  else if ¬ Gsp.ga102Hal (bootId options.boot0) then .error .Profile
  else if plan.ucodeId ≠ (if gsp then 9 else 3) ∨ plan.engineMask ≠ (if gsp then 0x400 else 1) ∨
      plan.imem.command ≠ imemCommand ∨ plan.dmem.command ≠ dmemCommand ∨
      plan.imem.destination ≠ 0 ∨ plan.dmem.destination ≠ 0 ∨ plan.dmem.sourceOffset ≠ 0 ∨
      plan.imem.sourceOffset ≠ (if gsp then 0 else 256) ∨
      plan.bootVector ≠ plan.imem.sourceOffset then .error .Profile
  else do
    validateTransfer plan.imem options.imemCapacity
    validateTransfer plan.dmem options.dmemCapacity
    if plan.imem.base + plan.imem.sourceOffset + plan.imem.bytes ≠ plan.dmem.base ∨
        plan.signatureAddress % 4 ≠ 0 ∨ plan.signatureAddress + 384 > plan.dmem.bytes then
      .error .Layout
    else .ok ()

/-! ## What they promise -/

/-- A transfer whose addresses fit the registers of the DMA engine. -/
structure Transfer.Fits (t : Transfer) : Prop where
  some : 0 < t.bytes
  blocks : t.bytes % blockBytes = 0
  aligned : t.base % blockBytes = 0
  destination : t.destination + t.bytes ≤ 2 ^ 24
  sourceOffset : t.sourceOffset + t.bytes ≤ 2 ^ 32
  base : t.base + t.sourceOffset + t.bytes ≤ 2 ^ 49

/-- A plan both of whose transfers fit, each for its own memory. -/
structure Plan.Valid (p : Plan) : Prop where
  imem : p.imem.Fits
  dmem : p.dmem.Fits
  imemCommand : p.imem.command = Falcon.imemCommand
  dmemCommand : p.dmem.command = Falcon.dmemCommand
  imemDestination : p.imem.destination = 0
  dmemDestination : p.dmem.destination = 0

/-- What passes a check that refuses a condition. -/
theorem ok_of_ite {α : Type} {c : Prop} [Decidable c] {e : Error} {x : Except Error α} {v : α}
    (h : (if c then .error e else x) = .ok v) : ¬ c ∧ x = .ok v := by
  by_cases hc : c
  · rw [if_pos hc] at h
    cases h
  · rw [if_neg hc] at h
    exact ⟨hc, h⟩

theorem transfer_fits {t : Transfer} {capacity : Nat} (h : validateTransfer t capacity = .ok ())
    (hd : t.destination = 0) : t.Fits := by
  unfold validateTransfer dmaMask maxU32 at h
  obtain ⟨h₁, h⟩ := ok_of_ite h
  obtain ⟨h₂, h⟩ := ok_of_ite h
  obtain ⟨h₃, -⟩ := ok_of_ite h
  refine ⟨?_, ?_, ?_, ?_, ?_, ?_⟩
  · omega
  · show t.bytes % 256 = 0
    omega
  · show t.base % 256 = 0
    omega
  all_goals omega

/-- What `validate` accepts is valid. -/
theorem validate_valid {options : Options} (h : validate options = .ok ()) : options.plan.Valid := by
  unfold validate at h
  obtain ⟨-, h⟩ := ok_of_ite h
  obtain ⟨-, h⟩ := ok_of_ite h
  obtain ⟨hp, h⟩ := ok_of_ite h
  simp only [not_or, Decidable.not_not, ne_eq] at hp
  obtain ⟨-, -, hic, hdc, hid, hdd, -⟩ := hp
  cases hi : validateTransfer options.plan.imem options.imemCapacity with
  | error e =>
    rw [hi] at h
    cases h
  | ok _ =>
    rw [hi] at h
    cases hm : validateTransfer options.plan.dmem options.dmemCapacity with
    | error e =>
      rw [hm] at h
      cases h
    | ok _ => exact ⟨transfer_fits hi hid, transfer_fits hm hdd, hic, hdc, hid, hdd⟩

/-- A plan made for an image at an address, with its code and its data at their offsets. -/
inductive Planned (address bytes : Nat) : Plan → Nat → Nat → Prop where
  | fwsec {prepared : Prepared} {p : Plan} (h : plan prepared address bytes = .ok p) :
    Planned address bytes p (prepared.entry.code.offset - prepared.entry.image.offset)
      (prepared.entry.data.offset - prepared.entry.image.offset)
  | booter {prepared : Booter} {p : Plan} (h : loadPlan prepared address bytes = .ok p) :
    Planned address bytes p prepared.info.codeOffset prepared.info.dataOffset

/-- Where a plan's transfers read from: code and data follow each other in the image. -/
structure Tiles (address bytes : Nat) (p : Plan) (code data : Nat) : Prop where
  imem : p.imem.base + p.imem.sourceOffset = address + code
  dmem : p.dmem.base + p.dmem.sourceOffset = address + data
  contiguous : code + p.imem.bytes = data
  within : data + p.dmem.bytes ≤ bytes

theorem planned_tiles {address bytes code data : Nat} {p : Plan}
    (h : Planned address bytes p code data) : Tiles address bytes p code data := by
  cases h with
  | fwsec h =>
    unfold plan at h
    dsimp only at h
    repeat' (split at h; · cases h)
    rename_i _ _ _ _ _ hlayout _ hva _
    obtain rfl := Except.ok.inj h
    constructor <;> dsimp only <;> omega
  | booter h =>
    unfold loadPlan at h
    dsimp only at h
    repeat' (split at h; · cases h)
    rename_i hlayout _ _ _
    obtain rfl := Except.ok.inj h
    constructor <;> dsimp only <;> omega

end Falcon
end NvidiaGsp
