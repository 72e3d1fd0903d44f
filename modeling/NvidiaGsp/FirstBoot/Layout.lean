import NvidiaGsp.Falcon.Run
import NvidiaGsp.Lib.Parse
import NvidiaGsp.Lib.Rounding

/-!
# FirstBoot.Layout

The layout of the video memory for the first boot: the register snapshot (`fwsec_state.zig`) and the
regions that `gsp_layout.firstBoot` carves downwards from the VGA workspace. `limit` is `firstBoot` up
to the limit of the heap, `place` the rest of it.
-/

namespace NvidiaGsp
namespace FirstBoot

open Parse Rounding

/-- The errors of the snapshot, the layout, the boot image, the radix table and the metadata. -/
inductive Error where
  | MissingRegister | ProtectedRegister | Capacity | Framebuffer | WprRange
  | UnsupportedChip | WprActive | EngineState | ImageSize | Bounds | PrescrubbedCapacity
  | WrongSize | WrongHash | DescriptorVersion | UnsupportedDescriptor | Overlap
  | Segments | Address | Alignment | SignatureSize | CrashQueueSize
  deriving DecidableEq, Repr

/-! ## The register snapshot -/

inductive Register where
  | hwcfg | hwcfg2 | cpuctl | dmactl | dmacmd | engine | riscvCpuctl | bcr | fbMb | wprLo | wprHi
  | displayFuse | vga
  deriving DecidableEq, Repr

def Register.index : Register → Nat
  | .hwcfg => 0 | .hwcfg2 => 1 | .cpuctl => 2 | .dmactl => 3 | .dmacmd => 4 | .engine => 5
  | .riscvCpuctl => 6 | .bcr => 7 | .fbMb => 8 | .wprLo => 9 | .wprHi => 10 | .displayFuse => 11
  | .vga => 12

def registers : Nat := 13

structure Raw where
  values : Register → Word
  present : BitVec 16

def Raw.has (raw : Raw) (reg : Register) : Bool := raw.present.getLsbD reg.index

def Raw.get (raw : Raw) (reg : Register) : Parse Error Word := do
  reject (¬ raw.has reg) .MissingRegister
  reject (¬ Falcon.Run.readable (raw.values reg)) .ProtectedRegister
  pure (raw.values reg)

def Raw.riscvEnabled (raw : Raw) : Bool :=
  match raw.get .hwcfg2 with
  | .ok value => value &&& 0x400 ≠ 0
  | .error _ => false

def Raw.displayEnabled (raw : Raw) : Bool :=
  match raw.get .displayFuse with
  | .ok value => value &&& 1 = 0
  | .error _ => false

@[irreducible] def mb : Nat := 1024 * 1024

theorem mb_eq : mb = 1048576 := by
  unfold mb
  rfl

structure State where
  imemBytes : Word
  dmemBytes : Word
  resetAsserted : Bool
  resetReadyHint : Bool
  scrubbing : Bool
  falconHalted : Bool
  dmaIdle : Bool
  dmaFull : Bool
  riscvEnabled : Bool
  riscvSelected : Bool
  bcrValid : Bool
  riscvActive : Bool
  riscvHalted : Bool
  fbBytes : Nat
  wprUp : Bool
  wprLo : Nat
  wprHi : Nat
  displayEnabled : Bool
  vgaValid : Bool
  vgaBase : Nat
  vgaRelocationNeeded : Bool
  reservedBase : Nat

/-- A register that is read only where it is there. -/
def Raw.getIf (raw : Raw) (wanted : Bool) (reg : Register) : Parse Error Word :=
  if wanted then raw.get reg else pure 0

def decode (raw : Raw) : Parse Error State := do
  let hwcfg ← raw.get .hwcfg
  let hwcfg2 ← raw.get .hwcfg2
  let cpuctl ← raw.get .cpuctl
  let _ ← raw.get .dmactl
  let dmacmd ← raw.get .dmacmd
  let engine ← raw.get .engine
  let imem := (hwcfg &&& 0x1ff) <<< 8
  let dmem := (hwcfg &&& 0x3fe00) >>> 1
  reject (imem = 0 ∨ dmem = 0) .Capacity
  let riscv := raw.riscvEnabled
  let riscvCpu ← raw.getIf riscv .riscvCpuctl
  let bcr ← raw.getIf riscv .bcr
  let fbMb ← raw.get .fbMb
  let fb := fbMb.toNat * mb
  reject (fb < mb ∨ fb > 2 ^ 40) .Framebuffer
  let lo ← raw.get .wprLo
  let wprLo := lo.toNat / 16 * 4096
  let hi ← raw.get .wprHi
  let wprHi := hi.toNat / 16 * 4096
  let wprUp := wprHi ≠ 0
  reject (wprUp ∧ (wprLo > wprHi ∨ wprHi ≥ fb)) .WprRange
  let _ ← raw.get .displayFuse
  let display := raw.displayEnabled
  let vga ← raw.getIf display .vga
  let vgaValid : Bool := vga &&& 8 ≠ 0
  let vgaBase := vga.toNat / 256 * 65536
  reject (vgaValid ∧ vgaBase ≥ fb) .Framebuffer
  let top ← checked (mb ≤ fb) .overflow (fb - mb)
  pure {
    imemBytes := imem
    dmemBytes := dmem
    resetAsserted := engine &&& 1 ≠ 0
    resetReadyHint := hwcfg2 &&& 0x80000000 ≠ 0
    scrubbing := hwcfg2 &&& 0x1000 ≠ 0
    falconHalted := cpuctl &&& 0x10 ≠ 0
    dmaIdle := dmacmd &&& 2 ≠ 0
    dmaFull := dmacmd &&& 1 ≠ 0
    riscvEnabled := riscv
    riscvSelected := bcr &&& 0x10 ≠ 0
    bcrValid := bcr &&& 1 ≠ 0
    riscvActive := riscvCpu &&& 0x80 ≠ 0
    riscvHalted := riscvCpu &&& 0x10 ≠ 0
    fbBytes := fb
    wprUp := wprUp
    wprLo := wprLo
    wprHi := wprHi
    displayEnabled := display
    vgaValid := vgaValid
    vgaBase := vgaBase
    vgaRelocationNeeded := vgaValid ∧ vgaBase < top
    reservedBase := if vgaValid then vgaBase else top }

/-! ## The layout -/

def metadataBytes : Nat := 256
def prescrubbedBytes : Nat := 256 * mb
def minHeapBytes : Nat := 88 * mb
/-- `firmware.max_bytes`. -/
def maxImageBytes : Nat := 64 * 1024 * 1024

structure Range where
  offset : Nat
  bytes : Nat
  deriving DecidableEq, Repr

def Range.stop (r : Range) : Nat := r.offset + r.bytes

structure Plan where
  fbBytes : Nat
  currentVgaBase : Option Nat
  vgaRelocationRequired : Bool
  vga : Range
  prescrubbed : Range
  reserved : Range
  wpr : Range
  nonWprHeap : Range
  metadataReservation : Range
  heap : Range
  heapLimitBytes : Nat
  firmware : Range
  boot : Range
  frts : Range

def subtract (a b : Nat) : Parse Error Nat := do
  reject (a < b) .Bounds
  pure (a - b)

@[irreducible] def up (value alignment : Nat) : Parse Error Nat := do
  reject (value + (alignment - 1) ≥ 2 ^ 64) .Bounds
  pure (down (value + (alignment - 1)) alignment)

/-- What `firstBoot` has fixed when it knows the limit of the heap. -/
structure Limits where
  state : State
  vgaBase : Nat
  wprEnd : Nat
  frtsStart : Nat
  bootStart : Nat
  imageStart : Nat
  metadataReservation : Nat
  heapLimit : Nat

/-- Where the VGA workspace goes. -/
def State.vga (state : State) : Parse Error Nat :=
  if ¬ state.vgaValid then minus state.fbBytes mb
  else if state.vgaRelocationNeeded then minus state.fbBytes 0x20000
  else pure state.vgaBase

def limit (chipId : Nat) (raw : Raw) (imageBytes bootBytes : Nat) : Parse Error Limits := do
  reject (¬ Gsp.ga102Hal chipId) .UnsupportedChip
  reject (raw.present >>> registers ≠ 0) .MissingRegister
  let state ← decode raw
  reject state.wprUp .WprActive
  reject (state.resetAsserted ∨ state.scrubbing ∨ ¬ state.falconHalted ∨ ¬ state.dmaIdle ∨
    state.dmaFull ∨ ¬ state.riscvEnabled ∨ state.riscvSelected ∨ state.riscvActive ∨
    ¬ state.riscvHalted ∨ ¬ state.bcrValid) .EngineState
  reject (imageBytes = 0 ∨ imageBytes > maxImageBytes ∨ bootBytes = 0 ∨ bootBytes > mb) .ImageSize
  let fb := state.fbBytes
  reject (fb < prescrubbedBytes) .PrescrubbedCapacity
  let vgaBase ← state.vga
  let wprEnd := down vgaBase 0x20000
  let frtsStart ← subtract wprEnd mb
  let bootEnd ← subtract frtsStart bootBytes
  let bootStart := down bootEnd 0x1000
  let imageEnd ← subtract bootStart imageBytes
  let imageStart := down imageEnd 0x10000
  let metadataReservation ← up metadataBytes mb
  let anterior ← fits 64 (metadataReservation + mb)
  let behind ← minus fb imageStart
  let posterior ← up behind mb
  let around ← fits 64 (anterior + posterior)
  reject (around > prescrubbedBytes) .PrescrubbedCapacity
  let free ← minus prescrubbedBytes anterior
  let room ← minus free posterior
  let heapLimit := down room mb
  reject (heapLimit < minHeapBytes) .PrescrubbedCapacity
  pure {
    state := state
    vgaBase := vgaBase
    wprEnd := wprEnd
    frtsStart := frtsStart
    bootStart := bootStart
    imageStart := imageStart
    metadataReservation := metadataReservation
    heapLimit := heapLimit }

/-- The heap that the memory asks for, within its limits. -/
def requestedHeap (fb heapLimit : Nat) : Parse Error Nat := do
  let fbUp ← up fb (2 ^ 30)
  let perGb ← fits 64 (96 * 1024 * (fbUp / 2 ^ 30))
  let growing ← up perGb mb
  let calculated ← fits 64 (22 * mb + 8 * mb + growing + 96 * mb)
  pure (min (max calculated minHeapBytes) heapLimit)

def place (l : Limits) (imageBytes bootBytes : Nat) : Parse Error Plan := do
  let fb := l.state.fbBytes
  let requested ← requestedHeap fb l.heapLimit
  let heapEnd ← subtract l.imageStart requested
  let heapStart := down heapEnd mb
  let wprStart ← subtract heapStart l.metadataReservation
  let nonWprStart ← subtract wprStart mb
  let lowest ← minus fb prescrubbedBytes
  reject (nonWprStart < lowest) .PrescrubbedCapacity
  let vgaBytes ← minus fb l.vgaBase
  let reservedBytes ← minus fb nonWprStart
  let wprBytes ← minus l.wprEnd wprStart
  let heapBytes ← minus l.imageStart heapStart
  pure {
    fbBytes := fb
    currentVgaBase := if l.state.vgaValid then some l.state.vgaBase else none
    vgaRelocationRequired := l.state.vgaRelocationNeeded
    vga := ⟨l.vgaBase, vgaBytes⟩
    prescrubbed := ⟨lowest, prescrubbedBytes⟩
    reserved := ⟨nonWprStart, reservedBytes⟩
    wpr := ⟨wprStart, wprBytes⟩
    nonWprHeap := ⟨nonWprStart, mb⟩
    metadataReservation := ⟨wprStart, l.metadataReservation⟩
    heap := ⟨heapStart, down heapBytes mb⟩
    heapLimitBytes := l.heapLimit
    firmware := ⟨l.imageStart, imageBytes⟩
    boot := ⟨l.bootStart, bootBytes⟩
    frts := ⟨l.frtsStart, mb⟩ }

def firstBoot (chipId : Nat) (raw : Raw) (imageBytes bootBytes : Nat) : Parse Error Plan := do
  let l ← limit chipId raw imageBytes bootBytes
  place l imageBytes bootBytes

end FirstBoot
end NvidiaGsp
