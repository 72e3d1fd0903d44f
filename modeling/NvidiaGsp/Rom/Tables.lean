import NvidiaGsp.Lib.Parse

/-!
# Rom.Tables

The tables of a video BIOS that have readers of their own: communication and connector entries
(`vbios_topology.zig`), the internal GPIO table (`vbios_gpio.zig`) and the external one behind it
(`vbios_xpio.zig`). The readers copy what they accept.
-/

namespace NvidiaGsp
namespace Vbios

open Parse

inductive Error where
  | Bounds | Signature | Version | Checksum | Limit | Identity | Missing | Duplicate | Overlap
  | Reference | Unsupported
  /-- `Limit`, of `Ranges.add`. -/
  | RangesLimit
  deriving DecidableEq, Repr

def span (bytes : Slice) (offset length : Nat) : Parse Error Slice := do
  reject (offset > bytes.len ∨ length > bytes.len - offset) .Bounds
  part bytes offset length

/-- An element of an array. -/
def elementAt {α : Type} (xs : List α) (i : Nat) (default : α) : Parse Error α :=
  checked (i < xs.length) .bounds (xs.getD i default)

/-- A byte that is there under a condition. -/
def byteIf (c : Prop) [Decidable c] (bytes : Slice) (i : Nat) : Parse Error (Option Nat) :=
  if c then do
    let b ← byteAt bytes i
    return some b
  else return none

/-! ## Topology -/

def topologyEntries : Nat := 16

structure Communication where
  index : Nat := 0
  entryBytes : Nat := 0
  raw : Nat := 0
  i2c : Option Nat := none
  aux : Option Nat := none
  speedCode : Nat := 0
  maxI2cHz : Option Nat := none
  reservedBits : Nat := 0
  displayPaths : Nat := 0
  connectorMask : Nat := 0
  deriving DecidableEq, Repr

structure Connector where
  index : Nat := 0
  entryBytes : Nat := 0
  raw : Nat := 0
  kind : Nat := 0xff
  location : Nat := 0
  hpdMask : Nat := 0
  dpDviMask : Nat := 0
  muxMask : Option Nat := none
  selfRefresh : Option Bool := none
  lcdId : Option Nat := none
  reservedBits : Nat := 0
  displayPaths : Nat := 0
  heads : Nat := 0
  encoderMask : Nat := 0
  padMask : Nat := 0
  logicalBusMask : Nat := 0
  ccbMask : Nat := 0
  deriving DecidableEq, Repr

def i2cSpeed : Nat → Option Nat
  | 1 => some 100000
  | 2 => some 200000
  | 3 => some 400000
  | 4 => some 800000
  | 5 => some 1600000
  | 6 => some 3400000
  | 7 => some 60000
  | 8 => some 300000
  | _ => none

def communication (index : Nat) (bytes : Slice) : Parse Error Communication := do
  reject (index ≥ topologyEntries ∨ bytes.len < 4 ∨ bytes.len > 16) .Bounds
  let raw ← u32At bytes 0
  let drive ← cast 8 (raw &&& 31)
  let aux ← cast 8 ((raw >>> 5) &&& 31)
  let speed ← cast 8 (raw >>> 28)
  let entryBytes ← cast 8 bytes.len
  return {
    index := index
    entryBytes := entryBytes
    raw := raw
    i2c := if drive = 31 then none else some drive
    aux := if aux = 31 then none else some aux
    speedCode := speed
    maxI2cHz := i2cSpeed speed
    reservedBits := raw &&& 0x0ffffc00 }

/-- The bytes of a short record as a word. -/
def shortWord (bytes : Slice) (i : Nat) (raw : Nat) : Nat := raw ||| (bytes.get i <<< (8 * i))

def connector (index : Nat) (bytes : Slice) : Parse Error Connector := do
  reject (index ≥ topologyEntries ∨ bytes.len < 2 ∨ bytes.len > 16) .Bounds
  let raw ← (List.range (min bytes.len 4)).foldlM (fun raw i => do
    let _ ← byteAt bytes i
    let _ ← cast 5 (8 * i)
    return shortWord bytes i raw) 0
  let entryBytes ← cast 8 bytes.len
  let kind ← byteAt bytes 0
  let place ← byteAt bytes 1
  let short : Connector := {
    index := index
    entryBytes := entryBytes
    raw := raw
    kind := kind
    location := place &&& 15
    hpdMask := (place >>> 4) &&& 3
    dpDviMask := place >>> 6 }
  if bytes.len ≥ 4 then do
    let third ← byteAt bytes 2
    let fourth ← byteAt bytes 3
    return { short with
      hpdMask := short.hpdMask ||| ((third &&& 3) <<< 2 ||| (fourth &&& 7) <<< 4)
      dpDviMask := short.dpDviMask ||| (third &&& 12)
      muxMask := some (third >>> 4)
      selfRefresh := some (fourth &&& 8 != 0)
      lcdId := some ((fourth >>> 4) &&& 7)
      reservedBits := raw &&& 0x80000000 }
  else return short

/-! ## Internal GPIO -/

namespace Gpio

def maxEntries : Nat := 255
def hpdFunctions : List Nat := [7, 8, 81, 82, 94, 95, 96]

structure Entry where
  raw : Nat
  extra : Option Nat
  extensionByte : Option Nat
  line : Nat
  function : Nat
  dedicatedLock : Bool
  initializeOn : Option Bool
  outputSelect : Option Nat
  inputSelect : Option Nat
  gsync : Option Bool
  lockPin : Option Nat
  off : Nat
  on : Nat
  pwm : Bool
  reservedBits : Nat
  deriving DecidableEq, Repr

def Entry.inputPolarity (e : Entry) : Option Bool :=
  if e.dedicatedLock = true ∨ e.off &&& 2 = 0 ∨ e.on &&& 2 = 0 ∨ e.off = e.on then none
  else if e.lockPin.any (· != 15) then none
  else some (e.on &&& 1 != 0)

inductive Status where
  | missing | ambiguous | invalidInput | mapped
  deriving DecidableEq, Repr

structure Hpd where
  function : Nat := 0
  status : Status := .missing
  hits : Nat := 0
  entryIndex : Option Nat := none
  line : Option Nat := none
  activeHigh : Option Bool := none
  deriving DecidableEq, Repr

structure Catalog where
  offset : Nat := 0
  version : Nat := 0
  headerBytes : Nat := 0
  entryBytes : Nat := 0
  count : Nat := 0
  byteLength : Nat := 0
  externalTableOffset : Option Nat := none
  raw : List Slice := []
  hpd : List Hpd := []

def supportedStride (version bytes : Nat) : Bool :=
  if version = 0x41 then bytes == 5 || bytes == 6 else bytes == 4

def decode (version : Nat) (bytes : Slice) : Parse Error Entry := do
  reject (version ≠ 0x40 ∧ version ≠ 0x41) .Version
  reject (supportedStride version bytes.len = false) .Bounds
  let raw ← u32At bytes 0
  let modern := version == 0x41
  let extra ← byteIf (modern = true) bytes 4
  let extension ← byteIf (bytes.len = 6) bytes 5
  let line ← cast 8 (raw &&& (if modern = true then 63 else 31))
  let inputSelect ← cast 8 ((raw >>> 24) &&& 31)
  let off ← cast 2 (if modern = true then (extra.getD 0 >>> 4) &&& 3 else (raw >>> 27) &&& 3)
  let on ← cast 2 (if modern = true then extra.getD 0 >>> 6 else (raw >>> 29) &&& 3)
  return {
    raw := raw
    extra := extra
    extensionByte := extension
    line := line
    function := (raw >>> 8) % 256
    dedicatedLock := modern && (raw &&& 64 != 0)
    initializeOn := if modern = true then some (raw &&& 128 != 0) else none
    outputSelect := if modern = true then some ((raw >>> 16) % 256) else none
    inputSelect := if modern = true then some inputSelect else none
    gsync := if modern = true then some (raw &&& 0x20000000 != 0) else none
    lockPin := if modern = true then some (extra.getD 0 &&& 15) else none
    off := off
    on := on
    pwm := raw &&& 0x80000000 != 0
    reservedBits := if modern = true then raw &&& 0x40000000 else 0 }

/-- `Catalog.entry`. -/
def Catalog.entry (c : Catalog) (index : Nat) : Parse Error Entry := do
  reject (index ≥ c.count) .Bounds
  reject (c.entryBytes > 6) .Limit
  let row ← elementAt c.raw index ⟨0, fun _ => 0⟩
  let bytes ← part row 0 c.entryBytes
  decode c.version bytes

/-- One entry against the function that is looked for. -/
def Hpd.note (signal : Hpd) (index : Nat) (item : Entry) : Parse Error Hpd :=
  if item.function ≠ signal.function then return signal
  else do
    let hits ← fits 16 (signal.hits + 1)
    if hits > 1 then
      return { signal with
        hits := hits, status := .ambiguous, entryIndex := none, line := none, activeHigh := none }
    else do
      let entryIndex ← cast 8 index
      match item.inputPolarity with
      | some polarity =>
        return { signal with
          hits := hits, entryIndex := some entryIndex, status := .mapped, line := some item.line,
          activeHigh := some polarity }
      | none =>
        return { signal with hits := hits, entryIndex := some entryIndex, status := .invalidInput }

def Catalog.input (c : Catalog) (function : Nat) : Parse Error Hpd :=
  (List.range c.count).foldlM (fun signal i => do
    let item ← c.entry i
    signal.note i item) { function := function }

def parse (image : Slice) (offset : Nat) : Parse Error Catalog := do
  let header ← span image offset 4
  let version ← byteAt header 0
  reject (version ≠ 0x40 ∧ version ≠ 0x41) .Version
  let size ← byteAt header 1
  let count ← byteAt header 2
  let stride ← byteAt header 3
  reject (size < 6 ∨ size > 64 ∨ supportedStride version stride = false) .Limit
  let length ← fits 64 (size + count * stride)
  let bytes ← span image offset length
  let external ← u16At bytes 4
  let byteLength ← cast 16 length
  let raw ← (List.range count).foldlM (fun rows i => do
    checked (i < maxEntries ∧ stride ≤ 6) .bounds ()
    let row ← part bytes (size + i * stride) stride
    return rows ++ [row]) []
  let result : Catalog := {
    offset := offset
    version := version
    headerBytes := size
    entryBytes := stride
    count := count
    byteLength := byteLength
    externalTableOffset := if external = 0 then none else some external
    raw := raw }
  let hpd ← hpdFunctions.foldlM (fun found function => do
    let signal ← result.input function
    return found ++ [signal]) []
  return { result with hpd := hpd }

end Gpio

/-! ## External GPIO -/

namespace Xpio

def maxTables : Nat := 16
def maxEntries : Nat := 256

structure Range where
  offset : Nat := 0
  bytes : Nat := 0
  deriving DecidableEq, Repr

structure Table where
  index : Nat := 0
  range : Range := {}
  headerBytes : Nat := 0
  count : Nat := 0
  first : Nat := 0
  kind : Nat := 0
  address : Nat := 0
  flags : Nat := 0
  ccb : Option Nat := none
  i2c : Option Nat := none
  aux : Option Nat := none
  busKnown : Bool := false
  interrupt : Option Gpio.Hpd := none
  deriving DecidableEq, Repr

structure Catalog where
  master : Range := {}
  masterCount : Nat := 0
  entryCount : Nat := 0
  tables : List Table := []
  raw : List Slice := []

structure Header where
  size : Nat
  count : Nat
  length : Nat

def header (image : Slice) (offset minSize stride : Nat) : Parse Error Header := do
  reject (offset > image.len ∨ image.len - offset < 4) .Bounds
  let bytes ← part image offset (image.len - offset)
  let version ← byteAt bytes 0
  reject (version ≠ 0x40) .Version
  let size ← byteAt bytes 1
  let shown ← byteAt bytes 3
  reject (size < minSize ∨ size > 64 ∨ shown ≠ stride) .Limit
  let count ← byteAt bytes 2
  let length ← fits 16 (size + count * stride)
  reject (length > bytes.len) .Bounds
  return ⟨size, count, length⟩

/-- One pointer of the master table. -/
def specific (image : Slice) (offset masterSize : Nat) (result : Catalog) (index : Nat) :
    Parse Error Catalog := do
  let start ← fits 64 (offset + masterSize + index * 2)
  let place ← part image start 2
  let pointer ← u16At place 0
  if pointer = 0 then return result
  else do
    let head ← header image pointer 7 4
    reject (result.entryCount + head.count > maxEntries) .Limit
    let bytes ← part image pointer head.length
    checked (result.tables.length < maxTables) .bounds ()
    let tableIndex ← cast 8 index
    let kind ← byteAt bytes 4
    let address ← byteAt bytes 5
    let flags ← byteAt bytes 6
    let raw ← (List.range head.count).foldlM (fun rows i => do
      checked (result.entryCount + i < maxEntries) .bounds ()
      let row ← part bytes (head.size + i * 4) 4
      return rows ++ [row]) result.raw
    let entryCount ← fits 16 (result.entryCount + head.count)
    return { result with
      tables := result.tables ++ [{
        index := tableIndex, range := ⟨pointer, head.length⟩, headerBytes := head.size,
        count := head.count, first := result.entryCount, kind := kind, address := address,
        flags := flags }]
      raw := raw
      entryCount := entryCount }

def parse (image : Slice) (offset : Nat) : Parse Error Catalog := do
  let master ← header image offset 4 2
  reject (master.count > maxTables) .Limit
  (List.range master.count).foldlM (specific image offset master.size)
    { master := ⟨offset, master.length⟩, masterCount := master.count }

end Xpio

end Vbios
end NvidiaGsp
