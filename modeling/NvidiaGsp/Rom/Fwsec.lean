import NvidiaGsp.Lib.Parse

/-!
# Rom.Fwsec

The catalog of secure firmware in a video BIOS (`fwsec.zig`). `parse` reads the table of entries behind
the Falcon token; `descriptor` reads one entry, of which there are two versions; `parseInterface` reads
the interface table in the entry's data memory.
-/

namespace NvidiaGsp
namespace Fwsec

open Parse

inductive Error where
  | Bounds | Missing | Version | Limit | Duplicate | Overlap | Layout | Unsupported | SignatureVersion
  deriving DecidableEq, Repr

def maxEntries : Nat := 8
def signatureBytes : Nat := 384

/-- `vbios.max_rom_bytes`. -/
def maxRomBytes : Nat := 1024 * 1024

structure Range where
  offset : Nat := 0
  bytes : Nat := 0
  deriving DecidableEq, Repr

structure FirmwareBuffer where
  address : Nat := 0
  bytes : Nat := 0
  deriving DecidableEq, Repr

structure Interface where
  table : Range := {}
  mapper : Range := {}
  signature : Nat := 0
  version : Nat := 0
  declaredBytes : Nat := 0
  commandInput : Range := {}
  commandOutput : FirmwareBuffer := {}
  imageBuffer : FirmwareBuffer := {}
  buildTimestampRaw : Nat := 0
  ucodeSignatureRaw : Nat := 0
  initialCommand : Nat := 0
  features : Nat := 0
  commands : Nat × Nat := (0, 0)
  deriving DecidableEq, Repr

structure Entry where
  tableIndex : Nat := 0
  application : Nat := 0
  target : Nat := 0
  descriptorVersion : Nat := 0
  flags : Nat := 0
  descriptor : Range := {}
  image : Range := {}
  code : Range := {}
  data : Range := {}
  signatures : Range := {}
  signatureSlot : Range := {}
  storedBytes : Nat := 0
  uncompressedBytes : Nat := 0
  imemPa : Nat := 0
  imemVa : Nat := 0
  imemSecurePa : Nat := 0
  imemSecureBytes : Nat := 0
  imemNonsecureBytes : Nat := 0
  entryPoint : Nat := 0
  dmemPa : Nat := 0
  interfaceOffset : Nat := 0
  engineMask : Nat := 0
  ucodeId : Nat := 0
  signatureCount : Nat := 0
  signatureVersions : Nat := 0
  reservedRaw : Nat := 0
  interface : Interface := {}
  deriving DecidableEq, Repr

structure Catalog where
  expansionRomOffset : Nat := 0
  table : Range := {}
  tableEntries : Nat := 0
  descriptorVersionHint : Nat := 0
  descriptorBytesHint : Nat := 0
  entries : List Entry := []
  deriving DecidableEq, Repr

/-- `vbios.FalconData`. -/
structure FalconData where
  version : BitVec 8
  offset : BitVec 32
  bytes : BitVec 16

/-- `vbios.Result`, as far as it is read here. -/
structure Board where
  romBytes : BitVec 32
  falcon : Option FalconData
  expansionRomOffset : Option (BitVec 32)

/-! ## Ranges -/

def span (bytes : Slice) (offset length : Nat) : Parse Error Slice := do
  reject (offset > bytes.len ∨ length > bytes.len - offset) .Bounds
  part bytes offset length

def range (rom : Slice) (offset length : Nat) : Parse Error Range := do
  let _ ← span rom offset length
  let offset ← cast 32 offset
  let length ← cast 32 length
  return ⟨offset, length⟩

def Range.slice (r : Range) (rom : Slice) : Parse Error Slice := span rom r.offset r.bytes

def disjoint (left right : Range) : Parse Error Unit :=
  if left.bytes = 0 ∨ right.bytes = 0 then return ()
  else do
    let stop ← fits 64 (right.offset + right.bytes)
    if left.offset < stop then do
      let stop ← fits 64 (left.offset + left.bytes)
      reject (right.offset < stop) .Overlap
    else return ()

/-- Up to 256 bytes. -/
def aligned (value : Nat) : Parse Error Nat := do
  reject (value > maxRomBytes) .Limit
  let up ← fits 32 (value + 255)
  return up / 256 * 256

/-! ## The interface in data memory -/

def dmemRange (rom : Slice) (entry : Entry) (offset length : Nat) : Parse Error Range := do
  let bias := if entry.descriptorVersion = 2 then entry.dmemPa else 0
  let stop ← fits 64 (offset + length)
  reject (offset < bias ∨ stop > entry.data.bytes) .Bounds
  let start ← fits 64 (entry.data.offset + offset)
  range rom (← minus start bias) length

/-- The mapper that an interface entry points to. -/
def parseMapper (rom : Slice) (entry : Entry) (result : Interface) (pointer : Nat) :
    Parse Error Interface := do
  let fixed ← dmemRange rom entry pointer 64
  let mapper ← fixed.slice rom
  let signature ← u32At mapper 0
  let version ← u16At mapper 4
  let declared ← u16At mapper 6
  reject (version ≠ 3) .Version
  reject (declared < 64) .Bounds
  let whole ← dmemRange rom entry pointer declared
  let input ← dmemRange rom entry (← u32At mapper 8) (← u32At mapper 12)
  let output ← u32At mapper 16
  let outputBytes ← u32At mapper 20
  let image ← u32At mapper 24
  let imageBytes ← u32At mapper 28
  let timestamp ← u32At mapper 36
  let ucode ← u32At mapper 40
  let initial ← u32At mapper 44
  let features ← u32At mapper 48
  let first ← u32At mapper 52
  let second ← u32At mapper 56
  return { result with
    mapper := whole
    signature := signature
    version := version
    declaredBytes := declared
    commandInput := input
    commandOutput := ⟨output, outputBytes⟩
    imageBuffer := ⟨image, imageBytes⟩
    buildTimestampRaw := timestamp
    ucodeSignatureRaw := ucode
    initialCommand := initial
    features := features
    commands := (first, second) }

/-- One entry of the interface table. -/
def interfaceEntry (rom : Slice) (entry : Entry) (table : Slice) (state : Bool × Interface) (index : Nat) :
    Parse Error (Bool × Interface) := do
  let record ← part table (4 + index * 8) 8
  let id ← u32At record 0
  if id ≠ 4 then return state
  else do
    reject (state.1 = true) .Duplicate
    let pointer ← u32At record 4
    let result ← parseMapper rom entry state.2 pointer
    return (true, result)

def parseInterface (rom : Slice) (entry : Entry) : Parse Error Interface := do
  let headRange ← dmemRange rom entry entry.interfaceOffset 4
  let header ← headRange.slice rom
  let version ← byteAt header 0
  reject (version ≠ 1) .Version
  let size ← byteAt header 1
  let stride ← byteAt header 2
  reject (size ≠ 4 ∨ stride ≠ 8) .Unsupported
  let count ← byteAt header 3
  reject (count < 2 ∨ count > 32) .Limit
  let range ← dmemRange rom entry entry.interfaceOffset (4 + count * 8)
  let table ← range.slice rom
  let state ← (List.range count).foldlM (interfaceEntry rom entry table) (false, { table := range })
  reject (state.1 = false) .Missing
  disjoint state.2.table state.2.mapper
  disjoint state.2.commandInput state.2.table
  disjoint state.2.commandInput state.2.mapper
  return state.2

/-! ## Descriptors -/

/-- How many of the low 16 bits are set. -/
def popCount (v : Nat) : Nat := (List.range 16).countP v.testBit

/-- Version 2: explicit extents of code and data behind the descriptor. -/
def descriptorV2 (rom desc : Slice) (imageOffset : Nat) (entry : Entry) : Parse Error Entry := do
  let uncompressed ← u32At desc 8
  let entryPoint ← u32At desc 12
  let interface ← u32At desc 16
  let imemPa ← u32At desc 20
  let imemVa ← u32At desc 28
  let codeBytes ← u32At desc 24
  let secureVa ← u32At desc 32
  let secureBytes ← u32At desc 36
  let dataOffset ← u32At desc 40
  let dmemPa ← u32At desc 44
  let dataBytes ← u32At desc 48
  reject (codeBytes = 0 ∨ dataBytes = 0 ∨ secureBytes > codeBytes ∨ secureVa < imemVa) .Layout
  let nonsecure ← minus codeBytes secureBytes
  let secureUp ← aligned secureBytes
  let secureOffset ← minus secureVa imemVa
  let securePa ← fits 64 (secureOffset + imemPa)
  reject (securePa ≥ 2 ^ 32) .Bounds
  let securePa ← cast 32 securePa
  let codeUp ← aligned codeBytes
  let codeEnd ← fits 64 (imemPa + codeBytes)
  reject (codeEnd > codeUp) .Bounds
  let dataUp ← aligned dataBytes
  let dataEnd ← fits 64 (dmemPa + dataBytes)
  reject (dataEnd > dataUp) .Bounds
  let secureEnd ← fits 64 (securePa + secureUp)
  reject (secureEnd > codeUp) .Bounds
  let code ← range rom imageOffset codeBytes
  let dataStart ← fits 64 (imageOffset + dataOffset)
  let data ← range rom dataStart dataBytes
  disjoint code data
  let dataStop ← fits 64 (dataOffset + dataBytes)
  let image ← range rom imageOffset (max codeBytes dataStop)
  return { entry with
    uncompressedBytes := uncompressed
    entryPoint := entryPoint
    interfaceOffset := interface
    imemPa := imemPa
    imemVa := imemVa
    dmemPa := dmemPa
    imemNonsecureBytes := nonsecure
    imemSecureBytes := secureUp
    imemSecurePa := securePa
    code := code
    data := data
    image := image }

/-- Version 3: code, then data, and a slot for one of the signatures behind the descriptor's header. -/
def descriptorV3 (rom desc : Slice) (offset size imageOffset : Nat) (entry : Entry) :
    Parse Error Entry := do
  let interface ← u32At desc 12
  let imemPa ← u32At desc 16
  let codeBytes ← u32At desc 20
  let imemVa ← u32At desc 24
  let dmemPa ← u32At desc 28
  let dataBytes ← u32At desc 32
  let engineMask ← u16At desc 36
  let ucodeId ← byteAt desc 38
  let signatureCount ← byteAt desc 39
  let signatureVersions ← u16At desc 40
  let reserved ← u16At desc 42
  reject (codeBytes = 0 ∨ dataBytes = 0 ∨ signatureCount = 0) .Layout
  let image ← range rom imageOffset (← aligned entry.storedBytes)
  let stop ← fits 64 (codeBytes + dataBytes)
  reject (stop > image.bytes) .Bounds
  let code ← range rom imageOffset codeBytes
  let dataStart ← fits 64 (imageOffset + codeBytes)
  let data ← range rom dataStart dataBytes
  let pkc ← u32At desc 8
  let slotEnd ← fits 64 (pkc + signatureBytes)
  reject (slotEnd > dataBytes) .Bounds
  let slotStart ← fits 64 (data.offset + pkc)
  let slot ← range rom slotStart signatureBytes
  let signatures ← range rom (← fits 64 (offset + 44)) (← minus size 44)
  let expected ← fits 32 (signatureCount * signatureBytes)
  reject (expected ≠ signatures.bytes ∨ popCount signatureVersions ≠ signatureCount) .Layout
  return { entry with
    interfaceOffset := interface
    imemPa := imemPa
    imemVa := imemVa
    dmemPa := dmemPa
    engineMask := engineMask
    ucodeId := ucodeId
    signatureCount := signatureCount
    signatureVersions := signatureVersions
    reservedRaw := reserved
    image := image
    code := code
    data := data
    signatureSlot := slot
    signatures := signatures }

/-- The part that differs between the versions. -/
def lay (rom desc : Slice) (offset size imageOffset : Nat) (entry : Entry) : Parse Error Entry :=
  if entry.descriptorVersion = 2 then descriptorV2 rom desc imageOffset entry
  else descriptorV3 rom desc offset size imageOffset entry

def minimumBytes (version : Nat) : Option Nat :=
  if version = 2 then some 60 else if version = 3 then some 44 else none

/-- The signature is patched into a slot that nothing else of the interface uses. -/
def slotApart (entry : Entry) (interface : Interface) : Parse Error Unit :=
  if entry.signatureSlot.bytes ≠ 0 then do
    disjoint entry.signatureSlot interface.table
    disjoint entry.signatureSlot interface.mapper
    disjoint entry.signatureSlot interface.commandInput
  else return ()

def descriptor (rom : Slice) (offset : Nat) : Parse Error Entry := do
  let first ← span rom offset 4
  let word ← u32At first 0
  reject (word % 2 = 0) .Version
  reject (word &&& 0xfa ≠ 0) .Unsupported
  let version := word / 256 % 256
  let size := word / 65536
  let minimum ← need (minimumBytes version) .Version
  reject (size < minimum) .Bounds
  let desc ← span rom offset size
  let range ← range rom offset size
  let stored ← u32At desc 4
  reject (stored = 0) .Layout
  let imageOffset ← fits 64 (offset + size)
  let entry ← lay rom desc offset size imageOffset
    { descriptor := range, descriptorVersion := version, flags := word % 256, storedBytes := stored }
  let interface ← parseInterface rom entry
  slotApart entry interface
  return { entry with interface := interface }

/-! ## The catalog -/

/-- An entry against those before it. -/
def admitEntry (entry : Entry) : List Entry → Parse Error Unit
  | [] => return ()
  | prior :: rest => do
    reject (prior.application = entry.application ∧ prior.target = entry.target) .Duplicate
    disjoint prior.descriptor entry.descriptor
    disjoint prior.image entry.descriptor
    disjoint prior.descriptor entry.image
    disjoint prior.image entry.image
    admitEntry entry rest

/-- One record of the table. -/
def tableEntry (rom : Slice) (bias tableOffset size stride : Nat) (result : Catalog) (index : Nat) :
    Parse Error Catalog := do
  let start ← fits 64 (tableOffset + size + stride * index)
  let record ← span rom start 6
  let application ← byteAt record 0
  if application ≠ 0x05 ∧ application ≠ 0x45 ∧ application ≠ 0x85 then return result
  else do
    reject (result.entries.length = maxEntries) .Limit
    let pointer ← u32At record 2
    reject (pointer = 0) .Bounds
    let described ← descriptor rom (← fits 64 (bias + pointer))
    let tableIndex ← cast 8 index
    let target ← byteAt record 1
    let entry :=
      { described with tableIndex := tableIndex, application := application, target := target }
    disjoint result.table entry.descriptor
    disjoint result.table entry.image
    admitEntry entry result.entries
    let entries ← checked (result.entries.length < maxEntries) .bounds (result.entries ++ [entry])
    let _ ← fits 8 (result.entries.length + 1)
    return { result with entries := entries }

def parse (bytes : Slice) (board : Board) : Parse Error Catalog := do
  reject (bytes.len > maxRomBytes) .Limit
  let rom ← span bytes 0 board.romBytes.toNat
  let token ← need board.falcon .Missing
  reject (token.version.toNat ≠ 2) .Version
  reject (token.bytes.toNat < 4 ∨ token.offset.toNat = 0) .Bounds
  let data ← span rom token.offset.toNat token.bytes.toNat
  let bias ← need board.expansionRomOffset .Layout
  let pointer ← u32At data 0
  reject (pointer = 0) .Missing
  let tableOffset ← fits 64 (bias.toNat + pointer)
  let header ← span rom tableOffset 6
  let version ← byteAt header 0
  reject (version ≠ 1) .Version
  let size ← byteAt header 1
  let stride ← byteAt header 2
  let count ← byteAt header 3
  reject (size < 6 ∨ size > 64 ∨ stride < 6 ∨ stride > 32 ∨ count > 64) .Limit
  reject (count = 0) .Missing
  let table ← range rom tableOffset (← fits 32 (size + stride * count))
  let versionHint ← byteAt header 4
  let bytesHint ← byteAt header 5
  let result ← (List.range count).foldlM (tableEntry rom bias.toNat tableOffset size stride)
    { expansionRomOffset := bias.toNat, table := table, tableEntries := count,
      descriptorVersionHint := versionHint, descriptorBytesHint := bytesHint }
  reject (result.entries.length = 0) .Missing
  return result

/-! ## Fuses -/

def signatureForFuse (entry : Entry) (fuseVersion : Nat) : Parse Error Range := do
  reject (entry.descriptorVersion ≠ 3) .Unsupported
  reject (fuseVersion ≥ 16) .SignatureVersion
  let shift ← cast 4 fuseVersion
  let mask ← fits 16 (1 <<< shift)
  reject (entry.signatureVersions &&& mask = 0) .SignatureVersion
  let below ← minus mask 1
  let index := popCount (entry.signatureVersions &&& below)
  let next ← fits 32 (index + 1)
  let stop ← fits 64 (next * signatureBytes)
  reject (index ≥ entry.signatureCount ∨ stop > entry.signatures.bytes) .Bounds
  let offset ← fits 64 (entry.signatures.offset + index * signatureBytes)
  reject (offset ≥ 2 ^ 32) .Bounds
  let offset ← cast 32 offset
  return ⟨offset, signatureBytes⟩

end Fwsec
end NvidiaGsp
