import NvidiaGsp.Rom.Tables

/-!
# Rom.Vbios

The reader of a video BIOS (`vbios.zig`). `imageStep` reads one image of the PCI chain and selects the
x86 image; `parseBit` and `parseDcb` read the tables of the selected image. Every table goes into one
catalog of ranges (`Ranges`), which refuses tables that overlap.
-/

namespace NvidiaGsp
namespace Vbios

open Parse

def maxRomBytes : Nat := 1024 * 1024
def maxPorts : Nat := 32
def maxImages : Nat := 16

inductive Assignment where
  | encoder | padMacro
  deriving DecidableEq, Repr

structure Port where
  index : Nat := 0
  kind : Nat := 0
  ccb : Nat := 0xf
  connector : Nat := 0xf
  heads : Nat := 0
  outputMask : Nat := 0
  assignment : Assignment := .encoder
  linkMask : Option Nat := none
  virtual : Bool := false
  location : Nat := 0
  bus : Nat := 0
  i2c : Option Nat := none
  aux : Option Nat := none
  connectorType : Option Nat := none
  rawPath : Nat := 0
  rawConfig : Nat := 0
  deriving DecidableEq, Repr

structure FalconData where
  version : Nat
  offset : Nat
  bytes : Nat
  deriving DecidableEq, Repr

structure Result where
  imageCount : Nat := 0
  romBytes : Nat := 0
  imageOffset : Nat := 0
  imageBytes : Nat := 0
  checksumBytes : Nat := 0
  pciExtensionOffset : Nat := 0
  pciExtensionBytes : Nat := 0
  pciDevice : Nat := 0
  validatedDevice : Option Nat := none
  firstExtensionOffset : Option Nat := none
  expansionRomOffset : Option Nat := some 0
  bitOffset : Nat := 0
  bitEntries : Nat := 0
  falcon : Option FalconData := none
  vbiosVersion : List Nat := [0, 0, 0, 0, 0]
  versionPresent : Bool := false
  dcbOffset : Nat := 0
  dcbVersion : Nat := 0
  ccbVersion : Nat := 0
  primaryCcb : Option Nat := none
  secondaryCcb : Option Nat := none
  communicationCount : Nat := 0
  communications : List Communication := []
  connectorVersion : Nat := 0
  connectorCount : Nat := 0
  connectors : List Connector := []
  gpioTable : Option Gpio.Catalog := none
  externalGpio : Option Xpio.Catalog := none
  ports : List Port := []

/-! ## Ranges -/

structure Range where
  start : Nat
  stop : Nat
  deriving DecidableEq, Repr

def maxRanges : Nat := 11 + Xpio.maxTables

abbrev Ranges := List Range

/-- `Ranges.add`. -/
def Ranges.add (ranges : Ranges) (start length : Nat) : Parse Error Ranges := do
  reject (ranges.length = maxRanges) .RangesLimit
  let stop ← fits 64 (start + length)
  reject (∃ prior ∈ ranges, start < prior.stop ∧ prior.start < stop) .Overlap
  return ranges ++ [⟨start, stop⟩]

/-! ## Images -/

/-- The sum of the bytes, on 8 bits. -/
def sum (bytes : Slice) : Nat := bytes.toList.foldl (fun total b => (total + b) % 256) 0

/-- The walk over the images. -/
structure Walk where
  cursor : Nat := 0
  selected : Option Slice := none
  result : Result := {}

/-- The list of devices behind a PCI header. -/
def deviceListFrom (image : Slice) (start device : Nat) : List Nat → Bool → Parse Error Bool
  | [], _ => .error (.error .Limit)
  | index :: rest, found => do
    let place ← fits 64 (start + index * 2)
    let entry ← u16At (← span image place 2) 0
    if entry = 0 then return found
    else deviceListFrom image start device rest (found || entry == device)

def deviceListContains (image : Slice) (pcir revision device : Nat) : Parse Error Bool :=
  if revision ≠ 3 then return false
  else do
    let offset ← u16At image (← fits 64 (pcir + 8))
    if offset = 0 ∨ offset &&& 1 ≠ 0 then return false
    else do
      let start ← fits 64 (pcir + offset)
      deviceListFrom image start device (List.range 64) false

/-- The extent of an image as its NVIDIA extension narrows it. -/
structure Envelope where
  extensionBytes : Nat
  imageBytes : Nat
  last : Bool

/-- The extension behind the PCI header. -/
def extension (rom : Slice) (place extensionOffset imageBytes : Nat) (last : Bool) :
    Parse Error Envelope := do
  let first ← span rom place 4
  let signature ← u32At first 0
  if signature ≠ 0x4544504e then return ⟨0, imageBytes, last⟩
  else do
    let head ← span rom place 10
    let version ← u16At head 4
    reject (version ≠ 0x100 ∧ version ≠ 0x101) .Version
    let length ← u16At head 6
    reject (length < 10 ∨ extensionOffset + length > imageBytes) .Bounds
    let whole ← span rom place length
    let units ← u16At head 8
    let subimage ← fits 64 (units * 512)
    reject (subimage = 0 ∨ subimage > imageBytes ∨ extensionOffset + length > subimage) .Bounds
    let flag ← byteIf (length > 10) whole 10
    return ⟨length, subimage, match flag with
      | some b => b &&& 0x80 != 0
      | none => if subimage < imageBytes then false else last⟩

/-- The extension, when the image has room for one. -/
def envelope (rom : Slice) (cursor extensionOffset imageBytes : Nat) (last : Bool) :
    Parse Error Envelope :=
  if extensionOffset + 4 ≤ imageBytes then do
    let place ← fits 64 (cursor + extensionOffset)
    extension rom place extensionOffset imageBytes last
  else return ⟨0, imageBytes, last⟩

/-- The image is for the device that is expected. -/
def identify (image pci : Slice) (pcir revision : Nat) (privateData : Bool) (device : Option Nat) :
    Parse Error Unit :=
  match privateData, device with
  | false, some expected => do
    let shown ← u16At pci 6
    if shown ≠ expected then do
      let listed ← deviceListContains image pcir revision expected
      reject (listed = false) .Identity
    else return ()
  | _, _ => return ()

/-- What the code type of an image asks for. -/
def classify (head pci image : Slice) (signature extensionOffset extensionBytes : Nat) (w : Walk) :
    Parse Error Walk := do
  let code ← byteAt pci 0x14
  if code = 0 then do
    reject (signature ≠ 0xaa55) .Signature
    reject (w.selected.isSome = true) .Duplicate
    let units ← byteAt head 2
    let initialization ← fits 64 (units * 512)
    reject (initialization = 0) .Bounds
    let start ← span image 0 initialization
    reject (sum start ≠ 0) .Checksum
    let imageOffset ← cast 32 w.cursor
    let imageBytes ← cast 32 image.len
    let checksumBytes ← cast 32 initialization
    let extensionAt ← cast 32 (if extensionBytes ≠ 0 then extensionOffset else 0)
    let device ← u16At pci 6
    return { w with
      selected := some image
      result := { w.result with
        imageOffset := imageOffset
        imageBytes := imageBytes
        checksumBytes := checksumBytes
        pciExtensionOffset := extensionAt
        pciExtensionBytes := extensionBytes
        pciDevice := device } }
  else if code = 3 then do
    reject (signature ≠ 0xaa55) .Signature
    let efi ← u32At image 4
    reject (efi ≠ 0x00000ef1) .Signature
    let units ← u16At image 2
    let initialization ← fits 64 (units * 512)
    reject (initialization = 0) .Bounds
    let _ ← span image 0 initialization
    return w
  else if code = 0xe0 then do
    let place ← cast 32 w.cursor
    return { w with result := { w.result with
      firstExtensionOffset := some (w.result.firstExtensionOffset.getD place) } }
  else .error (.error .Unsupported)

/-- "PCIR", "NPDS" and "RGIS". -/
def pciNames : List (List Nat) :=
  [[0x50, 0x43, 0x49, 0x52], [0x4e, 0x50, 0x44, 0x53], [0x52, 0x47, 0x49, 0x53]]

/-- One image, and whether it is the last. -/
def imageStep (rom : Slice) (device : Option Nat) (w : Walk) : Parse Error (Walk × Bool) := do
  let head ← span rom w.cursor 0x1a
  let signature ← u16At head 0
  reject (signature ≠ 0xaa55 ∧ signature ≠ 0x4e56 ∧ signature ≠ 0xbb77) .Signature
  let pcir ← u16At head 0x18
  reject (pcir < 0x1c ∨ pcir &&& 3 ≠ 0) .Bounds
  let pci ← span rom (← fits 64 (w.cursor + pcir)) 0x18
  let name ← part pci 0 4
  reject (name.toList ∉ pciNames) .Signature
  let revision ← byteAt pci 0x0c
  reject (revision ≠ 0 ∧ revision ≠ 3) .Version
  let pciBytes ← u16At pci 0x0a
  reject (pciBytes < if revision = 3 then 0x1c else 0x18) .Bounds
  let units ← u16At pci 0x10
  let imageBytes ← fits 64 (units * 512)
  reject (imageBytes = 0) .Bounds
  let flag ← byteAt pci 0x15
  let up ← fits 64 (pcir + pciBytes + 15)
  let extensionOffset := up / 16 * 16
  let found ← envelope rom w.cursor extensionOffset imageBytes (flag &&& 0x80 != 0)
  let image ← span rom w.cursor found.imageBytes
  let _ ← span image pcir pciBytes
  let vendor ← u16At pci 4
  reject (vendor ≠ 0x10de) .Identity
  let code ← byteAt pci 0x14
  let privateData := code == 0xe0 && signature != 0xaa55 && name.toList != pciNames.headD []
  identify image pci pcir revision privateData device
  let w' ← classify head pci image signature extensionOffset found.extensionBytes w
  let cursor ← fits 64 (w.cursor + image.len)
  return ({ w' with
    cursor := cursor
    result := { w'.result with imageCount := w'.result.imageCount + 1 } }, found.last)

/-- The loop over the images; so many may still be read. -/
def walk (rom : Slice) (device : Option Nat) : Nat → Walk → Parse Error Walk
  | 0, _ => .error (.error .Limit)
  | n + 1, w => do
    let step ← imageStep rom device w
    if step.2 = true then return step.1 else walk rom device n step.1

/-! ## BIT -/

/-- `"\xff\xb8BIT\x00"`. -/
def bitSignature : List Nat := [0xff, 0xb8, 0x42, 0x49, 0x54, 0x00]

/-- `std.mem.indexOf`. -/
def indexOf (bytes : Slice) (pattern : List Nat) : Option Nat :=
  (List.range (bytes.len + 1 - pattern.length)).find? fun i =>
    (bytes.sub i pattern.length).toList == pattern

/-- Short entries have pointers of 16 bits. -/
def pointerOf (entry : Slice) (stride : Nat) : Parse Error Nat :=
  if stride ≥ 8 then u32At entry 4 else u16At entry 4

structure BitState where
  ids : List Nat := []
  ranges : Ranges
  result : Result

/-- One entry of the BIT. -/
def bitEntry (rom image table : Slice) (offset size stride : Nat) (s : BitState) (index : Nat) :
    Parse Error BitState := do
  let entry ← part table (size + stride * index) stride
  let id ← byteAt entry 0
  reject (id ∈ s.ids) .Duplicate
  let length ← u16At entry 2
  let pointer ← pointerOf entry stride
  reject (id = 0x62) .Unsupported
  if id = 0x70 then do
    let version ← byteAt entry 1
    let place ← cast 32 pointer
    let bytes ← cast 16 length
    let result := { s.result with falcon := some ⟨version, place, bytes⟩ }
    if length ≠ 0 then do
      reject (pointer = 0) .Bounds
      let _ ← span rom pointer length
      let bitStart ← fits 64 (s.result.imageOffset + offset)
      let bitStop ← fits 64 (bitStart + table.len)
      let stop ← fits 64 (pointer + length)
      reject (pointer < bitStop ∧ bitStart < stop) .Overlap
      return ⟨id :: s.ids, s.ranges, result⟩
    else return ⟨id :: s.ids, s.ranges, result⟩
  else if length = 0 then return { s with ids := id :: s.ids }
  else do
    reject (pointer = 0) .Bounds
    let data ← span image pointer length
    let bitStop ← fits 64 (offset + table.len)
    let stop ← fits 64 (pointer + length)
    reject (pointer < bitStop ∧ offset < stop) .Overlap
    if id = 0x69 then do
      let version ← byteAt entry 1
      reject (version ≠ 2) .Version
      reject (data.len < 5) .Bounds
      let ranges ← s.ranges.add pointer length
      let version ← part data 0 5
      return ⟨id :: s.ids, ranges, { s.result with
        vbiosVersion := [version.get 3, version.get 2, version.get 1, version.get 0, version.get 4]
        versionPresent := true }⟩
    else return { s with ids := id :: s.ids }

def parseBit (rom image : Slice) (ranges : Ranges) (result : Result) :
    Parse Error (Ranges × Result) := do
  let offset ← need (indexOf image bitSignature) .Missing
  let rest ← part image (offset + bitSignature.length) (image.len - (offset + bitSignature.length))
  reject (offset > 0xffff ∨ (indexOf rest bitSignature).isSome = true) .Duplicate
  let header ← span image offset 12
  let version ← u16At header 6
  reject (version ≠ 0x0100) .Version
  let size ← byteAt header 8
  let stride ← byteAt header 9
  let count ← byteAt header 10
  reject (size < 12 ∨ size > 64 ∨ stride < 6 ∨ stride > 32 ∨ count = 0 ∨ count > 64) .Limit
  let table ← span image offset (← fits 64 (size + stride * count))
  let checked ← part table 0 size
  reject (sum checked ≠ 0) .Checksum
  let ranges ← ranges.add offset table.len
  let bitOffset ← cast 16 offset
  let bitEntries ← cast 8 count
  let s ← (List.range count).foldlM (bitEntry rom image table offset size stride)
    { ranges := ranges, result := { result with bitOffset := bitOffset, bitEntries := bitEntries } }
  return (s.ranges, s.result)

/-! ## DCB -/

structure SmallTable where
  version : Nat
  count : Nat
  stride : Nat
  records : Slice

def smallTable (image : Slice) (offset headerMin strideMin : Nat) (ranges : Ranges) :
    Parse Error (SmallTable × Ranges) := do
  reject (offset = 0) .Missing
  let header ← span image offset 4
  let version ← byteAt header 0
  let size ← byteAt header 1
  let count ← byteAt header 2
  let stride ← byteAt header 3
  reject (size < headerMin ∨ size > 64 ∨ count > 16 ∨ stride < strideMin ∨ stride > 16) .Limit
  let bytes ← span image offset (← fits 64 (size + count * stride))
  let ranges ← ranges.add offset bytes.len
  let records ← part bytes size (bytes.len - size)
  return (⟨version, count, stride, records⟩, ranges)

/-- A table that is there when its pointer is not zero. -/
def optionalTable (image : Slice) (offset headerMin strideMin : Nat) (ranges : Ranges) :
    Parse Error (Option SmallTable × Ranges) :=
  if offset = 0 then return (none, ranges)
  else do
    let found ← smallTable image offset headerMin strideMin ranges
    return (some found.1, found.2)

/-- The entries of a small table. -/
def entriesOf {α : Type} (read : Nat → Slice → Parse Error α) (t : SmallTable) : Parse Error (List α) :=
  (List.range t.count).foldlM (fun found i => do
    checked (i < topologyEntries) .bounds ()
    let index ← cast 8 i
    let record ← part t.records (i * t.stride) t.stride
    let value ← read index record
    return found ++ [value]) []

def communicationsOf (image : Slice) (offset : Nat) (result : Result) :
    Option SmallTable → Parse Error Result
  | none => return result
  | some t => do
    reject (t.version ≠ 0x41) .Version
    let primary ← byteAt image (← fits 64 (offset + 4))
    let secondary ← byteAt image (← fits 64 (offset + 5))
    let found ← entriesOf communication t
    return { result with
      ccbVersion := t.version
      primaryCcb := if primary < t.count then some primary else none
      secondaryCcb := if secondary < t.count then some secondary else none
      communicationCount := t.count
      communications := found }

def connectorsOf (result : Result) : Option SmallTable → Parse Error Result
  | none => return result
  | some t => do
    reject (t.version ≠ 0x30 ∧ t.version ≠ 0x40) .Version
    let found ← entriesOf connector t
    return { result with
      connectorVersion := t.version, connectorCount := t.count, connectors := found }

/-- The bus behind a communication entry. -/
def busOf (result : Result) : Option Nat → Parse Error Communication
  | some index => elementAt result.communications index {}
  | none => return {}

/-- A table on the bus of its expander. -/
def onBus (t : Xpio.Table) (ccb : Option Nat) (bus : Communication) : Xpio.Table :=
  match ccb with
  | some _ => { t with ccb := ccb, i2c := bus.i2c, aux := bus.aux, busKnown := bus.reservedBits == 0 }
  | none => { t with ccb := none }

/-- The wires of an external table. -/
def wire (result : Result) (gpio : Gpio.Catalog) (t : Xpio.Table) : Parse Error Xpio.Table := do
  let ccb := if t.flags &&& 0x10 = 0 then result.primaryCcb else result.secondaryCcb
  let bus ← busOf result ccb
  if t.flags &&& 3 = 1 then do
    let interrupt ← gpio.input 99
    return { onBus t ccb bus with interrupt := some interrupt }
  else return onBus t ccb bus

/-- One external table. -/
def external (result : Result) (gpio : Gpio.Catalog) (s : List Xpio.Table × Ranges) (t : Xpio.Table) :
    Parse Error (List Xpio.Table × Ranges) := do
  let ranges ← s.2.add t.range.offset t.range.bytes
  let t ← wire result gpio t
  return (s.1 ++ [t], ranges)

/-- The external tables behind an internal one. -/
def externalOf (image : Slice) (gpio : Gpio.Catalog) (s : Ranges × Result) :
    Option Nat → Parse Error (Ranges × Result)
  | none => return s
  | some place => do
    let catalog ← Xpio.parse image place
    let ranges ← s.1.add catalog.master.offset catalog.master.bytes
    let found ← catalog.tables.foldlM (external s.2 gpio) ([], ranges)
    return (found.2, { s.2 with externalGpio := some { catalog with tables := found.1 } })

def gpioOf (image : Slice) (offset : Nat) (s : Ranges × Result) : Parse Error (Ranges × Result) :=
  if offset = 0 then return s
  else do
    let gpio ← Gpio.parse image offset
    let ranges ← s.1.add offset gpio.byteLength
    externalOf image gpio (ranges, { s.2 with gpioTable := some gpio }) gpio.externalTableOffset

/-- The fields of a port entry. -/
def portOf (dcbVersion index path config : Nat) : Port :=
  let kind := path % 16
  { index := index
    kind := kind
    ccb := (path >>> 4) % 16
    connector := (path >>> 12) % 16
    heads := (path >>> 8) % 16
    bus := (path >>> 16) % 16
    location := (path >>> 20) % 4
    outputMask := (path >>> 24) % 16
    assignment := if dcbVersion = 0x41 ∧ (kind = 2 ∨ kind = 3 ∨ kind = 6) then .padMacro else .encoder
    linkMask := if kind = 2 ∨ kind = 3 ∨ kind = 6 then some ((config >>> 4) &&& 3) else none
    virtual := path &&& 0x10000000 != 0
    rawPath := path
    rawConfig := config }

/-- The connectors of a communication entry. -/
def markConnector (c : Communication) (connector : Nat) : Parse Error Communication :=
  if connector = 0xf then return c
  else do
    let bit ← cast 4 connector
    return { c with connectorMask := c.connectorMask ||| (1 <<< bit) }

/-- The communication entry of a port. -/
def joinCcb (ccb : Option SmallTable) (result : Result) (port : Port) : Parse Error (Port × Result) :=
  if port.ccb = 0xf then return (port, result)
  else do
    let comms ← need ccb .Reference
    reject (port.ccb ≥ comms.count) .Reference
    let c ← elementAt result.communications port.ccb {}
    let path ← cast 5 port.index
    let c ← markConnector { c with displayPaths := c.displayPaths ||| (1 <<< path) } port.connector
    return ({ port with i2c := c.i2c, aux := c.aux },
      { result with communications := result.communications.set port.ccb c })

/-- The connector entry of a port. -/
def joinConnector (connectors : Option SmallTable) (result : Result) (port : Port) :
    Parse Error (Port × Result) :=
  if port.connector = 0xf then return (port, result)
  else do
    let physical ← need connectors .Reference
    reject (port.connector ≥ physical.count) .Reference
    let c ← elementAt result.connectors port.connector {}
    reject (c.kind = 0xff) .Reference
    let path ← cast 5 port.index
    let bus ← cast 4 port.bus
    let ccb ← cast 4 port.ccb
    let c := { c with
      displayPaths := c.displayPaths ||| (1 <<< path)
      heads := c.heads ||| port.heads
      padMask := if port.assignment = .padMacro then c.padMask ||| port.outputMask else c.padMask
      encoderMask :=
        if port.assignment = .padMacro then c.encoderMask else c.encoderMask ||| port.outputMask
      logicalBusMask := c.logicalBusMask ||| (1 <<< bus)
      ccbMask := if port.ccb = 0xf then c.ccbMask else c.ccbMask ||| (1 <<< ccb) }
    return ({ port with connectorType := some c.kind },
      { result with connectors := result.connectors.set port.connector c })

/-- The ports, until an entry that ends them. -/
def ports (table : Slice) (dcbVersion size stride : Nat) (ccb connectors : Option SmallTable) :
    List Nat → Result → Parse Error Result
  | [], result => return result
  | i :: rest, result => do
    let entry ← part table (size + i * stride) 8
    let path ← u32At entry 0
    let config ← u32At entry 4
    if path % 16 = 0xe then return result
    else if path % 16 = 0xf ∨ path = 0 then
      ports table dcbVersion size stride ccb connectors rest result
    else do
      reject (path % 16 ≠ 0 ∧ path % 16 ≠ 1 ∧ path % 16 ≠ 2 ∧ path % 16 ≠ 3 ∧ path % 16 ≠ 5 ∧
        path % 16 ≠ 6) .Unsupported
      let index ← cast 8 i
      let joined ← joinCcb ccb result (portOf dcbVersion index path config)
      let wired ← joinConnector connectors joined.2 joined.1
      checked (wired.2.ports.length < maxPorts) .bounds ()
      ports table dcbVersion size stride ccb connectors rest
        { wired.2 with ports := wired.2.ports ++ [wired.1] }

def parseDcb (image : Slice) (ranges : Ranges) (result : Result) : Parse Error (Ranges × Result) := do
  let offset ← u16At image 0x36
  reject (offset = 0) .Missing
  let header ← span image offset 23
  let version ← byteAt header 0
  reject (version ≠ 0x40 ∧ version ≠ 0x41) .Version
  let signature ← u32At header 6
  reject (signature ≠ 0x4edcbdcb) .Signature
  let size ← byteAt header 1
  let count ← byteAt header 2
  let stride ← byteAt header 3
  reject (size < 23 ∨ size > 64 ∨ count > maxPorts ∨ stride ≠ 8) .Limit
  let table ← span image offset (← fits 64 (size + count * stride))
  let ranges ← ranges.add offset table.len
  let dcbOffset ← cast 16 offset
  let ccbOffset ← u16At header 4
  let connectorOffset ← u16At header 0x14
  let ccb ← optionalTable image ccbOffset 6 4 ranges
  let connectors ← optionalTable image connectorOffset 4 2 ccb.2
  let result ← communicationsOf image ccbOffset
    { result with dcbOffset := dcbOffset, dcbVersion := version } ccb.1
  let result ← connectorsOf result connectors.1
  let gpioOffset ← u16At header 0x0a
  let s ← gpioOf image gpioOffset (connectors.2, result)
  let result ← ports table version size stride ccb.1 connectors.1 (List.range count) s.2
  return (s.1, result)

/-! ## The whole -/

/-- The bias of the Falcon pointers. -/
def expansionOffset (result : Result) : Option Nat :=
  match result.firstExtensionOffset with
  | some offset =>
    if offset = 0 then result.expansionRomOffset
    else if offset ≥ result.imageBytes then some (offset - result.imageBytes) else none
  | none => result.expansionRomOffset

/-- The PCI header, the pointer to the DCB, the PCI data and its extension. -/
def headerRanges (image : Slice) (result : Result) : Parse Error Ranges := do
  let header ← span image 0 0x38
  let ranges ← Ranges.add [] 0 0x1a
  let ranges ← ranges.add 0x36 2
  let pcir ← u16At header 0x18
  -- `pcir` has 16 bits, and so has the sum
  let place ← fits 16 (pcir + 0x0a)
  let length ← u16At image place
  let ranges ← ranges.add pcir length
  if result.pciExtensionBytes ≠ 0 then ranges.add result.pciExtensionOffset result.pciExtensionBytes
  else return ranges

/-- The tables of the selected image. -/
def tables (rom : Slice) (w : Walk) : Parse Error (Ranges × Result) := do
  let romBytes ← cast 32 w.cursor
  let image ← need w.selected .Missing
  let result := { w.result with romBytes := romBytes, expansionRomOffset := expansionOffset w.result }
  let ranges ← headerRanges image result
  let chain ← part rom 0 w.cursor
  let bit ← parseBit chain image ranges result
  parseDcb image bit.1 bit.2

/-- `parse`, with the ranges it has recorded. -/
def catalog (rom : Slice) (device : Option Nat) : Parse Error (Ranges × Result) := do
  reject (rom.len = 0 ∨ rom.len > maxRomBytes) .Limit
  let w ← walk rom device maxImages { result := { validatedDevice := device } }
  tables rom w

def parse (rom : Slice) (device : Option Nat) : Parse Error Result := do
  let found ← catalog rom device
  return found.2

end Vbios
end NvidiaGsp
