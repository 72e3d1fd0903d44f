import NvidiaGsp.Lib.Parse

/-!
# Firmware.Container

Admission of a firmware container (`firmware.zig`): a bounded profile of ELF. `inspect` walks the
section table once. It reads the names through one of the sections, compares each section with those
before it, and keeps the ranges of the image, the version and the signature.
-/

namespace NvidiaGsp
namespace Firmware

open Parse

inductive Family where
  | tu10x | tu11x | ga100 | ga10x | ad10x | gh100 | gb10x | gb20x
  deriving DecidableEq, Repr

inductive Error where
  | BadHeader | UnsupportedElf | BadSectionTable | BadSection | BadNames | DuplicateName | Overlap
  | MissingImage | MissingVersion | WrongVersion | MissingSignature | BadSignature
  deriving DecidableEq, Repr

/-- The bytes of a text. -/
def text (chars : List Char) : List Nat := chars.map Char.toNat

def Family.tagName : Family → List Nat
  | .tu10x => text ['t', 'u', '1', '0', 'x']
  | .tu11x => text ['t', 'u', '1', '1', 'x']
  | .ga100 => text ['g', 'a', '1', '0', '0']
  | .ga10x => text ['g', 'a', '1', '0', 'x']
  | .ad10x => text ['a', 'd', '1', '0', 'x']
  | .gh100 => text ['g', 'h', '1', '0', '0']
  | .gb10x => text ['g', 'b', '1', '0', 'x']
  | .gb20x => text ['g', 'b', '2', '0', 'x']

def imageName : List Nat := text ['.', 'f', 'w', 'i', 'm', 'a', 'g', 'e']

def versionName : List Nat := text ['.', 'f', 'w', 'v', 'e', 'r', 's', 'i', 'o', 'n']

def signatureName (family : Family) : List Nat :=
  text ['.', 'f', 'w', 's', 'i', 'g', 'n', 'a', 't', 'u', 'r', 'e', '_'] ++ family.tagName

/-- `lock.rm_version`. -/
def rmVersion : List Nat := text ['5', '7', '0', '.', '1', '4', '4']

def maxBytes : Nat := 64 * 1024 * 1024
def maxSections : Nat := 64
def maxNamesBytes : Nat := 4096
def signatureBytes : Nat := 4096

/-- ELF, 64 bits, little endian, version 1. -/
def magic : List Nat := [0x7f, 0x45, 0x4c, 0x46, 2, 1, 1]

structure Range where
  offset : Nat
  bytes : Nat
  deriving DecidableEq, Repr

structure Layout where
  image : Range
  version : Range
  signature : Range
  sections : Nat
  deriving DecidableEq, Repr

structure Section where
  name : List Nat
  data : Range
  kind : Nat
  flags : Nat
  deriving DecidableEq, Repr

def Range.slice (r : Range) (container : Slice) : Parse Error Slice := part container r.offset r.bytes

def Range.overlaps (r other : Range) : Parse Error Bool :=
  if r.bytes = 0 ∨ other.bytes = 0 then return false
  else do
    let stop ← fits 64 (other.offset + other.bytes)
    if r.offset < stop then do
      let stop' ← fits 64 (r.offset + r.bytes)
      return decide (other.offset < stop')
    else return false

def bounded (total offset size : Nat) : Parse Error Range := do
  reject (offset > total ∨ size > total - offset) .BadSection
  return ⟨offset, size⟩

def sectionName (names : Slice) (start : Nat) : Parse Error (List Nat) := do
  reject (start = 0 ∨ start ≥ names.len) .BadNames
  let rest ← part names start (names.len - start)
  let stop ← need (rest.toList.findIdx? (· = 0)) .BadNames
  reject (stop = 0 ∨ stop ≥ 64) .BadNames
  let name ← part names start stop
  reject (∃ c ∈ name.toList, c < 0x21 ∨ c > 0x7e) .BadNames
  return name.toList

def allZero (s : Slice) : Prop := ∀ b ∈ s.toList, b = 0

instance (s : Slice) : Decidable (allZero s) := inferInstanceAs (Decidable (∀ b ∈ s.toList, b = 0))

def isPowerOfTwo (v : Nat) : Prop := v ≠ 0 ∧ v &&& (v - 1) = 0

instance (v : Nat) : Decidable (isPowerOfTwo v) := inferInstanceAs (Decidable (_ ∧ _))

/-- What the walk over the section table has found. -/
structure Found where
  sections : List Section := []
  image : Option Range := none
  version : Option Range := none
  signature : Option Range := none
  deriving DecidableEq, Repr

/-- A section against those before it. -/
def compare (s : Section) : List Section → Parse Error Unit
  | [] => return ()
  | previous :: rest => do
    reject (previous.name = s.name) .DuplicateName
    let overlap ← previous.data.overlaps s.data
    reject (overlap = true) .Overlap
    compare s rest

/-- The three sections that are looked for. -/
def select (container : Slice) (family : Family) (found : Found) (s : Section) : Parse Error Found :=
  if s.name = imageName then do
    reject (s.kind ≠ 1 ∨ s.flags ≠ 3) .BadSection
    return { found with image := some s.data }
  else if s.name = versionName then do
    reject (s.kind ≠ 1 ∨ s.flags ≠ 0) .BadSection
    let bytes ← s.data.slice container
    reject (bytes.len ≠ rmVersion.length + 1) .WrongVersion
    let last ← byteAt bytes (bytes.len - 1)
    let shown ← part bytes 0 (bytes.len - 1)
    reject (last ≠ 0 ∨ shown.toList ≠ rmVersion) .WrongVersion
    return { found with version := some s.data }
  else if s.name = signatureName family then do
    reject (s.kind ≠ 1 ∨ s.flags ≠ 0 ∨ s.data.bytes ≠ signatureBytes) .BadSignature
    return { found with signature := some s.data }
  else return found

/-- One section of the table. -/
def admitSection (container : Slice) (family : Family) (table : Range) (names : Slice) (found : Found) (i : Nat) :
    Parse Error Found := do
  let record ← fits 64 (table.offset + i * 64)
  let name ← sectionName names (← u32At container record)
  let data ← bounded container.len (← u64At container (record + 24)) (← u64At container (record + 32))
  let kind ← u32At container (record + 4)
  let flags ← u64At container (record + 8)
  reject (kind ≠ 1 ∧ kind ≠ 2 ∧ kind ≠ 3 ∧ kind ≠ 7) .BadSection
  let address ← u64At container (record + 16)
  reject (flags &&& 0xfffffffffffffffc ≠ 0 ∨ address ≠ 0) .BadSection
  let alignment ← u64At container (record + 48)
  reject (alignment ≠ 0 ∧ (¬ isPowerOfTwo alignment ∨ data.offset % alignment ≠ 0)) .BadSection
  let covered ← data.overlaps table
  reject (data.bytes = 0 ∨ data.offset < 64 ∨ covered = true) .Overlap
  compare ⟨name, data, kind, flags⟩ found.sections
  select container family { found with sections := found.sections ++ [⟨name, data, kind, flags⟩] }
    ⟨name, data, kind, flags⟩

/-- The header is the one of the profile. -/
def header (container : Slice) : Parse Error Unit := do
  reject (container.len < 64 ∨ container.len > maxBytes) .BadHeader
  let ident ← part container 0 7
  reject (ident.toList ≠ magic) .UnsupportedElf
  let padding ← part container 7 9
  let kind ← u16At container 16
  let machine ← u16At container 18
  let version ← u32At container 20
  let entry ← u64At container 24
  let programs ← u64At container 32
  let flags ← u32At container 48
  let size ← u16At container 52
  let programSize ← u16At container 54
  let programCount ← u16At container 56
  let sectionSize ← u16At container 58
  reject (¬ allZero padding ∨ kind ≠ 1 ∨ machine ≠ 243 ∨ version ≠ 1 ∨ entry ≠ 0 ∨ programs ≠ 0 ∨
    flags ≠ 0 ∨ size ≠ 64 ∨ programSize ≠ 0 ∨ programCount ≠ 0 ∨ sectionSize ≠ 64) .UnsupportedElf

/-- The section table. -/
def sectionTable (container : Slice) (count : Nat) : Parse Error Range := do
  let table ← bounded container.len (← u64At container 40) (count * 64)
  reject (table.offset < 64 ∨ table.offset % 8 ≠ 0) .BadSectionTable
  let first ← part container table.offset 64
  reject (¬ allZero first) .BadSectionTable
  return table

/-- The section that holds the names. -/
def nameTable (container : Slice) (table : Range) (index : Nat) : Parse Error Slice := do
  let record ← fits 64 (table.offset + index * 64)
  let kind ← u32At container (record + 4)
  reject (kind ≠ 3) .BadNames
  let range ← bounded container.len (← u64At container (record + 24)) (← u64At container (record + 32))
  reject (range.bytes < 2 ∨ range.bytes > maxNamesBytes) .BadNames
  let names ← range.slice container
  let first ← byteAt names 0
  let last ← byteAt names (names.len - 1)
  reject (first ≠ 0 ∨ last ≠ 0) .BadNames
  return names

def inspect (container : Slice) (family : Family) : Parse Error Layout := do
  header container
  let count ← u16At container 60
  let index ← u16At container 62
  reject (count < 4 ∨ count > maxSections ∨ index = 0 ∨ index ≥ count) .BadSectionTable
  let table ← sectionTable container count
  let names ← nameTable container table index
  let found ← (List.range' 1 (count - 1)).foldlM (admitSection container family table names) {}
  let image ← need found.image .MissingImage
  let version ← need found.version .MissingVersion
  let signature ← need found.signature .MissingSignature
  return ⟨image, version, signature, count⟩

end Firmware
end NvidiaGsp
