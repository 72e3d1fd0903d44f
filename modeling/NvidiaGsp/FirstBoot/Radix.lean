import NvidiaGsp.FirstBoot.Layout
import NvidiaGsp.Lib.Triples
import NvidiaGsp.Lib.Words

/-!
# FirstBoot.Radix

The three-level table over the firmware image (`gsp_radix.zig`): how many pages each level takes, the
cursor that turns offsets of the output into device addresses, and the encoding. The overlaps of the
caller's buffers are a parameter, as buffers here have no addresses.
-/

namespace NvidiaGsp
namespace FirstBoot
namespace Radix

open Bytes Call

def pageBytes : Nat := 4096
def entriesPerPage : Nat := pageBytes / 8
def maxSegments : Nat := 256
def dmaMask : Nat := 2 ^ 49 - 1

structure Segment where
  address : Nat
  bytes : Nat
  deriving DecidableEq, Repr

structure Level where
  pages : Nat
  offset : Nat

structure Requirements where
  imageBytes : Nat
  levels : Nat → Level
  tableBytes : Nat
  allocationBytes : Nat

/-- The pages of a level, counted from the data upwards. -/
def pagesAbove (imageBytes : Nat) : Nat → Nat
  | 0 => (imageBytes + pageBytes - 1) / pageBytes
  | n + 1 => (pagesAbove imageBytes n + entriesPerPage - 1) / entriesPerPage

/-- Where a level begins: behind the pages of the levels before it. -/
def offsetOf (imageBytes : Nat) : Nat → Nat
  | 0 => 0
  | i + 1 => offsetOf imageBytes i + pagesAbove imageBytes (3 - i) * pageBytes

def requirements (imageBytes : Nat) : Parse Error Requirements := do
  Parse.reject (imageBytes = 0 ∨ imageBytes > maxImageBytes) .ImageSize
  pure {
    imageBytes := imageBytes
    levels := fun i => ⟨pagesAbove imageBytes (3 - i), offsetOf imageBytes i⟩
    tableBytes := offsetOf imageBytes 3
    allocationBytes := offsetOf imageBytes 3 + pagesAbove imageBytes 0 * pageBytes }

/-! ## The segments -/

/-- The checks of a single span. -/
def Segment.check (s : Segment) : Parse Error Unit := do
  Parse.reject (s.address = 0 ∨ s.address > dmaMask ∨ s.bytes = 0 ∨
    s.bytes - 1 > dmaMask - s.address) .Address
  Parse.reject (s.address % pageBytes ≠ 0 ∨ s.bytes % pageBytes ≠ 0) .Alignment

def Segment.overlaps (a b : Segment) : Prop :=
  a.address < b.address + b.bytes ∧ b.address < a.address + a.bytes

instance {a b : Segment} : Decidable (a.overlaps b) := inferInstanceAs (Decidable (_ ∧ _))

/-- The loop over the segments, and the bytes they cover. -/
def cover (allocationBytes : Nat) : List Segment → List Segment → Nat → Parse Error Nat
  | [], _, covered => pure covered
  | s :: rest, before, covered => do
    s.check
    let free ← Parse.minus allocationBytes covered
    Parse.reject (s.bytes > free) .Capacity
    let covered ← Parse.fits 64 (covered + s.bytes)
    Parse.reject (∃ previous ∈ before, s.overlaps previous) .Overlap
    cover allocationBytes rest (before ++ [s]) covered

structure Cursor where
  index : Nat
  offset : Nat

/-- `Cursor.address`; `none` where it would index past the segments or subtract too much. -/
def Cursor.address (segments : List Segment) (logical : Nat) : Nat → Cursor → Option (Nat × Cursor)
  | 0, _ => none
  | n + 1, c =>
    if logical < c.offset then none
    else
      match segments[c.index]? with
      | none => none
      | some s =>
        if logical - c.offset ≥ s.bytes then
          Cursor.address segments logical n ⟨c.index + 1, c.offset + s.bytes⟩
        else some (s.address + logical - c.offset, c)

/-! ## The encoding -/

/-- The positions of the entries and what they point to, in the order of the two loops. -/
def Requirements.slots (need : Requirements) : List (Nat × Nat) :=
  (List.range 3).flatMap fun level => (List.range (need.levels (level + 1)).pages).map fun page =>
    ((need.levels level).offset + page * 8, (need.levels (level + 1)).offset + page * pageBytes)

abbrev Encoding (α : Type) := Call (Stop Error) (List Byte) α

/-- One entry after the other, with the cursor moving along. -/
def fill (segments : List Segment) : List (Nat × Nat) → Cursor → Encoding Unit
  | [], _ => pure ()
  | (offset, logical) :: rest, cursor => do
    let found ← need (cursor.address segments logical (segments.length + 1)) (.trap .bounds)
    let output ← get
    failIf (offset + 8 > output.length ∨ found.1 ≥ 2 ^ 64) (.trap .bounds)
    set (store output offset 8 found.1)
    fill segments rest found.2

def encode (image : List Byte) (segments : List Segment) (aliased : Bool) : Encoding Nat := do
  let required ← lift (requirements image.length)
  let output ← get
  failIf (output.length ≠ required.allocationBytes) (.error .Capacity)
  failIf (segments.length = 0 ∨ segments.length > maxSegments) (.error .Segments)
  failIf aliased (.error .Overlap)
  let covered ← lift (cover required.allocationBytes segments [] 0)
  failIf (covered ≠ required.allocationBytes) (.error .Capacity)
  failIf (required.tableBytes + image.length > output.length) (.trap .bounds)
  let cleared := blit output 0 (List.replicate required.tableBytes 0)
  set (blit cleared (required.tableBytes + image.length)
    (List.replicate (output.length - (required.tableBytes + image.length)) 0))
  fill segments required.slots ⟨0, 0⟩
  modify fun output => blit output required.tableBytes image
  let root ← need segments[0]? (.trap .bounds)
  pure root.address

/-! ## Reading it back -/

/-- The logical offset behind a device address. -/
def logicalOf : List Segment → Nat → Option Nat
  | [], _ => none
  | s :: rest, address =>
    if s.address ≤ address ∧ address < s.address + s.bytes then some (address - s.address)
    else (logicalOf rest address).map (s.bytes + ·)

/-- An entry of the table at a device address. -/
def entry (segments : List Segment) (output : List Byte) (table index : Nat) : Option Nat :=
  (logicalOf segments (table + 8 * index)).map fun offset => number output offset 8

/-- The page of the image that the table leads to. -/
def walk (segments : List Segment) (output : List Byte) (root page : Nat) : Option Nat := do
  let middle ← entry segments output root (page / 512 ^ 2)
  let leaf ← entry segments output middle (page / 512 % 512)
  entry segments output leaf (page % 512)

end Radix
end FirstBoot
end NvidiaGsp
