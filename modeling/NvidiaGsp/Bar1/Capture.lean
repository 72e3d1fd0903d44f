import NvidiaGsp.Bar1.Walk

/-!
# Bar1.Capture

How the whole boot surface is translated (`boot_mapping.zig`): the surface is walked part by part, the
parts that follow on each other are joined, and every page that an entry was read from is kept.
-/

namespace NvidiaGsp
namespace Bar1

open Bytes Call

def maxSurfaceBytes : Nat := 64 * 1024 * 1024
def maxRanges : Nat := 1024
def maxPages : Nat := 128

/-- The boot surface and what its walks share; `backs` is whether the memory for the pages is given. -/
structure Surface where
  epoch : Nat
  deadline : Nat
  boot0 : Word
  boot1 : Word
  chip : Option Nat
  bar : Bar
  framebufferBytes : Nat
  physicalAddress : Nat
  byteLength : Nat
  backs : Bool

structure Page where
  address : Nat
  data : List Byte

structure Held where
  world : World := {}
  control : Option Control := none
  format : Format := .physical
  ranges : List Span := []
  pages : List Page := []
  referenced : Bool := false

abbrev Capturing (α : Type) := Call Fault Held α

/-- A step of the reader, which leaves the capture as it is. -/
def observing {α : Type} (x : Step α) : Capturing α := fun h =>
  match x h.world with
  | .ok a w => .ok a { h with world := w }
  | .error e w => .error e { h with world := w }

/-- The request for what is left of the surface. -/
def Surface.request (s : Surface) (offset : Nat) : Except Fault Request :=
  if s.physicalAddress + offset ≥ 2 ^ 64 then .error .Overflow
  else .ok ⟨s.epoch, s.deadline, s.boot0, s.boot1, s.chip, s.bar, s.framebufferBytes,
    s.physicalAddress + offset, s.byteLength - offset⟩

/-- All parts must be under one control word and in one format. -/
def settle (report : Report) : Capturing Unit := do
  let h ← get
  match h.control with
  | some control => failIf (control ≠ report.control ∨ h.format ≠ report.format) .Unstable
  | none => set { h with control := some report.control, format := report.format }

/-- The ranges with one more, which continues the last of them or stands alone. -/
def joined (ranges : List Span) (value : Span) : Option (List Span) :=
  match ranges.getLast? with
  | none => none
  | some previous =>
    if previous.address + previous.bytes = value.address then
      some (ranges.dropLast ++ [⟨previous.address, previous.bytes + value.bytes⟩])
    else none

def addRange (value : Span) : Capturing Unit := do
  failIf (value.bytes = 0) .Bounds
  let h ← get
  match joined h.ranges value with
  | some ranges => set { h with ranges := ranges }
  | none => do
    failIf (h.ranges.length = maxRanges) .Capacity
    set { h with ranges := h.ranges ++ [value] }

section

variable (vram : Nat → Byte) (reader : Reader) (s : Surface)

/-- A whole page, by the reader's own call. -/
def readPage (address : Nat) : Step (List Byte) := do
  failIf (address > s.framebufferBytes ∨ 4096 > s.framebufferBytes - address ∨ address ≥ 2 ^ 40) .Bounds
  failIf (4096 > 2 ^ 20 - address % 2 ^ 20) .Bounds
  let failure ← tick reader.readFails
  failIf (failure ≠ none) (.reader (failure.getD 0))
  pure (content vram address 4096)

/-- The memory for the pages, once. -/
def back : Capturing Unit := do
  let h ← get
  if h.referenced then pure ()
  else do
    failIf (s.backs = false) .Buffer
    modify fun h => { h with referenced := true }

/-- A page that no entry was read from before. -/
def keepPage (address : Nat) : Capturing (List Byte) := do
  let h ← get
  failIf (h.pages.length = maxPages) .Capacity
  back s
  let data ← observing (readPage vram reader s address)
  modify fun h => { h with pages := h.pages ++ [⟨address, data⟩] }
  pure data

def pageAt (pages : List Page) (address : Nat) : Option (List Byte) :=
  (pages.find? fun page => page.address = address).map Page.data

def preserve (entry : Entry) : Capturing Unit := do
  let address := entry.address / 4096 * 4096
  let offset := entry.address - address
  failIf (entry.bytes > 4096 - offset) .Bounds
  let h ← get
  let data ← match pageAt h.pages address with
    | some data => pure data
    | none => keepPage vram reader s address
  failIf (entry.value ≠ (data.drop offset).take entry.bytes) .Unstable

def preserveAll : List Entry → Capturing Unit
  | [] => pure ()
  | entry :: rest => do
    preserve vram reader s entry
    preserveAll rest

/-- One turn of the loop, and where the next begins. -/
def part (offset : Nat) : Capturing Nat := do
  let q ← lift (s.request offset)
  let result ← observing (resolve vram q reader)
  settle result
  addRange result.mapped
  preserveAll vram reader s result.entries
  pure (offset + result.mapped.bytes)

/-- The loop; the answer is whether it came to its end with the fuel it had. -/
def parts : Nat → Nat → Capturing Bool
  | 0, offset => pure (decide (s.byteLength ≤ offset))
  | fuel + 1, offset =>
    if offset < s.byteLength then do
      let next ← part vram reader s offset
      parts fuel next
    else pure true

def capture : Capturing Bool := do
  failIf (s.byteLength = 0 ∨ s.byteLength > maxSurfaceBytes) .Capacity
  parts vram reader s s.byteLength 0

end

end Bar1
end NvidiaGsp
