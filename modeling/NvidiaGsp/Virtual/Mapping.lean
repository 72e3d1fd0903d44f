import NvidiaGsp.Virtual.Wire

/-!
# Virtual.Mapping

The messages that map memory into a virtual range and take it out again (`gsp_virtual_wire.zig`). A
mapping names its memory, the part of it and the place in the range; the answer to a map request gives
the absolute address in place of the offset.
-/

namespace NvidiaGsp
namespace Virtual

open Gsp Bytes

structure Mapping where
  allocation : Allocation
  address : Nat
  memory : Nat
  memoryBytes : Nat
  memoryOffset : Nat := 0
  virtualOffset : Nat := 0
  bytes : Nat
  location : Location
  readonly : Bool := false
  virtualKind : Bool := false
  deriving DecidableEq

inductive MapOperation where
  | map | unmap
  deriving DecidableEq, Repr

def systemSnoop : Word := 0x10

def Mapping.validate (m : Mapping) : Except Error Unit := do
  m.allocation.validate
  m.allocation.validateAddress m.address
  let s := m.allocation.space
  if (m.allocation.blocklinear = true ∨ m.allocation.pteKind ≠ 0) ∧ m.virtualKind = false then
    .error .Profile
  else if m.memory = 0 then .error .Handle
  else if m.memory = s.client ∨ m.memory = s.device ∨ m.memory = s.handle ∨
      m.memory = m.allocation.object then .error .Handle
  else if m.bytes = 0 ∨ (m.memoryBytes ||| m.memoryOffset ||| m.virtualOffset ||| m.bytes) &&& 4095 ≠ 0 ∨
      m.bytes > m.memoryBytes ∨ m.memoryOffset > m.memoryBytes - m.bytes ∨
      m.bytes > m.allocation.bytes ∨ m.virtualOffset > m.allocation.bytes - m.bytes then .error .Bounds
  else .ok ()

/-- The words of a request. -/
def mappingFields (m : Mapping) (operation : MapOperation) : List (Nat × Word) :=
  field 0 m.allocation.space.client ++ field 4 m.allocation.space.device ++
  field 8 m.allocation.object ++ field 12 m.memory ++
  match operation with
  | .map =>
    let flags : Word := 0x100 ||| (if m.location = .system then systemSnoop else 0) |||
      (if m.readonly then 1 else 0) ||| (if m.virtualKind then 8 else 0)
    wide 16 m.memoryOffset ++ wide 24 m.bytes ++ [(32, flags)] ++ wide 40 m.virtualOffset
  | .unmap => wide 24 (m.address + m.virtualOffset)

def MapOperation.size : MapOperation → Nat
  | .map => 56
  | .unmap => 40

def MapOperation.function : MapOperation → Word
  | .map => 14
  | .unmap => 15

def MapOperation.statusAt : MapOperation → Nat
  | .map => 48
  | .unmap => 32

def mapping (m : Mapping) (operation : MapOperation) : Except Error Encoded := do
  m.validate
  pure ⟨operation.function, putAll (List.replicate operation.size 0) (mappingFields m operation)⟩

/-- What an answer need not echo: the status, and the address of a map. -/
def MapOperation.skipped (operation : MapOperation) (i : Nat) : Bool :=
  decide (operation.statusAt ≤ i ∧ i < operation.statusAt + 4) ||
    (operation == .map && decide (40 ≤ i ∧ i < 48))

def mapped (m : Mapping) (operation : MapOperation) (record : Record) : Except Error Reply := do
  let request ← mapping m operation
  let status ← receipt record request operation.statusAt false
  if status ≠ 0 then .ok (.rejected status)
  else if (List.range record.payload.length).any fun i =>
      !operation.skipped i && record.payload.getD i 0 != request.bytes.getD i 0 then .error .Payload
  else
    let address := m.address + m.virtualOffset
    if operation = .map ∧ long record.payload 40 ≠ address then .error .Bounds else .ok (.ok address)

end Virtual
end NvidiaGsp
