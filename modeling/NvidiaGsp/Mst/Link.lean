import NvidiaGsp.Mst.Plan

/-!
# Mst.Link

What the link work of a root tells the source and expects of the receiver (`gsp_mst_link.zig`): the
stream record of a head, and the payload ID a time slot must show. Both read the table before the
transaction or its target, and while a stream is removed they compute the moved slots themselves.
-/

namespace NvidiaGsp
namespace Mst
namespace Link

open Payload

inductive Stage where
  | connected | resource | source | leaf | caps | extendedCaps | mstCaps | control | guid | repeaters
  | heads | active | activeResource | branches | paths | queryOld | tableBefore
  | power | powerOn | train | linkConfig | linkStatus
  | initialClearStatus | initialClear | initialUpdated | initialBranches | initialVerify
  | removeRate | removeRateCheck | removeBranch | removeQuery | removeSource
  | removeClear | removePayload | removeUpdated | removeAct | removeHandled | removeVerify
  | trigger | sourceStreams | rateOn | tableClear | tablePayload | tableUpdated
  | scanout | act | actHandled | tableFinal | clearVsc | clearHdr | branch | branchQuery | rateOff
  | rateCheck | complete
  deriving DecidableEq

/-- The record of `control.Query.stream`. -/
structure Stream where
  head : Nat
  sor : Nat
  link : Nat
  hblank : Nat
  vblank : Nat
  start : Nat
  finish : Nat
  pbn : Nat
  timeslicePbn : Nat
  deriving DecidableEq

/-- What `stream` and `slot` read of the work: the two tables of its transaction, the display ID, SOR
and protocol of its plan, and the stage. -/
structure Work where
  before : Table
  target : Table
  displayId : Nat
  sor : Nat
  protocol : Nat
  stage : Stage

def Work.previousEntry (w : Work) : Option Entry := w.before.find w.displayId

/-- The stream of a table on a head; the last one counts. -/
def onHead (table : Table) (head : Nat) : Option Entry :=
  (table.used.filter fun entry => entry.allocation.head == head).getLast?

def Work.record (w : Work) (head : Nat) (value : Allocation) : Stream where
  head := head
  sor := w.sor
  link := w.protocol - 8
  hblank := value.demand.hblank
  vblank := value.demand.vblank
  start := value.start
  finish := value.start + value.demand.slots - 1
  pbn := value.demand.pbn
  timeslicePbn := value.demand.timeslicePbn

/-- The record that takes a head's stream away. -/
def Work.deletion (w : Work) (head : Nat) : Stream where
  head := head
  sor := w.sor
  link := w.protocol - 8
  hblank := 0
  vblank := 0
  start := 1
  finish := 0
  pbn := 0
  timeslicePbn := 0

def Work.stream (w : Work) (head : Nat) (deleting : Bool) : Option Stream :=
  match onHead (if deleting then w.before else w.target) head with
  | none => none
  | some item =>
    if deleting then
      match w.previousEntry with
      | none => none
      | some old =>
        if item.allocation.displayId = old.allocation.displayId then some (w.deletion head)
        else if item.allocation.start > old.allocation.start then
          some (w.record head { item.allocation with
            start := item.allocation.start - old.allocation.demand.slots })
        else some (w.record head item.allocation)
    else some (w.record head item.allocation)

/-- The loop of `slot` over the streams of a table. -/
def Work.slotOf (w : Work) (offset : Nat) : List Entry → Except Error Nat
  | [] => .ok 0
  | item :: rest =>
    let covers (start : Nat) : Except Error Nat :=
      if offset ≥ start ∧ offset < start + item.allocation.demand.slots then
        .ok item.allocation.payloadId
      else w.slotOf offset rest
    if w.stage = .removeVerify then
      match w.previousEntry with
      | none => .error .Unreachable
      | some removed =>
        if item.allocation.payloadId = removed.allocation.payloadId then w.slotOf offset rest
        else if item.allocation.start > removed.allocation.start then
          covers (item.allocation.start - removed.allocation.demand.slots)
        else covers item.allocation.start
    else covers item.allocation.start

def Work.slot (w : Work) (offset : Nat) : Except Error Nat :=
  if w.stage = .initialVerify then .ok 0
  else w.slotOf offset (if w.stage = .tableFinal then w.target else w.before).used

end Link
end Mst
end NvidiaGsp
