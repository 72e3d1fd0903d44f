import NvidiaGsp.Gsp.ExchangeRuns
import NvidiaGsp.Rm.NamesRuns
import NvidiaGsp.Virtual.Wire
import NvidiaGsp.Vm.Room

/-!
# Virtual.Range

The creation and the destruction of a GPU virtual range (`gsp_virtual_range.zig`). The firmware
manages the range, over the exchange, or the host does, in its own address space (`space.host`). An
owner here has no active binding; with one the same `poll` maps or unmaps it.

`World` is the range with what it calls: the exchange, the ledger of names and the host space. A
request that the firmware rejects ends with the range ready, without an address and without names
(`rejected_refused`). A request that the host space has no room for ends in `fail`, which stops the
session: the two ways to manage a space agree exactly where the host has room
(`host_create_alike`).
-/

namespace NvidiaGsp
namespace Virtual

open Call

/-- The errors of the parts; those of the range itself are among the first. -/
inductive Error where
  | exchange (e : Gsp.Error)
  | names (e : Names.Error)
  | host (e : Vm.Error)
  deriving DecidableEq

inductive State where
  | creating | ready | handedOff | mapping | unmapping | destroying | closed | finished | failed
  deriving DecidableEq, Repr

structure Config where
  bytes : Nat
  alignment : Nat := 4096
  fixedAddress : Nat := 0
  location : Location := .system
  blocklinear : Bool := false
  pteKind : Nat := 0

structure Owner where
  plan : Allocation
  stamp : Allocation
  reservation : Names.Children
  namespaceLive : Bool := true
  state : State := .creating
  address : Nat := 0
  /-- The address of the buffer `request`. -/
  request : Nat
  submitted : Bool := false
  deadline : Nat
  rejected : Option Word := none
  failure : Option Error := none
  protocolFailure : Option Gsp.Error := none
  hostRange : Vm.RangeId

structure World (D E : Type) where
  range : Owner
  serving : Gsp.Owner D
  names : Names.World
  host : Vm.World E

section

variable {D E : Type} (port : Gsp.Port D) (vm : Vm.Port E) (here : Nat)

/-- A call on the range and what it owns. -/
abbrev RangeCall (D E α : Type) := Call Error (World D E) α

def onServing {α : Type} : Gsp.Serving D α → RangeCall D E α :=
  zoom World.serving (fun s w => { w with serving := s }) .exchange

def onNames {α : Type} : Names.Op α → RangeCall D E α :=
  zoom World.names (fun s w => { w with names := s }) .names

def onHost {α : Type} : Vm.VmCall E α → RangeCall D E α :=
  zoom World.host (fun s w => { w with host := s }) .host

def update (f : Owner → Owner) : RangeCall D E Unit := fun w => .ok () { w with range := f w.range }

/-- A session with its ledger of names. -/
abbrev InitCall (D α : Type) := Call Error (Gsp.World D × Names.World) α

def onSession {α : Type} : Gsp.Transport D α → InitCall D α :=
  zoom Prod.fst (fun s t => (s, t.2)) .exchange

def onLedger {α : Type} : Names.Op α → InitCall D α := zoom Prod.snd (fun s t => (t.1, s)) .names

/-- `init` behind the reservation of the name. -/
def build (token : Gsp.Handoff) (space : Space) (config : Config) (deadline request : Nat)
    (reservation : Names.Children) (hostRange : Vm.RangeId) :
    InitCall D (Owner × Gsp.Exchange × Gsp.Handoff) := do
  let object ← onLedger (lift (reservation.object 0))
  let plan : Allocation := {
    space, object, bytes := config.bytes, alignment := config.alignment,
    fixedAddress := config.fixedAddress, location := config.location,
    blocklinear := config.blocklinear, pteKind := config.pteKind }
  onSession (lift plan.validate)
  let taken ← onSession (Gsp.Exchange.init port token deadline)
  pure ({ plan, stamp := plan, reservation, deadline, request, hostRange }, taken)

def init (token : Gsp.Handoff) (space : Space) (parent : Names.Lease) (config : Config)
    (deadline request : Nat) (storage : Option Nat) (hostRange : Vm.RangeId) :
    InitCall D (Owner × Gsp.Exchange × Gsp.Handoff) := do
  let session := (← get).1.session
  failIf (token.claimed = true ∨ session.state ≠ .active ∨ session.pending ≠ none ∨
    space.epoch ≠ session.epoch ∨ parent.epoch ≠ space.epoch ∨ parent.client ≠ space.client)
    (.exchange .Stale)
  onSession (Gsp.Session.guard port deadline)
  let reservation ← onLedger (match storage with
    | some resident => Names.reserveResidentChildren here parent 1 resident
    | none => Names.reserveChildren parent 1)
  cleaning (build port token space config deadline request reservation hostRange)
    fun t => (t.1, (outcome (Names.retireChildren here reservation) t.2).2)

def stable : RangeCall D E Unit := do
  let w ← get
  failIf (w.range.plan.space.epoch ≠ w.serving.world.session.epoch ∨ w.range.plan ≠ w.range.stamp)
    (.exchange .Stale)
  if w.range.namespaceLive then onNames (Names.validateChildren here w.range.reservation) else pure ()

/-- The names of a failed range are not issued again; an error of the ledger is dropped. -/
def retainNames : RangeCall D E Unit := do
  let r := (← get).range
  if r.namespaceLive then do
    let _ ← (catching (onNames (Names.retainChildren here r.reservation)) : RangeCall D E _)
    pure ()
  else pure ()

/-- The exchange stops the session; `fail` returns its error. -/
def stopSession : RangeCall D E Unit := fun w =>
  match (Gsp.Exchange.fail .Handler : Gsp.Serving D Unit) w.serving with
  | .ok _ s => .ok () { w with serving := s }
  | .error e s =>
    .ok () { w with serving := s, range := { w.range with protocolFailure := some e } }

def fail {α : Type} (reason : Error) : RangeCall D E α := do
  update fun r => { r with failure := some reason, state := .failed }
  retainNames here
  stopSession
  throw reason

/-! ## Over the exchange -/

def Owner.encode (r : Owner) : Except Gsp.Error Encoded :=
  match r.state with
  | .creating => allocate r.plan
  | .destroying => free r.plan
  | _ => .error .State

def Owner.decode (r : Owner) (record : Gsp.Record) : Except Gsp.Error Reply :=
  match r.state with
  | .creating => allocated r.plan record
  | .destroying => freed r.plan record
  | _ => .error .State

def submit : RangeCall D E Unit := do
  let r := (← get).range
  if r.submitted then pure ()
  else do
    let encoded ← onServing (lift r.encode)
    onServing (Gsp.Exchange.begin port encoded.function ⟨r.request, encoded.bytes⟩ r.deadline)
    update fun r => { r with submitted := true }

def retireNames : RangeCall D E Unit := do
  let r := (← get).range
  onNames (Names.retireChildren here r.reservation)
  update fun r => { r with namespaceLive := false }

/-- The answer to the request. No address and no retired name precedes its acknowledgement. -/
def settle (dispatch : Gsp.Dispatch) : RangeCall D E (Option Gsp.Dispatch) := do
  let r := (← get).range
  let result ← onServing (lift (r.decode dispatch.record))
  onServing (Gsp.Exchange.complete port dispatch.ticket)
  match result with
  | .rejected status => do
    update fun r => { r with rejected := some status }
    failIf (r.state = .destroying) (.exchange .FirmwareResult)
  | .ok _ => pure ()
  match r.state with
  | .creating => do
    match result with
    | .ok address => update fun r => { r with address }
    | .rejected _ => retireNames here
    update fun r => { r with state := .ready }
  | .destroying => do
    retireNames here
    update fun r => { r with address := 0, state := .closed }
  -- Not reached: `decode` refused.
  | _ => throw (.exchange .State)
  update fun r => { r with submitted := false }
  pure none

def advanceFirmware : RangeCall D E (Option Gsp.Dispatch) := do
  submit port
  let r := (← get).range
  let dispatch ← onServing (Gsp.Exchange.poll port r.deadline)
  match dispatch with
  | none => pure none
  | some d => if d.response then settle port here d else pure (some d)

/-! ## In the host's space -/

def advanceHost : RangeCall D E Unit := do
  let r := (← get).range
  match r.state with
  | .creating => do
    let address ← onHost
      (Vm.reserve vm r.hostRange r.plan.bytes r.plan.alignment r.plan.fixedAddress)
    update fun r => { r with address, state := .ready }
  | .destroying => do
    onHost (Vm.releaseRange vm r.hostRange)
    retireNames here
    update fun r => { r with address := 0, state := .closed }
  | _ => throw (.exchange .State)

def advance : RangeCall D E (Option Gsp.Dispatch) := do
  let r := (← get).range
  onServing (Gsp.Exchange.guard port r.deadline)
  failIf ((← get).serving.exchange.pending ≠ none) (.exchange .Pending)
  if r.plan.space.host then do
    let dispatch ← onServing (Gsp.Exchange.poll port r.deadline)
    match dispatch with
    | some d => pure (some d)
    | none => do
      if (← get).serving.exchange.inLockdown then pure none
      else do
        advanceHost vm here
        pure none
  else advanceFirmware port here

def poll : RangeCall D E (Option Gsp.Dispatch) := do
  stable here
  let r := (← get).range
  failIf (r.state ≠ .creating ∧ r.state ≠ .mapping ∧ r.state ≠ .unmapping ∧ r.state ≠ .destroying)
    (.exchange .State)
  let result ← catching (advance port vm here)
  match result with
  | .ok d => pure d
  | .error e => if e = .exchange .Pending then throw e else fail here e

end

end Virtual
end NvidiaGsp
