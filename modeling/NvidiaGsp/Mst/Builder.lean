import NvidiaGsp.Lib.Runs
import NvidiaGsp.Mst.Messages

/-!
# Mst.Builder

The capture of one root's topology (`gsp_mst_topology.zig`). `Builder` asks each branch for its ports,
each port in use for its bandwidth, each sink for its capabilities and its EDID, and goes on with the
branches it finds on the way. At the end it asks every branch again, and the graph is coherent only
when none of them says anything new.

The arrays of the graph with their counts are lists. The source's `Builder` holds a pointer to the
graph, here the graph is in it. The hash behind a made-up GUID and the EDID parser are parameters
(`Host`); of the parser's report only the verdict is kept.
-/

namespace NvidiaGsp
namespace Mst

/-- The address one hop further. -/
def Route.child (r : Route) (port : Nat) : Except Wire.Error Route :=
  if r.valid = false ∨ port > 15 ∨ r.depth = 14 then .error .Bounds
  else .ok ⟨r.depth + 1, r.ports.setIfInBounds r.depth (BitVec.ofNat 8 port)⟩

namespace Capture

open Wire (Request Reply Op emptyGuid)

inductive Error where
  | Descriptor | Stale | Deadline | Pending | State | Routing | Capacity | Aux | Unexpected | Topology
  | Payload | Bounds
  /-- The code unwrapped an optional that was null, or read past the end of a list. -/
  | Unreachable
  deriving DecidableEq, Repr

/-! ## The graph -/

structure Branch where
  route : Route := {}
  expectedGuid : Guid := emptyGuid
  parentEdge : Option Nat := none
  path : List Nat := []
  descriptor : Option Wire.Branch := none
  receipt : Nat := 0

structure Edge where
  branch : Nat
  port : Wire.Port
  resources : Option Wire.Path
  receipt : Nat

inductive SinkState where
  | pending | valid | incomplete | missing | invalid | unsupported
  deriving DecidableEq, Repr

structure Sink where
  edge : Nat
  path : List Nat
  state : SinkState := .pending
  caps : Option (List Byte) := none
  bytes : List Byte := []
  receipt : Nat := 0

structure Graph where
  epoch : Nat := 0
  generation : Nat := 0
  root : Nat := 0
  branches : List Branch := []
  edges : List Edge := []
  sinks : List Sink := []
  coherent : Bool := false
  completionReceipt : Nat := 0

/-- What the EDID parser says: all blocks are there, some are missing, or why it gave up. -/
inductive Verdict where
  | complete | incomplete | unsupported | invalid
  deriving DecidableEq, Repr

structure Host where
  sha256 : List Byte → Vector Byte 32
  maxBlocks : Nat
  parse : List Byte → Verdict

/-- The state that `parseSink` gives a sink with these bytes. -/
def Host.state (host : Host) (bytes : List Byte) : SinkState :=
  match host.parse bytes with
  | .complete => .valid
  | .incomplete => .incomplete
  | .unsupported => .unsupported
  | .invalid => .invalid

/-- Does `parseSink` return true? -/
def Host.parsed (host : Host) (bytes : List Byte) : Bool :=
  host.parse bytes == .complete || host.parse bytes == .incomplete

inductive Action where
  | sideband (route : Route) (request : Request)
  /-- Write this GUID over the root's own AUX channel. -/
  | rootAux (guid : Guid)
  deriving DecidableEq

inductive Observation where
  | sideband (reply : Reply)
  | rootAux (status : Nat) (ack : Bool) (count : Nat)

inductive Stage where
  | branch | guidWrite | resources | caps | edid | edidVerify | verify | complete | cancelled
  deriving DecidableEq, Repr

/-- `branch` and `port` are the place in the graph, `sink` and `block` the EDID being read. -/
structure Builder where
  graph : Graph
  epoch : Nat
  generation : Nat
  root : Nat
  seed : Guid
  deadline : Nat
  stage : Stage := .branch
  branch : Nat := 0
  port : Nat := 0
  verifyBranch : Nat := 0
  sink : Nat := 0
  block : Nat := 0
  blocks : Nat := 1
  pending : Bool := false
  lastReceipt : Nat
  failure : Option Error := none

abbrev Result := Except Error Unit × Builder

namespace Builder

def init (epoch generation root : Nat) (seed : Guid) (afterReceipt deadline : Nat) :
    Except Error Builder :=
  if epoch = 0 ∨ generation = 0 ∨ root = 0 ∨ root &&& (root - 1) ≠ 0 ∨ afterReceipt = 0 ∨
      deadline = 0 ∨ seed.isZero = true then .error .Descriptor
  else .ok {
    graph := { epoch, generation, root, branches := [{}] }
    epoch, generation, root, seed, deadline, lastReceipt := afterReceipt }

def done (b : Builder) : Result := (.ok (), b)

def fail (b : Builder) (e : Error) : Result := (.error e, b)

def setBranch (b : Builder) (i : Nat) (f : Branch → Branch) : Builder :=
  { b with graph := { b.graph with branches := b.graph.branches.modify i f } }

def setSink (b : Builder) (f : Sink → Sink) : Builder :=
  { b with graph := { b.graph with sinks := b.graph.sinks.modify b.sink f } }

def invalidate (b : Builder) : Builder :=
  { b with stage := .cancelled, graph := { b.graph with coherent := false } }

def guard (b : Builder) (generation now : Nat) : Except Error Unit :=
  if b.failure ≠ none ∨ b.stage = .cancelled ∨ generation ≠ b.generation ∨
      b.graph.generation ≠ b.generation ∨ b.graph.epoch ≠ b.epoch ∨ b.graph.root ≠ b.root then
    .error .Stale
  else if now ≥ b.deadline then .error .Deadline
  else .ok ()

/-! ## Requests -/

/-- A request to the branch at index `i`. -/
def toBranch (b : Builder) (i : Nat) (request : Branch → Option Request) : Except Error Action :=
  match b.graph.branches[i]? with
  | none => .error .Unreachable
  | some branch =>
    match request branch with
    | none => .error .Unreachable
    | some request => .ok (.sideband branch.route request)

/-- The edge of the sink being read. -/
def sinkEdge (b : Builder) : Option Edge := b.graph.sinks[b.sink]?.bind fun s => b.graph.edges[s.edge]?

def guidWrite (b : Builder) : Except Error Action :=
  match b.graph.branches[b.branch]? with
  | none => .error .Unreachable
  | some branch =>
    match branch.parentEdge with
    | none => .ok (.rootAux branch.expectedGuid)
    | some index =>
      match b.graph.edges[index]? with
      | none => .error .Unreachable
      | some parent => b.toBranch parent.branch fun _ =>
          some (.dpcdWrite parent.port.number 0x30 16 branch.expectedGuid)

def action (b : Builder) : Except Error Action :=
  match b.stage with
  | .branch => b.toBranch b.branch fun _ => some .linkAddress
  | .guidWrite => b.guidWrite
  | .resources => b.toBranch b.branch fun branch =>
      (branch.descriptor.bind (·.ports[b.port]?)).map fun port => .enumPath port.number
  | .caps => b.toBranch b.branch fun _ => b.sinkEdge.map fun edge => .dpcdRead edge.port.number 0 16
  | .edid => b.toBranch b.branch fun _ => b.sinkEdge.map fun edge => .edid edge.port.number b.block
  | .edidVerify => b.toBranch b.branch fun _ => b.sinkEdge.map fun edge => .edid edge.port.number 0
  | .verify => b.toBranch b.verifyBranch fun _ => some .linkAddress
  | .complete | .cancelled => .error .State

def prepare (b : Builder) (generation now : Nat) : Except Error (Option Action) × Builder :=
  match b.guard generation now with
  | .error e => (.error e, b)
  | .ok () =>
    if b.pending then (.error .Pending, b)
    else if b.stage = .complete then (.ok none, b)
    else match b.action with
      | .error e => (.error e, b)
      | .ok value => (.ok (some value), { b with pending := true })

/-! ## Answers -/

/-- An output port with something behind it. -/
def usable (p : Wire.Port) : Bool := !p.input && (p.connected || p.legacyConnected)

/-- On to the next port in use from `port` on, else to the next branch, else to the second look. -/
def nextPort (b : Builder) : Result :=
  match b.graph.branches[b.branch]?.bind (·.descriptor) with
  | none => b.fail .Unreachable
  | some current =>
    match (current.ports.drop b.port).findIdx? usable with
    | some skipped => done { b with port := b.port + skipped, stage := .resources }
    | none =>
      if b.branch + 1 < b.graph.branches.length then
        done { b with branch := b.branch + 1, port := 0, stage := .branch }
      else done { b with branch := b.graph.branches.length - 1, port := 0, stage := .verify }

def nextSink (b : Builder) : Result := nextPort { b with port := b.port + 1 }

/-- A GUID for the branch at a route, out of the boot identifier. -/
def guid (host : Host) (b : Builder) (route : Route) : Guid :=
  let digest := host.sha256 (b.seed.toList ++ BitVec.ofNat 8 route.depth :: route.ports.toList)
  Vector.ofFn fun i =>
    let byte := digest[i.val]
    if i.val = 6 then byte &&& 15 ||| 0x40 else if i.val = 8 then byte &&& 63 ||| 0x80 else byte

/-- The parent's port to a branch that had no GUID reports the one it was given. -/
def relabel (number : Nat) (guid : Guid) (branch : Branch) : Branch :=
  { branch with descriptor := branch.descriptor.map fun d =>
      { d with ports := d.ports.map fun port =>
          if port.number = number ∧ port.guid.isZero = true then { port with guid } else port } }

def acceptBranch (host : Host) (b : Builder) (value : Wire.Branch) (serial : Nat) : Result :=
  match b.graph.branches[b.branch]? with
  | none => b.fail .Unreachable
  | some current =>
    if value.guid.isZero = true then
      if current.expectedGuid.isZero = false then b.fail .Stale
      else done { b.setBranch b.branch fun c => { c with expectedGuid := b.guid host current.route } with
        stage := .guidWrite }
    else if current.expectedGuid.isZero = false ∧ current.expectedGuid ≠ value.guid then b.fail .Stale
    else if (b.graph.branches.take b.branch).any fun previous => previous.descriptor = none then
      b.fail .Unreachable
    else if (b.graph.branches.take b.branch).any fun previous =>
        previous.descriptor.any (·.guid = value.guid) then b.fail .Routing
    else
      let b := b.setBranch b.branch fun c =>
        { c with expectedGuid := value.guid, descriptor := some value, receipt := serial }
      match current.parentEdge with
      | none => b.nextPort
      | some index =>
        match b.graph.edges[index]? with
        | none => b.fail .Unreachable
        | some parent => (b.setBranch parent.branch (relabel parent.port.number value.guid)).nextPort

def acceptResources (b : Builder) (value : Option Wire.Path) (serial : Nat) : Result :=
  match b.graph.branches[b.branch]? with
  | none => b.fail .Unreachable
  | some branch =>
    match branch.descriptor.bind (·.ports[b.port]?) with
    | none => b.fail .Unreachable
    | some port =>
      if b.graph.edges.length = maxEdges then b.fail .Capacity
      else if value.any (·.port ≠ port.number) then b.fail .Stale
      else
        let index := b.graph.edges.length
        let g := { b.graph with edges := b.graph.edges ++ [⟨b.branch, port, value, serial⟩] }
        let added := { b with graph := g }
        let path := branch.path ++ [index]
        if value = none then added.nextSink
        else if branch.path.length = 15 then added.fail .Capacity
        else if port.peer = .branch ∧ port.messaging = true then
          if b.graph.branches.length = maxBranches then added.fail .Capacity
          else match branch.route.child port.number with
            | .error _ => added.fail .Bounds
            | .ok route => nextSink { b with graph := { g with branches := b.graph.branches ++
                [{ route, expectedGuid := port.guid, parentEdge := some index, path }] } }
        else if port.peer = .sink ∨ port.peer = .legacy ∨ port.peer = .upstream ∨ port.peer = .branch then
          if b.graph.sinks.length = maxSinks then added.fail .Capacity
          else done { b with
            graph := { g with sinks := b.graph.sinks ++ [{ edge := index, path }] }
            sink := b.graph.sinks.length, block := 0, blocks := 1, stage := .caps }
        else added.nextSink

/-- A block of EDID, or the refusal of one, in the stage `edid`. -/
def acceptBlock (host : Host) (b : Builder) (sink : Sink) : Option (List Byte) → Result
  | none =>
    if sink.bytes = [] then (b.setSink fun s => { s with state := .missing }).nextSink
    else done { b.setSink fun s => { s with state := host.state s.bytes } with stage := .edidVerify }
  | some data =>
    let bytes := sink.bytes ++ data
    let read := b.setSink fun s => { s with bytes }
    let parsed := b.setSink fun s => { s with bytes, state := host.state bytes }
    if b.block = 0 then
      if host.parsed bytes = false then parsed.nextSink
      else if (bytes.getD 126 0).toNat ≥ host.maxBlocks then
        (b.setSink fun s => { s with bytes, state := .unsupported }).nextSink
      else
        let blocks := (bytes.getD 126 0).toNat + 1
        done { parsed with blocks, block := 1, stage := if 1 = blocks then .edidVerify else .edid }
    else if b.block + 1 = b.blocks then done { parsed with block := b.block + 1, stage := .edidVerify }
    else done { read with block := b.block + 1 }

/-- An answer to the read of an EDID block; the second look is at the first block only. -/
def acceptEdid (host : Host) (b : Builder) (request : Request) (reply : Reply) (serial : Nat) : Result :=
  let b := b.setSink fun s => { s with receipt := serial }
  match b.graph.sinks[b.sink]? with
  | none => b.fail .Unreachable
  | some sink =>
    match reply with
    | .nack .. => if b.stage = .edidVerify then b.fail .Stale else b.acceptBlock host sink none
    | .data port bytes =>
      if bytes.length ≠ 128 ∨ some port ≠ request.port then b.fail .Payload
      else if b.stage = .edidVerify then
        if sink.bytes.take 128 ≠ bytes then b.fail .Stale else b.nextSink
      else b.acceptBlock host sink (some bytes)
    | _ => b.fail .Payload

def acceptVerify (b : Builder) (reply : Reply) (serial : Nat) : Result :=
  match b.graph.branches[b.verifyBranch]?.bind (·.descriptor) with
  | none => b.fail .Unreachable
  | some descriptor =>
    if reply ≠ .branch descriptor then b.fail .Stale
    else
      let b := { b.setBranch b.verifyBranch fun c => { c with receipt := serial } with
        verifyBranch := b.verifyBranch + 1 }
      if b.verifyBranch = b.graph.branches.length then
        done { b with
          graph := { b.graph with coherent := true, completionReceipt := serial }, stage := .complete }
      else b.done

/-- An answer over the sideband; the refusal of a request names its operation. -/
def answered (host : Host) (b : Builder) (request : Request) (reply : Reply) (serial : Nat) : Result :=
  match reply with
  | .nack op .. =>
    if op ≠ request.op then b.fail .Stale
    else match b.stage with
    | .resources => b.acceptResources none serial
    | .caps => done { b with stage := .edid }
    | .edid | .edidVerify => b.acceptEdid host request reply serial
    | .verify => b.acceptVerify reply serial
    | .branch | .guidWrite => b.fail .Topology
    | .complete | .cancelled => b.fail .State
  | reply =>
    match b.stage, reply with
    | .branch, .branch value => b.acceptBranch host value serial
    | .branch, _ => b.fail .Topology
    | .guidWrite, .ack .dpcdWrite => done { b with stage := .branch }
    | .guidWrite, _ => b.fail .Topology
    | .resources, .path value => b.acceptResources (some value) serial
    | .resources, _ => b.fail .Topology
    | .caps, .data port bytes =>
      if bytes.length ≠ 16 ∨ some port ≠ request.port then b.fail .Payload
      else done { b.setSink fun s => { s with caps := some bytes } with stage := .edid }
    | .caps, _ => b.fail .Payload
    | .edid, reply | .edidVerify, reply => b.acceptEdid host request reply serial
    | .verify, reply => b.acceptVerify reply serial
    | .complete, _ | .cancelled, _ => b.fail .State

/-- What `consume` does with an answer that is not out of date. -/
def accept (host : Host) (b : Builder) (generation : Nat) (observed : Observation) (serial now : Nat) :
    Result :=
  match b.guard generation now with
  | .error e => b.fail e
  | .ok () =>
    match b.action, observed with
    | .error e, _ => b.fail e
    | .ok (.rootAux _), .rootAux status ack count =>
      if status ≠ 0 ∨ ack = false ∨ count ≠ 16 then b.fail .Aux else done { b with stage := .branch }
    | .ok (.rootAux _), .sideband _ => b.fail .Aux
    | .ok (.sideband ..), .rootAux .. => b.fail .Unexpected
    | .ok (.sideband _ request), .sideband reply => b.answered host request reply serial

def consume (host : Host) (b : Builder) (generation : Nat) (observed : Observation) (serial now : Nat) :
    Result :=
  if b.pending = false ∨ serial ≤ b.lastReceipt then b.fail .Stale
  else
    let b := { b with pending := false, lastReceipt := serial }
    if b.stage = .cancelled ∨ generation ≠ b.generation then b.invalidate.done
    else match b.accept host generation observed serial now with
    | (.ok (), b) => b.done
    | (.error e, b) => fail { b with failure := some e, graph := { b.graph with coherent := false } } e

end Builder

/-! ## Runs -/

/-- What the owner of the root calls, in any order. -/
inductive Call where
  | prepare (generation now : Nat)
  | consume (generation : Nat) (observed : Observation) (serial now : Nat)
  | invalidate

inductive Outcome where
  | action (value : Option Action)
  | done
  | error (e : Error)
  deriving DecidableEq

def Builder.step (host : Host) (b : Builder) : Call → Outcome × Builder
  | .prepare generation now =>
    match b.prepare generation now with
    | (.ok value, b) => (.action value, b)
    | (.error e, b) => (.error e, b)
  | .consume generation observed serial now =>
    match b.consume host generation observed serial now with
    | (.ok (), b) => (.done, b)
    | (.error e, b) => (.error e, b)
  | .invalidate => (.done, b.invalidate)

end Capture
end Mst
end NvidiaGsp
