import NvidiaGsp.Mst.Wire

/-!
# Mst.Messages

What a sideband message says (`gsp_mst_wire.zig`): `Request.encode` writes a request, `reply` reads
the answer to one. An answer is an observation of one branch: its ports, the bandwidth of a path, bytes
of a register or of an EDID.

Functions that write to a buffer return the bytes they write; `room` is the buffer's length. The reader
goes through its input from the front, `rest` is what is left of it.
-/

namespace NvidiaGsp
namespace Mst
namespace Wire

inductive Op where
  | linkAddress | connectionStatus | enumPath | allocate | query | resourceStatus | clear
  | dpcdRead | dpcdWrite | i2cRead | powerUp | powerDown
  deriving DecidableEq, Repr

def Op.code : Op → Byte
  | .linkAddress => 1
  | .connectionStatus => 2
  | .enumPath => 0x10
  | .allocate => 0x11
  | .query => 0x12
  | .resourceStatus => 0x13
  | .clear => 0x14
  | .dpcdRead => 0x20
  | .dpcdWrite => 0x21
  | .i2cRead => 0x22
  | .powerUp => 0x24
  | .powerDown => 0x25

inductive Request where
  | linkAddress
  | enumPath (port : Nat)
  | allocate (port id pbn : Nat) (sink : Option (BitVec 4))
  | query (port id : Nat)
  | clear
  | dpcdRead (port address count : Nat)
  | dpcdWrite (port address count : Nat) (bytes : Vector Byte 16)
  | edid (port block : Nat)
  | powerUp (port : Nat)
  | powerDown (port : Nat)
  deriving DecidableEq

namespace Request

def op : Request → Op
  | .linkAddress => .linkAddress
  | .enumPath _ => .enumPath
  | .allocate .. => .allocate
  | .query .. => .query
  | .clear => .clear
  | .dpcdRead .. => .dpcdRead
  | .dpcdWrite .. => .dpcdWrite
  | .edid .. => .i2cRead
  | .powerUp _ => .powerUp
  | .powerDown _ => .powerDown

def port : Request → Option Nat
  | .linkAddress | .clear => none
  | .enumPath port | .allocate port _ _ _ | .query port _ | .dpcdRead port _ _
  | .dpcdWrite port _ _ _ | .edid port _ | .powerUp port | .powerDown port => some port

end Request

/-! ## Writing a request -/

/-- A port in the upper half of a byte. -/
def high (port : Nat) : Byte := BitVec.ofNat 8 port <<< 4

/-- A number of sixteen bits, the upper byte first. -/
def big16 (v : Nat) : List Byte := [BitVec.ofNat 8 (v / 256), BitVec.ofNat 8 v]

/-- The port and the address of a register, and the number of bytes. -/
def dpcd (port address count : Nat) : List Byte :=
  [high port ||| BitVec.ofNat 8 (address / 65536), BitVec.ofNat 8 (address / 256),
    BitVec.ofNat 8 address, BitVec.ofNat 8 count]

/-- The I2C writes before the read of an EDID block: the segment, unless it is the first, and the
offset. -/
def edidWrites (port block : Nat) : List Byte :=
  let segment := block / 2
  (high port ||| if segment = 0 then 1 else 2) ::
    (if segment = 0 then [] else [0x30, 1, BitVec.ofNat 8 segment, 0x10]) ++
      [0x50, 1, BitVec.ofNat 8 (block % 2 * 128), 0x10, 0x50, 128]

def badDpcd (address count : Nat) : Prop :=
  address > 0xfffff ∨ count = 0 ∨ count > 16 ∨ address + count > 0x100000

instance (address count : Nat) : Decidable (badDpcd address count) :=
  inferInstanceAs (Decidable (_ ∨ _))

/-- What follows the first byte of a request. -/
def Request.tail : Request → Except Error (List Byte)
  | .linkAddress | .clear => .ok []
  | .enumPath port | .powerUp port | .powerDown port => .ok [high port]
  | .allocate port id pbn sink =>
    if id = 0 ∨ id > 63 ∨ (pbn = 0 ∧ sink ≠ none) then .error .Payload
    else .ok ([high port ||| flag sink.isSome 0, BitVec.ofNat 8 id] ++ big16 pbn ++
      sink.toList.map fun s => (s.setWidth 8 : Byte) <<< (4 : Nat))
  | .query port id =>
    if id = 0 ∨ id > 63 then .error .Payload else .ok [high port, BitVec.ofNat 8 id]
  | .dpcdRead port address count =>
    if badDpcd address count then .error .Bounds else .ok (dpcd port address count)
  | .dpcdWrite port address count bytes =>
    if badDpcd address count then .error .Bounds
    else .ok (dpcd port address count ++ bytes.toList.take count)
  | .edid port block => if block ≥ 32 then .error .Bounds else .ok (edidWrites port block)

def Request.encode (r : Request) (room : Nat) : Except Error (List Byte) :=
  if r.port.any (· > 15) then .error .Bounds
  else match r.tail with
    | .error e => .error e
    | .ok tail => if room < tail.length + 1 then .error .Bounds else .ok (r.op.code :: tail)

/-! ## Reading a reply -/

inductive Peer where
  | none | upstream | branch | sink | legacy | reserved (n : Fin 3)
  deriving DecidableEq, Repr

def Peer.ofBits (b : BitVec 3) : Peer :=
  match b.toNat with
  | 0 => .none
  | 1 => .upstream
  | 2 => .branch
  | 3 => .sink
  | 4 => .legacy
  | n + 5 => .reserved (Fin.ofNat 3 n)

def emptyGuid : Guid := Vector.replicate 16 0

/-- `wire.Port`. -/
structure Port extends Mst.Port where
  peer : Peer := .none
  messaging : Bool := false
  revision : Byte := 0
  guid : Guid := emptyGuid
  streams : BitVec 4 := 0
  sinks : BitVec 4 := 0
  deriving DecidableEq

/-- `wire.Branch`. -/
structure Branch where
  guid : Guid
  ports : List Port
  deriving DecidableEq

/-- `wire.Path`. -/
structure Path extends PathResources where
  port : Nat
  streams : BitVec 3
  fec : Bool
  deriving DecidableEq

inductive Reply where
  | nack (op : Op) (guid : Guid) (reason data : Byte)
  | branch (value : Branch)
  | path (value : Path)
  | allocated (port id pbn : Nat)
  | queried (port pbn : Nat)
  | data (port : Nat) (bytes : List Byte)
  | ack (op : Op)
  deriving DecidableEq

def guidAt (bytes : List Byte) (i : Nat) : Guid := Vector.ofFn fun k => bytes.getD (i + k) 0

def u16At (bytes : List Byte) (i : Nat) : Nat :=
  (bytes.getD i 0).toNat * 256 + (bytes.getD (i + 1) 0).toNat

/-- The two bytes every port has, `a` and `b`. -/
def portOf (a b : Byte) : Port where
  number := (a &&& 15).toNat
  input := a.getLsbD 7
  connected := b.getLsbD 6
  legacyConnected := !a.getLsbD 7 && b.getLsbD 5
  peer := .ofBits ((a >>> 4).setWidth 3)
  messaging := b.getLsbD 7

/-- What only an output port has. -/
def Port.output (p : Port) (rest : List Byte) : Port :=
  { p with
    revision := rest.getD 0 0
    guid := guidAt rest 1
    streams := (rest.getD 17 0 >>> 4).setWidth 4
    sinks := (rest.getD 17 0).setWidth 4 }

/-- The bits of a port's second byte that mean nothing. -/
def unnamed (p : Port) : Byte := if p.input then 63 else 31

/-- The loop over the ports; `seen` are the numbers so far. -/
def readPorts (seen : List Nat) : Nat → List Byte → Except Error (List Port)
  | 0, rest => if rest ≠ [] then .error .Payload else .ok []
  | n + 1, a :: b :: rest =>
    let port := portOf a b
    if port.number ∈ seen then .error .Payload
    else if b &&& unnamed port ≠ 0 then .error .Payload
    else if port.input then (port :: ·) <$> readPorts (port.number :: seen) n rest
    else if rest.length < 18 then .error .Bounds
    else (port.output rest :: ·) <$> readPorts (port.number :: seen) n (rest.drop 18)
  | _ + 1, _ => .error .Bounds

/-- Read the reply to a request. The casts of a port and an ID to their types cannot fail, the request
was encoded. -/
def reply (request : Request) (bytes : List Byte) : Except Error Reply :=
  let at_ (i : Nat) : Byte := bytes.getD i 0
  if bytes = [] ∨ at_ 0 &&& 0x7f ≠ request.op.code then .error .Stale
  else if at_ 0 &&& 0x80 ≠ 0 then
    if bytes.length ≠ 19 then .error .Payload
    else .ok (.nack request.op (guidAt bytes 1) (at_ 17) (at_ 18))
  else match request with
  | .linkAddress =>
    if bytes.length < 18 ∨ at_ 17 &&& 0xf0 ≠ 0 then .error .Payload
    else match readPorts [] (at_ 17).toNat (bytes.drop 18) with
      | .error e => .error e
      | .ok ports => .ok (.branch ⟨guidAt bytes 1, ports⟩)
  | .enumPath port =>
    if (bytes.length ≠ 6 ∧ bytes.length ≠ 8) ∨ (at_ 1 >>> 4).toNat ≠ port then .error .Payload
    else if u16At bytes 4 > u16At bytes 2 then .error .Payload
    else .ok (.path {
      port, streams := (at_ 1 >>> 1).setWidth 3, fec := (at_ 1).getLsbD 0
      totalPbn := u16At bytes 2, freePbn := u16At bytes 4
      downstreamPbn := if bytes.length = 8 then some (u16At bytes 6) else none })
  | .allocate port id pbn _ =>
    if bytes.length ≠ 5 ∨ at_ 1 ≠ high port ∨ (at_ 2).toNat ≠ id ∨ u16At bytes 3 ≠ pbn then
      .error .Payload
    else .ok (.allocated port id pbn)
  | .query port _ =>
    if bytes.length ≠ 4 ∨ at_ 1 ≠ high port then .error .Payload
    else .ok (.queried port (u16At bytes 2))
  | .dpcdRead port _ count =>
    if bytes.length ≠ count + 3 ∨ (at_ 1).toNat ≠ port ∨ (at_ 2).toNat ≠ count then .error .Payload
    else .ok (.data port (bytes.drop 3))
  | .edid port _ =>
    if bytes.length ≠ 128 + 3 ∨ (at_ 1).toNat ≠ port ∨ (at_ 2).toNat ≠ 128 then .error .Payload
    else .ok (.data port (bytes.drop 3))
  | .dpcdWrite port _ _ _ =>
    if bytes.length ≠ 2 ∨ (at_ 1).toNat ≠ port then .error .Payload else .ok (.ack request.op)
  | .powerUp port | .powerDown port =>
    if bytes.length ≠ 2 ∨ at_ 1 ≠ high port then .error .Payload else .ok (.ack request.op)
  | .clear => if bytes.length ≠ 1 then .error .Payload else .ok (.ack request.op)

/-! ## What a reply promises -/

/-- A branch as a reply reports it: at most fifteen ports, none twice. -/
structure Branch.Named (b : Branch) : Prop where
  fits : b.ports.length ≤ 15
  number : ∀ p ∈ b.ports, p.number ≤ 15
  nodup : (b.ports.map (·.number)).Nodup

/-- What a reply of any kind promises. -/
def Reply.Sound : Reply → Prop
  | .branch b => b.Named
  | .path p => p.freePbn ≤ p.totalPbn
  | _ => True

theorem readPorts_ok {n : Nat} {seen : List Nat} {rest : List Byte} {ports : List Port}
    (h : readPorts seen n rest = .ok ports) :
    ports.length = n ∧ (∀ p ∈ ports, p.number ≤ 15 ∧ p.number ∉ seen) ∧ (ports.map (·.number)).Nodup := by
  have hnumber (a b : Byte) : (portOf a b).number ≤ 15 := by
    show (a &&& 15).toNat ≤ 15
    rw [BitVec.toNat_and]
    exact Nat.and_le_right
  induction n generalizing seen rest ports with
  | zero =>
    unfold readPorts at h
    split at h
    · cases h
    · cases h
      exact ⟨rfl, fun _ hp => absurd hp List.not_mem_nil, List.nodup_nil⟩
  | succ n ih =>
    -- A port is put in front of the others, which do not have its number.
    have hcons {p : Port} {tail : List Byte} (hp : p.number ≤ 15) (hs : p.number ∉ seen)
        (hr : (p :: ·) <$> readPorts (p.number :: seen) n tail = .ok ports) :
        ports.length = n + 1 ∧ (∀ p ∈ ports, p.number ≤ 15 ∧ p.number ∉ seen) ∧
          (ports.map (·.number)).Nodup := by
      cases hrest : readPorts (p.number :: seen) n tail with
      | error e => rw [hrest] at hr; cases hr
      | ok others =>
        rw [hrest] at hr
        cases hr
        obtain ⟨hlength, hall, hnodup⟩ := ih hrest
        refine ⟨by simp [hlength], fun q hq => ?_, List.nodup_cons.mpr ⟨fun hmem => ?_, hnodup⟩⟩
        · rcases List.mem_cons.mp hq with rfl | hq
          · exact ⟨hp, hs⟩
          · exact ⟨(hall q hq).1, fun hq' => (hall q hq).2 (List.mem_cons_of_mem _ hq')⟩
        · obtain ⟨q, hq, he⟩ := List.mem_map.mp hmem
          exact (hall q hq).2 (he ▸ List.mem_cons_self)
    cases rest with
    | nil => cases h
    | cons a rest =>
      cases rest with
      | nil => cases h
      | cons b rest =>
        unfold readPorts at h
        dsimp only at h
        split at h
        · cases h
        split at h
        · cases h
        split at h
        · exact hcons (hnumber a b) ‹_› h
        split at h
        · cases h
        · exact hcons (p := (portOf a b).output rest) (hnumber a b) ‹_› h

theorem reply_sound {request : Request} {bytes : List Byte} {r : Reply} (h : reply request bytes = .ok r) :
    r.Sound := by
  unfold reply at h
  dsimp only at h
  split at h
  · cases h
  split at h
  · split at h <;> cases h
    trivial
  split at h
  · split at h
    · cases h
    rename_i hlength
    split at h <;> cases h
    rename_i ports hports
    obtain ⟨hcount, hall, hnodup⟩ := readPorts_ok hports
    have hsmall : (bytes.getD 17 0).toNat ≤ 15 := by
      have hzero : bytes.getD 17 0 &&& 0xf0 = 0 := by
        by_contra hne
        exact hlength (.inr hne)
      revert hzero
      generalize bytes.getD 17 0 = b
      revert b
      decide
    exact ⟨by rw [hcount]; exact hsmall, fun p hp => (hall p hp).1, hnodup⟩
  · split at h
    · cases h
    split at h <;> cases h
    show u16At bytes 4 ≤ u16At bytes 2
    omega
  all_goals
    split at h <;> cases h
    trivial

end Wire
end Mst
end NvidiaGsp
