import NvidiaGsp.Lib.Bytes
import NvidiaGsp.Lib.Threads

/-!
# Irq.Gate

The interrupt endpoint of the GSP (`gsp_irq.zig`, with the head sources of `gsp_head_events.zig`)
after `open`. The handler, the setup of the display sources and the retirement are programs of
atomic actions: the atomics on `gate` and `fault`, one access of a device register, one read or
write of the plain fields, one call of the kernel. What a register holds and what the kernel answers
is arbitrary.

`gate` is 0 disabled, 1 open, 2 owned by a section, 3 owned by a section that must retire. What the
device needs to send another message is kept beside it: `armed` between a rearm and the next unarm,
and `msiEnabled` from a write of zero to the message register until the next message.
-/

namespace NvidiaGsp
namespace Irq

inductive Error where
  | State | Vector | Api | Clock | Busy | IdentityChanged | Binding | DisplayInterrupt | Sequence
  deriving DecidableEq

namespace reg

def leaf : Nat := 0xb81000
def allow : Nat := 0xb81200
def block : Nat := 0xb81400
def top : Nat := 0xb81600
def rearm : Nat := 0xb81608
def unarm : Nat := 0xb81610
def msi : Nat := 0x088704
def clear : Nat := 0x110004
def status : Nat := 0x110008
def maskClear : Nat := 0x110014
def retrigger : Nat := 0x1103e8
def mask : Nat := 0x111528

end reg

namespace headReg

def dispatch : Nat := 0x611ec0
def status : Nat := 0x611c00
def clear : Nat := 0x611800
def enable : Nat := 0x611d80
def position : Nat := 0x616330
def lastData : Word := 2

end headReg

def maxHeads : Nat := 8
def displayEngine : Nat := 2
def vectorCount : Nat := 8 * 32
def maxU64 : Nat := 2 ^ 64 - 1

/-! ## State -/

structure Head where
  revision : Nat := 0
  sequence : Nat := 0
  observedNs : Nat := 0
  position : Word := 0

/-- The display sources, `gsp_head_events.Owner`. -/
structure Display where
  epoch : Nat := 0
  headMask : Word := 0
  leaf : Fin 8 := 0
  bit : Word := 0
  subtree : Word := 0
  enabled : Bool := false
  heads : Fin maxHeads → Head := fun _ => {}

/-- What `open` leaves behind and nothing changes afterwards. The endpoint knows its own address. -/
structure Config where
  address : Nat
  selfAddress : Nat
  irq : Nat
  boot0 : Word
  leaf : Fin 8
  bit : Word
  subtree : Word
  handled : Nat
  opened : selfAddress = address
  address_ne : address ≠ 0

/-- The plain fields but `closed` and `msi`. -/
structure Fields where
  registered : Bool := false
  routingUncertain : Bool := false
  touched : Bool := false
  lastRaw : Word := 0
  lastMask : Word := 0
  interrupts : Nat := 0
  messages : Nat := 0
  lastStatus : Int := 0
  clock : Bool := false
  display : Display := {}

structure Shared where
  gate : Nat := 0
  fault : Nat := 0
  closed : Bool := false
  msi : Bool := false
  fields : Fields := {}
  armed : Bool := false
  msiEnabled : Bool := false
  closing : Bool := false

/-- Whether a thread is between its step from 1 to 2 and its last store, and whether a fault was
latched when it took that step. -/
structure Local where
  inside : Bool := false
  faulted : Bool := false

/-! ## Actions -/

inductive Act where
  | loadGate
  | casGate (expected desired : Nat)
  | storeGate (value : Nat)
  | loadFault
  | casFault (fault : Nat)
  | read (offset : Nat)
  | write (offset : Nat) (value : Word)
  | fields
  | update (f : Fields → Fields)
  | loadClosed
  | setClosed
  | loadMsi
  | dropMsi
  | resources
  | nowNs
  | signal
  | irqUnregister
  | pciDisableMsi
  | leaseRelease

/-- What an action answers; `casGate` gives the value it found when that was not the expected one. -/
def Res : Act → Type
  | .loadGate | .loadFault | .nowNs => Nat
  | .casGate _ _ => Option Nat
  | .read _ => Word
  | .fields => Fields
  | .loadClosed | .loadMsi | .resources | .leaseRelease => Bool
  | .signal | .irqUnregister | .pciDisableMsi => Int
  | .storeGate _ | .casFault _ | .write _ _ | .update _ | .setClosed | .dropMsi => Unit

abbrev Io (α : Type) := Prog Act Res α

open Prog (when)

abbrev io (a : Act) : Io (Res a) := Prog.perform a

def loadGate : Io Nat := io .loadGate
def casGate (expected desired : Nat) : Io (Option Nat) := io (.casGate expected desired)
def storeGate (value : Nat) : Io Unit := io (.storeGate value)
def loadFault : Io Nat := io .loadFault
def read (offset : Nat) : Io Word := io (.read offset)
def write (offset : Nat) (value : Word) : Io Unit := io (.write offset value)
def fields : Io Fields := io .fields
def update (f : Fields → Fields) : Io Unit := io (.update f)
def loadClosed : Io Bool := io .loadClosed
def loadMsi : Io Bool := io .loadMsi
def resources : Io Bool := io .resources
def nowNs : Io Nat := io .nowNs
def wakeSignal : Io Int := io .signal
def irqUnregister : Io Int := io .irqUnregister
def pciDisableMsi : Io Int := io .pciDisableMsi
def leaseRelease : Io Bool := io .leaseRelease

def updateDisplay (f : Display → Display) : Io Unit :=
  update fun s => { s with display := f s.display }

def updateHead (head : Fin maxHeads) (f : Head → Head) : Io Unit :=
  updateDisplay fun d => { d with heads := Function.update d.heads head (f (d.heads head)) }

/-! ## The head sources -/

def headBit (head : Fin maxHeads) : Word := 1 <<< head.val

/-- The loop of `enable` and `extend` over the heads of the mask. -/
def enableHeads (mask : Word) : List (Fin maxHeads) → Io Unit
  | [] => pure ()
  | head :: rest => do
    when (mask &&& headBit head ≠ 0) do
      let offset := head.val * 4
      write (headReg.clear + offset) headReg.lastData
      let enabled ← read (headReg.enable + offset)
      write (headReg.enable + offset) (enabled ||| headReg.lastData)
    enableHeads mask rest

def disableHeads (mask : Word) : List (Fin maxHeads) → Io Unit
  | [] => pure ()
  | head :: rest => do
    when (mask &&& headBit head ≠ 0) do
      let offset := head.val * 4
      let enabled ← read (headReg.enable + offset)
      write (headReg.enable + offset) (enabled &&& ~~~headReg.lastData)
    disableHeads mask rest

def Display.enable (epoch vector : Nat) (mask : Word) : Io (Except Error Unit) := do
  let s ← fields
  if h : s.display.epoch ≠ 0 ∨ epoch = 0 ∨ vector ≥ 256 ∨ mask = 0 ∨ mask &&& ~~~0xff ≠ 0 then
    pure (.error .Binding)
  else do
    have hvector : vector < 256 := Nat.lt_of_not_le fun hv => h (.inr (.inr (.inl hv)))
    updateDisplay fun d =>
      { d with
        epoch := epoch
        headMask := mask
        leaf := ⟨vector / 32, Nat.div_lt_of_lt_mul hvector⟩
        bit := 1 <<< (vector % 32)
        subtree := 1 <<< (vector / 64)
        enabled := true }
    enableHeads mask (List.finRange maxHeads)
    pure (.ok ())

def Display.disable : Io Unit := do
  let s ← fields
  when (s.display.enabled = true) do
    disableHeads s.display.headMask (List.finRange maxHeads)
    updateDisplay fun d => { d with enabled := false }

def Display.extend (epoch vector : Nat) (mask : Word) : Io (Except Error Unit) := do
  let s ← fields
  let d := s.display
  if d.enabled = false ∨ epoch ≠ d.epoch ∨ vector ≠ d.leaf.val * 32 + d.bit.ctz.toNat ∨
      mask = 0 ∨ mask &&& ~~~255 ≠ 0 ∨ mask &&& d.headMask ≠ d.headMask then
    pure (.error .Binding)
  else do
    updateDisplay fun d => { d with headMask := mask }
    enableHeads (mask &&& ~~~d.headMask) (List.finRange maxHeads)
    pure (.ok ())

/-- `Head.observe`, with its stores one by one. -/
def observe (head : Fin maxHeads) (now : Nat) (position : Word) : Io (Except Error Unit) := do
  let s ← fields
  let h := s.display.heads head
  if now = 0 ∨ now = maxU64 ∨ now < h.observedNs then pure (.error .Clock)
  else if h.revision > maxU64 - 2 ∨ h.sequence = maxU64 then pure (.error .Sequence)
  else do
    updateHead head fun x => { x with revision := x.revision + 1 }
    updateHead head fun x => { x with sequence := h.sequence + 1 }
    updateHead head fun x => { x with observedNs := now }
    updateHead head fun x => { x with position := position }
    updateHead head fun x => { x with revision := h.revision + 2 }
    pure (.ok ())

/-- The loop of `Owner.interrupt` over the dispatched heads. -/
def observeHeads (dispatch : Word) (now : Nat) : List (Fin maxHeads) → Word → Io (Except Error Word)
  | [], seen => pure (.ok seen)
  | head :: rest, seen =>
    if dispatch &&& headBit head = 0 then observeHeads dispatch now rest seen
    else do
      let offset := head.val * 4
      let status ← read (headReg.status + offset)
      if status &&& ~~~headReg.lastData ≠ 0 then pure (.error .DisplayInterrupt)
      else if status &&& headReg.lastData = 0 then observeHeads dispatch now rest seen
      else do
        let position ← read (headReg.position + head.val * 0x800)
        match ← observe head now position with
        | .error e => pure (.error e)
        | .ok () =>
          write (headReg.clear + offset) headReg.lastData
          observeHeads dispatch now rest (seen ||| headBit head)

def Display.interrupt (now : Nat) : Io (Except Error Word) := do
  let s ← fields
  if s.display.enabled = false then pure (.error .State)
  else do
    let dispatch ← read headReg.dispatch
    if dispatch &&& ~~~s.display.headMask ≠ 0 then pure (.error .DisplayInterrupt)
    else observeHeads dispatch now (List.finRange maxHeads) 0

/-! ## The endpoint -/

def flush (c : Config) : Io Bool := do
  let word ← read 0
  pure (word == c.boot0)

def latch (fault : Nat) : Io Unit := io (.casFault fault)

def failed : Io Bool := do
  let fault ← loadFault
  pure (fault != 0)

def flushOrLatch (c : Config) : Io Unit := do
  if ← flush c then pure () else latch 1

def rearm (c : Config) : Io Unit := do
  let s ← fields
  write reg.rearm (c.subtree ||| if s.display.enabled then s.display.subtree else 0)
  flushOrLatch c

/-- `close` may have asked for retirement while the section ran. -/
def leave (c : Config) : Io Unit := do
  let faulted ← failed
  when (faulted = false) do
    let gate ← loadGate
    when (gate = 2) (rearm c)
  if ← failed then storeGate 0
  else
    match ← casGate 2 1 with
    | none => pure ()
    | some _ => storeGate 0

/-! ### The handler -/

def signal : Io Unit := do
  let status ← wakeSignal
  when (status ≠ 0) (latch 3)

/-- A leaf of the interrupt tree is pending: its bit in the tree's top, then its own. -/
def pendingAt (top subtree : Word) (leaf : Fin 8) (bit : Word) : Io Bool :=
  if top &&& subtree ≠ 0 then do
    let word ← read (reg.leaf + leaf.val * 4)
    pure (word &&& bit != 0)
  else pure false

def displayPending (top : Word) : Io Bool := do
  let s ← fields
  if s.display.enabled then pendingAt top s.display.subtree s.display.leaf s.display.bit
  else pure false

def serveDisplay : Io Unit := do
  let s ← fields
  write (reg.leaf + s.display.leaf.val * 4) s.display.bit
  let now ← nowNs
  match ← Display.interrupt now with
  | .error _ => latch 4
  | .ok _ => pure ()

def serveGsp (c : Config) : Io Unit := do
  write (reg.leaf + c.leaf.val * 4) c.bit
  let status ← read reg.status
  let mask ← read reg.mask
  update fun s => { s with lastRaw := status }
  update fun s => { s with lastMask := mask }
  let pending := status &&& mask
  when (pending &&& 0x40 ≠ 0) do
    write reg.clear 0x40
    update fun s => { s with messages := (s.messages + 1) % 2 ^ 64 }
  let unexpected := pending &&& ~~~0x40
  when (unexpected ≠ 0) do
    write reg.maskClear unexpected
    write reg.clear unexpected
  when (pending = 0 ∨ unexpected ≠ 0) (latch 2)
  when (pending ≠ 0) (write reg.retrigger 1)

/-- The section of `interrupt` behind the check of the device. -/
def serve (c : Config) : Io Nat := do
  let top ← read reg.top
  let gspPending ← pendingAt top c.subtree c.leaf c.bit
  let displayPending ← displayPending top
  if gspPending = false ∧ displayPending = false then pure 0
  else do
    update fun s => { s with interrupts := (s.interrupts + 1) % 2 ^ 64 }
    when (displayPending = true) serveDisplay
    when (gspPending = true) (serveGsp c)
    flushOrLatch c
    signal
    pure c.handled

/-- The section of `interrupt`. -/
def handle (c : Config) : Io Nat := do
  write reg.unarm 15
  let msi ← loadMsi
  when (msi = true) (write reg.msi 0)
  if ← flush c then serve c
  else do
    latch 1
    signal
    pure c.handled

def interrupt (c : Config) (irq raw : Nat) : Io Nat :=
  if c.selfAddress ≠ raw ∨ irq ≠ c.irq then pure 0
  else do
    match ← casGate 1 2 with
    | some _ => pure 0
    | none =>
      let result ← handle c
      leave c
      pure result

/-! ### Setup of the display sources -/

structure Entry where
  engine : Nat
  stall : Nat

structure Inventory where
  entries : List Entry
  entryCount : Nat
  displayIndex : Option Nat

/-- The vector of the display engine in an inventory. -/
def displayVector (c : Config) (inventory : Inventory) : Except Error Nat :=
  match inventory.displayIndex with
  | none => .error .Vector
  | some index =>
    if index ≥ inventory.entryCount then .error .Vector
    else match inventory.entries[index]? with
      | none => .error .Vector
      | some entry =>
        if entry.engine ≠ displayEngine then .error .Vector
        else if entry.stall ≥ vectorCount ∨ entry.stall = c.leaf.val * 32 + c.bit.ctz.toNat then
          .error .Vector
        else .ok entry.stall

structure Request where
  inventory : Inventory
  epoch : Nat
  headMask : Word
  extend : Bool

def Request.apply (r : Request) (vector : Nat) : Io (Except Error Unit) :=
  if r.extend then Display.extend r.epoch vector r.headMask
  else Display.enable r.epoch vector r.headMask

/-- The section of `configureDisplay`. -/
def configureHeld (c : Config) (r : Request) (vector : Nat) : Io (Except Error Unit) := do
  write reg.unarm 15
  if ← flush c then do
    update fun s => { s with clock := true }
    match ← r.apply vector with
    | .error e => pure (.error e)
    | .ok () =>
      let s ← fields
      write (reg.leaf + s.display.leaf.val * 4) s.display.bit
      let s ← fields
      write (reg.allow + s.display.leaf.val * 4) s.display.bit
      if ← flush c then pure (.ok ())
      else do
        latch 1
        pure (.error .IdentityChanged)
  else do
    latch 1
    pure (.error .IdentityChanged)

/-- `registered`, `closed`, `failed` and the epoch of the sources, in the order they are read. -/
def configurable (c : Config) (r : Request) : Io Bool := do
  if c.selfAddress ≠ c.address then pure false else do
  let s ← fields
  if s.registered = false then pure false else do
  let closed ← loadClosed
  if closed then pure false else do
  let failed ← failed
  if failed then pure false else do
  let s ← fields
  pure ((s.display.epoch != 0) == r.extend)

def configureDisplay (c : Config) (r : Request) : Io (Except Error Unit) := do
  if ← configurable c r then
    match displayVector c r.inventory with
    | .error e => pure (.error e)
    | .ok vector => do
      if ← resources then do
        let now ← nowNs
        if now = maxU64 then pure (.error .Clock)
        else do
          match ← casGate 1 2 with
          | some _ => pure (.error .Busy)
          | none =>
            let result ← configureHeld c r vector
            leave c
            pure result
      else pure (.error .Api)
  else pure (.error .State)

/-! ### Retirement -/

/-- The attempts of `close` on the gate. A section that owns it is asked to retire. -/
def seize : Nat → Io Bool
  | 0 => pure false
  | tries + 1 => do
    let gate ← loadGate
    if gate = 0 then pure true
    else if gate = 3 then pure false
    else do
      match ← casGate gate (if gate = 2 then 3 else 0) with
      | none => pure (gate != 2)
      | some _ => seize tries

/-- The sources are blocked before the callback goes. -/
def quiesce (c : Config) : Io Unit := do
  write reg.unarm 15
  let s ← fields
  when (s.display.epoch ≠ 0) do
    write (reg.block + s.display.leaf.val * 4) s.display.bit
    if ← flush c then Display.disable else pure ()
  write (reg.block + c.leaf.val * 4) c.bit
  let _ ← flush c

def unregister : Io Bool := do
  let s ← fields
  if s.registered then do
    let status ← irqUnregister
    update fun s => { s with lastStatus := status }
    if status ≠ 0 then pure false
    else do
      update fun s => { s with registered := false }
      pure true
  else pure true

def disableMsi : Io Bool := do
  if ← loadMsi then do
    let status ← pciDisableMsi
    update fun s => { s with lastStatus := status }
    if status ≠ 0 then pure false
    else do
      io .dropMsi
      pure true
  else pure true

/-- `close` behind the gate. -/
def teardown (c : Config) : Io Bool := do
  let s ← fields
  when (s.touched = true) (quiesce c)
  if ← unregister then do
    let s ← fields
    if s.routingUncertain then pure false
    else if ← disableMsi then do
      if ← leaseRelease then do
        io .setClosed
        pure true
      else pure false
    else pure false
  else pure false

def close (c : Config) : Io Bool := do
  if c.selfAddress = 0 then pure true
  else if ← loadClosed then pure true
  else if c.selfAddress ≠ c.address then pure false
  else if ← seize 4 then teardown c
  else pure false

/-! ## The pool -/

/-- Who runs: an invocation that is no message of this device, a message of it, the setup, the
retirement. -/
inductive Kind where
  | interrupt (irq raw : Nat)
  | message
  | configure (request : Request)
  | close

inductive Outcome where
  | handled (result : Nat)
  | configured (result : Except Error Unit)
  | closed (done : Bool)

def program (c : Config) : Kind → Io Outcome
  | .interrupt irq raw => do return .handled (← interrupt c irq raw)
  | .message => do return .handled (← interrupt c c.irq c.selfAddress)
  | .configure request => do return .configured (← configureDisplay c request)
  | .close => do return .closed (← close c)

/-- A write as the device sees it. -/
def Shared.written (s : Shared) (offset : Nat) (value : Word) : Shared :=
  if offset = reg.unarm then { s with armed := false }
  else if offset = reg.rearm then { s with armed := true }
  else if offset = reg.msi ∧ value = 0 then { s with msiEnabled := true }
  else s

def Local.swapped (l : Local) (s : Shared) (expected desired : Nat) : Local :=
  if expected = 1 ∧ desired = 2 then ⟨true, s.fault != 0⟩
  else if expected = 2 ∧ desired = 1 then { l with inside := false }
  else l

/-- An action on the shared state. The device and the kernel answer what they want. -/
def execute (a : Act) (answer : Nat) (l : Local) (s : Shared) : Res a × Local × Shared :=
  match a with
  | .loadGate => (s.gate, l, s)
  | .casGate expected desired =>
    if s.gate = expected then (none, l.swapped s expected desired, { s with gate := desired })
    else (some s.gate, l, s)
  | .storeGate value => ((), { l with inside := false }, { s with gate := value })
  | .loadFault => (s.fault, l, s)
  | .casFault fault => ((), l, if s.fault = 0 then { s with fault := fault } else s)
  | .read _ => (BitVec.ofNat 32 answer, l, s)
  | .write offset value => ((), l, s.written offset value)
  | .fields => (s.fields, l, s)
  | .update f => ((), l, { s with fields := f s.fields })
  | .loadClosed => (s.closed, l, s)
  | .setClosed => ((), l, { s with closed := true })
  | .loadMsi => (s.msi, l, s)
  | .dropMsi => ((), l, { s with msi := false })
  | .resources => (answer % 2 == 1, l, s)
  | .nowNs => (answer % 2 ^ 64, l, s)
  | .signal => ((BitVec.ofNat 32 answer).toInt, l, s)
  | .irqUnregister => ((BitVec.ofNat 32 answer).toInt, l, s)
  | .pciDisableMsi => ((BitVec.ofNat 32 answer).toInt, l, s)
  | .leaseRelease => (answer % 2 == 1, l, s)

/-- A message needs the tree armed and messages enabled. Retirement is retried, one at a time. -/
def Shared.starts (s : Shared) : Kind → Option Shared
  | .interrupt _ _ => some s
  | .message =>
    if s.armed ∧ s.msi ∧ s.msiEnabled then some { s with msiEnabled := false } else none
  | .configure _ => some s
  | .close => if s.closing then none else some { s with closing := true }

def Shared.finishes (s : Shared) : Kind → Shared
  | .close => { s with closing := false }
  | _ => s

def endpoint (c : Config) : System Shared Local Kind Act Res Outcome where
  exec := execute
  start kind s := (s.starts kind).map fun s' => ({}, program c kind, s')
  finish kind _ s := s.finishes kind

/-- The endpoint when `open` returns: nobody runs. Where it failed before the gate was opened the
gate is 0, where the last check of the device failed a fault is latched. -/
structure Opened (p : Pool Shared Local Kind Act Res Outcome) : Prop where
  gate : p.shared.gate ≤ 1
  closed : p.shared.closed = false
  closing : p.shared.closing = false
  idle : ∀ t, p.threads t = none

end Irq
end NvidiaGsp
