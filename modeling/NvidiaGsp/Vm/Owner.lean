import NvidiaGsp.Lib.Runs
import NvidiaGsp.Vm.Tlb

/-!
# Vm.Owner

The host-owned GPU address space (`gsp_host_vm.zig`): page tables from a backend, indexed by their
keys; address ranges, and bindings of sources inside them; one piece of work at a time that maps or
unmaps a binding page by page, invalidates the translations of the root and then gives the emptied
tables back.

Tables live in a heap by the identity of their nodes. The intrusive lists of the source (ranges in
address order, bindings newest first, retired tables) are lists here, so their link checks always
hold; the checks of addresses, bounds and descriptors are kept. `World` also records the accesses in
order, for statements about what happened before what.
-/

namespace NvidiaGsp
namespace Vm

open Call

def maxU64 : Nat := 2 ^ 64 - 1

def editPagesPerPoll : Nat := 64
def editBudgetNs : Nat := 250 * 1000

abbrev TableId := Nat
abbrev RangeId := Nat
abbrev BindingId := Nat

/-- The fields of a table that never change while it is in use. -/
structure TableDescriptor where
  level : Level
  address : Nat
  dma : Nat
  cpu : Option Nat
  parent : Option TableId
  deriving DecidableEq

/-- A page table: `key` is the key of its index node, `owned` says that its own address and its
owner are recorded in it, `words` is the page behind `cpu`. -/
structure Table where
  key : Nat := 0
  owned : Bool := false
  level : Level := .root
  address : Nat := 0
  dma : Nat := 0
  cpu : Option Nat := none
  words : Nat → Nat := fun _ => 0
  parent : Option TableId := none
  descriptor : Option TableDescriptor := none
  used : Nat := 0
  retiring : Bool := false

/-- The storage of tables and the registers, over a device state `E`. -/
structure Port (E : Type) where
  io : Io E
  allocate : E → Except Error (TableId × Table) × E
  valid : TableId → Table → E → Bool × E
  release : TableId → E → Option Error × E

/-- The memory behind a binding; its context is constant, so it only observes the device state. -/
structure Source (E : Type) where
  valid : Nat → E → Bool
  physical : Nat → E → Except Error Nat
  bytes : Nat
  offset : Nat := 0
  policy : Policy

structure Range where
  id : RangeId
  serial : Nat
  address : Nat
  bytes : Nat

structure Binding (E : Type) where
  id : BindingId
  range : RangeId
  source : Source E
  offset : Nat
  mapped : Bool := false

inductive WorkPhase where
  | editing | invalidating | releasing
  deriving DecidableEq

structure Work where
  binding : BindingId
  mapping : Bool
  deadline : Nat
  offset : Nat := 0
  lastTime : Nat := 0
  phase : WorkPhase := .editing
  invalidate : Option Operation := none

structure Owner (E : Type) where
  prepared : Bool := false
  epoch : Nat := 0
  base : Nat := 0
  bytes : Nat := 0
  serial : Nat := 0
  tables : Std.TreeMap Nat TableId := ∅
  root : Option TableId := none
  ranges : List Range := []
  bindings : List (Binding E) := []
  retired : List TableId := []
  work : Option Work := none
  possibleBinding : Bool := false
  attached : Bool := false
  failure : Option Error := none

/-- The accesses of the owner, in order. -/
inductive Access where
  | start (binding : BindingId) (mapping : Bool)
  | set (table : TableId) (slot word : Nat)
  | unlink (table parent : TableId) (slot : Nat)
  | bus (access : Bus)
  | release (table : TableId)
  | finish (binding : BindingId)
  deriving DecidableEq

structure World (E : Type) where
  owner : Owner E
  heap : TableId → Table
  env : E
  trace : List Access := []

/-- A call on the owner. -/
abbrev VmCall (E α : Type) := Call Error (World E) α

namespace Table

def describe (t : Table) : TableDescriptor := ⟨t.level, t.address, t.dma, t.cpu, t.parent⟩

/-- The node is as the backend hands it out. -/
def blank (t : Table) : Bool :=
  !t.owned && t.parent.isNone && t.descriptor.isNone && t.used == 0 && !t.retiring

def mapped (t : Table) : Bool :=
  match t.cpu with
  | none => false
  | some cpu => cpu &&& 4095 == 0

@[irreducible] def empty (t : Table) : Bool := (List.range 512).all fun slot => t.words slot == 0

def slot (t : Table) (address : Nat) : Except Error Nat := slotAt t.level address

/-- The table with one word written and its count kept. -/
def put (t : Table) (slot word used : Nat) : Table :=
  { t with words := Function.update t.words slot word, used }

end Table

namespace Owner

variable {E : Type}

/-- The range with its neighbours. -/
def locate (id : RangeId) : Option Range → List Range → Option (Option Range × Range × Option Range)
  | _, [] => none
  | previous, range :: rest =>
    if range.id = id then some (previous, range, rest.head?) else locate id (some range) rest

def rangeValid (o : Owner E) (id : RangeId) : Except Error Range :=
  match locate id none o.ranges with
  | none => .error .Stale
  | some (previous, range, next) =>
    if range.serial = 0 then .error .Stale
    else match extent range.address range.bytes with
      | .error e => .error e
      | .ok _ =>
        if range.address < o.base ∨ range.address - o.base > o.bytes ∨
            range.bytes > o.bytes - (range.address - o.base) then .error .Bounds
        else if previous.any fun p => p.address + p.bytes > range.address then .error .Stale
        else if next.any fun n => range.address + range.bytes > n.address then .error .Stale
        else .ok range

def bindingValid (o : Owner E) (env : E) (id : BindingId) : Except Error (Range × Binding E) :=
  match o.bindings.find? (·.id = id) with
  | none => .error .Stale
  | some binding =>
    match o.rangeValid binding.range with
    | .error e => .error e
    | .ok range =>
      if binding.source.valid o.epoch env = false then .error .Stale
      else if binding.source.bytes = 0 ∨ binding.source.bytes > range.bytes ∨
          binding.offset > range.bytes - binding.source.bytes then .error .Bounds
      else .ok (range, binding)

def alignForward (address alignment : Nat) : Nat := (address + (alignment - 1)) / alignment * alignment

/-- The search of `reserve`: the address, the ranges before it and those after it. -/
def fit (o : Owner E) (bytes alignment fixed : Nat) :
    Nat → List Range → List Range → Except Error (Nat × List Range × List Range)
  | address, before, [] => .ok (address, before, [])
  | address, before, entry :: rest =>
    match o.rangeValid entry.id with
    | .error e => .error e
    | .ok _ =>
      if address ≤ entry.address ∧ bytes ≤ entry.address - address then
        .ok (address, before, entry :: rest)
      else if address < entry.address + entry.bytes then
        if fixed ≠ 0 then .error .Busy
        else
          let address := alignForward (entry.address + entry.bytes) alignment
          match extent address bytes with
          | .error e => .error e
          | .ok _ => o.fit bytes alignment fixed address (before ++ [entry]) rest
      else o.fit bytes alignment fixed address (before ++ [entry]) rest

/-- No binding of the list overlaps `bytes` at `offset`; every one is checked on the way. -/
def clash (o : Owner E) (env : E) (offset bytes : Nat) : List (Binding E) → Except Error Unit
  | [] => .ok ()
  | entry :: rest =>
    match o.bindingValid env entry.id with
    | .error e => .error e
    | .ok _ =>
      if offset < entry.offset + entry.source.bytes ∧ entry.offset < offset + bytes then .error .Busy
      else o.clash env offset bytes rest

def getMin (o : Owner E) : Option TableId := o.tables.toList.head?.map (·.2)

def getMax (o : Owner E) : Option TableId := o.tables.toList.getLast?.map (·.2)

end Owner

section

variable {E : Type} (port : Port E)

def callback {α : Type} (f : E → α × E) : VmCall E α := fun w =>
  .ok (f w.env).1 { w with env := (f w.env).2 }

def update (f : Owner E → Owner E) : VmCall E Unit := fun w => .ok () { w with owner := f w.owner }

def updateWork (f : Work → Work) : VmCall E Unit := update fun o => { o with work := o.work.map f }

def log (a : Access) : VmCall E Unit := fun w => .ok () { w with trace := w.trace ++ [a] }

/-- The error is kept as the owner's failure, unless it has one. -/
def orFail {α : Type} (x : VmCall E α) : VmCall E α := fun w =>
  match x w with
  | .ok a w' => .ok a w'
  | .error e w' =>
    .error e { w' with owner := { w'.owner with failure := some (w'.owner.failure.getD e) } }

def stable : VmCall E Unit := do
  let w ← get
  failIf (w.owner.prepared = false ∨ w.owner.epoch = 0) .Stale
  let generation ← callback port.io.generation
  failIf (generation ≠ w.owner.epoch) .Stale
  failIf (w.owner.failure ≠ none) .Retained

def nextSerial : VmCall E Nat := do
  let serial := (← get).owner.serial
  failIf (serial = maxU64) .Exhausted
  update fun o => { o with serial := serial + 1 }
  pure (serial + 1)

def tableValid (id : TableId) : VmCall E Unit := do
  let t := (← get).heap id
  failIf (t.owned = false ∨ t.mapped = false ∨ t.descriptor ≠ some t.describe ∨
    t.used > count t.level) .Descriptor
  let valid ← callback (port.valid id t)
  failIf (valid = false) .Descriptor
  let key ← lift (tableKey t.level t.address)
  failIf (t.key ≠ key) .Descriptor
  let _ ← lift (directory t.dma)

def createTable (level : Level) (address : Nat) (parent : Option TableId) : VmCall E TableId := do
  let key ← lift (tableKey level address)
  let w ← get
  failIf (w.owner.tables[key]? ≠ none) .Busy
  let answer ← callback port.allocate
  let (id, t) ← lift answer
  failIf (t.blank = false ∨ t.mapped = false) .Descriptor
  let valid ← callback (port.valid id t)
  failIf (valid = false) .Descriptor
  let _ ← lift (directory t.dma)
  failIf (t.empty = false) .Descriptor
  let t := { t with owned := true, level, address, parent }
  let t := { t with descriptor := some t.describe, key }
  fun w => .ok id { w with
    heap := Function.update w.heap id t
    owner := { w.owner with tables := w.owner.tables.insert key id } }

def prepare (epoch base bytes : Nat) : VmCall E Unit := do
  let w ← get
  failIf (w.owner.prepared = true) .Busy
  lift (extent base bytes)
  failIf (epoch = 0) .Stale
  let generation ← callback port.io.generation
  failIf (generation ≠ epoch) .Stale
  update fun o => { o with prepared := true, epoch, base, bytes }
  let root ← orFail (createTable port .root 0 none)
  update fun o => { o with root := some root }

def rootAddress : VmCall E Nat := do
  stable port
  let root ← need (← get).owner.root .State
  tableValid port root
  return ((← get).heap root).dma

def bindSubmitted : VmCall E Unit := do
  let _ ← rootAddress port
  let o := (← get).owner
  failIf (o.possibleBinding = true ∨ o.attached = true) .State
  update fun o => { o with possibleBinding := true }

def bindConfirmed : VmCall E Unit := do
  stable port
  let o := (← get).owner
  failIf (o.possibleBinding = false ∨ o.attached = true) .State
  update fun o => { o with attached := true }

def unbindConfirmed : VmCall E Unit := do
  stable port
  let o := (← get).owner
  failIf (o.attached = false ∨ o.ranges ≠ [] ∨ o.work.isSome ∨ o.retired ≠ []) .Busy
  update fun o => { o with attached := false, possibleBinding := false }

def reserve (id : RangeId) (bytes alignment fixed : Nat) : VmCall E Nat := do
  stable port
  let o := (← get).owner
  failIf (o.attached = false ∨ o.work.isSome ∨ (o.ranges.any (·.id = id)) = true) .Busy
  failIf (alignment < 4096 ∨ alignment > vaLimit ∨ alignment &&& (alignment - 1) ≠ 0 ∨ bytes = 0 ∨
    bytes &&& 4095 ≠ 0) .Alignment
  let address :=
    if fixed ≠ 0 then fixed else Owner.alignForward (max o.base 0x100000000) alignment
  failIf (address &&& (alignment - 1) ≠ 0) .Alignment
  lift (extent address bytes)
  let (address, before, after) ← lift (o.fit bytes alignment fixed address [] o.ranges)
  failIf (address < o.base ∨ address - o.base > o.bytes ∨ bytes > o.bytes - (address - o.base)) .Bounds
  let serial ← nextSerial
  update fun o => { o with ranges := before ++ ⟨id, serial, address, bytes⟩ :: after }
  pure address

def releaseRange (id : RangeId) : VmCall E Unit := do
  stable port
  let o := (← get).owner
  let _ ← lift (o.rangeValid id)
  failIf ((o.bindings.any (·.range = id)) = true ∨ o.work.isSome) .Busy
  update fun o => { o with ranges := o.ranges.filter (·.id ≠ id) }

def beginMap (range : RangeId) (id : BindingId) (offset : Nat) (source : Source E) (deadline : Nat) :
    VmCall E Unit := do
  stable port
  let o := (← get).owner
  let r ← lift (o.rangeValid range)
  failIf (o.attached = false ∨ o.work.isSome ∨ (o.bindings.any (·.id = id)) = true) .Busy
  failIf (source.valid o.epoch (← get).env = false) .Stale
  failIf (source.bytes = 0 ∨ (offset ||| source.bytes ||| source.offset) &&& 4095 ≠ 0 ∨
    source.offset > maxU64 - source.bytes ∨ source.bytes > r.bytes ∨ offset > r.bytes - source.bytes)
    .Bounds
  let now ← callback port.io.nowNs
  failIf (now ≥ deadline) .Deadline
  lift (o.clash (← get).env offset source.bytes (o.bindings.filter (·.range = range)))
  update fun o => { o with
    bindings := ⟨id, range, source, offset, false⟩ :: o.bindings
    work := some { binding := id, mapping := true, deadline } }
  log (.start id true)

def beginUnmap (id : BindingId) (deadline : Nat) (quiesced : Bool) : VmCall E Unit := do
  stable port
  let w ← get
  let (_, b) ← lift (w.owner.bindingValid w.env id)
  failIf (quiesced = false ∨ w.owner.work.isSome ∨ b.mapped = false ∨ w.owner.attached = false) .Busy
  let now ← callback port.io.nowNs
  failIf (now ≥ deadline) .Deadline
  update fun o => { o with work := some { binding := id, mapping := false, deadline } }
  log (.start id false)

/-- The child of `parent` for `address` that does not exist yet. The child's storage and metadata
exist before its entry is reachable. -/
def linkChild (create : Bool) (level : Level) (address : Nat) (parent : TableId) (slot : Nat) :
    VmCall E TableId := do
  failIf (create = false ∨ ((← get).heap parent).words slot ≠ 0) .State
  let child ← createTable port level address (some parent)
  let w ← get
  let word ← lift (directory (w.heap child).dma)
  fun w => .ok child { w with
    heap := Function.update w.heap parent
      ((w.heap parent).put slot word ((w.heap parent).used + 1))
    trace := w.trace ++ [.set parent slot word] }

/-- The walk down from `parent` through `levels`. -/
def descend (create : Bool) (address : Nat) : List Level → TableId → VmCall E TableId
  | [], parent => pure parent
  | level :: levels, parent => do
    tableValid port parent
    let slot ← lift (((← get).heap parent).slot address)
    let key ← lift (tableKey level address)
    let child ← match (← get).owner.tables[key]? with
      | some child => pure child
      | none => linkChild port create level address parent slot
    tableValid port child
    let w ← get
    let word ← lift (directory (w.heap child).dma)
    failIf ((w.heap child).retiring = true ∨ (w.heap child).parent ≠ some parent ∨
      (w.heap child).level ≠ level ∨ (w.heap parent).words slot ≠ word ∨
      (w.heap parent).level = .dual ∧ (w.heap parent).words (slot - 1) ≠ 0) .Descriptor
    descend create address levels child

def leaf (address : Nat) (create : Bool) : VmCall E TableId := do
  let root ← need (← get).owner.root .State
  descend port create address [.pd2, .pd1, .dual, .leaf] root

/-- Unlinks `cursor` and every table above it that this empties. `depth` bounds the levels above. -/
def retireEmpty : Nat → TableId → VmCall E Unit
  | 0, _ => pure ()
  | depth + 1, cursor => do
    let w ← get
    match (w.heap cursor).parent with
    | none => pure ()
    | some parent =>
      if (w.heap cursor).used ≠ 0 then pure ()
      else do
        tableValid port cursor
        tableValid port parent
        let w ← get
        let c := w.heap cursor
        let p := w.heap parent
        failIf (c.retiring = true ∨ c.empty = false ∨ p.used = 0) .Descriptor
        let slot ← lift (p.slot c.address)
        let word ← lift (directory c.dma)
        failIf (p.words slot ≠ word) .Descriptor
        (fun w => .ok () { w with
          heap := Function.update (Function.update w.heap parent (p.put slot 0 (p.used - 1))) cursor
            { c with retiring := true }
          owner := { w.owner with retired := cursor :: w.owner.retired }
          trace := w.trace ++ [.unlink cursor parent slot] } : VmCall E Unit)
        retireEmpty depth parent

def workTime : VmCall E Nat := do
  let work ← need (← get).owner.work .State
  let now ← callback port.io.nowNs
  failIf (now < work.lastTime ∨ now ≥ work.deadline) .Deadline
  updateWork fun work => { work with lastTime := now }
  pure now

/-- One page of the work. -/
def editPage (range : Range) (binding : Binding E) (work : Work) : VmCall E Unit := do
  let address := range.address + binding.offset + work.offset
  let physical ← lift (binding.source.physical (binding.source.offset + work.offset) (← get).env)
  let word ← lift (page physical binding.source.policy)
  let table ← leaf port address work.mapping
  let t := (← get).heap table
  let slot ← lift (t.slot address)
  if work.mapping then
    failIf (t.words slot ≠ 0 ∨ t.used = count .leaf) .Busy
    fun w => .ok () { w with
      heap := Function.update w.heap table (t.put slot word (t.used + 1))
      trace := w.trace ++ [.set table slot word] }
  else
    failIf (t.words slot ≠ word ∨ t.used = 0) .Descriptor
    (fun w => .ok () { w with
      heap := Function.update w.heap table (t.put slot 0 (t.used - 1))
      trace := w.trace ++ [.set table slot 0] } : VmCall E Unit)
    retireEmpty port 5 table
  updateWork fun work => { work with offset := work.offset + 4096 }

/-- The loop over pages, with `left` iterations left of the batch. -/
def edit (binding : Binding E) (started : Nat) : Nat → VmCall E Unit
  | 0 => pure ()
  | left + 1 => do
    let work ← need (← get).owner.work .State
    if work.offset < binding.source.bytes then
      let now ← workTime port
      if left + 1 ≠ editPagesPerPoll ∧ now - started ≥ editBudgetNs then pure ()
      else
        stable port
        let w ← get
        let (range, binding) ← lift (w.owner.bindingValid w.env binding.id)
        editPage port range binding work
        edit binding started left
    else pure ()

def editing (binding : Binding E) (started : Nat) : VmCall E Bool := do
  edit port binding started editPagesPerPoll
  let work ← need (← get).owner.work .State
  if work.offset = binding.source.bytes then
    let _ ← workTime port
    let epoch := (← get).owner.epoch
    let root ← rootAddress port
    let serial ← nextSerial
    let operation ← lift (Operation.init epoch root serial work.deadline)
    updateWork fun work => { work with invalidate := some operation, phase := .invalidating }
    pure false
  else pure false

/-- A call on the operation inside the work. -/
def withOperation {α : Type} (x : TlbCall E α) : VmCall E α := do
  let work ← need (← get).owner.work .State
  let operation ← need work.invalidate .State
  fun w =>
    let back (w' : TlbWorld E) : World E := { w with
      owner := { w.owner with work := some { work with invalidate := some w'.operation } }
      env := w'.env
      trace := w.trace ++ w'.bus.map .bus }
    match x ⟨operation, w.env, []⟩ with
    | .ok a w' => .ok a (back w')
    | .error e w' => .error e (back w')

def invalidating : VmCall E Bool := do
  if ← withOperation (Operation.step port.io) then
    let receipt ← withOperation (Operation.receipt port.io)
    let receipt ← need receipt .Retained
    let epoch := (← get).owner.epoch
    failIf (receipt.epoch ≠ epoch) .Stale
    let root ← rootAddress port
    failIf (receipt.rootDma ≠ root ∨ receipt.serial ≠ (← get).owner.serial) .Stale
    updateWork fun work => { work with phase := .releasing }
    pure false
  else pure false

def releasing (binding : BindingId) (mapping : Bool) : VmCall E Bool := do
  match (← get).owner.retired with
  | table :: next =>
    tableValid port table
    let t := (← get).heap table
    failIf (t.retiring = false ∨ t.used ≠ 0 ∨ t.empty = false) .Descriptor
    update fun o => { o with tables := o.tables.erase t.key, retired := next }
    log (.release table)
    let answer ← callback (port.release table)
    match answer with
    | some e => throw e
    | none => pure false
  | [] =>
    update fun o => { o with
      bindings :=
        if mapping then o.bindings.map fun b => if b.id = binding then { b with mapped := true } else b
        else o.bindings.filter (·.id ≠ binding)
      work := none }
    log (.finish binding)
    pure true

def advance (id : BindingId) : VmCall E Bool := do
  let w ← get
  let (_, binding) ← lift (w.owner.bindingValid w.env id)
  let started ← workTime port
  let work ← need (← get).owner.work .State
  match work.phase with
  | .editing => editing port binding started
  | .invalidating => invalidating port
  | .releasing => releasing port id work.mapping

def poll (id : BindingId) : VmCall E Bool := do
  stable port
  let o := (← get).owner
  failIf ((o.work.any (·.binding = id)) = false) .State
  orFail (advance port id)

def close : VmCall E Unit := do
  let o := (← get).owner
  if o.prepared = false then pure ()
  else
    stable port
    failIf (o.possibleBinding = true ∨ o.attached = true ∨ o.work.isSome ∨ o.ranges ≠ [] ∨
      o.retired ≠ []) .Busy
    match o.root with
    | none => update fun _ => {}
    | some root =>
      tableValid port root
      let t := (← get).heap root
      failIf (t.used ≠ 0 ∨ t.empty = false ∨ o.getMin ≠ some root ∨ o.getMax ≠ some root) .Retained
      update fun o => { o with tables := o.tables.erase t.key, root := none }
      log (.release root)
      let answer ← callback (port.release root)
      match answer with
      | some e => orFail (throw e)
      | none => update fun _ => {}

end

/-! ## Calls -/

inductive Op (E : Type) where
  | prepare (epoch base bytes : Nat)
  | rootAddress
  | bindSubmitted
  | bindConfirmed
  | unbindConfirmed
  | reserve (id : RangeId) (bytes alignment fixed : Nat)
  | releaseRange (id : RangeId)
  | beginMap (range : RangeId) (id : BindingId) (offset : Nat) (source : Source E) (deadline : Nat)
  | beginUnmap (id : BindingId) (deadline : Nat) (quiesced : Bool)
  | poll (id : BindingId)
  | close

inductive Answer where
  | done
  | address (value : Nat)
  | polled (finished : Bool)
  deriving DecidableEq

def call {E : Type} (port : Port E) : Op E → VmCall E Answer
  | .prepare epoch base bytes => do prepare port epoch base bytes; pure .done
  | .rootAddress => do pure (.address (← rootAddress port))
  | .bindSubmitted => do bindSubmitted port; pure .done
  | .bindConfirmed => do bindConfirmed port; pure .done
  | .unbindConfirmed => do unbindConfirmed port; pure .done
  | .reserve id bytes alignment fixed => do pure (.address (← reserve port id bytes alignment fixed))
  | .releaseRange id => do releaseRange port id; pure .done
  | .beginMap range id offset source deadline => do
    beginMap port range id offset source deadline
    pure .done
  | .beginUnmap id deadline quiesced => do beginUnmap port id deadline quiesced; pure .done
  | .poll id => do pure (.polled (← poll port id))
  | .close => do close port; pure .done

def step {E : Type} (port : Port E) (w : World E) (op : Op E) : Except Error Answer × World E :=
  outcome (call port op) w

end Vm
end NvidiaGsp
