import NvidiaGsp.Lib.Calls
import NvidiaGsp.Lib.Radix
import NvidiaGsp.Lib.Runs

/-!
# Fifo.Push

The command page of a channel (`gsp_push_ring.zig`, `gsp_push_batch.zig`) and the engine behind it.
Single jobs write their commands into a slot and one entry of the entry ring; a batch writes one entry
for each push of its caller and a last one for the completion commands. A prepared job is published by
moving PUT, and its point comes back in the completion word.

The encoders and the extent check are parameters: they are not part of this driver. The page is its
words by byte offset. The engine fetches entries from its GET up to PUT, reads the words an entry of
the ring names one at a time in any order, and executes the entries in order; executing one of the
ring's own writes the point its commands release.
-/

namespace NvidiaGsp
namespace Fifo

open Call

inductive Error where
  | Busy | Api | Memory | Descriptor | Map | Retained | Bounds | Unsupported | Stale | State
  | Exhausted | Completion
  deriving DecidableEq

def maxU32 : Nat := 2 ^ 32 - 1

def putOffset : Nat := 8192 + 0x8c
def completionOffset : Nat := 8192 + 512
def pushBase : Nat := 4096
def ringEntries : Nat := 512
def batchCapacity : Nat := ringEntries - 2

inductive Kind where
  | copy | graphics | nvdec | nvenc
  deriving DecidableEq

/-- What the ring uses of the encoders: transfers `T`, graphics commands `G`. -/
structure Wire (T G : Type) where
  encodeTransfer : (objectClass : Nat) → T → (completion point : Nat) → Except Error (List Nat)
  encodeGraphics : (objectClass : Nat) → G → (completion point : Nat) → Except Error (List Nat)
  extent : (address bytes bits : Nat) → Except Error Unit
  inc : (method count : Nat) → Nat

structure Push where
  address : Nat
  bytes : Nat
  incomplete : Bool := false
  noPrefetch : Bool := false

structure Ticket where
  owner : Nat
  epoch : Nat
  channel : Nat
  token : Nat
  point : Nat
  put : Nat
  deriving DecidableEq

/-- `owner`, `epoch` and `address` are the ring's own address and those of its backing. -/
structure Ring where
  owner : Nat
  epoch : Nat
  address : Nat
  kind : Kind
  issued : Nat := 0
  completed : Nat := 0
  put : Nat := 0
  pending : Option Ticket := none
  published : Bool := false
  failed : Bool := false
  pendingBatch : Bool := false
  batchEntries : Nat := 0
  batchPoint : Nat := 0

namespace Ring

/-- `intact` is the answer of the checks on the mapping and the backing. -/
def valid (r : Ring) (intact : Bool) : Bool := intact && !r.failed

def capacity (r : Ring) : Nat := if r.kind = .copy then 16 else 1

def slotBytes (r : Ring) : Nat := if r.kind = .copy then 256 else 4096

def pushOffset (r : Ring) : Nat := pushBase + r.issued % r.capacity * r.slotBytes

def idle (r : Ring) (intact : Bool) : Bool :=
  r.valid intact && r.pending.isNone && decide (r.issued = r.completed)

end Ring

def Ring.matches (r : Ring) (intact : Bool) (ticket : Ticket) : Bool :=
  r.valid intact && decide (r.pending = some ticket) && !r.published

/-! ## The engine's side of the page -/

/-- A fetched entry, and the words it names that were read so far. -/
structure Fetched where
  gp : Nat × Nat
  seen : Nat → Option Nat := fun _ => none

/-- What the engine executes: an entry of a caller, or commands of the ring. -/
inductive Item where
  | external (gp : Nat × Nat)
  | internal (words : List Nat)
  deriving DecidableEq

structure Machine where
  ring : Ring
  words : Nat → Nat := fun _ => 0
  get : Nat := 0
  queue : List Fetched := []
  executed : List Item := []

abbrev PushCall (α : Type) := Call Error Machine α

/-- The page with `values` stored from `offset` on. -/
def store (words : Nat → Nat) (offset : Nat) (values : List Nat) (o : Nat) : Nat :=
  if offset ≤ o ∧ (o - offset) % 4 = 0 then values.getD ((o - offset) / 4) (words o) else words o

def storeEntry (words : Nat → Nat) (index : Nat) (gp : Nat × Nat) : Nat → Nat :=
  store words (index * 8) [gp.1, gp.2]

section

variable {T G : Type} (wire : Wire T G)

/-- `entryWords`: an entry of the ring itself. -/
def entryWords (address count : Nat) : Except Error (Nat × Nat) :=
  if count = 0 ∨ count > 1024 ∨ address &&& 3 ≠ 0 then .error .Bounds
  else match wire.extent address (count * 4) 40 with
    | .error e => .error e
    | .ok _ => .ok (address % 2 ^ 32, address >>> 32 ||| count <<< 10)

/-- `batch.entry`: an entry of a caller, a level below. -/
def entry (push : Push) : Except Error (Nat × Nat) :=
  if push.bytes = 0 ∨ push.bytes ≥ 1 <<< 23 ∨ (push.address ||| push.bytes) &&& 3 ≠ 0 then .error .Bounds
  else match wire.extent push.address push.bytes 40 with
    | .error e => .error e
    | .ok _ => .ok (push.address % 2 ^ 32,
        push.address >>> 32 ||| 1 <<< 9 ||| (push.bytes / 4) <<< 10 ||| push.noPrefetch.toNat <<< 31)

def validateEntries : List Push → Except Error Unit
  | [] => .ok ()
  | push :: rest =>
    match entry wire push with
    | .error e => .error e
    | .ok _ => validateEntries rest

def validate (pushes : List Push) : Except Error Unit :=
  if pushes.length > batchCapacity then .error .Bounds
  else if pushes.getLast?.any (·.incomplete) then .error .Bounds
  else validateEntries wire pushes

/-- The commands that release `point` behind all preceding work. -/
def completion (address point : Nat) : Except Error (List Nat) :=
  if point = 0 ∨ address &&& 3 ≠ 0 then .error .Bounds
  else match wire.extent address 4 40 with
    | .error e => .error e
    | .ok _ => .ok [wire.inc 0x78 1, 1, wire.inc 0x28 4, 0, 0, 0, 5 <<< 27, wire.inc 0x5c 5,
        address % 2 ^ 32, address >>> 32, point, 0, 1]

/-! ## The ring -/

def nextPoint (intact : Bool) : PushCall Nat := do
  let r := (← get).ring
  failIf (r.valid intact = false) .Stale
  failIf (r.pending ≠ none ∨ r.batchPoint ≠ 0 ∨ r.issued - r.completed ≥ r.capacity) .Busy
  failIf (r.issued = maxU32) .Exhausted
  pure (r.issued + 1)

def prepareWords (channel token point : Nat) (commands : List Nat) : PushCall Ticket := do
  let m ← get
  let r := m.ring
  failIf (commands.length = 0 ∨ commands.length > r.slotBytes / 4) .Bounds
  let gp ← lift (entryWords wire (r.address + r.pushOffset) commands.length)
  let ticket : Ticket := ⟨r.owner, r.epoch, channel, token, point, (r.put + 1) % 512⟩
  set { m with
    words := storeEntry (store m.words r.pushOffset commands) r.put gp
    ring := { r with pendingBatch := false, batchEntries := 0, pending := some ticket } }
  pure ticket

/-- A single job: the kind of ring it needs, and its encoder. -/
def prepareJob (kind : Kind) (encode : (completion point : Nat) → Except Error (List Nat))
    (intact : Bool) (channel token : Nat) : PushCall Ticket := do
  let r := (← get).ring
  failIf (r.kind ≠ kind) .Unsupported
  let point ← nextPoint intact
  let commands ← lift (encode (r.address + completionOffset) point)
  prepareWords wire channel token point commands

def prepare (intact : Bool) (objectClass channel token : Nat) (transfer : T) : PushCall Ticket :=
  prepareJob wire .copy (wire.encodeTransfer objectClass transfer) intact channel token

def prepareGraphics (intact : Bool) (objectClass channel token : Nat) (command : G) :
    PushCall Ticket :=
  prepareJob wire .graphics (wire.encodeGraphics objectClass command) intact channel token

/-- The entries of a batch, from `index` on. -/
def writeEntries : Nat → List Push → PushCall Unit
  | _, [] => pure ()
  | index, push :: rest => do
    let gp ← lift (entry wire push)
    modify fun m => { m with words := storeEntry m.words (index % ringEntries) gp }
    writeEntries (index + 1) rest

def prepareBatch (intact : Bool) (channel token : Nat) (pushes : List Push) : PushCall Ticket := do
  let point ← nextPoint intact
  let r := (← get).ring
  failIf (r.idle intact = false) .Busy
  lift (validate wire pushes)
  let commands ← lift (completion wire (r.address + completionOffset) point)
  let tail ← lift (entryWords wire (r.address + r.pushOffset) commands.length)
  writeEntries wire r.put pushes
  let finish := (r.put + pushes.length) % ringEntries
  let ticket : Ticket := ⟨r.owner, r.epoch, channel, token, point, (finish + 1) % ringEntries⟩
  modify fun m => { m with
    words := storeEntry (store m.words r.pushOffset commands) finish tail
    ring := { m.ring with
      pendingBatch := true, batchEntries := pushes.length, pending := some ticket } }
  pure ticket

end

def publish (intact : Bool) (ticket : Ticket) : PushCall Unit := do
  let m ← get
  let r := m.ring
  failIf (r.matches intact ticket = false) .Stale
  set { m with
    words := Function.update m.words putOffset ticket.put
    ring := { r with
      published := true
      issued := ticket.point
      put := ticket.put
      batchPoint := if r.pendingBatch then ticket.point else r.batchPoint } }

def abortUnpublished (intact : Bool) (ticket : Ticket) : PushCall Unit := do
  let m ← get
  let r := m.ring
  failIf (r.matches intact ticket = false ∨ r.pendingBatch = true ∨ r.batchPoint ≠ 0) .Stale
  failIf (r.issued ≠ r.completed ∨ m.words putOffset ≠ r.put ∨
    m.words completionOffset ≠ r.completed) .Retained
  set { m with ring := { r with pending := none } }

def notified (intact : Bool) (ticket : Ticket) : PushCall Unit := do
  let m ← get
  let r := m.ring
  failIf (r.valid intact = false ∨ r.published = false ∨ r.pending ≠ some ticket) .Stale
  set { m with ring := { r with pending := none, published := false, pendingBatch := false } }

def poll (intact : Bool) : PushCall Nat := do
  let m ← get
  let r := m.ring
  failIf (r.valid intact = false) .Stale
  let point := m.words completionOffset
  if point < r.completed ∨ point > r.issued then
    set { m with ring := { r with failed := true } }
    throw .Completion
  else
    set { m with ring := { r with
      completed := point
      batchPoint := if r.batchPoint ≠ 0 ∧ point ≥ r.batchPoint then 0 else r.batchPoint } }
    pure point

/-! ## The engine -/

/-- An entry of a caller has the level bit. -/
def isExternal (gp : Nat × Nat) : Bool := gp.2.testBit 9

def entryAddress (gp : Nat × Nat) : Nat := (gp.2 &&& 0xff) <<< 32 ||| gp.1

def entryCount (gp : Nat × Nat) : Nat := gp.2 >>> 10 &&& 0x1fffff

namespace Machine

def fetch (m : Machine) : Machine :=
  if m.get = m.words putOffset then m
  else { m with
    get := (m.get + 1) % ringEntries
    queue := m.queue ++ [{ gp := (m.words (m.get * 8), m.words (m.get * 8 + 4)) }] }

/-- The engine reads word `k` of the `i`th entry it holds. -/
def load (m : Machine) (i k : Nat) : Machine :=
  match m.queue[i]? with
  | none => m
  | some f =>
    if isExternal f.gp = true ∨ entryCount f.gp ≤ k then m
    else { m with queue := m.queue.set i { f with
      seen := Function.update f.seen k (some (m.words (entryAddress f.gp - m.ring.address + k * 4))) } }

/-- The engine executes the next entry, once it has read all of it. `payload` is the value that
commands release. -/
def execute (payload : List Nat → Nat) (m : Machine) : Machine :=
  match m.queue with
  | [] => m
  | f :: rest =>
    if isExternal f.gp = true then
      { m with queue := rest, executed := m.executed ++ [.external f.gp] }
    else if (List.range (entryCount f.gp)).all fun k => (f.seen k).isSome then
      let words := (List.range (entryCount f.gp)).map fun k => (f.seen k).getD 0
      { m with
        queue := rest
        executed := m.executed ++ [.internal words]
        words := Function.update m.words completionOffset (payload words) }
    else m

end Machine

/-! ## Calls -/

inductive Op (T G : Type) where
  | prepare (intact : Bool) (objectClass channel token : Nat) (transfer : T)
  | prepareGraphics (intact : Bool) (objectClass channel token : Nat) (command : G)
  | prepareBatch (intact : Bool) (channel token : Nat) (pushes : List Push)
  | publish (intact : Bool) (ticket : Ticket)
  | abortUnpublished (intact : Bool) (ticket : Ticket)
  | notified (intact : Bool) (ticket : Ticket)
  | poll (intact : Bool)
  | fetch
  | load (i k : Nat)
  | execute

inductive Answer where
  | ticket (value : Ticket)
  | point (value : Nat)
  | done
  deriving DecidableEq

def call {T G : Type} (wire : Wire T G) (payload : List Nat → Nat) : Op T G → PushCall Answer
  | .prepare intact objectClass channel token transfer => do
    pure (.ticket (← prepare wire intact objectClass channel token transfer))
  | .prepareGraphics intact objectClass channel token command => do
    pure (.ticket (← prepareGraphics wire intact objectClass channel token command))
  | .prepareBatch intact channel token pushes => do
    pure (.ticket (← prepareBatch wire intact channel token pushes))
  | .publish intact ticket => do
    publish intact ticket
    pure .done
  | .abortUnpublished intact ticket => do
    abortUnpublished intact ticket
    pure .done
  | .notified intact ticket => do
    notified intact ticket
    pure .done
  | .poll intact => do pure (.point (← poll intact))
  | .fetch => do
    modify Machine.fetch
    pure .done
  | .load i k => do
    modify fun m => m.load i k
    pure .done
  | .execute => do
    modify (Machine.execute payload)
    pure .done

def step {T G : Type} (wire : Wire T G) (payload : List Nat → Nat) (m : Machine) (op : Op T G) :
    Except Error Answer × Machine := outcome (call wire payload op) m

/-- A ring just opened on a zeroed page. -/
def opened (owner epoch address : Nat) (kind : Kind) : Machine where
  ring := { owner, epoch, address, kind }

end Fifo
end NvidiaGsp
