import NvidiaGsp.Lib.Calls
import NvidiaGsp.Lib.Radix
import NvidiaGsp.Lib.Runs

/-!
# Display.Push

The command ring of a display channel (`gsp_display_push.zig`) and the channel that fetches from it.
A frame is prepared behind the published end of the ring, published by moving that end, and finished
when its notifier says so. A frame that does not fit before the last word is not written: a jump to
the beginning is published instead, and the frame is asked for again after the channel took it.

Programs are built by `method` only, so a `Program` is a list of admitted methods; which methods a
configuration asks for is left to the encoder. The channel fetches one word at a time. It takes a
word as a jump only where a method header is due: the data of a method may have any value.
-/

namespace NvidiaGsp
namespace Display

open Call

inductive Error where
  | Busy | Api | Memory | Descriptor | Map | Retained | Bounds | Unsupported | Handle | State | Stale
  | Completion | Exhausted
  deriving DecidableEq

def maxU64 : Nat := 2 ^ 64 - 1

/-! ## Programs -/

/-- A method with its data, as `Program.method` admits it. -/
structure Method where
  offset : Nat
  values : List Nat
  admitted : ¬ (offset &&& 3 ≠ 0 ∨ offset > 0x3ffc ∨ values.length = 0 ∨ values.length > 1023)

namespace Method

def header (m : Method) : Nat := m.values.length <<< 18 ||| m.offset

def words (m : Method) : List Nat := m.header :: m.values

end Method

def maxWords : Nat := 256

structure Program where
  methods : List Method := []
  fits : (methods.flatMap Method.words).length ≤ maxWords := by decide

namespace Program

def words (p : Program) : List Nat := p.methods.flatMap Method.words

def count (p : Program) : Nat := p.words.length

def method (p : Program) (offset : Nat) (values : List Nat) : Except Error Program :=
  if h : (offset &&& 3 ≠ 0 ∨ offset > 0x3ffc ∨ values.length = 0 ∨ values.length > 1023) ∨
      p.count + 1 + values.length > maxWords then .error .Bounds
  else .ok {
    methods := p.methods ++ [⟨offset, values, fun hn => h (.inl hn)⟩]
    fits := by
      have hcount : ¬ p.count + 1 + values.length > maxWords := fun hn => h (.inr hn)
      rw [List.flatMap_append, List.length_append]
      simp only [List.flatMap_cons, List.flatMap_nil, List.append_nil, Method.words,
        List.length_cons]
      unfold count words at hcount
      omega }

end Program

inductive Kind where
  | core | window | immediate | cursor
  deriving DecidableEq

/-- The encoder of configurations `C`, with the two fields of a configuration that the ring reads. -/
structure Commands (C : Type) where
  initializes : C → Bool
  kind : C → Kind
  encode : C → Except Error Program

/-! ## The ring -/

def jumpZero : Nat := 0x20000000

inductive TicketKind where
  | rewind | frame
  deriving DecidableEq

structure Ticket where
  owner : Nat
  epoch : Nat
  channel : Nat
  point : Nat
  kind : TicketKind
  start : Nat
  put : Nat
  deriving DecidableEq

/-- `owner`, `epoch`, `channel` and `kind` are the ring's own address and those of its binding. -/
structure Ring where
  owner : Nat
  epoch : Nat
  channel : Nat
  kind : Kind
  put : Nat := 0
  issued : Nat := 0
  completed : Nat := 0
  initialized : Bool := false
  pending : Option Ticket := none
  program : Option Program := none
  published : Bool := false
  failed : Bool := false

/-- `intact` is the answer of the checks on the mapping, the backing and the binding. -/
def Ring.valid (r : Ring) (intact : Bool) : Bool := intact && !r.failed && decide (r.put < 1023)

/-- The ring, the words of its page, and the channel: its registers, the data words it still takes
for the current method, and the words it fetched, jumps apart. -/
structure Machine where
  ring : Ring
  words : Nat → Nat
  get : Nat := 0
  put : Nat := 0
  left : Nat := 0
  fetched : List Nat := []

abbrev PushCall (α : Type) := Call Error Machine α

/-- The words with `values` stored from `start` on. -/
def store (words : Nat → Nat) (start : Nat) (values : List Nat) (i : Nat) : Nat :=
  if i < start then words i else values.getD (i - start) (words i)

/-- The words from `start` on are `values`. -/
def Stored (words : Nat → Nat) (start : Nat) (values : List Nat) : Prop :=
  ∀ i < values.length, words (start + i) = values.getD i 0

instance (words : Nat → Nat) (start : Nat) (values : List Nat) :
    Decidable (Stored words start values) := inferInstanceAs (Decidable (∀ i < _, _))

section

variable {C : Type} (commands : Commands C)

def prepare (intact : Bool) (get : Nat) (config : C) : PushCall Ticket := do
  let m ← MonadState.get
  let r := m.ring
  failIf (r.valid intact = false) .Stale
  failIf (r.pending ≠ none ∨ r.issued ≠ r.completed ∨ get ≠ r.put) .Busy
  failIf (commands.initializes config = r.initialized ∨ commands.kind config ≠ r.kind) .State
  let program ← lift (commands.encode config)
  failIf (r.issued = maxU64) .Exhausted
  let ticket : Ticket := ⟨r.owner, r.epoch, r.channel, r.issued + 1, .frame, r.put, r.put + program.count⟩
  if ticket.put ≥ 1023 then
    failIf (r.put = 0) .Bounds
    let ticket := { ticket with kind := .rewind, put := 0 }
    set { m with
      words := Function.update m.words r.put jumpZero
      ring := { r with program := none, pending := some ticket } }
    pure ticket
  else
    set { m with
      words := store m.words r.put program.words
      ring := { r with program := some program, pending := some ticket } }
    pure ticket

def Machine.matches (m : Machine) (intact : Bool) (ticket : Ticket) (config : C) : Bool :=
  let r := m.ring
  if r.valid intact = false ∨ r.published = true ∨ r.pending ≠ some ticket ∨
      commands.initializes config = r.initialized ∨ commands.kind config ≠ r.kind then false
  else match ticket.kind with
    | .rewind => r.program.isNone && decide (ticket.start = r.put ∧ ticket.put = 0 ∧
        m.words ticket.start = jumpZero)
    | .frame => match commands.encode config with
      | .error _ => false
      | .ok expected => decide (r.program.map Program.words = some expected.words ∧
          ticket.start = r.put ∧ ticket.put = ticket.start + expected.count ∧
          Stored m.words ticket.start expected.words)

/-- The end moves, and with it the channel's own. -/
def publish (intact : Bool) (ticket : Ticket) (config : C) : PushCall Unit := do
  let m ← MonadState.get
  failIf (m.matches commands intact ticket config = false) .Stale
  set { m with
    put := ticket.put
    ring := { m.ring with
      published := true
      put := ticket.put
      issued := if ticket.kind = TicketKind.frame then ticket.point else m.ring.issued } }

def rewound (intact : Bool) (get : Nat) : PushCall Bool := do
  let m ← MonadState.get
  failIf (m.ring.valid intact = false ∨ m.ring.published = false ∨
    (m.ring.pending.any (·.kind = .rewind)) = false) .State
  if get ≠ 0 then pure false
  else
    set { m with ring := { m.ring with pending := none, published := false } }
    pure true

def finish (intact : Bool) (point : Nat) : PushCall Unit := do
  let m ← MonadState.get
  failIf (m.ring.valid intact = false ∨ m.ring.published = false ∨
    (m.ring.pending.any fun t => t.kind = .frame ∧ t.point = point) = false ∨
    m.ring.issued ≠ point) .Stale
  set { m with ring := { m.ring with
    completed := point, initialized := true, pending := none, published := false, program := none } }

/-! ## The channel -/

/-- The number of data words behind a method header. -/
def dataCount (header : Nat) : Nat := header >>> 18 &&& 0x3ff

/-- One fetch of the channel. -/
def Machine.fetch (m : Machine) : Machine :=
  if m.get = m.put then m
  else
    let word := m.words m.get
    if m.left = 0 ∧ word = jumpZero then { m with get := 0 }
    else { m with
      get := m.get + 1
      left := if m.left = 0 then dataCount word else m.left - 1
      fetched := m.fetched ++ [word] }

/-- The channel will read word `i` without another publication. -/
def Machine.StillFetches (m : Machine) (i : Nat) : Prop :=
  ∃ n, (Machine.fetch^[n] m).get = i ∧ (Machine.fetch^[n] m).get ≠ (Machine.fetch^[n] m).put

/-! ## Calls -/

/-- The caller reads the channel's position for `prepare` and `rewound`. -/
inductive Op (C : Type) where
  | prepare (intact : Bool) (config : C)
  | publish (intact : Bool) (ticket : Ticket) (config : C)
  | rewound (intact : Bool)
  | finish (intact : Bool) (point : Nat)
  | fetch

inductive Answer where
  | ticket (value : Ticket)
  | rewound (value : Bool)
  | done
  deriving DecidableEq

def call : Op C → PushCall Answer
  | .prepare intact config => do
    pure (.ticket (← prepare commands intact (← MonadState.get).get config))
  | .publish intact ticket config => do
    publish commands intact ticket config
    pure .done
  | .rewound intact => do pure (.rewound (← rewound intact (← MonadState.get).get))
  | .finish intact point => do
    finish intact point
    pure .done
  | .fetch => do
    modify Machine.fetch
    pure .done

def step (m : Machine) (op : Op C) : Except Error Answer × Machine := outcome (call commands op) m

end

/-- A ring just opened, with the point its predecessor ended at, and its channel. -/
def opened (owner epoch channel : Nat) (kind : Kind) (prior : Nat) (words : Nat → Nat) : Machine where
  ring := { owner, epoch, channel, kind, issued := prior, completed := prior }
  words := words

end Display
end NvidiaGsp
