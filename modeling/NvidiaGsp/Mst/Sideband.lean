import NvidiaGsp.Lib.Runs
import NvidiaGsp.Mst.Topology

/-!
# Mst.Sideband

The sequence bit of the sideband exchanges on one root. Three owners share `Root.sequence`: discovery
(`gsp_mst_discovery.zig`, topology and `clear_branches`), the link transaction (`gsp_mst_link.zig`)
and the restore transaction (`gsp_mst_restore.zig`). Each runs a `transport.Work`
(`gsp_mst_transport.zig`): the request goes out in packets, the reply comes back in fragments that the
work's `Assembly` (`gsp_mst_wire.zig`) accepts only under the route, the path flag and the sequence
bit of the request. The transfer of a packet over AUX is one step here; the bytes of a header and
its checksums are left out.

Discovery flips the bit before an exchange, the transactions flip it behind one. Within one group the
bit alternates, at a change of the group it does not (`sequence_run`, `handover_repeats`).
-/

namespace NvidiaGsp
namespace Mst

abbrev Bit := BitVec 1

/-! ## Frames -/

def messageBytes : Nat := 512

structure Header where
  route : Route := {}
  remaining : Nat := 0
  broadcast : Bool := false
  path : Bool := false
  start : Bool := true
  last : Bool := true
  sequence : Bit := 0
  deriving DecidableEq

structure Fragment where
  header : Header
  body : List Byte
  deriving DecidableEq

structure Assembly where
  route : Route
  sequence : Bit
  path : Bool := false
  broadcast : Bool := false
  bytes : List Byte := []
  started : Bool := false
  complete : Bool := false
  deriving DecidableEq

def Assembly.consume (a : Assembly) (frame : Fragment) : Except Error Assembly :=
  let h := frame.header
  if a.complete ∨ h.remaining ≠ 0 ∨ a.route ≠ h.route ∨ a.sequence ≠ h.sequence ∨
      a.path ≠ h.path ∨ a.broadcast ≠ h.broadcast ∨ a.started = h.start then .error .Stale
  else if frame.body.length = 0 ∨ frame.body.length > messageBytes - a.bytes.length then
    .error .Bounds
  else .ok { a with bytes := a.bytes ++ frame.body, started := true, complete := h.last }

/-- A frame under another sequence bit is stale, whatever came before. -/
theorem consume_stale {a : Assembly} {frame : Fragment} (h : a.sequence ≠ frame.header.sequence) :
    a.consume frame = .error .Stale := by
  unfold Assembly.consume
  exact if_pos (.inr (.inr (.inr (.inl h))))

theorem consume_sequence {a a' : Assembly} {frame : Fragment} (h : a.consume frame = .ok a') :
    a'.sequence = a.sequence := by
  unfold Assembly.consume at h
  dsimp only at h
  split at h
  · cases h
  split at h
  · cases h
  · cases h
    rfl

/-! ## One exchange -/

/-- The kinds of requests; their arguments do not reach the header. -/
inductive Ask where
  | linkAddress | enumPath | allocate | query | clear | dpcdRead | dpcdWrite | edid | powerUp
  | powerDown
  deriving DecidableEq

def Ask.path : Ask → Bool
  | .allocate | .enumPath | .clear => true
  | _ => false

inductive Stage where
  | send | ready | read | clear | complete
  deriving DecidableEq

structure Sender where
  route : Route
  sequence : Bit
  path : Bool
  broadcast : Bool
  deriving DecidableEq

/-- `transport.Work`. -/
structure Exchange where
  request : Ask
  sender : Sender
  assembly : Assembly
  stage : Stage := .send
  upPending : Bool := false
  deriving DecidableEq

def Exchange.init (root generation deadline : Nat) (route : Route) (sequence : Bit) (request : Ask) :
    Except Error Exchange :=
  if root = 0 ∨ root &&& (root - 1) ≠ 0 ∨ generation = 0 ∨ deadline = 0 ∨ route.valid = false then
    .error .Descriptor
  else .ok {
    request
    sender := ⟨route, sequence, request.path, request == .clear⟩
    assembly := {
      route := if request = .clear then {} else route
      sequence, path := request.path, broadcast := request == .clear } }

/-- What an AUX transfer of the exchange brought: the last packet went out; the status of the
mailboxes; a whole packet of the reply; the reply was acknowledged. -/
inductive Observation where
  | sent
  | status (down up : Bool)
  | packet (frame : Fragment)
  | cleared

/-- `Work.consume`; `decode` is `wire.reply`. -/
def Exchange.consume (decode : Ask → List Byte → Except Error Unit) (e : Exchange) :
    Observation → Except Error Exchange
  | .sent => if e.stage = .send then .ok { e with stage := .ready } else .error .State
  | .status down up =>
    if e.stage = .ready then
      .ok { e with upPending := e.upPending || up, stage := if down then .read else .ready }
    else .error .State
  | .packet frame =>
    if e.stage = .read then do
      let assembly ← e.assembly.consume frame
      .ok { e with assembly, stage := .clear }
    else .error .State
  | .cleared =>
    if e.stage = .clear then
      if e.assembly.complete then do
        decode e.request e.assembly.bytes
        .ok { e with stage := .complete }
      else .ok { e with stage := .ready }
    else .error .State

theorem init_sequence {root generation deadline : Nat} {route : Route} {sequence : Bit}
    {request : Ask} {e : Exchange}
    (h : Exchange.init root generation deadline route sequence request = .ok e) :
    e.assembly.sequence = sequence := by
  unfold Exchange.init at h
  split at h
  · cases h
  · cases h
    rfl

/-- The bit of an exchange is the one it began with. -/
theorem exchange_sequence {decode : Ask → List Byte → Except Error Unit} {e e' : Exchange}
    {o : Observation} (h : e.consume decode o = .ok e') :
    e'.assembly.sequence = e.assembly.sequence := by
  cases o with
  | sent =>
    simp only [Exchange.consume] at h
    split at h <;> cases h
    rfl
  | status down up =>
    simp only [Exchange.consume] at h
    split at h <;> cases h
    rfl
  | packet frame =>
    simp only [Exchange.consume] at h
    split at h
    · cases ha : e.assembly.consume frame with
      | error _ =>
        rw [ha] at h
        cases h
      | ok a =>
        rw [ha] at h
        cases h
        exact consume_sequence ha
    · cases h
  | cleared =>
    simp only [Exchange.consume] at h
    split at h
    · split at h
      · cases hd : decode e.request e.assembly.bytes with
        | error _ =>
          rw [hd] at h
          cases h
        | ok _ =>
          rw [hd] at h
          cases h
          rfl
      · cases h
        rfl
    · cases h

/-! ## The root and its owners -/

inductive User where
  | discovery | link | restore
  deriving DecidableEq

structure SidebandRoot where
  sequence : Bit := 0
  mailboxPending : Bool := false
  deriving DecidableEq

/-- A completed exchange: whose it was, and how many exchanges discovery began since the one before,
this one included. -/
structure Completed where
  user : User
  exchange : Exchange
  begun : Nat

/-- A root with the exchange that has its mailbox. `completed` is the history of it, newest first,
and `begun` counts on from its last entry. -/
structure Station where
  root : SidebandRoot := {}
  current : Option (User × Exchange) := none
  completed : List Completed := []
  begun : Nat := 0

inductive SidebandOp where
  | start (user : User) (id generation deadline : Nat) (route : Route) (request : Ask)
  | submitted
  | consume (o : Observation)
  | collect
  | drop
  | drained

/-- `prepare` of an owner without an exchange. Discovery flips first, and drained the mailbox before;
the transactions refuse a mailbox that still holds a reply. -/
def Station.start (s : Station) (user : User) (id generation deadline : Nat) (route : Route)
    (request : Ask) : Except Error Unit × Station :=
  match user with
  | .discovery =>
    let s := { s with root := { s.root with sequence := s.root.sequence ^^^ 1 }, begun := s.begun + 1 }
    match Exchange.init id generation deadline route s.root.sequence request with
    | .error e => (.error e, s)
    | .ok e => (.ok (), { s with current := some (user, e) })
  | .link | .restore =>
    if s.root.mailboxPending then (.error .Retained, s)
    else
      match Exchange.init id generation deadline route s.root.sequence request with
      | .error e => (.error e, s)
      | .ok e => (.ok (), { s with current := some (user, e) })

/-- The last fragment of the reply is acknowledged, and the exchange is complete. The transactions let
it go and flip the bit at once; discovery keeps it until its next `prepare`. -/
def Station.finish (s : Station) (user : User) (e : Exchange) : Station :=
  let s := { s with completed := ⟨user, e, s.begun⟩ :: s.completed, begun := 0 }
  if user = .discovery then { s with current := some (user, e) }
  else { s with root := ⟨s.root.sequence ^^^ 1, false⟩, current := none }

/-- One step of the owner that has the mailbox. A failed exchange is dropped, and so is any exchange of
an owner that is invalidated, a complete one of discovery too; what it left in the mailbox stays until
discovery drained it. -/
def Station.step (decode : Ask → List Byte → Except Error Unit) (s : Station) :
    SidebandOp → Except Error Unit × Station
  | .start user id generation deadline route request =>
    match s.current with
    | none => s.start user id generation deadline route request
    | some _ => (.error .Busy, s)
  | .submitted =>
    match s.current with
    | none => (.error .State, s)
    | some _ => (.ok (), { s with root := { s.root with mailboxPending := true } })
  | .consume o =>
    match s.current with
    | none => (.error .Pending, s)
    | some (user, e) =>
      match e.consume decode o with
      | .error error => (.error error, { s with current := none })
      | .ok e =>
        if e.stage = .complete then (.ok (), s.finish user e)
        else (.ok (), { s with current := some (user, e) })
  | .collect =>
    match s.current with
    | some (.discovery, e) =>
      if e.stage = .complete then
        (.ok (), { s with root := { s.root with mailboxPending := false }, current := none })
      else (.error .State, s)
    | _ => (.error .State, s)
  | .drop => (.ok (), { s with current := none })
  | .drained =>
    match s.current with
    | none => (.ok (), { s with root := { s.root with mailboxPending := false } })
    | some _ => (.error .State, s)

/-! ## Consecutive exchanges -/

def Completed.bit (x : Completed) : Bit := x.exchange.assembly.sequence

/-- A frame of the reply to an exchange, by its header. -/
def Completed.Answers (x : Completed) (frame : Fragment) : Prop :=
  frame.header.route = x.exchange.assembly.route ∧ frame.header.path = x.exchange.assembly.path ∧
    frame.header.sequence = x.bit

/-- The later exchange has another bit, and its assembly refuses every reply to the earlier one. -/
def Apart (later earlier : Completed) : Prop :=
  later.bit ≠ earlier.bit ∧ ∀ (a : Assembly) (frame : Fragment), a.sequence = later.bit →
    earlier.Answers frame → a.consume frame = .error .Stale

/-- Behind discovery an odd number of its exchanges began, behind a transaction an even number. -/
def HandedOver (later earlier : Completed) : Prop :=
  later.begun % 2 = if earlier.user = .discovery then 1 else 0

/-- The bit a completed exchange leaves in the root. -/
def Completed.leaves (x : Completed) : Bit :=
  if x.user = .discovery then x.bit else x.bit ^^^ 1

/-- The bit after a number of flips. -/
def flips (b : Bit) : Nat → Bit
  | 0 => b
  | n + 1 => flips b n ^^^ 1

theorem flips_eq (b : Bit) (n : Nat) : flips b n = if n % 2 = 0 then b else b ^^^ 1 := by
  induction n with
  | zero => rfl
  | succ n ih =>
    rw [flips, ih]
    by_cases h : n % 2 = 0
    · have : ¬ (n + 1) % 2 = 0 := by omega
      rw [if_pos h, if_neg this]
    · have : (n + 1) % 2 = 0 := by omega
      rw [if_neg h, if_pos this, BitVec.xor_assoc, BitVec.xor_self, BitVec.xor_zero]

theorem flip_ne (b : Bit) : b ^^^ 1 ≠ b := by
  revert b
  decide

/-- Whether the bit of the next exchange differs is a matter of parity. -/
theorem flips_ne {x : Completed} {n : Nat} :
    flips x.leaves n ≠ x.bit ↔ n % 2 = if x.user = .discovery then 1 else 0 := by
  have htwice : x.bit ^^^ 1 ^^^ 1 = x.bit := by
    rw [BitVec.xor_assoc, BitVec.xor_self, BitVec.xor_zero]
  rw [flips_eq]
  unfold Completed.leaves
  by_cases hu : x.user = .discovery
  · rw [if_pos hu, if_pos hu]
    by_cases h : n % 2 = 0
    · simp [h]
    · have hone : n % 2 = 1 := by omega
      rw [if_neg h]
      exact ⟨fun _ => hone, fun _ => flip_ne x.bit⟩
  · rw [if_neg hu, if_neg hu]
    by_cases h : n % 2 = 0
    · rw [if_pos h]
      exact ⟨fun _ => h, fun _ => flip_ne x.bit⟩
    · rw [if_neg h, htwice]
      simp [h]

/-- The root's bit is what the last completed exchange left, flipped for each exchange of discovery
since; the exchange under way has it. -/
structure Station.Inv (s : Station) : Prop where
  bit : ∀ x rest, s.completed = x :: rest → s.root.sequence = flips x.leaves s.begun
  current : ∀ user e, s.current = some (user, e) → e.assembly.sequence = s.root.sequence
  apart : ∀ l x y r, s.completed = l ++ y :: x :: r → y.bit = flips x.leaves y.begun

theorem inv_initial : Station.Inv {} where
  bit x rest hx := by cases hx
  current user e h := by cases h
  apart l x y r hl := by simp at hl

variable {decode : Ask → List Byte → Except Error Unit} {s : Station}

theorem start_inv (hi : s.Inv) (hc : s.current = none) (user : User) (id generation deadline : Nat) (route : Route)
    (request : Ask) : (s.start user id generation deadline route request).2.Inv := by
  have hplain : ∀ user e, Exchange.init id generation deadline route s.root.sequence request = .ok e →
      Station.Inv { s with current := some (user, e) } := by
    intro user e he
    refine ⟨hi.bit, ?_, hi.apart⟩
    rintro _ _ ⟨rfl, rfl⟩
    exact init_sequence he
  cases user with
  | discovery =>
    have hbit : ∀ x rest, s.completed = x :: rest →
        s.root.sequence ^^^ 1 = flips x.leaves (s.begun + 1) := by
      intro x rest hx
      rw [flips, hi.bit x rest hx]
    unfold Station.start
    dsimp only
    split
    · refine ⟨hbit, ?_, hi.apart⟩
      intro user e h
      simp [hc] at h
    · rename_i e he
      refine ⟨hbit, ?_, hi.apart⟩
      rintro _ _ ⟨rfl, rfl⟩
      exact init_sequence he
  | link =>
    unfold Station.start
    dsimp only
    split
    · exact hi
    split
    · exact hi
    · rename_i e he
      exact hplain _ e he
  | restore =>
    unfold Station.start
    dsimp only
    split
    · exact hi
    split
    · exact hi
    · rename_i e he
      exact hplain _ e he

theorem finish_inv (hi : s.Inv) {user : User} {e : Exchange}
    (he : e.assembly.sequence = s.root.sequence) : (s.finish user e).Inv := by
  have hapart : ∀ l x y r, (⟨user, e, s.begun⟩ : Completed) :: s.completed = l ++ y :: x :: r →
      y.bit = flips x.leaves y.begun := by
    intro l x y r hl
    cases l with
    | nil =>
      obtain ⟨rfl, hrest⟩ := List.cons.inj hl
      exact he.trans (hi.bit x r hrest)
    | cons z l =>
      obtain ⟨-, hrest⟩ := List.cons.inj hl
      exact hi.apart l x y r hrest
  unfold Station.finish
  dsimp only
  by_cases hu : user = .discovery
  · rw [if_pos hu]
    refine ⟨?_, ?_, hapart⟩
    · intro x rest hx
      obtain ⟨rfl, rfl⟩ := List.cons.inj hx
      show s.root.sequence = Completed.leaves _
      unfold Completed.leaves Completed.bit
      rw [if_pos hu, he]
    · rintro _ _ ⟨rfl, rfl⟩
      exact he
  · rw [if_neg hu]
    refine ⟨?_, ?_, hapart⟩
    · intro x rest hx
      obtain ⟨rfl, rfl⟩ := List.cons.inj hx
      show s.root.sequence ^^^ 1 = Completed.leaves _
      unfold Completed.leaves Completed.bit
      rw [if_neg hu, he]
    · intro user e h
      cases h

theorem step_inv (hi : s.Inv) (op : SidebandOp) : (s.step decode op).2.Inv := by
  have hnone : ∀ root : SidebandRoot, root.sequence = s.root.sequence →
      Station.Inv { s with root, current := none } := by
    intro root hroot
    constructor
    · intro x rest hx
      exact hroot.trans (hi.bit x rest hx)
    · intro user e h
      cases h
    · exact hi.apart
  cases op with
  | start user id generation deadline route request =>
    cases hc : s.current with
    | none =>
      simp only [Station.step, hc]
      exact start_inv hi hc user id generation deadline route request
    | some _ =>
      simp only [Station.step, hc]
      exact hi
  | submitted =>
    cases hc : s.current with
    | none =>
      simp only [Station.step, hc]
      exact hi
    | some _ =>
      simp only [Station.step, hc]
      exact ⟨hi.bit, fun user e h => hi.current user e (hc.trans h), hi.apart⟩
  | consume o =>
    cases hc : s.current with
    | none =>
      simp only [Station.step, hc]
      exact hi
    | some p =>
      obtain ⟨user, e⟩ := p
      have hseq := hi.current user e hc
      cases he : e.consume decode o with
      | error error =>
        simp only [Station.step, hc, he]
        exact hnone s.root rfl
      | ok e' =>
        have hseq' := (exchange_sequence he).trans hseq
        simp only [Station.step, hc, he]
        split
        · exact finish_inv hi hseq'
        · refine ⟨hi.bit, ?_, hi.apart⟩
          rintro _ _ ⟨rfl, rfl⟩
          exact hseq'
  | collect =>
    simp only [Station.step]
    split
    · split
      · exact hnone { s.root with mailboxPending := false } rfl
      · exact hi
    · exact hi
  | drop => exact hnone s.root rfl
  | drained =>
    cases hc : s.current with
    | none =>
      simp only [Station.step, hc]
      exact ⟨hi.bit, fun user e h => hi.current user e (hc.trans h), hi.apart⟩
    | some _ =>
      simp only [Station.step, hc]
      exact hi

/-- The bit of consecutive completed exchanges differs, and the later refuses every reply to the
earlier, exactly where the owners hand over so: behind an exchange of discovery an odd number of its
exchanges began up to the next completed one, behind one of the transactions an even number. -/
theorem sequence_run {h : List (Event Station SidebandOp (Except Error Unit))}
    (hr : Run (Station.step decode) {} h s) :
    s.completed.IsChain Apart ↔ s.completed.IsChain HandedOver := by
  have hi : s.Inv := by
    refine hr.invariant (P := fun _ s => s.Inv) inv_initial ?_
    · intro _ s op _ s' hs hstep
      have hnext : (s.step decode op).2.Inv := step_inv hs op
      rwa [hstep] at hnext
  have hpair : ∀ l x y r, s.completed = l ++ y :: x :: r → (Apart y x ↔ HandedOver y x) := by
    intro l x y r hl
    have hbit := hi.apart l x y r hl
    constructor
    · intro hapart
      exact flips_ne.mp (hbit ▸ hapart.1)
    · intro hover
      have hne : y.bit ≠ x.bit := hbit ▸ flips_ne.mpr hover
      refine ⟨hne, ?_⟩
      intro a frame ha hanswer
      apply consume_stale
      rw [ha, hanswer.2.2]
      exact hne
  rw [List.isChain_iff_forall_rel_of_append_cons_cons,
    List.isChain_iff_forall_rel_of_append_cons_cons]
  constructor
  · intro hall y x l r hl
    exact (hpair l x y r hl).mp (hall hl)
  · intro hall y x l r hl
    exact (hpair l x y r hl).mpr (hall hl)

instance : DecidableRel HandedOver := fun _ _ => inferInstanceAs (Decidable (_ = _))

/-- A LINK_ADDRESS exchange below the root, answered in one packet under its own bit. -/
def linkAddressOps (user : User) (sequence : Bit) : List SidebandOp :=
  [.start user 1 1 1 {} .linkAddress, .submitted, .consume .sent, .consume (.status true false),
    .consume (.packet ⟨{ sequence }, [1]⟩), .consume .cleared]

/-- Discovery completes three exchanges; it is invalidated before it collects the second. -/
def discoveryOps : List SidebandOp :=
  linkAddressOps .discovery 1 ++ [.collect] ++ linkAddressOps .discovery 0 ++ [.drop, .drained] ++
    linkAddressOps .discovery 1

def acceptAll : Ask → List Byte → Except Error Unit := fun _ _ => .ok ()

theorem sequence_run_discovery :
    (exec (Station.step acceptAll) {} discoveryOps).2.completed.map Completed.bit = [1, 0, 1] ∧
    (exec (Station.step acceptAll) {} discoveryOps).2.completed.IsChain Apart := by
  have hrun : (exec (Station.step acceptAll) {} discoveryOps).2.completed.map Completed.bit =
      [1, 0, 1] ∧ (exec (Station.step acceptAll) {} discoveryOps).2.completed.IsChain HandedOver := by
    decide +kernel
  exact ⟨hrun.1, (sequence_run (Run.of_exec (Station.step acceptAll) {} discoveryOps)).mpr hrun.2⟩

/-- Discovery flips before its exchange and leaves the bit it used; the link transaction uses it
again. -/
theorem handover_repeats :
    ¬ ∀ (decode : Ask → List Byte → Except Error Unit)
      (h : List (Event Station SidebandOp (Except Error Unit))) (s : Station),
      Run (Station.step decode) {} h s → s.completed.IsChain Apart := by
  intro hall
  have hchain := hall acceptAll _ _ (Run.of_exec (Station.step acceptAll) {}
    (linkAddressOps .discovery 1 ++ [.collect] ++ linkAddressOps .link 1))
  have hbits : (exec (Station.step acceptAll) {}
      (linkAddressOps .discovery 1 ++ [.collect] ++ linkAddressOps .link 1)).2.completed.map Completed.bit =
        [1, 1] := by
    decide +kernel
  obtain ⟨y, rest, hlist, hy, hrest⟩ := List.map_eq_cons_iff.mp hbits
  obtain ⟨x, _, rfl, hx, -⟩ := List.map_eq_cons_iff.mp hrest
  rw [hlist] at hchain
  exact (List.isChain_cons_cons.mp hchain).1.1 (hy.trans hx.symm)

end Mst
end NvidiaGsp
