import NvidiaGsp.Lib.Triples
import NvidiaGsp.Vm.Page

/-!
# Vm.Tlb

The invalidation of the translations of one root (`gsp_host_tlb.zig`). An operation writes the two
root registers, reads both back, writes the command, polls until the trigger is clear and reads both
registers back again; it moves one phase at a step, and any failing step ends it. `Moves` is one
step, `Progress` a run of steps from the start, and `Progress.invalidated` what the register bus has
seen by the end.
-/

namespace NvidiaGsp
namespace Vm

def pfBase : Nat := 0xb80000
def pdbLow : Nat := pfBase + 0x30a0
def pdbHigh : Nat := pfBase + 0x30a4
def invalidate : Nat := pfBase + 0x30b0
def trigger : Nat := 0x80000000
def command : Nat := trigger ||| 0xc1

/-- The clock and the registers, over a device state `E`; a read without value and a write that is
not `true` failed. -/
structure Io (E : Type) where
  generation : E → Nat × E
  nowNs : E → Nat × E
  read32 : Nat → E → Option Nat × E
  write32 : Nat → Nat → E → Bool × E

/-- What holds of the device state is kept by every access. -/
structure Io.Keeps {E : Type} (io : Io E) (K : E → Prop) : Prop where
  generation : ∀ e, K e → K (io.generation e).2
  nowNs : ∀ e, K e → K (io.nowNs e).2
  read32 : ∀ address e, K e → K (io.read32 address e).2
  write32 : ∀ address value e, K e → K (io.write32 address value e).2

/-- The register accesses of an operation, in order. -/
inductive Bus where
  | read (address value : Nat)
  | readFault (address : Nat)
  | write (address value : Nat)
  | writeFault (address value : Nat)
  deriving DecidableEq

structure Receipt where
  epoch : Nat
  rootDma : Nat
  serial : Nat
  deriving DecidableEq

inductive Phase where
  | idle | low | high | verifyLow | verifyHigh | publish | waiting | finalLow | finalHigh | done
  | failed
  deriving DecidableEq

/-- The two register words of a root. -/
def words (rootDma : Nat) : Except Error (Nat × Nat) :=
  (directory rootDma).map fun _ => ((rootDma >>> 8) % 2 ^ 32 ||| 2, rootDma >>> 40)

/-- An operation. Its owner does not move it, so the address it records at its first step is either
missing or its own. -/
structure Operation where
  pinned : Bool := false
  epoch : Nat
  rootDma : Nat
  serial : Nat
  deadline : Nat
  lastTime : Nat := 0
  phase : Phase := .idle
  effectsPossible : Bool := false
  failure : Option Error := none

structure TlbWorld (E : Type) where
  operation : Operation
  env : E
  bus : List Bus := []

/-- A call on an operation. -/
abbrev TlbCall (E α : Type) := Call Error (TlbWorld E) α

namespace Operation

open Call

variable {E : Type} (io : Io E)

def init (epoch rootDma serial deadline : Nat) : Except Error Operation :=
  if epoch = 0 ∨ serial = 0 ∨ deadline = 0 then .error .State
  else (words rootDma).map fun _ => { epoch, rootDma, serial, deadline }

def callback {α : Type} (f : E → α × E) : TlbCall E α := fun w =>
  .ok (f w.env).1 { w with env := (f w.env).2 }

def update (f : Operation → Operation) : TlbCall E Unit := fun w =>
  .ok () { w with operation := f w.operation }

def guard : TlbCall E Unit := do
  let op := (← get).operation
  failIf (op.pinned = false) .Stale
  let generation ← callback io.generation
  failIf (generation ≠ op.epoch) .Stale
  let now ← callback io.nowNs
  failIf (now < op.lastTime ∨ now ≥ op.deadline) .Deadline

def read (address : Nat) : TlbCall E Nat := fun w =>
  match io.read32 address w.env with
  | (none, env) => .error .Io { w with env, bus := w.bus ++ [.readFault address] }
  | (some value, env) =>
    if value = 0xffffffff then .error .Register { w with env, bus := w.bus ++ [.read address value] }
    else .ok value { w with env, bus := w.bus ++ [.read address value] }

/-- A failed write may already be visible. -/
def write (address value : Nat) : TlbCall E Unit := fun w =>
  let operation := { w.operation with effectsPossible := true }
  match io.write32 address value w.env with
  | (false, env) => .error .Io ⟨operation, env, w.bus ++ [.writeFault address value]⟩
  | (true, env) => .ok () ⟨operation, env, w.bus ++ [.write address value]⟩

def setPhase (phase : Phase) : TlbCall E Unit := update fun op => { op with phase }

def tick : TlbCall E Unit := do
  let now ← callback io.nowNs
  update fun op => { op with lastTime := now }

/-- The access of a phase, and the phase after it. -/
def act (low high : Nat) : Phase → TlbCall E Unit
  | .idle => do
    let value ← read io invalidate
    if value &&& trigger = 0 then setPhase .low else pure ()
  | .low => do
    write io pdbLow low
    setPhase .high
  | .high => do
    write io pdbHigh high
    setPhase .verifyLow
  | .verifyLow => do
    let value ← read io pdbLow
    failIf (value ≠ low) .Register
    setPhase .verifyHigh
  | .verifyHigh => do
    let value ← read io pdbHigh
    failIf (value ≠ high) .Register
    setPhase .publish
  | .publish => do
    write io invalidate command
    setPhase .waiting
  | .waiting => do
    let value ← read io invalidate
    if value &&& trigger = 0 then setPhase .finalLow else pure ()
  | .finalLow => do
    let value ← read io pdbLow
    failIf (value ≠ low) .Register
    setPhase .finalHigh
  | .finalHigh => do
    let value ← read io pdbHigh
    failIf (value ≠ high) .Register
    setPhase .done
  | .done | .failed => throw .State

def advance : TlbCall E Bool := do
  guard io
  tick io
  let op := (← get).operation
  let address ← lift (words op.rootDma)
  act io address.1 address.2 op.phase
  guard io
  tick io
  return (← get).operation.phase == .done

/-- Any error ends the operation. -/
def orFail {α : Type} (x : TlbCall E α) : TlbCall E α := fun w =>
  match x w with
  | .ok a w' => .ok a w'
  | .error e w' =>
    .error e { w' with operation := { w'.operation with failure := some e, phase := .failed } }

def step : TlbCall E Bool := do
  let op := (← get).operation
  failIf (op.phase = .failed ∨ op.phase = .done) .State
  update fun op => { op with pinned := true }
  orFail (advance io)

def receipt : TlbCall E (Option Receipt) := fun w =>
  let op := w.operation
  if op.pinned = false ∨ op.phase ≠ .done ∨ op.failure ≠ none ∨ op.effectsPossible = false then
    .ok none w
  else
    match guard io w with
    | .error _ w' => .ok none w'
    | .ok _ w' => .ok (some ⟨op.epoch, op.rootDma, op.serial⟩) w'

end Operation

/-! ## Progress -/

/-- One step that succeeds: what the bus sees, and the next phase. -/
inductive Moves (low high : Nat) : Phase → List Bus → Phase → Prop where
  | idle {v : Nat} (h : v &&& trigger = 0) : Moves low high .idle [.read invalidate v] .low
  | held {v : Nat} (h : v &&& trigger ≠ 0) : Moves low high .idle [.read invalidate v] .idle
  | low : Moves low high .low [.write pdbLow low] .high
  | high : Moves low high .high [.write pdbHigh high] .verifyLow
  | verifyLow : Moves low high .verifyLow [.read pdbLow low] .verifyHigh
  | verifyHigh : Moves low high .verifyHigh [.read pdbHigh high] .publish
  | publish : Moves low high .publish [.write invalidate command] .waiting
  | clear {v : Nat} (h : v &&& trigger = 0) : Moves low high .waiting [.read invalidate v] .finalLow
  | busy {v : Nat} (h : v &&& trigger ≠ 0) : Moves low high .waiting [.read invalidate v] .waiting
  | finalLow : Moves low high .finalLow [.read pdbLow low] .finalHigh
  | finalHigh : Moves low high .finalHigh [.read pdbHigh high] .done

/-- From the start, the bus saw `seen` and the phase is reached. -/
inductive Progress (low high : Nat) : Phase → List Bus → Prop where
  | start : Progress low high .idle []
  | move {p p' : Phase} {seen next : List Bus} :
      Progress low high p seen → Moves low high p next p' → Progress low high p' (seen ++ next)

/-- A poll of the command register that finds the trigger set. -/
def Polled (b : Bus) : Prop := ∃ v, b = .read invalidate v ∧ v &&& trigger ≠ 0

/-- A complete invalidation: the root registers written and read back, the command, and, after the
trigger was seen clear, the root registers read back again. -/
def Invalidated (low high : Nat) (seen : List Bus) : Prop :=
  ∃ before v wait v', (∀ b ∈ before, Polled b) ∧ (∀ b ∈ wait, Polled b) ∧ v &&& trigger = 0 ∧
    v' &&& trigger = 0 ∧ seen = before ++ [.read invalidate v, .write pdbLow low,
      .write pdbHigh high, .read pdbLow low, .read pdbHigh high, .write invalidate command] ++ wait ++
      [.read invalidate v', .read pdbLow low, .read pdbHigh high]

section

variable {low high : Nat} {seen : List Bus}

theorem Progress.idle_polled (h : Progress low high .idle seen) : ∀ b ∈ seen, Polled b := by
  generalize hp : Phase.idle = p at h
  induction h with
  | start => exact fun b hb => absurd hb (by simp)
  | move h hm ih =>
    subst hp
    cases hm with
    | held hv =>
      intro b hb
      rcases List.mem_append.mp hb with hb | hb
      · exact ih rfl b hb
      · exact ⟨_, List.mem_singleton.mp hb, hv⟩

theorem Progress.waiting_polled (h : Progress low high .waiting seen) :
    ∃ s wait, Progress low high .publish s ∧ (∀ b ∈ wait, Polled b) ∧
      seen = s ++ [.write invalidate command] ++ wait := by
  generalize hp : Phase.waiting = p at h
  induction h with
  | start => cases hp
  | @move _ _ s _ h hm ih =>
    subst hp
    cases hm with
    | publish => exact ⟨s, [], h, fun b hb => absurd hb (by simp), by simp⟩
    | @busy v hv =>
      obtain ⟨s, wait, hs, hw, rfl⟩ := ih rfl
      refine ⟨s, wait ++ [.read invalidate v], hs, fun b hb => ?_, by simp⟩
      rcases List.mem_append.mp hb with hb | hb
      · exact hw b hb
      · exact ⟨v, List.mem_singleton.mp hb, hv⟩

/-- By the end, the whole sequence was seen. Each phase but the two polling ones has one way in, so
the history is read off backwards. -/
theorem Progress.invalidated (h : Progress low high .done seen) : Invalidated low high seen := by
  obtain - | ⟨h, hm⟩ := h
  cases hm
  obtain - | ⟨h, hm⟩ := h
  cases hm
  obtain - | ⟨h, hm⟩ := h
  obtain - | - | - | - | - | - | - | ⟨hv'⟩ := hm
  obtain ⟨s, wait, hs, hw, rfl⟩ := h.waiting_polled
  clear h
  obtain - | ⟨h, hm⟩ := hs
  cases hm
  obtain - | ⟨h, hm⟩ := h
  cases hm
  obtain - | ⟨h, hm⟩ := h
  cases hm
  obtain - | ⟨h, hm⟩ := h
  cases hm
  obtain - | ⟨h, hm⟩ := h
  obtain ⟨hv⟩ | - := hm
  exact ⟨_, _, wait, _, h.idle_polled, hw, hv, hv', by simp⟩

end

/-! ## Steps -/

namespace Operation

open Call

variable {E : Type} {io : Io E} {w : TlbWorld E}

/-- The device state moves on inside `K`; the operation and the bus stay. -/
structure Waits (K : E → Prop) (w w' : TlbWorld E) : Prop where
  operation : w'.operation = w.operation
  bus : w'.bus = w.bus
  env : K w'.env

/-- What a phase that succeeds did. -/
structure Acts (K : E → Prop) (low high : Nat) (w w' : TlbWorld E) : Prop where
  moves : ∃ next, Moves low high w.operation.phase next w'.operation.phase ∧ w'.bus = w.bus ++ next
  rootDma : w'.operation.rootDma = w.operation.rootDma
  env : K w'.env

variable {K : E → Prop}

theorem guard_spec (hK : io.Keeps K) (h : K w.env) :
    Spec (guard io) w (fun _ w' => Waits K w w') (fun _ w' => Waits K w w') := by
  unfold guard
  refine .get_bind (.failIf_bind (fun _ => ⟨rfl, rfl, h⟩) fun _ => ?_)
  refine .bind (?_ : Spec (failIf _ _ >>= _) _ _ _)
  refine .failIf_bind (fun _ => ⟨rfl, rfl, hK.generation _ h⟩) fun _ => ?_
  refine .bind (?_ : Spec (failIf _ _) _ _ _)
  have henv := hK.nowNs _ (hK.generation _ h)
  refine .intro (fun _ w' hx => ?_) fun _ w' hx => ?_
  · rw [(failIf_ok_iff.1 hx).2]
    exact ⟨rfl, rfl, henv⟩
  · rw [(failIf_error_iff.1 hx).2.2]
    exact ⟨rfl, rfl, henv⟩

theorem tick_spec (hK : io.Keeps K) (h : K w.env) :
    Spec (tick io) w (fun _ w' => w'.operation.phase = w.operation.phase ∧
      w'.operation.rootDma = w.operation.rootDma ∧ w'.bus = w.bus ∧ K w'.env) (fun _ _ => True) :=
  ⟨rfl, rfl, rfl, hK.nowNs _ h⟩

theorem read_spec {address : Nat} (hK : io.Keeps K) (h : K w.env) :
    Spec (read io address) w (fun value w' => w'.operation = w.operation ∧
      w'.bus = w.bus ++ [.read address value] ∧ K w'.env) (fun _ _ => True) := by
  have henv := hK.read32 address w.env h
  unfold Spec read
  generalize io.read32 address w.env = answer at henv
  obtain ⟨answer, env⟩ := answer
  cases answer with
  | none => trivial
  | some value =>
    dsimp only
    by_cases hv : value = 0xffffffff
    · rw [if_pos hv]
      trivial
    · rw [if_neg hv]
      exact ⟨rfl, rfl, henv⟩

theorem write_spec {address value : Nat} (hK : io.Keeps K) (h : K w.env) :
    Spec (write io address value) w (fun _ w' =>
      w'.operation = { w.operation with effectsPossible := true } ∧
      w'.bus = w.bus ++ [.write address value] ∧ K w'.env) (fun _ _ => True) := by
  have henv := hK.write32 address value w.env h
  unfold Spec write
  generalize io.write32 address value w.env = answer at henv
  obtain ⟨answer, env⟩ := answer
  cases answer with
  | false => trivial
  | true => exact ⟨rfl, rfl, henv⟩

section

variable {low high : Nat}

/-- The phases that write a register. -/
theorem write_acts {address value : Nat} {p : Phase} (hK : io.Keeps K) (h : K w.env)
    (hm : Moves low high w.operation.phase [.write address value] p) :
    Spec (do write io address value; setPhase p) w (fun _ w' => Acts K low high w w')
      (fun _ _ => True) := by
  refine .seq (write_spec hK h) (fun _ w₁ h₁ => ?_) fun _ _ _ => trivial
  obtain ⟨hop, hbus, henv⟩ := h₁
  refine ⟨⟨_, hm, hbus⟩, ?_, henv⟩
  show w₁.operation.rootDma = _
  rw [hop]

/-- The phases that read a register back. -/
theorem verify_acts {address expected : Nat} {p : Phase} (hK : io.Keeps K) (h : K w.env)
    (hm : Moves low high w.operation.phase [.read address expected] p) :
    Spec (do
      let value ← read io address
      failIf (value ≠ expected) .Register
      setPhase p) w (fun _ w' => Acts K low high w w') (fun _ _ => True) := by
  refine .seq (read_spec hK h) (fun value w₁ h₁ => ?_) fun _ _ _ => trivial
  obtain ⟨hop, hbus, henv⟩ := h₁
  refine .failIf_bind (fun _ => trivial) fun hv => ?_
  obtain rfl : value = expected := Decidable.not_not.mp hv
  refine ⟨⟨_, hm, hbus⟩, ?_, henv⟩
  show w₁.operation.rootDma = _
  rw [hop]

/-- The phases that poll the trigger. -/
theorem poll_acts {p : Phase} (hK : io.Keeps K) (h : K w.env)
    (hclear : ∀ v, v &&& trigger = 0 → Moves low high w.operation.phase [.read invalidate v] p)
    (hset : ∀ v, v &&& trigger ≠ 0 →
      Moves low high w.operation.phase [.read invalidate v] w.operation.phase) :
    Spec (do
      let value ← read io invalidate
      if value &&& trigger = 0 then setPhase p else pure ()) w (fun _ w' => Acts K low high w w')
      (fun _ _ => True) := by
  refine .seq (read_spec hK h) (fun value w₁ h₁ => ?_) fun _ _ _ => trivial
  obtain ⟨hop, hbus, henv⟩ := h₁
  split
  · rename_i hv
    refine ⟨⟨_, hclear value hv, hbus⟩, ?_, henv⟩
    show w₁.operation.rootDma = _
    rw [hop]
  · rename_i hv
    refine .pure ⟨⟨_, ?_, hbus⟩, by rw [hop], henv⟩
    rw [hop]
    exact hset value hv

theorem act_spec {p : Phase} (hK : io.Keeps K) (hp : w.operation.phase = p) (h : K w.env) :
    Spec (act io low high p) w (fun _ w' => Acts K low high w w') (fun _ _ => True) := by
  cases p with
  | idle => exact poll_acts hK h (fun _ hv => hp ▸ .idle hv) fun _ hv => hp ▸ .held hv
  | low => exact write_acts hK h (hp ▸ .low)
  | high => exact write_acts hK h (hp ▸ .high)
  | verifyLow => exact verify_acts hK h (hp ▸ .verifyLow)
  | verifyHigh => exact verify_acts hK h (hp ▸ .verifyHigh)
  | publish => exact write_acts hK h (hp ▸ .publish)
  | waiting => exact poll_acts hK h (fun _ hv => hp ▸ .clear hv) fun _ hv => hp ▸ .busy hv
  | finalLow => exact verify_acts hK h (hp ▸ .finalLow)
  | finalHigh => exact verify_acts hK h (hp ▸ .finalHigh)
  | done => exact .throw trivial
  | failed => exact .throw trivial

end

/-- A step that succeeds moved one phase on, for the words of its root. -/
structure Stepped (K : E → Prop) (finished : Bool) (w w' : TlbWorld E) : Prop where
  moves : ∃ low high next, words w.operation.rootDma = .ok (low, high) ∧
    Moves low high w.operation.phase next w'.operation.phase ∧ w'.bus = w.bus ++ next
  rootDma : w'.operation.rootDma = w.operation.rootDma
  finished : finished = true → w'.operation.phase = .done
  env : K w'.env

theorem advance_spec (hK : io.Keeps K) (h : K w.env) :
    Spec (advance io) w (fun b w' => Stepped K b w w') (fun _ _ => True) := by
  unfold advance
  refine .seq (guard_spec hK h) (fun _ w₁ h₁ => ?_) fun _ _ _ => trivial
  refine .seq (tick_spec hK h₁.env) (fun _ w₂ h₂ => ?_) fun _ _ _ => trivial
  obtain ⟨hphase, hroot, hbus, henv⟩ := h₂
  refine .get_bind (.lift_bind (fun _ _ => trivial) fun address haddr => ?_)
  refine .seq (act_spec hK rfl henv) (fun _ w₃ h₃ => ?_) fun _ _ _ => trivial
  refine .seq (guard_spec hK h₃.env) (fun _ w₄ h₄ => ?_) fun _ _ _ => trivial
  refine .seq (tick_spec hK h₄.env) (fun _ w₅ h₅ => ?_) fun _ _ _ => trivial
  obtain ⟨hphase', hroot', hbus', henv'⟩ := h₅
  refine .get_bind (.pure ?_)
  obtain ⟨next, hm, hnext⟩ := h₃.moves
  rw [hphase, h₁.operation] at hm
  rw [hroot, h₁.operation] at haddr
  rw [hbus, h₁.bus] at hnext
  refine ⟨⟨address.1, address.2, next, haddr, ?_, ?_⟩, ?_, fun hb => by simpa using hb, henv'⟩
  · rw [hphase', h₄.operation]
    exact hm
  · rw [hbus', h₄.bus]
    exact hnext
  · rw [hroot', h₄.operation, h₃.rootDma, hroot, h₁.operation]

theorem orFail_spec {α : Type} {x : TlbCall E α} {Q : α → TlbWorld E → Prop}
    (h : Spec x w Q (fun _ _ => True)) : Spec (orFail x) w Q (fun _ _ => True) := by
  unfold Spec orFail at *
  cases hx : x w with
  | ok a w' =>
    rw [hx] at h
    exact h
  | error e w' => trivial

theorem step_spec (hK : io.Keeps K) (h : K w.env) :
    Spec (step io) w (fun b w' => Stepped K b w w') (fun _ _ => True) := by
  unfold step
  refine .get_bind (.failIf_bind (fun _ => trivial) fun _ => ?_)
  refine .bind (?_ : Spec (orFail (advance io)) _ _ _)
  refine orFail_spec (Spec.mono (advance_spec hK ?_) (fun b w' hs => ?_) fun _ _ _ => trivial)
  · exact h
  · exact ⟨hs.moves, hs.rootDma, hs.finished, hs.env⟩

/-- A receipt speaks of a finished operation, and of its root. -/
theorem receipt_spec (hK : io.Keeps K) (h : K w.env) :
    Spec (receipt io) w (fun r w' => Waits K w w' ∧ ∀ x, r = some x →
      w.operation.phase = .done ∧ x.rootDma = w.operation.rootDma) (fun _ _ => False) := by
  unfold Spec receipt
  dsimp only
  by_cases hc : w.operation.pinned = false ∨ w.operation.phase ≠ .done ∨
      w.operation.failure ≠ none ∨ w.operation.effectsPossible = false
  · rw [if_pos hc]
    exact ⟨⟨rfl, rfl, h⟩, fun _ hx => absurd hx (by simp)⟩
  · rw [if_neg hc]
    have hdone : w.operation.phase = .done := by
      by_contra hn
      exact hc (.inr (.inl hn))
    cases hg : guard io w with
    | ok u w₁ =>
      refine ⟨(guard_spec hK h).ok hg, fun x hx => ?_⟩
      cases hx
      exact ⟨hdone, rfl⟩
    | error e w₁ => exact ⟨(guard_spec hK h).error hg, fun _ hx => absurd hx (by simp)⟩

end Operation

end Vm
end NvidiaGsp
