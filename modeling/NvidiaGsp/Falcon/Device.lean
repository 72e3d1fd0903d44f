import NvidiaGsp.Lib.Bytes
import NvidiaGsp.Lib.Triples

/-!
# Falcon.Device

One Falcon behind its registers: the DMA engine that fills its two memories block by block, and the
guarded accesses every operation on it makes.

A command write queues one block. The engine works its queue off in order, any number of blocks
before any access, and its status bits tell whether the queue is full and whether it is empty. All
else that a read may bring, and whether an access fails, is up to `Port`.
-/

namespace NvidiaGsp
namespace Falcon

open Call

inductive Error where
  | Options | Profile | Capacity | Address | Layout | State | Stale | Clock | Deadline
  | RegisterUnavailable | EngineState | Unstable | Logs | Admission | Access
  | Mailbox | BooterError | WprStillUp
  | FrtsError | WprMissing | WprTarget | SbProtection | SbProgress | SbError
  | Unsupported | Bounds | Alignment
  deriving DecidableEq, Repr

inductive Engine where
  | gsp | sec2
  deriving DecidableEq, Repr

def Engine.base : Engine → Nat
  | .gsp => 0x110000
  | .sec2 => 0x840000

/-! ## Registers -/

namespace reg

def engine : Nat := 0x3c0
def fbifControl : Nat := 0x624
def transcfg : Nat := 0x600
def dmaControl : Nat := 0x10c
def dmaBase : Nat := 0x110
def dmaBaseHigh : Nat := 0x128
def dmaDestination : Nat := 0x114
def dmaSourceOffset : Nat := 0x11c
def dmaCommand : Nat := 0x118
def signature : Nat := 0x1210
def engineMask : Nat := 0x119c
def ucode : Nat := 0x1198
def algorithm : Nat := 0x1180
def bootVector : Nat := 0x104
def cpuControl : Nat := 0x100
def cpuAlias : Nat := 0x130
def mailbox0 : Nat := 0x40
def mailbox1 : Nat := 0x44

end reg

namespace bits

def full : Word := 1
def idle : Word := 2
def imem : Word := 0x10
def cpuStart : Word := 2
def cpuAlias : Word := 0x40
def cpuHalted : Word := 0x10
def reset : Word := 1

end bits

/-! ## The DMA engine -/

def blockBytes : Nat := 256

/-- One queued block: where it comes from, and where in which memory it goes. -/
structure Job where
  instruction : Bool
  source : Nat
  destination : Nat

/-- The instruction and the data memory. -/
structure Tcms where
  imem : Nat → Byte
  dmem : Nat → Byte

/-- A memory behind one block copied into it. -/
def copyBlock (memory tcm : Nat → Byte) (source destination : Nat) : Nat → Byte := fun i =>
  if destination ≤ i ∧ i < destination + blockBytes then memory (source + (i - destination))
  else tcm i

def Tcms.copy (memory : Nat → Byte) (t : Tcms) (job : Job) : Tcms :=
  if job.instruction then { t with imem := copyBlock memory t.imem job.source job.destination }
  else { t with dmem := copyBlock memory t.dmem job.source job.destination }

structure Hardware where
  low : Word := 0
  high : Word := 0
  destination : Word := 0
  source : Word := 0
  tcms : Tcms
  queue : List Job := []
  /-- What was last written to each register. -/
  registers : Nat → Option Word := fun _ => none
  /-- The engine's reset has been asserted, and released since. -/
  asserted : Bool := false
  released : Bool := false

/-- The device address of the next block. -/
def Hardware.address (h : Hardware) : Nat :=
  (h.high.toNat * 2 ^ 32 + h.low.toNat) * blockBytes + h.source.toNat

/-- The engine works off up to `k` blocks. -/
def Hardware.drain (memory : Nat → Byte) (h : Hardware) (k : Nat) : Hardware :=
  { h with tcms := (h.queue.take k).foldl (Tcms.copy memory) h.tcms, queue := h.queue.drop k }

/-- What both memories hold once the queue is worked off. -/
def Hardware.settled (memory : Nat → Byte) (h : Hardware) : Tcms :=
  h.queue.foldl (Tcms.copy memory) h.tcms

def Hardware.command (h : Hardware) (value : Word) : Hardware :=
  { h with queue := h.queue ++
      [{ instruction := value &&& bits.imem ≠ 0, source := h.address,
         destination := h.destination.toNat }] }

def Hardware.resetting (h : Hardware) (value : Word) : Hardware :=
  if value &&& bits.reset ≠ 0 then { h with asserted := true, released := false }
  else { h with released := h.asserted }

/-- The effect of a write to the register at an offset of the engine. -/
def Hardware.effect (h : Hardware) (offset : Nat) (value : Word) : Hardware :=
  if offset = reg.dmaBase then { h with low := value }
  else if offset = reg.dmaBaseHigh then { h with high := value }
  else if offset = reg.dmaDestination then { h with destination := value }
  else if offset = reg.dmaSourceOffset then { h with source := value }
  else if offset = reg.dmaCommand then h.command value
  else if offset = reg.engine then h.resetting value
  else h

def Hardware.write (h : Hardware) (offset : Nat) (value : Word) : Hardware :=
  { h.effect offset value with registers := Function.update h.registers offset (some value) }

/-- The status bits of the DMA engine are its own. -/
def Hardware.status (h : Hardware) (depth : Nat) (value : Word) : Word :=
  let fullness := if depth ≤ h.queue.length then value ||| bits.full else value &&& ~~~ bits.full
  if h.queue = [] then fullness ||| bits.idle else fullness &&& ~~~ bits.idle

/-! ## Accesses -/

/-- What the surroundings do at each access. -/
structure Port where
  /-- The device memory: retained, so that no write changes it. -/
  memory : Nat → Byte
  depth : Nat
  generation : Nat → Nat
  now : Nat → Nat
  /-- The word a read finds, if it does not fail. -/
  value : Nat → Option Word
  /-- A write is acknowledged, or fails; one that fails may have landed. -/
  acknowledged : Nat → Bool
  lands : Nat → Bool
  /-- The blocks the DMA engine finishes before an access. -/
  finished : Nat → Nat
  /-- A callback succeeds; the one that stops and resumes the log reader may be missing. -/
  granted : Nat → Bool
  logPolling : Bool := true

/-- One engine, and what has happened to it. -/
structure Device where
  engine : Engine
  hardware : Hardware
  /-- The engine at each start of its CPU. -/
  starts : List Hardware := []
  /-- The CPU was seen halted behind a start. -/
  halted : Bool := false
  tick : Nat := 0

/-- One holder's view of the device, with the limits of its accesses. -/
structure Session where
  epoch : Nat
  deadline : Nat
  lastClock : Nat
  device : Device

def maxU64 : Nat := 2 ^ 64 - 1

namespace Device

def starting (offset : Nat) : Prop := offset = reg.cpuControl ∨ offset = reg.cpuAlias

instance {offset : Nat} : Decidable (starting offset) := by
  unfold starting
  infer_instance

/-- The device behind the blocks finished before an access. -/
def arrive (port : Port) (d : Device) : Device :=
  { d with hardware := d.hardware.drain port.memory (port.finished d.tick), tick := d.tick + 1 }

def read32 (port : Port) (d : Device) (engine : Engine) (offset : Nat) : Option Word × Device :=
  match port.value d.tick with
  | none => (none, d.arrive port)
  | some value =>
    if engine ≠ d.engine then (some value, d.arrive port)
    else if offset = reg.dmaCommand then
      (some ((d.arrive port).hardware.status port.depth value), d.arrive port)
    else if offset = reg.cpuControl ∧ value &&& bits.cpuHalted ≠ 0 ∧ d.starts ≠ [] then
      (some value, { d.arrive port with halted := true })
    else (some value, d.arrive port)

/-- A write that lands. -/
def land (d : Device) (engine : Engine) (offset : Nat) (value : Word) : Device :=
  if engine ≠ d.engine then d
  else { d with
    hardware := d.hardware.write offset value
    starts := if starting offset then d.starts ++ [d.hardware] else d.starts }

def write32 (port : Port) (d : Device) (engine : Engine) (offset : Nat) (value : Word) :
    Bool × Device :=
  (port.acknowledged d.tick,
    if port.acknowledged d.tick ∨ port.lands d.tick then (d.arrive port).land engine offset value
    else d.arrive port)

end Device

section

variable (port : Port)

/-- A word that reads as a lost register. -/
def unavailable (value : Word) : Bool :=
  value == 0xffffffff || value &&& 0xffff0000 == 0xbadf0000 || value &&& 0xffff0000 == 0xffff0000

abbrev Access (α : Type) := Call Error Session α

/-- The holder is current and in time. -/
def check : Access Unit := do
  let s ← get
  set { s with device := { s.device with tick := s.device.tick + 1 } }
  failIf (port.generation s.device.tick ≠ s.epoch) .Stale
  failIf (port.now s.device.tick = maxU64 ∨ port.now s.device.tick < s.lastClock) .Clock
  modify fun t => { t with lastClock := port.now s.device.tick }
  failIf (s.deadline ≤ port.now s.device.tick) .Deadline

/-- A guarded read; `control` refuses a word that reads as a lost register. -/
def readAt (engine : Engine) (offset : Nat) (control : Bool) : Access Word := do
  check port
  let s ← get
  set { s with device := (s.device.read32 port engine offset).2 }
  let value ← need (s.device.read32 port engine offset).1 .Access
  check port
  failIf (control ∧ unavailable value) .RegisterUnavailable
  return value

/-- A write behind its first check. -/
def put (engine : Engine) (offset : Nat) (value : Word) : Access Unit := do
  let s ← get
  set { s with device := (s.device.write32 port engine offset value).2 }
  failIf ((s.device.write32 port engine offset value).1 = false) .Access
  check port

def writeAt (engine : Engine) (offset : Nat) (value : Word) : Access Unit := do
  check port
  put port engine offset value

/-- A callback that does not touch the engine. -/
def callback (error : Error) : Access Unit := do
  let s ← get
  set { s with device := { s.device with tick := s.device.tick + 1 } }
  failIf (port.granted s.device.tick = false) error

end

/-- A call whose error is kept in the state. -/
def recording {σ α : Type} (x : Call Error σ α) (mark : Error → σ → σ) : Call Error σ α := fun s =>
  match x s with
  | .ok a s' => .ok a s'
  | .error e s' => .error e (mark e s')

/-! ## The queue -/

variable {memory : Nat → Byte} {port : Port} {engine : Engine} {offset : Nat} {value : Word}
  {h : Hardware} {d d' : Device} {s s' : Session}

@[simp] theorem drain_settled (k : Nat) : (h.drain memory k).settled memory = h.settled memory := by
  unfold Hardware.drain Hardware.settled
  rw [← List.foldl_append, List.take_append_drop]

theorem settled_idle (hq : h.queue = []) : h.settled memory = h.tcms := by
  unfold Hardware.settled
  rw [hq]
  rfl

theorem status_idle {depth : Nat} (hs : h.status depth value &&& bits.idle ≠ 0) : h.queue = [] := by
  by_contra hq
  refine hs ?_
  unfold Hardware.status
  dsimp only
  rw [if_neg hq, BitVec.and_assoc, show ~~~ bits.idle &&& bits.idle = 0#32 by decide, BitVec.and_zero]
  rfl

/-- An access that writes nothing. -/
structure Quiet (port : Port) (d d' : Device) : Prop where
  engine : d'.engine = d.engine
  hardware : ∃ k, d'.hardware = d.hardware.drain port.memory k
  starts : d'.starts = d.starts
  halted : d.halted = true → d'.halted = true
  fresh : d.starts = [] → d'.halted = d.halted

theorem drain_drain (k k' : Nat) :
    (h.drain memory k).drain memory k' = h.drain memory (k + k') := by
  unfold Hardware.drain
  simp only [List.drop_drop]
  rw [List.take_add, List.foldl_append]

theorem Quiet.refl (d : Device) : Quiet port d d := ⟨rfl, ⟨0, rfl⟩, rfl, id, fun _ => rfl⟩

theorem Quiet.trans {d₁ d₂ d₃ : Device} (h : Quiet port d₁ d₂) (h' : Quiet port d₂ d₃) :
    Quiet port d₁ d₃ := by
  obtain ⟨k, hk⟩ := h.hardware
  obtain ⟨k', hk'⟩ := h'.hardware
  exact ⟨h'.engine.trans h.engine, ⟨k + k', by rw [hk', hk, drain_drain]⟩, h'.starts.trans h.starts,
    fun hh => h'.halted (h.halted hh), fun hs => (h'.fresh (h.starts.trans hs)).trans (h.fresh hs)⟩

theorem Quiet.tick (d : Device) (n : Nat) : Quiet port d { d with tick := n } :=
  ⟨rfl, ⟨0, rfl⟩, rfl, id, fun _ => rfl⟩

theorem quiet_arrive : Quiet port d (d.arrive port) := ⟨rfl, ⟨_, rfl⟩, rfl, id, fun _ => rfl⟩

theorem quiet_read : Quiet port d (d.read32 port engine offset).2 := by
  unfold Device.read32
  split
  · exact quiet_arrive
  · split
    · exact quiet_arrive
    · split
      · exact quiet_arrive
      · split
        · rename_i hc
          exact ⟨rfl, ⟨_, rfl⟩, rfl, fun _ => rfl, fun hs => absurd hs hc.2.2⟩
        · exact quiet_arrive

/-! ## Rules of the guarded accesses -/

/-- What a quiet access keeps of its session. -/
structure Calm (port : Port) (s s' : Session) : Prop where
  epoch : s'.epoch = s.epoch
  deadline : s'.deadline = s.deadline
  quiet : Quiet port s.device s'.device

theorem Calm.trans {s₁ s₂ s₃ : Session} (h : Calm port s₁ s₂) (h' : Calm port s₂ s₃) :
    Calm port s₁ s₃ :=
  ⟨h'.epoch.trans h.epoch, h'.deadline.trans h.deadline, h.quiet.trans h'.quiet⟩

theorem check_spec : Spec (check port) s (fun _ s' => Calm port s s') fun _ s' => Calm port s s' := by
  refine .get_bind ?_
  have ht (n m : Nat) : Calm port s { s with lastClock := m, device := { s.device with tick := n } } :=
    ⟨rfl, rfl, .tick _ n⟩
  refine .set_bind ?_
  refine .failIf_bind (fun _ => ht _ _) fun _ => ?_
  refine .failIf_bind (fun _ => ht _ _) fun _ => ?_
  refine .modify_bind ?_
  exact .ends (fun _ => ht _ _) fun _ => ht _ _

theorem callback_spec {error : Error} :
    Spec (callback port error) s (fun _ s' => Calm port s s') fun _ s' => Calm port s s' := by
  refine .get_bind ?_
  have ht (n : Nat) : Calm port s { s with device := { s.device with tick := n } } :=
    ⟨rfl, rfl, .tick _ n⟩
  refine .set_bind ?_
  exact .ends (fun _ => ht _) fun _ => ht _

/-- What a word read from a register says of the engine behind the read. -/
structure Seen (d : Device) (engine : Engine) (offset : Nat) (value : Word) : Prop where
  idle : engine = d.engine → offset = reg.dmaCommand → value &&& bits.idle ≠ 0 →
    d.hardware.queue = []
  halted : engine = d.engine → offset = reg.cpuControl → value &&& bits.cpuHalted ≠ 0 →
    d.starts ≠ [] → d.halted = true

theorem read_seen (h : (d.read32 port engine offset).1 = some value) :
    Seen (d.read32 port engine offset).2 engine offset value := by
  unfold Device.read32 at h ⊢
  cases hv : port.value d.tick with
  | none =>
    rw [hv] at h
    cases h
  | some v =>
    rw [hv] at h
    dsimp only at h ⊢
    by_cases hne : engine ≠ d.engine
    · rw [if_pos hne]
      exact ⟨fun he => absurd he hne, fun he => absurd he hne⟩
    · rw [if_neg hne] at h ⊢
      by_cases hc : offset = reg.dmaCommand
      · rw [if_pos hc] at h ⊢
        obtain rfl := Option.some.inj h
        exact ⟨fun _ _ => status_idle, fun _ hr => by rw [hc] at hr; cases hr⟩
      · rw [if_neg hc] at h ⊢
        by_cases hh : offset = reg.cpuControl ∧ v &&& bits.cpuHalted ≠ 0 ∧ d.starts ≠ []
        · rw [if_pos hh]
          exact ⟨fun _ hr => absurd hr hc, fun _ _ _ _ => rfl⟩
        · rw [if_neg hh] at h ⊢
          obtain rfl := Option.some.inj h
          exact ⟨fun _ hr => absurd hr hc, fun _ hr hb hs => absurd ⟨hr, hb, hs⟩ hh⟩

theorem Seen.quiet {d d' : Device} (h : Seen d engine offset value) (hq : Quiet port d d') :
    Seen d' engine offset value where
  idle := fun he ho hv => by
    obtain ⟨k, hk⟩ := hq.hardware
    rw [hk]
    show (d.hardware.queue.drop k) = []
    rw [h.idle (he.trans hq.engine) ho hv, List.drop_nil]
  halted := fun he ho hv hs =>
    hq.halted (h.halted (he.trans hq.engine) ho hv (hq.starts ▸ hs))

theorem readAt_spec {control : Bool} :
    Spec (readAt port engine offset control) s
      (fun value s' => Calm port s s' ∧ Seen s'.device engine offset value)
      fun _ s' => Calm port s s' := by
  refine .seq check_spec (fun _ s₁ h₁ => ?_) fun _ _ h => h
  refine .get_bind ?_
  have hr : Calm port s { s₁ with device := (s₁.device.read32 port engine offset).2 } :=
    h₁.trans ⟨rfl, rfl, quiet_read⟩
  refine .set_bind ?_
  refine .need_bind (fun _ => hr) fun value hv => ?_
  refine .seq check_spec (fun _ s₂ h₂ => ?_) fun _ _ h => hr.trans h
  refine .failIf_bind (fun _ => hr.trans h₂) fun _ => ?_
  exact ⟨hr.trans h₂, (read_seen hv).quiet h₂.quiet⟩

/-- A session whose write landed on the engine, between quiet accesses. -/
def Landed (port : Port) (d d' : Device) (offset : Nat) (value : Word) : Prop :=
  ∃ d₁ d₂, Quiet port d d₁ ∧ d₂ = d₁.land d₁.engine offset value ∧ Quiet port d₂ d'

theorem put_spec (he : engine = s.device.engine) :
    Spec (put port engine offset value) s
      (fun _ s' => s'.epoch = s.epoch ∧ s'.deadline = s.deadline ∧
        Landed port s.device s'.device offset value)
      fun _ s' => Quiet port s.device s'.device ∨ Landed port s.device s'.device offset value := by
  refine .get_bind ?_
  refine .set_bind ?_
  have hq : Quiet port s.device (s.device.arrive port) := quiet_arrive
  have hland : Landed port s.device ((s.device.arrive port).land engine offset value) offset value :=
    ⟨_, _, hq, by rw [he, ← hq.engine], .refl _⟩
  refine .failIf_bind (fun _ => ?_) fun hack => ?_
  · dsimp only [Device.write32]
    split
    · exact .inr hland
    · exact .inl hq
  · have hwrite : (s.device.write32 port engine offset value).2 =
        (s.device.arrive port).land engine offset value := by
      unfold Device.write32
      rw [if_pos (.inl (by simpa [Device.write32] using hack))]
    rw [hwrite]
    obtain ⟨d₁, d₂, hd₁, hd₂, hd₃⟩ := hland
    refine check_spec.mono (fun _ s₂ h₂ => ⟨h₂.epoch, h₂.deadline, d₁, d₂, hd₁, hd₂,
      hd₃.trans h₂.quiet⟩) fun _ s₂ h₂ => ?_
    exact .inr ⟨d₁, d₂, hd₁, hd₂, hd₃.trans h₂.quiet⟩

theorem Landed.after {d d₁ d₂ : Device} (h : Quiet port d d₁) (hl : Landed port d₁ d₂ offset value) :
    Landed port d d₂ offset value := by
  obtain ⟨e₁, e₂, he₁, he₂, he₃⟩ := hl
  exact ⟨e₁, e₂, h.trans he₁, he₂, he₃⟩

theorem writeAt_spec (he : engine = s.device.engine) :
    Spec (writeAt port engine offset value) s
      (fun _ s' => s'.epoch = s.epoch ∧ s'.deadline = s.deadline ∧
        Landed port s.device s'.device offset value)
      fun _ s' => Quiet port s.device s'.device ∨ Landed port s.device s'.device offset value := by
  refine .seq check_spec (fun _ s₁ h₁ => ?_) fun _ _ h => .inl h.quiet
  refine (put_spec (he.trans h₁.quiet.engine.symm)).mono (fun _ s₂ h₂ => ?_) fun _ s₂ h₂ => ?_
  · exact ⟨h₂.1.trans h₁.epoch, h₂.2.1.trans h₁.deadline, h₂.2.2.after h₁.quiet⟩
  · exact h₂.imp h₁.quiet.trans (Landed.after h₁.quiet)

/-- The rule of a call whose error is kept. -/
theorem recording_spec {σ α : Type} {x : Call Error σ α} {mark : Error → σ → σ} {t : σ}
    {Q : α → σ → Prop} {E : Error → σ → Prop} (h : Spec x t Q fun e t' => E e (mark e t')) :
    Spec (Falcon.recording x mark) t Q E := by
  unfold Spec Falcon.recording at *
  cases hx : x t with
  | ok a t' =>
    rw [hx] at h
    exact h
  | error e t' =>
    rw [hx] at h
    exact h

end Falcon
end NvidiaGsp
