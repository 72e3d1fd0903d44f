import NvidiaGsp.Falcon.Hs

/-!
# Falcon.Upload

What holds of an upload between any two accesses, and how one register write carries it to the next
phase: the blocks copied so far tile the front of each memory.
-/

namespace NvidiaGsp
namespace Falcon
namespace Hs

open Call

variable {memory : Nat → Byte} {port : Port} {h h' : Hardware} {d d' : Device} {o : Operation}
  {offset n source : Nat} {value : Word} {t : Nat → Byte} {τ : Type}

/-! ## Blocks -/

/-- The front of a memory holds what lies at a device address. -/
def Loaded (memory : Nat → Byte) (tcm : Nat → Byte) (source n : Nat) : Prop :=
  ∀ i, i < n → tcm i = memory (source + i)

/-- One more block behind the front. -/
theorem Loaded.copyBlock (hl : Loaded memory t source n) :
    Loaded memory (copyBlock memory t (source + n) n) source (n + 256) := by
  intro i hi
  unfold Falcon.copyBlock blockBytes
  by_cases hn : n ≤ i
  · rw [if_pos ⟨hn, hi⟩]
    congr 1
    omega
  · rw [if_neg fun hc => hn hc.1]
    exact hl i (by omega)

/-- The memory a part fills. -/
def tcmOf (t : Tcms) : Part → Nat → Byte
  | .imem => t.imem
  | .dmem => t.dmem

theorem settled_command :
    (h.command value).settled memory = (h.settled memory).copy memory
      { instruction := value &&& bits.imem ≠ 0, source := h.address,
        destination := h.destination.toNat } := by
  unfold Hardware.settled Hardware.command
  rw [List.foldl_append]
  rfl

/-- The two base registers name the base. -/
theorem base_address {base : Nat} (ha : base % 256 = 0) (hb : base < 2 ^ 49) :
    ((BitVec.ofNat 32 (base >>> 40 &&& 0x1ff)).toNat * 2 ^ 32 +
      (BitVec.ofNat 32 (base >>> 8)).toNat) * 256 = base := by
  have hand : base >>> 40 &&& 0x1ff = base / 2 ^ 40 % 512 := by
    rw [Nat.shiftRight_eq_div_pow]
    exact Nat.and_two_pow_sub_one_eq_mod _ 9
  rw [hand, Nat.shiftRight_eq_div_pow, BitVec.toNat_ofNat, BitVec.toNat_ofNat]
  omega

/-! ## The invariant -/

def Phase.rank : Phase → Nat
  | .admission => 0
  | .fbifControl => 1
  | .dmaControl => 2
  | .transcfg => 3
  | .baseWait => 4
  | .baseLow => 5
  | .baseHigh => 6
  | .blockWait => 7
  | .destination => 8
  | .sourceOffset => 9
  | .command => 10
  | .idle => 11
  | .signature => 12
  | .engineMask => 13
  | .ucode => 14
  | .algorithm => 15
  | .bootVector => 16
  | .mailbox0 => 17
  | .mailbox1 => 18
  | .start => 19
  | .halt => 20
  | .result0 => 21
  | .result1 => 22
  | .complete => 23

/-- What must have been written before the start: by which phase, to which register, which word. -/
inductive Parameter (options : Options) : Phase → Nat → Word → Prop where
  | signature : Parameter options .signature reg.signature
      (BitVec.ofNat 32 options.plan.signatureAddress)
  | engineMask : Parameter options .engineMask reg.engineMask
      (BitVec.ofNat 32 options.plan.engineMask)
  | ucode : Parameter options .ucode reg.ucode (BitVec.ofNat 32 options.plan.ucodeId)
  | algorithm : Parameter options .algorithm reg.algorithm rsa3k
  | bootVector : Parameter options .bootVector reg.bootVector
      (BitVec.ofNat 32 options.plan.bootVector)
  | mailbox0 {value : Word} (h : options.mailboxes.1 = some value) :
    Parameter options .mailbox0 reg.mailbox0 value
  | mailbox1 {value : Word} (h : options.mailboxes.2 = some value) :
    Parameter options .mailbox1 reg.mailbox1 value

/-- The engine may start: both memories are filled, nothing is queued, all parameters are written,
and the reset has been asserted and released. -/
structure Ready (memory : Nat → Byte) (options : Options) (h : Hardware) : Prop where
  imem : Loaded memory h.tcms.imem
    (options.plan.imem.base + options.plan.imem.sourceOffset) options.plan.imem.bytes
  dmem : Loaded memory h.tcms.dmem
    (options.plan.dmem.base + options.plan.dmem.sourceOffset) options.plan.dmem.bytes
  idle : h.queue = []
  written : ∀ phase offset value, Parameter options phase offset value →
    h.registers offset = some value
  released : h.released = true

structure Inv (memory : Nat → Byte) (o : Operation) (d : Device) : Prop where
  engine : d.engine = o.options.engine
  valid : o.options.plan.Valid
  released : d.hardware.released = true
  grid : o.transferred % 256 = 0
  within : o.transferred ≤ o.transfer.bytes
  more : 4 ≤ o.phase.rank → o.phase.rank ≤ 10 → o.transferred < o.transfer.bytes
  first : o.phase.rank ≤ 3 → o.part = .imem ∧ o.transferred = 0
  filled : 11 ≤ o.phase.rank → o.transferred = o.transfer.bytes
  last : 12 ≤ o.phase.rank → o.part = .dmem
  blocks : o.result.blocks * 256 =
    o.transferred + if o.part = .dmem then o.options.plan.imem.bytes else 0
  low : 6 ≤ o.phase.rank → o.phase.rank ≤ 10 →
    d.hardware.low = BitVec.ofNat 32 (o.transfer.base >>> 8)
  high : 7 ≤ o.phase.rank → o.phase.rank ≤ 10 →
    d.hardware.high = BitVec.ofNat 32 (o.transfer.base >>> 40 &&& 0x1ff)
  destination : 9 ≤ o.phase.rank → o.phase.rank ≤ 10 →
    d.hardware.destination = BitVec.ofNat 32 (o.transfer.destination + o.transferred)
  source : o.phase.rank = 10 →
    d.hardware.source = BitVec.ofNat 32 (o.transfer.sourceOffset + o.transferred)
  code : o.part = .dmem → Loaded memory (d.hardware.settled memory).imem
    (o.options.plan.imem.base + o.options.plan.imem.sourceOffset) o.options.plan.imem.bytes
  own : Loaded memory (tcmOf (d.hardware.settled memory) o.part)
    (o.transfer.base + o.transfer.sourceOffset) o.transferred
  idle : 12 ≤ o.phase.rank → d.hardware.queue = []
  written : ∀ phase offset value, Parameter o.options phase offset value →
    phase.rank < o.phase.rank → d.hardware.registers offset = some value
  unstarted : o.phase.rank ≤ 19 → d.starts = []
  started : 20 ≤ o.phase.rank → ∃ h, d.starts = [h] ∧ Ready memory o.options h
  halted : 21 ≤ o.phase.rank → d.halted = true

theorem Inv.quiet (hi : Inv port.memory o d) (hq : Quiet port d d') : Inv port.memory o d' := by
  obtain ⟨k, hk⟩ := hq.hardware
  have hs : d'.hardware.settled port.memory = d.hardware.settled port.memory := by
    rw [hk, drain_settled]
  have hreg : d'.hardware.registers = d.hardware.registers := by rw [hk]; rfl
  exact {
    engine := hq.engine.trans hi.engine
    valid := hi.valid
    released := by rw [hk]; exact hi.released
    grid := hi.grid
    within := hi.within
    more := hi.more
    first := hi.first
    filled := hi.filled
    last := hi.last
    blocks := hi.blocks
    low := by rw [hk]; exact hi.low
    high := by rw [hk]; exact hi.high
    destination := by rw [hk]; exact hi.destination
    source := by rw [hk]; exact hi.source
    code := by rw [hs]; exact hi.code
    own := by rw [hs]; exact hi.own
    idle := fun hr => by
      rw [hk]
      show d.hardware.queue.drop k = []
      rw [hi.idle hr, List.drop_nil]
    written := by rw [hreg]; exact hi.written
    unstarted := by rw [hq.starts]; exact hi.unstarted
    started := by rw [hq.starts]; exact hi.started
    halted := fun hr => hq.halted (hi.halted hr) }

/-- The clock is not among what the invariant reads. -/
theorem Inv.clock (hi : Inv memory o d) (now : Nat) : Inv memory { o with lastClock := now } d :=
  { hi with }

/-! ## One write -/

/-- A write that reaches nothing but its register. -/
def Plain (offset : Nat) : Prop :=
  offset ≠ reg.dmaBase ∧ offset ≠ reg.dmaBaseHigh ∧ offset ≠ reg.dmaDestination ∧
    offset ≠ reg.dmaSourceOffset ∧ offset ≠ reg.dmaCommand ∧ offset ≠ reg.engine

instance {offset : Nat} : Decidable (Plain offset) := by
  unfold Plain
  infer_instance

theorem effect_plain (hp : Plain offset) : h.effect offset value = h := by
  obtain ⟨h₁, h₂, h₃, h₄, h₅, h₆⟩ := hp
  unfold Hardware.effect
  rw [if_neg h₁, if_neg h₂, if_neg h₃, if_neg h₄, if_neg h₅, if_neg h₆]

/-- The parameters written so far, behind one more write. -/
theorem written_write {options : Options} {rank : Nat}
    (hw : ∀ phase offset value, Parameter options phase offset value → phase.rank < rank →
      h.registers offset = some value)
    (hnew : ∀ phase offset' value', Parameter options phase offset' value' → phase.rank ≤ rank →
      offset' = offset → value' = value)
    (hsame : ∀ phase offset' value', Parameter options phase offset' value' → phase.rank = rank →
      offset' = offset) :
    ∀ phase offset' value', Parameter options phase offset' value' → phase.rank < rank + 1 →
      (h.write offset value).registers offset' = some value' := by
  intro phase offset' value' hp hr
  show Function.update h.registers offset (some value) offset' = some value'
  by_cases ho : offset' = offset
  · rw [ho, Function.update_self, hnew phase offset' value' hp (by omega) ho]
  · rw [Function.update_of_ne ho]
    refine hw phase offset' value' hp ?_
    have hne : phase.rank ≠ rank := fun he => ho (hsame phase offset' value' hp he)
    omega

theorem parameter_rank {options : Options} {phase : Phase}
    (hp : Parameter options phase offset value) : 12 ≤ phase.rank := by
  cases hp <;> decide

theorem parameter_before {options : Options} {phase : Phase}
    (hp : Parameter options phase offset value) : phase.rank ≤ 18 := by
  cases hp <;> decide

theorem land_self (hn : ¬ Device.starting offset) :
    d.land d.engine offset value = { d with hardware := d.hardware.write offset value } := by
  unfold Device.land
  rw [if_neg (not_not_intro rfl), if_neg hn]

/-- The phases before the first transfer write registers that no transfer reads. -/
theorem Inv.early {next : Phase} (hi : Inv memory o d) (hp : Plain offset)
    (hn : ¬ Device.starting offset) (hrank : o.phase.rank ≤ 3) (hr : next.rank = o.phase.rank + 1) :
    Inv memory { o with phase := next } (d.land d.engine offset value) := by
  rw [land_self hn]
  obtain ⟨hpart, hzero⟩ := hi.first hrank
  have hbytes : 0 < o.transfer.bytes := by
    unfold Operation.transfer
    rw [hpart]
    exact hi.valid.imem.some
  have he : d.hardware.write offset value = { d.hardware with
      registers := Function.update d.hardware.registers offset (some value) } := by
    unfold Hardware.write
    rw [effect_plain hp]
  rw [he]
  exact {
    engine := hi.engine
    valid := hi.valid
    released := hi.released
    grid := hi.grid
    within := hi.within
    more := fun _ _ => by
      show o.transferred < o.transfer.bytes
      omega
    first := fun _ => ⟨hpart, hzero⟩
    filled := fun h => by
      have h : 11 ≤ next.rank := h
      omega
    last := fun h => by
      have h : 12 ≤ next.rank := h
      omega
    blocks := hi.blocks
    low := fun h => by
      have h : 6 ≤ next.rank := h
      omega
    high := fun h => by
      have h : 7 ≤ next.rank := h
      omega
    destination := fun h => by
      have h : 9 ≤ next.rank := h
      omega
    source := fun h => by
      have h : next.rank = 10 := h
      omega
    code := hi.code
    own := hi.own
    idle := fun h => by
      have h : 12 ≤ next.rank := h
      omega
    written := fun phase _ _ hpar h => by
      have h : phase.rank < next.rank := h
      have := parameter_rank hpar
      omega
    unstarted := fun _ => hi.unstarted (by omega)
    started := fun h => by
      have h : 20 ≤ next.rank := h
      omega
    halted := fun h => by
      have h : 21 ≤ next.rank := h
      omega }

/-- The phases behind the transfers write the parameters, one each. -/
theorem Inv.parameter {next : Phase} (hi : Inv memory o d) (hp : Plain offset)
    (hn : ¬ Device.starting offset) (hlow : 12 ≤ o.phase.rank) (hhigh : o.phase.rank ≤ 18)
    (hr : next.rank = o.phase.rank + 1)
    (hnew : ∀ phase offset' value', Parameter o.options phase offset' value' →
      phase.rank ≤ o.phase.rank → offset' = offset → value' = value)
    (hsame : ∀ phase offset' value', Parameter o.options phase offset' value' →
      phase.rank = o.phase.rank → offset' = offset) :
    Inv memory { o with phase := next } (d.land d.engine offset value) := by
  rw [land_self hn]
  have hwritten := written_write hi.written hnew hsame
  have he : d.hardware.write offset value = { d.hardware with
      registers := Function.update d.hardware.registers offset (some value) } := by
    unfold Hardware.write
    rw [effect_plain hp]
  rw [he] at hwritten ⊢
  exact {
    engine := hi.engine
    valid := hi.valid
    released := hi.released
    grid := hi.grid
    within := hi.within
    more := fun _ h => by
      have h : next.rank ≤ 10 := h
      omega
    first := fun h => by
      have h : next.rank ≤ 3 := h
      omega
    filled := fun _ => hi.filled (by omega)
    last := fun _ => hi.last hlow
    blocks := hi.blocks
    low := fun _ h => by
      have h : next.rank ≤ 10 := h
      omega
    high := fun _ h => by
      have h : next.rank ≤ 10 := h
      omega
    destination := fun _ h => by
      have h : next.rank ≤ 10 := h
      omega
    source := fun h => by
      have h : next.rank = 10 := h
      omega
    code := hi.code
    own := hi.own
    idle := fun _ => hi.idle hlow
    written := fun phase offset' value' hpar h =>
      hwritten phase offset' value' hpar (hr ▸ h)
    unstarted := fun _ => hi.unstarted (by omega)
    started := fun h => by
      have h : 20 ≤ next.rank := h
      omega
    halted := fun h => by
      have h : 21 ≤ next.rank := h
      omega }

/-- A register holds one parameter. -/
theorem parameter_value {options : Options} {phase phase' : Phase} {value' : Word} {offset' : Nat}
    (hp : Parameter options phase offset value) (hp' : Parameter options phase' offset' value')
    (ho : offset = offset') : value = value' := by
  cases hp <;> cases hp' <;> first
    | rfl
    | exact absurd ho (by decide)
    | exact Option.some.inj (‹_ = some value›.symm.trans ‹_ = some value'›)

/-- A phase writes one parameter. -/
theorem parameter_offset {options : Options} {phase phase' : Phase} {value' : Word} {offset' : Nat}
    (hp : Parameter options phase offset value) (hp' : Parameter options phase' offset' value')
    (hr : phase.rank = phase'.rank) : offset = offset' := by
  cases hp <;> cases hp' <;> first
    | rfl
    | exact absurd hr (by decide)

theorem parameter_plain {options : Options} {phase : Phase}
    (hp : Parameter options phase offset value) : Plain offset ∧ ¬ Device.starting offset := by
  cases hp <;> decide

theorem Inv.parameterOf {next : Phase} (hi : Inv memory o d)
    (hp : Parameter o.options o.phase offset value) (hr : next.rank = o.phase.rank + 1) :
    Inv memory { o with phase := next } (d.land d.engine offset value) := by
  have hplain := parameter_plain hp
  exact hi.parameter hplain.1 hplain.2 (parameter_rank hp) (parameter_before hp) hr
    (fun _ _ _ hpar _ ho => parameter_value hpar hp ho)
    fun _ _ _ hpar hrank => parameter_offset hpar hp hrank

/-- A phase that writes nothing where nothing is asked for. -/
theorem Inv.skip {next : Phase} (hi : Inv memory o d) (hlow : 12 ≤ o.phase.rank)
    (hhigh : o.phase.rank ≤ 18) (hr : next.rank = o.phase.rank + 1)
    (hnone : ∀ phase offset' value', Parameter o.options phase offset' value' →
      phase.rank ≠ o.phase.rank) :
    Inv memory { o with phase := next } d :=
  { hi with
    more := fun _ h => by
      have h : next.rank ≤ 10 := h
      omega
    first := fun h => by
      have h : next.rank ≤ 3 := h
      omega
    filled := fun _ => hi.filled (by omega)
    last := fun _ => hi.last hlow
    low := fun _ h => by
      have h : next.rank ≤ 10 := h
      omega
    high := fun _ h => by
      have h : next.rank ≤ 10 := h
      omega
    destination := fun _ h => by
      have h : next.rank ≤ 10 := h
      omega
    source := fun h => by
      have h : next.rank = 10 := h
      omega
    idle := fun _ => hi.idle hlow
    written := fun phase offset' value' hpar h => by
      have h : phase.rank < next.rank := h
      have := hnone phase offset' value' hpar
      exact hi.written phase offset' value' hpar (by omega)
    unstarted := fun _ => hi.unstarted (by omega)
    started := fun h => by
      have h : 20 ≤ next.rank := h
      omega
    halted := fun h => by
      have h : 21 ≤ next.rank := h
      omega }

/-- The upload is admitted. -/
theorem Inv.granted (hi : Inv memory o d) (hr : o.phase.rank = 0) :
    Inv memory { o with phase := .fbifControl } d :=
  { hi with
    more := fun h => by simp [Phase.rank] at h
    first := fun _ => hi.first (by omega)
    filled := fun h => by simp [Phase.rank] at h
    last := fun h => by simp [Phase.rank] at h
    low := fun h => by simp [Phase.rank] at h
    high := fun h => by simp [Phase.rank] at h
    destination := fun h => by simp [Phase.rank] at h
    source := fun h => by simp [Phase.rank] at h
    idle := fun h => by simp [Phase.rank] at h
    written := fun phase _ _ hpar h => by
      have h : phase.rank < 1 := h
      have := parameter_rank hpar
      omega
    unstarted := fun _ => hi.unstarted (by omega)
    started := fun h => by simp [Phase.rank] at h
    halted := fun h => by simp [Phase.rank] at h }

/-- From one phase of a transfer to the next, short of the command: only the registers that name the
block change. -/
theorem Inv.naming {next : Phase} (hi : Inv memory o d) (hfrom : 4 ≤ o.phase.rank)
    (hto : o.phase.rank ≤ 9) (hr : next.rank = o.phase.rank + 1)
    (hset : h'.settled memory = d.hardware.settled memory) (hrel : h'.released = true)
    (hlow : 6 ≤ next.rank → h'.low = BitVec.ofNat 32 (o.transfer.base >>> 8))
    (hhigh : 7 ≤ next.rank → h'.high = BitVec.ofNat 32 (o.transfer.base >>> 40 &&& 0x1ff))
    (hdest : 9 ≤ next.rank →
      h'.destination = BitVec.ofNat 32 (o.transfer.destination + o.transferred))
    (hsrc : next.rank = 10 →
      h'.source = BitVec.ofNat 32 (o.transfer.sourceOffset + o.transferred)) :
    Inv memory { o with phase := next } { d with hardware := h' } where
  engine := hi.engine
  valid := hi.valid
  released := hrel
  grid := hi.grid
  within := hi.within
  more := fun _ _ => hi.more hfrom (by omega)
  first := fun h => by
    have h : next.rank ≤ 3 := h
    omega
  filled := fun h => by
    have h : 11 ≤ next.rank := h
    omega
  last := fun h => by
    have h : 12 ≤ next.rank := h
    omega
  blocks := hi.blocks
  low := fun h _ => hlow h
  high := fun h _ => hhigh h
  destination := fun h _ => hdest h
  source := hsrc
  code := fun hp => by
    rw [hset]
    exact hi.code hp
  own := by
    rw [hset]
    exact hi.own
  idle := fun h => by
    have h : 12 ≤ next.rank := h
    omega
  written := fun phase _ _ hpar h => by
    have h : phase.rank < next.rank := h
    have := parameter_rank hpar
    omega
  unstarted := fun _ => hi.unstarted (by omega)
  started := fun h => by
    have h : 20 ≤ next.rank := h
    omega
  halted := fun h => by
    have h : 21 ≤ next.rank := h
    omega

theorem transfer_fits_part (hv : o.options.plan.Valid) : o.transfer.Fits ∧ o.transfer.destination = 0 := by
  unfold Operation.transfer
  cases o.part with
  | imem => exact ⟨hv.imem, hv.imemDestination⟩
  | dmem => exact ⟨hv.dmem, hv.dmemDestination⟩

/-- The block the command copies, from where it should come, to where it should go. -/
theorem Inv.address (hi : Inv memory o d) (hr : o.phase.rank = 10) :
    d.hardware.address = o.transfer.base + o.transfer.sourceOffset + o.transferred ∧
      d.hardware.destination.toNat = o.transferred := by
  obtain ⟨hf, hz⟩ := transfer_fits_part hi.valid
  have hbase := hf.base
  have hoff := hf.sourceOffset
  have hdest := hf.destination
  have hbytes := hf.some
  have hmore := hi.more (by omega) (by omega)
  constructor
  · unfold Hardware.address blockBytes
    rw [hi.low (by omega) (by omega), hi.high (by omega) (by omega), hi.source hr,
      base_address hf.aligned (by omega), BitVec.toNat_ofNat]
    omega
  · rw [hi.destination (by omega) (by omega), hz, Nat.zero_add, BitVec.toNat_ofNat]
    omega

theorem copy_imem {job : Job} {t : Tcms} (hj : job.instruction = true) :
    (t.copy memory job) = { t with imem := Falcon.copyBlock memory t.imem job.source job.destination } := by
  unfold Tcms.copy
  rw [if_pos hj]

theorem copy_dmem {job : Job} {t : Tcms} (hj : job.instruction = false) :
    (t.copy memory job) = { t with dmem := Falcon.copyBlock memory t.dmem job.source job.destination } := by
  unfold Tcms.copy
  rw [if_neg (by simp [hj])]

/-- The command copies the next block of its part, and nothing of the other. -/
theorem Inv.block (hi : Inv memory o d) (hr : o.phase.rank = 10) :
    let t := (d.hardware.command o.transfer.command).settled memory
    Loaded memory (tcmOf t o.part) (o.transfer.base + o.transfer.sourceOffset)
      (o.transferred + 256) ∧
      (o.part = .dmem → t.imem = (d.hardware.settled memory).imem) := by
  obtain ⟨ha, hd⟩ := hi.address hr
  have hown := hi.own
  intro t
  have ht : t = (d.hardware.settled memory).copy memory
      { instruction := o.transfer.command &&& bits.imem ≠ 0, source := d.hardware.address,
        destination := d.hardware.destination.toNat } := settled_command
  cases hp : o.part with
  | imem =>
    have hc : o.transfer.command = imemCommand := by
      unfold Operation.transfer
      rw [hp]
      exact hi.valid.imemCommand
    rw [ht, copy_imem (by rw [hc]; rfl), ha, hd]
    rw [hp] at hown
    exact ⟨hown.copyBlock, fun h => by cases h⟩
  | dmem =>
    have hc : o.transfer.command = dmemCommand := by
      unfold Operation.transfer
      rw [hp]
      exact hi.valid.dmemCommand
    rw [ht, copy_dmem (by rw [hc]; rfl), ha, hd]
    rw [hp] at hown
    exact ⟨hown.copyBlock, fun _ => rfl⟩

theorem Inv.commanded (hi : Inv memory o d) (hr : o.phase.rank = 10) :
    Inv memory o.advanceBlock (d.land d.engine reg.dmaCommand o.transfer.command) := by
  rw [land_self (by decide)]
  obtain ⟨hown, hother⟩ := hi.block hr
  obtain ⟨hf, -⟩ := transfer_fits_part hi.valid
  have hmore := hi.more (by omega) (by omega)
  have hgrid := hi.grid
  have hblocks := hf.blocks
  have hbb : blockBytes = 256 := rfl
  rw [hbb] at hblocks
  have hset : (d.hardware.write reg.dmaCommand o.transfer.command).settled memory =
      (d.hardware.command o.transfer.command).settled memory := rfl
  have hrank : o.advanceBlock.phase.rank = if o.transferred + 256 = o.transfer.bytes then 11 else 7 := by
    unfold Operation.advanceBlock
    dsimp only
    split <;> rfl
  have hlt : o.advanceBlock.phase.rank ≤ 11 := by
    rw [hrank]
    split <;> omega
  have hge : 7 ≤ o.advanceBlock.phase.rank := by
    rw [hrank]
    split <;> omega
  exact {
    engine := hi.engine
    valid := hi.valid
    released := hi.released
    grid := by
      show (o.transferred + 256) % 256 = 0
      omega
    within := by
      show o.transferred + 256 ≤ o.transfer.bytes
      omega
    more := fun _ h => by
      show o.transferred + 256 < o.transfer.bytes
      rw [hrank] at h
      split at h <;> omega
    first := fun h => by omega
    filled := fun h => by
      show o.transferred + 256 = o.transfer.bytes
      rw [hrank] at h
      split at h <;> omega
    last := fun h => by omega
    blocks := by
      show (o.result.blocks + 1) * 256 = o.transferred + 256 +
        if o.part = .dmem then o.options.plan.imem.bytes else 0
      rw [Nat.succ_mul, hi.blocks, Nat.add_right_comm]
    low := fun _ _ => hi.low (by omega) (by omega)
    high := fun _ _ => hi.high (by omega) (by omega)
    destination := fun h h' => by
      have hcases := hrank
      split at hcases <;> omega
    source := fun h => by
      rw [hrank] at h
      split at h <;> omega
    code := fun hp => by
      rw [hset, hother hp]
      exact hi.code hp
    own := by
      rw [hset]
      exact hown
    idle := fun h => by omega
    written := fun phase _ _ hpar h => by
      have := parameter_rank hpar
      omega
    unstarted := fun _ => hi.unstarted (by omega)
    started := fun h => by omega
    halted := fun h => by omega }

/-- A part that is seen idle is done. -/
theorem Inv.parted (hi : Inv memory o d) (hr : o.phase.rank = 11) (hq : d.hardware.queue = []) :
    Inv memory o.advancePart d := by
  have hown := hi.own
  have hfilled := hi.filled (by omega)
  have hblocks := hi.blocks
  cases hp : o.part with
  | imem =>
    have hop : o.advancePart = { o with part := .dmem, transferred := 0, phase := .baseWait } := by
      unfold Operation.advancePart
      rw [hp]
    have ht : o.transfer = o.options.plan.imem := by
      unfold Operation.transfer
      rw [hp]
    rw [ht] at hown hfilled
    rw [hp] at hown hblocks
    rw [hop]
    exact {
      engine := hi.engine
      valid := hi.valid
      released := hi.released
      grid := rfl
      within := Nat.zero_le _
      more := fun _ _ => hi.valid.dmem.some
      first := fun h => by simp [Phase.rank] at h
      filled := fun h => by simp [Phase.rank] at h
      last := fun h => by simp [Phase.rank] at h
      blocks := by
        show o.result.blocks * 256 = 0 + if Part.dmem = .dmem then o.options.plan.imem.bytes else 0
        simp at hblocks ⊢
        omega
      low := fun h => by simp [Phase.rank] at h
      high := fun h => by simp [Phase.rank] at h
      destination := fun h => by simp [Phase.rank] at h
      source := fun h => by simp [Phase.rank] at h
      code := fun _ => hfilled ▸ hown
      own := fun i hi' => absurd hi' (Nat.not_lt_zero i)
      idle := fun h => by simp [Phase.rank] at h
      written := fun phase _ _ hpar h => by
        have h : phase.rank < 4 := h
        have := parameter_rank hpar
        omega
      unstarted := fun _ => hi.unstarted (by omega)
      started := fun h => by simp [Phase.rank] at h
      halted := fun h => by simp [Phase.rank] at h }
  | dmem =>
    have hop : o.advancePart = { o with phase := .signature } := by
      unfold Operation.advancePart
      rw [hp]
    rw [hop]
    exact { hi with
      more := fun _ h => by simp [Phase.rank] at h
      first := fun h => by simp [Phase.rank] at h
      filled := fun _ => hfilled
      last := fun _ => hp
      low := fun _ h => by simp [Phase.rank] at h
      high := fun _ h => by simp [Phase.rank] at h
      destination := fun _ h => by simp [Phase.rank] at h
      source := fun h => by simp [Phase.rank] at h
      idle := fun _ => hq
      written := fun phase _ _ hpar h => by
        have h : phase.rank < 12 := h
        have := parameter_rank hpar
        omega
      unstarted := fun _ => hi.unstarted (by omega)
      started := fun h => by simp [Phase.rank] at h
      halted := fun h => by simp [Phase.rank] at h }

/-! ## The start -/

theorem parameter_apart {options : Options} {phase : Phase}
    (hp : Parameter options phase offset value) : ¬ Device.starting offset := by
  cases hp <;> decide

theorem Inv.ready (hi : Inv memory o d) (hr : o.phase.rank = 19) :
    Ready memory o.options d.hardware := by
  have hq := hi.idle (by omega)
  have hp := hi.last (by omega)
  have hown := hi.own
  have hcode := hi.code hp
  have ht : o.transfer = o.options.plan.dmem := by
    unfold Operation.transfer
    rw [hp]
  rw [settled_idle hq, hp, hi.filled (by omega), ht] at hown
  rw [settled_idle hq] at hcode
  refine ⟨hcode, hown, hq, fun phase offset value hpar => ?_, hi.released⟩
  have := parameter_before hpar
  exact hi.written phase offset value hpar (by omega)

theorem Inv.launched (hi : Inv memory o d) (hr : o.phase.rank = 19) (hs : Device.starting offset) :
    Inv memory { o with phase := .halt } (d.land d.engine offset value) := by
  have hland : d.land d.engine offset value = { d with
      hardware := d.hardware.write offset value, starts := d.starts ++ [d.hardware] } := by
    unfold Device.land
    rw [if_neg (not_not_intro rfl), if_pos hs]
  have hplain : Plain offset := by
    rcases hs with rfl | rfl <;> decide
  have he : d.hardware.write offset value = { d.hardware with
      registers := Function.update d.hardware.registers offset (some value) } := by
    unfold Hardware.write
    rw [effect_plain hplain]
  rw [hland, he]
  exact {
    engine := hi.engine
    valid := hi.valid
    released := hi.released
    grid := hi.grid
    within := hi.within
    more := fun _ h => by simp [Phase.rank] at h
    first := fun h => by simp [Phase.rank] at h
    filled := fun _ => hi.filled (by omega)
    last := fun _ => hi.last (by omega)
    blocks := hi.blocks
    low := fun _ h => by simp [Phase.rank] at h
    high := fun _ h => by simp [Phase.rank] at h
    destination := fun _ h => by simp [Phase.rank] at h
    source := fun h => by simp [Phase.rank] at h
    code := hi.code
    own := hi.own
    idle := fun _ => hi.idle (by omega)
    written := fun phase offset' value' hpar _ => by
      have hne : offset' ≠ offset := fun h => parameter_apart hpar (h ▸ hs)
      have := parameter_before hpar
      show Function.update d.hardware.registers offset (some value) offset' = some value'
      rw [Function.update_of_ne hne]
      exact hi.written phase offset' value' hpar (by omega)
    unstarted := fun h => by simp [Phase.rank] at h
    started := fun _ => ⟨d.hardware, by simp [hi.unstarted (by omega)], hi.ready hr⟩
    halted := fun h => by simp [Phase.rank] at h }

/-- Behind the halt only the results are read. -/
theorem Inv.finishing {next : Phase} {result : Result} (hi : Inv memory o d)
    (hr : 20 ≤ o.phase.rank) (hnext : 20 ≤ next.rank) (hh : d.halted = true)
    (hb : result.blocks = o.result.blocks) :
    Inv memory { o with phase := next, result := result } d :=
  { hi with
    more := fun _ h => by
      have h : next.rank ≤ 10 := h
      omega
    first := fun h => by
      have h : next.rank ≤ 3 := h
      omega
    filled := fun _ => hi.filled (by omega)
    last := fun _ => hi.last (by omega)
    blocks := by
      show result.blocks * 256 = _
      rw [hb]
      exact hi.blocks
    low := fun _ h => by
      have h : next.rank ≤ 10 := h
      omega
    high := fun _ h => by
      have h : next.rank ≤ 10 := h
      omega
    destination := fun _ h => by
      have h : next.rank ≤ 10 := h
      omega
    source := fun h => by
      have h : next.rank = 10 := h
      omega
    idle := fun _ => hi.idle (by omega)
    written := fun phase offset' value' hpar _ => by
      have := parameter_before hpar
      exact hi.written phase offset' value' hpar (by omega)
    unstarted := fun h => by
      have h : next.rank ≤ 19 := h
      omega
    started := fun _ => hi.started hr
    halted := fun _ => hh }

end Hs
end Falcon
end NvidiaGsp
