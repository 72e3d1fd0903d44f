import NvidiaGsp.Falcon.RunSpec

/-!
# Falcon.Launch

What a firmware execution starts: whatever the accesses return and however far it gets, the CPU is
started at most once, behind the reset of its engine, with the prepared image in its memories.
-/

namespace NvidiaGsp
namespace Falcon
namespace Run

variable {memory image : Nat → Byte} {port : Port} {options : Options} {o : Operation} {d : Device}
  {address bytes code data : Nat} {h : Hardware}

/-- The engine holds the code and the data of an image, copies nothing, and knows all it was to be
told. -/
structure Launch (image : Nat → Byte) (options : Options) (code data : Nat) (h : Hardware) :
    Prop where
  imem : ∀ i, i < options.plan.imem.bytes → h.tcms.imem i = image (code + i)
  dmem : ∀ i, i < options.plan.dmem.bytes → h.tcms.dmem i = image (data + i)
  contiguous : code + options.plan.imem.bytes = data
  idle : h.queue = []
  written : ∀ phase offset value, Hs.Parameter (options.upload 0) phase offset value →
    h.registers offset = some value
  released : h.released = true

/-- What the DMA engine copied from the device addresses of a plan is the image's. -/
theorem Launch.of_ready (ht : Tiles address bytes options.plan code data)
    (himage : ∀ i, i < bytes → memory (address + i) = image i)
    (hr : Hs.Ready memory (options.upload 0) h) : Launch image options code data h where
  imem := fun i hi => by
    have hload := hr.imem i hi
    have hbase : options.plan.imem.base + options.plan.imem.sourceOffset = address + code := ht.imem
    have hin : code + i < bytes := by
      have := ht.contiguous
      have := ht.within
      omega
    rw [hload, ← himage _ hin, ← Nat.add_assoc, ← hbase]
    rfl
  dmem := fun i hi => by
    have hload := hr.dmem i hi
    have hbase : options.plan.dmem.base + options.plan.dmem.sourceOffset = address + data := ht.dmem
    have hin : data + i < bytes := by
      have := ht.within
      omega
    rw [hload, ← himage _ hin, ← Nat.add_assoc, ← hbase]
    rfl
  contiguous := ht.contiguous
  idle := hr.idle
  written := hr.written
  released := hr.released

theorem Stage.upload (hs : Stage memory o d) {u : Hs.Operation} (hu : o.hsOperation = some u) :
    Uploading memory o d u := by
  have hnone : ∀ {p : Prop}, o.hsOperation = none → p := fun h => by rw [hu] at h; cases h
  have hsame : ∀ {v : Hs.Operation}, Uploading memory o d v → Uploading memory o d u := by
    intro v hv
    obtain rfl : v = u := Option.some.inj (hv.hsOperation.symm.trans hu)
    exact hv
  unfold Stage at hs
  split at hs
  · exact hnone hs.1.hsOperation
  · exact hnone hs.hsOperation
  · exact hnone hs.hsOperation
  · exact hnone hs.hsOperation
  · exact hnone hs.1.hsOperation
  · exact hnone hs.1.hsOperation
  · exact hnone hs.1.hsOperation
  · exact hnone hs.1.hsOperation
  · exact hnone hs.1.hsOperation
  · exact hsame hs.2.choose_spec
  · exact hsame hs.2.choose_spec.1
  · exact hsame hs.2.choose_spec.1
  · exact hsame hs.2.choose_spec.1
  · exact hsame hs.2.choose_spec.1
  · rcases hs with hs | ⟨v, hv, -⟩
    · exact hnone hs.hsOperation
    · exact hsame hv

/-- A result: Booter Unload had nothing to do, or the upload has run to the halt of its CPU. -/
theorem Stage.result (hs : Stage memory o d) (hr : o.result ≠ none) :
    Skipped o d ∨ ∃ u, Uploading memory o d u ∧ u.phase = .complete := by
  unfold Stage at hs
  split at hs
  · exact absurd hs.1.result hr
  · exact absurd hs.result hr
  · exact absurd hs.result hr
  · exact absurd hs.result hr
  · exact absurd hs.1.result hr
  · exact absurd hs.1.result hr
  · exact absurd hs.1.result hr
  · exact absurd hs.1.result hr
  · exact absurd hs.1.result hr
  · exact absurd hs.1 hr
  · exact absurd hs.1 hr
  · exact absurd hs.1 hr
  · exact absurd hs.1 hr
  · exact absurd hs.1 hr
  · exact hs

/-- Whatever the port answers and after any number of steps, the CPU has been started at most once,
then with the image in both memories and all its parameters set, behind the completed reset of its own
engine; the sums of the upload fit their registers; and a result tells of a halted CPU, or that there
was nothing to unload. -/
theorem steps_launch (hplan : Planned address bytes options.plan code data)
    (himage : ∀ i, i < bytes → port.memory (address + i) = image i)
    (hinit : init options = .ok o) (hardware : Hardware) (n : Nat) :
    let s := steps port n ⟨o, { engine := options.engine, hardware := hardware }⟩
    s.device.starts.length ≤ 1 ∧
      (∀ h ∈ s.device.starts, Launch image options code data h ∧
        s.operation.reset.phase = .complete ∧ s.operation.reset.resetEngine = options.engine) ∧
      (∀ u, s.operation.failure = none → s.operation.hsOperation = some u →
        u.options.plan = options.plan ∧ options.plan.imem.Fits ∧ options.plan.dmem.Fits ∧
          u.transferred ≤ u.transfer.bytes) ∧
      ∀ r, s.operation.result = some r →
        (s.device.starts.length = 1 ∧ s.device.halted = true) ∨
          (s.device.starts = [] ∧
            ∃ report, s.operation.booterReport = some report ∧ report.skipped = true) := by
  intro s
  have hs : Sound port.memory options s := (init_sound hinit rfl rfl).steps n
  have ht := planned_tiles hplan
  refine ⟨?_, fun h hh => ?_, fun u hf hu => ?_, fun r hr => ?_⟩
  · rcases hs.broken.safe with hnone | ⟨⟨g, hone, -⟩, -⟩
    · simp [hnone]
    · simp [hone]
  · rcases hs.broken.safe with hnone | ⟨⟨g, hone, hready⟩, hreset⟩
    · rw [hnone] at hh
      cases hh
    · rw [hone] at hh
      obtain rfl := List.mem_singleton.mp hh
      rw [hs.broken.given] at hready
      exact ⟨.of_ready ht himage hready, hreset, hs.broken.resetEngine⟩
  · have hi := hs.inv (.inl hf)
    have hup := hi.stage.upload hu
    have hp : u.options.plan = options.plan := hup.plan.trans (by rw [hi.given])
    exact ⟨hp, hp ▸ hup.inv.valid.imem, hp ▸ hup.inv.valid.dmem, hup.inv.within⟩
  · have hr : s.operation.result ≠ none := by simp [hr]
    rcases (hs.inv (.inr hr)).stage.result hr with hskip | ⟨u, hup, hdone⟩
    · exact .inr ⟨hskip.starts, hskip.report⟩
    · have hrank : u.phase.rank = 23 := by rw [hdone]; rfl
      obtain ⟨g, hone, -⟩ := hup.inv.started (by omega)
      exact .inl ⟨by simp [hone], hup.inv.halted (by omega)⟩

/-- A Booter image of one block of code and two of data, at the device address 4096. -/
def smallBooter : Booter where
  info := {
    imageBytes := 1024
    codeOffset := 256
    codeBytes := 256
    dataOffset := 512
    dataBytes := 512
    signatureOffset := 528 }
  fuseVersion := 1
  signatureIndex := 0

def smallOptions : Options where
  engine := .sec2
  boot0 := 0x17200000
  epoch := 1
  deadline := 100000000
  plan := {
    imem := {
      base := 4096, destination := 0, sourceOffset := 256, bytes := 256, command := imemCommand }
    dmem := {
      base := 4608, destination := 0, sourceOffset := 0, bytes := 512, command := dmemCommand }
    bootVector := 256
    signatureAddress := 16
    engineMask := 1
    ucodeId := 3 }

/-- Every access succeeds, and every register reads as a ready Falcon that has halted. -/
def readyPort : Port where
  memory := fun i => BitVec.ofNat 8 i
  depth := 8
  generation := fun _ => 1
  now := fun tick => 1000 * tick
  value := fun _ => some 0x80000810
  acknowledged := fun _ => true
  lands := fun _ => true
  finished := fun _ => 4
  granted := fun _ => true

def freshOperation : Operation where
  options := smallOptions
  reset := { resetEngine := .sec2, epoch := 1, deadline := 100000000, boot0 := 0x17200000 }

/-- The state after a number of steps on that port. -/
def smallRun (n : Nat) : State :=
  steps readyPort n ⟨freshOperation, {
    engine := smallOptions.engine
    hardware := { tcms := ⟨fun _ => 0, fun _ => 0⟩ } }⟩

set_option maxRecDepth 4000 in
/-- There the CPU has started within 66 steps. -/
theorem smallRun_launch : (smallRun 66).device.starts.length = 1 ∧
    ∀ h ∈ (smallRun 66).device.starts,
      Launch (fun i => BitVec.ofNat 8 (4096 + i)) smallOptions 256 512 h := by
  have hplan : loadPlan smallBooter 4096 1024 = .ok smallOptions.plan := by decide
  have hinit : init smallOptions = .ok freshOperation := rfl
  have himage : ∀ i, i < 1024 → readyPort.memory (4096 + i) = BitVec.ofNat 8 (4096 + i) :=
    fun _ _ => rfl
  have hrun := steps_launch (Planned.booter hplan) himage hinit
    { tcms := ⟨fun _ => 0, fun _ => 0⟩ } 66
  refine ⟨by decide +kernel, fun h hh => ?_⟩
  unfold smallRun at hh
  exact (hrun.2.1 h hh).1

end Run
end Falcon
end NvidiaGsp
