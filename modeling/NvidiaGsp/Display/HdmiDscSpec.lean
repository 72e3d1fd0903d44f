import NvidiaGsp.Lib.Runs
import NvidiaGsp.Display.HdmiDsc

/-!
# Display.HdmiDscSpec

What one answer does to the search. An error leaves everything but the encoder and the layout as it
was (`take_error`); a success is one step of its stage (`take_ok`). From these come the invariant of
all runs (`Sound`) and with it what a result means: the resource manager answered that very rate and
depth possible, and the sums of the work stay in the source's integers.
-/

namespace NvidiaGsp
namespace Hdmi

open Bytes
open Mst.Payload (Clock DscSource)

variable {p : Package} {input : Input} {w w' : Work} {expected data : List Byte} {receipt : Nat}
  {e : Error} {out : Except Error Unit}

/-! ## Errors -/

/-- Two works that differ in the encoder and the layout at most. -/
structure Kept (w w' : Work) : Prop where
  input : w'.input = w.input
  stage : w'.stage = w.stage
  rate : w'.rate = w.rate
  bpp : w'.bpp = w.bpp
  search : w'.search = w.search
  result : w'.result = w.result
  receipt : w'.receipt = w.receipt
  probes : w'.probes = w.probes

theorem Kept.refl (w : Work) : Kept w w := ⟨rfl, rfl, rfl, rfl, rfl, rfl, rfl, rfl⟩

theorem finish_error (h : w.finish p data = (.error e, w')) : w' = w := by
  unfold Work.finish at h
  split at h
  · cases h
    rfl
  · split at h
    · cases h
      rfl
    · dsimp only at h
      split at h
      · cases h
        rfl
      · cases h

theorem lower_error (h : w.lower = (.error e, w')) : w' = w := by
  unfold Work.lower at h
  split at h
  · cases h
    rfl
  all_goals
    split at h
    · cases h
      rfl
    · cases h

theorem take_error (h : w.take p expected data = (.error e, w')) : Kept w w' := by
  unfold Work.take at h
  split at h
  · unfold Work.takeSource at h
    split at h
    · cases h
      exact .refl w
    · split at h
      · cases h
        exact .refl w
      · dsimp only at h
        split at h
        · cases h
          exact ⟨rfl, rfl, rfl, rfl, rfl, rfl, rfl, rfl⟩
        · cases h
  · unfold Work.takeLayout at h
    split at h
    · cases h
      exact .refl w
    · split at h
      · cases h
        exact .refl w
      · dsimp only at h
        split at h
        · cases h
          exact .refl w
        · split at h
          · split at h
            · cases h
              exact ⟨rfl, rfl, rfl, rfl, rfl, rfl, rfl, rfl⟩
            · cases h
          · cases h
  · unfold Work.takePrecalc at h
    split at h
    · cases h
      exact .refl w
    · split at h <;> cases h
  · unfold Work.takePreconfig at h
    split at h
    · cases h
      exact .refl w
    · split at h
      · cases h
      · split at h
        · cases h
          exact .refl w
        · cases h
  · unfold Work.takeCapacity at h
    split at h
    · cases h
      exact .refl w
    · split at h
      · cases h
        exact .refl w
      · split at h
        · cases h
          exact .refl w
        · split at h
          · split at h
            · cases h
            · rw [finish_error h]
              exact .refl w
          · rw [lower_error h]
            exact .refl w
  · cases h
    exact .refl w

/-! ## Successes -/

theorem finish_ok (h : w.finish p data = (.ok (), w')) : ∃ plan : Plan, plan.rate = w.rate ∧
    w' = { w with result := some plan, triBytesBorrowed := num data 76, stage := .complete } := by
  unfold Work.finish at h
  split at h
  · cases h
  · split at h
    · cases h
    · dsimp only at h
      split at h
      · cases h
      · cases h
        exact ⟨_, rfl, rfl⟩

theorem lower_ok (h : w.lower = (.ok (), w')) :
    (w.search = .rate ∧ w.rate ≠ w.maximum ∧ w' = { w with rate := w.rate + 1 }) ∨
    (w.search = .coarse ∧ w.bpp ≠ 128 ∧ w' = { w with bpp := max 128 (w.bpp - 16) }) ∨
    w.search = .fine ∧ w.bpp ≠ 128 ∧ w' = { w with bpp := max 128 (w.bpp - 1) } := by
  unfold Work.lower at h
  split at h
  · cases h
  · rename_i hs
    split at h
    · cases h
    · cases h
      exact .inl ⟨hs, ‹_›, rfl⟩
  · rename_i hs
    split at h
    · cases h
    · cases h
      exact .inr (.inl ⟨hs, ‹_›, rfl⟩)
  · rename_i hs
    split at h
    · cases h
    · cases h
      exact .inr (.inr ⟨hs, ‹_›, rfl⟩)

theorem raise_some (h : w.raise = some w') :
    (w.search = .rate ∧ w' = { w with bpp := w.maxBpp, search := .coarse }) ∨
    w.search = .coarse ∧ w.bpp ≠ w.maxBpp ∧
      w' = { w with bpp := min w.maxBpp (w.bpp + 15), search := .fine } := by
  unfold Work.raise at h
  split at h
  · rename_i hc
    cases h
    exact .inl ⟨hc.1, rfl⟩
  · split at h
    · rename_i hc
      cases h
      exact .inr ⟨hc.1, hc.2, rfl⟩
    · cases h

/-- The fixed choice of rate and depth, from a saved plan or a precomputed configuration. -/
def Work.fix (w : Work) (rate bpp : Nat) : Work := { w with rate, bpp, search := .fixed, stage := .capacity }

/-- A success is one step of its stage. -/
inductive Taken (p : Package) (w : Work) (expected data : List Byte) : Work → Prop where
  | source {source : DscSource} (hs : w.stage = .source)
      (h : decodeSource ((data.drop 36).take 28) = .ok source) (hu : source.usable = true) :
      Taken p w expected data { w with source, stage := .layout }
  | layout {slices width : Nat} (hs : w.stage = .layout) (hf : w.input.fixed = none) :
      Taken p w expected data { w with slices, sliceWidth := width, stage := .precalc }
  | saved (slices width rate bpp : Nat) (hs : w.stage = .layout) :
      Taken p w expected data (Work.fix { w with slices, sliceWidth := width } rate bpp)
  | precalc (hs : w.stage = .precalc) : Taken p w expected data { w with stage := .preconfig }
  | start (hs : w.stage = .precalc ∨ w.stage = .preconfig) : Taken p w expected data (w.startSearch p)
  | preconfig {rate bpp : Nat} (hs : w.stage = .preconfig) : Taken p w expected data (w.fix rate bpp)
  | raise {w' : Work} (hs : w.stage = .capacity) (h : w.raise = some w') : Taken p w expected data w'
  | finish {w' : Work} (hs : w.stage = .capacity) (he : same data expected 0 60) (hp : possible data)
      (h : w.finish p data = (.ok (), w')) : Taken p w expected data w'
  | lower {w' : Work} (hs : w.stage = .capacity) (h : w.lower = (.ok (), w')) : Taken p w expected data w'

theorem take_ok (h : w.take p expected data = (.ok (), w')) : Taken p w expected data w' := by
  unfold Work.take at h
  split at h
  · rename_i hs
    unfold Work.takeSource at h
    split at h
    · cases h
    · split at h
      · cases h
      · rename_i source hsource
        dsimp only at h
        split at h
        · cases h
        · rename_i hu
          cases h
          exact .source hs hsource (by simpa using (not_or.mp hu).1)
  · rename_i hs
    unfold Work.takeLayout at h
    split at h
    · cases h
    · split at h
      · cases h
      · dsimp only at h
        split at h
        · cases h
        · split at h
          · rename_i fixed hf
            split at h
            · cases h
            · cases h
              exact .saved (num data 48) (num data 52) fixed.rate fixed.params.bppX16 hs
          · rename_i hf
            cases h
            exact .layout hs hf
  · rename_i hs
    unfold Work.takePrecalc at h
    split at h
    · cases h
    · split at h
      · cases h
        exact .precalc hs
      · cases h
        exact .start (.inl hs)
  · rename_i hs
    unfold Work.takePreconfig at h
    split at h
    · cases h
    · split at h
      · cases h
        exact .start (.inr hs)
      · split at h
        · cases h
        · cases h
          exact .preconfig hs
  · rename_i hs
    unfold Work.takeCapacity at h
    split at h
    · cases h
    · rename_i hsame
      split at h
      · cases h
      · split at h
        · cases h
        · split at h
          · rename_i hp
            split at h
            · rename_i w₁ hraise
              cases h
              exact .raise hs hraise
            · exact .finish hs (not_not.mp (not_or.mp hsame).1) hp h
          · exact .lower hs h
  · cases h

theorem consume_error (h : w.consume p data receipt = (.error e, w')) : Kept w w' := by
  unfold Work.consume at h
  split at h
  · cases h
    exact .refl w
  · split at h
    · cases h
      exact .refl w
    · split at h
      · cases h
        exact .refl w
      · split at h
        · rename_i e' w₁ htake
          cases h
          exact take_error htake
        · cases h

/-- What a successful call was. -/
structure Consumed (p : Package) (w : Work) (data : List Byte) (receipt : Nat) (expected : List Byte)
    (w₁ w' : Work) : Prop where
  fresh : w.receipt < receipt
  probes : w.probes < 64
  encoded : w.encode p 132 = .ok expected
  taken : Taken p w expected data w₁
  post : w' = { w₁ with receipt := receipt, probes := w₁.probes + 1 }

theorem consume_ok (h : w.consume p data receipt = (.ok (), w')) :
    ∃ expected w₁, Consumed p w data receipt expected w₁ w' := by
  unfold Work.consume at h
  split at h
  · cases h
  · rename_i hfresh
    split at h
    · cases h
    · rename_i expected hencode
      split at h
      · cases h
      · split at h
        · cases h
        · rename_i w₁ htake
          cases h
          simp only [not_or, not_le] at hfresh
          exact ⟨expected, w₁, ⟨hfresh.2.1, hfresh.2.2, hencode, take_ok htake, rfl⟩⟩

/-! ## Every run -/

theorem encode_capacity (hs : w.stage = .capacity) (h : w.encode p 132 = .ok expected) :
    (1 ≤ w.rate ∧ w.rate ≤ w.maximum) ∧ 128 ≤ w.bpp ∧ w.bpp ≤ w.maxBpp := by
  unfold Work.encode at h
  dsimp only at h
  split at h
  · cases h
  · rw [hs] at h
    dsimp only at h
    split at h
    · cases h
    · rename_i hbound
      simp only [not_or, not_lt] at hbound
      exact ⟨⟨Nat.pos_of_ne_zero hbound.1, hbound.2.1⟩, hbound.2.2⟩

theorem encode_complete (hs : w.stage = .complete) : w.encode p 132 = .error .Unsupported := by
  unfold Work.encode
  dsimp only
  rw [if_pos (.inr (.inl hs))]

def Work.step (p : Package) (w : Work) (op : List Byte × Nat) : Except Error Unit × Work :=
  w.consume p op.1 op.2

abbrev Answered := Event Work (List Byte × Nat) (Except Error Unit)

/-- The resource manager answered this probe possible. -/
structure Proved (p : Package) (e : Answered) (rate bpp : Nat) : Prop where
  stage : e.pre.stage = .capacity
  rate : e.pre.rate = rate
  bpp : e.pre.bpp = bpp
  echo : ∃ expected, e.pre.encode p 132 = .ok expected ∧ same e.op.1 expected 0 60
  possible : possible e.op.1

def succeeded (e : Answered) : Bool := e.out.isOk

/-- What holds after any answers. -/
structure Sound (p : Package) (input : Input) (h : List Answered) (w : Work) : Prop where
  own : w.input = input
  count : (h.filter succeeded).length = w.probes
  probes : w.probes ≤ 64
  ended : w.result.isSome → w.stage = .complete
  /-- A search probes at rates and depths of its own making. -/
  searching : w.stage = .capacity → w.search ≠ .fixed →
    (1 ≤ w.rate ∧ w.rate ≤ input.top) ∧ 128 ≤ w.bpp ∧ w.bpp ≤ input.maxBpp
  /-- A result means a probe that was answered possible. -/
  result : ∀ plan, w.result = some plan → plan.rate = w.rate ∧ (1 ≤ w.rate ∧ w.rate ≤ input.top) ∧
    (128 ≤ w.bpp ∧ w.bpp ≤ input.maxBpp) ∧ ∃ e ∈ h, Proved p e w.rate w.bpp

theorem sound_start : Sound p input [] { input } :=
  ⟨rfl, rfl, Nat.zero_le _, nofun, nofun, nofun⟩

theorem maxBpp_bounds (h : input.receiver.bpcSupported input.bpc) :
    192 ≤ input.maxBpp ∧ input.maxBpp ≤ 479 := by
  unfold Input.maxBpp Receiver.maxBpp
  rcases h.1 with hb | hb <;> rw [hb] <;> split <;> decide

theorem count_ok {h : List Answered} {a : Answered} (ha : a.out = .ok ()) :
    ((h ++ [a]).filter succeeded).length = (h.filter succeeded).length + 1 := by
  have hs : succeeded a = true := by
    unfold succeeded
    rw [ha]
    rfl
  rw [List.filter_append, List.length_append, List.filter_cons_of_pos hs]
  rfl

theorem count_error {h : List Answered} {a : Answered} (ha : a.out = .error e) :
    ((h ++ [a]).filter succeeded).length = (h.filter succeeded).length := by
  have hs : ¬ succeeded a = true := by
    unfold succeeded
    rw [ha]
    exact Bool.false_ne_true
  rw [List.filter_append, List.length_append, List.filter_cons_of_neg hs]
  rfl

theorem Sound.kept {h : List Answered} {op : List Byte × Nat} (hw : Sound p input h w) (hk : Kept w w') :
    Sound p input (h ++ [⟨w, op, .error e, w'⟩]) w' := by
  obtain ⟨hinput, hstage, hrate, hbpp, hsearch, hresult, -, hprobes⟩ := hk
  refine ⟨hinput.trans hw.own, ?_, hprobes ▸ hw.probes, ?_, ?_, ?_⟩
  · rw [count_error rfl, hprobes, hw.count]
  · rw [hresult, hstage]
    exact hw.ended
  · rw [hstage, hsearch, hrate, hbpp]
    exact hw.searching
  · rw [hresult, hrate, hbpp]
    intro plan hp
    obtain ⟨hr, hbounds, hdepth, e', he, hproved⟩ := hw.result plan hp
    exact ⟨hr, hbounds, hdepth, e', List.mem_append_left _ he, hproved⟩

theorem sound_step (hl : p.lowest = 1) (ha : input.Accepted p) {h : List Answered} {op : List Byte × Nat}
    (hw : Sound p input h w) (hstep : w.step p op = (out, w')) :
    Sound p input (h ++ [⟨w, op, out, w'⟩]) w' := by
  cases out with
  | error e => exact hw.kept (consume_error hstep)
  | ok u =>
    obtain ⟨expected, w₁, hc⟩ := consume_ok hstep
    have hopen : w.stage ≠ .complete := fun hs => by
      have := hc.encoded
      rw [encode_complete hs] at this
      cases this
    have hnone : w.result = none := by
      cases hres : w.result with
      | none => rfl
      | some plan => exact absurd (hw.ended (by rw [hres]; rfl)) hopen
    have htop := Nat.pos_of_ne_zero ha.maximum
    have hdepth := (maxBpp_bounds ha.bpc).1
    have hinput := hw.own
    have hprobes := hc.probes
    rw [hc.post]
    -- A step that is not the last keeps the result empty, and stays inside the window.
    have hgoing {w₂ : Work} (hin : w₂.input = input) (hres : w₂.result = none) (hpr : w₂.probes = w.probes)
        (hwin : w₂.stage = .capacity → w₂.search ≠ .fixed →
          (1 ≤ w₂.rate ∧ w₂.rate ≤ input.top) ∧ 128 ≤ w₂.bpp ∧ w₂.bpp ≤ input.maxBpp) :
        Sound p input (h ++ [⟨w, op, .ok u, { w₂ with receipt := op.2, probes := w₂.probes + 1 }⟩])
          { w₂ with receipt := op.2, probes := w₂.probes + 1 } := by
      refine ⟨hin, ?_, ?_, ?_, hwin, ?_⟩
      · rw [count_ok rfl, hw.count, hpr]
      · show w₂.probes + 1 ≤ 64
        omega
      · show w₂.result.isSome → _
        rw [hres]
        exact nofun
      · show ∀ plan, w₂.result = some plan → _
        rw [hres]
        exact nofun
    cases hc.taken with
    | source hs hdecode hu => exact hgoing hinput hnone rfl nofun
    | layout hs hf => exact hgoing hinput hnone rfl nofun
    | saved slices width rate bpp hs => exact hgoing hinput hnone rfl fun _ hn => absurd rfl hn
    | precalc hs => exact hgoing hinput hnone rfl nofun
    | start hs =>
      refine hgoing hinput hnone rfl fun _ _ => ?_
      simp only [Work.startSearch, hl]
      omega
    | preconfig hs => exact hgoing hinput hnone rfl fun _ hn => absurd rfl hn
    | raise hs hraise =>
      have hwin := encode_capacity hs hc.encoded
      simp only [Work.maximum, Work.maxBpp, hinput] at hwin
      rcases raise_some hraise with ⟨-, rfl⟩ | ⟨-, -, rfl⟩
      · refine hgoing hinput hnone rfl fun _ _ => ?_
        simp only [Work.maxBpp, hinput]
        omega
      · refine hgoing hinput hnone rfl fun _ _ => ?_
        simp only [Work.maxBpp, hinput]
        omega
    | lower hs hlower =>
      have hwin := encode_capacity hs hc.encoded
      simp only [Work.maximum, Work.maxBpp, hinput] at hwin
      rcases lower_ok hlower with ⟨-, hne, rfl⟩ | ⟨-, -, rfl⟩ | ⟨-, -, rfl⟩
      · refine hgoing hinput hnone rfl fun _ _ => ?_
        simp only [Work.maximum, hinput] at hne
        dsimp only
        omega
      · refine hgoing hinput hnone rfl fun _ _ => ?_
        dsimp only
        omega
      · refine hgoing hinput hnone rfl fun _ _ => ?_
        dsimp only
        omega
    | finish hs hecho hpossible hfinish =>
      have hwin := encode_capacity hs hc.encoded
      simp only [Work.maximum, Work.maxBpp, hinput] at hwin
      obtain ⟨plan, hrate, rfl⟩ := finish_ok hfinish
      refine ⟨hinput, ?_, ?_, fun _ => rfl, nofun, ?_⟩
      · rw [count_ok rfl, hw.count]
      · show w.probes + 1 ≤ 64
        omega
      · intro plan' hplan
        cases hplan
        exact ⟨hrate, hwin.1, hwin.2, _, List.mem_append_right _ List.mem_cons_self,
          ⟨hs, rfl, rfl, ⟨expected, hc.encoded, hecho⟩, hpossible⟩⟩

theorem sound_run (hl : p.lowest = 1) (ha : input.Accepted p) {h : List Answered}
    (hr : Run (Work.step p) { input } h w) : Sound p input h w :=
  hr.invariant sound_start fun _ _ _ _ _ hw hstep => sound_step hl ha hw hstep

end Hdmi
end NvidiaGsp
