import NvidiaGsp.Display.HdmiDscPps
import NvidiaGsp.Display.HdmiDscScan

/-!
# Display.HdmiDscRuns

The whole search, from its first query: its sums stay in the source's integers whatever is answered,
it ends, and it is exact for a resource manager that answers by a viable set (`search_exact`).
-/

namespace NvidiaGsp
namespace Hdmi

open Bytes
open Mst.Payload (Clock DscSource)

variable {p : Package} {answer : Work → List Byte × Nat} {w w' w₁ : Work} {n : Nat} {e : Error}
  {expected data : List Byte} {receipt : Nat} {input : Input} {s : Setup} {receipts : Nat → Nat}

/-! ## The whole search -/

section Start

variable (ha : input.Accepted p) (hs : s.Suits p input) (hm : s.Answers p input receipts answer)
  (hw : w.input = input) (hf : Fresh receipts w) (hp : w.probes < 64)

include ha hs hm hw

theorem start_answered (hstage : w.stage ≠ .complete) (hn : w.stage ≠ .capacity) :
    ∃ expected, w.encode p 132 = .ok expected ∧ (answer w).1.length = expected.length := by
  obtain ⟨expected, he⟩ := encode_exists ha hs.pclk hw hstage fun h => absurd h hn
  exact ⟨expected, he, hm.length w expected hw he⟩

include hf hp

theorem source_step (hstage : w.stage = .source) : w.consume p (answer w).1 (answer w).2 =
    (.ok (), Work.stamp { w with source := s.source, stage := .layout } (receipts w.probes)) := by
  obtain ⟨expected, he, hl⟩ := start_answered ha hs hm hw (by rw [hstage]; nofun) (by rw [hstage]; nofun)
  obtain ⟨hsame, hdecode⟩ := hm.source w expected hw he hstage
  rw [hm.receipt]
  refine consume_take hf hp he hl ?_
  unfold Work.take
  rw [hstage]
  dsimp only
  unfold Work.takeSource
  rw [if_neg (not_not.mpr hsame), hdecode]
  dsimp only
  rw [if_neg (not_or.mpr ⟨by rw [hs.usable]; nofun, not_not.mpr hs.increment⟩)]

theorem layout_step (hstage : w.stage = .layout) (hsource : w.source = s.source) :
    w.consume p (answer w).1 (answer w).2 = (.ok (), Work.stamp
      { w with slices := s.slices, sliceWidth := s.width, stage := .precalc } (receipts w.probes)) := by
  obtain ⟨expected, he, hl⟩ := start_answered ha hs hm hw (by rw [hstage]; nofun) (by rw [hstage]; nofun)
  obtain ⟨hsame, hsame', hone, hslices, hwidth⟩ := hm.layout w expected hw he hstage
  have hcount := hs.slices
  have hwide := hs.width
  have hcover := hs.cover
  rw [hm.receipt]
  refine consume_take hf hp he hl ?_
  unfold Work.take
  rw [hstage]
  dsimp only
  unfold Work.takeLayout
  rw [if_neg (not_or.mpr ⟨not_not.mpr hsame, not_or.mpr ⟨not_not.mpr hsame', by omega⟩⟩),
    if_neg (by omega)]
  dsimp only
  rw [hslices, hwidth, hw, hsource, if_neg (by omega), hs.fixed]

/-- A configuration that is not precomputed sends the work to its search, at once or by way of
`preconfig`. -/
theorem precalc_step (hstage : w.stage = .precalc) : w.consume p (answer w).1 (answer w).2 =
      (.ok (), (w.startSearch p).stamp (receipts w.probes)) ∨
    w.consume p (answer w).1 (answer w).2 =
      (.ok (), Work.stamp { w with stage := .preconfig } (receipts w.probes)) := by
  obtain ⟨expected, he, hl⟩ := start_answered ha hs hm hw (by rw [hstage]; nofun) (by rw [hstage]; nofun)
  obtain ⟨hsame, hsame', hflag⟩ := hm.precalc w expected hw he hstage
  rw [hm.receipt]
  by_cases hone : at_ (answer w).1 116 = 1
  · refine .inr (consume_take hf hp he hl ?_)
    unfold Work.take
    rw [hstage]
    dsimp only
    unfold Work.takePrecalc
    rw [if_neg (not_or.mpr ⟨not_not.mpr hsame, not_or.mpr ⟨not_not.mpr hsame', by omega⟩⟩), if_pos hone]
  · refine .inl (consume_take hf hp he hl ?_)
    unfold Work.take
    rw [hstage]
    dsimp only
    unfold Work.takePrecalc
    rw [if_neg (not_or.mpr ⟨not_not.mpr hsame, not_or.mpr ⟨not_not.mpr hsame', by omega⟩⟩), if_neg hone]

theorem preconfig_step (hstage : w.stage = .preconfig) : w.consume p (answer w).1 (answer w).2 =
    (.ok (), (w.startSearch p).stamp (receipts w.probes)) := by
  obtain ⟨expected, he, hl⟩ := start_answered ha hs hm hw (by rw [hstage]; nofun) (by rw [hstage]; nofun)
  obtain ⟨hsame, hsame', hseven⟩ := hm.preconfig w expected hw he hstage
  rw [hm.receipt]
  refine consume_take hf hp he hl ?_
  unfold Work.take
  rw [hstage]
  dsimp only
  unfold Work.takePreconfig
  rw [if_neg (not_or.mpr ⟨not_not.mpr hsame, not_not.mpr hsame'⟩), if_pos hseven]

end Start

/-- Three or four answers lead to the first probe, of the lowest rate at 128. -/
theorem search_start (hl : p.lowest = 1) (ha : input.Accepted p) (hs : s.Suits p input)
    (hm : s.Answers p input receipts answer) : ∃ k w, k ≤ 4 ∧ w.probes = k ∧
      Probing s input receipts w .rate 1 128 ∧
      ∀ n, drive p answer (n + k) { input } = drive p answer n w := by
  have htop := Nat.pos_of_ne_zero ha.maximum
  have hdeep := maxBpp_bounds ha.bpc
  obtain ⟨w₁, h₁, hown₁, hstage₁, hsource₁, hprobes₁, hf₁⟩ : ∃ w₁ : Work,
      Work.consume p { input } (answer { input }).1 (answer { input }).2 = (.ok (), w₁) ∧ w₁.input = input ∧
        w₁.stage = .layout ∧ w₁.source = s.source ∧ w₁.probes = 1 ∧ Fresh receipts w₁ :=
    ⟨_, source_step ha hs hm rfl hm.positive (Nat.zero_lt_succ _) rfl, rfl, rfl, rfl, rfl,
      Fresh.stamp hm.strict rfl⟩
  obtain ⟨w₂, h₂, hown₂, hstage₂, hsource₂, hslices₂, hwidth₂, hprobes₂, hf₂⟩ : ∃ w₂ : Work,
      w₁.consume p (answer w₁).1 (answer w₁).2 = (.ok (), w₂) ∧ w₂.input = input ∧ w₂.stage = .precalc ∧
        w₂.source = s.source ∧ w₂.slices = s.slices ∧ w₂.sliceWidth = s.width ∧ w₂.probes = 2 ∧
        Fresh receipts w₂ :=
    ⟨_, layout_step ha hs hm hown₁ hf₁ (by omega) hstage₁ hsource₁, hown₁, rfl, hsource₁, rfl, rfl,
      congrArg (· + 1) hprobes₁, Fresh.stamp hm.strict rfl⟩
  have htwo : ∀ n, drive p answer (n + 2) { input } = drive p answer n w₂ := fun n => by
    rw [drive_next h₁ (by rw [hstage₁]; nofun), drive_next h₂ (by rw [hstage₂]; nofun)]
  have hprobing {w : Work} (hown : w.input = input) (hsource : w.source = s.source)
      (hslices : w.slices = s.slices) (hwidth : w.sliceWidth = s.width) :
      Probing s input receipts ((w.startSearch p).stamp (receipts w.probes)) .rate 1 128 :=
    ⟨hown, rfl, hsource, hslices, hwidth, Fresh.stamp hm.strict rfl, rfl, hl, rfl, ⟨le_rfl, htop⟩,
      le_rfl, by omega⟩
  rcases precalc_step ha hs hm hown₂ hf₂ (by omega) hstage₂ with h₃ | h₃
  · have hnew := hprobing hown₂ hsource₂ hslices₂ hwidth₂
    refine ⟨3, _, by decide, congrArg (· + 1) hprobes₂, hnew, fun n => ?_⟩
    rw [show n + 3 = (n + 1) + 2 by omega, htwo, drive_next h₃ (by rw [hnew.stage]; nofun)]
  · obtain ⟨w₃, h₃', hown₃, hstage₃, hsource₃, hslices₃, hwidth₃, hprobes₃, hf₃⟩ : ∃ w₃ : Work,
        w₂.consume p (answer w₂).1 (answer w₂).2 = (.ok (), w₃) ∧ w₃.input = input ∧
          w₃.stage = .preconfig ∧ w₃.source = s.source ∧ w₃.slices = s.slices ∧ w₃.sliceWidth = s.width ∧
          w₃.probes = 3 ∧ Fresh receipts w₃ :=
      ⟨_, h₃, hown₂, rfl, hsource₂, hslices₂, hwidth₂, congrArg (· + 1) hprobes₂,
        Fresh.stamp hm.strict rfl⟩
    have hnew := hprobing hown₃ hsource₃ hslices₃ hwidth₃
    refine ⟨4, _, by decide, congrArg (· + 1) hprobes₃, hnew, fun n => ?_⟩
    rw [show n + 4 = (n + 1) + 1 + 2 by omega, htwo, drive_next h₃' (by rw [hstage₃]; nofun),
      drive_next (preconfig_step ha hs hm hown₃ hf₃ (by omega) hstage₃) (by rw [hnew.stage]; nofun)]

/-- Where some rate is viable at 128, the search finds the least of them and its greatest depth. -/
theorem search_found {least best : Nat} (hl : p.lowest = 1) (htop : input.top ≤ 6)
    (ha : input.Accepted p) (hs : s.Suits p input) (hm : s.Answers p input receipts answer)
    (hb : Best s input least best) (hbounds : 1 ≤ least ∧ least ≤ input.top)
    (hfirst : ∀ r, 1 ≤ r → r < least → ¬ s.viable r 128) : Found p answer 64 { input } least best := by
  obtain ⟨k, w, hk, hprobes, hw, hdrive⟩ := search_start hl ha hs hm
  have hfuel : 64 = (24 - k + 40) + k := by omega
  unfold Found
  rw [hfuel, hdrive]
  exact rate_found ha hs hm hb hfirst hbounds.2 hw hbounds.1 (by omega) (by omega)

theorem search_refused (hl : p.lowest = 1) (htop : input.top ≤ 6) (ha : input.Accepted p)
    (hs : s.Suits p input) (hm : s.Answers p input receipts answer)
    (hnone : ∀ r, 1 ≤ r → r ≤ input.top → ¬ s.viable r 128) :
    drive p answer 64 { input } = some (.error .Bandwidth) := by
  obtain ⟨k, w, hk, hprobes, hw, hdrive⟩ := search_start hl ha hs hm
  have hfuel : 64 = (63 - k + 1) + k := by omega
  rw [hfuel, hdrive]
  exact rate_refused ha hs hm hnone hw (by omega) (by omega)

/-- More fuel does not change a result. -/
theorem drive_mono {m : Nat} {result : Except Error Work} (h : drive p answer n w = some result)
    (hle : n ≤ m) : drive p answer m w = some result := by
  induction n generalizing w m with
  | zero => cases h
  | succ n ih =>
    obtain ⟨m, rfl⟩ : ∃ k, m = k + 1 := ⟨m - 1, by omega⟩
    rw [drive] at h ⊢
    split at h
    · exact h
    · rename_i w' _
      by_cases hs : w'.stage = .complete
      · rw [if_pos hs] at h ⊢
        exact h
      · rw [if_neg hs] at h ⊢
        exact ih h (Nat.le_of_succ_le_succ hle)

/-! ## Sums in range -/

/-- What is relied on of the EDID package: a valid clock has a denominator, and an FRL link has up to
four lanes of up to 12 gigabits. -/
structure Package.Regular (p : Package) : Prop where
  lowest : p.lowest = 1
  valid : ∀ clock, p.valid clock = true → clock.denominator ≠ 0
  lanes : ∀ rate, p.lanes rate ≤ 4
  gigabits : ∀ rate, p.gigabits rate ≤ 12

/-- The fields are of the source's types: a clock has two `u64`, and a link rate is one of seven. -/
structure Input.Typed (input : Input) : Prop where
  numerator : input.clock.numerator < 2 ^ 64
  denominator : input.clock.denominator < 2 ^ 64
  maximum : input.maximum ≤ 6

/-- The layout is one that was checked. -/
structure Work.Sized (w : Work) : Prop where
  slices : w.slices ≤ 16
  width : w.sliceWidth ≤ 2720

/-- The sums of a call, each where its tests have passed, stay in their integers. -/
structure Work.Sums (p : Package) (w : Work) (data : List Byte) : Prop where
  depth : 1 ≤ w.input.bpc * 48 ∧ w.input.bpc * 48 < 2 ^ 16
  denominator : w.input.clock.denominator * 10000 ≠ 0 ∧ w.input.clock.denominator * 10000 < 2 ^ 128
  pclk : 1 ≤ w.input.clock.numerator + w.input.clock.denominator * 10000 ∧
    w.input.clock.numerator + w.input.clock.denominator * 10000 < 2 ^ 128
  /-- The slices of a layout. -/
  cover : num data 52 ≠ 0 → num data 52 ≤ 2720 → 1 ≤ w.input.width + num data 52 ∧
    w.input.width + num data 52 < 2 ^ 32
  slices : w.slices < 2 ^ 8
  width : w.sliceWidth < 2 ^ 16
  probes : w.probes < 64 → w.probes + 1 < 2 ^ 8
  blank : w.input.width ≤ w.input.total
  payload : p.lanes w.rate * p.gigabits w.rate * 1000000000 < 2 ^ 64
  /-- A rate that is read or counted up is a link rate. -/
  rates : w.maximum ≤ 6
  capacity : ∀ expected, w.stage = .capacity → w.encode p 132 = .ok expected →
    (w.rate ≠ w.maximum → w.rate + 1 ≤ w.maximum) ∧ w.bpp + 15 < 2 ^ 16 ∧ 16 ≤ w.bpp ∧
      1 ≤ w.input.width + w.sliceWidth ∧ w.input.width + w.sliceWidth < 2 ^ 64

theorem take_sized (h : w.Sized) : (w.take p expected data).2.Sized := by
  unfold Work.take
  split
  · unfold Work.takeSource
    split
    · exact h
    · split
      · exact h
      · dsimp only
        split <;> exact ⟨h.slices, h.width⟩
  · unfold Work.takeLayout
    split
    · exact h
    · split
      · exact h
      · dsimp only
        split
        · exact h
        · have hnew : num data 48 ≤ 16 ∧ num data 52 ≤ 2720 := by omega
          split
          · split <;> exact ⟨hnew.1, hnew.2⟩
          · exact ⟨hnew.1, hnew.2⟩
  · unfold Work.takePrecalc
    split
    · exact h
    · split <;> exact ⟨h.slices, h.width⟩
  · unfold Work.takePreconfig
    split
    · exact h
    · split
      · exact ⟨h.slices, h.width⟩
      · split
        · exact h
        · exact ⟨h.slices, h.width⟩
  · unfold Work.takeCapacity
    split
    · exact h
    · split
      · exact h
      · split
        · exact h
        · split
          · split
            · rename_i w₁ hraise
              rcases raise_some hraise with ⟨-, rfl⟩ | ⟨-, -, rfl⟩ <;> exact ⟨h.slices, h.width⟩
            · rcases hfinish : w.finish p data with ⟨e | u, w'⟩
              · exact finish_error hfinish ▸ h
              · obtain ⟨plan, -, rfl⟩ := finish_ok hfinish
                exact ⟨h.slices, h.width⟩
          · rcases hlower : w.lower with ⟨e | u, w'⟩
            · exact lower_error hlower ▸ h
            · rcases lower_ok hlower with ⟨-, -, rfl⟩ | ⟨-, -, rfl⟩ | ⟨-, -, rfl⟩ <;>
                exact ⟨h.slices, h.width⟩
  · exact h

theorem sized_run {h : List Answered} (hr : Run (Work.step p) { input } h w) : w.Sized := by
  refine hr.invariant (P := fun _ w => w.Sized) ⟨Nat.zero_le _, Nat.zero_le _⟩ fun h w op out w' hw hstep => ?_
  unfold Work.step Work.consume at hstep
  split at hstep
  · cases hstep
    exact hw
  · split at hstep
    · cases hstep
      exact hw
    · split at hstep
      · cases hstep
        exact hw
      · rename_i expected _ _
        have hsized : (w.take p expected op.1).2.Sized := take_sized hw
        split at hstep
        · rename_i htake
          cases hstep
          rw [htake] at hsized
          exact hsized
        · rename_i htake
          cases hstep
          rw [htake] at hsized
          exact ⟨hsized.slices, hsized.width⟩

/-- In every run the sums of the next call are in range. -/
theorem Sound.sums {h : List Answered} (hp : p.Regular) (hi : input.Typed) (ha : input.Accepted p)
    (hw : Sound p input h w) (hsized : w.Sized) (data : List Byte) : w.Sums p data := by
  have hdenominator := hp.valid _ ha.clock
  have hnumerator := hi.numerator
  have hdenominator' := hi.denominator
  have hwidth := ha.width
  have htotal := ha.total
  have hslices := hsized.slices
  have hslice := hsized.width
  have hbpc : input.bpc = 8 ∨ input.bpc = 10 := ha.bpc.1
  have hdeep := (maxBpp_bounds ha.bpc).2
  have hown := hw.own
  have htop : w.maximum ≤ 6 := by
    rw [show w.maximum = input.top from congrArg Input.top hown]
    exact (min_le_left _ _).trans hi.maximum
  refine ⟨?_, ?_, ?_, ?_, by omega, by omega, fun _ => by omega, ?_, ?_, htop, ?_⟩
  · rw [hown]
    omega
  · rw [hown]
    omega
  · rw [hown]
    omega
  · rw [hown]
    omega
  · rw [hown]
    omega
  · calc
      p.lanes w.rate * p.gigabits w.rate * 1000000000 ≤ 4 * 12 * 1000000000 :=
        Nat.mul_le_mul_right _ (Nat.mul_le_mul (hp.lanes _) (hp.gigabits _))
      _ < 2 ^ 64 := by decide
  · intro expected hs he
    have hwin := encode_capacity hs he
    have hmax : w.maxBpp = input.maxBpp := congrArg Input.maxBpp hown
    rw [hown]
    omega

/-! ## The search is exact -/

/-- The rates and the depths that the search looks among. -/
def Setup.rates (s : Setup) (input : Input) : Set Nat := {r | 1 ≤ r ∧ r ≤ input.top ∧ s.viable r 128}

def Setup.depths (s : Setup) (input : Input) (rate : Nat) : Set Nat :=
  {b | 128 ≤ b ∧ b ≤ input.maxBpp ∧ s.viable rate b}

theorem Best.isGreatest {rate best : Nat} (hb : Best s input rate best) :
    IsGreatest (s.depths input rate) best :=
  ⟨⟨hb.bounds.1, hb.bounds.2, (hb.viable best hb.bounds.1 hb.bounds.2).mpr le_rfl⟩,
    fun b ⟨hlow, hhigh, hv⟩ => (hb.viable b hlow hhigh).mp hv⟩

theorem search_least {least : Nat} (hp : p.Regular) (hi : input.Typed) (ha : input.Accepted p)
    (hs : s.Suits p input) (hm : s.Answers p input receipts answer)
    (hleast : IsLeast (s.rates input) least) : ∃ best, IsGreatest (s.depths input least) best ∧
      Found p answer 64 { input } least best := by
  have hdeep := (maxBpp_bounds ha.bpc).1
  obtain ⟨⟨hone, htop, hv⟩, hmin⟩ := hleast
  obtain ⟨best, hb⟩ := best_exists hs (by omega) hv
  refine ⟨best, hb.isGreatest, search_found hp.lowest ((min_le_left _ _).trans hi.maximum) ha hs hm hb
    ⟨hone, htop⟩ fun r hr hlt hviable => ?_⟩
  exact absurd (hmin ⟨hr, by omega, hviable⟩) (not_le.mpr hlt)

theorem search_bandwidth (hp : p.Regular) (hi : input.Typed) (ha : input.Accepted p)
    (hs : s.Suits p input) (hm : s.Answers p input receipts answer) :
    drive p answer 64 { input } = some (.error .Bandwidth) ↔
      ∀ r, 1 ≤ r → r ≤ input.top → ¬ s.viable r 128 := by
  refine ⟨fun h => ?_, search_refused hp.lowest ((min_le_left _ _).trans hi.maximum) ha hs hm⟩
  by_contra hsome
  simp only [not_forall, not_not, exists_prop] at hsome
  obtain ⟨r, hone, htop, hv⟩ := hsome
  have hne : ∃ r, 1 ≤ r ∧ r ≤ input.top ∧ s.viable r 128 := ⟨r, hone, htop, hv⟩
  have hleast : IsLeast (s.rates input) (Nat.find hne) :=
    ⟨Nat.find_spec hne, fun _ h => Nat.find_min' hne h⟩
  obtain ⟨best, -, w', plan, hdrive, -⟩ := search_least hp hi ha hs hm hleast
  rw [h] at hdrive
  cases hdrive

/-- The branch of the 65th call is not reached. -/
theorem search_not_stale (hp : p.Regular) (hi : input.Typed) (ha : input.Accepted p)
    (hs : s.Suits p input) (hm : s.Answers p input receipts answer) (n : Nat) :
    drive p answer n { input } ≠ some (.error .Stale) := by
  intro hstale
  have hmax := drive_mono hstale (le_max_left n 64)
  by_cases hne : ∃ r, 1 ≤ r ∧ r ≤ input.top ∧ s.viable r 128
  · have hleast : IsLeast (s.rates input) (Nat.find hne) :=
      ⟨Nat.find_spec hne, fun _ h => Nat.find_min' hne h⟩
    obtain ⟨best, -, w', plan, hdrive, -⟩ := search_least hp hi ha hs hm hleast
    have := drive_mono hdrive (le_max_right n 64)
    rw [hmax] at this
    cases this
  · simp only [not_exists, not_and] at hne
    have := drive_mono ((search_bandwidth hp hi ha hs hm).mpr hne) (le_max_right n 64)
    rw [hmax] at this
    cases this

/-- The search for a compressed link. For any answers, the sums of every call are in range, a result is
a probe that was answered possible, and the search ends. For a resource manager that answers by a
viable set, it ends with the least viable rate and its greatest viable depth, or with `Bandwidth`
where there is none, and never with `Stale`. -/
theorem search_exact (hp : p.Regular) (hi : input.Typed) (ha : input.Accepted p) :
    (∀ h w, Run (Work.step p) { input } h w → (∀ data, w.Sums p data) ∧
      ∀ plan, w.result = some plan → plan.rate = w.rate ∧
        (1 ≤ w.rate ∧ w.rate ≤ min input.maximum input.receiver.maxFrl) ∧
        (128 ≤ w.bpp ∧ w.bpp ≤ input.maxBpp) ∧ ∃ e ∈ h, Proved p e w.rate w.bpp) ∧
    (∀ answer, ∃ result, drive p answer 65 { input } = some result) ∧
    ∀ (s : Setup) receipts answer, s.Suits p input → s.Answers p input receipts answer →
      (∀ least, IsLeast (s.rates input) least → ∃ best, IsGreatest (s.depths input least) best ∧
        Found p answer 64 { input } least best) ∧
      (drive p answer 64 { input } = some (.error .Bandwidth) ↔
        ∀ r, 1 ≤ r → r ≤ input.top → ¬ s.viable r 128) ∧
      ∀ n, drive p answer n { input } ≠ some (.error .Stale) := by
  refine ⟨fun h w hr => ?_, fun answer => drive_ends answer (Nat.zero_le _) rfl,
    fun s receipts answer hs hm => ⟨fun least hleast => search_least hp hi ha hs hm hleast,
      search_bandwidth hp hi ha hs hm, search_not_stale hp hi ha hs hm⟩⟩
  have hsound := sound_run hp.lowest ha hr
  exact ⟨fun data => hsound.sums hp hi ha (sized_run hr) data, hsound.result⟩

/-! ## A manager for a 2160p picture -/

theorem length_fields {fields : List (Nat × Word)} (hf : Fields 132 fields) :
    (putAll (List.replicate 132 0) fields).length = 132 := by
  rw [length_putAll (by rwa [List.length_replicate]), List.length_replicate]

theorem timed_length {before between after : List (Nat × Word)} (h : input.timed before between after = .ok data)
    (hf : Fields 132 (before ++ [field 12 input.pclk, field 16 input.total, field 20 input.width,
      field 24 input.bpc, field 36 2, field 40 48] ++ between ++
      [field 56 (input.receiver.maxChunkBytes / 1024)] ++ after)) : data.length = 132 := by
  unfold Input.timed at h
  split at h
  · cases h
  · rw [← Except.ok.inj h]
    exact length_fields hf

theorem encode_length (hs : w.stage ≠ .source) (h : w.encode p 132 = .ok expected) :
    expected.length = 132 := by
  unfold Work.encode at h
  dsimp only at h
  split at h
  · cases h
  · cases hstage : w.stage with
    | source => exact absurd hstage hs
    | layout =>
      rw [hstage] at h
      exact timed_length h (by simp [Fields, field])
    | precalc =>
      rw [hstage] at h
      rw [← Except.ok.inj h]
      exact length_fields (by simp [Fields, field])
    | preconfig =>
      rw [hstage] at h
      rw [← Except.ok.inj h]
      exact length_fields (by simp [Fields, field])
    | capacity =>
      rw [hstage] at h
      dsimp only at h
      split at h
      · cases h
      · exact timed_length h (by simp [Fields, field])
    | complete =>
      rw [hstage] at h
      cases h

theorem same_of {a b : Nat} (hl : data.length = expected.length)
    (h : ∀ i, a ≤ i → i < b → data.getD i 0 = expected.getD i 0) : same data expected a b := by
  refine List.ext_getElem (by simp [hl]) fun i h₁ h₂ => ?_
  simp only [List.length_take, List.length_drop] at h₁ h₂
  have heq := h (a + i) (by omega) (by omega)
  rw [List.getD_eq_getElem?_getD, List.getD_eq_getElem?_getD, List.getElem?_eq_getElem (by omega),
    List.getElem?_eq_getElem (by omega)] at heq
  simpa using heq

/-- A blit leaves the ranges beside it. -/
theorem same_blit {a b o : Nat} {src : List Byte} (hl : o + src.length ≤ expected.length)
    (h : b ≤ o ∨ o + src.length ≤ a) : same (blit expected o src) expected a b := by
  refine same_of (length_blit hl) fun i ha hb => ?_
  rw [getD_blit hl, if_neg (by omega)]

theorem at_blit {i o : Nat} {src : List Byte} (hl : o + src.length ≤ expected.length)
    (h : i < src.length) : at_ (blit expected o src) (o + i) = at_ src i := by
  unfold at_
  rw [getD_blit hl, if_pos (by omega), Nat.add_sub_cancel_left]

theorem num_blit {i o : Nat} {src : List Byte} (hl : o + src.length ≤ expected.length)
    (h : i + 4 ≤ src.length) : num (blit expected o src) (o + i) = num src i := by
  unfold num
  rw [word_congr fun k hk => ?_]
  rw [Nat.add_assoc, getD_blit hl, if_pos (by omega), Nat.add_sub_cancel_left]

def uhdPackage : Package where
  valid clock := decide (clock.denominator ≠ 0)
  lanes rate := if rate ≤ 2 then 3 else 4
  gigabits rate := if rate ≤ 1 then 3 else if rate ≤ 3 then 6 else if rate = 4 then 8 else if rate = 5 then 10 else 12
  lowest := 1
  generate := Pps.generate

def uhd : Input where
  clock := { numerator := 594000000, denominator := 1 }
  width := 3840
  height := 2160
  total := 4400
  bpc := 8
  vic := 97
  receiver := { advertised := true, supportedFields := true, bpcMask := 1, maxFrl := 6, maxSlices := 8
                maxChunkBytes := 8192, maxSliceClockMhz := 340 }
  maximum := 3

def uhdSetup : Setup where
  source := { advertised := true, usable := true, formats := 1, lineBufferPixels := 4096
              rateBufferBytes := 8192, bppIncrementX16 := 1, maxSlices := 4, lineBufferBits := 13 }
  slices := 4
  width := 960
  viable rate bpp := decide (2 ≤ rate ∧ bpp ≤ 150)

def uhdReply (w : Work) (expected : List Byte) : List Byte :=
  match w.stage with
  | .source => blit expected 36 ([1, 1, 4, 8, 1, 4, 13].flatMap le32)
  | .layout => blit (blit expected 48 (le32 4 ++ le32 960)) 128 [1]
  | .precalc => blit expected 116 [1]
  | .preconfig => blit expected 108 (le32 7)
  | _ =>
    let flag : Byte := if uhdSetup.viable w.rate w.bpp then 1 else 0
    blit expected 60 (le32 0 ++ le32 0 ++ [flag, flag, flag, flag, flag, 0, 0, 0] ++ le32 0 ++ le32 4320 ++
      le32 6000 ++ le32 100 ++ le32 50)

def uhdAnswer (w : Work) : List Byte × Nat :=
  (match w.encode uhdPackage 132 with
    | .error _ => []
    | .ok expected => uhdReply w expected, w.probes + 1)

theorem uhdAnswer_ok (h : w.encode uhdPackage 132 = .ok expected) : (uhdAnswer w).1 = uhdReply w expected := by
  unfold uhdAnswer
  rw [h]

theorem uhd_accepted : uhd.Accepted uhdPackage := by
  constructor <;> decide

theorem uhd_regular : uhdPackage.Regular where
  lowest := rfl
  valid _ h := of_decide_eq_true h
  lanes rate := by
    show (if rate ≤ 2 then 3 else 4) ≤ 4
    split <;> decide
  gigabits rate := by
    show (if rate ≤ 1 then 3 else if rate ≤ 3 then 6 else if rate = 4 then 8 else if rate = 5 then 10 else 12) ≤ 12
    split_ifs <;> decide

/-- A probe of the picture. -/
def uhdProbe (rate bpp : Nat) : Request where
  clock := uhd.clock
  width := 3840
  height := 2160
  hblank := 560
  bpc := 8
  source := uhdSetup.source
  receiver := uhd.receiver
  rate
  bppX16 := bpp
  sliceWidth := 960
  slices := 4

/-- The generator takes a probe, with chunks that the receiver stores. -/
def takes (r : Request) : Bool :=
  match Pps.generate (r.generate uhdPackage) with
  | .error _ => false
  | .ok plan => decide (plan.chunkBytes * plan.slices ≤ r.receiver.maxChunkBytes)

theorem uhd_takes : ∀ i < 2, ∀ j < 23, takes (uhdProbe (2 + i) (128 + j)) = true := by
  decide +kernel

example : (Pps.generate ((uhdProbe 2 150).generate uhdPackage)).toOption.map (fun plan =>
    (plan.slices, plan.sliceHeight, plan.chunkBytes, plan.rcBufferBytes)) = some (4, 2160, 1125, 1024) := by
  decide +kernel

theorem uhd_suits : uhdSetup.Suits uhdPackage uhd where
  fixed := rfl
  pclk := by decide
  usable := rfl
  increment := rfl
  slices := by decide
  width := by decide
  cover := by decide
  lower rate bpp bpp' _ hle hv := by
    simp only [uhdSetup, decide_eq_true_eq] at hv ⊢
    omega
  generate w hw hsource hslices hwidth hrate hbpp hviable := by
    have hviable : 2 ≤ w.rate ∧ w.bpp ≤ 150 := of_decide_eq_true hviable
    have hrate : w.rate ≤ 3 := hrate.2
    have hprobe : w.request = uhdProbe w.rate w.bpp := by
      unfold Work.request
      rw [hw, hsource, hslices, hwidth]
      rfl
    have htakes := uhd_takes (w.rate - 2) (by omega) (w.bpp - 128) (by omega)
    rw [show 2 + (w.rate - 2) = w.rate by omega, show 128 + (w.bpp - 128) = w.bpp by omega] at htakes
    rw [hprobe]
    unfold takes at htakes
    split at htakes
    · cases htakes
    · rename_i plan hplan
      have hslices : plan.slices = (3840 + 960 - 1) / 960 := Pps.generate_slices hplan
      exact ⟨plan, hplan, hslices, of_decide_eq_true htakes⟩

theorem encode_source (hs : w.stage = .source) (h : w.encode p 132 = .ok expected) :
    expected = List.replicate 64 0 := by
  unfold Work.encode at h
  dsimp only at h
  split at h
  · cases h
  · rw [hs] at h
    exact (Except.ok.inj h).symm

theorem uhdReply_probed (hs : w.stage = .capacity) (hl : expected.length = 132) :
    Probed w expected (uhdReply w expected) (uhdSetup.viable w.rate w.bpp) := by
  unfold uhdReply
  rw [hs]
  dsimp only
  generalize hv : uhdSetup.viable w.rate w.bpp = viable
  generalize hsrc : (le32 0 ++ le32 0 ++ [_, _, _, _, _, 0, 0, 0] ++ le32 0 ++ le32 4320 ++ le32 6000 ++
    le32 100 ++ le32 50 : List Byte) = src
  have hlen : src.length = 36 := by rw [← hsrc]; rfl
  have hfit : 60 + src.length ≤ expected.length := by omega
  have hat (i : Nat) (hi : i < 5) : at_ (blit expected 60 src) (68 + i) = if viable then 1 else 0 := by
    rw [show 68 + i = 60 + (8 + i) by omega, at_blit hfit (by omega), ← hsrc]
    cases viable <;> (revert i; decide)
  have hnum (i : Nat) (hi : i + 4 ≤ 36) : num (blit expected 60 src) (60 + i) = num src i :=
    num_blit hfit (by omega)
  refine ⟨⟨same_blit hfit (.inl le_rfl), same_blit hfit (.inr (by omega))⟩, ?_, ?_, ?_, ?_, ?_, ?_, ?_⟩
  · intro i hi
    rw [hat i hi]
    split <;> decide
  · rw [hnum 0 (by decide), ← hsrc]
    left
    cases viable <;> decide
  · rw [hnum 4 (by decide), ← hsrc]
    left
    cases viable <;> decide
  · constructor
    · intro h
      have := h 0 (by decide)
      rw [hat 0 (by decide)] at this
      cases viable
      · cases this
      · rfl
    · intro h i hi
      rw [hat i hi, if_pos h]
  · rw [hnum 20 (by decide), ← hsrc]
    cases viable <;> decide
  · rw [hnum 24 (by decide), ← hsrc]
    cases viable <;> decide
  · rw [hnum 28 (by decide), hnum 32 (by decide), ← hsrc]
    cases viable <;> decide

theorem uhd_answers : uhdSetup.Answers uhdPackage uhd (fun n => n + 1) uhdAnswer where
  strict _ _ h := Nat.succ_lt_succ h
  positive := Nat.one_pos
  receipt _ := rfl
  length w expected _ he := by
    rw [uhdAnswer_ok he]
    cases hs : w.stage with
    | source =>
      rw [encode_source hs he, uhdReply, hs]
      rfl
    | layout =>
      have hl := encode_length (by rw [hs]; nofun) he
      have hinner : (blit expected 48 (le32 4 ++ le32 960)).length = expected.length :=
        length_blit (by rw [hl]; decide)
      rw [uhdReply, hs]
      exact (length_blit (by rw [hinner, hl]; decide)).trans hinner
    | precalc | preconfig | capacity =>
      rw [uhdReply, hs]
      exact length_blit (by rw [encode_length (by rw [hs]; nofun) he]; exact Nat.le_of_ble_eq_true rfl)
    | complete =>
      rw [encode_complete hs] at he
      cases he
  source w expected _ he hs := by
    rw [uhdAnswer_ok he, encode_source hs he]
    unfold uhdReply
    rw [hs]
    dsimp only
    decide
  layout w expected _ he hs := by
    have hl := encode_length (by rw [hs]; nofun) he
    have hfit : 48 + (le32 4 ++ le32 960).length ≤ expected.length := by rw [hl]; decide
    have hfit' : 128 + ([1] : List Byte).length ≤ (blit expected 48 (le32 4 ++ le32 960)).length := by
      rw [length_blit hfit, hl]
      decide
    rw [uhdAnswer_ok he]
    unfold uhdReply
    rw [hs]
    refine ⟨(same_blit hfit' (.inl (by decide))).trans (same_blit hfit (.inl le_rfl)),
      (same_blit hfit' (.inl le_rfl)).trans (same_blit hfit (.inr le_rfl)),
      at_blit (i := 0) hfit' (by decide), ?_, ?_⟩
    · unfold num
      rw [word_blit_of_disjoint hfit' (.inl (by decide))]
      exact num_blit (i := 0) hfit (by decide)
    · unfold num
      rw [word_blit_of_disjoint hfit' (.inl (by decide))]
      exact num_blit (i := 4) hfit (by decide)
  precalc w expected _ he hs := by
    have hl := encode_length (by rw [hs]; nofun) he
    have hfit : 116 + ([1] : List Byte).length ≤ expected.length := by rw [hl]; decide
    rw [uhdAnswer_ok he]
    unfold uhdReply
    rw [hs]
    exact ⟨same_blit hfit (.inl (by decide)), same_blit hfit (.inr (by decide)),
      (at_blit (i := 0) hfit (by decide)).trans_le le_rfl⟩
  preconfig w expected _ he hs := by
    have hl := encode_length (by rw [hs]; nofun) he
    have hfit : 108 + (le32 7).length ≤ expected.length := by rw [hl]; decide
    rw [uhdAnswer_ok he]
    unfold uhdReply
    rw [hs]
    exact ⟨same_blit hfit (.inl le_rfl), same_blit hfit (.inr (by decide)),
      num_blit (i := 0) hfit le_rfl⟩
  capacity w expected _ he hs := by
    rw [uhdAnswer_ok he]
    exact uhdReply_probed hs (encode_length (by rw [hs]; nofun) he)

/-- A manager that answers by a viable set: rate 2 is the least at 128, and 150 its greatest depth. -/
theorem search_exact_uhd : Found uhdPackage uhdAnswer 64 { input := uhd } 2 150 := by
  have hexact := (search_exact uhd_regular ⟨by decide, by decide, by decide⟩ uhd_accepted).2.2 uhdSetup
    (fun n => n + 1) uhdAnswer uhd_suits uhd_answers
  have hviable : ∀ rate bpp, uhdSetup.viable rate bpp ↔ 2 ≤ rate ∧ bpp ≤ 150 := fun _ _ => decide_eq_true_iff
  obtain ⟨best, hbest, hfound⟩ := hexact.1 2
    ⟨⟨by decide, by decide, by decide⟩, fun r hr => ((hviable r 128).mp hr.2.2).1⟩
  have heq : best = 150 := hbest.unique
    ⟨⟨by decide, by decide, by decide⟩, fun b hb => ((hviable 2 b).mp hb.2.2).2⟩
  exact heq ▸ hfound

end Hdmi
end NvidiaGsp
