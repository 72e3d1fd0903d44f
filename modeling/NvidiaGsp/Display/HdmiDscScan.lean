import NvidiaGsp.Display.HdmiDscSpec

/-!
# Display.HdmiDscScan

The search as its caller drives it: one answer after another, until a call fails or the work is
complete. It ends for any answers (`drive_ends`). When the resource manager answers by a fixed set of
viable rates and depths, closed under lowering the depth, the search is exact: the scan of the rates
stops at the least one viable at 128, the coarse scan keeps the greatest viable depth less than 16
above its probe, and the fine scan walks down to it.
-/

namespace NvidiaGsp
namespace Hdmi

open Bytes
open Mst.Payload (Clock DscSource)

/-- The driver of the work; `answer` gives an answer of the resource manager and its receipt. -/
def drive (p : Package) (answer : Work → List Byte × Nat) : Nat → Work → Option (Except Error Work)
  | 0, _ => none
  | n + 1, w =>
    match w.consume p (answer w).1 (answer w).2 with
    | (.error e, _) => some (.error e)
    | (.ok (), w') => if w'.stage = .complete then some (.ok w') else drive p answer n w'

variable {p : Package} {answer : Work → List Byte × Nat} {w w' w₁ : Work} {n : Nat} {e : Error}
  {expected data : List Byte} {receipt : Nat} {input : Input}

theorem drive_error (h : w.consume p (answer w).1 (answer w).2 = (.error e, w')) :
    drive p answer (n + 1) w = some (.error e) := by
  rw [drive, h]

theorem drive_next (h : w.consume p (answer w).1 (answer w).2 = (.ok (), w'))
    (hs : w'.stage ≠ .complete) : drive p answer (n + 1) w = drive p answer n w' := by
  rw [drive, h]
  exact if_neg hs

theorem drive_last (h : w.consume p (answer w).1 (answer w).2 = (.ok (), w'))
    (hs : w'.stage = .complete) : drive p answer (n + 1) w = some (.ok w') := by
  rw [drive, h]
  exact if_pos hs

theorem Taken.probes (h : Taken p w expected data w₁) : w₁.probes = w.probes := by
  cases h with
  | source => rfl
  | layout => rfl
  | saved => rfl
  | precalc => rfl
  | start => rfl
  | preconfig => rfl
  | raise _ h => rcases raise_some h with ⟨-, rfl⟩ | ⟨-, -, rfl⟩ <;> rfl
  | finish _ _ _ h =>
    obtain ⟨_, -, rfl⟩ := finish_ok h
    rfl
  | lower _ h => rcases lower_ok h with ⟨-, -, rfl⟩ | ⟨-, -, rfl⟩ | ⟨-, -, rfl⟩ <;> rfl

/-- Whatever is answered, the search ends: each success is a probe, and the 65th call is refused. -/
theorem drive_ends (answer : Work → List Byte × Nat) (hw : w.probes ≤ 64) (hn : w.probes + n = 65) :
    ∃ result, drive p answer n w = some result := by
  induction n generalizing w with
  | zero => omega
  | succ n ih =>
    rcases hc : w.consume p (answer w).1 (answer w).2 with ⟨e | u, w'⟩
    · exact ⟨_, drive_error hc⟩
    · obtain ⟨expected, w₁, hstep⟩ := consume_ok hc
      have hprobes : w'.probes = w.probes + 1 := by
        rw [hstep.post]
        exact congrArg (· + 1) hstep.taken.probes
      have := hstep.probes
      by_cases hs : w'.stage = .complete
      · exact ⟨_, drive_last hc hs⟩
      · rw [drive_next hc hs]
        exact ih (by omega) (by omega)

/-! ## One call -/

def Work.stamp (w : Work) (receipt : Nat) : Work := { w with receipt, probes := w.probes + 1 }

section Call

variable (hf : w.receipt < receipt) (hp : w.probes < 64) (he : w.encode p 132 = .ok expected)
  (hd : data.length = expected.length)

include hf hp he hd

theorem consume_take (ht : w.take p expected data = (.ok (), w₁)) :
    w.consume p data receipt = (.ok (), w₁.stamp receipt) := by
  unfold Work.consume
  rw [if_neg (by omega), he]
  dsimp only
  rw [if_neg (not_not.mpr hd), ht]
  rfl

theorem consume_refuse (ht : w.take p expected data = (.error e, w₁)) :
    w.consume p data receipt = (.error e, w₁) := by
  unfold Work.consume
  rw [if_neg (by omega), he]
  dsimp only
  rw [if_neg (not_not.mpr hd), ht]

end Call

theorem Input.Accepted.not_refused (ha : input.Accepted p) : ¬ input.refused p := by
  unfold Input.refused
  have hbpc := ha.bpc
  have hw := ha.width
  have hh := ha.height
  have ht := ha.total
  simp only [ha.clock, ha.advertised, ha.maximum, ha.chunk, hbpc, Bool.true_eq_false, false_or,
    not_true_eq_false, ne_eq, or_false]
  omega

/-- An input with a pixel clock in range encodes in every stage. -/
theorem encode_exists (ha : input.Accepted p) (hpclk : input.pclk ≤ 400000) (hw : w.input = input)
    (hs : w.stage ≠ .complete) (hwin : w.stage = .capacity →
      (1 ≤ w.rate ∧ w.rate ≤ input.top) ∧ 128 ≤ w.bpp ∧ w.bpp ≤ input.maxBpp) :
    ∃ expected, w.encode p 132 = .ok expected := by
  have hlen : ¬ 132 < w.length := by
    unfold Work.length
    split <;> decide
  have htimed (before between after : List (Nat × Word)) :
      ∃ bytes, input.timed before between after = .ok bytes := by
    unfold Input.timed
    rw [if_neg (not_lt.mpr hpclk)]
    exact ⟨_, rfl⟩
  unfold Work.encode
  dsimp only
  rw [hw, if_neg (not_or.mpr ⟨hlen, not_or.mpr ⟨hs, ha.not_refused⟩⟩)]
  cases hstage : w.stage with
  | source => exact ⟨_, rfl⟩
  | layout => exact htimed _ _ _
  | precalc => exact ⟨_, rfl⟩
  | preconfig => exact ⟨_, rfl⟩
  | capacity =>
    have hwindow := hwin hstage
    have hmax : w.maximum = input.top := congrArg Input.top hw
    have hbpp : w.maxBpp = input.maxBpp := congrArg Input.maxBpp hw
    dsimp only
    rw [if_neg (by omega)]
    exact htimed _ _ _
  | complete => exact absurd hstage hs

/-! ## A resource manager that answers by a viable set -/

/-- What the encoder, its layout and the PPS generator allow. -/
structure Setup where
  source : DscSource
  slices : Nat
  width : Nat
  viable : Nat → Nat → Bool

/-- The picture fits the encoder, and the generator takes every viable probe. -/
structure Setup.Suits (s : Setup) (p : Package) (input : Input) : Prop where
  fixed : input.fixed = none
  pclk : input.pclk ≤ 400000
  usable : s.source.usable = true
  increment : s.source.bppIncrementX16 = 1
  slices : s.slices ≠ 0 ∧ s.slices ≤ min s.source.maxSlices input.receiver.maxSlices ∧ s.slices ≤ 16
  width : s.width ≠ 0 ∧ s.width ≤ 2720
  cover : (input.width + s.width - 1) / s.width = s.slices
  lower : ∀ rate bpp bpp', 128 ≤ bpp' → bpp' ≤ bpp → s.viable rate bpp → s.viable rate bpp'
  generate : ∀ w : Work, w.input = input → w.source = s.source → w.slices = s.slices →
    w.sliceWidth = s.width → (1 ≤ w.rate ∧ w.rate ≤ input.top) → (128 ≤ w.bpp ∧ w.bpp ≤ input.maxBpp) →
    s.viable w.rate w.bpp → ∃ params, p.generate (w.request.generate p) = .ok params ∧
      params.slices = s.slices ∧ params.chunkBytes * params.slices ≤ input.receiver.maxChunkBytes

/-- An answer to a probe, with result words in range. -/
structure Probed (w : Work) (expected data : List Byte) (viable : Prop) : Prop where
  echo : same data expected 0 60 ∧ same data expected 96 132
  flags : ∀ i < 5, at_ data (68 + i) ≤ 1
  rate : num data 60 = 0 ∨ num data 60 = w.rate
  bpp : num data 64 = 0 ∨ num data 64 = w.bpp
  possible : possible data ↔ viable
  active : num data 80 ≠ 0 ∧ num data 80 ≤ 65535
  triBytes : num data 84 ≠ 0 ∧ num data 84 ≤ 65535
  blank : num data 88 ≤ 65535 ∧ num data 92 ≤ 1000

/-- What the resource manager answers to the works of a search: there is no precomputed configuration,
and a probe is answered by the viable set alone. -/
structure Setup.Answers (s : Setup) (p : Package) (input : Input) (receipts : Nat → Nat)
    (answer : Work → List Byte × Nat) : Prop where
  strict : StrictMono receipts
  positive : 0 < receipts 0
  receipt : ∀ w, (answer w).2 = receipts w.probes
  length : ∀ w expected, w.input = input → w.encode p 132 = .ok expected →
    (answer w).1.length = expected.length
  source : ∀ w expected, w.input = input → w.encode p 132 = .ok expected → w.stage = .source →
    same (answer w).1 expected 0 8 ∧ decodeSource (((answer w).1.drop 36).take 28) = .ok s.source
  layout : ∀ w expected, w.input = input → w.encode p 132 = .ok expected → w.stage = .layout →
    same (answer w).1 expected 0 48 ∧ same (answer w).1 expected 56 128 ∧ at_ (answer w).1 128 = 1 ∧
      num (answer w).1 48 = s.slices ∧ num (answer w).1 52 = s.width
  precalc : ∀ w expected, w.input = input → w.encode p 132 = .ok expected → w.stage = .precalc →
    same (answer w).1 expected 0 108 ∧ same (answer w).1 expected 120 132 ∧ at_ (answer w).1 116 ≤ 1
  preconfig : ∀ w expected, w.input = input → w.encode p 132 = .ok expected → w.stage = .preconfig →
    same (answer w).1 expected 0 108 ∧ same (answer w).1 expected 120 132 ∧ num (answer w).1 108 = 7
  capacity : ∀ w expected, w.input = input → w.encode p 132 = .ok expected → w.stage = .capacity →
    Probed w expected (answer w).1 (s.viable w.rate w.bpp)

/-- The receipt of the last answer is older than the next one. -/
def Fresh (receipts : Nat → Nat) (w : Work) : Prop := w.receipt < receipts w.probes

variable {s : Setup} {receipts : Nat → Nat}

theorem Fresh.stamp (hm : StrictMono receipts) (hp : w₁.probes = w.probes) :
    Fresh receipts (w₁.stamp (receipts w.probes)) := by
  show receipts w.probes < receipts (w₁.probes + 1)
  rw [hp]
  exact hm (Nat.lt_succ_self _)

/-- A work at one of its probes. -/
structure Probing (s : Setup) (input : Input) (receipts : Nat → Nat) (w : Work) (search : Search)
    (rate bpp : Nat) : Prop where
  own : w.input = input
  stage : w.stage = .capacity
  source : w.source = s.source
  slices : w.slices = s.slices
  width : w.sliceWidth = s.width
  fresh : Fresh receipts w
  looks : w.search = search
  atRate : w.rate = rate
  atBpp : w.bpp = bpp
  rates : 1 ≤ rate ∧ rate ≤ input.top
  depths : 128 ≤ bpp ∧ bpp ≤ input.maxBpp

variable {search : Search} {rate bpp : Nat}

theorem take_probed (hw : Probing s input receipts w search rate bpp)
    (hd : Probed w expected data (s.viable rate bpp)) : w.take p expected data =
      if s.viable rate bpp then
        match w.raise with
        | some w => (.ok (), w)
        | none => w.finish p data
      else w.lower := by
  unfold Work.take
  rw [hw.stage]
  dsimp only
  unfold Work.takeCapacity
  have hrate := hd.rate
  have hbpp := hd.bpp
  rw [if_neg (not_or.mpr ⟨not_not.mpr hd.echo.1, not_not.mpr hd.echo.2⟩), if_neg (not_not.mpr hd.flags),
    if_neg (by omega)]
  exact if_congr hd.possible rfl rfl

theorem pps_viable (ha : input.Accepted p) (hs : s.Suits p input)
    (hw : Probing s input receipts w search rate bpp) (hv : s.viable rate bpp) :
    ∃ params, pps p w.request = .ok params := by
  have hmax : input.top ≤ input.receiver.maxFrl := min_le_right _ _
  have hslices := hs.slices
  have hrates := hw.rates
  have hdepths := hw.depths
  obtain ⟨params, hgen, hcount, hchunk⟩ := hs.generate w hw.own hw.source hw.slices hw.width
    (by rw [hw.atRate]; exact hw.rates) (by rw [hw.atBpp]; exact hw.depths)
    (by rw [hw.atRate, hw.atBpp]; exact hv)
  refine ⟨params, ?_⟩
  unfold pps
  dsimp only
  rw [if_neg, if_neg, hgen]
  · dsimp only
    rw [if_neg]
    simp only [Work.request, hw.own, hw.slices, hcount]
    rw [hcount] at hchunk
    omega
  · simp only [Work.request, hw.own, hw.slices, hw.width, hw.atBpp]
    have hcover := hs.cover
    have hwidth := hs.width
    have hchunk' := ha.chunk
    unfold Input.maxBpp at hdepths
    omega
  · simp only [Work.request, hw.own, hw.atRate, ha.advertised, ha.bpc, not_true_eq_false, or_false,
      Bool.true_eq_false, false_or]
    omega

section Probe

variable (ha : input.Accepted p) (hs : s.Suits p input) (hm : s.Answers p input receipts answer)
  (hw : Probing s input receipts w search rate bpp) (hp : w.probes < 64)

include ha hs hm hw

/-- The call of a probe is the answer to it. -/
theorem probe_answered : ∃ expected, w.encode p 132 = .ok expected ∧
    (answer w).1.length = expected.length ∧ Probed w expected (answer w).1 (s.viable rate bpp) := by
  obtain ⟨expected, he⟩ := encode_exists ha hs.pclk hw.own (by rw [hw.stage]; nofun) fun _ => by
    rw [hw.atRate, hw.atBpp]
    exact ⟨hw.rates, hw.depths⟩
  have hprobed := hm.capacity w expected hw.own he hw.stage
  rw [hw.atRate, hw.atBpp] at hprobed
  exact ⟨expected, he, hm.length w expected hw.own he, hprobed⟩

include hp

theorem probe_raise (hv : s.viable rate bpp) (hr : w.raise = some w₁) :
    w.consume p (answer w).1 (answer w).2 = (.ok (), w₁.stamp (receipts w.probes)) := by
  obtain ⟨expected, he, hl, hd⟩ := probe_answered ha hs hm hw
  have hf := hw.fresh
  rw [hm.receipt]
  refine consume_take hf hp he hl ?_
  rw [take_probed hw hd, if_pos hv, hr]

theorem probe_lower (hv : ¬ s.viable rate bpp) (hr : w.lower = (.ok (), w₁)) :
    w.consume p (answer w).1 (answer w).2 = (.ok (), w₁.stamp (receipts w.probes)) := by
  obtain ⟨expected, he, hl, hd⟩ := probe_answered ha hs hm hw
  have hf := hw.fresh
  rw [hm.receipt]
  refine consume_take hf hp he hl ?_
  rw [take_probed hw hd, if_neg hv, hr]

theorem probe_refuse (hv : ¬ s.viable rate bpp) (hr : w.lower = (.error e, w₁)) :
    w.consume p (answer w).1 (answer w).2 = (.error e, w₁) := by
  obtain ⟨expected, he, hl, hd⟩ := probe_answered ha hs hm hw
  have hf := hw.fresh
  rw [hm.receipt]
  refine consume_refuse hf hp he hl ?_
  rw [take_probed hw hd, if_neg hv, hr]

/-- The last probe: the work completes with a plan of its rate and depth. -/
theorem probe_finish (hv : s.viable rate bpp) (hr : w.raise = none) :
    ∃ w' plan, w.consume p (answer w).1 (answer w).2 = (.ok (), w') ∧ w'.stage = .complete ∧
      w'.result = some plan ∧ plan.rate = rate ∧ w'.rate = rate ∧ w'.bpp = bpp := by
  obtain ⟨expected, he, hl, hd⟩ := probe_answered ha hs hm hw
  obtain ⟨params, hparams⟩ := pps_viable ha hs hw hv
  have hf := hw.fresh
  have hactive := hd.active
  have htri := hd.triBytes
  have hblank := hd.blank
  rw [hm.receipt]
  let data := (answer w).1
  let plan : Plan := ⟨params, w.rate, num data 80, num data 84, num data 88, num data 92⟩
  let done : Work := { w with result := some plan, triBytesBorrowed := num data 76, stage := .complete }
  have htake : w.take p expected data = (.ok (), done) := by
    rw [take_probed hw hd, if_pos hv, hr]
    dsimp only
    unfold Work.finish
    rw [hparams]
    dsimp only
    rw [if_neg (by omega), if_neg]
    rw [hw.own, hs.fixed]
    exact Bool.false_ne_true
  exact ⟨_, plan, consume_take hf hp he hl htake, rfl, rfl, hw.atRate, hw.atRate, hw.atBpp⟩

end Probe

/-! ## The scans -/

/-- The search has found this rate and this depth. -/
def Found (p : Package) (answer : Work → List Byte × Nat) (n : Nat) (w : Work) (rate bpp : Nat) : Prop :=
  ∃ w' plan, drive p answer n w = some (.ok w') ∧ w'.stage = .complete ∧ w'.result = some plan ∧
    plan.rate = rate ∧ w'.rate = rate ∧ w'.bpp = bpp

/-- The greatest viable depth of a rate: the viable depths are those up to it. -/
structure Best (s : Setup) (input : Input) (rate best : Nat) : Prop where
  bounds : 128 ≤ best ∧ best ≤ input.maxBpp
  viable : ∀ bpp, 128 ≤ bpp → bpp ≤ input.maxBpp → (s.viable rate bpp ↔ bpp ≤ best)

theorem best_exists {rate : Nat} (hs : s.Suits p input) (hdepth : 128 ≤ input.maxBpp)
    (hv : s.viable rate 128) : ∃ best, Best s input rate best := by
  let best := Nat.findGreatest (fun bpp => 128 ≤ bpp ∧ s.viable rate bpp) input.maxBpp
  have hspec : 128 ≤ best ∧ s.viable rate best :=
    Nat.findGreatest_spec (P := fun bpp => 128 ≤ bpp ∧ s.viable rate bpp) hdepth ⟨le_rfl, hv⟩
  refine ⟨best, ⟨hspec.1, Nat.findGreatest_le _⟩, fun bpp hlow hhigh => ⟨fun h => ?_, fun h => ?_⟩⟩
  · exact Nat.le_findGreatest hhigh ⟨hlow, h⟩
  · exact hs.lower rate best bpp hlow h hspec.2

section Scan

variable {best : Nat} (ha : input.Accepted p) (hs : s.Suits p input)
  (hm : s.Answers p input receipts answer)

include ha hs hm

/-- The search is over at a viable probe with nowhere to go. -/
theorem last_found (hw : Probing s input receipts w search rate bpp) (hp : w.probes < 64)
    (hv : s.viable rate bpp) (hr : w.raise = none) : Found p answer (n + 1) w rate bpp := by
  obtain ⟨w', plan, hc, hdone, hres⟩ := probe_finish ha hs hm hw hp hv hr
  exact ⟨w', plan, drive_last hc hdone, hdone, hres⟩

/-- A probe of the fine scan is at or above the greatest viable depth, and comes down by one. -/
theorem fine_found (hb : Best s input rate best) (hw : Probing s input receipts w .fine rate bpp)
    (hle : best ≤ bpp) (hn : bpp ≤ best + n) (hp : w.probes + (n + 1) ≤ 64) :
    Found p answer (n + 1) w rate best := by
  induction n generalizing w bpp with
  | zero =>
    have heq : bpp = best := by omega
    subst heq
    have hv := (hb.viable bpp hw.depths.1 hw.depths.2).mpr le_rfl
    exact last_found ha hs hm hw (by omega) hv (by simp [Work.raise, hw.looks])
  | succ n ih =>
    by_cases heq : bpp = best
    · subst heq
      have hv := (hb.viable bpp hw.depths.1 hw.depths.2).mpr le_rfl
      exact last_found ha hs hm hw (by omega) hv (by simp [Work.raise, hw.looks])
    · have hdepths := hw.depths
      have hbounds := hb.bounds
      have hv : ¬ s.viable rate bpp := fun h => heq
        (le_antisymm ((hb.viable bpp hw.depths.1 hw.depths.2).mp h) hle)
      have hlower : w.lower = (.ok (), { w with bpp := max 128 (w.bpp - 1) }) := by
        unfold Work.lower
        rw [hw.looks]
        dsimp only
        rw [if_neg (by rw [hw.atBpp]; omega)]
      have hnew : Probing s input receipts
          (Work.stamp { w with bpp := max 128 (w.bpp - 1) } (receipts w.probes)) .fine rate (bpp - 1) := by
        refine ⟨hw.own, hw.stage, hw.source, hw.slices, hw.width, Fresh.stamp hm.strict rfl, hw.looks,
          hw.atRate, ?_, hw.rates, by omega⟩
        show max 128 (w.bpp - 1) = bpp - 1
        rw [hw.atBpp]
        omega
      unfold Found
      rw [drive_next (probe_lower ha hs hm hw (by omega) hv hlower) (by rw [hnew.stage]; nofun)]
      refine ih hnew (by omega) (by omega) ?_
      show w.probes + 1 + (n + 1) ≤ 64
      omega

/-- A viable probe of the coarse scan less than 16 under the greatest viable depth leaves the rest to
the fine scan. -/
theorem coarse_viable (hb : Best s input rate best) (hw : Probing s input receipts w .coarse rate bpp)
    (hle : bpp ≤ best) (hlt : best < bpp + 16) (hp : w.probes + (n + 17) ≤ 64) :
    Found p answer (n + 17) w rate best := by
  have hbounds := hb.bounds
  have hdepths := hw.depths
  have hv := (hb.viable bpp hw.depths.1 hw.depths.2).mpr hle
  have hmax : w.maxBpp = input.maxBpp := congrArg Input.maxBpp hw.own
  by_cases htop : bpp = input.maxBpp
  · have heq : bpp = best := by omega
    subst heq
    refine last_found ha hs hm hw (by omega) hv ?_
    simp [Work.raise, hw.looks, hmax, hw.atBpp, htop]
  · have hraise : w.raise = some { w with bpp := min w.maxBpp (w.bpp + 15), search := .fine } := by
      simp [Work.raise, hw.looks, hmax, hw.atBpp, htop]
    have hnew : Probing s input receipts
        (Work.stamp { w with bpp := min w.maxBpp (w.bpp + 15), search := .fine } (receipts w.probes)) .fine
        rate (min input.maxBpp (bpp + 15)) := by
      refine ⟨hw.own, hw.stage, hw.source, hw.slices, hw.width, Fresh.stamp hm.strict rfl, rfl,
        hw.atRate, ?_, hw.rates, by omega⟩
      show min w.maxBpp (w.bpp + 15) = _
      rw [hmax, hw.atBpp]
    unfold Found
    rw [drive_next (probe_raise ha hs hm hw (by omega) hv hraise) (by rw [hnew.stage]; nofun)]
    refine fine_found ha hs hm hb hnew (by omega) (by omega) ?_
    show w.probes + 1 + (n + 15 + 1) ≤ 64
    omega

/-- Every probe of the coarse scan is less than 16 under the greatest viable depth, so it never steps
over it. -/
theorem coarse_found (hb : Best s input rate best) (hw : Probing s input receipts w .coarse rate bpp)
    (hlt : best < bpp + 16) (hn : bpp ≤ 128 + 16 * n) (hp : w.probes + (n + 17) ≤ 64) :
    Found p answer (n + 17) w rate best := by
  have hbounds := hb.bounds
  induction n generalizing w bpp with
  | zero => exact coarse_viable ha hs hm hb hw (by omega) hlt hp
  | succ n ih =>
    by_cases hle : bpp ≤ best
    · exact coarse_viable ha hs hm hb hw hle hlt hp
    · have hdepths := hw.depths
      have hv : ¬ s.viable rate bpp := fun h => hle ((hb.viable bpp hw.depths.1 hw.depths.2).mp h)
      have hlower : w.lower = (.ok (), { w with bpp := max 128 (w.bpp - 16) }) := by
        unfold Work.lower
        rw [hw.looks]
        dsimp only
        rw [if_neg (by rw [hw.atBpp]; omega)]
      have hnew : Probing s input receipts
          (Work.stamp { w with bpp := max 128 (w.bpp - 16) } (receipts w.probes)) .coarse rate
          (max 128 (bpp - 16)) := by
        refine ⟨hw.own, hw.stage, hw.source, hw.slices, hw.width, Fresh.stamp hm.strict rfl, hw.looks,
          hw.atRate, ?_, hw.rates, by omega⟩
        show max 128 (w.bpp - 16) = _
        rw [hw.atBpp]
      rw [show n + 1 + 17 = (n + 17) + 1 by omega]
      unfold Found
      rw [drive_next (probe_lower ha hs hm hw (by omega) hv hlower) (by rw [hnew.stage]; nofun)]
      refine ih hnew (by omega) (by omega) ?_
      show w.probes + 1 + (n + 17) ≤ 64
      omega

/-- The least viable rate goes on to the scans of its depths. -/
theorem rate_viable (hb : Best s input rate best) (hw : Probing s input receipts w .rate rate 128)
    (hp : w.probes + (n + 40) ≤ 64) : Found p answer (n + 40) w rate best := by
  have hdeep := maxBpp_bounds ha.bpc
  have hbounds := hb.bounds
  have hv := (hb.viable 128 le_rfl (by omega)).mpr hb.bounds.1
  have hmax : w.maxBpp = input.maxBpp := congrArg Input.maxBpp hw.own
  have hraise : w.raise = some { w with bpp := w.maxBpp, search := .coarse } := by
    unfold Work.raise
    rw [if_pos ⟨hw.looks, by rw [hw.atBpp, hmax]; omega⟩]
  have hnew : Probing s input receipts
      (Work.stamp { w with bpp := w.maxBpp, search := .coarse } (receipts w.probes)) .coarse rate
      input.maxBpp := ⟨hw.own, hw.stage, hw.source, hw.slices, hw.width, Fresh.stamp hm.strict rfl, rfl,
    hw.atRate, hmax, hw.rates, by omega⟩
  rw [show n + 40 = (n + 22 + 17) + 1 by omega]
  unfold Found
  rw [drive_next (probe_raise ha hs hm hw (by omega) hv hraise) (by rw [hnew.stage]; nofun)]
  refine coarse_found ha hs hm hb hnew (by omega) (by omega) ?_
  show w.probes + 1 + (n + 22 + 17) ≤ 64
  omega

/-- The scan of the rates, on its way to the least rate that is viable at 128. -/
theorem rate_found {least : Nat} (hb : Best s input least best)
    (hfirst : ∀ r, 1 ≤ r → r < least → ¬ s.viable r 128) (hleast : least ≤ input.top)
    (hw : Probing s input receipts w .rate rate 128) (hle : rate ≤ least) (hn : least ≤ rate + n)
    (hp : w.probes + (n + 40) ≤ 64) : Found p answer (n + 40) w least best := by
  induction n generalizing w rate with
  | zero =>
    have heq : rate = least := by omega
    subst heq
    exact rate_viable ha hs hm hb hw hp
  | succ n ih =>
    by_cases heq : rate = least
    · subst heq
      exact rate_viable ha hs hm hb hw hp
    · have hrates := hw.rates
      have hv : ¬ s.viable rate 128 := hfirst rate hw.rates.1 (by omega)
      have hmax : w.maximum = input.top := congrArg Input.top hw.own
      have hlower : w.lower = (.ok (), { w with rate := w.rate + 1 }) := by
        unfold Work.lower
        rw [hw.looks]
        dsimp only
        rw [if_neg (by rw [hw.atRate, hmax]; omega)]
      have hnew : Probing s input receipts
          (Work.stamp { w with rate := w.rate + 1 } (receipts w.probes)) .rate (rate + 1) 128 := by
        refine ⟨hw.own, hw.stage, hw.source, hw.slices, hw.width, Fresh.stamp hm.strict rfl, hw.looks,
          ?_, hw.atBpp, by omega, hw.depths⟩
        show w.rate + 1 = _
        rw [hw.atRate]
      rw [show n + 1 + 40 = (n + 40) + 1 by omega]
      unfold Found
      rw [drive_next (probe_lower ha hs hm hw (by omega) hv hlower) (by rw [hnew.stage]; nofun)]
      refine ih hnew (by omega) (by omega) ?_
      show w.probes + 1 + (n + 40) ≤ 64
      omega

/-- Where no rate is viable at 128 the scan ends without a result. -/
theorem rate_refused (hnone : ∀ r, 1 ≤ r → r ≤ input.top → ¬ s.viable r 128)
    (hw : Probing s input receipts w .rate rate 128) (hn : input.top ≤ rate + n)
    (hp : w.probes + (n + 1) ≤ 64) : drive p answer (n + 1) w = some (.error .Bandwidth) := by
  have hmax : ∀ {w : Work}, w.input = input → w.maximum = input.top := congrArg Input.top
  induction n generalizing w rate with
  | zero =>
    have hrates := hw.rates
    have hlower : w.lower = (.error .Bandwidth, w) := by
      unfold Work.lower
      rw [hw.looks]
      dsimp only
      rw [if_pos (by rw [hw.atRate, hmax hw.own]; omega)]
    exact drive_error (probe_refuse ha hs hm hw (by omega) (hnone _ hw.rates.1 hw.rates.2) hlower)
  | succ n ih =>
    have hrates := hw.rates
    have hv := hnone _ hw.rates.1 hw.rates.2
    by_cases htop : rate = input.top
    · have hlower : w.lower = (.error .Bandwidth, w) := by
        unfold Work.lower
        rw [hw.looks]
        dsimp only
        rw [if_pos (by rw [hw.atRate, hmax hw.own, htop])]
      exact drive_error (probe_refuse ha hs hm hw (by omega) hv hlower)
    · have hlower : w.lower = (.ok (), { w with rate := w.rate + 1 }) := by
        unfold Work.lower
        rw [hw.looks]
        dsimp only
        rw [if_neg (by rw [hw.atRate, hmax hw.own]; exact htop)]
      have hnew : Probing s input receipts
          (Work.stamp { w with rate := w.rate + 1 } (receipts w.probes)) .rate (rate + 1) 128 := by
        refine ⟨hw.own, hw.stage, hw.source, hw.slices, hw.width, Fresh.stamp hm.strict rfl, hw.looks,
          ?_, hw.atBpp, by omega, hw.depths⟩
        show w.rate + 1 = _
        rw [hw.atRate]
      rw [drive_next (probe_lower ha hs hm hw (by omega) hv hlower) (by rw [hnew.stage]; nofun)]
      refine ih hnew (by omega) ?_
      show w.probes + 1 + (n + 1) ≤ 64
      omega

end Scan

end Hdmi
end NvidiaGsp
