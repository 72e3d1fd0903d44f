import NvidiaGsp.Mst.PlanQuota

/-!
# Mst.PlanExact

Planning keeps to the bandwidth of every edge, fits the source's integers and can be undone. A slot
carries at most sixty PBN (`perSlot_bounds`), so the streams of a table, which share sixty-three
slots, stay far below the sixteen bits of their sum (`sumPbn_le`), and every accumulator of a loop is
such a sum (`LoopWidths`). A removed replacement leaves the table it was added to (`remove_target`).
-/

namespace NvidiaGsp
namespace Mst
namespace Link

open Payload
open Registry (notSingleBit)

variable {links : Links} {epoch root : Nat} {link : Payload.Link} {graph : Graph} {captured : Table}

/-- The link arithmetic as the planner relies on it. -/
structure Documented (links : Links) : Prop where
  payload : ∀ rate lanes, links.dp8b10bPayload rate lanes =
    if (rate = 6 ∨ rate = 10 ∨ rate = 20 ∨ rate = 30) ∧ (lanes = 1 ∨ lanes = 2 ∨ lanes = 4) then
      some (rate * lanes * 216000000) else none
  /-- A clock that is at most some rate is one. -/
  atMost : ∀ clock hz, links.atMost clock hz = true →
    clock.denominator ≠ 0 ∧ clock.numerator ≤ hz * clock.denominator
  /-- The rate is rounded up. -/
  ceilHz : ∀ clock hz, links.ceilHz clock = some hz →
    clock.numerator ≤ hz * clock.denominator ∧ hz ≤ clock.numerator

/-- The numbers of a timing fit their fields. -/
structure Fits (timing : Timing) : Prop where
  numerator : timing.clock.numerator < 2 ^ 64
  denominator : timing.clock.denominator < 2 ^ 64

/-- A timing that the planner does not refuse at once. -/
structure Plain (links : Links) (timing : Timing) : Prop where
  clock : links.atMost timing.clock 4000000000 = true
  width : 60 < timing.width
  total : timing.width < timing.total ∧ timing.total ≤ 65535
  bpc : timing.bpc = 8 ∨ timing.bpc = 10

/-! ## One demand -/

theorem le_ceil_mul {n d : Nat} (hd : 0 < d) : n ≤ ceil n d * d := by
  have h := Nat.lt_mul_div_succ (n + d - 1) hd
  rw [Nat.mul_succ] at h
  rw [ceil, Nat.mul_comm]
  omega

theorem ceil_le (n : Nat) {d : Nat} (hd : 0 < d) : ceil n d ≤ n := by
  unfold ceil
  rcases Nat.eq_zero_or_pos n with rfl | hn
  · rw [Nat.zero_add, Nat.div_eq_of_lt (by omega)]
  · rw [Nat.div_le_iff_le_mul_add_pred hd]
    have := Nat.le_mul_of_pos_left n hd
    omega

theorem perSlot_bounds (hl : Documented links) {p : Nat} (h : link.pbnPerSlot links = .ok p) :
    0 < p ∧ p ≤ 60 := by
  unfold Payload.Link.pbnPerSlot at h
  rw [hl.payload] at h
  split at h
  · rename_i bits hbits
    split at hbits
    · rename_i hsupported
      obtain ⟨hr, hn⟩ := hsupported
      cases hbits
      cases h
      rcases hr with hr | hr | hr | hr <;> rcases hn with hn | hn | hn <;> rw [hr, hn] <;> decide
    · cases hbits
  · cases h

/-- What a demand says of itself. -/
structure Measured (p : Nat) (d : Demand) : Prop where
  slots : 1 ≤ d.slots ∧ d.slots ≤ 63
  pbn : d.slots = ceil d.pbn p
  timeslice : d.timeslicePbn = d.slots * p
  blank : d.hblank < 2 ^ 32 ∧ d.vblank < 2 ^ 32

theorem not_of_check {α : Type} {c : Prop} [Decidable c] {e : Error} {x : Except Error α} {a : α}
    (h : (if c then .error e else x) = .ok a) : ¬ c := by
  intro hc
  rw [if_pos hc] at h
  cases h

theorem blanking_measured {timing : Timing} {perSlot pbn slots pclk : Nat} {d : Demand}
    (hs : 1 ≤ slots ∧ slots ≤ 63) (hp : slots = ceil pbn perSlot)
    (h : blanking link timing perSlot pbn slots pclk = .ok d) : Measured perSlot d := by
  unfold blanking at h
  have h := ok_of_check h
  have hblank := not_of_check h
  cases ok_of_check h
  simp only [ge_iff_le, not_or, not_le] at hblank
  exact ⟨hs, hp, rfl, hblank⟩

theorem demand_measured {timing : Timing} {d : Demand} (h : demand links link timing = .ok d) :
    ∃ p, link.pbnPerSlot links = .ok p ∧ Measured p d := by
  unfold demand at h
  split at h
  · cases h
  rename_i p hp
  have h := ok_of_check h
  dsimp only at h
  split at h
  · cases h
  rename_i hbound
  simp only [not_or, not_lt] at hbound
  split at h
  · cases h
  · exact ⟨p, hp, blanking_measured ⟨Nat.pos_of_ne_zero hbound.2.2.1, hbound.2.2.2⟩ rfl h⟩

/-- A stream needs at most sixty PBN for each of its slots. -/
theorem demand_pbn_le (hl : Documented links) {timing : Timing} {d : Demand}
    (h : demand links link timing = .ok d) : d.pbn ≤ 60 * d.slots ∧ d.slots ≤ 63 := by
  obtain ⟨p, hp, hm⟩ := demand_measured h
  obtain ⟨hpos, hle⟩ := perSlot_bounds hl hp
  have hpbn := le_ceil_mul (n := d.pbn) hpos
  rw [← hm.pbn] at hpbn
  have := Nat.mul_le_mul_left d.slots hle
  exact ⟨by omega, hm.slots.2⟩

/-- The sums, casts and quotients of `demand`, one by one, in the source's integers. -/
structure DemandWidths (links : Links) (link : Payload.Link) (timing : Timing) : Prop where
  perSlot : ∀ p, link.pbnPerSlot links = .ok p → 0 < p ∧ p < 2 ^ 16
  pbn : 0 < timing.clock.denominator * 8 * 54000000 * 1000 ∧
    timing.clock.numerator * (timing.bpc * 3) * 1006 * 64 +
      timing.clock.denominator * 8 * 54000000 * 1000 < 2 ^ 128
  slots : ∀ p, link.pbnPerSlot links = .ok p →
    ceil (timing.clock.numerator * (timing.bpc * 3) * 1006 * 64)
      (timing.clock.denominator * 8 * 54000000 * 1000) + p < 2 ^ 128
  linkHz : link.rate * 27000000 * 994 < 2 ^ 64
  blank : blankBits timing.width (timing.bpc * 3) + timing.bpc * 3 < 2 ^ 64
  hblank : (timing.total - timing.width) * (link.rate * 27000000 * 994 / 1000) < 2 ^ 64
  vblank : 40 ≤ timing.width ∧ (timing.width - 40) * (link.rate * 27000000 * 994 / 1000) < 2 ^ 64
  audio : ∀ pclk, links.ceilHz timing.clock = some pclk → timing.clock.numerator ≠ 0 →
    0 < pclk ∧ 48000 * timing.total + pclk < 2 ^ 128 ∧
      10 * (ceil (48000 * timing.total) pclk + 2) + 16 < 2 ^ 64
  fields : ∀ d, demand links link timing = .ok d →
    d.pbn < 2 ^ 16 ∧ d.slots < 2 ^ 8 ∧ d.timeslicePbn < 2 ^ 16 ∧ d.hblank < 2 ^ 32 ∧ d.vblank < 2 ^ 32

theorem blankBits_le (width bpp : Nat) : blankBits width bpp ≤ 4 * bpp + 216 := by
  have hbits : (if width % 4 = 0 then 0 else (4 - width % 4) * bpp) ≤ 4 * bpp := by
    split
    · exact Nat.zero_le _
    · exact Nat.mul_le_mul_right _ (Nat.sub_le _ _)
  unfold blankBits
  dsimp only
  omega

theorem demand_widths (hl : Documented links) (hrate : link.rate < 2 ^ 8) {timing : Timing}
    (hf : Fits timing) (hp : Plain links timing) : DemandWidths links link timing := by
  obtain ⟨hn, hd⟩ := hf
  obtain ⟨hclock, hwidth, ⟨htotal, hmost⟩, hbpc⟩ := hp
  have hden := (hl.atMost _ _ hclock).1
  have hnum : timing.clock.numerator * (timing.bpc * 3) ≤ timing.clock.numerator * 30 :=
    Nat.mul_le_mul_left _ (by omega)
  have hhz : link.rate * 27000000 * 994 / 1000 ≤ 7000000000 := by omega
  have hsmall {a : Nat} (ha : a ≤ 65535) : a * (link.rate * 27000000 * 994 / 1000) < 2 ^ 64 :=
    Nat.lt_of_le_of_lt (Nat.mul_le_mul ha hhz) (by decide)
  refine ⟨fun p h => ?_, ⟨by omega, by omega⟩, fun p h => ?_, by omega, ?_, hsmall (by omega),
    ⟨by omega, hsmall (by omega)⟩, fun pclk hpclk hne => ?_, fun d h => ?_⟩
  · obtain ⟨hpos, hle⟩ := perSlot_bounds hl h
    omega
  · obtain ⟨hpos, hle⟩ := perSlot_bounds hl h
    have := ceil_le (timing.clock.numerator * (timing.bpc * 3) * 1006 * 64)
      (by omega : 0 < timing.clock.denominator * 8 * 54000000 * 1000)
    omega
  · have := blankBits_le timing.width (timing.bpc * 3)
    omega
  · obtain ⟨hup, hlt⟩ := hl.ceilHz _ _ hpclk
    have hpos : 0 < pclk := by
      rcases Nat.eq_zero_or_pos pclk with rfl | hpos
      · omega
      · exact hpos
    have := ceil_le (48000 * timing.total) hpos
    omega
  · obtain ⟨hpbn, hslots⟩ := demand_pbn_le hl h
    obtain ⟨p, hper, hm⟩ := demand_measured h
    obtain ⟨-, hle⟩ := perSlot_bounds hl hper
    have htime := Nat.mul_le_mul hslots hle
    rw [← hm.timeslice] at htime
    exact ⟨by omega, by omega, by omega, hm.blank.1, hm.blank.2⟩

/-! ## Sums of demands -/

theorem sumSlots_cons (e : Entry) (es : List Entry) :
    sumSlots (e :: es) = e.allocation.demand.slots + sumSlots es := rfl

theorem sumPbn_cons (e : Entry) (es : List Entry) :
    sumPbn (e :: es) = e.allocation.demand.pbn + sumPbn es := rfl

theorem sumPbn_le (hl : Documented links) {es : List Entry} (h : ∀ e ∈ es, Sound links link e) :
    sumPbn es ≤ 60 * sumSlots es ∧ sumSlots es ≤ 63 * es.length := by
  induction es with
  | nil => exact ⟨Nat.le_refl _, Nat.le_refl _⟩
  | cons e es ih =>
    obtain ⟨hpbn, hslots⟩ := demand_pbn_le hl (h e List.mem_cons_self).demand
    obtain ⟨hp, hs⟩ := ih fun x hx => h x (List.mem_cons_of_mem _ hx)
    rw [sumSlots_cons, sumPbn_cons, List.length_cons]
    omega

theorem valid_sums {table : Table} (h : validateTable links table epoch root link = .ok ()) :
    table.slots = sumSlots table.used ∧ table.slots ≤ 63 := by
  unfold validateTable at h
  have h := ok_of_check h
  split at h
  · cases h
  rename_i t ht
  have hsum := not_of_check h
  simp only [not_or, not_lt, Decidable.not_not] at hsum
  obtain ⟨-, hslots, -⟩ := checkEntries_checked ht
  have hslots : t.slots = sumSlots table.used := hslots.trans (Nat.zero_add _)
  exact ⟨hsum.2.1.trans hslots, hsum.2.1 ▸ hsum.1⟩

/-- The streams of a valid table need at most 3780 PBN. -/
theorem valid_pbn (hl : Documented links) {table : Table}
    (h : validateTable links table epoch root link = .ok ()) : sumPbn table.used ≤ 3780 := by
  obtain ⟨hsum, hle⟩ := valid_sums h
  have := (sumPbn_le hl (checked_of_valid h).sound).1
  omega

theorem charged_le (key : PathEdge) (es : List Entry) : charged key es ≤ sumPbn es := by
  induction es with
  | nil => exact Nat.le_refl _
  | cons e es ih =>
    rw [charged_cons, sumPbn_cons]
    split
    · exact Nat.add_le_add_left ih _
    · omega

/-- What the accumulators of an allotment hold. -/
structure Bounded (s : Allotted) : Prop where
  slots : s.slots ≤ 63
  pbn : s.usedPbn ≤ 60 * s.slots
  used : ∀ i, s.used i ≤ s.usedPbn

theorem allot_bounded (hl : Documented links) {paths : List Path} {s s' : Allotted} {w : Wanted}
    (hb : Bounded s) (h : allot links link paths s w = .ok s') : Bounded s' := by
  have h := ok_of_check (ok_of_check h)
  split at h
  · cases h
  rename_i required hrequired
  have hslots := not_of_check h
  have h := ok_of_check h
  split at h
  · cases h
  rename_i used hcharge
  cases h
  obtain ⟨hpbn, -⟩ := demand_pbn_le hl hrequired
  obtain ⟨-, hused, -⟩ := charge_ok hcharge
  refine ⟨Nat.le_of_not_lt hslots, ?_, fun i => ?_⟩
  · have := hb.pbn
    show s.usedPbn + required.pbn ≤ 60 * (s.slots + required.slots)
    omega
  · have := hb.used i
    show used i ≤ s.usedPbn + required.pbn
    rw [hused i]
    split <;> omega

theorem allotAll_bounded (hl : Documented links) {paths : List Path} {s s' : Allotted} {ws : List Wanted}
    (hb : Bounded s) (h : allotAll links link paths s ws = .ok s') : Bounded s' := by
  induction ws generalizing s with
  | nil =>
    cases h
    exact hb
  | cons w ws ih =>
    obtain ⟨s₁, hs₁, hrest⟩ := allotAll_cons h
    exact ih (allot_bounded hl hb hs₁) hrest

theorem sumSlots_take_le (k : Nat) (es : List Entry) : sumSlots (es.take k) ≤ sumSlots es := by
  induction es generalizing k with
  | nil => simp
  | cons e es ih =>
    cases k with
    | zero => exact Nat.zero_le _
    | succ k => exact Nat.add_le_add_left (ih k) _

theorem compact_sound {d s : Nat} {es : List Entry} (h : ∀ e ∈ es, Sound links link e) :
    ∀ e ∈ compact d s es, Sound links link e := by
  induction es generalizing s with
  | nil => simp [compact]
  | cons x es ih =>
    have hrest : ∀ e ∈ es, Sound links link e := fun e he => h e (List.mem_cons_of_mem _ he)
    obtain ⟨hp, hd, hi⟩ := h x List.mem_cons_self
    rw [compact]
    split
    · exact ih hrest
    · intro e he
      rcases List.mem_cons.mp he with rfl | he
      · exact ⟨hp, hd, hi⟩
      · exact ih hrest e he

/-! ## The loops -/

/-- What the loops accumulate stays in the source's integers, and so does the next sum. -/
structure LoopWidths (links : Links) (link : Payload.Link) : Prop where
  /-- `validateTable` after some streams: `slots` is a u16, `pbn` a u32. -/
  tally : ∀ epoch root es t, es.length ≤ maxStreams →
    checkEntries links epoch root link {} es = .ok t → t.slots + 63 < 2 ^ 16 ∧ t.pbn + 2 ^ 16 < 2 ^ 32
  /-- The shifts by a head and a window of a checked stream. -/
  shifts : ∀ epoch root t t' e, checkEntry links epoch root link t e = .ok t' →
    e.allocation.head < 8 ∧ e.window < 8 ∧ 0 < e.pathCount
  /-- The quota of an edge: a u32 sum, cast to u16. -/
  quota : ∀ epoch root graph captured before n edge resources,
    validateTable links captured epoch root link = .ok () →
    (graph.edges n).resources = some resources → resources.totalPbn < 2 ^ 16 →
    captured.owned edge.1 < 2 ^ 16 ∧
      (captureEdge graph captured before n = .ok edge →
        captured.owned edge.1 ≤ min (limitOf resources) (resources.freePbn + captured.owned edge.1) ∧
        min (limitOf resources) (resources.freePbn + captured.owned edge.1) < 2 ^ 16)
  /-- `plan` after some requests: `slots` is a u8 summed as u16, `used_pbn` a u16, `used` are u32. -/
  allot : ∀ paths ws s timing d, allotAll links link paths {} ws = .ok s →
    demand links link timing = .ok d →
    s.slots + 1 < 2 ^ 8 ∧ s.slots + d.slots < 2 ^ 16 ∧ s.usedPbn + d.pbn < 2 ^ 16 ∧
      ∀ i, s.used i + d.pbn < 2 ^ 32
  /-- `remove` after some streams: `slots` is a u8, `used_pbn` a u16. -/
  remove : ∀ table epoch root d k, validateTable links table epoch root link = .ok () →
    sumSlots (compact d 0 (table.used.take k)) + 1 < 2 ^ 8 ∧
      sumPbn (compact d 0 (table.used.take k)) < 2 ^ 16

theorem loop_widths (hl : Documented links) (link : Payload.Link) : LoopWidths links link := by
  refine ⟨fun epoch root es t hlen h => ?_, fun epoch root t t' e h => ?_,
    fun epoch root graph captured before n edge resources hv hres htotal => ?_,
    fun paths ws s timing d h hd => ?_, fun table epoch root d k h => ?_⟩
  · obtain ⟨hc, hslots, hpbn⟩ := checkEntries_checked h
    have hslots : t.slots = sumSlots es := hslots.trans (Nat.zero_add _)
    have hpbn : t.pbn = sumPbn es := hpbn.trans (Nat.zero_add _)
    obtain ⟨hle, hmost⟩ := sumPbn_le hl hc.sound
    have : maxStreams = 8 := rfl
    omega
  · have hf := (checkEntry_ok_iff.1 h).formed
    simp only [Entry.malformed, not_or, not_le] at hf
    exact ⟨hf.2.1, hf.2.2.1, Nat.pos_of_ne_zero hf.2.2.2.2.2.2.2.2.1⟩
  · have howned := owned_eq hv edge.1
    have hle := charged_le edge.1 captured.used
    have hpbn := valid_pbn hl hv
    refine ⟨by omega, fun h => ?_⟩
    obtain ⟨-, resources', hq⟩ := captureEdge_ok h
    have hsame := hq.answered
    rw [hres] at hsame
    cases hsame
    have hlimit : limitOf resources ≤ resources.totalPbn := Nat.min_le_left _ _
    have hmin := Nat.min_le_left (limitOf resources) (resources.freePbn + captured.owned edge.1)
    exact ⟨Nat.le_min.mpr ⟨hq.fits.1, Nat.le_add_left _ _⟩, by omega⟩
  · obtain ⟨hslots, hpbn, hused⟩ :=
      allotAll_bounded hl ⟨Nat.zero_le _, Nat.le_refl _, fun _ => Nat.le_refl _⟩ h
    obtain ⟨hdpbn, hdslots⟩ := demand_pbn_le hl hd
    refine ⟨by omega, by omega, by omega, fun i => ?_⟩
    have := hused i
    omega
  · obtain ⟨hsum, hle⟩ := valid_sums h
    have hsound : ∀ e ∈ table.used.take k, Sound links link e :=
      fun e he => (checked_of_valid h).sound e (List.mem_of_mem_take he)
    have hpbn := (sumPbn_le hl (compact_sound (d := d) (s := 0) hsound)).1
    have hcompact := sumSlots_compact (d := d) 0 (table.used.take k)
    have htake := sumSlots_take_le k table.used
    omega

/-! ## The plan and its undoing -/

/-- The stream without its place. -/
def unplaced (e : Entry) : Entry := { e with allocation := { e.allocation with start := 0 } }

theorem compact_unplaced (d s : Nat) (es : List Entry) : (compact d s es).map unplaced =
    (es.filter fun e => e.allocation.displayId != d).map unplaced := by
  induction es generalizing s with
  | nil => rfl
  | cons e es ih =>
    by_cases hd : e.allocation.displayId = d
    · rw [compact, if_pos hd, List.filter_cons_of_neg (by simp [hd]), ih]
    · rw [compact, if_neg hd, List.filter_cons_of_pos (by simp [hd]), List.map_cons, List.map_cons, ih]
      rfl

theorem find_none_iff {table : Table} (hcount : table.count ≤ maxStreams) (d : Nat) :
    table.find d = none ↔ ∀ e ∈ table.used, e.allocation.displayId ≠ d := by
  unfold Table.find
  rw [if_neg (by omega), List.find?_eq_none]
  simp

theorem map_moved_zero (es : List Entry) : es.map (moved 0) = es := List.map_id es

/-- Taking the replacement back leaves the table it was added to. -/
theorem remove_target {state : State} {replacement : Entry} {target : Budget}
    (h : planInPlace links graph state captured link replacement = .ok target)
    (hnew : state.table.find replacement.allocation.displayId = none) :
    ∃ r, remove links target.table graph.epoch graph.root link replacement.allocation.displayId = .ok r ∧
      r.used = state.table.used := by
  obtain ⟨edges, wanted, allotted, hp⟩ := planInPlace_ok h
  obtain ⟨a, hused, hid, -⟩ := planInPlace_used h
  have hothers := (find_none_iff (validateTable_ok hp.live).1 _).mp hnew
  have hstays : compact replacement.allocation.displayId 0 state.table.used = state.table.used := by
    have hlaid : Laid (0 + 0) state.table.used := (checked_of_valid hp.live).laid
    rw [compact_moved hlaid hothers, map_moved_zero]
  rw [hstays] at hused
  have hfound : target.table.find replacement.allocation.displayId ≠ none := by
    rw [ne_eq, find_none_iff (validateTable_ok hp.valid).1, hused]
    intro hnone
    exact hnone _ (List.mem_append_right _ List.mem_cons_self) hid
  obtain ⟨r, hr, hrused, -⟩ := remove_ok hp.valid hfound
  have hlaid := (checked_of_valid hp.valid).laid
  rw [hused] at hrused hlaid
  refine ⟨r, hr, hrused.trans ?_⟩
  rw [compact_split hlaid hid hothers (by simp)]
  exact List.append_nil _

/-- What holds of the target of a plan. -/
structure Respects (links : Links) (graph : Graph) (captured : Table) (link : Payload.Link)
    (target : Budget) : Prop where
  same : target.link = link
  valid : validateTable links target.table graph.epoch graph.root link = .ok ()
  /-- From slot 1 on, one behind the other, up to slot 63. -/
  laid : Laid 0 target.table.used
  slots : target.table.slots = sumSlots target.table.used ∧ target.table.slots ≤ 63
  ids : (target.table.used.map fun e => e.allocation.displayId).Nodup
  payloads : (target.table.used.map fun e => e.allocation.payloadId).Nodup
  heads : (target.table.used.map fun e => e.allocation.head).Nodup
  edges : ∀ n < graph.edgeCount, ∃ key resources, PathEdge.capture graph n = .ok key ∧
    (graph.edges n).resources = some resources ∧
    charged key target.table.used ≤ min (min resources.totalPbn
      (resources.downstreamPbn.getD resources.totalPbn)) (resources.freePbn + charged key captured.used)

theorem plan_respects {state : State} {replacement : Entry} {target : Budget}
    (h : planInPlace links graph state captured link replacement = .ok target) :
    Respects links graph captured link target := by
  obtain ⟨edges, wanted, allotted, hp⟩ := planInPlace_ok h
  have hc := checked_of_valid hp.valid
  refine ⟨by rw [hp.made], hp.valid, hc.laid, valid_sums hp.valid, hc.ids, ?_, hc.heads,
    fun n hn => plan_within h hn⟩
  have hpayload : (target.table.used.map fun e => e.allocation.payloadId) =
      (target.table.used.map fun e => e.allocation.head).map (· + 1) := by
    rw [List.map_map]
    exact List.map_congr_left fun e he => (hc.sound e he).payloadId
  rw [hpayload]
  exact hc.heads.map fun a b hab => Nat.succ.inj hab

/-- A plan keeps to the bandwidth of every edge and can be undone, a stream can be taken out of any
valid table, and no integer of the source is too small. -/
theorem planning_exact (hl : Documented links) :
    (∀ graph state captured link replacement target,
      planInPlace links graph state captured link replacement = .ok target →
      Respects links graph captured link target ∧
        (state.table.find replacement.allocation.displayId = none →
          ∃ r, remove links target.table graph.epoch graph.root link
              replacement.allocation.displayId = .ok r ∧ r.used = state.table.used)) ∧
    (∀ table epoch root link d, validateTable links table epoch root link = .ok () →
      table.find d ≠ none →
      ∃ r, remove links table epoch root link d = .ok r ∧ validateTable links r epoch root link = .ok () ∧
        r.used.map unplaced = (table.used.filter fun e => e.allocation.displayId != d).map unplaced) ∧
    (∀ link timing, link.rate < 2 ^ 8 → Fits timing → Plain links timing →
      DemandWidths links link timing) ∧
    ∀ link, LoopWidths links link := by
  refine ⟨fun graph state captured link replacement target h => ⟨plan_respects h, remove_target h⟩,
    fun table epoch root link d h hd => ?_, fun link timing hrate hf hp => demand_widths hl hrate hf hp,
    loop_widths hl⟩
  obtain ⟨r, hr, hused, hvalid⟩ := remove_ok h hd
  exact ⟨r, hr, hvalid, by rw [hused, compact_unplaced]⟩

theorem documented_dpLinks : Documented Transaction.dpLinks := by
  refine ⟨fun rate lanes => ?_, fun clock hz h => of_decide_eq_true h, fun clock hz h => ?_⟩
  · simp only [Transaction.dpLinks, Nat.mul_right_comm rate]
  · simp only [Transaction.dpLinks] at h
    split at h
    · cases h
    · rename_i hden
      cases h
      have hpos := Nat.pos_of_ne_zero hden
      exact ⟨le_ceil_mul hpos, ceil_le _ hpos⟩

theorem planning_exact_three :
    ∃ target, planInPlace Transaction.dpLinks threeSinks threeState threeStreams ⟨20, 4⟩
      (headStream 1 15) = .ok target ∧ target.table.slots ≤ 63 := by
  have hok : (planInPlace Transaction.dpLinks threeSinks threeState threeStreams ⟨20, 4⟩
      (headStream 1 15)).toOption.isSome = true := by decide +kernel
  cases htarget : planInPlace Transaction.dpLinks threeSinks threeState threeStreams ⟨20, 4⟩
      (headStream 1 15) with
  | error e =>
    rw [htarget] at hok
    cases hok
  | ok target =>
    have hrespects := ((planning_exact documented_dpLinks).1 _ _ _ _ _ _ htarget).1
    exact ⟨target, rfl, hrespects.slots.2⟩

end Link
end Mst
end NvidiaGsp
