import NvidiaGsp.Lib.Radix
import NvidiaGsp.Surface.Layout

/-!
# Surface.LayoutSpec

What a geometry guarantees of its planes, and what the validations accept: the plan that the request
and the capabilities lead to, and no other.
-/

namespace NvidiaGsp
namespace Surface

open Parse Rounding

variable {r : Request} {caps : Caps} {space : Space} {plan plan' : Plan} {p q : Plane}
  {ps : List Plane} {adapter epoch limit mod log2 index stop v a n i j : Nat}

/-! ## The planes -/

theorem within64_safe : Safe (within64 v) (· = v) :=
  Safe.reject_bind fun _ => Safe.pure rfl

theorem alignUp_safe (ha : 0 < a) :
    Safe (alignUp v a) fun u => v ≤ u ∧ u ≤ v + (a - 1) ∧ u % a = 0 := by
  unfold alignUp
  refine Safe.seq within64_safe fun top htop => ?_
  subst htop
  exact Safe.pure (up_facts ha)

/-- What the geometry guarantees of one plane, by the layout. -/
structure Fits (r : Request) (log2 index : Nat) (p : Plane) : Prop where
  offset : p.offset % 65536 = 0
  bytes : p.bytes = p.pitch * p.rows
  pitch : r.columns index * r.format.sampleBytes ≤ p.pitch
  pitchMod : p.pitch % (if r.layout = .blocklinear then 64 else 256) = 0
  rows : r.rows index ≤ p.rows
  rowsMod : r.layout = .blocklinear → p.rows % (8 * 2 ^ log2) = 0

/-- A modifier that belongs to the layout. -/
structure Chosen (r : Request) (mod log2 : Nat) : Prop where
  layout : mod = 0 ↔ r.layout = .linear
  log2 : r.layout = .blocklinear → log2 ≤ 5

theorem Chosen.blocklinear (h : Chosen r mod log2) : mod ≠ 0 ↔ r.layout = .blocklinear := by
  rw [Ne, h.layout]
  cases r.layout <;> simp

theorem rowGranule_safe (h : Chosen r mod log2) : Safe (rowGranule mod log2)
    fun g => 0 < g ∧ (r.layout = .blocklinear → g = 8 * 2 ^ log2) := by
  unfold rowGranule
  split
  · rename_i hmod
    refine Safe.pure ⟨Nat.one_pos, fun hb => ?_⟩
    exact absurd hmod (h.blocklinear.2 hb)
  · rename_i hmod
    have hlog := h.log2 (h.blocklinear.1 hmod)
    exact Safe.cast_bind (by omega) (Safe.pure ⟨Nat.mul_pos (by decide) (Nat.two_pow_pos _), fun _ => rfl⟩)

theorem plane_safe (h : Chosen r mod log2) : Safe (r.plane mod log2 index stop)
    fun p => Fits r log2 index p ∧ stop ≤ p.offset := by
  have hpitch : 0 < pitchGranule mod := by
    unfold pitchGranule
    split <;> decide
  refine Safe.seq within64_safe fun row hrow => Safe.seq (alignUp_safe hpitch) fun pitch hp => ?_
  refine Safe.seq (rowGranule_safe h) fun g hg => Safe.seq (alignUp_safe hg.1) fun rows hrows => ?_
  refine Safe.reject_bind fun _ => Safe.seq within64_safe fun size hsize => ?_
  refine Safe.seq (alignUp_safe (by decide)) fun offset hoffset => Safe.seq within64_safe fun _ _ => ?_
  refine Safe.pure ⟨⟨hoffset.2.2, hsize, hrow ▸ hp.1, ?_, hrows.1, fun hb => ?_⟩, hoffset.1⟩
  · have hgranule : pitchGranule mod = if r.layout = .blocklinear then 64 else 256 := by
      unfold pitchGranule
      by_cases hmod : mod = 0
      · rw [if_pos hmod, h.layout.1 hmod]
        rfl
      · rw [if_neg hmod, if_pos (h.blocklinear.1 hmod)]
    rw [← hgranule]
    exact hp.2.2
  · rw [← hg.2 hb]
    exact hrows.2.2

/-- Planes behind each other. -/
structure Stacked (r : Request) (log2 index stop : Nat) (ps : List Plane) : Prop where
  fits : ∀ i (h : i < ps.length), Fits r log2 (index + i) ps[i]
  ordered : ps.Pairwise fun p q => p.stop ≤ q.offset
  low : ∀ p ∈ ps, stop ≤ p.offset
  high : ∀ p ∈ ps, p.stop ≤ lastStop ps stop
  grows : stop ≤ lastStop ps stop

theorem planesFrom_safe (h : Chosen r mod log2) : Safe (r.planesFrom mod log2 n index stop)
    fun ps => ps.length = n ∧ Stacked r log2 index stop ps := by
  induction n generalizing index stop with
  | zero =>
    exact Safe.pure ⟨rfl, (fun _ hi => nomatch hi), .nil, (fun _ hp => nomatch hp),
      (fun _ hp => nomatch hp), Nat.le_refl _⟩
  | succ n ih =>
    refine Safe.seq (plane_safe h) fun p hp => Safe.seq ih fun rest hrest => Safe.pure ?_
    obtain ⟨hlen, hs⟩ := hrest
    have hstop : p.offset ≤ p.stop := Nat.le_add_right _ _
    refine ⟨congrArg (· + 1) hlen, fun i hi => ?_, List.pairwise_cons.mpr ⟨hs.low, hs.ordered⟩,
      fun q hq => ?_, fun q hq => ?_, ?_⟩
    · cases i with
      | zero => exact hp.1
      | succ i =>
        have := hs.fits i (Nat.lt_of_succ_lt_succ hi)
        rwa [Nat.add_assoc, Nat.add_comm 1 i] at this
    · rcases List.mem_cons.mp hq with rfl | hq
      · exact hp.2
      · exact Nat.le_trans hp.2 (Nat.le_trans hstop (hs.low q hq))
    · rcases List.mem_cons.mp hq with rfl | hq
      · exact hs.grows
      · exact hs.high q hq
    · exact Nat.le_trans hp.2 (Nat.le_trans hstop hs.grows)

/-! ## The plan -/

/-- A plane of a plan. -/
def Plan.plane (plan : Plan) (i : Nat) : Plane where
  offset := plan.descriptor.planeOffsets.getD i 0
  pitch := plan.descriptor.planePitches.getD i 0
  bytes := plan.planeBytes.getD i 0
  rows := plan.paddedRows.getD i 0

theorem column_getD {f : Plane → Nat} (hi : i < ps.length) (h4 : i < 4) :
    (column f ps).getD i 0 = f ps[i] := by
  unfold column
  rw [List.getD_eq_getElem?_getD, List.getElem?_take_of_lt h4,
    List.getElem?_append_left (by rwa [List.length_map]), List.getElem?_map,
    List.getElem?_eq_getElem hi]
  rfl

/-- What a geometry guarantees. -/
structure Sound (r : Request) (plan : Plan) : Prop where
  count : plan.descriptor.planeCount = r.planes
  fits : ∀ i < r.planes, Fits r plan.log2Gobs i (plan.plane i)
  apart : ∀ i j, i < j → j < r.planes → (plan.plane i).stop ≤ (plan.plane j).offset
  inside : ∀ i < r.planes, (plan.plane i).stop ≤ plan.allocationBytes
  allocation : plan.allocationBytes % 65536 = 0
  request : plan.request = some r

theorem planes_le : r.planes ≤ 2 := by
  unfold Request.planes
  split <;> decide

theorem log2_safe : Safe r.log2 fun _ => True := by
  have hheight := r.height.isLt
  unfold Request.log2 Request.chromaRows
  split
  · split
    · exact Safe.pure trivial
    · exact Safe.cast_bind (by split <;> omega) (Safe.pure trivial)
  · exact Safe.pure trivial

theorem modifier_safe : Safe (r.modifier caps log2) fun mod => Chosen r mod log2 := by
  unfold Request.modifier
  split
  · rename_i hb
    refine Safe.reject_bind fun h => Safe.pure ⟨⟨fun hz => ?_, fun hl => ?_⟩, fun _ => ?_⟩
    · simp [Nat.or_eq_zero_iff] at hz
    · rw [hb] at hl
      cases hl
    · omega
  · rename_i hb
    have hlinear : r.layout = .linear := by
      cases hl : r.layout with
      | linear => rfl
      | blocklinear => exact absurd hl hb
    exact Safe.pure ⟨⟨fun _ => hlinear, fun _ => rfl⟩, fun h => absurd h hb⟩

theorem arrange_safe : Safe (arrange adapter epoch caps r) fun plan =>
    Sound r plan ∧ plan.caps = some caps := by
  have hcheck : Safe r.check fun _ => True := by
    refine Safe.reject_bind fun _ => Safe.reject_bind fun _ => Safe.reject_bind fun _ => ?_
    exact Safe.mono Safe.reject fun _ _ => trivial
  refine Safe.seq hcheck fun _ _ => Safe.seq log2_safe fun log2 _ => ?_
  refine Safe.seq modifier_safe fun mod hmod => Safe.seq (planesFrom_safe hmod) fun ps hps => ?_
  refine Safe.seq (alignUp_safe (by decide)) fun allocation ha => Safe.pure ⟨?_, rfl⟩
  obtain ⟨hlen, hs⟩ := hps
  have htwo := @planes_le r
  have hplane (i : Nat) (hi : i < r.planes) : Plane.mk ((column Plane.offset ps).getD i 0)
      ((column Plane.pitch ps).getD i 0) ((column Plane.bytes ps).getD i 0)
      ((column Plane.rows ps).getD i 0) = ps[i] := by
    have hin : i < ps.length := by omega
    rw [column_getD hin (by omega), column_getD hin (by omega), column_getD hin (by omega),
      column_getD hin (by omega)]
  refine {
    count := rfl
    fits := fun i hi => ?_
    apart := fun i j hij hj => ?_
    inside := fun i hi => ?_
    allocation := ha.2.2
    request := rfl }
  · unfold Plan.plane
    rw [hplane i hi]
    have := hs.fits i (by omega)
    rwa [Nat.zero_add] at this
  · unfold Plan.plane
    rw [hplane i (by omega), hplane j hj]
    exact List.pairwise_iff_getElem.mp hs.ordered i j (by omega) (by omega) hij
  · unfold Plan.plane
    rw [hplane i hi]
    exact Nat.le_trans (hs.high _ (List.getElem_mem _)) ha.1

theorem geometry_safe : Safe (geometry adapter epoch limit caps r) fun plan =>
    Sound r plan ∧ plan.caps = some caps ∧ plan.allocationBytes ≤ limit :=
  Safe.seq arrange_safe fun _ h =>
    Safe.reject_bind fun hlimit => Safe.pure ⟨h.1, h.2, Nat.le_of_not_lt hlimit⟩

/-! ## The validations -/

theorem geometry_ok : geometry adapter epoch limit caps r = .ok plan ↔
    arrange adapter epoch caps r = .ok plan ∧ plan.allocationBytes ≤ limit := by
  unfold geometry
  simp only [bind_ok, reject_ok, pure_ok]
  constructor
  · rintro ⟨p, hp, _, hlimit, rfl⟩
    exact ⟨hp, Nat.le_of_not_lt hlimit⟩
  · rintro ⟨hp, hlimit⟩
    exact ⟨plan, hp, (), Nat.not_lt.mpr hlimit, rfl⟩

/-- A validation accepts the plan that it derives. -/
theorem validate_ok : plan.validate adapter space = .ok () ↔ plan.expected adapter space = .ok plan := by
  unfold Plan.validate
  simp only [bind_ok, reject_ok, Decidable.not_not]
  constructor
  · rintro ⟨expected, hexpected, rfl⟩
    exact hexpected
  · rintro h
    exact ⟨plan, h, rfl⟩

/-- What a creation is. -/
structure Created (adapter : Nat) (space : Space) (caps : Caps) (r : Request) (plan : Plan) : Prop where
  bound : ¬ (adapter = 0 ∨ space.epoch = 0 ∨ caps.binding.epoch ≠ space.epoch ∨
    caps.binding.client ≠ space.client ∨ caps.binding.device ≠ space.device)
  arranged : arrange adapter space.epoch caps r = .ok plan
  limit : plan.allocationBytes ≤ space.bytes

theorem create_ok : create adapter space caps r = .ok plan ↔ Created adapter space caps r plan := by
  unfold create
  simp only [bind_ok, reject_ok, geometry_ok]
  constructor
  · rintro ⟨_, hb, ha, hl⟩
    exact ⟨hb, ha, hl⟩
  · exact fun h => ⟨(), h.bound, h.arranged, h.limit⟩

theorem create_validates (h : create adapter space caps r = .ok plan) :
    plan.validate adapter space = .ok () ∧ plan.validateView adapter space.epoch = .ok () := by
  have hc := create_ok.1 h
  have ha := arrange_safe.ok hc.arranged
  have hbound := hc.bound
  simp only [not_or, Decidable.not_not] at hbound
  constructor
  · rw [validate_ok]
    unfold Plan.expected
    rw [ha.1.request, ha.2]
    exact h
  · unfold Plan.validateView
    simp only [bind_ok, reject_ok, need_ok, Decidable.not_not, geometry_ok]
    exact ⟨caps, ha.2, (), by simp [hbound.1, hbound.2.1, hbound.2.2.1], r, ha.1.request, plan,
      ⟨hc.arranged, Nat.le_refl _⟩, rfl⟩

/-- A changed plan that keeps its request and its capabilities is refused. -/
theorem create_refuses (h : create adapter space caps r = .ok plan) (hne : plan' ≠ plan)
    (hr : plan'.request = plan.request) (hcaps : plan'.caps = plan.caps) :
    plan'.validate adapter space = .error (.error .Descriptor) ∧
      ∃ e, plan'.validateView adapter space.epoch = .error (.error e) := by
  have hc := create_ok.1 h
  have ha := arrange_safe.ok hc.arranged
  have hbound := hc.bound
  simp only [not_or, Decidable.not_not] at hbound
  constructor
  · unfold Plan.validate Plan.expected
    rw [hr, hcaps, ha.1.request, ha.2]
    show (create adapter space caps r >>= _) = _
    rw [h]
    show (reject (plan' ≠ plan) .Descriptor : Parse Error Unit) = _
    unfold reject
    rw [if_pos hne]
  · unfold Plan.validateView geometry
    rw [hr, hcaps, ha.1.request, ha.2]
    show ∃ e, (reject _ _ >>= fun _ => _) = _
    rw [reject_of_not (by simp [hbound.1, hbound.2.1, hbound.2.2.1])]
    show ∃ e, ((arrange adapter space.epoch caps r >>= _) >>= _) = _
    rw [hc.arranged]
    show ∃ e, ((reject _ _ >>= _) >>= _) = _
    by_cases hlimit : plan.allocationBytes > plan'.allocationBytes
    · rw [reject_of hlimit]
      exact ⟨.Bounds, rfl⟩
    · rw [reject_of_not hlimit]
      show ∃ e, (reject (plan' ≠ plan) .Descriptor : Parse Error Unit) = _
      unfold reject
      rw [if_pos hne]
      exact ⟨.Descriptor, rfl⟩

/-- A view's validation accepts a plan that its request and its capabilities lead to. -/
theorem validateView_ok (h : plan.validateView adapter epoch = .ok ()) : ∃ caps r,
    plan.caps = some caps ∧ plan.request = some r ∧
      geometry adapter epoch plan.allocationBytes caps r = .ok plan := by
  unfold Plan.validateView at h
  simp only [bind_ok, reject_ok, need_ok, Decidable.not_not] at h
  obtain ⟨caps, hcaps, _, _, r, hr, expected, hexpected, rfl⟩ := h
  exact ⟨caps, r, hcaps, hr, hexpected⟩

def smallSpace : Space where
  epoch := 1
  client := 2
  device := 3
  bytes := 1048576

def smallCaps : Caps where
  binding := ⟨1, 2, 3⟩
  raw := (2, 1, 0)

/-- A request that leaves the block height to the driver. -/
def automatic : Request where
  width := 64
  height := 64
  layout := .blocklinear

/-- The same request with the height that the driver chooses. -/
def chosen : Request := { automatic with blockHeight := some 3 }

end Surface
end NvidiaGsp
