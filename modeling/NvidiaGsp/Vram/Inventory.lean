import NvidiaGsp.Lib.Extents
import NvidiaGsp.Lib.Runs

/-!
# Vram.Inventory

The inventory of the video memory (`gsp_memory_inventory.zig`): the regions the firmware reports, and
the union of the spans the boot still holds. `View` is an inventory as `prepare` builds it, so that a
malformed one cannot be given to the allocator. Where the retained spans come from is left open, and
so are the counters that no placement reads.
-/

namespace NvidiaGsp
namespace Vram
namespace Inventory

open Extent

abbrev Span := Extent

/-- The errors of the inventory; `MemoryStale` is its answer while it is not published. -/
inductive Error where
  | MemoryBounds | MemoryRegion | MemoryCapacity | MemoryStale
  deriving DecidableEq, Repr

def maxSpans : Nat := 3 + 1024 + 128 + (8 * 6 + (8 * 3 + 8 * 2))

structure Region where
  base : Nat
  bytes : Nat
  reserved : Nat := 0
  compressed : Bool := false
  iso : Bool := false
  isProtected : Bool := false
  deriving DecidableEq

def Region.span (r : Region) : Span := ⟨r.base, r.bytes⟩

structure Catalog where
  epoch : Nat
  physicalBytes : Nat
  firmwareLayoutUsable : Bool
  regions : List Region
  retained : List Span := []

def bounds (physicalBytes : Nat) (span : Span) : Except Error Unit :=
  if span.bytes = 0 ∨ span.base ≥ physicalBytes ∨ span.bytes > physicalBytes - span.base then
    .error .MemoryBounds
  else .ok ()

/-! ## Building -/

/-- The regions of the report: in bounds, and apart from every one before. -/
def checkRegions (physicalBytes : Nat) (before : List Region) : List Region → Except Error Unit
  | [] => .ok ()
  | region :: rest =>
    match bounds physicalBytes region.span with
    | .error e => .error e
    | .ok _ =>
      if region.reserved > region.bytes then .error .MemoryBounds
      else if before.any fun prior => overlap region.span prior.span != 0 then .error .MemoryRegion
      else checkRegions physicalBytes (before ++ [region]) rest

/-- The span `begin` to `stop` with every span it reaches. -/
def absorb (begin stop : Nat) : List Span → List Span
  | [] => [⟨begin, stop - begin⟩]
  | held :: rest =>
    if held.base ≤ stop then absorb (min begin held.base) (max stop (held.base + held.bytes)) rest
    else ⟨begin, stop - begin⟩ :: held :: rest

/-- The spans that end before `begin` stay in front. -/
def insert (begin stop : Nat) : List Span → List Span
  | [] => absorb begin stop []
  | held :: rest =>
    if held.base + held.bytes < begin then held :: insert begin stop rest
    else absorb begin stop (held :: rest)

def add (physicalBytes : Nat) (retained : List Span) (span : Span) : Except Error (List Span) :=
  match bounds physicalBytes span with
  | .error e => .error e
  | .ok _ =>
    let spans := insert span.base (span.base + span.bytes) retained
    if spans.length > maxSpans then .error .MemoryCapacity else .ok spans

def addAll (physicalBytes : Nat) (retained : List Span) : List Span → Except Error (List Span)
  | [] => .ok retained
  | span :: rest =>
    match add physicalBytes retained span with
    | .error e => .error e
    | .ok retained => addAll physicalBytes retained rest

/-- The regions and the retained spans of `prepare`. -/
def prepare (epoch physicalBytes : Nat) (usable : Bool) (regions : List Region) (spans : List Span) :
    Except Error Catalog :=
  match checkRegions physicalBytes [] regions with
  | .error e => .error e
  | .ok _ =>
    match addAll physicalBytes [] spans with
    | .error e => .error e
    | .ok retained => .ok ⟨epoch, physicalBytes, usable, regions, retained⟩

/-- A prepared inventory of a memory below 2^64, published or not. -/
structure View where
  catalog : Catalog
  published : Bool
  small : catalog.physicalBytes < 2 ^ 64
  prepared : ∃ epoch physicalBytes usable regions spans,
    prepare epoch physicalBytes usable regions spans = .ok catalog

/-! ## Placement -/

inductive Placement where
  | invalid | regionGap | isProtected | rmReserved | bootRetained | firmwareLayoutChanged
  | requiresHostAllocation
  deriving DecidableEq, Repr

/-- The first region around the span decides. -/
def placeIn (span : Span) : List Region → Placement
  | [] => .regionGap
  | region :: rest =>
    if span.base < region.base ∨ span.base + span.bytes > region.base + region.bytes then placeIn span rest
    else if region.isProtected then .isProtected
    else if region.reserved ≠ 0 then .rmReserved
    else .requiresHostAllocation

def placement (v : View) (span : Span) : Except Error Placement :=
  if v.published = false then .error .MemoryStale
  else match bounds v.catalog.physicalBytes span with
  | .error _ => .ok .invalid
  | .ok _ =>
    if v.catalog.firmwareLayoutUsable = false then .ok .firmwareLayoutChanged
    else if v.catalog.retained.any fun held => overlap span held != 0 then .ok .bootRetained
    else .ok (placeIn span v.catalog.regions)

/-! ## What a view guarantees -/

theorem bounds_ok {physicalBytes : Nat} {span : Span} (h : bounds physicalBytes span = .ok ()) :
    0 < span.bytes ∧ span.stop ≤ physicalBytes := by
  unfold bounds at h
  split at h
  · cases h
  rename_i hb
  simp only [not_or] at hb
  unfold stop
  omega

theorem bounds_of {physicalBytes : Nat} {span : Span} (hb : 0 < span.bytes)
    (hs : span.stop ≤ physicalBytes) : bounds physicalBytes span = .ok () := by
  unfold stop at hs
  unfold bounds
  rw [if_neg (by omega)]

/-- The regions are in bounds and apart. -/
structure Regions (physicalBytes : Nat) (regions : List Region) : Prop where
  inside : ∀ r ∈ regions, 0 < r.bytes ∧ r.span.stop ≤ physicalBytes
  apart : regions.Pairwise fun a b => Apart a.span b.span

theorem checkRegions_ok {physicalBytes : Nat} {before regions : List Region}
    (hb : Regions physicalBytes before) (h : checkRegions physicalBytes before regions = .ok ()) :
    Regions physicalBytes (before ++ regions) := by
  induction regions generalizing before with
  | nil => rwa [List.append_nil]
  | cons r rest ih =>
    unfold checkRegions at h
    split at h
    · cases h
    rename_i hbounds
    split at h
    · cases h
    split at h
    · cases h
    rename_i hover
    obtain ⟨hpos, hstop⟩ := bounds_ok hbounds
    have hapart : ∀ p ∈ before, Apart p.span r.span := by
      intro p hp
      simp only [List.any_eq_true, not_exists, not_and, bne_iff_ne, Decidable.not_not] at hover
      exact ((overlap_eq_zero hpos (hb.inside p hp).1).mp (hover p hp)).symm
    have hnext : Regions physicalBytes (before ++ [r]) := by
      refine ⟨fun p hp => ?_, List.pairwise_append.mpr ⟨hb.apart, by simp, fun p hp q hq => ?_⟩⟩
      · rcases List.mem_append.mp hp with hp | hp
        · exact hb.inside p hp
        · obtain rfl := List.mem_singleton.mp hp
          exact ⟨hpos, hstop⟩
      · obtain rfl := List.mem_singleton.mp hq
        exact hapart p hp
    have := ih hnext h
    rwa [List.append_assoc] at this

/-- A sorted union: no two spans touch, none is empty, all are in bounds. -/
structure Union (physicalBytes : Nat) (spans : List Span) : Prop where
  sorted : spans.Pairwise fun a b => a.stop < b.base
  inside : ∀ s ∈ spans, 0 < s.bytes ∧ s.stop ≤ physicalBytes

theorem Union.tail {physicalBytes : Nat} {s : Span} {spans : List Span}
    (h : Union physicalBytes (s :: spans)) : Union physicalBytes spans :=
  ⟨(List.pairwise_cons.mp h.sorted).2, fun x hx => h.inside x (List.mem_cons_of_mem _ hx)⟩

theorem absorb_union {physicalBytes begin stop : Nat} {spans : List Span}
    (h : Union physicalBytes spans) (hlt : begin < stop) (hle : stop ≤ physicalBytes) :
    Union physicalBytes (absorb begin stop spans) ∧
      ∀ low, low < begin → (∀ s ∈ spans, low < s.base) → ∀ s ∈ absorb begin stop spans, low < s.base := by
  induction spans generalizing begin stop with
  | nil =>
    refine ⟨⟨by simp [absorb], fun s hs => ?_⟩, fun low hlow _ s hs => ?_⟩
    · obtain rfl := List.mem_singleton.mp hs
      unfold Extent.stop
      dsimp only
      omega
    · obtain rfl := List.mem_singleton.mp hs
      exact hlow
  | cons held rest ih =>
    obtain ⟨hpos, hstop⟩ := h.inside held List.mem_cons_self
    unfold Extent.stop at hstop
    unfold absorb
    split
    · obtain ⟨hunion, hlow⟩ := @ih (min begin held.base) (max stop (held.base + held.bytes)) h.tail
        (by omega) (by omega)
      refine ⟨hunion, fun low hb hs => hlow low ?_ fun s hx => hs s (List.mem_cons_of_mem _ hx)⟩
      have := hs held List.mem_cons_self
      omega
    · rename_i hgap
      refine ⟨⟨List.pairwise_cons.mpr ⟨fun s hs => ?_, h.sorted⟩, fun s hs => ?_⟩, fun low hb hs s hx => ?_⟩
      · show begin + (stop - begin) < s.base
        rcases List.mem_cons.mp hs with rfl | hs
        · omega
        · have := (List.pairwise_cons.mp h.sorted).1 s hs
          unfold Extent.stop at this
          omega
      · rcases List.mem_cons.mp hs with rfl | hs
        · unfold Extent.stop
          dsimp only
          omega
        · exact h.inside s hs
      · rcases List.mem_cons.mp hx with rfl | hx
        · exact hb
        · exact hs s hx

theorem insert_union {physicalBytes begin stop : Nat} {spans : List Span}
    (h : Union physicalBytes spans) (hlt : begin < stop) (hle : stop ≤ physicalBytes) :
    Union physicalBytes (insert begin stop spans) ∧
      ∀ low, low < begin → (∀ s ∈ spans, low < s.base) → ∀ s ∈ insert begin stop spans, low < s.base := by
  induction spans with
  | nil => exact absorb_union h hlt hle
  | cons held rest ih =>
    unfold insert
    split
    · rename_i hbefore
      obtain ⟨hunion, hlow⟩ := ih h.tail
      have hfirst := (List.pairwise_cons.mp h.sorted).1
      refine ⟨⟨List.pairwise_cons.mpr ⟨hlow _ hbefore hfirst, hunion.sorted⟩, fun s hs => ?_⟩,
        fun low hb hs s hx => ?_⟩
      · rcases List.mem_cons.mp hs with rfl | hs
        · exact h.inside s List.mem_cons_self
        · exact hunion.inside s hs
      · rcases List.mem_cons.mp hx with rfl | hx
        · exact hs s List.mem_cons_self
        · exact hlow low hb (fun y hy => hs y (List.mem_cons_of_mem _ hy)) s hx
    · exact absorb_union h hlt hle

theorem addAll_union {physicalBytes : Nat} {retained spans retained' : List Span}
    (h : Union physicalBytes retained) (hadd : addAll physicalBytes retained spans = .ok retained') :
    Union physicalBytes retained' := by
  induction spans generalizing retained with
  | nil =>
    cases hadd
    exact h
  | cons span rest ih =>
    unfold addAll at hadd
    split at hadd
    · cases hadd
    rename_i next hnext
    refine ih ?_ hadd
    unfold add at hnext
    split at hnext
    · cases hnext
    rename_i hbounds
    dsimp only at hnext
    split at hnext
    · cases hnext
    · cases hnext
      obtain ⟨hpos, hstop⟩ := bounds_ok hbounds
      exact (insert_union h (Nat.lt_add_of_pos_right hpos) hstop).1

theorem View.regions_ok (v : View) : Regions v.catalog.physicalBytes v.catalog.regions := by
  obtain ⟨epoch, physicalBytes, usable, regions, spans, h⟩ := v.prepared
  unfold prepare at h
  split at h
  · cases h
  rename_i hregions
  split at h
  · cases h
  · have hempty : Regions physicalBytes [] := ⟨by simp, by simp⟩
    rw [← Except.ok.inj h]
    exact checkRegions_ok hempty hregions

theorem View.retained_ok (v : View) : Union v.catalog.physicalBytes v.catalog.retained := by
  obtain ⟨epoch, physicalBytes, usable, regions, spans, h⟩ := v.prepared
  unfold prepare at h
  split at h
  · cases h
  split at h
  · cases h
  · rename_i hretained
    rw [← Except.ok.inj h]
    exact addAll_union ⟨by simp, by simp⟩ hretained

/-- An extent in an open region and apart from the retained spans may be allocated. -/
theorem placement_ok {v : View} {span : Span} {region : Region} (hp : v.published = true)
    (hu : v.catalog.firmwareLayoutUsable = true) (hpos : 0 < span.bytes)
    (hr : region ∈ v.catalog.regions) (hopen : region.isProtected = false ∧ region.reserved = 0)
    (hbase : region.base ≤ span.base) (hstop : span.stop ≤ region.span.stop)
    (hapart : ∀ held ∈ v.catalog.retained, Apart span held) :
    placement v span = .ok .requiresHostAllocation := by
  have hinside := v.regions_ok.inside
  unfold placement
  rw [if_neg (by simp [hp]), bounds_of hpos (Nat.le_trans hstop (hinside region hr).2)]
  dsimp only
  rw [if_neg (by simp [hu]), if_neg]
  · have hplace {regions : List Region} (hmem : region ∈ regions)
        (hregions : ∀ r ∈ regions, 0 < r.bytes)
        (hpair : regions.Pairwise fun a b => Apart a.span b.span) :
        placeIn span regions = .requiresHostAllocation := by
      induction regions with
      | nil => cases hmem
      | cons r rest ih =>
        rw [List.pairwise_cons] at hpair
        unfold placeIn
        unfold Extent.stop at hstop
        rcases List.mem_cons.mp hmem with rfl | hmem
        · have hstop : span.base + span.bytes ≤ region.base + region.bytes := hstop
          rw [if_neg (by omega), if_neg (by simp [hopen.1]), if_neg (by simp [hopen.2])]
        · -- The span lies in a later region, apart from this one.
          have := hpair.1 region hmem
          have hstop : span.base + span.bytes ≤ region.base + region.bytes := hstop
          have hapart : r.base + r.bytes ≤ region.base ∨ region.base + region.bytes ≤ r.base := this
          rw [if_pos (by omega)]
          exact ih hmem (fun x hx => hregions x (List.mem_cons_of_mem _ hx)) hpair.2
    rw [hplace hr (fun r hr => (hinside r hr).1) v.regions_ok.apart]
  · simp only [List.any_eq_true, not_exists, not_and, bne_iff_ne, Decidable.not_not]
    intro held hheld
    exact (overlap_eq_zero hpos (v.retained_ok.inside held hheld).1).mpr (hapart held hheld)

end Inventory
end Vram
end NvidiaGsp
