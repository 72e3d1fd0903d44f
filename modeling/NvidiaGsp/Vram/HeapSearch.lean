import NvidiaGsp.Lib.Chains
import NvidiaGsp.Lib.Radix
import NvidiaGsp.Vram.Heap

/-!
# Vram.HeapSearch

What the search of the allocator finds. `Book` is the invariant of the list of live ranges. On such a
list the merged walk is the search for the first gap over the sorted union of the retained spans and
the live ranges, so `choose` answers the first open region with room and its least aligned base.
-/

namespace NvidiaGsp
namespace Vram
namespace Heap

open Call Inventory Extent

/-! ## Alignment -/

/-- A power of two of at least 64 KiB, as the owner asks for. -/
def Alignment (alignment : Nat) : Prop :=
  65536 ≤ alignment ∧ alignment &&& (alignment - 1) = 0 ∧ alignment < 2 ^ 64

theorem Alignment.pow {alignment : Nat} (h : Alignment alignment) :
    ∃ k, k < 64 ∧ alignment = 2 ^ k := by
  obtain ⟨hlow, hpow, hhigh⟩ := h
  obtain ⟨k, rfl⟩ := (Nat.and_sub_one_eq_zero_iff_isPowerOfTwo (by omega)).mp hpow
  exact ⟨k, (Nat.pow_lt_pow_iff_right (by decide)).mp hhigh, rfl⟩

def up (alignment value : Nat) : Option Nat := (alignUp value alignment).toOption

/-- `alignUp` finds the least multiple of the alignment that a `u64` holds. -/
theorem rounds_up {alignment : Nat} (h : Alignment alignment) :
    Rounds (fun z => alignment ∣ z ∧ z < 2 ^ 64) (up alignment) := by
  obtain ⟨k, hk, rfl⟩ := h.pow
  have hpos : 0 < 2 ^ k := Nat.two_pow_pos k
  intro v
  unfold up alignUp
  rw [Radix.and_mask]
  split
  · -- The multiples from `v` on do not fit.
    rename_i u hu
    split at hu
    · cases hu
    rename_i hfits
    obtain rfl := Option.some.inj hu
    unfold maxU64 at hfits
    have hlt := Nat.mod_lt (v + (2 ^ k - 1)) hpos
    have hmod := Nat.mod_le (v + (2 ^ k - 1)) (2 ^ k)
    refine ⟨⟨Nat.dvd_sub_mod _, by omega⟩, by omega, ?_⟩
    rintro z ⟨⟨c, rfl⟩, -⟩ hv
    have hdiv := Nat.div_add_mod (v + (2 ^ k - 1)) (2 ^ k)
    have hle : (v + (2 ^ k - 1)) / 2 ^ k ≤ c := by
      rw [← Nat.lt_add_one_iff]
      refine Nat.div_lt_of_lt_mul ?_
      rw [Nat.mul_add, Nat.mul_one]
      omega
    have := Nat.mul_le_mul_left (2 ^ k) hle
    omega
  · rename_i hu
    split at hu
    · rename_i hover
      rintro z ⟨⟨c, rfl⟩, hz⟩ hv
      unfold maxU64 at hover
      have hdvd : 2 ^ k ∣ 2 ^ 64 := Nat.pow_dvd_pow 2 (Nat.le_of_lt hk)
      obtain ⟨d, hd⟩ := hdvd
      rw [hd] at hz
      have hlt : c < d := Nat.lt_of_mul_lt_mul_left hz
      have := Nat.mul_le_mul_left (2 ^ k) (Nat.succ_le_of_lt hlt)
      rw [Nat.mul_succ, ← hd] at this
      omega
    · cases hu

/-! ## The list of live ranges -/

variable {me : Nat} {views : Nat → View} {s : State} {nodes : List Nat}

/-- The extents of the ranges. -/
def State.spans (s : State) (nodes : List Nat) : List Span := nodes.map fun a => (s.ranges a).span

/-- A live range of a node. -/
structure Live (me : Nat) (s : State) (a : Nat) : Prop where
  self : (s.ranges a).selfAddress = a
  owner : (s.ranges a).owner = some me
  stamp : (s.ranges a).span = (s.ranges a).stamp
  bytes : 0 < (s.ranges a).span.bytes

/-- Whole regions are left out when the firmware reserves or protects any of them. -/
def Eligible (r : Region) : Prop :=
  r.reserved = 0 ∧ r.isProtected = false ∧ r.iso = true ∧ r.compressed = true

/-- The extent lies in an eligible region and meets no retained span. -/
def Placed (v : View) (span : Span) : Prop :=
  ∃ r ∈ v.catalog.regions, Eligible r ∧ r.base ≤ span.base ∧ span.stop ≤ r.span.stop ∧
    ∀ held ∈ v.catalog.retained, Apart span held

/-- `nodes` are the live ranges in the order of the list. -/
structure Book (me : Nat) (views : Nat → View) (s : State) (nodes : List Nat) : Prop where
  fresh : s.owner.selfAddress = 0 → s.owner = {}
  bound : s.owner.selfAddress ≠ 0 →
    s.owner.selfAddress = me ∧ s.owner.epoch ≠ 0 ∧ ∃ v, s.owner.view = some v
  first : s.owner.first = nodes.head?
  links : Chain (fun a => (s.ranges a).previous) (fun a => (s.ranges a).next) nodes
  live : ∀ a ∈ nodes, Live me s a
  owned : ∀ a, (s.ranges a).owner = some me → a ∈ nodes
  sorted : Sorted (s.spans nodes)
  bytes : s.owner.bytes = total (s.spans nodes)
  count : s.owner.count = nodes.length
  placed : ∀ v, s.owner.view = some v → ∀ span ∈ s.spans nodes, Placed (views v) span

theorem mem_spans {a : Nat} (h : a ∈ nodes) : (s.ranges a).span ∈ s.spans nodes :=
  List.mem_map.mpr ⟨a, h, rfl⟩

theorem Book.bytes_pos (hb : Book me views s nodes) {span : Span} (h : span ∈ s.spans nodes) :
    0 < span.bytes := by
  obtain ⟨a, ha, rfl⟩ := List.mem_map.mp h
  exact (hb.live a ha).bytes

theorem Book.nodup (hb : Book me views s nodes) : nodes.Nodup := by
  have hsorted := List.pairwise_map.mp hb.sorted
  refine hsorted.imp_of_mem fun {a b} ha _ hab => ?_
  rintro rfl
  have := (hb.live a ha).bytes
  unfold stop at hab
  omega

/-- A list with a node belongs to a bound owner. -/
theorem Book.owner_of_mem (hb : Book me views s nodes) {a : Nat} (ha : a ∈ nodes) :
    s.owner.selfAddress = me ∧ s.owner.epoch ≠ 0 ∧ s.owner.view ≠ none := by
  have hne : s.owner.selfAddress ≠ 0 := by
    intro hz
    have hcount := hb.count
    rw [hb.fresh hz] at hcount
    obtain rfl := List.length_eq_zero_iff.mp hcount.symm
    cases ha
  obtain ⟨hself, hepoch, v, hv⟩ := hb.bound hne
  exact ⟨hself, hepoch, by simp [hv]⟩

/-- Every live range passes the check. -/
theorem Book.validate_ok (hb : Book me views s nodes) {a : Nat} (ha : a ∈ nodes) :
    validate me s a = .ok () := by
  obtain ⟨hself, hepoch, hview⟩ := hb.owner_of_mem ha
  have hlive := hb.live a ha
  have hpos := hlive.bytes
  obtain ⟨pre, post, rfl⟩ := List.append_of_mem ha
  obtain ⟨hprev, hnext⟩ := hb.links pre a post rfl
  dsimp only at hprev hnext
  have hsorted := hb.sorted
  unfold Sorted State.spans at hsorted
  rw [List.map_append, List.map_cons, List.pairwise_append, List.pairwise_cons] at hsorted
  obtain ⟨-, ⟨hafter, -⟩, hbefore⟩ := hsorted
  have hbytes : (s.ranges a).span.bytes ≤ s.owner.bytes := by
    rw [hb.bytes]
    exact bytes_le_total (mem_spans ha)
  have hcount := hb.count
  rw [List.length_append, List.length_cons] at hcount
  unfold validate
  dsimp only
  rw [if_neg, if_neg]
  · simp only [Decidable.not_not]
    unfold Linked
    dsimp only
    rw [hprev, hnext]
    refine ⟨?_, ?_⟩
    · rcases List.eq_nil_or_concat pre with rfl | ⟨ys, p, rfl⟩
      · exact hb.first
      · rw [List.concat_eq_append] at *
        rw [List.getLast?_concat]
        have hp : p ∈ ys ++ [p] ++ a :: post := by simp
        refine ⟨(hb.live p hp).owner, ?_, ?_⟩
        · exact (hb.links ys p (a :: post) (by simp)).2
        · exact hbefore _ (List.mem_map.mpr ⟨p, by simp, rfl⟩) _ List.mem_cons_self
    · cases post with
      | nil => trivial
      | cons q qs =>
        have hq : q ∈ pre ++ a :: q :: qs := by simp
        refine ⟨(hb.live q hq).owner, ?_, hafter _ (List.mem_map.mpr ⟨q, by simp, rfl⟩)⟩
        have := (hb.links (pre ++ [a]) q qs (by simp)).1
        dsimp only at this
        rw [this, List.getLast?_concat]
  · simp only [not_or, Decidable.not_not, not_lt]
    exact ⟨hself, hepoch, hview, hlive.self, hlive.owner, hlive.stamp, by omega, hbytes, by omega⟩

/-- Only live ranges pass the check. -/
theorem Book.mem_of_validate (hb : Book me views s nodes) {a : Nat} (h : validate me s a = .ok ()) :
    a ∈ nodes := by
  unfold validate at h
  dsimp only at h
  split at h
  · cases h
  rename_i hcheck
  simp only [not_or, Decidable.not_not] at hcheck
  exact hb.owned a hcheck.2.2.2.2.1

/-! ## The walk -/

def baseLe (a b : Span) : Bool := decide (a.base ≤ b.base)

/-- The walk over the rest of the list is the search over the merged extents. -/
theorem settle_eq (hb : Book me views s nodes) {bytes alignment limit fuel : Nat} {base : Nat}
    {held : List Span} {pre rest : List Nat} (hnodes : nodes = pre ++ rest)
    (hf : held.length + rest.length < fuel) :
    settle me s bytes alignment limit fuel base held rest.head? =
      .ok (Extent.settle (up alignment) bytes limit base (List.merge held (s.spans rest) baseLe)) := by
  induction fuel generalizing base held pre rest with
  | zero => omega
  | succ fuel ih =>
    have hstep (base : Nat) (x : Span) (xs : List Span) (held : List Span) (node : Option Nat)
        (hroom : base < limit ∧ bytes ≤ limit - base)
        (hrest : ∀ next, settle me s bytes alignment limit fuel next held node =
          .ok (Extent.settle (up alignment) bytes limit next xs)) (above : Except Error (Option Nat))
        (habove : ∀ next, alignUp (x.base + x.bytes) alignment = .ok next →
          above = settle me s bytes alignment limit fuel next held node)
        (hnone : ∀ e, alignUp (x.base + x.bytes) alignment = .error e → above = .ok none) :
        (if x.base ≥ base + bytes then .ok (some base)
          else if x.base + x.bytes > base then above
          else settle me s bytes alignment limit fuel base held node) =
        (.ok (Extent.settle (up alignment) bytes limit base (x :: xs)) :
          Except Error (Option Nat)) := by
      unfold Extent.settle
      rw [if_pos hroom]
      split
      · rfl
      · have hup : up alignment x.stop = (alignUp (x.base + x.bytes) alignment).toOption := rfl
        rw [hup]
        show (if x.stop > base then _ else _) = _
        split
        · cases hnext : alignUp (x.base + x.bytes) alignment with
          | ok next => exact (habove next hnext).trans (hrest next)
          | error e => exact hnone e hnext
        · exact hrest base
    have hnone (hroom : ¬ (base < limit ∧ bytes ≤ limit - base)) (xs : List Span) :
        Extent.settle (up alignment) bytes limit base xs = none := by
      unfold Extent.settle
      cases xs with
      | nil => exact if_neg hroom
      | cons x xs => exact if_neg hroom
    unfold settle
    by_cases hroom : base < limit ∧ bytes ≤ limit - base
    · rw [if_neg (not_not.mpr hroom)]
      dsimp only
      cases rest with
      | nil =>
        cases held with
        | nil =>
          rw [State.spans, List.map_nil, List.merge_right]
          unfold Extent.settle
          rw [if_pos hroom]
          rfl
        | cons x held =>
          rw [State.spans, List.map_nil, List.merge_right]
          refine hstep base x held held none hroom (fun next => ?_) _ (fun _ h => by rw [h]) fun _ h => by rw [h]
          rw [List.length_cons] at hf
          have := @ih next held pre [] hnodes (by omega)
          rwa [State.spans, List.map_nil, List.merge_right] at this
      | cons a rest =>
        have ha : a ∈ nodes := hnodes ▸ List.mem_append_right _ List.mem_cons_self
        have hnext := (hb.links pre a rest hnodes).2
        dsimp only at hnext
        rw [List.head?_cons]
        dsimp only
        rw [hb.validate_ok ha]
        dsimp only
        rw [hnext]
        have hbehind : nodes = (pre ++ [a]) ++ rest := by rw [hnodes]; simp
        have hspans : s.spans (a :: rest) = (s.ranges a).span :: s.spans rest := rfl
        rw [List.length_cons] at hf
        cases held with
        | nil =>
          rw [List.nil_merge, hspans]
          refine hstep base _ _ _ _ hroom (fun next => ?_) _ (fun _ h => by rw [h]) fun _ h => by rw [h]
          have := @ih next [] (pre ++ [a]) rest hbehind (by simp at hf ⊢; omega)
          rwa [List.nil_merge] at this
        | cons x held =>
          rw [List.length_cons] at hf
          dsimp only
          rw [hspans, List.cons_merge_cons]
          by_cases hle : x.base ≤ (s.ranges a).span.base
          · have hbase : baseLe x (s.ranges a).span = true := decide_eq_true hle
            rw [if_pos hle, if_pos hbase, ← hspans]
            refine hstep base _ _ _ _ hroom (fun next => ?_) _ (fun _ h => by rw [h]) fun _ h => by rw [h]
            exact @ih next held pre (a :: rest) hnodes (by rw [List.length_cons]; omega)
          · have hbase : ¬ baseLe x (s.ranges a).span = true := fun h => hle (of_decide_eq_true h)
            rw [if_neg hle, if_neg hbase]
            refine hstep base _ _ _ _ hroom (fun next => ?_) _ (fun _ h => by rw [h]) fun _ h => by rw [h]
            exact @ih next (x :: held) (pre ++ [a]) rest hbehind (by rw [List.length_cons]; omega)
    · rw [if_pos hroom, hnone hroom]

/-! ## The choice -/

/-- A base for the request in a region. -/
structure Fits (v : View) (live : List Span) (region : Region) (bytes alignment minimum z : Nat) :
    Prop where
  low : max region.base minimum ≤ z
  aligned : alignment ∣ z
  inside : z + bytes ≤ region.base + region.bytes
  retained : ∀ held ∈ v.catalog.retained, Apart ⟨z, bytes⟩ held
  live : ∀ span ∈ live, Apart ⟨z, bytes⟩ span

/-- The first eligible region with room decides, with its least base. -/
def FirstFit (v : View) (live : List Span) (bytes alignment minimum : Nat) (regions : List Region) :
    Option Nat → Prop
  | some b => ∃ pre region post, regions = pre ++ region :: post ∧ Eligible region ∧
      (∀ r ∈ pre, Eligible r → ∀ z, ¬ Fits v live r bytes alignment minimum z) ∧
      Fits v live region bytes alignment minimum b ∧
      ∀ z, Fits v live region bytes alignment minimum z → b ≤ z
  | none => ∀ r ∈ regions, Eligible r → ∀ z, ¬ Fits v live r bytes alignment minimum z

theorem FirstFit.skip {v : View} {live : List Span} {bytes alignment minimum : Nat} {region : Region}
    {regions : List Region} {o : Option Nat}
    (h : FirstFit v live bytes alignment minimum regions o)
    (hno : Eligible region → ∀ z, ¬ Fits v live region bytes alignment minimum z) :
    FirstFit v live bytes alignment minimum (region :: regions) o := by
  cases o with
  | none =>
    intro r hr he
    rcases List.mem_cons.mp hr with rfl | hr
    · exact hno he
    · exact h r hr he
  | some b =>
    obtain ⟨pre, found, post, rfl, helig, hpre, hfits, hleast⟩ := h
    refine ⟨region :: pre, found, post, rfl, helig, fun r hr he => ?_, hfits, hleast⟩
    rcases List.mem_cons.mp hr with rfl | hr
    · exact hno he
    · exact hpre r hr he

theorem merged_sorted (v : View) (hb : Book me views s nodes) :
    (List.merge v.catalog.retained (s.spans nodes) baseLe).Pairwise fun a b => a.base ≤ b.base := by
  have htrans : ∀ a b c : Span, baseLe a b → baseLe b c → baseLe a c := by
    intro a b c hab hbc
    simp only [baseLe, decide_eq_true_eq] at hab hbc ⊢
    omega
  have htotal : ∀ a b : Span, baseLe a b || baseLe b a := by
    intro a b
    simp only [baseLe, Bool.or_eq_true, decide_eq_true_eq]
    omega
  have hretained : v.catalog.retained.Pairwise fun a b => baseLe a b := by
    refine v.retained_ok.sorted.imp fun {a b} hab => ?_
    unfold stop at hab
    simp only [baseLe, decide_eq_true_eq]
    omega
  have hlive : (s.spans nodes).Pairwise fun a b => baseLe a b := by
    refine hb.sorted.imp fun {a b} hab => ?_
    unfold stop at hab
    simp only [baseLe, decide_eq_true_eq]
    omega
  exact (List.pairwise_merge htrans htotal _ _ hretained hlive).imp fun h => of_decide_eq_true h

/-- One region: the search finds the least base, if there is one. -/
theorem region_spec {v : View} {bytes alignment minimum base : Nat} {region : Region}
    (hb : Book me views s nodes) (ha : Alignment alignment) (hpos : 0 < bytes)
    (hr : region ∈ v.catalog.regions) (hbase : alignUp (max region.base minimum) alignment = .ok base) :
    Least (Fits v (s.spans nodes) region bytes alignment minimum)
      (Extent.settle (up alignment) bytes (region.base + region.bytes) base
        (List.merge v.catalog.retained (s.spans nodes) baseLe)) := by
  have hround := rounds_up ha (max region.base minimum)
  have hup : up alignment (max region.base minimum) = some base := by
    rw [up, hbase]
    rfl
  rw [hup] at hround
  obtain ⟨hgood, hle, hleast⟩ := hround
  refine (settle_spec (rounds_up ha) hpos hgood (merged_sorted v hb)).congr fun z => ⟨fun hz => ?_,
    fun hz => ?_⟩
  · refine ⟨Nat.le_trans hle hz.low, hz.good.1, hz.limit, fun held hheld => ?_, fun span hspan => ?_⟩
    · exact hz.apart held (List.mem_merge.mpr (.inl hheld))
    · exact hz.apart span (List.mem_merge.mpr (.inr hspan))
  · have hsmall : z < 2 ^ 64 := by
      have hstop : region.base + region.bytes ≤ v.catalog.physicalBytes :=
        (v.regions_ok.inside region hr).2
      have := hz.inside
      have := v.small
      omega
    refine ⟨⟨hz.aligned, hsmall⟩, hleast z ⟨hz.aligned, hsmall⟩ hz.low, hz.inside, fun x hx => ?_⟩
    rcases List.mem_merge.mp hx with hx | hx
    · exact hz.retained x hx
    · exact hz.live x hx

/-- The choice is the first fit; the placement check never objects. -/
theorem chooseIn_spec {v : View} {bytes alignment minimum : Nat} {regions : List Region}
    (hb : Book me views s nodes) (hp : v.published = true)
    (hu : v.catalog.firmwareLayoutUsable = true) (ha : Alignment alignment) (hpos : 0 < bytes)
    (hsub : ∀ r ∈ regions, r ∈ v.catalog.regions) :
    ∃ o, FirstFit v (s.spans nodes) bytes alignment minimum regions o ∧
      chooseIn me s v bytes alignment minimum regions =
        match o with
        | some b => .ok b
        | none => .error .Memory := by
  induction regions with
  | nil => exact ⟨none, by simp [FirstFit], rfl⟩
  | cons region rest ih =>
    obtain ⟨o, hfit, hrest⟩ := ih fun r hr => hsub r (List.mem_cons_of_mem _ hr)
    unfold chooseIn
    split
    · -- A reserved, protected or limited region.
      rename_i hclosed
      refine ⟨o, hfit.skip fun he => absurd hclosed ?_, hrest⟩
      simp [he.1, he.2.1, he.2.2.1, he.2.2.2]
    rename_i hopen
    simp only [not_or, Decidable.not_not, Bool.not_eq_true, Bool.not_eq_false] at hopen
    have helig : Eligible region := hopen
    have hmem := hsub region List.mem_cons_self
    cases hbase : alignUp (max region.base minimum) alignment with
    | error e =>
      -- No aligned base from there on is an address.
      refine ⟨o, hfit.skip fun _ z hz => ?_, hrest⟩
      have hround := rounds_up ha (max region.base minimum)
      have hup : up alignment (max region.base minimum) = none := by
        rw [up, hbase]
        rfl
      rw [hup] at hround
      have hstop : region.base + region.bytes ≤ v.catalog.physicalBytes :=
        (v.regions_ok.inside region hmem).2
      have := hz.inside
      have := v.small
      exact hround z ⟨hz.aligned, by omega⟩ hz.low
    | ok base =>
      have hspec := region_spec hb ha hpos hmem hbase
      have hwalk : settle me s bytes alignment (region.base + region.bytes)
          (v.catalog.retained.length + s.owner.count + 1) base v.catalog.retained nodes.head? =
          .ok (Extent.settle (up alignment) bytes (region.base + region.bytes) base
            (List.merge v.catalog.retained (s.spans nodes) baseLe)) :=
        settle_eq hb (List.nil_append nodes).symm (by rw [hb.count]; omega)
      rw [← hb.first] at hwalk
      dsimp only
      rw [hwalk]
      cases hfound : Extent.settle (up alignment) bytes (region.base + region.bytes) base
          (List.merge v.catalog.retained (s.spans nodes) baseLe) with
      | none =>
        rw [hfound] at hspec
        exact ⟨o, hfit.skip fun _ => hspec, hrest⟩
      | some b =>
        rw [hfound] at hspec
        obtain ⟨hb', hleast⟩ := hspec
        refine ⟨some b, ⟨[], region, rest, rfl, helig, by simp, hb', hleast⟩, ?_⟩
        have hplace : placement v ⟨b, bytes⟩ = .ok .requiresHostAllocation := by
          refine placement_ok hp hu hpos hmem ⟨helig.2.1, helig.1⟩ ?_ hb'.inside hb'.retained
          exact Nat.le_trans (Nat.le_max_left _ _) hb'.low
        dsimp only
        rw [if_neg (not_not.mpr hplace)]

/-- The neighbours of a base split the list. -/
theorem neighbours_spec (hb : Book me views s nodes) {base fuel : Nat} {pre rest : List Nat}
    (hnodes : nodes = pre ++ rest) (hpre : ∀ a ∈ pre, (s.ranges a).span.base ≤ base)
    (hf : rest.length < fuel) :
    ∃ before after, nodes = before ++ after ∧
      neighbours me s base fuel pre.getLast? rest.head? = .ok (before.getLast?, after.head?) ∧
      (∀ a ∈ before, (s.ranges a).span.base ≤ base) ∧
      ∀ a, after.head? = some a → base < (s.ranges a).span.base := by
  induction fuel generalizing pre rest with
  | zero => omega
  | succ fuel ih =>
    cases rest with
    | nil => exact ⟨pre, [], hnodes, rfl, hpre, by simp⟩
    | cons a rest =>
      have ha : a ∈ nodes := hnodes ▸ List.mem_append_right _ List.mem_cons_self
      unfold neighbours
      rw [List.head?_cons]
      dsimp only
      rw [hb.validate_ok ha]
      dsimp only
      split
      · rename_i hgt
        refine ⟨pre, a :: rest, hnodes, rfl, hpre, fun x hx => ?_⟩
        obtain rfl : a = x := Option.some.inj hx
        exact hgt
      · rename_i hle
        have hnext := (hb.links pre a rest hnodes).2
        dsimp only at hnext
        rw [hnext]
        rw [List.length_cons] at hf
        have := @ih (pre ++ [a]) rest (by rw [hnodes]; simp) (fun x hx => ?_) (by omega)
        · rwa [List.getLast?_concat] at this
        · rcases List.mem_append.mp hx with hx | hx
          · exact hpre x hx
          · obtain rfl := List.mem_singleton.mp hx
            omega

end Heap
end Vram
end NvidiaGsp
