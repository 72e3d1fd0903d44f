import NvidiaGsp.Lib.Unions
import NvidiaGsp.Vram.Retained

/-!
# Vram.RetainedSpec

The array of the retained spans refines the list of `Vram.Inventory`, which covers exactly what was
added; its running byte count is the size of the union, and no call subtracts too much.
-/

namespace NvidiaGsp
namespace Vram
namespace Retained

open Call Moves Inventory Extent

variable {a : Nat → Extent} {o o' : Owner} {spans : List Extent} {span x : Extent} {start n i b : Nat}

/-! ## The list -/

/-- The list covers the span and what it covered before. -/
theorem covered_absorb {stop : Nat} (hlt : start < stop) (h : ∀ s ∈ spans, start ≤ s.stop)
    (hs : Sorted spans) : ∀ b, b ∈ covered (absorb start stop spans) ↔
      (start ≤ b ∧ b < stop) ∨ b ∈ covered spans := by
  induction spans generalizing start stop with
  | nil =>
    intro b
    have hstop : Extent.stop ⟨start, stop - start⟩ = stop := by
      unfold Extent.stop
      dsimp only
      omega
    simp [absorb, covered, mem_points, hstop]
  | cons held rest ih =>
    intro b
    obtain ⟨hfirst, hrest⟩ := List.pairwise_cons.mp hs
    have hlow := h held List.mem_cons_self
    unfold absorb
    split
    · rename_i htouch
      unfold Extent.stop at hlow
      have hnext : ∀ s ∈ rest, min start held.base ≤ s.stop := fun s hs =>
        Nat.le_trans (Nat.min_le_left _ _) (h s (List.mem_cons_of_mem _ hs))
      rw [ih (by omega) hnext hrest, covered, Finset.mem_union, mem_points, ← or_assoc]
      refine or_congr_left ?_
      unfold Extent.stop
      omega
    · have hstop : Extent.stop ⟨start, stop - start⟩ = stop := by
        unfold Extent.stop
        dsimp only
        omega
      rw [covered, Finset.mem_union, mem_points, hstop]

theorem covered_insert {stop : Nat} (hlt : start < stop) (hs : Sorted spans) :
    ∀ b, b ∈ covered (Inventory.insert start stop spans) ↔ (start ≤ b ∧ b < stop) ∨ b ∈ covered spans := by
  induction spans with
  | nil => exact covered_absorb hlt (fun _ h => nomatch h) hs
  | cons held rest ih =>
    intro b
    obtain ⟨hfirst, hrest⟩ := List.pairwise_cons.mp hs
    unfold Inventory.insert
    split
    · rw [covered, Finset.mem_union, ih hrest, covered, Finset.mem_union, or_left_comm]
    · rename_i hmeet
      refine covered_absorb hlt (fun s hmem => ?_) hs b
      have hheld : start ≤ held.stop := by
        unfold Extent.stop
        omega
      rcases List.mem_cons.mp hmem with rfl | hmem
      · exact hheld
      · have := hfirst s hmem
        have : s.base ≤ s.stop := Nat.le_add_right _ _
        omega

/-! ## The array -/

/-- A part of the array. -/
def part (a : Nat → Extent) (i n : Nat) : List Extent := (List.range' i n).map a

theorem part_zero : part a i 0 = [] := rfl

theorem part_succ : part a i (n + 1) = a i :: part a (i + 1) n := by
  unfold part
  rw [List.range'_succ, List.map_cons]

theorem part_add {m : Nat} : part a i (m + n) = part a i m ++ part a (i + m) n := by
  unfold part
  rw [← List.map_append, List.range'_append_1]

/-- The first loop leaves the entries in front that the list keeps there. -/
theorem skip_spec {count stop : Nat} (hn : i + n = count) :
    ∃ k m, skip a count start n i = i + k ∧ k + m = n ∧
      Inventory.insert start stop (part a i n) = part a i k ++ absorb start stop (part a (i + k) m) := by
  induction n generalizing i with
  | zero => exact ⟨0, 0, rfl, rfl, rfl⟩
  | succ n ih =>
    rw [skip, part_succ, Inventory.insert]
    by_cases hend : (a i).stop < start
    · rw [if_pos ⟨by omega, hend⟩, if_pos (show (a i).base + (a i).bytes < start from hend)]
      obtain ⟨k, m, hk, hm, hlist⟩ := ih (i := i + 1) (by omega)
      refine ⟨k + 1, m, by rw [hk]; omega, by omega, ?_⟩
      rw [hlist, part_succ, List.cons_append, Nat.add_assoc, Nat.add_comm 1 k]
    · rw [if_neg fun h => hend h.2, if_neg (show ¬ (a i).base + (a i).bytes < start from hend)]
      refine ⟨0, n + 1, rfl, by omega, ?_⟩
      rw [part_zero, List.nil_append, part_succ]
      rfl

/-- The second loop grows the span as the list does, and counts what it swallows. -/
theorem swallow_spec {count fuel : Nat} {g : Growing} (hn : g.last + n = count) (hfuel : n ≤ fuel) :
    ∃ k m, (swallow a count fuel g).last = g.last + k ∧ k + m = n ∧
      absorb g.start g.stop (part a g.last n) =
        ⟨(swallow a count fuel g).start,
          (swallow a count fuel g).stop - (swallow a count fuel g).start⟩ :: part a (g.last + k) m ∧
      (swallow a count fuel g).replaced = g.replaced + total (part a g.last k) ∧
      (g.start ≤ g.stop → (swallow a count fuel g).start ≤ (swallow a count fuel g).stop) := by
  induction n generalizing g fuel with
  | zero =>
    have hend : swallow a count fuel g = g := by
      cases fuel with
      | zero => rfl
      | succ fuel => rw [swallow, if_neg (by omega)]
    rw [hend]
    exact ⟨0, 0, rfl, rfl, rfl, rfl, id⟩
  | succ n ih =>
    obtain ⟨fuel, rfl⟩ := Nat.exists_eq_add_of_le' (Nat.lt_of_lt_of_le (Nat.succ_pos n) hfuel)
    rw [swallow, part_succ, absorb]
    by_cases hmeet : (a g.last).base ≤ g.stop
    · rw [if_pos ⟨by omega, hmeet⟩, if_pos hmeet]
      obtain ⟨k, m, hk, hm, hlist, hrep, hle⟩ := @ih fuel {
        last := g.last + 1
        start := min g.start (a g.last).base
        stop := max g.stop (a g.last).stop
        replaced := g.replaced + (a g.last).bytes } (by dsimp only; omega) (by omega)
      dsimp only at hk hlist hrep hle
      refine ⟨k + 1, m, by rw [hk]; omega, by omega, ?_, ?_, fun h => hle (by omega)⟩
      · show absorb _ (max g.stop (a g.last).stop) _ = _
        rw [hlist, Nat.add_assoc, Nat.add_comm 1 k]
      · rw [hrep, part_succ, total_cons, Nat.add_assoc]
    · rw [if_neg fun h => hmeet h.2, if_neg hmeet]
      refine ⟨0, n + 1, rfl, by omega, ?_, rfl, id⟩
      rw [part_succ]
      rfl

/-- The entries behind the new one arrive whole, wherever they move. -/
theorem shift_spec {first last m : Nat} (hle : first ≤ last) :
    part (shift a first last (last + m) x) 0 (first + 1 + m) =
      part a 0 first ++ x :: part a last m := by
  have hshift (j : Nat) : shift a first last (last + m) x j =
      if j < first then a j else if j = first then x else
        if j < first + 1 + m then a (last + (j - (first + 1))) else a j := by
    unfold shift
    by_cases hj : j = first
    · subst hj
      rw [Function.update_self, if_neg (by omega), if_pos rfl]
    · rw [Function.update_of_ne hj, if_neg hj]
      have hmoved : (if last = first then copyBackwards a (first + 1) first (last + m - first)
          else copyForwards a (first + 1) last (last + m - last)) j =
          if first + 1 ≤ j ∧ j < first + 1 + m then a (last + (j - (first + 1))) else a j := by
        split
        · rename_i heq
          subst heq
          rw [copyBackwards_apply (by omega), Nat.add_sub_cancel_left]
        · rw [copyForwards_apply (by omega), Nat.add_sub_cancel_left]
      rw [hmoved]
      by_cases hlow : j < first
      · rw [if_pos hlow, if_neg (by omega)]
      · rw [if_neg hlow]
        by_cases hin : j < first + 1 + m
        · rw [if_pos hin, if_pos (by omega)]
        · rw [if_neg hin, if_neg (by omega)]
  have hbefore : part (shift a first last (last + m) x) 0 first = part a 0 first := by
    unfold part
    refine List.map_congr_left fun j hj => ?_
    have hj := (List.mem_range'_1.mp hj).2
    rw [hshift, if_pos (by omega)]
  have hbehind : part (shift a first last (last + m) x) (first + 1) m = part a last m := by
    unfold part
    refine List.ext_getElem (by simp) fun j hj _ => ?_
    have hj : j < m := by simpa using hj
    simp only [List.getElem_map, List.getElem_range', Nat.one_mul]
    rw [hshift, if_neg (by omega), if_neg (by omega), if_pos (by omega), Nat.add_sub_cancel_left]
  have hnew : shift a first last (last + m) x first = x := by
    rw [hshift, if_neg (by omega), if_pos rfl]
  rw [Nat.add_assoc, part_add, hbefore, Nat.zero_add, Nat.add_comm 1 m, part_succ, hnew, hbehind]

/-- Where a call puts the new entry, and which entries it replaces. -/
structure Placed (a : Nat → Extent) (count : Nat) (span : Extent) (first k m : Nat) (g : Growing) :
    Prop where
  last : g.last = first + k
  size : first + k + m = count
  list : Inventory.insert span.base span.stop (part a 0 count) =
    part a 0 first ++ ⟨g.start, g.stop - g.start⟩ :: part a g.last m
  replaced : g.replaced = total (part a first k)
  ordered : g.start ≤ g.stop

/-- Both loops together. -/
theorem placed {count : Nat} :
    ∃ k m, Placed a count span (skip a count span.base count 0) k m
      (swallow a count count {
        last := skip a count span.base count 0
        start := span.base
        stop := span.stop
        replaced := 0 }) := by
  obtain ⟨f, r, hfirst, hrest, hfront⟩ := @skip_spec a span.base count 0 count span.stop
    (Nat.zero_add _)
  rw [Nat.zero_add] at hfirst hfront
  rw [hfirst]
  obtain ⟨k, m, hlast, hm, hback, hrep, hle⟩ := @swallow_spec a r count count {
    last := f
    start := span.base
    stop := span.stop
    replaced := 0 } hrest (by omega)
  dsimp only at hlast hback hrep hle
  refine ⟨k, m, hlast, by omega, ?_, by rw [hrep, Nat.zero_add], hle (Nat.le_add_right _ _)⟩
  rw [hfront, hback, hlast]

/-! ## One call -/

theorem spans_eq : o.spans = part o.retained 0 o.data.retainedCount := rfl

/-- The bytes of a union fit. -/
theorem union_total_le {physicalBytes : Nat} (h : Union physicalBytes spans) :
    total spans ≤ physicalBytes := by
  have hsorted : Sorted spans := h.sorted.imp Nat.le_of_lt
  have := hsorted.total_le (Nat.zero_le _) (fun _ _ => Nat.zero_le _) fun x hx => (h.inside x hx).2
  omega

/-- The retained spans of an owner. -/
structure Books (o : Owner) : Prop where
  union : Union o.data.physicalBytes o.spans
  bytes : o.data.retainedBytes = total o.spans

/-- What a call of `add` leaves of the owner. -/
structure Added (o : Owner) (span : Extent) (o' : Owner) : Prop where
  rest : o' = { o with retained := o'.retained, data := { o.data with
    retainedCount := o'.data.retainedCount, retainedBytes := o'.data.retainedBytes } }
  spans : o'.spans = Inventory.insert span.base span.stop o.spans
  count : o'.data.retainedCount ≤ o.data.retainedCount + 1
  bytes : o.data.retainedBytes = total o.spans → o'.data.retainedBytes = total o'.spans
  inside : 0 < span.bytes ∧ span.stop ≤ o.data.physicalBytes

theorem checkBounds_spec : Spec (checkBounds span) o
    (fun _ o' => o' = o ∧ 0 < span.bytes ∧ span.stop ≤ o.data.physicalBytes)
    fun e o' => o' = o ∧ e = .MemoryBounds ∧
      ¬ (0 < span.bytes ∧ span.stop ≤ o.data.physicalBytes) := by
  unfold checkBounds
  refine .get_bind (.ends (fun h => ⟨rfl, rfl, fun hn => ?_⟩) fun h => ⟨rfl, ?_, ?_⟩) <;>
    unfold Extent.stop at * <;> omega

theorem add_spec (hb : Books o) (hsmall : o.data.physicalBytes < 2 ^ 63) :
    Spec (add span) o (fun _ o' => Added o span o') fun e o' => o' = o ∧
      ((e = .MemoryBounds ∧ ¬ (0 < span.bytes ∧ span.stop ≤ o.data.physicalBytes)) ∨
        (e = .MemoryCapacity ∧ maxSpans ≤ o.data.retainedCount)) := by
  unfold add
  refine .seq checkBounds_spec (fun _ s hs => ?_) fun e s hs => ⟨hs.1, .inl hs.2⟩
  obtain ⟨rfl, hpos, hstop⟩ := hs
  obtain ⟨k, m, hp⟩ := @placed s.retained span s.data.retainedCount
  refine .get_bind ?_
  dsimp only
  generalize skip s.retained s.data.retainedCount span.base s.data.retainedCount 0 = first at *
  generalize swallow s.retained s.data.retainedCount s.data.retainedCount _ = g at *
  have hcount : s.data.retainedCount - (g.last - first) + 1 = first + 1 + m := by
    have := hp.last
    have := hp.size
    omega
  have hbefore : s.spans = part s.retained 0 first ++ part s.retained first k ++
      part s.retained g.last m := by
    rw [spans_eq, ← hp.size, part_add, part_add, Nat.zero_add, Nat.zero_add, hp.last]
  have hafter : part (shift s.retained first g.last s.data.retainedCount
      ⟨g.start, g.stop - g.start⟩) 0 (first + 1 + m) =
        Inventory.insert span.base span.stop s.spans := by
    have hend : s.data.retainedCount = g.last + m := by rw [← hp.size, hp.last]
    rw [hend, shift_spec (by rw [hp.last]; omega), spans_eq, hp.list]
  have hunion := (insert_union hb.union (Nat.lt_add_of_pos_right hpos) hstop).1
  have hsum : total s.spans = total (part s.retained 0 first) + g.replaced +
      total (part s.retained g.last m) := by
    rw [hbefore, total_append, total_append, hp.replaced]
  have hend : g.stop ≤ s.data.physicalBytes := by
    have hmem : (⟨g.start, g.stop - g.start⟩ : Extent) ∈
        Inventory.insert span.base span.stop s.spans := by
      rw [spans_eq, hp.list]
      simp
    have := (hunion.inside _ hmem).2
    have := hp.ordered
    unfold Extent.stop at *
    dsimp only at *
    omega
  have hall : total s.spans ≤ s.data.physicalBytes := union_total_le hb.union
  have hheld := hb.bytes
  rw [hcount]
  refine .failIf_bind (fun h => ⟨rfl, .inr ⟨rfl, by have := hp.size; omega⟩⟩) fun hroom => ?_
  refine .failIf_bind (fun h => by omega) fun _ => .set_bind (.pure ?_)
  refine ⟨rfl, hafter, ?_, fun _ => ?_, hpos, hstop⟩
  · show first + 1 + m ≤ s.data.retainedCount + 1
    have := hp.size
    omega
  · show s.data.retainedBytes - g.replaced + g.stop - g.start = total (part _ 0 (first + 1 + m))
    rw [hafter, spans_eq, hp.list, total_append, total_cons]
    have := hp.ordered
    show _ = _ + (g.stop - g.start + _)
    omega

/-! ## A sequence of calls -/

/-- What a sequence of calls leaves: the union of the spans and of what was held before. -/
structure Gathered (o : Owner) (xs : List Extent) (o' : Owner) : Prop where
  rest : o' = { o with retained := o'.retained, data := { o.data with
    retainedCount := o'.data.retainedCount, retainedBytes := o'.data.retainedBytes } }
  books : Books o'
  covers : covered o'.spans = covered xs ∪ covered o.spans
  count : o'.data.retainedCount ≤ o.data.retainedCount + xs.length

/-- The errors of a sequence of `n` calls. -/
def Fits (o : Owner) (n : Nat) (e : Fault) : Prop :=
  e ≠ .Trap ∧ (o.data.retainedCount + n ≤ maxSpans → e ≠ .MemoryCapacity)

theorem Gathered.physical {xs : List Extent} (h : Gathered o xs o') :
    o'.data.physicalBytes = o.data.physicalBytes := by
  rw [h.rest]

theorem Gathered.refl (hb : Books o) : Gathered o [] o :=
  ⟨rfl, hb, by rw [covered, Finset.empty_union], Nat.le_refl _⟩

theorem Gathered.trans {xs ys : List Extent} {p : Owner} (h : Gathered o xs o')
    (h' : Gathered o' ys p) : Gathered o (xs ++ ys) p := by
  refine ⟨?_, h'.books, ?_, ?_⟩
  · have hp := h'.rest
    rw [h.rest] at hp
    exact hp
  · rw [h'.covers, h.covers, covered_append, ← Finset.union_assoc,
      Finset.union_comm (covered ys)]
  · have := h.count
    have := h'.count
    rw [List.length_append]
    omega

theorem Fits.after {xs : List Extent} {m : Nat} {e : Fault} (h : Gathered o xs o')
    (hf : Fits o' m e) (hn : xs.length + m ≤ n) : Fits o n e :=
  ⟨hf.1, fun hroom => hf.2 (by have := h.count; omega)⟩

/-- One call adds its span. -/
theorem Added.gathered (h : Added o span o') (hb : Books o) : Gathered o [span] o' := by
  have hlt : span.base < span.stop := Nat.lt_add_of_pos_right h.inside.1
  have hsorted : Sorted o.spans := hb.union.sorted.imp Nat.le_of_lt
  refine ⟨h.rest, ⟨?_, h.bytes hb.bytes⟩, ?_, h.count⟩
  · have hphysical : o'.data.physicalBytes = o.data.physicalBytes := by rw [h.rest]
    rw [hphysical, h.spans]
    exact (insert_union hb.union hlt h.inside.2).1
  · ext b
    rw [h.spans, covered_insert hlt hsorted, Finset.mem_union, covered, covered, Finset.union_empty,
      mem_points]

theorem add_gathers (hb : Books o) (hsmall : o.data.physicalBytes < 2 ^ 63) :
    Spec (add span) o (fun _ o' => Gathered o [span] o') fun e _ => Fits o 1 e := by
  refine (add_spec hb hsmall).mono (fun _ _ h => h.gathered hb) fun e _ h => ?_
  rcases h.2 with ⟨rfl, -⟩ | ⟨rfl, hfull⟩
  · exact ⟨(fun h => nomatch h), fun _ h => nomatch h⟩
  · exact ⟨(fun h => nomatch h), fun hroom => by omega⟩

theorem addAll_gathers {xs : List Extent} (hb : Books o) (hsmall : o.data.physicalBytes < 2 ^ 63) :
    Spec (addAll xs) o (fun _ o' => Gathered o xs o') fun e _ => Fits o xs.length e := by
  induction xs generalizing o with
  | nil => exact .pure (.refl hb)
  | cons x rest ih =>
    refine .seq (add_gathers hb hsmall) (fun _ p hp => ?_) fun e _ h => ⟨h.1, fun hroom => h.2 ?_⟩
    · refine (ih hp.books (hp.physical ▸ hsmall)).mono (fun _ _ h => hp.trans h) fun e _ h => ?_
      exact h.after hp (Nat.le_of_eq (Nat.add_comm _ _))
    · rw [List.length_cons] at hroom
      omega

/-- Spans in bounds are refused only where there is no room. -/
theorem addAll_refused {xs : List Extent} (hb : Books o) (hsmall : o.data.physicalBytes < 2 ^ 63)
    (hx : ∀ x ∈ xs, 0 < x.bytes ∧ x.stop ≤ o.data.physicalBytes) :
    Spec (addAll xs) o (fun _ _ => True)
      fun e _ => e = .MemoryCapacity ∧ maxSpans < o.data.retainedCount + xs.length := by
  induction xs generalizing o with
  | nil => exact .pure trivial
  | cons x rest ih =>
    refine .seq ((add_gathers hb hsmall).both (add_spec hb hsmall)) (fun _ p hp => ?_) fun e _ h => ?_
    · have hcount := hp.1.count
      have hphysical := hp.1.physical
      rw [List.length_singleton] at hcount
      refine (ih hp.1.books (hphysical ▸ hsmall) fun y hy => ?_).mono (fun _ _ h => h)
        fun e _ h => ⟨h.1, ?_⟩
      · rw [hphysical]
        exact hx y (List.mem_cons_of_mem _ hy)
      · rw [List.length_cons]
        omega
    · rcases h.2.2 with ⟨-, hout⟩ | ⟨he, hfull⟩
      · exact absurd (hx x List.mem_cons_self) hout
      · refine ⟨he, ?_⟩
        rw [List.length_cons]
        omega

/-! ## The bytes that are left -/

/-- The bytes of the regions that are neither protected nor reserved in part. -/
def openPoints : List Region → Finset Nat
  | [] => ∅
  | region :: rest =>
    if region.isProtected ∨ region.reserved ≠ 0 then openPoints rest
    else region.span.points ∪ openPoints rest

theorem openPoints_sub {regions : List Region} (h : b ∈ openPoints regions) :
    ∃ r ∈ regions, b ∈ r.span.points := by
  induction regions with
  | nil => cases h
  | cons region rest ih =>
    rw [openPoints] at h
    split at h
    · obtain ⟨r, hr, hb⟩ := ih h
      exact ⟨r, List.mem_cons_of_mem _ hr, hb⟩
    · rcases Finset.mem_union.mp h with hb | hb
      · exact ⟨region, List.mem_cons_self, hb⟩
      · obtain ⟨r, hr, hb⟩ := ih hb
        exact ⟨r, List.mem_cons_of_mem _ hr, hb⟩

theorem subtractAll_eq {ys : List Extent} (h : (ys.map x.overlap).sum ≤ n) :
    subtractAll x ys n = some (n - (ys.map x.overlap).sum) := by
  induction ys generalizing n with
  | nil => rfl
  | cons y rest ih =>
    rw [List.map_cons, List.sum_cons] at h ⊢
    rw [subtractAll, if_pos (by omega), ih (by omega), Nat.sub_sub]

/-- No region lends more than it has, and what remains of it is what no span covers. -/
theorem subtractAll_region (hs : Sorted spans) :
    subtractAll x spans x.bytes = some (x.points \ covered spans).card := by
  have hcard := Finset.card_sdiff_add_card_inter x.points (covered spans)
  rw [card_inter_covered hs, card_points] at hcard
  rw [subtractAll_eq (by omega)]
  congr 1
  omega

theorem disjoint_points {y : Extent} (h : Apart x y) : Disjoint x.points y.points := by
  rw [Finset.disjoint_left]
  intro b hx hy
  have := mem_points.1 hx
  have := mem_points.1 hy
  rcases h with h | h <;> omega

/-- The screening of regions that are apart counts the open bytes that no span covers. -/
theorem screen_eq {regions : List Region} (hs : Sorted spans)
    (hr : regions.Pairwise fun p q => Apart p.span q.span) :
    screen spans regions n = some (n + (openPoints regions \ covered spans).card) := by
  induction regions generalizing n with
  | nil => simp [screen, openPoints]
  | cons region rest ih =>
    obtain ⟨hfirst, hrest⟩ := List.pairwise_cons.mp hr
    rw [screen, openPoints]
    split
    · exact ih hrest
    · have hbytes : subtractAll region.span spans region.bytes = _ := subtractAll_region hs
      have hapart : Disjoint (region.span.points \ covered spans) (openPoints rest \ covered spans) := by
        rw [Finset.disjoint_left]
        intro b hb hb'
        obtain ⟨r, hmem, hin⟩ := openPoints_sub (Finset.mem_sdiff.mp hb').1
        exact Finset.disjoint_left.mp (disjoint_points (hfirst r hmem)) (Finset.mem_sdiff.mp hb).1 hin
      rw [hbytes]
      dsimp only
      rw [ih hrest, Finset.union_sdiff_distrib, Finset.card_union_of_disjoint hapart, Nat.add_assoc]

/-! ## The preparation -/

/-- Neither full nor trapped. -/
def Sound (e : Fault) : Prop := e ≠ .Trap ∧ e ≠ .MemoryCapacity

instance {e : Fault} : Decidable (Sound e) := inferInstanceAs (Decidable (_ ∧ _))

/-- Everything `prepare` retains. -/
def Sources.retained (src : Sources) (vga : Extent) : List Extent :=
  [src.reserved] ++ [vga] ++ src.ranges ++ src.pages.map (⟨·, 4096⟩) ++
    (if src.instanceActive then [src.instanceSpan] else []) ++ src.payload

/-- What the loop over the regions leaves. -/
structure Taken (o : Owner) (rs : List Region) (o' : Owner) : Prop where
  retained : o'.retained = o.retained
  count : o'.data.retainedCount = o.data.retainedCount
  bytes : o'.data.retainedBytes = o.data.retainedBytes
  physical : o'.data.physicalBytes = o.data.physicalBytes
  usable : o'.data.firmwareLayoutUsable = o.data.firmwareLayoutUsable
  regions : o'.regions = o.regions ++ rs
  placed : Regions o.data.physicalBytes (o.regions ++ rs)

theorem takeRegions_spec {rs : List Region} (h : Regions o.data.physicalBytes o.regions) :
    Spec (takeRegions rs) o (fun _ o' => Taken o rs o') fun e _ => Sound e := by
  induction rs generalizing o with
  | nil =>
    have hnil : o.regions ++ [] = o.regions := List.append_nil _
    exact .pure ⟨rfl, rfl, rfl, rfl, rfl, hnil.symm, hnil.symm ▸ h⟩
  | cons r rest ih =>
    refine .seq checkBounds_spec (fun _ p hp => ?_) fun e _ he => ?_
    · obtain ⟨rfl, hpos, hstop⟩ := hp
      refine .failIf_bind (fun _ => by decide) fun _ => .get_bind ?_
      refine .failIf_bind (fun _ => by decide) fun hover => .modify_bind ?_
      have hnext : Regions p.data.physicalBytes (p.regions ++ [r]) := by
        refine ⟨fun q hq => ?_, List.pairwise_append.mpr ⟨h.apart, by simp, fun q hq s hs => ?_⟩⟩
        · rcases List.mem_append.mp hq with hq | hq
          · exact h.inside q hq
          · obtain rfl := List.mem_singleton.mp hq
            exact ⟨hpos, hstop⟩
        · obtain rfl := List.mem_singleton.mp hs
          have hzero := Decidable.not_not.mp fun hn => hover ⟨q, hq, hn⟩
          exact ((overlap_eq_zero hpos (h.inside q hq).1).mp hzero).symm
      refine (@ih {
        p with
        regions := p.regions ++ [r]
        data := {
          p.data with
          regionBytes := p.data.regionBytes + r.bytes
          speculativeReserved := p.data.speculativeReserved + r.reserved } } hnext).mono
            (fun _ q hq => ?_) fun _ _ he => he
      have hlist : p.regions ++ [r] ++ rest = p.regions ++ r :: rest := by simp
      exact ⟨hq.retained, hq.count, hq.bytes, hq.physical, hq.usable, hlist ▸ hq.regions,
        hlist ▸ hq.placed⟩
    · rw [he.2.1]
      decide

theorem addRanges_gathers {xs : List Extent} {surface : Nat} (hb : Books o)
    (hsmall : o.data.physicalBytes < 2 ^ 63) :
    Spec (addRanges xs surface) o (fun _ o' => Gathered o xs o') fun e _ => Fits o xs.length e := by
  induction xs generalizing o surface with
  | nil => exact .pure (.refl hb)
  | cons x rest ih =>
    refine .seq (add_gathers hb hsmall) (fun _ p hp => ?_) fun e _ h => ⟨h.1, fun hroom => h.2 ?_⟩
    · refine .failIf_bind (fun _ => ⟨(fun h => nomatch h), fun _ h => nomatch h⟩) fun _ => ?_
      refine (ih hp.books (hp.physical ▸ hsmall)).mono (fun _ _ h => hp.trans h) fun e _ h => ?_
      exact h.after hp (Nat.le_of_eq (Nat.add_comm _ _))
    · rw [List.length_cons] at hroom
      omega

theorem addPages_gathers {pages : List Nat} (hb : Books o) (hsmall : o.data.physicalBytes < 2 ^ 63) :
    Spec (addPages pages) o (fun _ o' => Gathered o (pages.map (⟨·, 4096⟩)) o')
      fun e _ => Fits o pages.length e := by
  induction pages generalizing o with
  | nil => exact .pure (.refl hb)
  | cons page rest ih =>
    refine .failIf_bind (fun _ => ⟨(fun h => nomatch h), fun _ h => nomatch h⟩) fun _ => ?_
    refine .seq (add_gathers hb hsmall) (fun _ p hp => ?_) fun e _ h => ⟨h.1, fun hroom => h.2 ?_⟩
    · refine (ih hp.books (hp.physical ▸ hsmall)).mono (fun _ _ h => hp.trans h) fun e _ h => ?_
      exact h.after hp (Nat.le_of_eq (Nat.add_comm _ _))
    · rw [List.length_cons] at hroom
      omega

theorem addIf_gathers {active : Bool} (hb : Books o) (hsmall : o.data.physicalBytes < 2 ^ 63) :
    Spec (addIf active span) o (fun _ o' => Gathered o (if active then [span] else []) o')
      fun e _ => Fits o 1 e := by
  cases active with
  | false => exact .pure (.refl hb)
  | true => exact add_gathers hb hsmall

theorem screening_spec (hb : Books o)
    (hr : o.regions.Pairwise fun p q => Apart p.span q.span) :
    Spec screening o (fun _ o' =>
        o' = { o with data := { o.data with screenedBytes := o'.data.screenedBytes } } ∧
          (o.data.firmwareLayoutUsable = true →
            o'.data.screenedBytes = (openPoints o.regions \ covered o.spans).card))
      fun _ _ => False := by
  refine .get_bind ?_
  by_cases husable : o.data.firmwareLayoutUsable = true
  · rw [if_pos husable]
    have hscreen := @screen_eq o.spans 0 o.regions (hb.union.sorted.imp Nat.le_of_lt) hr
    refine .need_bind (fun hn => ?_) fun bytes hbytes => ⟨rfl, fun _ => ?_⟩
    · rw [hscreen] at hn
      cases hn
    · rw [hscreen] at hbytes
      show bytes = _
      rw [← Option.some.inj hbytes, Nat.zero_add]
  · rw [if_neg husable]
    exact .pure ⟨rfl, fun h => absurd h husable⟩

/-- The counts that `prepare` checks. -/
structure Counted (src : Sources) : Prop where
  ranges : src.ranges.length ≤ maxRanges
  pages : src.pages.length ≤ maxPages
  payload : src.payload.length ≤ payloadMaxSpans

/-- An inventory as `prepare` leaves it. -/
structure Collected (src : Sources) (vga : Extent) (o : Owner) : Prop where
  state : o.state = .prepared
  regions : o.regions = src.infoRegions
  apart : o.regions.Pairwise fun p q => Apart p.span q.span
  books : Books o
  covers : covered o.spans = covered (src.retained vga)
  screened : o.data.firmwareLayoutUsable = true →
    o.data.screenedBytes = (openPoints src.infoRegions \ covered (src.retained vga)).card

theorem Counted.room {src : Sources} (h : Counted src) :
    3 + src.ranges.length + src.pages.length + src.payload.length ≤ maxSpans := by
  have hranges : src.ranges.length ≤ 1024 := h.ranges
  have hpages : src.pages.length ≤ 128 := h.pages
  have hpayload : src.payload.length ≤ 88 := h.payload
  unfold maxSpans
  omega

/-- No call fails for want of room while the counts leave some. -/
theorem Fits.sound {e : Fault} {xs : List Extent} {p : Owner} (hf : Fits o n e)
    (hzero : p.data.retainedCount = 0) (h : Gathered p xs o) (hn : xs.length + n ≤ maxSpans) :
    Sound e := by
  have hcount := h.count
  exact ⟨hf.1, hf.2 (by omega)⟩

theorem collect_spec {src : Sources} {bars : List Bar} {vga : Extent} (hc : Counted src)
    (hphysical : o.data.physicalBytes = src.fbBytes)
    (hcount : o.data.retainedCount = 0) (hbytes : o.data.retainedBytes = 0)
    (hregions : o.regions = []) :
    Spec (collect src bars vga) o (fun _ o' => Collected src vga o') fun e _ => Sound e := by
  unfold collect
  refine .failIf_bind (fun _ => by decide) fun _ => .failIf_bind (fun _ => by decide) fun _ => ?_
  have hempty : Regions o.data.physicalBytes o.regions := by
    rw [hregions]
    exact ⟨by simp, by simp⟩
  refine .seq (takeRegions_spec hempty) (fun _ p hp => .modify_bind ?_) fun _ _ he => he
  generalize hq : ({ p with
    data := { p.data with regionHoles := src.fbBytes - p.data.regionBytes } } : Owner) = q
  have hzero : q.data.retainedCount = 0 := by rw [← hq]; exact hp.count.trans hcount
  have hnil : q.spans = [] := by unfold Owner.spans; rw [hzero]; rfl
  have hsmall : q.data.physicalBytes < 2 ^ 63 := by
    have hq : q.data.physicalBytes = src.fbBytes := by
      rw [← hq]
      exact hp.physical.trans hphysical
    have := src.fbSmall
    omega
  have hlist : q.regions = src.infoRegions := by
    rw [← hq]
    show p.regions = _
    rw [hp.regions, hregions, List.nil_append]
  have hapart : q.regions.Pairwise fun p q => Apart p.span q.span := by
    rw [hlist, ← List.nil_append src.infoRegions, ← hregions]
    exact hp.placed.apart
  have hbooks : Books q := by
    refine ⟨hnil ▸ ⟨by simp, by simp⟩, ?_⟩
    rw [hnil, ← hq]
    exact hp.bytes.trans hbytes
  have hroom := hc.room
  -- One step of the sequence: what is gathered so far, and why an error of the next part is sound.
  refine .seq (add_gathers hbooks hsmall) (fun _ q₁ h₁ => ?_) fun _ _ he =>
    he.sound hzero (.refl hbooks) (by simp; omega)
  refine .seq (add_gathers h₁.books (h₁.physical ▸ hsmall)) (fun _ q₂ h₂ => ?_) fun _ _ he =>
    he.sound hzero h₁ (by simp; omega)
  have h₂ := h₁.trans h₂
  refine .seq (addRanges_gathers h₂.books (h₂.physical ▸ hsmall)) (fun _ q₃ h₃ => ?_) fun _ _ he =>
    he.sound hzero h₂ (by simp; omega)
  have h₃ := h₂.trans h₃
  refine .failIf_bind (fun _ => by decide) fun _ => ?_
  refine .seq (addPages_gathers h₃.books (h₃.physical ▸ hsmall)) (fun _ q₄ h₄ => ?_) fun _ _ he =>
    he.sound hzero h₃ (by simp; omega)
  have h₄ := h₃.trans h₄
  refine .seq (addIf_gathers h₄.books (h₄.physical ▸ hsmall)) (fun _ q₅ h₅ => ?_) fun _ _ he =>
    he.sound hzero h₄ (by simp; omega)
  have hone : (if src.instanceActive then [src.instanceSpan] else []).length ≤ 1 := by
    cases src.instanceActive <;> simp
  have h₅ := h₄.trans h₅
  refine .seq (addAll_gathers h₅.books (h₅.physical ▸ hsmall)) (fun _ q₆ h₆ => ?_) fun _ _ he =>
    he.sound hzero h₅ (by simp only [List.length_append, List.length_map, List.length_singleton]; omega)
  have h₆ := h₅.trans h₆
  have hsame : q₆.regions = src.infoRegions := by rw [h₆.rest, ← hlist]
  have hcovers : covered q₆.spans = covered (src.retained vga) := by
    rw [h₆.covers, hnil, covered, Finset.union_empty]
    rfl
  refine .seq (screening_spec h₆.books (by rw [h₆.rest]; exact hapart)) (fun _ q₇ h₇ => ?_)
    fun _ _ he => he.elim
  have hspans : q₇.spans = q₆.spans := by
    rw [h₇.1]
    rfl
  refine .modify ⟨rfl, ?_, ?_, ⟨?_, ?_⟩, hspans ▸ hcovers, fun husable => ?_⟩
  · show q₇.regions = _
    rw [h₇.1, ← hsame]
  · show q₇.regions.Pairwise _
    rw [h₇.1, hsame, ← hlist]
    exact hapart
  · show Union q₇.data.physicalBytes q₇.spans
    rw [hspans, h₇.1]
    exact h₆.books.union
  · show q₇.data.retainedBytes = total q₇.spans
    rw [hspans, h₇.1]
    exact h₆.books.bytes
  · have hscreened := h₇.2 (by rw [h₇.1] at husable; exact husable)
    rw [hsame, hcovers] at hscreened
    exact hscreened

theorem prepare_spec {src : Sources} {epoch : Nat} :
    Spec (prepare src epoch) o
      (fun _ o' => ∃ vga, src.vga = some vga ∧ Collected src vga o') fun e _ => Sound e := by
  refine .get_bind (.failIf_bind (fun _ => by decide) fun _ => ?_)
  refine .need_bind (fun _ => by decide) fun _ _ => .need_bind (fun _ => by decide) fun bars _ => ?_
  refine .need_bind (fun _ => by decide) fun vga hvga => .failIf_bind (fun _ => by decide) fun hn => ?_
  have hc : Counted src := by
    simp only [not_or, Nat.not_lt] at hn
    exact ⟨hn.2.2.2.1, hn.2.2.2.2.1, hn.2.2.2.2.2.2.2⟩
  refine .set_bind (.marking ?_)
  exact (collect_spec hc rfl rfl rfl rfl).mono (fun _ _ h => ⟨vga, hvga, h⟩) fun _ _ he => he

/-- Whatever in-bounds spans are added to an empty inventory, its list is their union: sorted, with a
gap between any two, counted right, and refused only where it has no room; what the screening takes
of regions that are apart is exact. The preparation itself always has room. -/
theorem retained_exact (src : Sources) (epoch bootEpoch : Nat) (o : Owner) :
    (∀ xs : List Extent, (∀ x ∈ xs, 0 < x.bytes ∧ x.stop ≤ src.fbBytes) →
      match addAll xs (o.empty src epoch bootEpoch) with
      | .ok _ o' => (o'.spans.Pairwise fun x y => x.stop < y.base) ∧
        covered o'.spans = covered xs ∧ o'.data.retainedBytes = (covered xs).card ∧
        ∀ regions : List Region, (regions.Pairwise fun p q => Apart p.span q.span) →
          screen o'.spans regions 0 = some (openPoints regions \ covered xs).card
      | .error e _ => e = .MemoryCapacity ∧ maxSpans < xs.length) ∧
    match prepare src epoch o with
    | .ok _ o' => ∃ vga, src.vga = some vga ∧ Collected src vga o'
    | .error e _ => e ≠ .Trap ∧ e ≠ .MemoryCapacity := by
  have hbooks : Books (o.empty src epoch bootEpoch) := ⟨⟨.nil, (fun _ h => nomatch h)⟩, rfl⟩
  have hsmall : (o.empty src epoch bootEpoch).data.physicalBytes < 2 ^ 63 :=
    Nat.lt_of_le_of_lt src.fbSmall (by decide)
  refine ⟨fun xs hx => ?_, ?_⟩
  · have hspec := (addAll_gathers hbooks hsmall).both (addAll_refused hbooks hsmall hx)
    cases hadd : addAll xs (o.empty src epoch bootEpoch) with
    | ok u o' =>
      have h := (hspec.ok hadd).1
      have hcovers : covered o'.spans = covered xs := by
        rw [h.covers]
        exact Finset.union_empty _
      have hsorted : Sorted o'.spans := h.books.union.sorted.imp Nat.le_of_lt
      refine ⟨h.books.union.sorted, hcovers, ?_, fun regions hr => ?_⟩
      · rw [h.books.bytes, ← card_covered hsorted, hcovers]
      · rw [screen_eq hsorted hr, Nat.zero_add, hcovers]
    | error e o' =>
      have h := (hspec.error hadd).2
      rw [show (o.empty src epoch bootEpoch).data.retainedCount = 0 from rfl, Nat.zero_add] at h
      exact h
  · have hspec := @prepare_spec o src epoch
    cases hprepare : prepare src epoch o with
    | ok u o' => exact hspec.ok hprepare
    | error e o' => exact hspec.error hprepare

/-- A boot that retains two touching ranges of its surface, two page tables and the instance memory
behind them, and a payload in a region it may not use. -/
def smallSources : Sources where
  bindingEpoch := some 1
  fbBytes := 65536
  fbSmall := by decide
  reserved := ⟨61440, 4096⟩
  planNonWprHeap := 61440
  planFrts := 62464
  bars := some [⟨.memory64, 65536, 65536⟩, ⟨.upper, 0, 0⟩]
  vga := some ⟨61184, 512⟩
  chipId := 0x176
  ranges := [⟨1024, 1024⟩, ⟨0, 1024⟩]
  pages := [12288, 8192]
  mapFramebufferBytes := 65536
  surfaceBytes := 2048
  originalBytes := some 2048
  contextFramebufferBytes := 65536
  instanceActive := true
  instanceSpan := ⟨16384, 4096⟩
  payload := [⟨40960, 8⟩]
  infoFbBytes := 65536
  infoRegions := [{ base := 0, bytes := 32768 }, { base := 32768, bytes := 16384, isProtected := true }]
  infoNonWprHeap := 0
  infoFrts := 0

def touching : List Extent := [⟨0, 16⟩, ⟨64, 8⟩, ⟨16, 48⟩]

/-- A gap that is filled leaves one span; and a preparation joins what touches, and leaves of the open
region what it does not retain. -/
theorem touching_exact :
    (∃ o', addAll touching (({} : Owner).empty smallSources 1 1) = .ok () o' ∧
      covered o'.spans = covered touching ∧ o'.data.retainedBytes = 72) ∧
    ∃ o', prepare smallSources 1 {} = .ok () o' ∧ Collected smallSources ⟨61184, 512⟩ o' ∧
      o'.spans = [⟨0, 2048⟩, ⟨8192, 12288⟩, ⟨40960, 8⟩, ⟨61184, 4352⟩] ∧ o'.data.screenedBytes = 18432 := by
  have hok : (outcome (addAll touching) (({} : Owner).empty smallSources 1 1)).1 = .ok () ∧
      (outcome (prepare smallSources 1) ({} : Owner)).1 = .ok () ∧
      (outcome (prepare smallSources 1) ({} : Owner)).2.spans =
        [⟨0, 2048⟩, ⟨8192, 12288⟩, ⟨40960, 8⟩, ⟨61184, 4352⟩] ∧
      (outcome (prepare smallSources 1) ({} : Owner)).2.data.screenedBytes = 18432 := by decide +kernel
  obtain ⟨hadded, hprepared⟩ := hok
  have hfit : ∀ x ∈ touching, 0 < x.bytes ∧ x.stop ≤ smallSources.fbBytes := by decide
  constructor
  · cases hadd : addAll touching (({} : Owner).empty smallSources 1 1) with
    | ok u o' =>
      with_reducible have h := hadd ▸ (retained_exact smallSources 1 1 {}).1 touching hfit
      exact ⟨o', rfl, h.2.1, h.2.2.1.trans (by decide +kernel)⟩
    | error e o' =>
      rw [outcome_error_iff.mpr hadd] at hadded
      cases hadded
  · cases hprepare : prepare smallSources 1 {} with
    | ok u o' =>
      rw [outcome_ok_iff.mpr hprepare] at hprepared
      with_reducible have h := hprepare ▸ (retained_exact smallSources 1 1 {}).2
      obtain ⟨vga, hvga, hcollected⟩ := h
      cases hvga
      exact ⟨o', rfl, hcollected, hprepared.2.1, hprepared.2.2⟩
    | error e o' =>
      rw [outcome_error_iff.mpr hprepare] at hprepared
      cases hprepared.1

end Retained
end Vram
end NvidiaGsp
