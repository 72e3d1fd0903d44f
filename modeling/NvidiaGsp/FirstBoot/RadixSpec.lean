import NvidiaGsp.FirstBoot.LayoutSpec
import NvidiaGsp.FirstBoot.Radix

/-!
# FirstBoot.RadixSpec

What the table leads to. The cursor finds every logical offset it is asked for, because the offsets
never go back; each entry holds the address of its page, and the walk from the root reads the image.
-/

namespace NvidiaGsp
namespace FirstBoot
namespace Radix

open Bytes Call

variable {segments pre post : List Segment} {s t : Segment} {c : Cursor} {output : List Byte}
  {image : List Byte} {logical address n k : Nat}

/-! ## The segments -/

def total (segments : List Segment) : Nat := (segments.map Segment.bytes).sum

@[simp] theorem total_nil : total [] = 0 := rfl

@[simp] theorem total_cons : total (s :: segments) = s.bytes + total segments := rfl

@[simp] theorem total_append : total (pre ++ post) = total pre + total post := by
  unfold total
  rw [List.map_append, List.sum_append]

/-- A span that passed the checks. -/
structure Checked (s : Segment) : Prop where
  some : 0 < s.bytes
  below : s.address + s.bytes ≤ 2 ^ 49
  address : s.address % 4096 = 0
  bytes : s.bytes % 4096 = 0

/-- Segments that passed the checks. -/
structure Mapped (segments : List Segment) : Prop where
  checked : ∀ s ∈ segments, Checked s
  apart : segments.Pairwise fun s t => ¬ t.overlaps s

theorem check_safe : Parse.Safe s.check (fun _ => Checked s) := by
  refine Parse.Safe.reject_bind fun haddress => Parse.Safe.mono Parse.Safe.reject fun _ halign => ?_
  have hmask : dmaMask = 562949953421311 := by decide
  have hpage : pageBytes = 4096 := rfl
  simp only [not_or, Decidable.not_not] at haddress halign
  exact ⟨by omega, by omega, hpage ▸ halign.1, hpage ▸ halign.2⟩

theorem cover_safe {allocation covered : Nat} (hle : covered ≤ allocation) (hsmall : allocation < 2 ^ 63)
    (h : Mapped pre) : Parse.Safe (cover allocation segments pre covered)
      fun end_ => end_ = covered + total segments ∧ Mapped (pre ++ segments) := by
  induction segments generalizing pre covered with
  | nil => exact Parse.Safe.pure ⟨rfl, by rwa [List.append_nil]⟩
  | cons s rest ih =>
    refine Parse.Safe.seq check_safe fun _ hs => Parse.Safe.checked_bind hle ?_
    refine Parse.Safe.reject_bind fun hfree => Parse.Safe.fits_bind (by omega) ?_
    refine Parse.Safe.reject_bind fun hover => ?_
    have hnext : Mapped (pre ++ [s]) := by
      refine ⟨fun t ht => ?_, List.pairwise_append.mpr ⟨h.apart, by simp, fun t ht u hu => ?_⟩⟩
      · rcases List.mem_append.mp ht with ht | ht
        · exact h.checked t ht
        · exact List.mem_singleton.mp ht ▸ hs
      · obtain rfl := List.mem_singleton.mp hu
        exact fun hmeet => hover ⟨t, ht, hmeet⟩
    refine (ih (by omega) hnext).mono fun end_ hend => ⟨?_, ?_⟩
    · rw [hend.1, total_cons, Nat.add_assoc]
    · rw [List.append_cons]
      exact hend.2

/-! ## The cursor -/

/-- The address of a logical offset. -/
def Locates (segments : List Segment) (logical address : Nat) : Prop :=
  ∃ pre s post, segments = pre ++ s :: post ∧ total pre ≤ logical ∧ logical < total pre + s.bytes ∧
    address = s.address + (logical - total pre)

/-- A cursor between the segments. -/
def Cursor.Between (c : Cursor) (segments : List Segment) : Prop :=
  c.offset = total (segments.take c.index)

theorem address_spec (hc : c.Between segments) (hlow : c.offset ≤ logical)
    (hhigh : logical < total segments) (hn : segments.length < n + c.index) :
    ∃ found, c.address segments logical n = some found ∧ Locates segments logical found.1 ∧
      found.2.Between segments ∧ found.2.offset ≤ logical := by
  induction n generalizing c with
  | zero =>
    rw [Cursor.Between, List.take_of_length_le (by omega)] at hc
    omega
  | succ n ih =>
    rw [Cursor.address, if_neg (by omega)]
    cases hs : segments[c.index]? with
    | none =>
      rw [Cursor.Between, List.take_of_length_le (List.getElem?_eq_none_iff.mp hs)] at hc
      omega
    | some s =>
      obtain ⟨hi, hget⟩ := List.getElem?_eq_some_iff.mp hs
      dsimp only
      split
      · refine ih ?_ (by dsimp only; omega) (by dsimp only; omega)
        show c.offset + s.bytes = total (segments.take (c.index + 1))
        rw [List.take_succ_eq_append_getElem hi, hget, total_append, ← hc]
        simp
      · refine ⟨_, rfl, ⟨segments.take c.index, s, segments.drop (c.index + 1), ?_, ?_, ?_, ?_⟩, hc, hlow⟩
        · rw [← hget, List.getElem_cons_drop, List.take_append_drop]
        · rw [← hc]
          exact hlow
        · rw [← hc]
          omega
        · rw [← hc]
          dsimp only
          omega

/-- The address leads back to the offset. -/
theorem Locates.back (hm : Mapped segments) (h : Locates segments logical address) :
    logicalOf segments address = some logical := by
  obtain ⟨pre, s, post, rfl, hlow, hhigh, rfl⟩ := h
  induction pre generalizing logical with
  | nil =>
    rw [List.nil_append, logicalOf, if_pos (by rw [total_nil] at *; omega)]
    simp
  | cons t pre ih =>
    obtain ⟨hfirst, hrest⟩ := List.pairwise_cons.mp hm.apart
    have hmem : s ∈ pre ++ s :: post := by simp
    have hapart := hfirst s hmem
    unfold Segment.overlaps at hapart
    have ht := (hm.checked t List.mem_cons_self).some
    rw [total_cons] at hlow hhigh
    have hback := @ih (logical - t.bytes) ⟨fun u hu => hm.checked u (List.mem_cons_of_mem _ hu), hrest⟩
      (by omega) (by omega)
    have hsub : logical - (t.bytes + total pre) = logical - t.bytes - total pre := by omega
    rw [List.cons_append, logicalOf, if_neg (by rw [total_cons]; omega), total_cons, hsub, hback]
    simp
    omega

theorem total_mod (h : ∀ s ∈ segments, Checked s) : total segments % 4096 = 0 := by
  induction segments with
  | nil => rfl
  | cons s rest ih =>
    have hs := (h s List.mem_cons_self).bytes
    have := ih fun t ht => h t (List.mem_cons_of_mem _ ht)
    rw [total_cons]
    omega

/-- A page lies in one segment. -/
theorem Locates.page (hm : Mapped segments) (h : Locates segments logical address)
    (hl : logical % 4096 = 0) (hk : k < 4096) : Locates segments (logical + k) (address + k) := by
  obtain ⟨pre, s, post, rfl, hlow, hhigh, rfl⟩ := h
  have hpre : total pre % 4096 = 0 :=
    total_mod fun t ht => hm.checked t (List.mem_append_left _ ht)
  have hs := (hm.checked s (by simp)).bytes
  exact ⟨pre, s, post, rfl, by omega, by omega, by omega⟩

theorem Locates.lt (hm : Mapped segments) (h : Locates segments logical address) :
    address < 2 ^ 49 := by
  obtain ⟨pre, s, post, rfl, hlow, hhigh, rfl⟩ := h
  have hs := (hm.checked s (by simp)).below
  omega

/-! ## The entries -/

theorem fill_spec {slots : List (Nat × Nat)} (hm : Mapped segments) (hc : c.Between segments)
    (hslots : slots.Pairwise fun p q => p.1 + 8 ≤ q.1 ∧ p.2 ≤ q.2)
    (hin : ∀ p ∈ slots, p.1 + 8 ≤ output.length ∧ c.offset ≤ p.2 ∧ p.2 < total segments) :
    Spec (fill segments slots c) output (fun _ output' => output'.length = output.length ∧
        (∀ p ∈ slots, Locates segments p.2 (number output' p.1 8)) ∧
        ∀ o m, (∀ p ∈ slots, o + m ≤ p.1 ∨ p.1 + 8 ≤ o) → number output' o m = number output o m)
      fun _ _ => False := by
  induction slots generalizing c output with
  | nil => exact .pure ⟨rfl, (fun _ h => nomatch h), fun _ _ _ => rfl⟩
  | cons p rest ih =>
    obtain ⟨hroom, hlow, hhigh⟩ := hin p List.mem_cons_self
    obtain ⟨hfirst, hrest⟩ := List.pairwise_cons.mp hslots
    obtain ⟨found, hfound, hat, hbetween, hoffset⟩ := address_spec (n := segments.length + 1) hc hlow
      hhigh (by omega)
    have hsmall := hat.lt hm
    have hlen : (store output p.1 8 found.1).length = output.length := length_store hroom
    obtain ⟨position, logical⟩ := p
    refine .need_bind (fun hn => ?_) fun found' hfound' => .get_bind ?_
    · rw [hfound] at hn
      cases hn
    rw [hfound] at hfound'
    cases hfound'
    refine .failIf_bind (fun hbad => by dsimp only at hroom; omega) fun _ => .set_bind ?_
    refine (ih hbetween hrest fun q hq => ?_).mono (fun _ output' h => ?_) fun _ _ h => h
    · obtain ⟨hroom', -, hqhigh⟩ := hin q (List.mem_cons_of_mem _ hq)
      exact ⟨by rw [hlen]; exact hroom', Nat.le_trans hoffset (hfirst q hq).2, hqhigh⟩
    · refine ⟨h.1.trans hlen, fun q hq => ?_, fun o m ho => ?_⟩
      · rcases List.mem_cons.mp hq with rfl | hq
        · rw [h.2.2 position 8 fun r hr => .inl (hfirst r hr).1,
            number_store hroom, Nat.mod_eq_of_lt (Nat.lt_of_lt_of_le hsmall (by decide))]
          exact hat
        · exact h.2.1 q hq
      · rw [h.2.2 o m fun r hr => ho r (List.mem_cons_of_mem _ hr),
          number_store_of_disjoint hroom (ho _ List.mem_cons_self)]

/-! ## The levels -/

/-- The sizes of the levels. -/
structure Sizes (need : Requirements) : Prop where
  image : 0 < need.imageBytes
  root : (need.levels 0).pages = 1 ∧ (need.levels 0).offset = 0
  next : ∀ l < 3, (need.levels (l + 1)).offset = (need.levels l).offset + (need.levels l).pages * 4096 ∧
    (need.levels (l + 1)).pages ≤ 512 * (need.levels l).pages
  whole : ∀ l ≤ 3, (need.levels l).offset % 4096 = 0
  table : need.tableBytes = (need.levels 3).offset
  data : (need.levels 3).pages = (need.imageBytes + 4095) / 4096
  allocation : need.allocationBytes = need.tableBytes + (need.levels 3).pages * 4096
  small : need.allocationBytes < 2 ^ 63

theorem requirements_safe {imageBytes : Nat} : Parse.Safe (requirements imageBytes)
    fun need => need.imageBytes = imageBytes ∧ Sizes need := by
  refine Parse.Safe.reject_bind fun h => Parse.Safe.pure ⟨rfl, ?_⟩
  have hmax : maxImageBytes = 67108864 := by decide
  have hpage : pageBytes = 4096 := rfl
  have hentries : entriesPerPage = 512 := rfl
  have h₀ : pagesAbove imageBytes 0 = (imageBytes + 4096 - 1) / 4096 := rfl
  have hup (n : Nat) : pagesAbove imageBytes (n + 1) = (pagesAbove imageBytes n + 512 - 1) / 512 := rfl
  have hoff (n : Nat) : offsetOf imageBytes (n + 1) =
      offsetOf imageBytes n + pagesAbove imageBytes (3 - n) * 4096 := rfl
  have h₁ := hup 0
  have h₂ := hup 1
  have h₃ := hup 2
  have ho₀ : offsetOf imageBytes 0 = 0 := rfl
  have ho₁ := hoff 0
  have ho₂ := hoff 1
  have ho₃ := hoff 2
  simp only [Nat.zero_add, Nat.reduceAdd, Nat.reduceSub] at h₁ h₂ h₃ ho₁ ho₂ ho₃
  exact {
    image := by dsimp only; omega
    root := ⟨by show pagesAbove imageBytes 3 = 1; omega, rfl⟩
    next := fun l hl => by
      obtain rfl | rfl | rfl : l = 0 ∨ l = 1 ∨ l = 2 := by omega
      all_goals
        dsimp only
        simp only [Nat.zero_add, Nat.reduceAdd, Nat.reduceSub]
        omega
    whole := fun l hl => by
      obtain rfl | rfl | rfl | rfl : l = 0 ∨ l = 1 ∨ l = 2 ∨ l = 3 := by omega
      all_goals
        dsimp only
        omega
    table := rfl
    data := h₀
    allocation := by dsimp only; rw [hpage]
    small := by dsimp only; rw [hpage]; omega }

theorem mem_slots {need : Requirements} {p : Nat × Nat} : p ∈ need.slots ↔
    ∃ level < 3, ∃ page < (need.levels (level + 1)).pages,
      p = ((need.levels level).offset + page * 8, (need.levels (level + 1)).offset + page * 4096) := by
  unfold Requirements.slots
  simp only [List.mem_flatMap, List.mem_map, List.mem_range]
  exact ⟨fun ⟨l, hl, q, hq, h⟩ => ⟨l, hl, q, hq, h.symm⟩, fun ⟨l, hl, q, hq, h⟩ => ⟨l, hl, q, hq, h.symm⟩⟩

/-- Later levels begin later. -/
theorem Sizes.mono {need : Requirements} (h : Sizes need) {l m : Nat} (hlm : l < m) (hm : m ≤ 3) :
    (need.levels l).offset + (need.levels l).pages * 4096 ≤ (need.levels m).offset := by
  induction m with
  | zero => omega
  | succ m ih =>
    have hnext := (h.next m (by omega)).1
    rcases Nat.lt_or_ge l m with hlt | hge
    · have := ih hlt (by omega)
      omega
    · obtain rfl : l = m := by omega
      omega

theorem slots_sorted {need : Requirements} (h : Sizes need) :
    need.slots.Pairwise fun p q => p.1 + 8 ≤ q.1 ∧ p.2 ≤ q.2 := by
  unfold Requirements.slots
  rw [List.pairwise_flatMap]
  have hpage : pageBytes = 4096 := rfl
  refine ⟨fun l _ => ?_, ?_⟩
  · rw [List.pairwise_map]
    refine List.pairwise_lt_range.imp fun hlt => ?_
    rw [hpage]
    dsimp only
    omega
  · refine List.Pairwise.imp_of_mem (fun hl hm hlt => ?_) List.pairwise_lt_range
    rintro p hp q hq
    simp only [List.mem_map, List.mem_range] at hl hm hp hq
    obtain ⟨i, hi, rfl⟩ := hp
    obtain ⟨j, hj, rfl⟩ := hq
    have hnext := h.next _ hl
    have htables := h.mono hlt (by omega)
    have hpages := h.mono (Nat.succ_lt_succ hlt) (by omega)
    rw [hpage]
    dsimp only [Nat.succ_eq_add_one] at *
    omega

/-! ## The encoding -/

/-- What an encoding leaves in the output. -/
structure Encoded (image : List Byte) (segments : List Segment) (need : Requirements)
    (output : List Byte) : Prop where
  sizes : Sizes need
  imageBytes : need.imageBytes = image.length
  mapped : Mapped segments
  total : total segments = need.allocationBytes
  length : output.length = need.allocationBytes
  entries : ∀ p ∈ need.slots, Locates segments p.2 (number output p.1 8)
  unused : ∀ o m, o + m ≤ need.tableBytes → (∀ p ∈ need.slots, o + m ≤ p.1 ∨ p.1 + 8 ≤ o) →
    number output o m = 0
  data : ∀ i < (need.levels 3).pages * 4096,
    output.getD (need.tableBytes + i) 0 = image.getD i 0

theorem number_zero {bytes : List Byte} {o m : Nat} (h : ∀ k < m, bytes.getD (o + k) 0 = 0) :
    number bytes o m = 0 := by
  induction m generalizing o with
  | zero => rfl
  | succ m ih =>
    have hfirst := h 0 (Nat.succ_pos m)
    rw [Nat.add_zero] at hfirst
    rw [number, hfirst, ih fun k hk => ?_]
    · rfl
    · have := h (k + 1) (Nat.succ_lt_succ hk)
      rwa [Nat.add_assoc, Nat.add_comm 1 k]

theorem number_one {bytes : List Byte} {o : Nat} (h : number bytes o 1 = 0) : bytes.getD o 0 = 0 := by
  apply BitVec.eq_of_toNat_eq
  rw [number, number] at h
  exact h

/-- Every entry lies in the table and points into the allocation. -/
theorem slot_room {need : Requirements} (h : Sizes need) {p : Nat × Nat} (hp : p ∈ need.slots) :
    p.1 + 8 ≤ need.tableBytes ∧ p.2 < need.allocationBytes := by
  obtain ⟨l, hl, page, hpage, rfl⟩ := mem_slots.1 hp
  have hnext := h.next l hl
  rw [h.allocation, h.table]
  rcases Nat.lt_or_ge (l + 1) 3 with hlt | hge
  · have hlate := h.mono hlt (Nat.le_refl 3)
    dsimp only
    omega
  · obtain rfl : l = 2 := by omega
    simp only [Nat.reduceAdd] at *
    omega

theorem reason_of {α : Type} {x : Parse Error α} {Q : α → Prop} {e : Stop Error}
    (h : Parse.Safe x Q) (hx : x = .error e) : ∃ reason, e = .error reason := by
  cases e with
  | error reason => exact ⟨reason, rfl⟩
  | trap t => exact absurd hx (h.no_trap t)

/-- The output before the entries: zero but for the place of the image. -/
def cleared (output : List Byte) (table size : Nat) : List Byte :=
  blit (blit output 0 (List.replicate table 0)) (table + size)
    (List.replicate (output.length - (table + size)) 0)

theorem cleared_spec {table size : Nat} (h : table + size ≤ output.length) :
    (cleared output table size).length = output.length ∧
      ∀ i, i < table ∨ table + size ≤ i → (cleared output table size).getD i 0 = 0 := by
  have hlen : (blit output 0 (List.replicate table 0)).length = output.length :=
    length_blit (by rw [List.length_replicate]; omega)
  refine ⟨(length_blit (by rw [hlen, List.length_replicate]; omega)).trans hlen, fun i hi => ?_⟩
  rw [cleared, getD_blit (by rw [hlen, List.length_replicate]; omega), List.length_replicate]
  split
  · simp [List.getD_eq_getElem?_getD, List.getElem?_replicate]
    split <;> rfl
  · rw [getD_blit (by rw [List.length_replicate]; omega), List.length_replicate]
    split
    · simp [List.getD_eq_getElem?_getD, List.getElem?_replicate]
      split <;> rfl
    · rw [List.getD_eq_getElem?_getD, List.getElem?_eq_none (by omega)]
      rfl

theorem encode_spec {aliased : Bool} : Spec (encode image segments aliased) output
    (fun root output' => ∃ need, requirements image.length = .ok need ∧
      output.length = need.allocationBytes ∧ Encoded image segments need output' ∧ Locates segments 0 root)
    fun e output' => output' = output ∧ ∃ reason, e = .error reason := by
  refine .lift_bind (fun e he => ⟨rfl, reason_of requirements_safe he⟩) fun need hneed => .get_bind ?_
  obtain ⟨himage, hsizes⟩ := requirements_safe.ok hneed
  have hdata := hsizes.data
  have hallocation := hsizes.allocation
  refine .failIf_bind (fun _ => ⟨rfl, _, rfl⟩) fun hlength => ?_
  refine .failIf_bind (fun _ => ⟨rfl, _, rfl⟩) fun hcount => ?_
  refine .failIf_bind (fun _ => ⟨rfl, _, rfl⟩) fun _ => ?_
  have hcover := @cover_safe segments [] need.allocationBytes 0 (Nat.zero_le _) hsizes.small
    ⟨(fun _ h => nomatch h), .nil⟩
  refine .lift_bind (fun e he => ⟨rfl, reason_of hcover he⟩) fun covered hcovered => ?_
  obtain ⟨hsum, hmapped⟩ := hcover.ok hcovered
  rw [List.nil_append] at hmapped
  refine .failIf_bind (fun _ => ⟨rfl, _, rfl⟩) fun htotal => ?_
  refine .failIf_bind (fun hbad => by omega) fun _ => .set_bind ?_
  have htotal' : total segments = need.allocationBytes := by omega
  obtain ⟨hlen, hzero⟩ := @cleared_spec output need.tableBytes image.length (by omega)
  have hin (p : Nat × Nat) (hp : p ∈ need.slots) :
      p.1 + 8 ≤ (cleared output need.tableBytes image.length).length ∧ 0 ≤ p.2 ∧
        p.2 < total segments := by
    obtain ⟨hroom, hin⟩ := slot_room hsizes hp
    exact ⟨by rw [hlen]; omega, Nat.zero_le _, htotal' ▸ hin⟩
  have hfill := @fill_spec segments ⟨0, 0⟩ (cleared output need.tableBytes image.length) need.slots hmapped
    rfl (slots_sorted hsizes) hin
  refine .seq hfill (fun _ filled hfilled => .modify_bind ?_) fun _ _ h => h.elim
  obtain ⟨hlen', hentries, hframe⟩ := hfilled
  have hfit : need.tableBytes + image.length ≤ filled.length := by
    rw [hlen', hlen]
    omega
  refine .need_bind (fun hnone => ?_) fun s hs => .pure ⟨need, hneed, by omega, ?_, ?_⟩
  · rw [List.getElem?_eq_none_iff] at hnone
    omega
  · refine ⟨hsizes, himage, hmapped, htotal', ?_, fun p hp => ?_, fun o m hm ho => ?_, fun i hi => ?_⟩
    · rw [length_blit hfit, hlen', hlen]
      omega
    · rw [number_blit_of_disjoint hfit (.inl (slot_room hsizes hp).1)]
      exact hentries p hp
    · rw [number_blit_of_disjoint hfit (.inl hm), hframe o m ho]
      exact number_zero fun k hk => hzero _ (.inl (by omega))
    · rw [getD_blit hfit]
      split
      · rw [Nat.add_sub_cancel_left]
      · have hlate : need.tableBytes + image.length ≤ need.tableBytes + i := by omega
        have hnone : image.getD i 0 = 0 := by
          rw [List.getD_eq_getElem?_getD, List.getElem?_eq_none (by omega)]
          rfl
        have hbyte := hframe (need.tableBytes + i) 1 fun p hp =>
          .inr (by have := (slot_room hsizes hp).1; omega)
        rw [hnone]
        refine number_one (hbyte.trans (number_zero fun k hk => hzero _ (.inr (by omega))))
  · obtain ⟨hpos, hget⟩ := List.getElem?_eq_some_iff.mp hs
    obtain ⟨t, rest, rfl⟩ := List.exists_cons_of_length_pos hpos
    obtain rfl : t = s := hget
    exact ⟨[], t, rest, rfl, Nat.le_refl _, by have := (hmapped.checked t List.mem_cons_self).some; simpa,
      by simp⟩

/-! ## The walk -/

section

variable {need : Requirements} {l q e A root i : Nat}

/-- One step down: the entry of a page of a level holds the address of a page of the next. -/
theorem Encoded.step (h : Encoded image segments need output) (hl : l < 3)
    (hA : Locates segments ((need.levels l).offset + 4096 * q) A) (he : e < 512)
    (hq : 512 * q + e < (need.levels (l + 1)).pages) :
    ∃ a, entry segments output A e = some a ∧
      Locates segments ((need.levels (l + 1)).offset + 4096 * (512 * q + e)) a := by
  have hwhole := h.sizes.whole l (by omega)
  have hback := (hA.page (k := 8 * e) h.mapped (by omega) (by omega)).back h.mapped
  have hslot : ((need.levels l).offset + (512 * q + e) * 8,
      (need.levels (l + 1)).offset + (512 * q + e) * 4096) ∈ need.slots :=
    mem_slots.2 ⟨l, hl, 512 * q + e, hq, rfl⟩
  have hentry := h.entries _ hslot
  refine ⟨_, by rw [entry, hback]; rfl, ?_⟩
  have hposition : (need.levels l).offset + 4096 * q + 8 * e =
      (need.levels l).offset + (512 * q + e) * 8 := by omega
  rw [hposition, Nat.mul_comm 4096]
  exact hentry

theorem Encoded.walk (h : Encoded image segments need output) (hroot : Locates segments 0 root)
    (hi : i < (need.levels 3).pages) : ∃ a, walk segments output root i = some a ∧
      Locates segments (need.tableBytes + 4096 * i) a := by
  have h₀ := (h.sizes.next 0 (by omega)).2
  have h₁ := (h.sizes.next 1 (by omega)).2
  have h₂ := (h.sizes.next 2 (by omega)).2
  have hone := h.sizes.root.1
  simp only [Nat.zero_add, Nat.reduceAdd] at h₀ h₁ h₂
  have hstart : Locates segments ((need.levels 0).offset + 4096 * 0) root := by
    rw [h.sizes.root.2]
    exact hroot
  obtain ⟨a₁, he₁, hat₁⟩ := h.step (by omega) hstart (e := i / 512 ^ 2) (by omega)
    (show 512 * 0 + i / 512 ^ 2 < (need.levels 1).pages by omega)
  have hq₁ : 512 * 0 + i / 512 ^ 2 = i / 512 ^ 2 := by omega
  rw [hq₁] at hat₁
  obtain ⟨a₂, he₂, hat₂⟩ := h.step (by omega) hat₁ (e := i / 512 % 512) (by omega)
    (show 512 * (i / 512 ^ 2) + i / 512 % 512 < (need.levels 2).pages by omega)
  have hq₂ : 512 * (i / 512 ^ 2) + i / 512 % 512 = i / 512 := by omega
  rw [hq₂] at hat₂
  obtain ⟨a₃, he₃, hat₃⟩ := h.step (by omega) hat₂ (e := i % 512) (by omega)
    (show 512 * (i / 512) + i % 512 < (need.levels 3).pages by omega)
  have hq₃ : 512 * (i / 512) + i % 512 = i := by omega
  rw [hq₃] at hat₃
  refine ⟨a₃, ?_, h.sizes.table ▸ hat₃⟩
  rw [Radix.walk, he₁]
  show (entry segments output a₁ (i / 512 % 512)).bind _ = _
  rw [he₂]
  exact he₃

/-- The entries behind the used ones are zero. -/
theorem Encoded.rest (h : Encoded image segments need output) (hl : l < 3)
    (he : (need.levels (l + 1)).pages ≤ e) (hin : e < 512 * (need.levels l).pages) :
    number output ((need.levels l).offset + 8 * e) 8 = 0 := by
  have hend := (h.sizes.next l hl).1
  refine h.unused _ _ ?_ fun p hp => ?_
  · rw [h.sizes.table]
    rcases Nat.lt_or_ge (l + 1) 3 with hlt | hge
    · have := h.sizes.mono hlt (Nat.le_refl 3)
      omega
    · obtain rfl : l = 2 := by omega
      simp only [Nat.reduceAdd] at *
      omega
  · obtain ⟨m, hm, page, hpage, rfl⟩ := mem_slots.1 hp
    dsimp only
    rcases Nat.lt_trichotomy m l with hlt | rfl | hgt
    · have := h.sizes.mono hlt (by omega)
      have := (h.sizes.next m hm).2
      omega
    · omega
    · have := h.sizes.mono hgt (by omega)
      omega

end

/-- An encoding either leaves the output alone, or the table it writes leads from its one root page to
every page of the image, padded with zeros, and holds nothing else. -/
theorem encode_walks (image : List Byte) (segments : List Segment) (aliased : Bool)
    (output : List Byte) :
    match encode image segments aliased output with
    | .ok root output' => ∃ need, requirements image.length = .ok need ∧
        (need.levels 0).pages = 1 ∧ output'.length = output.length ∧
        (∀ i < (image.length + 4095) / 4096, ∃ page, walk segments output' root i = some page ∧
          ∀ k < 4096, ∃ offset, logicalOf segments (page + k) = some offset ∧
            output'.getD offset 0 = image.getD (4096 * i + k) 0) ∧
        ∀ l < 3, ∀ e, (need.levels (l + 1)).pages ≤ e → e < 512 * (need.levels l).pages →
          number output' ((need.levels l).offset + 8 * e) 8 = 0
    | .error e output' => output' = output ∧ ∃ reason, e = .error reason := by
  have hspec := @encode_spec segments output image aliased
  cases hrun : encode image segments aliased output with
  | error e output' => exact hspec.error hrun
  | ok root output' =>
    obtain ⟨need, hneed, hlength, h, hroot⟩ := hspec.ok hrun
    have hpages := h.sizes.data
    rw [h.imageBytes] at hpages
    refine ⟨need, hneed, h.sizes.root.1, h.length.trans hlength.symm, fun i hi => ?_,
      fun l hl e he hin => h.rest hl he hin⟩
    obtain ⟨page, hpage, hat⟩ := h.walk hroot (i := i) (by omega)
    have htable := h.sizes.whole 3 (Nat.le_refl 3)
    rw [← h.sizes.table] at htable
    refine ⟨page, hpage, fun k hk => ⟨_, (hat.page h.mapped (by omega) hk).back h.mapped, ?_⟩⟩
    rw [Nat.add_assoc]
    exact h.data _ (by omega)

end Radix
end FirstBoot
end NvidiaGsp
