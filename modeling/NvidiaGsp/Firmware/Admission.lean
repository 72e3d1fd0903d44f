import NvidiaGsp.Firmware.ContainerRules

/-!
# Firmware.Admission

`inspect` never traps, accepts exactly the containers that keep all the rules, and returns the ranges
of the three sections it looked for.
-/

namespace NvidiaGsp
namespace Firmware

open Parse

variable {c : Slice} {family : Family}

theorem header_decides : Decides (header c) (HeaderRules c) fun _ => True := by
  unfold header
  refine Decides.iff (Decides.reject_bind fun hlen => ?_) (D := HeaderRules c) (C := _ ∧
    (c.sub 0 7).toList = magic ∧ allZero (c.sub 7 9) ∧ (c.u16 16 = 1 ∧ c.u16 18 = 243 ∧ c.u32 20 = 1) ∧
    (c.u64 24 = 0 ∧ c.u64 32 = 0 ∧ c.u32 48 = 0 ∧ c.u16 54 = 0 ∧ c.u16 56 = 0) ∧
    c.u16 52 = 64 ∧ c.u16 58 = 64) ?_
  · have hbound : ∀ n, n ≤ 64 → n ≤ c.len := by omega
    refine Decides.iff (Decides.checked_bind (hbound _ (by omega)) (Decides.reject_bind fun _ =>
      Decides.checked_bind (hbound _ (by omega)) <| Decides.checked_bind (hbound _ (by omega)) <|
      Decides.checked_bind (hbound _ (by omega)) <| Decides.checked_bind (hbound _ (by omega)) <|
      Decides.checked_bind (hbound _ (by omega)) <| Decides.checked_bind (hbound _ (by omega)) <|
      Decides.checked_bind (hbound _ (by omega)) <| Decides.checked_bind (hbound _ (by omega)) <|
      Decides.checked_bind (hbound _ (by omega)) <| Decides.checked_bind (hbound _ (by omega)) <|
      Decides.checked_bind (hbound _ (by omega)) <| Decides.reject)) ?_
    simp only [not_or, not_not]
    tauto
  · constructor
    · rintro ⟨hlen, hmagic, hpad, hkind, hunused, hsizes⟩
      exact ⟨by omega, hmagic, hpad, hkind, hunused, hsizes⟩
    · rintro ⟨hlen, hmagic, hpad, hkind, hunused, hsizes⟩
      exact ⟨by omega, hmagic, hpad, hkind, hunused, hsizes⟩

theorem sectionTable_decides (hlen : 64 ≤ c.len) (hcount : 1 ≤ sectionCount c) :
    Decides (sectionTable c (sectionCount c)) ((tableOf c).Inside c.len ∧ ¬ ((tableOf c).offset < 64 ∨
      (tableOf c).offset % 8 ≠ 0) ∧ ¬ ¬ allZero (c.sub (tableOf c).offset 64)) fun t => t = tableOf c := by
  unfold sectionTable
  refine Decides.checked_bind (by omega) (bounded_decides.bind fun table hin ht => ?_)
  subst ht
  refine Decides.reject_bind fun _ => Decides.checked_bind ?_ (Decides.iff (Decides.reject_bind fun _ =>
    Decides.pure rfl) (iff_of_eq (and_true _)))
  simp only [Range.Inside] at hin
  dsimp only
  omega

theorem nameTable_decides (hsmall : c.len ≤ maxBytes) (htable : (tableOf c).Inside c.len)
    (hindex : c.u16 62 < sectionCount c) : Decides (nameTable c (tableOf c) (c.u16 62))
      (¬ kindOf c (c.u16 62) ≠ 3 ∧ (dataOf c (c.u16 62)).Inside c.len ∧
        ¬ ((dataOf c (c.u16 62)).bytes < 2 ∨ (dataOf c (c.u16 62)).bytes > maxNamesBytes) ∧
        ¬ ((namesOf c).get 0 ≠ 0 ∨ (namesOf c).get ((namesOf c).len - 1) ≠ 0))
      fun names => names = namesOf c := by
  have hrecord : record c (c.u16 62) + 64 ≤ c.len := by
    simp only [Range.Inside, tableOf] at htable
    unfold record
    omega
  have hfit : record c (c.u16 62) < 2 ^ 64 := by
    unfold maxBytes at hsmall
    omega
  unfold nameTable
  refine Decides.checked_bind (a := record c (c.u16 62)) hfit (Decides.checked_bind (by omega)
    (Decides.reject_bind fun _ => Decides.checked_bind (by omega) (Decides.checked_bind (by omega)
    (bounded_decides.bind fun range hin hr => ?_))))
  subst hr
  refine Decides.reject_bind fun hsize => Decides.checked_bind hin (Decides.checked_bind ?_
    (Decides.checked_bind ?_ (Decides.iff (Decides.reject_bind fun _ => Decides.pure rfl)
    (iff_of_eq (and_true _)))))
  · dsimp only at hsize
    simp only [Slice.sub_len]
    omega
  · dsimp only at hsize
    simp only [Slice.sub_len]
    omega

/-- The walk over the table. -/
theorem walk_decides (hsmall : c.len ≤ maxBytes) (htable : (tableOf c).Inside c.len)
    (hcount : 1 ≤ sectionCount c) :
    Decides ((List.range' 1 (sectionCount c - 1)).foldlM (admitSection c family (tableOf c) (namesOf c)) {})
      (∀ i, 1 ≤ i → i < sectionCount c → AdmitRules c family i) (UpTo c family (sectionCount c - 1)) := by
  have hloop : Decides ((List.range' 1 (sectionCount c - 1)).foldlM
      (admitSection c family (tableOf c) (namesOf c)) {})
      (∀ k < (List.range' 1 (sectionCount c - 1)).length, AdmitRules c family (k + 1))
      (UpTo c family (List.range' 1 (sectionCount c - 1)).length) := by
    refine Decides.foldlM (P := fun k found => UpTo c family k found) UpTo.none
      fun k hk found hbefore hfound => ?_
    rw [List.length_range'] at hk
    rw [List.getElem_range', Nat.one_mul, Nat.add_comm 1 k]
    refine admit_decides hsmall htable (by omega) hfound fun i h1 hi => ?_
    have := (hbefore (i - 1) (by omega)).own
    rwa [Nat.sub_add_cancel h1] at this
  rw [List.length_range'] at hloop
  refine hloop.iff ⟨fun h i h1 hi => ?_, fun h k hk => h (k + 1) (by omega) (by omega)⟩
  have := h (i - 1) (by omega)
  rwa [Nat.sub_add_cancel h1] at this

/-- The layout is the one of the sections with the three names. -/
structure LayoutOf (c : Slice) (family : Family) (layout : Layout) : Prop where
  image : ∃ i, 1 ≤ i ∧ i < sectionCount c ∧ nameOf c i = imageName ∧ dataOf c i = layout.image
  version : ∃ i, 1 ≤ i ∧ i < sectionCount c ∧ nameOf c i = versionName ∧ dataOf c i = layout.version
  signature : ∃ i, 1 ≤ i ∧ i < sectionCount c ∧ nameOf c i = signatureName family ∧
    dataOf c i = layout.signature
  sections : layout.sections = sectionCount c

theorem inspect_decides :
    Decides (inspect c family) (ContainerRules c family) (LayoutOf c family) := by
  unfold inspect
  refine Decides.iff (header_decides.bind (D := ¬ (sectionCount c < 4 ∨ sectionCount c > maxSections ∨
      c.u16 62 = 0 ∨ c.u16 62 ≥ sectionCount c) ∧
    ((tableOf c).Inside c.len ∧ ¬ ((tableOf c).offset < 64 ∨ (tableOf c).offset % 8 ≠ 0) ∧
      ¬ ¬ allZero (c.sub (tableOf c).offset 64)) ∧
    (¬ kindOf c (c.u16 62) ≠ 3 ∧ (dataOf c (c.u16 62)).Inside c.len ∧
      ¬ ((dataOf c (c.u16 62)).bytes < 2 ∨ (dataOf c (c.u16 62)).bytes > maxNamesBytes) ∧
      ¬ ((namesOf c).get 0 ≠ 0 ∨ (namesOf c).get ((namesOf c).len - 1) ≠ 0)) ∧
    (∀ i, 1 ≤ i → i < sectionCount c → AdmitRules c family i) ∧
    (∃ i, 1 ≤ i ∧ i < sectionCount c ∧ nameOf c i = imageName) ∧
    (∃ i, 1 ≤ i ∧ i < sectionCount c ∧ nameOf c i = versionName) ∧
    ∃ i, 1 ≤ i ∧ i < sectionCount c ∧ nameOf c i = signatureName family)
    fun _ hheader _ => ?_) ?_
  · obtain ⟨hmin, hsmall⟩ := hheader.small
    refine Decides.checked_bind (by omega) (Decides.checked_bind (by omega)
      (Decides.reject_bind fun hcount => ?_))
    have hpos : 1 ≤ sectionCount c := by
      simp only [sectionCount] at hcount ⊢
      omega
    refine (sectionTable_decides hmin hpos).bind fun table htable ht => ?_
    subst ht
    refine (nameTable_decides hsmall htable.1 (by simp only [sectionCount] at hcount ⊢; omega)).bind
      fun names _ hn => ?_
    subst hn
    refine (walk_decides hsmall htable.1 hpos).bind fun found _ hfound => ?_
    -- what the walk has found is what is there
    have hsome : ∀ {o : Option Range} {name : List Nat}, (∀ r, o = some r → ∃ i, 1 ≤ i ∧
        i ≤ sectionCount c - 1 ∧ nameOf c i = name ∧ dataOf c i = r) →
        (∀ i, 1 ≤ i → i ≤ sectionCount c - 1 → nameOf c i = name → o.isSome = true) →
        (o.isSome = true ↔ ∃ i, 1 ≤ i ∧ i < sectionCount c ∧ nameOf c i = name) := by
      intro o name hfrom hto
      constructor
      · intro h
        obtain ⟨r, hr⟩ := Option.isSome_iff_exists.mp h
        obtain ⟨i, h1, hi, hname, -⟩ := hfrom r hr
        exact ⟨i, h1, by omega, hname⟩
      · rintro ⟨i, h1, hi, hname⟩
        exact hto i h1 (by omega) hname
    have hplace : ∀ {name : List Nat} {r : Range}, (∃ i, 1 ≤ i ∧ i ≤ sectionCount c - 1 ∧
        nameOf c i = name ∧ dataOf c i = r) →
        ∃ i, 1 ≤ i ∧ i < sectionCount c ∧ nameOf c i = name ∧ dataOf c i = r := by
      rintro name r ⟨i, h1, hi, hrest⟩
      exact ⟨i, h1, by omega, hrest⟩
    rw [← hsome hfound.image hfound.hasImage, ← hsome hfound.version hfound.hasVersion,
      ← hsome hfound.signature hfound.hasSignature]
    refine Decides.need.bind fun image _ himage => Decides.need.bind fun version _ hversion =>
      Decides.iff (Decides.need.bind fun signature _ hsignature => Decides.pure ?_) (iff_of_eq (and_true _))
    exact ⟨hplace (hfound.image _ himage), hplace (hfound.version _ hversion),
      hplace (hfound.signature _ hsignature), rfl⟩
  · constructor
    · rintro ⟨hheader, hcount, htable, hnames, hsections, himage, hversion, hsignature⟩
      simp only [not_or, not_not, Nat.not_lt, Nat.not_le, ge_iff_le, gt_iff_lt] at hcount htable hnames
      exact ⟨hheader, ⟨⟨hcount.1, hcount.2.1⟩, htable.1, ⟨htable.2.1.1, htable.2.1.2⟩, htable.2.2⟩,
        ⟨hcount.2.2, hnames.1, hnames.2.1, hnames.2.2.1, hnames.2.2.2⟩,
        fun i h1 hi => (hsections i h1 hi).own, fun i h1 hi => (hsections i h1 hi).chosen,
        fun i j h1 hij hj => (hsections j (by omega) hj).before i h1 hij, himage, hversion, hsignature⟩
    · rintro ⟨hheader, htable, hnames, hsections, hchosen, hpairs, himage, hversion, hsignature⟩
      refine ⟨hheader, ?_, ⟨htable.inside, ?_, ?_⟩, ⟨?_, hnames.inside, ?_, ?_⟩, ?_, himage, hversion,
        hsignature⟩
      · have hc := htable.count
        have hi := hnames.index
        omega
      · have := htable.offset
        omega
      · exact not_not.mpr htable.first
      · exact not_not.mpr hnames.kind
      · have := hnames.size
        omega
      · have := hnames.ends
        simp [this]
      · exact fun i h1 hi => ⟨hsections i h1 hi, hchosen i h1 hi, fun j hj hlt => hpairs j i hj hlt hi⟩

/-! ## Admission -/

/-- A range that holds something of the container, apart from its header and its section table. -/
structure Payload (c : Slice) (r : Range) : Prop where
  nonempty : r.bytes ≠ 0
  inside : r.Inside c.len
  header : r.Disjoint ⟨0, 64⟩
  table : r.Disjoint (tableOf c)

/-- What is known of the sections of an accepted container. -/
structure Sectioned (c : Slice) (i : Nat) : Prop where
  nonempty : (dataOf c i).bytes ≠ 0
  inside : (dataOf c i).Inside c.len
  length : 1 ≤ (nameOf c i).length ∧ (nameOf c i).length ≤ 63
  printable : ∀ b ∈ nameOf c i, 0x21 ≤ b ∧ b ≤ 0x7e

theorem SectionRules.payload {i : Nat} (h : SectionRules c i) : Payload c (dataOf c i) := by
  refine ⟨h.nonempty, h.inside, ?_, h.apart⟩
  intro k hk
  have := h.behind
  dsimp only at hk
  omega

theorem SectionRules.sectioned {i : Nat} (h : SectionRules c i) : Sectioned c i :=
  ⟨h.nonempty, h.inside, h.named.length, h.named.printable⟩

/-- Sections of different names have no byte in common. -/
theorem ContainerRules.disjoint (h : ContainerRules c family) {i j : Nat} (hi : 1 ≤ i)
    (hi' : i < sectionCount c) (hj : 1 ≤ j) (hj' : j < sectionCount c) (hn : nameOf c i ≠ nameOf c j) :
    (dataOf c i).Disjoint (dataOf c j) := by
  rcases Nat.lt_trichotomy i j with hlt | rfl | hlt
  · exact (h.pairs i j hi hlt hj').data
  · exact absurd rfl hn
  · exact (h.pairs j i hj hlt hi').data.symm

theorem container_admission (c : Slice) (family : Family) :
    (∀ t, inspect c family ≠ .error (.trap t)) ∧
    (∀ layout, inspect c family = .ok layout →
      (Payload c layout.image ∧ Payload c layout.version ∧ Payload c layout.signature) ∧
      (layout.image.Disjoint layout.version ∧ layout.image.Disjoint layout.signature ∧
        layout.version.Disjoint layout.signature) ∧
      (∀ i, 1 ≤ i → i < sectionCount c → Sectioned c i) ∧
      ∀ i j, 1 ≤ i → i < j → j < sectionCount c → PairRules c i j) ∧
    ((∃ layout, inspect c family = .ok layout) ↔ ContainerRules c family) := by
  have hd : Decides (inspect c family) (ContainerRules c family) (LayoutOf c family) := inspect_decides
  refine ⟨hd.safe.no_trap, fun layout hl => ?_, ⟨fun ⟨_, hl⟩ => (hd.safe.ok hl).1, fun h => ?_⟩⟩
  · obtain ⟨h, hlayout⟩ := hd.safe.ok hl
    obtain ⟨hiv, his, hvs⟩ := names_differ family
    obtain ⟨i, hi, hi', hin, hid⟩ := hlayout.image
    obtain ⟨v, hv, hv', hvn, hvd⟩ := hlayout.version
    obtain ⟨s, hs, hs', hsn, hsd⟩ := hlayout.signature
    rw [← hid, ← hvd, ← hsd]
    refine ⟨⟨(h.sections i hi hi').payload, (h.sections v hv hv').payload,
      (h.sections s hs hs').payload⟩, ⟨?_, ?_, ?_⟩, fun k hk hk' => (h.sections k hk hk').sectioned,
      h.pairs⟩
    · exact h.disjoint hi hi' hv hv' (by rwa [hin, hvn])
    · exact h.disjoint hi hi' hs hs' (by rwa [hin, hsn])
    · exact h.disjoint hv hv' hs hs' (by rwa [hvn, hsn])
  · obtain ⟨layout, hl, -⟩ := hd.accepts h
    exact ⟨layout, hl⟩

/-- A small container of the four sections; the string table has the given alignment. -/
def sample (alignment : Nat) : Slice :=
  .written 4539 [(0, magic), (16, [1, 0, 243, 0, 1]), (40, [64]), (52, [64]), (58, [64, 0, 5, 0, 4]),
    (128, [1, 0, 0, 0, 1, 0, 0, 0, 3]), (152, [186, 1]), (160, [1]),
    (192, [10, 0, 0, 0, 1]), (216, [178, 1]), (224, [8]),
    (256, [21, 0, 0, 0, 1]), (280, [187, 1]), (288, [0, 16]),
    (320, [40, 0, 0, 0, 3]), (344, [128, 1]), (352, [50]), (368, [alignment]),
    (385, imageName), (394, versionName), (405, signatureName .ga10x),
    (424, text ['.', 's', 'h', 's', 't', 'r', 't', 'a', 'b']), (434, rmVersion)]

/-- A container is accepted. -/
theorem container_admission_sample : ContainerRules (sample 1) .ga10x :=
  (container_admission (sample 1) .ga10x).2.2.mp ⟨⟨⟨442, 1⟩, ⟨434, 8⟩, ⟨443, 4096⟩, 5⟩, by decide +kernel⟩

/-- The rules without those on kinds, flags, addresses and alignments of the other sections. -/
structure PlacedRules (c : Slice) (family : Family) : Prop where
  header : HeaderRules c
  table : TableRules c
  names : NamesRules c
  sections : ∀ i, 1 ≤ i → i < sectionCount c → Sectioned c i ∧ Payload c (dataOf c i)
  chosen : ∀ i, 1 ≤ i → i < sectionCount c → ChosenRules c family i
  pairs : ∀ i j, 1 ≤ i → i < j → j < sectionCount c → PairRules c i j
  image : ∃ i, 1 ≤ i ∧ i < sectionCount c ∧ nameOf c i = imageName
  version : ∃ i, 1 ≤ i ∧ i < sectionCount c ∧ nameOf c i = versionName
  signature : ∃ i, 1 ≤ i ∧ i < sectionCount c ∧ nameOf c i = signatureName family

/-- They do not suffice: the string table of this container has an alignment that is no power of two. -/
theorem placed_refused :
    ¬ ∀ c family, PlacedRules c family → ∃ layout, inspect c family = .ok layout := by
  intro h
  have hcount : sectionCount (sample 3) = 5 := by decide +kernel
  have hsections : ∀ i, 1 ≤ i → i < sectionCount (sample 3) →
      Sectioned (sample 3) i ∧ Payload (sample 3) (dataOf (sample 3) i) := by
    intro i h1 hi
    have hcases : i = 1 ∨ i = 2 ∨ i = 3 ∨ i = 4 := by omega
    rcases hcases with rfl | rfl | rfl | rfl
    all_goals
      exact ⟨⟨by decide +kernel, by decide +kernel, by decide +kernel, by decide +kernel⟩,
        by decide +kernel, by decide +kernel, by decide +kernel, by decide +kernel⟩
  have hchosen : ∀ i, 1 ≤ i → i < sectionCount (sample 3) → ChosenRules (sample 3) .ga10x i := by
    intro i h1 hi
    have hcases : i = 1 ∨ i = 2 ∨ i = 3 ∨ i = 4 := by omega
    rcases hcases with rfl | rfl | rfl | rfl
    case inr.inl =>
      refine ⟨fun h => absurd h (by decide +kernel), fun _ => ⟨by decide +kernel, by decide +kernel, ?_⟩,
        fun h => absurd h (by decide +kernel)⟩
      exact ⟨by decide +kernel, by decide +kernel, by decide +kernel⟩
    all_goals exact ⟨by decide +kernel, fun h => absurd h (by decide +kernel), by decide +kernel⟩
  have hpairs : ∀ i j, 1 ≤ i → i < j → j < sectionCount (sample 3) → PairRules (sample 3) i j := by
    intro i j h1 hij hj
    have hcases : (i = 1 ∧ (j = 2 ∨ j = 3 ∨ j = 4)) ∨ (i = 2 ∧ (j = 3 ∨ j = 4)) ∨ (i = 3 ∧ j = 4) := by
      omega
    rcases hcases with ⟨rfl, rfl | rfl | rfl⟩ | ⟨rfl, rfl | rfl⟩ | ⟨rfl, rfl⟩
    all_goals exact ⟨by decide +kernel, by decide +kernel⟩
  have hplaced : PlacedRules (sample 3) .ga10x := by
    refine ⟨⟨?_, ?_, ?_, ?_, ?_, ?_⟩, ⟨?_, ?_, ?_, ?_⟩, ⟨?_, ?_, ?_, ?_, ?_⟩, hsections, hchosen, hpairs,
      ⟨1, ?_⟩, ⟨2, ?_⟩, ⟨3, ?_⟩⟩
    all_goals decide +kernel
  have hrefused : inspect (sample 3) .ga10x = .error (.error .BadSection) := by decide +kernel
  obtain ⟨layout, hl⟩ := h _ _ hplaced
  rw [hrefused] at hl
  cases hl

end Firmware
end NvidiaGsp
