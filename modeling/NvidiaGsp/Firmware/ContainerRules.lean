import NvidiaGsp.Firmware.Container

/-!
# Firmware.ContainerRules

The rules of a container, stated over all its sections at once, and the proof that `inspect` decides
them. The walk compares a section with those before it only, so its invariant is the list of the
sections it has seen (`upTo`).
-/

namespace NvidiaGsp
namespace Firmware

open Parse

/-! ## The rules -/

/-- No byte in common. -/
def Range.Disjoint (r s : Range) : Prop :=
  ∀ i, ¬ (r.offset ≤ i ∧ i < r.offset + r.bytes ∧ s.offset ≤ i ∧ i < s.offset + s.bytes)

def Range.Inside (r : Range) (len : Nat) : Prop := r.offset + r.bytes ≤ len

instance (r : Range) (len : Nat) : Decidable (r.Inside len) := inferInstanceAs (Decidable (_ ≤ _))

section

variable (c : Slice) (family : Family)

def sectionCount : Nat := c.u16 60

def tableOf : Range := ⟨c.u64 40, sectionCount c * 64⟩

def record (i : Nat) : Nat := c.u64 40 + i * 64

def dataOf (i : Nat) : Range := ⟨c.u64 (record c i + 24), c.u64 (record c i + 32)⟩

def kindOf (i : Nat) : Nat := c.u32 (record c i + 4)

def flagsOf (i : Nat) : Nat := c.u64 (record c i + 8)

/-- The string table. -/
def namesOf : Slice := c.sub (dataOf c (c.u16 62)).offset (dataOf c (c.u16 62)).bytes

/-- The text from a place to the next zero. -/
def textAt (names : Slice) (start : Nat) : List Nat :=
  (names.sub start (names.len - start)).toList.takeWhile (· ≠ 0)

def nameOf (i : Nat) : List Nat := textAt (namesOf c) (c.u32 (record c i))

def sectionOf (i : Nat) : Section := ⟨nameOf c i, dataOf c i, kindOf c i, flagsOf c i⟩

structure HeaderRules : Prop where
  small : 64 ≤ c.len ∧ c.len ≤ maxBytes
  magic : (c.sub 0 7).toList = magic
  padding : allZero (c.sub 7 9)
  kind : c.u16 16 = 1 ∧ c.u16 18 = 243 ∧ c.u32 20 = 1
  unused : c.u64 24 = 0 ∧ c.u64 32 = 0 ∧ c.u32 48 = 0 ∧ c.u16 54 = 0 ∧ c.u16 56 = 0
  sizes : c.u16 52 = 64 ∧ c.u16 58 = 64

structure TableRules : Prop where
  count : 4 ≤ sectionCount c ∧ sectionCount c ≤ maxSections
  inside : (tableOf c).Inside c.len
  offset : 64 ≤ (tableOf c).offset ∧ (tableOf c).offset % 8 = 0
  first : allZero (c.sub (tableOf c).offset 64)

structure NamesRules : Prop where
  index : c.u16 62 ≠ 0 ∧ c.u16 62 < sectionCount c
  kind : kindOf c (c.u16 62) = 3
  inside : (dataOf c (c.u16 62)).Inside c.len
  size : 2 ≤ (dataOf c (c.u16 62)).bytes ∧ (dataOf c (c.u16 62)).bytes ≤ maxNamesBytes
  ends : (namesOf c).get 0 = 0 ∧ (namesOf c).get ((namesOf c).len - 1) = 0

/-- A name of printable bytes in the string table. -/
structure Named (names : Slice) (start : Nat) : Prop where
  begins : start ≠ 0 ∧ start < names.len
  ended : ∃ i < names.len, start ≤ i ∧ names.get i = 0
  length : 1 ≤ (textAt names start).length ∧ (textAt names start).length ≤ 63
  printable : ∀ b ∈ textAt names start, 0x21 ≤ b ∧ b ≤ 0x7e

structure SectionRules (i : Nat) : Prop where
  named : Named (namesOf c) (c.u32 (record c i))
  nonempty : (dataOf c i).bytes ≠ 0
  inside : (dataOf c i).Inside c.len
  behind : 64 ≤ (dataOf c i).offset
  apart : (dataOf c i).Disjoint (tableOf c)
  kind : kindOf c i = 1 ∨ kindOf c i = 2 ∨ kindOf c i = 3 ∨ kindOf c i = 7
  flags : flagsOf c i &&& 0xfffffffffffffffc = 0
  address : c.u64 (record c i + 16) = 0
  aligned : c.u64 (record c i + 48) ≠ 0 →
    isPowerOfTwo (c.u64 (record c i + 48)) ∧ (dataOf c i).offset % c.u64 (record c i + 48) = 0

/-- The version text, closed by a zero. -/
structure VersionText (s : Slice) : Prop where
  length : s.len = rmVersion.length + 1
  closed : s.get (s.len - 1) = 0
  text : (s.sub 0 (s.len - 1)).toList = rmVersion

/-- What the three sections that are looked for must be. -/
structure ChosenRules (i : Nat) : Prop where
  image : nameOf c i = imageName → kindOf c i = 1 ∧ flagsOf c i = 3
  version : nameOf c i = versionName → kindOf c i = 1 ∧ flagsOf c i = 0 ∧
    VersionText (c.sub (dataOf c i).offset (dataOf c i).bytes)
  signature : nameOf c i = signatureName family → kindOf c i = 1 ∧ flagsOf c i = 0 ∧
    (dataOf c i).bytes = signatureBytes

/-- Two sections. -/
structure PairRules (i j : Nat) : Prop where
  names : nameOf c i ≠ nameOf c j
  data : (dataOf c i).Disjoint (dataOf c j)

structure ContainerRules : Prop where
  header : HeaderRules c
  table : TableRules c
  names : NamesRules c
  sections : ∀ i, 1 ≤ i → i < sectionCount c → SectionRules c i
  chosen : ∀ i, 1 ≤ i → i < sectionCount c → ChosenRules c family i
  pairs : ∀ i j, 1 ≤ i → i < j → j < sectionCount c → PairRules c i j
  image : ∃ i, 1 ≤ i ∧ i < sectionCount c ∧ nameOf c i = imageName
  version : ∃ i, 1 ≤ i ∧ i < sectionCount c ∧ nameOf c i = versionName
  signature : ∃ i, 1 ≤ i ∧ i < sectionCount c ∧ nameOf c i = signatureName family

end

/-! ## Ranges -/

variable {c : Slice} {family : Family}

theorem Range.Disjoint.symm {r s : Range} (h : r.Disjoint s) : s.Disjoint r := by
  intro i hi
  exact h i ⟨hi.2.2.1, hi.2.2.2, hi.1, hi.2.1⟩

/-- The two comparisons of the source. -/
theorem Range.disjoint_iff {r s : Range} : r.Disjoint s ↔ ¬ (r.bytes ≠ 0 ∧ s.bytes ≠ 0 ∧
    r.offset < s.offset + s.bytes ∧ s.offset < r.offset + r.bytes) := by
  constructor
  · rintro h ⟨hr, hs, hlt, hlt'⟩
    exact h (max r.offset s.offset) (by omega)
  · rintro h i ⟨hr, hr', hs, hs'⟩
    exact h (by omega)

instance (r s : Range) : Decidable (r.Disjoint s) := decidable_of_iff _ Range.disjoint_iff.symm

theorem overlaps_decides {r s : Range} {len : Nat} (hr : r.Inside len) (hs : s.Inside len)
    (hlen : len < 2 ^ 64) : Decides (r.overlaps s) True fun b => b = true ↔ ¬ r.Disjoint s := by
  have hr' : r.offset + r.bytes < 2 ^ 64 := Nat.lt_of_le_of_lt hr hlen
  have hs' : s.offset + s.bytes < 2 ^ 64 := Nat.lt_of_le_of_lt hs hlen
  simp only [Range.disjoint_iff]
  unfold Range.overlaps
  split
  · refine Decides.pure ?_
    simp only [Bool.false_eq_true, false_iff]
    omega
  · refine Decides.checked_bind hs' ?_
    split
    · refine Decides.checked_bind hr' (Decides.pure ?_)
      simp only [decide_eq_true_eq]
      omega
    · refine Decides.pure ?_
      simp only [Bool.false_eq_true, false_iff]
      omega

theorem bounded_decides {total offset size : Nat} :
    Decides (bounded total offset size) (Range.Inside ⟨offset, size⟩ total)
      fun r => r = ⟨offset, size⟩ := by
  unfold bounded
  refine Decides.iff (Decides.reject_bind fun _ => Decides.pure rfl) ?_
  simp only [Range.Inside, and_true]
  omega

/-! ## Names -/

theorem take_sub {s : Slice} {o n k : Nat} (h : k ≤ n) :
    (s.sub o n).toList.take k = (s.sub o k).toList := by
  simp [Slice.toList, ← List.map_take, List.take_range, Nat.min_eq_left h]

/-- The name ends at the first zero. -/
theorem textAt_eq {names : Slice} {start stop : Nat}
    (h : (names.sub start (names.len - start)).toList.findIdx? (· = 0) = some stop) :
    textAt names start = (names.sub start stop).toList ∧ start + stop < names.len ∧
      names.get (start + stop) = 0 := by
  obtain ⟨hlt, hidx⟩ := List.findIdx?_eq_some_iff_findIdx_eq.mp h
  rw [Slice.length_toList, Slice.sub_len] at hlt
  refine ⟨?_, by omega, ?_⟩
  · unfold textAt
    rw [List.takeWhile_eq_take_findIdx_not]
    have hsame : (fun b : Nat => !decide (b ≠ 0)) = fun b => decide (b = 0) := by
      funext b
      simp
    rw [hsame, hidx, take_sub (by omega)]
  · have hin : (names.sub start (names.len - start)).toList.findIdx (fun b => decide (b = 0)) <
        (names.sub start (names.len - start)).toList.length := by
      rw [hidx]
      simpa using hlt
    have hzero := List.findIdx_getElem (w := hin)
    simp only [hidx, decide_eq_true_eq] at hzero
    simpa [Slice.toList] using hzero

theorem sectionName_decides {names : Slice} {start : Nat} :
    Decides (sectionName names start) (Named names start) fun name => name = textAt names start := by
  unfold sectionName
  refine Decides.iff (Decides.reject_bind fun hstart => Decides.checked_bind (by omega)
    (Decides.need.bind (D := (1 ≤ (textAt names start).length ∧ (textAt names start).length ≤ 63) ∧
      ∀ b ∈ textAt names start, 0x21 ≤ b ∧ b ≤ 0x7e) fun stop _ hstop => ?_)) ?_
  · obtain ⟨htext, hend, -⟩ := textAt_eq hstop
    rw [htext]
    refine Decides.iff (Decides.reject_bind fun hlen => Decides.checked_bind (by omega)
      (Decides.reject_bind fun _ => Decides.pure rfl)) ?_
    simp only [Slice.length_toList, Slice.sub_len, not_exists, not_and, and_true]
    constructor
    · rintro ⟨hlen, hchars⟩
      exact ⟨by omega, fun b hb => by have := hchars b hb; omega⟩
    · rintro ⟨hlen, hchars⟩
      exact ⟨by omega, fun b hb => by have := hchars b hb; omega⟩
  · constructor
    · rintro ⟨hstart, hsome, hlen, hchars⟩
      obtain ⟨stop, hstop⟩ := Option.isSome_iff_exists.mp hsome
      obtain ⟨-, hend, hzero⟩ := textAt_eq hstop
      exact ⟨by omega, ⟨start + stop, hend, by omega, hzero⟩, hlen, hchars⟩
    · rintro ⟨hstart, ⟨i, hlt, hi, hzero⟩, hlen, hchars⟩
      refine ⟨by omega, ?_, hlen, hchars⟩
      rw [List.findIdx?_isSome, List.any_eq_true]
      refine ⟨0, ?_, by simp⟩
      rw [Slice.mem_toList]
      refine ⟨i - start, by simp; omega, ?_⟩
      rw [Slice.sub_get]
      have hsum : start + (i - start) = i := by omega
      rw [hsum, hzero]

/-! ## One section -/

/-- A section against a list of those before it. -/
theorem compare_decides {s : Section} {len : Nat} (hlen : len < 2 ^ 64) (hs : s.data.Inside len)
    (before : List Section) (hbefore : ∀ p ∈ before, p.data.Inside len) :
    Decides (compare s before) (∀ p ∈ before, p.name ≠ s.name ∧ p.data.Disjoint s.data)
      fun _ => True := by
  induction before with
  | nil => exact Decides.iff (Decides.pure trivial) (by simp)
  | cons p rest ih =>
    have hrest := ih fun q hq => hbefore q (by simp [hq])
    unfold compare
    refine Decides.iff (Decides.reject_bind fun _ =>
      (overlaps_decides (hbefore p (by simp)) hs hlen).bind (D := p.data.Disjoint s.data ∧
        ∀ q ∈ rest, q.name ≠ s.name ∧ q.data.Disjoint s.data) fun b _ hb => ?_) ?_
    · refine Decides.iff (Decides.reject_bind fun _ => hrest) ?_
      rw [hb, not_not]
    · simp only [true_and, List.mem_cons, forall_eq_or_imp]
      constructor
      · rintro ⟨hname, hdata, hlater⟩
        exact ⟨⟨hname, hdata⟩, hlater⟩
      · rintro ⟨⟨hname, hdata⟩, hlater⟩
        exact ⟨hname, hdata, hlater⟩

/-- What the choice of a section writes. -/
def Found.choose (found : Found) (family : Family) (s : Section) : Found :=
  if s.name = imageName then { found with image := some s.data }
  else if s.name = versionName then { found with version := some s.data }
  else if s.name = signatureName family then { found with signature := some s.data }
  else found

/-- The names differ, so one section is chosen for one thing. -/
theorem names_differ (family : Family) : imageName ≠ versionName ∧ imageName ≠ signatureName family ∧
    versionName ≠ signatureName family := by
  cases family <;> decide

theorem select_decides {found : Found} {i : Nat} (hin : (dataOf c i).Inside c.len) :
    Decides (select c family found (sectionOf c i)) (ChosenRules c family i)
      fun f => f = found.choose family (sectionOf c i) := by
  obtain ⟨hiv, his, hvs⟩ := names_differ family
  unfold select Found.choose
  split
  · rename_i himage
    refine Decides.iff (Decides.reject_bind fun _ => Decides.pure rfl) ?_
    have hname : nameOf c i = imageName := himage
    constructor
    · rintro ⟨h, -⟩
      refine ⟨fun _ => ?_, fun hn => absurd (hname ▸ hn) hiv, fun hn => absurd (hname ▸ hn) his⟩
      simpa [sectionOf] using h
    · intro h
      have := h.image hname
      simpa [sectionOf] using this
  · rename_i hnimage
    split
    · rename_i hversion
      have hname : nameOf c i = versionName := hversion
      refine Decides.iff (Decides.reject_bind fun _ => Decides.checked_bind hin
        (Decides.reject_bind fun hlength => Decides.checked_bind (by simp at hlength ⊢; omega)
          (Decides.checked_bind (by simp at hlength ⊢) (Decides.reject_bind fun _ =>
            Decides.pure rfl)))) ?_
      constructor
      · rintro ⟨hk, hlength, htext, -⟩
        refine ⟨fun hn => absurd (hname ▸ hn).symm hiv, fun _ => ?_, fun hn => absurd (hname ▸ hn) hvs⟩
        simp only [sectionOf, not_or, not_not] at hk hlength htext
        exact ⟨hk.1, hk.2, hlength, htext.1, htext.2⟩
      · intro h
        obtain ⟨hkind, hflags, hlength, hclosed, htext⟩ := h.version hname
        refine ⟨?_, ?_, ?_, trivial⟩
        · simp [sectionOf, hkind, hflags]
        · exact not_not.mpr hlength
        · simp only [not_or, not_not]
          exact ⟨hclosed, htext⟩
    · rename_i hnversion
      split
      · rename_i hsignature
        have hname : nameOf c i = signatureName family := hsignature
        refine Decides.iff (Decides.reject_bind fun _ => Decides.pure rfl) ?_
        constructor
        · rintro ⟨h, -⟩
          refine ⟨fun hn => absurd hn hnimage, fun hn => absurd hn hnversion, fun _ => ?_⟩
          simpa [sectionOf] using h
        · intro h
          have := h.signature hname
          simpa [sectionOf] using this
      · rename_i hnsignature
        refine Decides.iff (Decides.pure rfl) ⟨fun _ => ?_, fun _ => trivial⟩
        exact ⟨fun hn => absurd hn hnimage, fun hn => absurd hn hnversion, fun hn =>
          absurd hn hnsignature⟩

/-- What the walk has seen after `n` sections. -/
structure UpTo (c : Slice) (family : Family) (n : Nat) (found : Found) : Prop where
  sections : found.sections = (List.range' 1 n).map (sectionOf c)
  image : ∀ r, found.image = some r → ∃ i, 1 ≤ i ∧ i ≤ n ∧ nameOf c i = imageName ∧ dataOf c i = r
  version : ∀ r, found.version = some r → ∃ i, 1 ≤ i ∧ i ≤ n ∧ nameOf c i = versionName ∧ dataOf c i = r
  signature : ∀ r, found.signature = some r →
    ∃ i, 1 ≤ i ∧ i ≤ n ∧ nameOf c i = signatureName family ∧ dataOf c i = r
  hasImage : ∀ i, 1 ≤ i → i ≤ n → nameOf c i = imageName → found.image.isSome = true
  hasVersion : ∀ i, 1 ≤ i → i ≤ n → nameOf c i = versionName → found.version.isSome = true
  hasSignature : ∀ i, 1 ≤ i → i ≤ n → nameOf c i = signatureName family → found.signature.isSome = true

theorem UpTo.none : UpTo c family 0 {} := by
  constructor <;> intros <;> simp_all

theorem UpTo.choose {n : Nat} {found : Found} (h : UpTo c family n found) :
    UpTo c family (n + 1) (({ found with
      sections := found.sections ++ [sectionOf c (n + 1)] } : Found).choose family (sectionOf c (n + 1))) := by
  obtain ⟨hiv, his, hvs⟩ := names_differ family
  have hold : ∀ {name : List Nat} {r : Range},
      (∃ i, 1 ≤ i ∧ i ≤ n ∧ nameOf c i = name ∧ dataOf c i = r) →
      ∃ i, 1 ≤ i ∧ i ≤ n + 1 ∧ nameOf c i = name ∧ dataOf c i = r := by
    rintro name r ⟨i, h1, hn, hrest⟩
    exact ⟨i, h1, by omega, hrest⟩
  have hsections : found.sections ++ [sectionOf c (n + 1)] =
      (List.range' 1 (n + 1)).map (sectionOf c) := by
    rw [h.sections, List.range'_1_concat, List.map_append, Nat.add_comm 1 n]
    rfl
  have hnew : ∀ i, i ≤ n + 1 → i ≤ n ∨ i = n + 1 := by omega
  have hname : (sectionOf c (n + 1)).name = nameOf c (n + 1) := rfl
  have hdata : (sectionOf c (n + 1)).data = dataOf c (n + 1) := rfl
  unfold Found.choose
  split
  · rename_i himage
    rw [hname] at himage
    refine ⟨hsections, ?_, fun r hr => hold (h.version r hr), fun r hr => hold (h.signature r hr),
      fun i _ _ _ => rfl, ?_, ?_⟩
    · rintro r hr
      exact ⟨n + 1, by omega, Nat.le_refl _, himage, by simpa [hdata] using hr⟩
    · intro i h1 hi hn
      rcases hnew i hi with hle | rfl
      · exact h.hasVersion i h1 hle hn
      · exact absurd (himage.symm.trans hn) hiv
    · intro i h1 hi hn
      rcases hnew i hi with hle | rfl
      · exact h.hasSignature i h1 hle hn
      · exact absurd (himage.symm.trans hn) his
  · rename_i hnimage
    rw [hname] at hnimage
    have himage : ∀ i, 1 ≤ i → i ≤ n + 1 → nameOf c i = imageName → found.image.isSome = true := by
      intro i h1 hi hn
      rcases hnew i hi with hle | rfl
      · exact h.hasImage i h1 hle hn
      · exact absurd hn hnimage
    split
    · rename_i hversion
      rw [hname] at hversion
      refine ⟨hsections, fun r hr => hold (h.image r hr), ?_, fun r hr => hold (h.signature r hr),
        himage, fun i _ _ _ => rfl, ?_⟩
      · rintro r hr
        exact ⟨n + 1, by omega, Nat.le_refl _, hversion, by simpa [hdata] using hr⟩
      · intro i h1 hi hn
        rcases hnew i hi with hle | rfl
        · exact h.hasSignature i h1 hle hn
        · exact absurd (hversion.symm.trans hn) hvs
    · rename_i hnversion
      rw [hname] at hnversion
      have hversion : ∀ i, 1 ≤ i → i ≤ n + 1 → nameOf c i = versionName →
          found.version.isSome = true := by
        intro i h1 hi hn
        rcases hnew i hi with hle | rfl
        · exact h.hasVersion i h1 hle hn
        · exact absurd hn hnversion
      split
      · rename_i hsignature
        rw [hname] at hsignature
        refine ⟨hsections, fun r hr => hold (h.image r hr), fun r hr => hold (h.version r hr), ?_,
          himage, hversion, fun i _ _ _ => rfl⟩
        rintro r hr
        exact ⟨n + 1, by omega, Nat.le_refl _, hsignature, by simpa [hdata] using hr⟩
      · rename_i hnsignature
        rw [hname] at hnsignature
        refine ⟨hsections, fun r hr => hold (h.image r hr), fun r hr => hold (h.version r hr),
          fun r hr => hold (h.signature r hr), himage, hversion, ?_⟩
        intro i h1 hi hn
        rcases hnew i hi with hle | rfl
        · exact h.hasSignature i h1 hle hn
        · exact absurd hn hnsignature

/-- The rules of one section, with those before it. -/
structure AdmitRules (c : Slice) (family : Family) (i : Nat) : Prop where
  own : SectionRules c i
  chosen : ChosenRules c family i
  before : ∀ j, 1 ≤ j → j < i → PairRules c j i

theorem mem_before {i : Nat} {s : Section} : s ∈ (List.range' 1 i).map (sectionOf c) ↔
    ∃ j, 1 ≤ j ∧ j < i + 1 ∧ sectionOf c j = s := by
  simp only [List.mem_map, List.mem_range'_1]
  constructor
  · rintro ⟨j, hj, hs⟩
    exact ⟨j, by omega, by omega, hs⟩
  · rintro ⟨j, h1, hj, hs⟩
    exact ⟨j, by omega, hs⟩

theorem admit_decides {n : Nat} {found : Found} (hsmall : c.len ≤ maxBytes)
    (htable : (tableOf c).Inside c.len) (hn : n + 1 < sectionCount c) (hfound : UpTo c family n found)
    (hbefore : ∀ i, 1 ≤ i → i ≤ n → SectionRules c i) :
    Decides (admitSection c family (tableOf c) (namesOf c) found (n + 1)) (AdmitRules c family (n + 1))
      (UpTo c family (n + 1)) := by
  have hlen : c.len < 2 ^ 64 := by
    unfold maxBytes at hsmall
    omega
  have hrecord : record c (n + 1) + 64 ≤ c.len := by
    simp only [Range.Inside, tableOf] at htable
    unfold record
    omega
  have hfit : record c (n + 1) < 2 ^ 64 := by omega
  have hseen : ∀ p ∈ found.sections, p.data.Inside c.len := by
    intro p hp
    rw [hfound.sections, mem_before] at hp
    obtain ⟨j, h1, hj, rfl⟩ := hp
    exact (hbefore j h1 (by omega)).inside
  unfold admitSection
  refine Decides.iff (Decides.checked_bind (a := record c (n + 1)) hfit
    (Decides.checked_bind (by omega) (sectionName_decides.bind (D := (dataOf c (n + 1)).Inside c.len ∧
      ¬ (kindOf c (n + 1) ≠ 1 ∧ kindOf c (n + 1) ≠ 2 ∧ kindOf c (n + 1) ≠ 3 ∧ kindOf c (n + 1) ≠ 7) ∧
      ¬ (flagsOf c (n + 1) &&& 0xfffffffffffffffc ≠ 0 ∨ c.u64 (record c (n + 1) + 16) ≠ 0) ∧
      ¬ (c.u64 (record c (n + 1) + 48) ≠ 0 ∧ (¬ isPowerOfTwo (c.u64 (record c (n + 1) + 48)) ∨
        (dataOf c (n + 1)).offset % c.u64 (record c (n + 1) + 48) ≠ 0)) ∧
      True ∧ ¬ ((dataOf c (n + 1)).bytes = 0 ∨ (dataOf c (n + 1)).offset < 64 ∨
        ¬ (dataOf c (n + 1)).Disjoint (tableOf c)) ∧
      (∀ p ∈ found.sections, p.name ≠ nameOf c (n + 1) ∧ p.data.Disjoint (dataOf c (n + 1))) ∧
      ChosenRules c family (n + 1)) fun name _ hname => ?_))) ?_
  · refine Decides.checked_bind (by omega) (Decides.checked_bind (by omega)
      (bounded_decides.bind fun data hdata hd => ?_))
    refine Decides.checked_bind (by omega) (Decides.checked_bind (by omega)
      (Decides.reject_bind fun _ => Decides.checked_bind (by omega) (Decides.reject_bind fun _ =>
      Decides.checked_bind (by omega) ?_)))
    subst hname hd
    refine Decides.reject_bind fun _ => (overlaps_decides hdata htable hlen).bind fun covered _ hc => ?_
    have hcovered : covered = true ↔ ¬ (dataOf c (n + 1)).Disjoint (tableOf c) := hc
    rw [← hcovered]
    refine Decides.reject_bind fun _ => (compare_decides hlen hdata _ hseen).bind fun _ _ _ => ?_
    refine (select_decides hdata).mono fun f _ hf => ?_
    subst hf
    exact hfound.choose
  · rw [hfound.sections]
    constructor
    · rintro ⟨hnamed, hin, hkind, hflags, halign, -, hplace, hpairs, hchosen⟩
      simp only [not_or, not_not] at hplace hflags
      refine ⟨⟨hnamed, hplace.1, hin, by omega, hplace.2.2, by omega, hflags.1, hflags.2, ?_⟩, hchosen, ?_⟩
      · intro hne
        by_contra hnot
        exact halign ⟨hne, by tauto⟩
      · intro j h1 hj
        have := hpairs (sectionOf c j) (mem_before.2 ⟨j, h1, hj, rfl⟩)
        exact ⟨this.1, this.2⟩
    · rintro ⟨hown, hchosen, hpairs⟩
      refine ⟨hown.named, hown.inside, ?_, ?_, ?_, trivial, ?_, ?_, hchosen⟩
      · have := hown.kind
        omega
      · simp [hown.flags, hown.address]
      · rintro ⟨hne, hbad⟩
        have := hown.aligned hne
        tauto
      · have := hown.behind
        simp [hown.nonempty, hown.apart]
        omega
      · intro p hp
        obtain ⟨j, h1, hj, rfl⟩ := mem_before.1 hp
        exact ⟨(hpairs j h1 hj).names, (hpairs j h1 hj).data⟩

end Firmware
end NvidiaGsp
