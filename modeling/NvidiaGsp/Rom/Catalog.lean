import NvidiaGsp.Rom.FwsecSpec

/-!
# Rom.Catalog

The whole catalog: `parse` never traps, and what it returns is in order. The entries and the table
share no byte, and a fuse version finds its signature by counting the set bits below it.
-/

namespace NvidiaGsp
namespace Fwsec

open Parse

variable {rom : Slice} {entry : Entry}

/-! ## Entries against each other -/

structure Apart (p e : Entry) : Prop where
  descriptors : p.descriptor.Disjoint e.descriptor
  images : p.image.Disjoint e.image
  imageDescriptor : p.image.Disjoint e.descriptor
  descriptorImage : p.descriptor.Disjoint e.image

structure CatalogSound (rom : Slice) (c : Catalog) : Prop where
  table : c.table.Inside rom.len
  entries : ∀ e ∈ c.entries, EntrySound rom e
  tableApart : ∀ e ∈ c.entries, c.table.Disjoint e.descriptor ∧ c.table.Disjoint e.image
  apart : c.entries.Pairwise Apart
  count : c.entries.length ≤ maxEntries

theorem admit_safe (hrom : Small rom) (he : EntrySound rom entry) (before : List Entry)
    (hbefore : ∀ p ∈ before, EntrySound rom p) :
    Safe (admitEntry entry before) fun _ => ∀ p ∈ before, Apart p entry := by
  induction before with
  | nil => exact Safe.pure (by simp)
  | cons p rest ih =>
    have hp := (hbefore p (by simp)).inside
    have hrest := ih fun q hq => hbefore q (by simp [hq])
    obtain ⟨hdescriptor, himage, -⟩ := he.inside
    unfold admitEntry
    refine Safe.reject_bind fun _ => (disjoint_safe hrom hp.1 hdescriptor).seq fun _ hdd => ?_
    refine (disjoint_safe hrom hp.2.1 hdescriptor).seq fun _ hid => ?_
    refine (disjoint_safe hrom hp.1 himage).seq fun _ hdi => ?_
    refine (disjoint_safe hrom hp.2.1 himage).seq fun _ hii => hrest.mono fun _ h => ?_
    rw [List.forall_mem_cons]
    exact ⟨⟨hdd, hii, hid, hdi⟩, h⟩

/-- The place in the table does not matter for the ranges. -/
theorem EntrySound.placed (h : EntrySound rom entry) (index application target : Nat) : EntrySound rom
    { entry with tableIndex := index, application := application, target := target } :=
  ⟨⟨h.inside, h.within, h.apart, h.version, h.interface, h.signed⟩, h.parts, h.slot⟩

theorem tableEntry_safe (hrom : Small rom) {result : Catalog} (h : CatalogSound rom result)
    {bias tableOffset size stride index : Nat} (hb : bias < 2 ^ 32) (ht : tableOffset < 2 ^ 33)
    (hs : size ≤ 64) (hst : stride ≤ 32) (hi : index < 64) :
    Safe (tableEntry rom bias tableOffset size stride result index) (CatalogSound rom) := by
  have hstep : stride * index ≤ 32 * 64 := Nat.mul_le_mul hst (Nat.le_of_lt hi)
  unfold tableEntry
  refine Safe.fits_bind (by omega) (Safe.seq span_safe fun record hrecord => ?_)
  obtain ⟨rfl, -⟩ := hrecord
  refine Safe.byteAt_bind (by simp) ?_
  split
  · exact Safe.pure h
  · refine Safe.reject_bind fun hfull => Safe.u32At_bind (by simp) (Safe.reject_bind fun _ => ?_)
    have hpointer := (rom.sub (tableOffset + size + stride * index) 6).u32_lt 2
    refine Safe.fits_bind (by omega) ((descriptor_safe hrom).seq fun e he => ?_)
    refine Safe.cast_bind (by omega) (Safe.byteAt_bind (by simp) ?_)
    have hplaced := he.placed index ((rom.sub (tableOffset + size + stride * index) 6).get 0)
      ((rom.sub (tableOffset + size + stride * index) 6).get 1)
    refine (disjoint_safe hrom h.table hplaced.inside.1).seq fun _ htd => ?_
    refine (disjoint_safe hrom h.table hplaced.inside.2.1).seq fun _ hti => ?_
    have hroom : result.entries.length < maxEntries := by
      have hcount := h.count
      omega
    refine (admit_safe hrom hplaced _ h.entries).seq fun _ happart => Safe.checked_bind hroom ?_
    refine Safe.fits_bind (by unfold maxEntries at hroom; omega) (Safe.pure ?_)
    refine ⟨h.table, ?_, ?_, ?_, ?_⟩
    · simp only [List.mem_append, List.mem_singleton]
      rintro e' (he' | rfl)
      · exact h.entries e' he'
      · exact hplaced
    · simp only [List.mem_append, List.mem_singleton]
      rintro e' (he' | rfl)
      · exact h.tableApart e' he'
      · exact ⟨htd, hti⟩
    · rw [List.pairwise_append]
      refine ⟨h.apart, List.pairwise_singleton .., fun p hp e' he' => ?_⟩
      rw [List.mem_singleton.mp he']
      exact happart p hp
    · rw [List.length_append, List.length_singleton]
      exact hroom

theorem parse_safe (bytes : Slice) (board : Board) : Safe (parse bytes board)
    fun c => board.romBytes.toNat ≤ bytes.len ∧ CatalogSound (bytes.sub 0 board.romBytes.toNat) c := by
  unfold parse
  refine Safe.reject_bind fun hlen => Safe.seq span_safe fun rom hr => ?_
  obtain ⟨rfl, hinside⟩ := hr
  have hrom : Small (bytes.sub 0 board.romBytes.toNat) := by
    unfold Small
    simp only [Slice.sub_len]
    omega
  have hsmall := hrom
  unfold Small maxRomBytes at hsmall
  refine Safe.need_bind fun token _ => Safe.reject_bind fun _ => Safe.reject_bind fun htoken => ?_
  refine Safe.seq span_safe fun data hdata => Safe.need_bind fun bias _ => ?_
  obtain ⟨rfl, -⟩ := hdata
  refine Safe.u32At_bind (by simp only [Slice.sub_len]; omega) (Safe.reject_bind fun _ => ?_)
  have hbias := bias.isLt
  generalize hp : Slice.u32 _ 0 = pointer at *
  have hpointer : pointer < 2 ^ 32 := hp ▸ Slice.u32_lt _ _
  refine Safe.fits_bind (by omega) (Safe.seq span_safe fun header hheader => ?_)
  obtain ⟨rfl, -⟩ := hheader
  refine Safe.byteAt_bind (by simp) (Safe.reject_bind fun _ => Safe.byteAt_bind (by simp)
    (Safe.byteAt_bind (by simp) (Safe.byteAt_bind (by simp) (Safe.reject_bind fun hlimits =>
    Safe.reject_bind fun _ => ?_))))
  generalize Slice.get _ 1 = size at *
  generalize Slice.get _ 2 = stride at *
  generalize Slice.get _ 3 = count at *
  have htotal : stride * count ≤ 32 * 64 := Nat.mul_le_mul (by omega) (by omega)
  refine Safe.fits_bind (by omega) ((range_safe hrom).seq fun table htable => ?_)
  refine Safe.byteAt_bind (by simp) (Safe.byteAt_bind (by simp) ?_)
  refine (Safe.foldlM (P := fun _ c => CatalogSound (bytes.sub 0 board.romBytes.toNat) c) ?_
    fun k hk c hc => ?_).seq fun c hc => Safe.reject_bind fun _ => Safe.pure ⟨by omega, hc⟩
  · exact ⟨htable.2, by simp, by simp, List.Pairwise.nil, Nat.zero_le _⟩
  · rw [List.length_range] at hk
    rw [List.getElem_range]
    exact tableEntry_safe hrom hc hbias (by omega) (by omega) (by omega) (by omega)

/-! ## Fuses -/

/-- How many signatures come before that of a fuse version. -/
def before (versions fuse : Nat) : Nat := (List.range fuse).countP versions.testBit

theorem popCount_below {versions fuse : Nat} (h : fuse ≤ 16) :
    popCount (versions &&& (2 ^ fuse - 1)) = before versions fuse := by
  obtain ⟨rest, hrest⟩ : ∃ rest, 16 = fuse + rest := ⟨16 - fuse, by omega⟩
  unfold popCount before
  rw [hrest, List.range_add, List.countP_append]
  have hlow : (List.range fuse).countP (versions &&& (2 ^ fuse - 1)).testBit =
      (List.range fuse).countP versions.testBit := by
    refine List.countP_congr fun i hi => ?_
    have := List.mem_range.mp hi
    simp [this]
  have hhigh : ((List.range rest).map (fuse + ·)).countP (versions &&& (2 ^ fuse - 1)).testBit = 0 := by
    rw [List.countP_eq_zero]
    intro i hi
    obtain ⟨j, -, rfl⟩ := List.mem_map.mp hi
    simp
  rw [hlow, hhigh, Nat.add_zero]

theorem before_lt {versions fuse : Nat} (h : fuse < 16) (hbit : versions.testBit fuse = true) :
    before versions fuse < popCount versions := by
  obtain ⟨rest, hrest⟩ : ∃ rest, 16 = fuse + 1 + rest := ⟨15 - fuse, by omega⟩
  unfold popCount before
  rw [hrest, List.range_add, List.countP_append, List.range_succ, List.countP_append]
  simp only [List.countP_singleton, hbit, if_true]
  omega

/-- The signature of a fuse version is the one behind those of the set bits below it. -/
theorem signatureForFuse_eq {rom : Slice} (hrom : Small rom) (h : EntrySound rom entry)
    (hv : entry.descriptorVersion = 3) (fuse : Nat) : signatureForFuse entry fuse =
      if fuse < 16 ∧ entry.signatureVersions.testBit fuse = true then
        .ok ⟨entry.signatures.offset + before entry.signatureVersions fuse * signatureBytes, signatureBytes⟩
      else .error (.error .SignatureVersion) := by
  obtain ⟨hbytes, hcount, -⟩ := h.signed hv
  obtain ⟨-, -, -, -, hinside, -⟩ := h.inside
  unfold Range.Inside at hinside
  unfold Small maxRomBytes at hrom
  unfold signatureForFuse
  rw [reject_of_not (not_not.mpr hv)]
  by_cases hf : fuse < 16
  · have hmask : 1 <<< fuse = 2 ^ fuse := Nat.one_shiftLeft fuse
    have hpow : 2 ^ fuse < 2 ^ 16 := Nat.pow_lt_pow_right (by omega) hf
    have hone : 1 ≤ 2 ^ fuse := Nat.one_le_two_pow
    rw [reject_of_not (by omega), cast_of (by omega), fits_of (by rwa [hmask]), hmask, minus_of hone,
      Nat.and_two_pow, popCount_below (by omega)]
    cases hbit : entry.signatureVersions.testBit fuse with
    | false =>
      rw [reject_of (by simp), if_neg (by simp)]
    | true =>
      have hlt := before_lt hf hbit
      generalize hk : before entry.signatureVersions fuse = k at *
      have hmul : (k + 1) * signatureBytes ≤ entry.signatures.bytes := by
        rw [hbytes]
        exact Nat.mul_le_mul_right _ (by omega)
      have hstep : (k + 1) * signatureBytes = k * signatureBytes + signatureBytes := Nat.succ_mul ..
      have hle : k ≤ k * signatureBytes := Nat.le_mul_of_pos_right _ (by decide)
      rw [reject_of_not (by simp), fits_of (by omega), fits_of (by omega), reject_of_not (by omega),
        fits_of (by omega), reject_of_not (by omega), cast_of (by omega), if_pos ⟨hf, rfl⟩]
      rfl
  · rw [reject_of (by omega), if_neg (by omega)]

/-! ## The catalog -/

theorem fwsec_catalog (bytes : Slice) (board : Board) :
    (∀ t, parse bytes board ≠ .error (.trap t)) ∧
    ∀ catalog, parse bytes board = .ok catalog → board.romBytes.toNat ≤ bytes.len ∧
      CatalogSound (bytes.sub 0 board.romBytes.toNat) catalog ∧
      ∀ e ∈ catalog.entries, e.descriptorVersion = 3 → ∀ fuse, signatureForFuse e fuse =
        if fuse < 16 ∧ e.signatureVersions.testBit fuse = true then
          .ok ⟨e.signatures.offset + before e.signatureVersions fuse * signatureBytes, signatureBytes⟩
        else .error (.error .SignatureVersion) := by
  refine ⟨(parse_safe bytes board).no_trap, fun catalog hparse => ?_⟩
  obtain ⟨hin, hc⟩ := (parse_safe bytes board).ok hparse
  refine ⟨hin, hc, fun e he hv fuse => ?_⟩
  have hlen : bytes.len ≤ maxRomBytes := by
    unfold parse at hparse
    rw [bind_ok] at hparse
    obtain ⟨_, hreject, -⟩ := hparse
    rw [reject_ok] at hreject
    omega
  have hrom : Small (bytes.sub 0 board.romBytes.toNat) := Nat.le_trans hin hlen
  exact signatureForFuse_eq hrom (hc.entries e he) hv fuse

end Fwsec
end NvidiaGsp
