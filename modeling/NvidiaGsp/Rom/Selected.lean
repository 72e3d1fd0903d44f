import NvidiaGsp.Rom.VbiosSpec

/-!
# Rom.Selected

The whole reader. One statement can trap: the place of the PCI length is a sum on 16 bits, so a
selected image that keeps its PCI data in the last ten bytes below 64 KB overflows it. Every other ROM
is read in order.
-/

namespace NvidiaGsp
namespace Vbios

open Parse

variable {rom image : Slice} {device : Option Nat} {ranges : Ranges}

/-! ## DCB -/

theorem communicationsOf_safe {offset : Nat} {r : Result} (hf : Fresh r) {ccb : Option SmallTable}
    (h : ∀ t, ccb = some t → Small t ∧ offset + 6 ≤ image.len) (hsmall : image.len ≤ maxRomBytes) :
    Safe (communicationsOf image offset r ccb) (fun r' => Topology ccb none r' ∧ r'.ports = [] ∧
      r'.imageCount = r.imageCount) Fine := by
  unfold maxRomBytes at hsmall
  cases ccb with
  | none =>
    refine Safe.pure ⟨⟨by simp, by simp, ?_, ?_⟩, hf.ports, rfl⟩
    · simp [hf.primary]
    · simp [hf.secondary]
  | some t =>
    obtain ⟨ht, hin⟩ := h t rfl
    refine Safe.reject_bind_of (by decide) fun _ => Safe.fits_bind (by omega) (Safe.byteAt_bind (by omega)
      (Safe.fits_bind (by omega) (Safe.byteAt_bind (by omega) ?_)))
    refine (entriesOf_safe ht fun _ _ => communication_safe).seq fun found hfound => Safe.pure ?_
    refine ⟨⟨fun t' ht' => ?_, by simp, fun i hi => ?_, fun i hi => ?_⟩, hf.ports, rfl⟩
    · rw [← Option.some.inj ht']
      exact hfound
    · dsimp only at hi ⊢
      split at hi
      · have := Option.some.inj hi
        omega
      · cases hi
    · dsimp only at hi ⊢
      split at hi
      · have := Option.some.inj hi
        omega
      · cases hi

theorem connectorsOf_safe {r : Result} {ccb connectors : Option SmallTable} (h : Topology ccb none r)
    (hp : r.ports = []) (hc : ∀ t, connectors = some t → Small t) :
    Safe (connectorsOf r connectors) (fun r' => Topology ccb connectors r' ∧ r'.ports = [] ∧
      r'.imageCount = r.imageCount) Fine := by
  cases connectors with
  | none => exact Safe.pure ⟨h, hp, rfl⟩
  | some t =>
    refine Safe.reject_bind_of (by decide) fun _ => ?_
    refine (entriesOf_safe (hc t rfl) fun _ _ => connector_safe).seq fun found hfound => Safe.pure ?_
    refine ⟨⟨h.communications, fun t' ht' => ?_, h.primary, h.secondary⟩, hp, rfl⟩
    rw [← Option.some.inj ht']
    exact hfound

theorem wire_safe {r : Result} {ccb connectors : Option SmallTable} (h : Topology ccb connectors r)
    {gpio : Gpio.Catalog} (hg : Gpio.Copied gpio) {t : Xpio.Table} :
    Safe (wire r gpio t) (fun _ => True) Fine := by
  unfold wire
  refine Safe.seq (Q := fun _ => True) ?_ fun bus _ => ?_
  · unfold busOf
    split
    · rename_i index hindex
      refine (elementAt_safe ?_).mono fun _ _ => trivial
      split at hindex
      · exact h.primary index hindex
      · exact h.secondary index hindex
    · exact Safe.pure trivial
  · split
    · exact (Gpio.input_safe hg).seq fun _ _ => Safe.pure trivial
    · exact Safe.pure trivial

theorem externalOf_safe {r : Result} {ccb connectors : Option SmallTable} (h : Topology ccb connectors r)
    {gpio : Gpio.Catalog} (hg : Gpio.Copied gpio) (hb : Booked image 10 ranges)
    (hsmall : image.len ≤ maxRomBytes) (place : Option Nat) :
    Safe (externalOf image gpio (ranges, r) place) (fun s => Booked image maxRanges s.1 ∧
      Topology ccb connectors s.2 ∧ s.2.ports = r.ports ∧ s.2.imageCount = r.imageCount) Fine := by
  cases place with
  | none => exact Safe.pure ⟨hb.mono (by decide), h, rfl, rfl⟩
  | some place =>
    refine (Xpio.parse_safe hsmall).seq fun catalog hc => ?_
    refine (add_safe hb (by decide) hc.master hsmall).seq fun booked hbooked => ?_
    refine (Safe.foldlM (P := fun k s => Booked image (11 + k) s.2) hbooked fun k hk s hs => ?_).seq
      fun found hfound => Safe.pure ⟨hfound.mono ?_, ?_, rfl, rfl⟩
    · have htables := hc.tables
      unfold external
      refine (add_safe hs (by unfold maxRanges; omega) (hc.inside _ (List.getElem_mem hk)) hsmall).seq
        fun booked hbooked => (wire_safe h hg).seq fun _ _ => Safe.pure hbooked
    · have htables := hc.tables
      unfold maxRanges
      omega
    · exact ⟨h.communications, h.connectors, h.primary, h.secondary⟩

theorem gpioOf_safe {r : Result} {ccb connectors : Option SmallTable} (h : Topology ccb connectors r)
    (hb : Booked image 9 ranges) (hsmall : image.len ≤ maxRomBytes) (offset : Nat) :
    Safe (gpioOf image offset (ranges, r)) (fun s => Booked image maxRanges s.1 ∧
      Topology ccb connectors s.2 ∧ s.2.ports = r.ports ∧ s.2.imageCount = r.imageCount) Fine := by
  unfold gpioOf
  split
  · exact Safe.pure ⟨hb.mono (by decide), h, rfl, rfl⟩
  · refine Gpio.parse_safe.seq fun gpio hg => ?_
    refine (add_safe hb (by decide) hg.2 hsmall).seq fun booked hbooked => ?_
    exact externalOf_safe (r := { r with gpioTable := some gpio })
      ⟨h.communications, h.connectors, h.primary, h.secondary⟩ hg.1 hbooked hsmall _

theorem parseDcb_safe {r : Result} (hb : Booked image 6 ranges) (hf : Fresh r)
    (hsmall : image.len ≤ maxRomBytes) (hin : 0x38 ≤ image.len) :
    Safe (parseDcb image ranges r) (fun s => Booked image maxRanges s.1 ∧
      (∀ p ∈ s.2.ports, PortOk s.2 p) ∧ s.2.imageCount = r.imageCount) Fine := by
  unfold parseDcb
  refine Safe.u16At_bind (by omega) (Safe.reject_bind_of (by decide) fun _ => ?_)
  have hoffset := image.u16_lt 0x36
  refine Safe.seq span_safe fun header hheader => ?_
  obtain ⟨rfl, -⟩ := hheader
  refine Safe.byteAt_bind (by simp) (Safe.reject_bind_of (by decide) fun _ => Safe.u32At_bind (by simp)
    (Safe.reject_bind_of (by decide) fun _ => Safe.byteAt_bind (by simp) (Safe.byteAt_bind (by simp)
    (Safe.byteAt_bind (by simp) (Safe.reject_bind_of (by decide) fun hlimits => ?_)))))
  generalize Slice.get _ 1 = size at *
  generalize Slice.get _ 2 = count at *
  generalize Slice.get _ 3 = stride at *
  obtain rfl : stride = 8 := by omega
  unfold maxPorts at hlimits
  refine Safe.fits_bind (by omega) (Safe.seq span_safe fun table htable => ?_)
  obtain ⟨rfl, hinside⟩ := htable
  refine (add_safe hb (by decide) hinside hsmall).seq fun booked hbooked => Safe.cast_bind (by omega) ?_
  refine Safe.u16At_bind (by simp) (Safe.u16At_bind (by simp) ?_)
  refine (optionalTable_safe hbooked (by decide) hsmall).seq fun ccb hccb => ?_
  refine (optionalTable_safe hccb.1 (by decide) hsmall).seq fun connectors hconn => ?_
  have hfresh : ∀ a b, Fresh { r with dcbOffset := a, dcbVersion := b } :=
    fun _ _ => ⟨hf.ports, hf.primary, hf.secondary⟩
  refine (communicationsOf_safe (hfresh _ _) hccb.2 hsmall).seq fun r₁ hr₁ => ?_
  refine (connectorsOf_safe hr₁.1 hr₁.2.1 fun t ht => (hconn.2 t ht).1).seq fun r₂ hr₂ => ?_
  refine Safe.u16At_bind (by simp) ((gpioOf_safe hr₂.1 hconn.1 hsmall _).seq fun s hs => ?_)
  obtain ⟨hranges, htop, hports, himages⟩ := hs
  refine (ports_safe _ htop ?_ ?_ ?_).seq fun r₃ hr₃ => Safe.pure ⟨hranges, hr₃.1, ?_⟩
  · rw [hports, hr₂.2.1]
    simp
  · rw [hports, hr₂.2.1, List.length_range]
    unfold maxPorts
    simp only [List.length_nil]
    omega
  · intro i hi
    have := List.mem_range.mp hi
    simp only [Slice.sub_len]
    omega
  · rw [hr₃.2, himages, hr₂.2.2, hr₁.2.2]

/-! ## The whole -/

/-- The sum fits 16 bits. -/
def Low (image : Slice) : Prop := image.u16 0x18 + 0x0a < 2 ^ 16

theorem headerRanges_safe {r : Result} (h : Chosen rom image r) (hsmall : image.len ≤ maxRomBytes)
    (hlow : Low image) : Safe (headerRanges image r)
      (fun ranges => Booked image 4 ranges ∧ 0x38 ≤ image.len) Fine := by
  have hpcir := h.pcir
  have hpci := h.pci
  unfold headerRanges
  refine Safe.seq span_safe fun header hheader => ?_
  obtain ⟨rfl, hin⟩ := hheader
  have hnone : Booked image 0 [] := ⟨by simp, List.Pairwise.nil, Nat.le_refl _⟩
  refine (add_safe hnone (by decide) (by omega) hsmall).seq fun one hone => ?_
  refine (add_safe hone (by decide) (by omega) hsmall).seq fun two htwo => ?_
  refine Safe.u16At_bind (by simp) ?_
  have hshown : (image.sub 0 0x38).u16 0x18 = image.u16 0x18 := by simp
  rw [hshown]
  refine Safe.fits_bind hlow (Safe.u16At_bind (by omega) ?_)
  refine (add_safe htwo (by decide) hpci.2 hsmall).seq fun three hthree => ?_
  split
  · rename_i hne
    exact (add_safe hthree (by decide) (h.extension hne) hsmall).mono fun _ hfour => ⟨hfour, by omega⟩
  · exact Safe.pure ⟨hthree.mono (by decide), by omega⟩

/-- A length of PCI data behind 64 KB traps. -/
theorem headerRanges_traps {r : Result} (h : Chosen rom image r) (hhigh : ¬ Low image) : headerRanges image r = .error (.trap .overflow) := by
  have hpci := h.pci
  have hbig : 0x38 ≤ image.len := by
    unfold Low at hhigh
    omega
  have hspan : span image 0 0x38 = .ok (image.sub 0 0x38) := by
    unfold span
    rw [reject_of_not (by omega)]
    exact part_ok.2 ⟨by omega, rfl⟩
  have hone : Ranges.add [] 0 0x1a = .ok [⟨0, 0x1a⟩] := by decide
  have htwo : Ranges.add [⟨0, 0x1a⟩] 0x36 2 = .ok [⟨0, 0x1a⟩, ⟨0x36, 0x38⟩] := by decide
  have hread : (u16At (image.sub 0 0x38) 0x18 : Parse Error Nat) = .ok (image.u16 0x18) := by
    simp
  unfold headerRanges
  rw [hspan]
  simp only [bind, Except.bind, hone, htwo, hread, fits, checked]
  unfold Low at hhigh
  rw [if_neg hhigh]

theorem tables_safe {w : Walk} (hw : Walked rom w) (hsmall : rom.len ≤ maxRomBytes)
    (hlow : ∀ image, w.selected = some image → Low image) :
    Safe (tables rom w) (fun s => (∃ image, w.selected = some image ∧ Booked image maxRanges s.1) ∧
      (∀ p ∈ s.2.ports, PortOk s.2 p) ∧ s.2.imageCount = w.result.imageCount) Fine := by
  have hcursor := hw.cursor
  have hlen := hsmall
  unfold maxRomBytes at hlen
  unfold tables
  refine Safe.cast_bind (by omega) (Safe.need_bind_of (by decide) fun image himage => ?_)
  have hc := hw.selected image himage
  have hin := hc.inside
  have himageLen : image.len ≤ maxRomBytes := by omega
  have hf := hw.fresh
  have hchosen : ∀ a b, Chosen rom image { w.result with romBytes := a, expansionRomOffset := b } :=
    fun _ _ => ⟨hc.inside, hc.pcir, hc.pci, hc.extension⟩
  have hfresh : ∀ a b, Fresh { w.result with romBytes := a, expansionRomOffset := b } :=
    fun _ _ => ⟨hf.ports, hf.primary, hf.secondary⟩
  refine (headerRanges_safe (hchosen _ _) himageLen (hlow image himage)).seq fun ranges hranges =>
    Safe.part_bind (by omega) ?_
  refine (parseBit_safe hranges.1 himageLen (by simp only [Slice.sub_len]; omega) (by dsimp only; omega)
    (hfresh _ _)).seq fun bit hbit => ?_
  exact (parseDcb_safe hbit.1 hbit.2.1 himageLen hranges.2).mono fun s hs =>
    ⟨⟨image, himage, hs.1⟩, hs.2.1, by rw [hs.2.2, hbit.2.2]⟩

theorem tables_traps {w : Walk} (hw : Walked rom w) (hsmall : rom.len ≤ maxRomBytes)
    (himage : w.selected = some image) (hhigh : ¬ Low image) :
    tables rom w = .error (.trap .overflow) := by
  have hcursor := hw.cursor
  have hc := hw.selected image himage
  have hchosen : ∀ a b, Chosen rom image { w.result with romBytes := a, expansionRomOffset := b } :=
    fun _ _ => ⟨hc.inside, hc.pcir, hc.pci, hc.extension⟩
  unfold maxRomBytes at hsmall
  unfold tables
  rw [cast_of (by omega), himage]
  simp only [need, bind, Except.bind, headerRanges_traps (hchosen _ _) hhigh]

/-! ## Reading a ROM -/

/-- Where a walk begins. -/
def atStart (device : Option Nat) : Walk := { result := { validatedDevice := device } }

theorem atStart_walked : Walked rom (atStart device) :=
  ⟨Nat.zero_le _, by simp [atStart], rfl, rfl, rfl⟩

/-- The chain of images is in order and has this x86 image. -/
def Selects (rom : Slice) (device : Option Nat) (image : Slice) : Prop :=
  rom.len ≠ 0 ∧ ∃ w, walk rom device maxImages (atStart device) = .ok w ∧ w.selected = some image

/-- The x86 image, if there is one, keeps the length of its PCI data below 64 KB. -/
def LowSelected (rom : Slice) (device : Option Nat) : Prop := ∀ image, Selects rom device image → Low image

instance : Decidable (Low image) := inferInstanceAs (Decidable (_ < _))

instance : Decidable (LowSelected rom device) :=
  decidable_of_iff ((rom.len == 0 || match walk rom device maxImages (atStart device) with
    | .ok w => w.selected.all fun image => decide (Low image)
    | .error _ => true) = true) (by
      unfold LowSelected Selects
      cases hw : walk rom device maxImages (atStart device) with
      | error e => simp
      | ok w =>
        cases hs : w.selected <;> simp [hs]
        tauto)

/-- What the reader promises for a ROM. -/
structure Sound (rom : Slice) (device : Option Nat) : Prop where
  total : ∀ t, parse rom device ≠ .error (.trap t)
  room : parse rom device ≠ .error (.error .RangesLimit)
  images : (examined rom device maxImages (atStart device)).length ≤ maxImages ∧
    (examined rom device maxImages (atStart device)).Pairwise (· < ·)
  tables : ∀ ranges result, catalog rom device = .ok (ranges, result) →
    (∃ image, Selects rom device image ∧ Booked image maxRanges ranges) ∧
    (∀ p ∈ result.ports, PortOk result p) ∧ result.imageCount ≤ maxImages

theorem catalog_safe (hsmall : rom.len ≤ maxRomBytes) (hlow : LowSelected rom device) :
    Safe (catalog rom device) (fun s => (∃ image, Selects rom device image ∧ Booked image maxRanges s.1) ∧
      (∀ p ∈ s.2.ports, PortOk s.2 p) ∧ s.2.imageCount ≤ maxImages) Fine := by
  unfold catalog
  refine Safe.reject_bind_of (by decide) fun hlen => ?_
  have hwalk : Safe (walk rom device maxImages (atStart device)) (fun w => Walked rom w ∧
      w.result.imageCount ≤ (atStart device).result.imageCount + maxImages) Fine :=
    walk_safe hsmall maxImages atStart_walked
  cases hw : walk rom device maxImages (atStart device) with
  | error e =>
    rw [hw] at hwalk
    have hstop : walk rom device maxImages { result := { validatedDevice := device } } = .error e := hw
    rw [hstop]
    cases e with
    | error e => exact hwalk
    | trap t => exact hwalk.elim
  | ok w =>
    obtain ⟨hwalked, hcount⟩ := hwalk.ok hw
    have hgo : walk rom device maxImages { result := { validatedDevice := device } } = .ok w := hw
    rw [hgo]
    have hselects : ∀ image, w.selected = some image → Selects rom device image :=
      fun image hs => ⟨by omega, w, hw, hs⟩
    refine (tables_safe hwalked hsmall fun image hs => hlow image (hselects image hs)).mono fun s hs => ?_
    obtain ⟨⟨image, himage, hbooked⟩, hports, himages⟩ := hs
    refine ⟨⟨image, hselects image himage, hbooked⟩, hports, ?_⟩
    rw [himages]
    simpa [atStart] using hcount

/-- An x86 image with its PCI data at the given place. -/
def oneImage (len pcir low high checksum units : Nat) : Slice :=
  .written len [(0, [0x55, 0xaa, 1, checksum]), (0x18, [low, high]),
    (pcir, [0x50, 0x43, 0x49, 0x52, 0xde, 0x10]), (pcir + 0x0a, [0x18]), (pcir + 0x10, [units]),
    (pcir + 0x15, [0x80])]

end Vbios
end NvidiaGsp
