import NvidiaGsp.Rom.Vbios
import NvidiaGsp.Rom.TablesSpec

/-!
# Rom.ImagesSpec

The walk over the images of a ROM. One step reads one image and moves the cursor behind it; the selected
image holds its own PCI data and the extension behind it.
-/

namespace NvidiaGsp
namespace Vbios

open Parse

variable {rom image : Slice} {device : Option Nat}

/-- The x86 image, with what the header says of it. -/
structure Chosen (rom image : Slice) (r : Result) : Prop where
  inside : r.imageOffset + image.len ≤ rom.len
  pcir : 0x1c ≤ image.u16 0x18
  pci : image.u16 0x18 + 0x18 ≤ image.len ∧
    image.u16 0x18 + image.u16 (image.u16 0x18 + 0x0a) ≤ image.len
  extension : r.pciExtensionBytes ≠ 0 → r.pciExtensionOffset + r.pciExtensionBytes ≤ image.len

/-- The topology is not read yet. -/
structure Fresh (r : Result) : Prop where
  ports : r.ports = []
  primary : r.primaryCcb = none
  secondary : r.secondaryCcb = none

structure Walked (rom : Slice) (w : Walk) : Prop where
  cursor : w.cursor ≤ rom.len
  selected : ∀ image, w.selected = some image → Chosen rom image w.result
  fresh : Fresh w.result

theorem deviceListFrom_safe {start expected : Nat} (hs : start < 2 ^ 62)
    (indices : List Nat) (hi : ∀ i ∈ indices, i < 64) (found : Bool) :
    Safe (deviceListFrom image start expected indices found) (fun _ => True) Fine := by
  induction indices generalizing found with
  | nil => exact Safe.throw_of (by decide)
  | cons index rest ih =>
    have hindex := hi index (by simp)
    unfold deviceListFrom
    refine Safe.fits_bind (by omega) (Safe.seq span_safe fun place hplace => ?_)
    obtain ⟨rfl, -⟩ := hplace
    refine Safe.u16At_bind (by simp) ?_
    split
    · exact Safe.pure trivial
    · exact ih (fun i h => hi i (by simp [h])) _

theorem deviceListContains_safe {pcir revision expected : Nat} (hp : pcir < 65536)
    (hin : pcir + 0x18 ≤ image.len) :
    Safe (deviceListContains image pcir revision expected) (fun _ => True) Fine := by
  unfold deviceListContains
  split
  · exact Safe.pure trivial
  · refine Safe.fits_bind (by omega) (Safe.u16At_bind (by omega) ?_)
    have hoffset := image.u16_lt (pcir + 8)
    split
    · exact Safe.pure trivial
    · refine Safe.fits_bind (by omega) (deviceListFrom_safe (by omega) _ (fun i hi => ?_) _)
      exact List.mem_range.mp hi

theorem extension_safe {place extensionOffset imageBytes : Nat} {last : Bool} :
    Safe (extension rom place extensionOffset imageBytes last) (fun e =>
      (0 < imageBytes → 0 < e.imageBytes) ∧
      (e.extensionBytes ≠ 0 → extensionOffset + e.extensionBytes ≤ e.imageBytes)) Fine := by
  unfold extension
  refine Safe.seq span_safe fun first hfirst => ?_
  obtain ⟨rfl, -⟩ := hfirst
  refine Safe.u32At_bind (by simp) ?_
  split
  · exact Safe.pure ⟨id, by simp⟩
  · refine Safe.seq span_safe fun head hhead => ?_
    obtain ⟨rfl, -⟩ := hhead
    refine Safe.u16At_bind (by simp) (Safe.reject_bind_of (by decide) fun _ => Safe.u16At_bind (by simp)
      (Safe.reject_bind_of (by decide) fun hlength => Safe.seq span_safe fun whole hwhole =>
        Safe.u16At_bind (by simp) ?_))
    obtain ⟨rfl, -⟩ := hwhole
    have hunits := (rom.sub place 10).u16_lt 8
    refine Safe.fits_bind (by omega) (Safe.reject_bind_of (by decide) fun hsub => ?_)
    refine (byteIf_safe fun h => by simpa using h).seq fun flag _ => Safe.pure ⟨?_, ?_⟩
    · dsimp only
      omega
    · dsimp only
      omega

theorem envelope_safe {cursor extensionOffset imageBytes : Nat} {last : Bool} (hc : cursor < 2 ^ 61)
    (he : extensionOffset < 2 ^ 61) :
    Safe (envelope rom cursor extensionOffset imageBytes last) (fun e =>
      (0 < imageBytes → 0 < e.imageBytes) ∧
      (e.extensionBytes ≠ 0 → extensionOffset + e.extensionBytes ≤ e.imageBytes)) Fine := by
  unfold envelope
  split
  · exact Safe.fits_bind (by omega) extension_safe
  · exact Safe.pure ⟨id, by simp⟩

theorem identify_safe {pci : Slice} {pcir revision : Nat} {privateData : Bool} (hpci : 8 ≤ pci.len)
    (hp : pcir < 65536) (hin : pcir + 0x18 ≤ image.len) :
    Safe (identify image pci pcir revision privateData device) (fun _ => True) Fine := by
  unfold identify
  split
  · refine Safe.u16At_bind (by omega) ?_
    split
    · exact (deviceListContains_safe hp hin).seq fun listed _ =>
        Safe.mono (Safe.reject_of (by decide)) fun _ _ => trivial
    · exact Safe.pure trivial
  · exact Safe.pure trivial

/-- What an image leaves of the walk before it. -/
theorem classify_safe {head pci : Slice} {signature extensionOffset extensionBytes : Nat} {w : Walk}
    (hhead : head.len = 0x1a) (hpci : pci.len = 0x18) (himage : 8 ≤ image.len)
    (hw : Walked rom w) (hsmall : rom.len ≤ maxRomBytes) (hin : w.cursor + image.len ≤ rom.len)
    (he : extensionOffset < 2 ^ 32) (hchosen : ∀ r : Result, r.imageOffset = w.cursor →
      (r.pciExtensionBytes ≠ 0 → r.pciExtensionOffset = extensionOffset ∧
        r.pciExtensionBytes = extensionBytes) → Chosen rom image r) :
    Safe (classify head pci image signature extensionOffset extensionBytes w)
      (fun w' => Walked rom w' ∧ w'.cursor = w.cursor ∧
        w'.result.imageCount = w.result.imageCount) Fine := by
  have hfresh := hw.fresh
  unfold maxRomBytes at hsmall
  unfold classify
  refine Safe.byteAt_bind (by omega) ?_
  split
  · refine Safe.reject_bind_of (by decide) fun _ => Safe.reject_bind_of (by decide) fun _ =>
      Safe.byteAt_bind (by omega) ?_
    have hunits := head.get_lt 2
    refine Safe.fits_bind (by omega) (Safe.reject_bind_of (by decide) fun _ =>
      Safe.seq span_safe fun start hstart => ?_)
    refine Safe.reject_bind_of (by decide) fun _ => Safe.cast_bind (by omega) (Safe.cast_bind (by omega)
      (Safe.cast_bind (by omega) (Safe.cast_bind ?_ (Safe.u16At_bind (by omega) (Safe.pure ?_)))))
    · split <;> omega
    · refine ⟨⟨hw.cursor, fun chosen hs => ?_, hfresh.ports, hfresh.primary, hfresh.secondary⟩, rfl, rfl⟩
      obtain rfl := Option.some.inj hs
      refine hchosen _ rfl fun hne => ⟨?_, rfl⟩
      dsimp only at hne ⊢
      rw [if_pos hne]
  · split
    · refine Safe.reject_bind_of (by decide) fun _ =>
        Safe.u32At_bind (by omega) (Safe.reject_bind_of (by decide) fun _ =>
        Safe.u16At_bind (by omega) ?_)
      have hunits := image.u16_lt 2
      refine Safe.fits_bind (by omega) (Safe.reject_bind_of (by decide) fun _ => Safe.seq span_safe fun _ _ =>
        Safe.pure ?_)
      exact ⟨hw, rfl, rfl⟩
    · split
      · refine Safe.cast_bind (by have := hw.cursor; omega) (Safe.pure
          ⟨⟨hw.cursor, ?_, hfresh.ports, hfresh.primary, hfresh.secondary⟩, rfl, rfl⟩)
        intro chosen hs
        have h := hw.selected chosen hs
        exact ⟨h.inside, h.pcir, h.pci, h.extension⟩
      · exact Safe.throw_of (by decide)

/-- The selected image is read at the cursor, where its header lies. -/
theorem imageStep_safe {w : Walk} (hw : Walked rom w) (hsmall : rom.len ≤ maxRomBytes) :
    Safe (imageStep rom device w) (fun s => Walked rom s.1 ∧ w.cursor < s.1.cursor ∧
      s.1.result.imageCount = w.result.imageCount + 1) Fine := by
  have hcursor := hw.cursor
  have hlen := hsmall
  unfold maxRomBytes at hlen
  unfold imageStep
  refine Safe.seq span_safe fun head hhead => ?_
  obtain ⟨rfl, -⟩ := hhead
  refine Safe.u16At_bind (by simp) (Safe.reject_bind_of (by decide) fun _ => Safe.u16At_bind (by simp)
    (Safe.reject_bind_of (by decide) fun hpcir => ?_))
  have hpcirLt := (rom.sub w.cursor 0x1a).u16_lt 0x18
  have hpcirEq : (rom.sub w.cursor 0x1a).u16 0x18 = rom.u16 (w.cursor + 0x18) := by simp
  generalize hp : (rom.sub w.cursor 0x1a).u16 0x18 = pcir at *
  refine Safe.fits_bind (by omega) (Safe.seq span_safe fun pci hpci => ?_)
  obtain ⟨rfl, -⟩ := hpci
  refine Safe.part_bind (by simp) (Safe.reject_bind_of (by decide) fun _ => Safe.byteAt_bind (by simp)
    (Safe.reject_bind_of (by decide) fun hrevision => Safe.u16At_bind (by simp) ?_))
  have hbytesLt := (rom.sub (w.cursor + pcir) 0x18).u16_lt 0x0a
  have hbytesEq : (rom.sub (w.cursor + pcir) 0x18).u16 0x0a = rom.u16 (w.cursor + pcir + 0x0a) := by simp
  generalize (rom.sub (w.cursor + pcir) 0x18).u16 0x0a = pciBytes at *
  refine Safe.reject_bind_of (by decide) fun hmin => Safe.u16At_bind (by simp) ?_
  have hmin' : 0x18 ≤ pciBytes := by
    split at hmin <;> omega
  have hunits := (rom.sub (w.cursor + pcir) 0x18).u16_lt 0x10
  refine Safe.fits_bind (by omega) (Safe.reject_bind_of (by decide) fun himage => Safe.byteAt_bind (by simp)
    (Safe.fits_bind (by omega) ?_))
  refine (envelope_safe (by omega) (by omega)).seq fun found hfound => ?_
  refine Safe.seq span_safe fun image himg => Safe.seq span_safe fun _ hdata => ?_
  obtain ⟨rfl, hinside⟩ := himg
  obtain ⟨-, hdata⟩ := hdata
  simp only [Slice.sub_len] at hdata
  have hpositive : 0 < found.imageBytes := hfound.1 (by omega)
  refine Safe.u16At_bind (by simp) (Safe.reject_bind_of (by decide) fun _ => Safe.byteAt_bind (by simp) ?_)
  refine (identify_safe (by simp) (by omega) (by simp only [Slice.sub_len]; omega)).seq fun _ _ => ?_
  refine (classify_safe rfl rfl (by simp only [Slice.sub_len]; omega) hw hsmall
    (by simpa using hinside) (by omega) fun r hoffset hextension => ?_).seq fun w' hw' =>
    Safe.fits_bind (by simp only [Slice.sub_len]; omega) (Safe.pure ?_)
  · have hshown : (rom.sub w.cursor found.imageBytes).u16 0x18 = pcir := by simp [hpcirEq]
    refine ⟨by simp only [Slice.sub_len]; omega, by rw [hshown]; omega, ?_, fun hne => ?_⟩
    · rw [hshown]
      have hshownBytes : (rom.sub w.cursor found.imageBytes).u16 (pcir + 0x0a) = pciBytes := by
        simp [hbytesEq, Nat.add_assoc]
      rw [hshownBytes]
      simp only [Slice.sub_len]
      omega
    · obtain ⟨hat, hbytes⟩ := hextension hne
      rw [hat, hbytes]
      exact hfound.2 (hbytes ▸ hne)
  · obtain ⟨hwalked, hsame, hcount⟩ := hw'
    refine ⟨⟨by simpa using hinside, fun image hs => ?_, hwalked.fresh.ports, hwalked.fresh.primary,
      hwalked.fresh.secondary⟩, ?_, by rw [← hcount]⟩
    · have h := hwalked.selected image hs
      exact ⟨h.inside, h.pcir, h.pci, h.extension⟩
    · dsimp only [Slice.sub_len]
      omega

theorem walk_safe (hsmall : rom.len ≤ maxRomBytes) (n : Nat) {w : Walk} (hw : Walked rom w) :
    Safe (walk rom device n w) (fun w' => Walked rom w' ∧
      w'.result.imageCount ≤ w.result.imageCount + n) Fine := by
  induction n generalizing w with
  | zero => exact Safe.throw_of (by decide)
  | succ n ih =>
    unfold walk
    refine (imageStep_safe hw hsmall).seq fun step hstep => ?_
    obtain ⟨hwalked, -, hcount⟩ := hstep
    split
    · exact Safe.pure ⟨hwalked, by omega⟩
    · exact (ih hwalked).mono fun w' h => ⟨h.1, by omega⟩

/-- Where the images begin that a walk looks at. -/
def examined (rom : Slice) (device : Option Nat) : Nat → Walk → List Nat
  | 0, _ => []
  | n + 1, w => w.cursor :: match imageStep rom device w with
    | .ok (w', false) => examined rom device n w'
    | _ => []

/-- A walk looks at no more images than it may, each behind the last. -/
theorem examined_ascends (hsmall : rom.len ≤ maxRomBytes) (n : Nat) {w : Walk} (hw : Walked rom w) :
    (examined rom device n w).length ≤ n ∧ (examined rom device n w).Pairwise (· < ·) ∧
      ∀ c ∈ examined rom device n w, w.cursor ≤ c := by
  induction n generalizing w with
  | zero => simp [examined]
  | succ n ih =>
    unfold examined
    split
    · rename_i w' hstep
      obtain ⟨hwalked, hlt, -⟩ := (imageStep_safe hw hsmall).ok hstep
      obtain ⟨hlength, hpairs, hall⟩ := ih hwalked
      refine ⟨by simpa using hlength, ?_, ?_⟩
      · refine List.pairwise_cons.mpr ⟨fun c hc => ?_, hpairs⟩
        exact Nat.lt_of_lt_of_le hlt (hall c hc)
      · rw [List.forall_mem_cons]
        exact ⟨Nat.le_refl _, fun c hc => Nat.le_of_lt (Nat.lt_of_lt_of_le hlt (hall c hc))⟩
    · exact ⟨by simp, by simp, by simp⟩

end Vbios
end NvidiaGsp
