import NvidiaGsp.Display.TableSpec

/-!
# Display.TableCopy

The copy engine's parts: what one part writes, and that the device shows exactly the live entries
after each of them. A part of a change touches the changed slot or bucket; the first upload is the
whole image, before anything is published.
-/

namespace NvidiaGsp
namespace DisplayTable

open Call Bytes Memory
open DisplayContext (slots)

variable {w : World} {t : Table} {d : Descriptor} {i : Fin capacity} {b : Fin slots} {c : Change}
  {r : Range}

section

variable {staged device : Memory} {handle context : Word} {j : Nat}

theorem copy_outside (h : j < r.offset ∨ r.offset + r.bytes ≤ j) :
    copy staged device r j = device j := poke_outside (by simpa using h)

theorem copy_inside (h₁ : r.offset ≤ j) (h₂ : j < r.offset + r.bytes) :
    copy staged device r j = staged j := by
  have hj : j = r.offset + (j - r.offset) := by omega
  rw [copy, hj, poke_inside (by rw [length_peek]; omega), getD_peek (by omega)]

theorem Bucket.copied (h : Bucket staged b handle context) (h₁ : r.offset ≤ b * 8)
    (h₂ : b * 8 + 8 ≤ r.offset + r.bytes) : Bucket (copy staged device r) b handle context :=
  h.congr fun _ _ _ => copy_inside (by omega) (by omega)

theorem Bucket.kept (h : Bucket device b handle context)
    (hd : b * 8 + 8 ≤ r.offset ∨ r.offset + r.bytes ≤ b * 8) :
    Bucket (copy staged device r) b handle context :=
  h.congr fun _ _ _ => copy_outside (by omega)

theorem Slot.copied (h : Slot staged i d) (h₁ : r.offset ≤ slotOffset i)
    (h₂ : slotOffset i + descriptorBytes ≤ r.offset + r.bytes) : Slot (copy staged device r) i d :=
  h.congr fun _ _ _ => copy_inside (by omega) (by omega)

theorem Slot.kept (h : Slot device i d)
    (hd : slotOffset i + descriptorBytes ≤ r.offset ∨ r.offset + r.bytes ≤ slotOffset i) :
    Slot (copy staged device r) i d :=
  h.congr fun _ _ _ => copy_outside (by omega)

end

/-! ## Which range a part copies, and which handles are live after it -/

theorem uploadRange_none {part : Nat} (hc : t.change = none) (h : t.uploadRange part = .ok r) :
    part = 0 ∧ t.uploadedRevision = 0 ∧ r = ⟨0, imageBytes⟩ := by
  unfold Table.uploadRange at h
  split at h
  · cases h
  · simp only [hc] at h
    split at h
    · cases h
    · rename_i hp
      cases h
      rw [not_or, not_not, not_not] at hp
      exact ⟨hp.1, hp.2, rfl⟩

theorem uploadRange_some {part : Nat} (hc : t.change = some c) (h : t.uploadRange part = .ok r) :
    (c.remove = false ∧ part = 0 ∧ r = ⟨slotOffset c.index, descriptorBytes⟩) ∨
      (part = (if c.remove = true then 0 else 1) ∧ r = ⟨c.bucket * 8, 8⟩) := by
  unfold Table.uploadRange at h
  split at h
  · cases h
  · simp only [hc] at h
    by_cases h₁ : ¬ c.remove = true ∧ part = 0
    · rw [if_pos h₁] at h
      cases h
      exact .inl ⟨by simpa using h₁.1, h₁.2, rfl⟩
    · rw [if_neg h₁] at h
      by_cases h₂ : part = if c.remove = true then 0 else 1
      · rw [if_pos h₂] at h
        cases h
        exact .inr ⟨h₂, rfl⟩
      · rw [if_neg h₂] at h
        cases h

theorem indexOf_iff {channel handle : Word} : (t.indexOf channel handle).isSome = true ↔
    ∃ i d, t.entries i = some d ∧ d.channel = channel ∧ d.handle = handle := by
  simp [Table.indexOf, List.find?_isSome, Option.any_eq_true]

theorem indexOf_some {channel handle : Word} (h : t.indexOf channel handle = some i) :
    ∃ d, t.entries i = some d ∧ d.channel = channel ∧ d.handle = handle := by
  have := List.find?_some h
  simpa [Option.any_eq_true] using this

theorem settled_self (live : Word → Word → Bool) (hc : t.change = some c)
    (hd : t.entries c.index = some d) : settled t live d.channel d.handle = !c.remove := by
  simp [settled, hc, hd]

/-- Another entry than the changed one is as live as before. -/
theorem settled_other (live : Word → Word → Bool) (hb : Books t) (hc : t.change = some c)
    (hd : t.entries i = some d) (hi : i ≠ c.index) :
    settled t live d.channel d.handle = live d.channel d.handle := by
  simp only [settled, hc]
  refine if_neg fun hany => ?_
  obtain ⟨e, he, -, hkey⟩ : ∃ e, t.entries c.index = some e ∧ e.channel = d.channel ∧
      e.handle = d.handle := by simpa [Option.any_eq_true] using hany
  exact hi (hb.apart i c.index d e hd he hkey.symm)

/-! ## One part -/

theorem whole_bucket (b : Fin slots) :
    b * 8 + 8 ≤ (⟨0, imageBytes⟩ : Range).offset + (⟨0, imageBytes⟩ : Range).bytes := by
  have := bucket_le b 0
  have := slot_inside 0
  dsimp only
  omega

theorem whole_slot (i : Fin capacity) : slotOffset i + descriptorBytes ≤
    (⟨0, imageBytes⟩ : Range).offset + (⟨0, imageBytes⟩ : Range).bytes := by
  have := slot_inside i
  dsimp only
  omega

/-- The first upload copies the whole image. -/
theorem Known.whole (h : Inv w) (hu : w.table.uploading = true) (hc : w.table.change = none)
    (h0 : w.table.uploadedRevision = 0) :
    Known { w with
      device := copy w.staged w.device ⟨0, imageBytes⟩
      part := 1
      live := settled w.table w.live } := by
  have hstaged := h.staged.image hu
  have hlive (channel handle : Word) :
      settled w.table w.live channel handle = (w.table.indexOf channel handle).isSome := by
    simp [settled, hc]
  have hwas (b : Fin slots) : ¬ Withdrawn w.table b := by
    rintro ⟨c, hc', -⟩
    rw [hc] at hc'
    cases hc'
  constructor
  · intro channel handle hl
    exact indexOf_iff.1 ((hlive channel handle).symm.trans hl)
  · intro b i d hb hi _
    have h₁ := h.imaged.bucket b i d hb hi (hwas b)
    have h₂ := h.imaged.slot i d hi
    rw [← hstaged] at h₁ h₂
    dsimp only
    exact ⟨h₁.copied (Nat.zero_le _) (whole_bucket b), h₂.copied (Nat.zero_le _) (whole_slot i)⟩
  · intro b hoff
    have hnone : w.table.buckets b = none := by
      cases hb : w.table.buckets b with
      | none => rfl
      | some i =>
        obtain ⟨d, hd⟩ := Option.isSome_iff_exists.mp (h.books.held b i hb)
        have h₁ : settled w.table w.live d.channel d.handle = false := hoff i d hb hd
        have h₂ := indexOf_iff.2 ⟨i, d, hd, rfl, rfl⟩
        rw [← hlive, h₁] at h₂
        cases h₂
    have h₁ := h.imaged.blank b (.inl hnone)
    rw [← hstaged] at h₁
    dsimp only
    exact h₁.copied (Nat.zero_le _) (whole_bucket b)
  · exact fun hne => absurd h0 hne
  · intro c d hc'
    have hc' : w.table.change = some c := hc'
    rw [hc] at hc'
    cases hc'

/-- The first part of an addition copies its descriptor. -/
theorem Known.describe (h : Inv w) (hu : w.table.uploading = true)
    (hd : w.table.entries c.index = some d) :
    Slot (copy w.staged w.device ⟨slotOffset c.index, descriptorBytes⟩) c.index d ∧
    Known { w with
      device := copy w.staged w.device ⟨slotOffset c.index, descriptorBytes⟩
      part := 1 } := by
  have hslot : Slot (copy w.staged w.device ⟨slotOffset c.index, descriptorBytes⟩) c.index d := by
    have := h.imaged.slot c.index d hd
    rw [← h.staged.image hu] at this
    exact this.copied (Nat.le_refl _) (Nat.le_refl _)
  refine ⟨hslot, h.known.named, ?_, ?_, h.known.uploaded, h.known.gone⟩
  · intro b i e hb hi hl
    obtain ⟨h₁, h₂⟩ := h.known.shown b i e hb hi hl
    refine ⟨h₁.kept (.inl (bucket_le b c.index)), ?_⟩
    by_cases hic : i = c.index
    · subst hic
      have hi : w.table.entries c.index = some e := hi
      obtain rfl := Option.some.inj (hd.symm.trans hi)
      exact hslot
    · exact h₂.kept (slot_apart hic)
  · intro b hoff
    exact (h.known.blank b hoff).kept (.inl (bucket_le b c.index))

/-- The last part of a change copies its bucket. -/
theorem Known.publish (h : Inv w) (hu : w.table.uploading = true) (hc : w.table.change = some c)
    (hd : w.table.entries c.index = some d)
    (hslot : c.remove = false → Slot w.device c.index d) :
    Known { w with
      device := copy w.staged w.device ⟨c.bucket * 8, 8⟩
      part := w.part + 1
      live := settled w.table w.live } := by
  have hstaged := h.staged.image hu
  have hbucket := h.dated.changed c hc
  have hself := settled_self w.live hc hd
  have hother {i : Fin capacity} {e : Descriptor} (hi : w.table.entries i = some e)
      (hne : i ≠ c.index) := settled_other w.live h.books hc hi hne
  constructor
  · intro channel handle hl
    by_cases hkey : d.channel = channel ∧ d.handle = handle
    · exact ⟨c.index, d, hd, hkey⟩
    · refine h.known.named channel handle ?_
      have : settled w.table w.live channel handle = true := hl
      simpa [settled, hc, hd, hkey] using this
  · intro b i e hb hi hl
    have hl : settled w.table w.live e.channel e.handle = true := hl
    have hi : w.table.entries i = some e := hi
    by_cases hic : i = c.index
    · subst hic
      obtain rfl := Option.some.inj (hd.symm.trans hi)
      have hrem : c.remove = false := by simpa [hself] using hl
      obtain rfl := h.books.single b c.bucket _ hb hbucket
      have h₁ := h.imaged.bucket c.bucket c.index d hb hd (by
        rintro ⟨c', hc', hrem', -⟩
        rw [hc] at hc'
        cases hc'
        exact absurd (hrem.symm.trans hrem') (by decide))
      rw [← hstaged] at h₁
      exact ⟨h₁.copied (Nat.le_refl _) (Nat.le_refl _),
        (hslot hrem).kept (.inr (bucket_le c.bucket c.index))⟩
    · rw [hother hi hic] at hl
      obtain ⟨h₁, h₂⟩ := h.known.shown b i e hb hi hl
      have hbb : b ≠ c.bucket := by
        rintro rfl
        have hb : w.table.buckets c.bucket = some i := hb
        rw [hbucket] at hb
        exact hic (Option.some.inj hb).symm
      exact ⟨h₁.kept (bucket_apart hbb), h₂.kept (.inr (bucket_le c.bucket i))⟩
  · intro b hoff
    by_cases hbb : b = c.bucket
    · subst hbb
      have hrem : c.remove = true := by
        have := hoff c.index d hbucket hd
        simpa [hself] using this
      have h₁ := h.imaged.blank c.bucket (.inr ⟨c, hc, hrem, rfl⟩)
      rw [← hstaged] at h₁
      exact h₁.copied (Nat.le_refl _) (Nat.le_refl _)
    · refine (h.known.blank b fun i e hb hi => ?_).kept (bucket_apart hbb)
      have hic : i ≠ c.index := by
        rintro rfl
        exact hbb (h.books.single _ _ _ hb hbucket)
      rw [← hother hi hic]
      exact hoff i e hb hi
  · intro h0 i e hi hne
    have hic : i ≠ c.index := fun hic => hne c hc hic.symm
    exact (hother hi hic).trans (h.known.uploaded h0 i e hi hne)
  · intro c' e hc' hrem _ he
    have hc' : w.table.change = some c' := hc'
    rw [hc] at hc'
    cases hc'
    have he : w.table.entries c.index = some e := he
    obtain rfl := Option.some.inj (hd.symm.trans he)
    change settled w.table w.live d.channel d.handle = false
    rw [hself, hrem]
    rfl

end DisplayTable
end NvidiaGsp
