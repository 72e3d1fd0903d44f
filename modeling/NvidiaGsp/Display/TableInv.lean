import NvidiaGsp.Lib.Counts
import NvidiaGsp.Display.Table

/-!
# Display.TableInv

What holds of the table, its image and the device between any two events: the books of entries and
buckets, the words the image holds for them, the revisions, and what the device knows.
-/

namespace NvidiaGsp
namespace DisplayTable

open Call Bytes Memory
open DisplayContext (slots)

/-! ## Words of an image -/

section

variable {m : Memory} {offset o i : Nat} {v : Word} {words : List Word}

theorem wordAt_put_same : wordAt (put m offset v) offset = v := wordAt_poke_same

theorem wordAt_put_other (h : o + 4 ≤ offset ∨ offset + 4 ≤ o) :
    wordAt (put m offset v) o = wordAt m o := wordAt_poke_other (by simpa using h)

theorem wordAt_putWords_other (h : o + 4 ≤ offset ∨ offset + 4 * words.length ≤ o) :
    wordAt (putWords m offset words) o = wordAt m o := by
  induction words generalizing m offset with
  | nil => rfl
  | cons v rest ih =>
    rw [List.length_cons] at h
    rw [putWords, ih (by omega), wordAt_put_other (by omega)]

theorem wordAt_putWords {k : Nat} (h : k < words.length) :
    wordAt (putWords m offset words) (offset + 4 * k) = words.getD k 0 := by
  induction words generalizing m offset k with
  | nil => simp at h
  | cons v rest ih =>
    rw [putWords]
    cases k with
    | zero => rw [wordAt_putWords_other (by omega), Nat.mul_zero, Nat.add_zero, wordAt_put_same]; rfl
    | succ k =>
      rw [List.length_cons] at h
      rw [show offset + 4 * (k + 1) = offset + 4 + 4 * k by omega, ih (by omega)]
      rfl

/-- A bucket of the image holds these two words. -/
def Bucket (m : Memory) (b : Fin slots) (handle context : Word) : Prop :=
  wordAt m (b * 8) = handle ∧ wordAt m (b * 8 + 4) = context

/-- A descriptor slot of the image holds this descriptor. -/
def Slot (m : Memory) (i : Fin capacity) (d : Descriptor) : Prop :=
  ∀ k < 6, wordAt m (slotOffset i + 4 * k) = (descriptor d).getD k 0

theorem Bucket.congr {m m' : Memory} {b : Fin slots} {handle context : Word}
    (h : Bucket m b handle context) (heq : ∀ i : Nat, b * 8 ≤ i → i < b * 8 + 8 → m' i = m i) :
    Bucket m' b handle context := by
  obtain ⟨h₁, h₂⟩ := h
  refine ⟨?_, ?_⟩
  · rw [wordAt_congr fun k hk => heq _ (by omega) (by omega), h₁]
  · rw [wordAt_congr fun k hk => heq _ (by omega) (by omega), h₂]

theorem Slot.congr {m m' : Memory} {i : Fin capacity} {d : Descriptor} (h : Slot m i d)
    (heq : ∀ j, slotOffset i ≤ j → j < slotOffset i + descriptorBytes → m' j = m j) :
    Slot m' i d := by
  intro k hk
  rw [wordAt_congr fun j hj => heq _ (by omega) (by simp only [descriptorBytes]; omega), h k hk]

/-- Buckets lie in front of the descriptors. -/
theorem bucket_le (b : Fin slots) (i : Fin capacity) : b * 8 + 8 ≤ slotOffset i := by
  have := b.isLt
  simp only [slotOffset, ramhtBytes, slots] at *
  omega

theorem slot_apart {i j : Fin capacity} (h : i ≠ j) :
    slotOffset i + descriptorBytes ≤ slotOffset j ∨ slotOffset j + descriptorBytes ≤ slotOffset i := by
  have := Fin.val_ne_of_ne h
  simp only [slotOffset, descriptorBytes]
  omega

theorem bucket_apart {b b' : Fin slots} (h : b ≠ b') :
    (b * 8 + 8 : Nat) ≤ b' * 8 ∨ (b' * 8 + 8 : Nat) ≤ b * 8 := by
  have := Fin.val_ne_of_ne h
  omega

theorem slot_inside (i : Fin capacity) : slotOffset i + descriptorBytes ≤ imageBytes := by
  have := i.isLt
  simp only [slotOffset, descriptorBytes, imageBytes, ramhtBytes, capacity] at *
  omega

end

/-! ## The invariant -/

/-- Entries and buckets correspond one to one; handles are unique; descriptors are valid. -/
structure Books (t : Table) : Prop where
  counted : t.count = (List.finRange capacity).countP fun i => (t.entries i).isSome
  held : ∀ b i, t.buckets b = some i → (t.entries i).isSome
  found : ∀ i, (t.entries i).isSome → ∃ b, t.buckets b = some i
  single : ∀ b b' i, t.buckets b = some i → t.buckets b' = some i → b = b'
  apart : ∀ i j d e, t.entries i = some d → t.entries j = some e → d.handle = e.handle → i = j
  sound : ∀ i d, t.entries i = some d → validate d = .ok ()

/-- The bucket's clearing is under way. -/
def Withdrawn (t : Table) (b : Fin slots) : Prop :=
  ∃ c, t.change = some c ∧ c.remove = true ∧ c.bucket = b

/-- The image shows every entry, save the one being withdrawn. -/
structure Imaged (t : Table) : Prop where
  bucket : ∀ b i d, t.buckets b = some i → t.entries i = some d → ¬ Withdrawn t b →
    Bucket t.image b d.handle (contextWord t.client d.channel i)
  blank : ∀ b, t.buckets b = none ∨ Withdrawn t b → Bucket t.image b 0 0
  slot : ∀ i d, t.entries i = some d → Slot t.image i d

/-- The revisions of the entries, of the table and of the last upload. -/
structure Dated (t : Table) : Prop where
  le : t.uploadedRevision ≤ t.revision
  fresh : t.uploadedRevision = 0 → t.change = none
  stamped : ∀ i, (t.entries i).isSome → 0 < t.entryRevisions i ∧ t.entryRevisions i ≤ t.revision
  settled : t.uploadedRevision ≠ 0 → t.change = none → t.uploadedRevision = t.revision
  changed : ∀ c, t.change = some c → t.buckets c.bucket = some c.index
  adding : ∀ c, t.change = some c → c.remove = false →
    t.uploadedRevision < t.entryRevisions c.index

/-- The device shows exactly the live entries. -/
structure Known (w : World) : Prop where
  named : ∀ channel handle, w.live channel handle = true →
    ∃ i d, w.table.entries i = some d ∧ d.channel = channel ∧ d.handle = handle
  shown : ∀ b i d, w.table.buckets b = some i → w.table.entries i = some d →
    w.live d.channel d.handle = true →
    Bucket w.device b d.handle (contextWord w.table.client d.channel i) ∧ Slot w.device i d
  blank : ∀ b, (∀ i d, w.table.buckets b = some i → w.table.entries i = some d →
    w.live d.channel d.handle = false) → Bucket w.device b 0 0
  uploaded : w.table.uploadedRevision ≠ 0 → ∀ i d, w.table.entries i = some d →
    (∀ c, w.table.change = some c → c.index ≠ i) → w.live d.channel d.handle = true
  gone : ∀ c d, w.table.change = some c → c.remove = true →
    w.table.uploadedRevision = w.table.revision → w.table.entries c.index = some d →
    w.live d.channel d.handle = false

/-- The upload in progress stages the image as it is, and its parts are done in order. -/
structure Staged (w : World) : Prop where
  image : w.table.uploading = true → w.staged = w.table.image
  first : ∀ c d, w.table.uploading = true → w.table.change = some c → c.remove = false →
    1 ≤ w.part → w.table.entries c.index = some d → Slot w.device c.index d
  whole : w.table.uploading = true → w.table.change = none → w.part = 1 →
    ∀ i d, w.table.entries i = some d → w.live d.channel d.handle = true
  last : ∀ c d, w.table.uploading = true → w.table.change = some c →
    w.part = w.table.uploadParts → w.table.entries c.index = some d →
    w.live d.channel d.handle = !c.remove

structure Inv (w : World) : Prop where
  idle : w.table.initialised = false → w = {}
  books : Books w.table
  imaged : Imaged w.table
  dated : Dated w.table
  known : Known w
  staged : Staged w

end DisplayTable
end NvidiaGsp
