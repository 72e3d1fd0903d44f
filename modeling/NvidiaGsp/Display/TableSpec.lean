import NvidiaGsp.Display.TableInv

/-!
# Display.TableSpec

What each writing step does to the invariant: placing an entry, withdrawing it, discarding it,
copying a part, and the two ends of an upload.
-/

namespace NvidiaGsp
namespace DisplayTable

open Call Bytes Memory
open DisplayContext (slots)

variable {t : Table} {w : World} {input d : Descriptor} {i : Fin capacity} {b : Fin slots} {c : Change}

theorem holds_iff {handle : Word} :
    t.holds handle = true ↔ ∃ i d, t.entries i = some d ∧ d.handle = handle := by
  simp [Table.holds, Option.any_eq_true]

theorem freeIndex_some (h : t.freeIndex = some i) : t.entries i = none := by
  simpa using List.find?_some h

theorem probe_succ {buckets : Fin slots → Option (Fin capacity)} {left : Nat} {bucket : Fin slots} :
    probe buckets (left + 1) bucket =
      if (buckets bucket).isSome then probe buckets left (bucket + 1) else some bucket := rfl

theorem probe_some {buckets : Fin slots → Option (Fin capacity)} {left : Nat} {start : Fin slots}
    (h : probe buckets left start = some b) : buckets b = none := by
  induction left generalizing start with
  | zero => cases h
  | succ left ih =>
    rw [probe_succ] at h
    split at h
    · exact ih h
    · simp_all

theorem validate_ok (h : validate input = .ok ()) :
    input.channel.toNat ≤ 8 ∧ input.handle ≠ 0 ∧ input.physical % 256 = 0 ∧ 0 < input.bytes ∧
      input.bytes % 256 = 0 ∧ input.physical + input.bytes ≤ 2 ^ 40 := by
  unfold validate at h
  split at h
  · cases h
  · split at h
    · cases h
    · split at h
      · cases h
      · rename_i h₁ _ h₃
        simp only [not_or, not_lt, ne_eq, not_not, ge_iff_le, not_le] at h₁ h₃
        exact ⟨h₁.1, h₁.2, h₃.2.1, by omega, h₃.2.2.2.1, by omega⟩

/-! ## Placing an entry -/

/-- What `add` has established when it writes. -/
structure Ready (t : Table) (input : Descriptor) (i : Fin capacity) (b : Fin slots) : Prop where
  uploading : t.uploading = false
  change : t.change = none
  valid : validate input = .ok ()
  unheld : ∀ i d, t.entries i = some d → d.handle ≠ input.handle
  entry : t.entries i = none
  bucket : t.buckets b = none

theorem Books.place (h : Books t) (hr : Ready t input i b) : Books (t.place input i b) := by
  have hno (b' : Fin slots) : t.buckets b' ≠ some i := fun hb' => by
    have := h.held b' i hb'
    simp [hr.entry] at this
  constructor
  · simp only [Table.place, h.counted]
    refine (Counts.countP_turn_off (List.nodup_finRange _) (List.mem_finRange i) ?_ ?_ ?_).symm
    · simp
    · simp [hr.entry]
    · intro j _ hj
      simp [Function.update_of_ne hj]
  · intro b' j hb'
    simp only [Table.place, Function.update_apply] at hb' ⊢
    split at hb'
    · simp_all
    · split
      · rfl
      · exact h.held b' j hb'
  · intro j hj
    simp only [Table.place, Function.update_apply] at hj ⊢
    split at hj
    · rename_i hji
      exact ⟨b, by simp [hji]⟩
    · obtain ⟨b', hb'⟩ := h.found j hj
      refine ⟨b', ?_⟩
      rw [if_neg, hb']
      rintro rfl
      simp [hr.bucket] at hb'
  · intro b₁ b₂ j h₁ h₂
    simp only [Table.place, Function.update_apply] at h₁ h₂
    split at h₁ <;> split at h₂
    · simp_all
    · cases h₁
      exact absurd h₂ (hno b₂)
    · cases h₂
      exact absurd h₁ (hno b₁)
    · exact h.single b₁ b₂ j h₁ h₂
  · intro j k d e hj hk hde
    simp only [Table.place, Function.update_apply] at hj hk
    split at hj <;> split at hk
    · simp_all
    · cases hj
      exact absurd hde.symm (hr.unheld k e hk)
    · cases hk
      exact absurd hde (hr.unheld j d hj)
    · exact h.apart j k d e hj hk hde
  · intro j d hj
    simp only [Table.place, Function.update_apply] at hj
    split at hj
    · cases hj
      exact hr.valid
    · exact h.sound j d hj

/-- Placing an entry writes its own slot and its own bucket. -/
theorem place_outside {o : Nat} (hs : o + 4 ≤ slotOffset i ∨ slotOffset i + descriptorBytes ≤ o)
    (hb : o + 4 ≤ b * 8 ∨ b * 8 + 8 ≤ o) :
    wordAt (t.place input i b).image o = wordAt t.image o := by
  simp only [descriptorBytes] at hs
  simp only [Table.place]
  rw [wordAt_put_other (by omega), wordAt_put_other (by omega),
    wordAt_putWords_other (by simp only [descriptor, List.length_cons, List.length_nil]; omega)]

theorem place_bucket : Bucket (t.place input i b).image b input.handle
    (contextWord t.client input.channel i) := by
  constructor
  · simp only [Table.place]
    rw [wordAt_put_other (by omega), wordAt_put_same]
  · simp only [Table.place]
    rw [wordAt_put_same]

theorem place_slot : Slot (t.place input i b).image i input := by
  intro k hk
  have := bucket_le b i
  simp only [Table.place]
  rw [wordAt_put_other (by omega), wordAt_put_other (by omega), wordAt_putWords (by simpa [descriptor])]

theorem Imaged.place (h : Imaged t) (hb : Books t) (hr : Ready t input i b) :
    Imaged (t.place input i b) := by
  have hkeep {b' : Fin slots} {handle context : Word} (hne : b' ≠ b)
      (hb' : Bucket t.image b' handle context) :
      Bucket (t.place input i b).image b' handle context := by
    have h₁ := bucket_le b' i
    have h₂ := bucket_apart hne
    exact ⟨(place_outside (by omega) (by omega)).trans hb'.1,
      (place_outside (by omega) (by omega)).trans hb'.2⟩
  have hnot (b' : Fin slots) (hw : Withdrawn (t.place input i b) b') : False := by
    obtain ⟨c, hc, hrem, -⟩ := hw
    simp only [Table.place, hr.change] at hc
    split at hc <;> cases hc
    cases hrem
  have hwas (b' : Fin slots) : ¬ Withdrawn t b' := by
    rintro ⟨c, hc, -⟩
    rw [hr.change] at hc
    cases hc
  constructor
  · intro b' j d hb' hj _
    by_cases hbb : b' = b
    · subst hbb
      simp only [Table.place, Function.update_self, Option.some.injEq] at hb'
      subst hb'
      simp only [Table.place, Function.update_self, Option.some.injEq] at hj
      subst hj
      exact place_bucket
    · simp only [Table.place, Function.update_of_ne hbb] at hb'
      have hji : j ≠ i := by
        rintro rfl
        have := hb.held b' j hb'
        simp [hr.entry] at this
      simp only [Table.place, Function.update_of_ne hji] at hj
      exact hkeep hbb (h.bucket b' j d hb' hj (hwas b'))
  · intro b' hb'
    rcases hb' with hb' | hb'
    · by_cases hbb : b' = b
      · subst hbb
        simp [Table.place] at hb'
      · simp only [Table.place, Function.update_of_ne hbb] at hb'
        exact hkeep hbb (h.blank b' (.inl hb'))
    · exact absurd hb' (hnot b')
  · intro j d hj
    by_cases hji : j = i
    · subst hji
      simp only [Table.place, Function.update_self, Option.some.injEq] at hj
      subst hj
      exact place_slot
    · simp only [Table.place, Function.update_of_ne hji] at hj
      intro k hk
      have h₁ := bucket_le b j
      have h₂ := slot_apart hji
      simp only [descriptorBytes] at h₂
      rw [place_outside (by simp only [descriptorBytes]; omega) (by omega), h.slot j d hj k hk]

theorem place_change (h : t.uploadedRevision ≠ 0) :
    (t.place input i b).change = some ⟨i, b, false⟩ := if_pos h

theorem Dated.place (h : Dated t) (hr : Ready t input i b) : Dated (t.place input i b) := by
  constructor
  · exact Nat.le_succ_of_le h.le
  · intro h0
    simp only [Table.place, hr.change]
    exact if_neg (not_not.mpr h0)
  · intro j hj
    simp only [Table.place, Function.update_apply] at hj ⊢
    split at hj
    · rename_i hji
      simp [hji]
    · rename_i hji
      have := h.stamped j hj
      rw [if_neg hji]
      omega
  · intro h0 hc
    have h0 : t.uploadedRevision ≠ 0 := h0
    rw [place_change h0] at hc
    cases hc
  · intro c hc
    simp only [Table.place, hr.change] at hc ⊢
    split at hc <;> cases hc
    simp
  · intro c hc _
    have := h.le
    simp only [Table.place, hr.change] at hc ⊢
    split at hc <;> cases hc
    simp only [Function.update_self]
    omega

theorem Known.place (h : Known w) (hb : Books w.table) (hr : Ready w.table input i b) :
    Known { w with table := w.table.place input i b } := by
  have hnot {j : Fin capacity} {d : Descriptor} (hj : w.table.entries j = some d) : j ≠ i := by
    rintro rfl
    rw [hr.entry] at hj
    cases hj
  have hother {j : Fin capacity} {b' : Fin slots} (hb' : w.table.buckets b' = some j) : j ≠ i := by
    rintro rfl
    have := hb.held b' j hb'
    simp [hr.entry] at this
  constructor
  · intro channel handle hl
    obtain ⟨j, d, hj, hd⟩ := h.named channel handle hl
    exact ⟨j, d, by simpa only [Table.place, Function.update_of_ne (hnot hj)] using hj, hd⟩
  · intro b' j d hb' hj hl
    by_cases hbb : b' = b
    · subst hbb
      simp only [Table.place, Function.update_self, Option.some.injEq] at hb'
      subst hb'
      simp only [Table.place, Function.update_self, Option.some.injEq] at hj
      subst hj
      obtain ⟨k, e, hk, -, he⟩ := h.named _ _ hl
      exact absurd he (hr.unheld k e hk)
    · simp only [Table.place, Function.update_of_ne hbb] at hb'
      simp only [Table.place, Function.update_of_ne (hother hb')] at hj
      exact h.shown b' j d hb' hj hl
  · intro b' hoff
    refine h.blank b' fun j d hb' hj => hoff j d ?_ ?_
    · have hbb : b' ≠ b := by
        rintro rfl
        simp [hr.bucket] at hb'
      simpa only [Table.place, Function.update_of_ne hbb] using hb'
    · simpa only [Table.place, Function.update_of_ne (hnot hj)] using hj
  · intro h0 j d hj hc
    have h0 : w.table.uploadedRevision ≠ 0 := h0
    have hji : j ≠ i := fun hji => hc _ (place_change h0) hji.symm
    simp only [Table.place, Function.update_of_ne hji] at hj
    refine h.uploaded h0 j d hj fun c hc' => ?_
    rw [hr.change] at hc'
    cases hc'
  · intro c d hc hrem
    simp only [Table.place, hr.change] at hc
    split at hc <;> cases hc
    cases hrem

theorem Staged.of_idle (h : w.table.uploading = false) : Staged w := by
  constructor <;> intros <;> simp_all

theorem Inv.place (h : Inv w) (hi : w.table.initialised = true) (hr : Ready w.table input i b) :
    Inv { w with table := w.table.place input i b } where
  idle := fun hni => absurd (hi.symm.trans hni) (by decide)
  books := h.books.place hr
  imaged := h.imaged.place h.books hr
  dated := h.dated.place hr
  known := h.known.place h.books hr
  staged := Staged.of_idle hr.uploading

/-! ## Withdrawing an entry -/

theorem withdraw_outside {o : Nat} (hb : o + 4 ≤ b * 8 ∨ b * 8 + 8 ≤ o) :
    wordAt (t.withdraw i b).image o = wordAt t.image o := by
  simp only [Table.withdraw]
  rw [wordAt_put_other (by omega), wordAt_put_other (by omega)]

theorem withdraw_bucket : Bucket (t.withdraw i b).image b 0 0 := by
  constructor
  · simp only [Table.withdraw]
    rw [wordAt_put_other (by omega), wordAt_put_same]
  · simp only [Table.withdraw]
    rw [wordAt_put_same]

theorem Imaged.withdraw (h : Imaged t) (hc : t.change = none) : Imaged (t.withdraw i b) := by
  have hkeep {b' : Fin slots} {handle context : Word} (hne : b' ≠ b)
      (hb' : Bucket t.image b' handle context) :
      Bucket (t.withdraw i b).image b' handle context := by
    have := bucket_apart hne
    exact ⟨(withdraw_outside (by omega)).trans hb'.1, (withdraw_outside (by omega)).trans hb'.2⟩
  have hwas (b' : Fin slots) : ¬ Withdrawn t b' := by
    rintro ⟨c, hc', -⟩
    rw [hc] at hc'
    cases hc'
  constructor
  · intro b' j d hb' hj hw
    have hbb : b' ≠ b := by
      rintro rfl
      exact hw ⟨_, rfl, rfl, rfl⟩
    exact hkeep hbb (h.bucket b' j d hb' hj (hwas b'))
  · intro b' hb'
    by_cases hbb : b' = b
    · subst hbb
      exact withdraw_bucket
    · refine hkeep hbb (h.blank b' (.inl (hb'.resolve_right ?_)))
      rintro ⟨c, hc', -, rfl⟩
      cases hc'
      exact hbb rfl
  · intro j d hj k hk
    have := bucket_le b j
    rw [withdraw_outside (by omega), h.slot j d hj k hk]

theorem Inv.withdraw (h : Inv w) (hi : w.table.initialised = true)
    (hu : w.table.uploading = false) (hc : w.table.change = none)
    (hrev : w.table.revision = w.table.uploadedRevision) (hb : w.table.buckets b = some i) :
    Inv { w with table := w.table.withdraw i b } := by
  have hentry := h.books.held b i hb
  have hstamp := h.dated.stamped i hentry
  constructor
  · exact fun hni => absurd (hi.symm.trans hni) (by decide)
  · exact ⟨h.books.counted, h.books.held, h.books.found, h.books.single, h.books.apart, h.books.sound⟩
  · exact h.imaged.withdraw hc
  · constructor
    · exact Nat.le_succ_of_le h.dated.le
    · intro h0
      have h0 : w.table.uploadedRevision = 0 := h0
      omega
    · intro j hj
      have := h.dated.stamped j hj
      exact ⟨this.1, Nat.le_succ_of_le this.2⟩
    · intro _ hc'
      cases hc'
    · intro c hc'
      cases hc'
      exact hb
    · intro c hc' hrem
      cases hc'
      cases hrem
  · constructor
    · exact h.known.named
    · exact h.known.shown
    · exact h.known.blank
    · intro h0 j d hj _
      refine h.known.uploaded h0 j d hj fun c hc' => ?_
      rw [hc] at hc'
      cases hc'
    · intro c d _ _ heq
      have heq : w.table.uploadedRevision = w.table.revision + 1 := heq
      omega
  · exact Staged.of_idle hu

/-! ## Discarding a withdrawn entry -/

theorem Books.discard (h : Books t) (hc : t.buckets c.bucket = some c.index) :
    Books (t.discard c) := by
  have hentry := h.held _ _ hc
  have hne {b' : Fin slots} {j : Fin capacity} (hb' : t.buckets b' = some j) (hbb : b' ≠ c.bucket) :
      j ≠ c.index := by
    rintro rfl
    exact hbb (h.single _ _ _ hb' hc)
  constructor
  · have := Counts.countP_turn_off (p := fun i => (t.entries i).isSome)
      (q := fun i => (Function.update t.entries c.index none i).isSome) (List.nodup_finRange capacity)
      (List.mem_finRange c.index) hentry (by simp) fun j _ hj => by simp [Function.update_of_ne hj]
    simp only [Table.discard, h.counted]
    omega
  · intro b' j hb'
    simp only [Table.discard, Function.update_apply] at hb' ⊢
    split at hb'
    · cases hb'
    · rename_i hbb
      rw [if_neg (hne hb' hbb)]
      exact h.held b' j hb'
  · intro j hj
    simp only [Table.discard, Function.update_apply] at hj ⊢
    split at hj
    · cases hj
    · rename_i hji
      obtain ⟨b', hb'⟩ := h.found j hj
      refine ⟨b', ?_⟩
      rw [if_neg, hb']
      rintro rfl
      rw [hc] at hb'
      exact hji (Option.some.inj hb').symm
  · intro b₁ b₂ j h₁ h₂
    simp only [Table.discard, Function.update_apply] at h₁ h₂
    split at h₁
    · cases h₁
    · split at h₂
      · cases h₂
      · exact h.single b₁ b₂ j h₁ h₂
  · intro j k d e hj hk hde
    simp only [Table.discard, Function.update_apply] at hj hk
    split at hj
    · cases hj
    · split at hk
      · cases hk
      · exact h.apart j k d e hj hk hde
  · intro j d hj
    simp only [Table.discard, Function.update_apply] at hj
    split at hj
    · cases hj
    · exact h.sound j d hj

theorem discard_outside {o : Nat}
    (hs : o + 4 ≤ slotOffset c.index ∨ slotOffset c.index + descriptorBytes ≤ o) :
    wordAt (t.discard c).image o = wordAt t.image o :=
  wordAt_poke_other (by simpa using hs)

theorem Imaged.discard (h : Imaged t) (hchange : t.change = some c) (hrem : c.remove = true) :
    Imaged (t.discard c) := by
  have hkeep {b' : Fin slots} {handle context : Word} (hb' : Bucket t.image b' handle context) :
      Bucket (t.discard c).image b' handle context := by
    have := bucket_le b' c.index
    exact ⟨(discard_outside (by omega)).trans hb'.1, (discard_outside (by omega)).trans hb'.2⟩
  constructor
  · intro b' j d hb' hj _
    simp only [Table.discard, Function.update_apply] at hb' hj
    split at hb'
    · cases hb'
    · rename_i hbb
      split at hj
      · cases hj
      · refine hkeep (h.bucket b' j d hb' hj ?_)
        rintro ⟨c', hc', -, rfl⟩
        rw [hchange] at hc'
        cases hc'
        exact hbb rfl
  · intro b' hb'
    refine hkeep (h.blank b' ?_)
    rcases hb' with hb' | ⟨c', hc', -⟩
    · simp only [Table.discard, Function.update_apply] at hb'
      split at hb'
      · rename_i hbb
        exact .inr ⟨c, hchange, hrem, hbb.symm⟩
      · exact .inl hb'
    · cases hc'
  · intro j d hj k hk
    simp only [Table.discard, Function.update_apply] at hj
    split at hj
    · cases hj
    · rename_i hji
      have := slot_apart hji
      rw [discard_outside (by simp only [descriptorBytes] at *; omega), h.slot j d hj k hk]

theorem Known.discard (h : Known w) (hchange : w.table.change = some c)
    (hrem : c.remove = true) (hc : w.table.buckets c.bucket = some c.index)
    (hrev : w.table.uploadedRevision = w.table.revision) :
    Known { w with table := w.table.discard c } := by
  have hgone {d : Descriptor} := h.gone c d hchange hrem hrev
  constructor
  · intro channel handle hl
    obtain ⟨j, d, hj, rfl, rfl⟩ := h.named channel handle hl
    refine ⟨j, d, ?_, rfl, rfl⟩
    have hji : j ≠ c.index := by
      rintro rfl
      exact absurd (hl.symm.trans (hgone hj)) (by decide)
    simpa only [Table.discard, Function.update_of_ne hji] using hj
  · intro b' j d hb' hj hl
    simp only [Table.discard, Function.update_apply] at hb' hj
    split at hb'
    · cases hb'
    · split at hj
      · cases hj
      · exact h.shown b' j d hb' hj hl
  · intro b' hoff
    refine h.blank b' fun j d hb' hj => ?_
    by_cases hji : j = c.index
    · subst hji
      exact hgone hj
    · refine hoff j d ?_ ?_
      · have hbb : b' ≠ c.bucket := by
          rintro rfl
          rw [hc] at hb'
          exact hji (Option.some.inj hb').symm
        simpa only [Table.discard, Function.update_of_ne hbb] using hb'
      · simpa only [Table.discard, Function.update_of_ne hji] using hj
  · intro h0 j d hj _
    simp only [Table.discard, Function.update_apply] at hj
    split at hj
    · cases hj
    · rename_i hji
      refine h.uploaded h0 j d hj fun c' hc' => ?_
      rw [hchange] at hc'
      cases hc'
      exact Ne.symm hji
  · intro c' d hc'
    cases hc'

theorem Inv.discard (h : Inv w) (hi : w.table.initialised = true)
    (hu : w.table.uploading = false) (hchange : w.table.change = some c) (hrem : c.remove = true)
    (hrev : w.table.uploadedRevision = w.table.revision) :
    Inv { w with table := w.table.discard c } := by
  have hc := h.dated.changed c hchange
  constructor
  · exact fun hni => absurd (hi.symm.trans hni) (by decide)
  · exact h.books.discard hc
  · exact h.imaged.discard hchange hrem
  · constructor
    · exact h.dated.le
    · exact fun _ => rfl
    · intro j hj
      simp only [Table.discard, Function.update_apply] at hj ⊢
      split at hj
      · cases hj
      · rename_i hji
        rw [if_neg hji]
        exact h.dated.stamped j hj
    · exact fun _ _ => hrev
    · intro c' hc'
      cases hc'
    · intro c' hc'
      cases hc'
  · exact h.known.discard hchange hrem hc hrev
  · exact Staged.of_idle hu

end DisplayTable
end NvidiaGsp
