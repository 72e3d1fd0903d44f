import NvidiaGsp.Display.TableLookup

/-!
# Display.TableRuns

Whole runs of the table and its uploads: the invariant at every step, and what it says of the
device, of the parts, of the books and of a full table.
-/

namespace NvidiaGsp
namespace DisplayTable

open Call Bytes Memory
open DisplayContext (slots lookup)

variable {w : World} {t : Table} {input d : Descriptor} {i : Fin capacity} {b : Fin slots} {c : Change}

/-! ## The calls -/

theorem atomic_init (client root : Word) (epoch : Nat) : Atomic (init client root epoch) :=
  readOnly_get.bind_atomic fun _ => (readOnly_failIf _ _).bind_atomic fun _ =>
    (readOnly_failIf _ _).bind_atomic fun _ => (total_set _).atomic

theorem atomic_add (input : Descriptor) : Atomic (add input) :=
  readOnly_get.bind_atomic fun _ => (readOnly_failIf _ _).bind_atomic fun _ =>
    (readOnly_failIf _ _).bind_atomic fun _ => (readOnly_lift _).bind_atomic fun _ =>
    (readOnly_failIf _ _).bind_atomic fun _ => (readOnly_failIf _ _).bind_atomic fun _ =>
    (readOnly_failIf _ _).bind_atomic fun _ => (readOnly_need _ _).bind_atomic fun _ =>
    (readOnly_need _ _).bind_atomic fun _ => (total_set _).atomic

theorem atomic_remove (channel handle : Word) : Atomic (remove channel handle) :=
  readOnly_get.bind_atomic fun _ => (readOnly_failIf _ _).bind_atomic fun _ =>
    (readOnly_failIf _ _).bind_atomic fun _ => (readOnly_need _ _).bind_atomic fun _ =>
    (readOnly_failIf _ _).bind_atomic fun _ => (readOnly_need _ _).bind_atomic fun _ =>
    (total_set _).atomic

theorem atomic_finishRemove : Atomic finishRemove :=
  readOnly_get.bind_atomic fun _ => (readOnly_failIf _ _).bind_atomic fun _ =>
    (readOnly_need _ _).bind_atomic fun _ => (readOnly_failIf _ _).bind_atomic fun _ =>
    ((total_set _).bind fun _ => total_pure _).atomic

theorem atomic_beginUpload (wyhash : List Byte → Nat) : Atomic (beginUpload wyhash) :=
  readOnly_get.bind_atomic fun _ => (readOnly_failIf _ _).bind_atomic fun _ =>
    (readOnly_failIf _ _).bind_atomic fun _ => ((total_set _).bind fun _ => total_pure _).atomic

theorem atomic_completeUpload (wyhash : List Byte → Nat) (revision : Nat) :
    Atomic (completeUpload wyhash revision) :=
  readOnly_get.bind_atomic fun _ => (readOnly_failIf _ _).bind_atomic fun _ => (total_set _).atomic

theorem atomic_cancelUpload (wyhash : List Byte → Nat) (revision : Nat) :
    Atomic (cancelUpload wyhash revision) :=
  readOnly_get.bind_atomic fun _ => (readOnly_failIf _ _).bind_atomic fun _ => (total_set _).atomic

/-- A call keeps the invariant if its success does. -/
theorem Inv.call {α : Type} {x : Call Error Table α} (h : Inv w) (hx : Atomic x)
    (hok : ∀ a t, x w.table = .ok a t → Inv { w with table := t }) : Inv (w.call x) := by
  unfold World.call outcome
  cases hr : x w.table with
  | ok a t => exact hok a t hr
  | error e t =>
    rw [hx _ _ _ hr]
    exact h

theorem add_ok {u : Unit} {t' : Table} (h : add input t = .ok u t') :
    t.valid ∧ ∃ i b, Ready t input i b ∧ t' = t.place input i b := by
  simp only [add, bind_ok_iff, get_apply, failIf_ok_iff, lift_ok_iff, need_ok_iff, set_apply] at h
  obtain ⟨_, _, ⟨⟩, _, _, ⟨hv, rfl⟩, _, _, ⟨hbusy, rfl⟩, _, _, ⟨hvalid, rfl⟩, _, _, ⟨-, rfl⟩, _, _,
    ⟨-, rfl⟩, _, _, ⟨hheld, rfl⟩, i, _, ⟨hi, rfl⟩, b, _, ⟨hb, rfl⟩, ⟨⟩⟩ := h
  rw [not_or, Bool.not_eq_true, Bool.not_eq_true, Option.isSome_eq_false_iff,
    Option.isNone_iff_eq_none] at hbusy
  exact ⟨not_not.mp hv, i, b, ⟨hbusy.1, hbusy.2, hvalid,
    fun j d hj hd => hheld (holds_iff.2 ⟨j, d, hj, hd⟩), freeIndex_some hi, probe_some hb⟩, rfl⟩

theorem remove_ok {channel handle : Word} {u : Unit} {t' : Table}
    (h : remove channel handle t = .ok u t') :
    t.valid ∧ t.uploading = false ∧ t.change = none ∧ t.revision = t.uploadedRevision ∧
      ∃ i b, t.buckets b = some i ∧ t' = t.withdraw i b := by
  simp only [remove, bind_ok_iff, get_apply, failIf_ok_iff, need_ok_iff, set_apply] at h
  obtain ⟨_, _, ⟨⟩, _, _, ⟨hv, rfl⟩, _, _, ⟨hbusy, rfl⟩, i, _, ⟨-, rfl⟩, _, _, ⟨-, rfl⟩, b, _,
    ⟨hb, rfl⟩, ⟨⟩⟩ := h
  rw [not_or, not_or, Bool.not_eq_true, Bool.not_eq_true, Option.isSome_eq_false_iff,
    Option.isNone_iff_eq_none, ne_eq, not_not] at hbusy
  exact ⟨not_not.mp hv, hbusy.1, hbusy.2.1, hbusy.2.2, i, b, by simpa using List.find?_some hb, rfl⟩

theorem finishRemove_ok {a : Fin capacity} {t' : Table} (h : finishRemove t = .ok a t') :
    t.valid ∧ t.uploading = false ∧ t.uploadedRevision = t.revision ∧
      ∃ c, t.change = some c ∧ c.remove = true ∧ t' = t.discard c := by
  simp only [finishRemove, bind_ok_iff, get_apply, failIf_ok_iff, need_ok_iff, set_apply,
    pure_apply] at h
  obtain ⟨_, _, ⟨⟩, _, _, ⟨hv, rfl⟩, c, _, ⟨hc, rfl⟩, _, _, ⟨hrem, rfl⟩, _, _, ⟨⟩, ⟨⟩⟩ := h
  rw [not_or, not_or, not_not, Bool.not_eq_true, ne_eq, not_not] at hv
  exact ⟨hv.1, hv.2.1, hv.2.2, c, hc, by simpa using hrem, rfl⟩

/-! ## The uploads -/

theorem Inv.copyPart (h : Inv w) : Inv w.copyPart := by
  unfold World.copyPart
  split
  · rename_i hup
    obtain ⟨hu, hpart⟩ := hup
    split
    · exact h
    · rename_i r hr
      have hi : w.table.initialised = false → False := fun hni => by
        rw [h.idle hni] at hu
        cases hu
      cases hc : w.table.change with
      | none =>
        obtain ⟨hp, h0, rfl⟩ := uploadRange_none hc hr
        have hparts : w.table.uploadParts = 1 := by simp [Table.uploadParts, hc]
        rw [hp, hparts, if_pos rfl]
        refine ⟨fun hni => (hi hni).elim, h.books, h.imaged, h.dated, Known.whole h hu hc h0, ?_⟩
        refine ⟨h.staged.image, fun c d _ hc' => ?_, fun _ _ _ i d hd => ?_, fun c d _ hc' => ?_⟩
        · cases hc.symm.trans hc'
        · change settled w.table w.live d.channel d.handle = true
          simpa [settled, hc] using indexOf_iff.2 ⟨i, d, hd, rfl, rfl⟩
        · cases hc.symm.trans hc'
      | some c =>
        obtain ⟨d, hd⟩ := Option.isSome_iff_exists.mp (h.books.held _ _ (h.dated.changed c hc))
        rcases uploadRange_some hc hr with ⟨hrem, hp, rfl⟩ | ⟨hp, rfl⟩
        · have hparts : w.table.uploadParts = 2 := by simp [Table.uploadParts, hc, hrem]
          obtain ⟨hslot, hknown⟩ := Known.describe h hu hd
          rw [hp, hparts, if_neg (by decide)]
          refine ⟨fun hni => (hi hni).elim, h.books, h.imaged, h.dated, hknown, ?_⟩
          refine ⟨h.staged.image, fun c' e _ hc' _ _ he => ?_, fun _ hc' => ?_, fun _ _ _ _ hp' => ?_⟩
          · cases hc.symm.trans hc'
            have he : w.table.entries c.index = some e := he
            obtain rfl := Option.some.inj (hd.symm.trans he)
            exact hslot
          · cases hc.symm.trans hc'
          · cases hp'.trans hparts
        · have hparts : w.part + 1 = w.table.uploadParts := by
            rw [hp]
            simp only [Table.uploadParts, hc]
            split <;> rfl
          have hslot (hrem : c.remove = false) : Slot w.device c.index d :=
            h.staged.first c d hu hc hrem (by simp [hp, hrem]) hd
          rw [if_pos hparts]
          refine ⟨fun hni => (hi hni).elim, h.books, h.imaged, h.dated,
            Known.publish h hu hc hd hslot, ?_⟩
          refine ⟨h.staged.image, fun c' e _ hc' hrem _ he => ?_, fun _ hc' => ?_,
            fun c' e _ hc' _ he => ?_⟩
          · cases hc.symm.trans hc'
            have he : w.table.entries c.index = some e := he
            obtain rfl := Option.some.inj (hd.symm.trans he)
            exact (hslot hrem).kept (.inr (bucket_le c.bucket c.index))
          · cases hc.symm.trans hc'
          · cases hc.symm.trans hc'
            have he : w.table.entries c.index = some e := he
            obtain rfl := Option.some.inj (hd.symm.trans he)
            exact settled_self w.live hc hd
  · exact h

theorem beginUpload_ok {wyhash : List Byte → Nat} {image : Memory} {t' : Table}
    (h : beginUpload wyhash t = .ok image t') : t.valid ∧ image = t.image ∧
      t' = { t with digest := wyhash (peek t.image 0 imageBytes), uploading := true } := by
  simp only [beginUpload, bind_ok_iff, get_apply, failIf_ok_iff, set_apply, pure_apply] at h
  obtain ⟨_, _, ⟨⟩, _, _, ⟨hv, rfl⟩, _, _, ⟨-, rfl⟩, _, _, ⟨⟩, ⟨⟩⟩ := h
  exact ⟨not_not.mp hv, rfl, rfl⟩

theorem Inv.stage (h : Inv w) (wyhash : List Byte → Nat) : Inv (w.stage wyhash) := by
  unfold World.stage outcome
  cases hr : beginUpload wyhash w.table with
  | error e t =>
    dsimp only
    rw [atomic_beginUpload wyhash _ _ _ hr]
    exact h
  | ok image t =>
    dsimp only
    obtain ⟨hv, rfl, rfl⟩ := beginUpload_ok hr
    refine ⟨fun hni => absurd (hv.1.symm.trans hni) (by decide), ?_, ?_, ?_, ?_, ?_⟩
    · exact ⟨h.books.counted, h.books.held, h.books.found, h.books.single, h.books.apart,
        h.books.sound⟩
    · exact ⟨h.imaged.bucket, h.imaged.blank, h.imaged.slot⟩
    · exact ⟨h.dated.le, h.dated.fresh, h.dated.stamped, h.dated.settled, h.dated.changed,
        h.dated.adding⟩
    · exact ⟨h.known.named, h.known.shown, h.known.blank, h.known.uploaded, h.known.gone⟩
    · refine ⟨fun _ => rfl, fun c d _ _ _ hp => ?_, fun _ _ hp => ?_, fun c d _ hc hp => ?_⟩
      · have hp : 1 ≤ 0 := hp
        omega
      · have hp : 0 = 1 := hp
        omega
      · have hc : w.table.change = some c := hc
        have hp : 0 = w.table.uploadParts := hp
        simp only [Table.uploadParts, hc] at hp
        split at hp <;> cases hp

theorem cancelUpload_ok {wyhash : List Byte → Nat} {revision : Nat} {u : Unit} {t' : Table}
    (h : cancelUpload wyhash revision t = .ok u t') :
    t.valid ∧ t' = { t with uploading := false } := by
  simp only [cancelUpload, bind_ok_iff, get_apply, failIf_ok_iff, set_apply] at h
  obtain ⟨_, _, ⟨⟩, _, _, ⟨hv, rfl⟩, ⟨⟩⟩ := h
  exact ⟨(not_not.mp hv).1, rfl⟩

theorem Inv.cancel (h : Inv w) (hi : w.table.initialised = true) :
    Inv { w with table := { w.table with uploading := false } } where
  idle := fun hni => absurd (hi.symm.trans hni) (by decide)
  books := ⟨h.books.counted, h.books.held, h.books.found, h.books.single, h.books.apart,
    h.books.sound⟩
  imaged := ⟨h.imaged.bucket, h.imaged.blank, h.imaged.slot⟩
  dated := ⟨h.dated.le, h.dated.fresh, h.dated.stamped, h.dated.settled, h.dated.changed,
    h.dated.adding⟩
  known := ⟨h.known.named, h.known.shown, h.known.blank, h.known.uploaded, h.known.gone⟩
  staged := Staged.of_idle rfl

theorem completeUpload_ok {wyhash : List Byte → Nat} {revision : Nat} {u : Unit} {t' : Table}
    (h : completeUpload wyhash revision t = .ok u t') :
    t.valid ∧ t.uploading = true ∧ t' = { t with
      uploadedRevision := t.revision
      uploading := false
      change := t.change.filter fun change => change.remove } := by
  simp only [completeUpload, bind_ok_iff, get_apply, failIf_ok_iff, set_apply] at h
  obtain ⟨_, _, ⟨⟩, _, _, ⟨hv, rfl⟩, ⟨⟩⟩ := h
  obtain ⟨hvalid, hu, rfl, -⟩ := not_not.mp hv
  exact ⟨hvalid, hu, rfl⟩

theorem filter_some (h : t.change.filter (fun change => change.remove) = some c) :
    t.change = some c ∧ c.remove = true := by
  simpa [Option.filter_eq_some_iff] using h

/-- An upload whose last part was copied is complete: everything left in the table is live. -/
theorem Inv.complete (h : Inv w) (hi : w.table.initialised = true)
    (hu : w.table.uploading = true) (hp : w.part = w.table.uploadParts) :
    Inv { w with table := { w.table with
      uploadedRevision := w.table.revision
      uploading := false
      change := w.table.change.filter fun change => change.remove } } := by
  refine ⟨fun hni => absurd (hi.symm.trans hni) (by decide), ?_, ?_, ?_, ?_, Staged.of_idle rfl⟩
  · exact ⟨h.books.counted, h.books.held, h.books.found, h.books.single, h.books.apart,
      h.books.sound⟩
  · refine ⟨fun b i d hb hd hw => h.imaged.bucket b i d hb hd ?_,
      fun b hb => h.imaged.blank b (hb.imp id ?_), h.imaged.slot⟩
    · rintro ⟨c, hc, hrem, hcb⟩
      refine hw ⟨c, ?_, hrem, hcb⟩
      simp [hc, hrem]
    · rintro ⟨c, hc, hrem, hcb⟩
      exact ⟨c, (filter_some hc).1, hrem, hcb⟩
  · refine ⟨Nat.le_refl _, fun h0 => ?_, h.dated.stamped, fun _ _ => rfl, fun c hc => ?_,
      fun c hc hrem => ?_⟩
    · refine Option.eq_none_iff_forall_ne_some.mpr fun c hc => ?_
      have h₁ := h.books.held _ _ (h.dated.changed c (filter_some hc).1)
      have h₂ := h.dated.stamped c.index h₁
      have h0 : w.table.revision = 0 := h0
      omega
    · exact h.dated.changed c (filter_some hc).1
    · exact absurd ((filter_some hc).2.symm.trans hrem) (by decide)
  · refine ⟨h.known.named, h.known.shown, h.known.blank, fun _ i d hd hne => ?_,
      fun c d hc hrem _ hd => ?_⟩
    · cases hc : w.table.change with
      | none =>
        refine h.staged.whole hu hc ?_ i d hd
        rw [hp]
        simp [Table.uploadParts, hc]
      | some c =>
        have hne' (hci : c.index = i) : c.remove = false := by
          cases hrem : c.remove with
          | false => rfl
          | true => exact absurd hci (hne c (by simp [hc, hrem]))
        by_cases hci : c.index = i
        · subst hci
          rw [h.staged.last c d hu hc hp hd, hne' rfl]
          rfl
        · have h0 : w.table.uploadedRevision ≠ 0 := fun h0 => by
            rw [h.dated.fresh h0] at hc
            cases hc
          refine h.known.uploaded h0 i d hd fun c' hc' => ?_
          cases hc.symm.trans hc'
          exact hci
    · change w.live d.channel d.handle = false
      rw [h.staged.last c d hu (filter_some hc).1 hp hd, hrem]
      rfl

/-! ## Every run -/

theorem Inv.zero : Inv {} := by
  constructor
  · exact fun _ => rfl
  · constructor
    · simp [List.countP_eq_length_filter]
    all_goals simp
  · constructor
    · intro b i d hb
      cases hb
    · exact fun b _ => ⟨rfl, rfl⟩
    · intro i d hd
      cases hd
  · constructor <;> simp
  · constructor
    · intro channel handle hl
      cases hl
    · intro b i d hb
      cases hb
    · exact fun b _ => ⟨rfl, rfl⟩
    · intro _ i d hd
      cases hd
    · intro c d hc
      cases hc
  · exact Staged.of_idle rfl

theorem Inv.init (h : Inv w) (client root : Word) (epoch : Nat) :
    Inv (w.call (init client root epoch)) := by
  refine h.call (atomic_init client root epoch) fun u t' hr => ?_
  simp only [DisplayTable.init, bind_ok_iff, get_apply, failIf_ok_iff, set_apply] at hr
  obtain ⟨_, _, ⟨⟩, _, _, ⟨hni, rfl⟩, _, _, ⟨-, rfl⟩, ⟨⟩⟩ := hr
  obtain rfl := h.idle (by simpa using hni)
  have hz := Inv.zero
  refine ⟨fun hni => (by cases hni), ?_, ?_, ?_, ?_, Staged.of_idle rfl⟩
  · exact ⟨hz.books.counted, hz.books.held, hz.books.found, hz.books.single, hz.books.apart,
      hz.books.sound⟩
  · exact ⟨fun b i d hb => (by cases hb), fun b _ => ⟨rfl, rfl⟩, hz.imaged.slot⟩
  · exact ⟨hz.dated.le, hz.dated.fresh, hz.dated.stamped, hz.dated.settled, hz.dated.changed,
      hz.dated.adding⟩
  · exact ⟨hz.known.named, fun b i d hb => (by cases hb), hz.known.blank, hz.known.uploaded,
      hz.known.gone⟩

theorem Inv.act (h : Inv w) (wyhash : List Byte → Nat) (e : Event) : Inv (act wyhash w e) := by
  cases e with
  | init client root epoch => exact h.init client root epoch
  | add input =>
    refine h.call (atomic_add input) fun _ _ hr => ?_
    obtain ⟨hv, i, b, hready, rfl⟩ := add_ok hr
    exact h.place hv.1 hready
  | remove channel handle =>
    refine h.call (atomic_remove channel handle) fun _ _ hr => ?_
    obtain ⟨hv, hu, hc, hrev, i, b, hb, rfl⟩ := remove_ok hr
    exact h.withdraw hv.1 hu hc hrev hb
  | finishRemove =>
    refine h.call atomic_finishRemove fun _ _ hr => ?_
    obtain ⟨hv, hu, hrev, c, hc, hrem, rfl⟩ := finishRemove_ok hr
    exact h.discard hv.1 hu hc hrem hrev
  | beginUpload => exact h.stage wyhash
  | part => exact h.copyPart
  | cancelUpload revision =>
    refine h.call (atomic_cancelUpload wyhash revision) fun _ _ hr => ?_
    obtain ⟨hv, rfl⟩ := cancelUpload_ok hr
    exact h.cancel hv.1
  | completeUpload revision =>
    simp only [DisplayTable.act]
    split
    · rename_i hp
      refine h.call (atomic_completeUpload wyhash revision) fun _ _ hr => ?_
      obtain ⟨hv, hu, rfl⟩ := completeUpload_ok hr
      exact h.complete hv.1 hu hp
    · exact h

theorem Inv.run (wyhash : List Byte → Nat) (events : List Event) : Inv (run wyhash events) := by
  suffices hall : ∀ w, Inv w → Inv (events.foldl (DisplayTable.act wyhash) w) from hall {} Inv.zero
  induction events with
  | nil => exact fun w h => h
  | cons e rest ih => exact fun w h => ih _ (h.act wyhash e)

/-! ## A full table -/

theorem freeIndex_none (h : t.freeIndex = none) (i : Fin capacity) : (t.entries i).isSome = true := by
  have := List.find?_eq_none.mp h i (List.mem_finRange i)
  simpa [← Option.isSome_iff_ne_none] using this

theorem probe_none {buckets : Fin slots → Option (Fin capacity)} {left : Nat} {start : Fin slots}
    (h : probe buckets left start = none) {k : Nat} (hk : k < left)
    (hb : b.val = (start.val + k) % slots) : (buckets b).isSome = true := by
  induction left generalizing start k with
  | zero => omega
  | succ left ih =>
    rw [probe_succ] at h
    split at h
    · rename_i hs
      cases k with
      | zero =>
        have : b = start := Fin.ext (hb.trans (Nat.mod_eq_of_lt start.isLt))
        rwa [this]
      | succ k =>
        refine ih h (k := k) (by omega) ?_
        rw [hb, Fin.val_add]
        simp only [slots]
        omega
    · cases h

/-- A probe of every bucket finds a free one: there are more buckets than entries. -/
theorem probe_finds (h : Books t) (start : Fin slots) : probe t.buckets slots start ≠ none := by
  intro hnone
  have hall (b : Fin slots) : (t.buckets b).isSome = true := by
    refine probe_none hnone (k := (b.val + slots - start.val) % slots) (Nat.mod_lt _ (by decide)) ?_
    have := b.isLt
    have := start.isLt
    simp only [slots] at *
    omega
  have hinj : Function.Injective fun b => (t.buckets b).get (hall b) := by
    intro b b' heq
    have heq : (t.buckets b).get (hall b) = (t.buckets b').get (hall b') := heq
    refine h.single b b' _ (Option.some_get (hall b)).symm ?_
    rw [heq, Option.some_get]
  have := Fintype.card_le_of_injective _ hinj
  rw [Fintype.card_fin, Fintype.card_fin] at this
  exact absurd this (by decide)

theorem count_of_full (h : Books t) (hfull : t.freeIndex = none) : t.count = capacity := by
  rw [h.counted, List.countP_eq_length.mpr fun i _ => freeIndex_none hfull i, List.length_finRange]

/-- `add` is exhausted by a full table or a worn-out revision, never by probing. -/
theorem add_exhausted (h : Books t) {t' : Table} (he : add input t = .error .exhausted t') :
    t.count = capacity ∨ t.revision = maxU64 := by
  have hcount : t.count ≤ capacity := by
    rw [h.counted]
    exact (List.countP_le_length).trans (List.length_finRange).le
  have hvalidate : validate input ≠ .error .exhausted := by
    unfold validate
    split
    · simp
    · split
      · simp
      · split <;> simp
  simp only [add, bind_error_iff, get_apply, failIf_error_iff, failIf_ok_iff, lift_error_iff,
    lift_ok_iff, need_error_iff, need_ok_iff, set_apply] at he
  rcases he with h | ⟨_, _, ⟨⟩, he⟩
  · cases h
  rcases he with ⟨_, h, -⟩ | ⟨_, _, ⟨-, rfl⟩, he⟩
  · cases h
  rcases he with ⟨_, h, -⟩ | ⟨_, _, ⟨-, rfl⟩, he⟩
  · cases h
  rcases he with ⟨h, -⟩ | ⟨_, _, ⟨-, rfl⟩, he⟩
  · exact absurd h hvalidate
  rcases he with ⟨_, h, -⟩ | ⟨_, _, ⟨-, rfl⟩, he⟩
  · cases h
  rcases he with ⟨hfull, -, -⟩ | ⟨_, _, ⟨-, rfl⟩, he⟩
  · exact hfull.imp (fun hc => Nat.le_antisymm hcount hc) id
  rcases he with ⟨_, h, -⟩ | ⟨_, _, ⟨-, rfl⟩, he⟩
  · cases h
  rcases he with ⟨hfree, -, -⟩ | ⟨_, _, ⟨-, rfl⟩, he⟩
  · exact .inl (count_of_full h hfree)
  rcases he with ⟨hprobe, -, -⟩ | ⟨_, _, ⟨-, rfl⟩, he⟩
  · exact absurd hprobe (probe_finds h _)
  · cases he

/-! ## The table and the device agree -/

/-- The range and these bytes do not meet. -/
def Range.Apart (r : Range) (offset bytes : Nat) : Prop :=
  offset + bytes ≤ r.offset ∨ r.offset + r.bytes ≤ offset

/-- What the table, its books and the device's memory say of each other. -/
structure Agrees (w : World) : Prop where
  /-- A published handle is found at its own range, target and page size. -/
  published : ∀ channel handle, w.table.published channel handle = true →
    w.live channel handle = true ∧ ∃ (b : Fin slots) (i : Fin capacity) (d : Descriptor),
      w.table.entries i = some d ∧ d.channel = channel ∧ d.handle = handle ∧
      lookup (instanceOf w.device) (w.table.client.setWidth 14) handle (channel.setWidth 7) =
        .ok ⟨b, slotOffset i, hardware d⟩
  /-- A handle never completely added, or completely withdrawn, is missing. -/
  missing : ∀ (channel : BitVec 7) handle, handle ≠ 0 →
    w.live (channel.setWidth 32) handle = false →
    lookup (instanceOf w.device) (w.table.client.setWidth 14) handle channel = .error .missing
  /-- A part of a change writes nothing of another entry. -/
  change : ∀ part r c, w.table.uploadRange part = .ok r → w.table.change = some c →
    ∀ j, j ≠ c.index → r.Apart (slotOffset j) descriptorBytes ∧
      ∀ b : Fin slots, w.table.buckets b = some j → r.Apart (b * 8) 8
  /-- The whole image is copied only before anything is published. -/
  whole : ∀ part r, w.table.uploadRange part = .ok r → w.table.change = none →
    ∀ channel handle, w.table.published channel handle = false
  counted : w.table.count = (List.finRange capacity).countP fun i => (w.table.entries i).isSome
  /-- Each entry has one bucket, and each bucket an entry. -/
  paired : ∀ i, (w.table.entries i).isSome = true ↔ ∃! b, w.table.buckets b = some i
  /-- Probing never runs out of buckets. -/
  exhausted : ∀ input t, add input w.table = .error .exhausted t →
    w.table.count = capacity ∨ w.table.revision = maxU64

theorem change_apart (hd : Dated t) {part : Nat} {r : Range} {j : Fin capacity}
    (hr : t.uploadRange part = .ok r) (hc : t.change = some c) (hj : j ≠ c.index) :
    r.Apart (slotOffset j) descriptorBytes ∧
      ∀ b : Fin slots, t.buckets b = some j → r.Apart (b * 8) 8 := by
  have hbucket := hd.changed c hc
  rcases uploadRange_some hc hr with ⟨-, -, rfl⟩ | ⟨-, rfl⟩
  · exact ⟨slot_apart hj, fun b _ => .inl (bucket_le b c.index)⟩
  · refine ⟨.inr (bucket_le c.bucket j), fun b hb => bucket_apart ?_⟩
    rintro rfl
    rw [hbucket] at hb
    exact hj (Option.some.inj hb).symm

/-- In every run the device shows exactly what the table has published and not withdrawn. -/
theorem table_agrees (wyhash : List Byte → Nat) (events : List Event) :
    Agrees (run wyhash events) := by
  have h := Inv.run wyhash events
  constructor
  · intro channel handle hp
    obtain ⟨i, d, hd, rfl, rfl, hl⟩ := published_live h hp
    obtain ⟨b, hb⟩ := lookup_live h hd hl
    exact ⟨hl, b, i, d, hd, rfl, rfl, hb⟩
  · exact fun channel handle hh hl => lookup_dead h hh hl
  · exact fun part r c hr hc j hj => change_apart h.dated hr hc hj
  · intro part r hr hc channel handle
    have h0 := (uploadRange_none hc hr).2.1
    simp [Table.published, h0]
  · exact h.books.counted
  · intro i
    constructor
    · intro hi
      obtain ⟨b, hb⟩ := h.books.found i hi
      exact ⟨b, hb, fun b' hb' => h.books.single b' b i hb' hb⟩
    · rintro ⟨b, hb, -⟩
      exact h.books.held b i hb
  · exact fun input t he => add_exhausted h.books he

/-- A handle added after the first upload is published once both its parts are copied. -/
example : (run (fun _ => 0) [.init 1 2 3, .add ⟨1, 5, .vram, 4096, 512, false, .small⟩, .beginUpload,
    .part, .completeUpload 1, .add ⟨1, 6, .vram, 8192, 512, false, .small⟩, .beginUpload, .part,
    .part, .completeUpload 2]).table.published 1 6 = true := by decide +kernel

end DisplayTable
end NvidiaGsp
