import NvidiaGsp.Display.NotifierInv

/-!
# Display.NotifierRuns

Whole runs of the image resources, their notifiers and the display: FINISHED proves the end of
scanout, and no storage is closed before it.
-/

namespace NvidiaGsp
namespace Notifier

open Call
open DisplayTable (Table Descriptor capacity)

variable {w : World} {r : Resources} {sound : Bool} {i : Fin capacity} {used : Use} {s : Point}
  {channel point offset deadline : Nat} {n n' : Owner} {g : Nat → Option Point}

/-! ## What a finished window proves -/

theorem windowFinished_proves (h : Armed n g) {second : Word} (hs : g point = some s)
    (hfin : windowFinished n point s.offset second = .ok true) : s.Over := by
  obtain ⟨-, -, hslot⟩ := h.point point s hs
  unfold windowFinished at hfin
  split at hfin
  · cases hfin
  · split at hfin
    · cases hfin
    · rename_i hge
      split at hfin
      · rename_i hgt
        exact (h.last point s hs).2 hgt
      · rename_i hle
        split at hfin
        · cases hfin
        · have hst : n.status s.offset = 2 := by
            have := Except.ok.inj hfin
            simp only [Bool.and_eq_true, decide_eq_true_eq] at this
            exact this.1
          obtain ⟨t, ht, -, hf⟩ := h.finished s.offset hslot hst
          rw [show n.windowPoints (s.offset / 16) = point by omega, hs] at ht
          obtain rfl := Option.some.inj ht
          exact .inl hf

/-- An image's point is never retired, so its window is finished only by FINISHED. -/
theorem windowFinished_image (h : Armed n g) {second : Word} (hs : g point = some s)
    (hi : s.image = true) (hfin : windowFinished n point s.offset second = .ok true) :
    s.finished = true := by
  rcases windowFinished_proves h hs hfin with hf | hr
  · exact hf
  · exact absurd ((h.image point s hs hr).symm.trans hi) (by decide)

/-! ## The invariant of the resources -/

/-- The last use of an entry is an image point of its channel, at the record it was armed in. -/
def Recorded (w : World) (channel : Nat) (used : Use) : Prop :=
  ∃ s, w.points channel used.point = some s ∧ s.offset = used.offset ∧ s.image = true

structure Inv (w : World) : Prop where
  table : DisplayTable.Inv w.resources.world
  notes : ∀ channel, Armed (w.note channel) (w.points channel)
  uses : ∀ i used, w.resources.lastWindowUse i = some used →
    ∃ d, w.resources.table.entries i = some d ∧ Recorded w d.channel.toNat used
  closed : ∀ channel used, (channel, some used) ∈ w.resources.closed →
    ∃ s, w.points channel used.point = some s ∧ s.finished = true

/-- A step of a channel's notifier or of the display takes its history further. -/
theorem Inv.further (h : Inv w) {w' : World} (hw : w'.resources.world = w.resources.world)
    (hu : w'.resources.lastWindowUse = w.resources.lastWindowUse)
    (hc : w'.resources.closed = w.resources.closed)
    (hp : ∀ channel p s, w.points channel p = some s → ∃ s', w'.points channel p = some s' ∧
      s.offset = s'.offset ∧ s.image = s'.image ∧ (s.finished = true → s'.finished = true))
    (hn : ∀ channel, Armed (w'.note channel) (w'.points channel)) : Inv w' := by
  refine ⟨hw ▸ h.table, hn, fun i used hi => ?_, fun channel used hm => ?_⟩
  · rw [hu] at hi
    obtain ⟨d, hd, s, hs, ho, hi'⟩ := h.uses i used hi
    obtain ⟨s', hs', ho', him, -⟩ := hp _ _ s hs
    refine ⟨d, ?_, s', hs', ho' ▸ ho, him ▸ hi'⟩
    rw [Resources.table, hw]
    exact hd
  · rw [hc] at hm
    obtain ⟨s, hs, hf⟩ := h.closed channel used hm
    obtain ⟨s', hs', -, -, hf'⟩ := hp _ _ s hs
    exact ⟨s', hs', hf' hf⟩

theorem Inv.setNote (h : Inv w) (hn : Armed n (w.points channel)) : Inv (w.setNote channel n) := by
  refine h.further rfl rfl rfl (fun _ _ s hs => ⟨s, hs, rfl, rfl, id⟩) fun c => ?_
  by_cases hc : c = channel
  · subst hc
    simpa [World.setNote, World.note] using hn
  · simpa [World.setNote, World.note, Function.update_of_ne hc] using h.notes c

/-- A notifier and the history of one of its points change together. -/
theorem Inv.setPoint (h : Inv w)
    (hn : Armed n (Function.update (w.points channel) point (some s)))
    (hold : ∀ t, w.points channel point = some t → t.offset = s.offset ∧ t.image = s.image ∧
      (t.finished = true → s.finished = true)) :
    Inv ((w.setNote channel n).setPoint channel point s) := by
  refine h.further rfl rfl rfl (fun c p t ht => ?_) fun c => ?_
  · simp only [World.setPoint, World.setNote, Function.update_apply]
    by_cases hc : c = channel
    · subst hc
      rw [if_pos rfl, Function.update_apply]
      by_cases hp : p = point
      · subst hp
        obtain ⟨h₁, h₂, h₃⟩ := hold t ht
        exact ⟨s, if_pos rfl, h₁, h₂, h₃⟩
      · exact ⟨t, by rwa [if_neg hp], rfl, rfl, id⟩
    · rw [if_neg hc]
      exact ⟨t, ht, rfl, rfl, id⟩
  · by_cases hc : c = channel
    · subst hc
      simpa [World.setPoint, World.setNote, World.note] using hn
    · simpa [World.setPoint, World.setNote, World.note, Function.update_of_ne hc] using h.notes c

/-! ## Calls of a notifier -/

theorem atomic_openOwner (channel : Nat) : Atomic (openOwner channel) :=
  readOnly_get.bind_atomic fun _ => (readOnly_failIf _ _).bind_atomic fun _ => (total_set _).atomic

theorem readOnly_nextWindowOffset : ReadOnly nextWindowOffset :=
  readOnly_get.bind fun _ => (readOnly_failIf _ _).bind fun _ => (readOnly_failIf _ _).bind fun _ =>
    (readOnly_failIf _ _).bind fun _ => (readOnly_failIf _ _).bind fun _ => readOnly_pure _

theorem atomic_armWindow (point deadline offset : Nat) : Atomic (armWindow point deadline offset) :=
  readOnly_nextWindowOffset.bind_atomic fun _ => (readOnly_failIf _ _).bind_atomic fun _ =>
    Atomic.bind_total (readOnly_get.bind_atomic fun _ => (readOnly_failIf _ _).bind_atomic fun _ =>
      (total_set _).atomic) fun _ => total_modify _

theorem atomic_submitted (point deadline : Nat) : Atomic (submitted point deadline) :=
  readOnly_get.bind_atomic fun _ => (readOnly_failIf _ _).bind_atomic fun _ => (total_set _).atomic

theorem total_settle (n : Owner) (second : Word) : Total (settle n second) := by
  unfold settle
  split
  · exact total_pure _
  · exact (total_set _).bind fun _ => total_pure _

theorem atomic_pollWindowRecord (detached : Bool) (second : Word) :
    Atomic (pollWindowRecord detached second) := by
  refine readOnly_get.bind_atomic fun n => (readOnly_failIf _ _).bind_atomic fun _ => ?_
  split
  · exact (total_pure _).atomic
  · exact (readOnly_failIf _ _).bind_atomic fun _ => (total_settle n second).atomic

theorem atomic_retireWindowNoImage (point deadline : Nat) :
    Atomic (retireWindowNoImage point deadline) :=
  readOnly_get.bind_atomic fun _ => (readOnly_failIf _ _).bind_atomic fun _ =>
    (readOnly_failIf _ _).bind_atomic fun _ => (readOnly_failIf _ _).bind_atomic fun _ =>
    (total_set _).atomic

/-- A call whose success only needs the notifier to stay in agreement. -/
theorem Inv.outcome {α : Type} {x : Call Error Owner α} (h : Inv w) (hx : Atomic x)
    (hok : ∀ a n', x (w.note channel) = .ok a n' → Armed n' (w.points channel)) :
    Inv (w.setNote channel (Call.outcome x (w.note channel)).2) := by
  unfold Call.outcome
  cases hr : x (w.note channel) with
  | ok a n' => exact h.setNote (hok a n' hr)
  | error e n' =>
    rw [hx _ _ _ hr]
    exact h.setNote (h.notes channel)

theorem Inv.noteCall {α : Type} {x : Call Error Owner α} {mark : Point → Point} (h : Inv w)
    (hx : Atomic x) (hmark : ∀ s, (mark s).offset = s.offset ∧ (mark s).image = s.image ∧
      (s.finished = true → (mark s).finished = true))
    (hnone : w.points channel point = none → ∀ a n', x (w.note channel) = .ok a n' →
      Armed n' (w.points channel))
    (hsome : ∀ s, w.points channel point = some s → ∀ a n', x (w.note channel) = .ok a n' →
      Armed n' (Function.update (w.points channel) point (some (mark s)))) :
    Inv (w.noteCall channel point x mark) := by
  unfold World.noteCall Call.outcome
  cases hr : x (w.note channel) with
  | ok a n' =>
    dsimp only
    cases hp : w.points channel point with
    | none => exact h.setNote (hnone hp a n' hr)
    | some s =>
      refine h.setPoint (hsome s hp a n' hr) fun t ht => ?_
      obtain rfl := Option.some.inj (hp.symm.trans ht)
      obtain ⟨h₁, h₂, h₃⟩ := hmark s
      exact ⟨h₁.symm, h₂.symm, h₃⟩
  | error e n' =>
    dsimp only
    rw [hx _ _ _ hr]
    exact h.setNote (h.notes channel)

theorem Inv.submitted (h : Inv w) : Inv (w.noteCall channel point (submitted point deadline)
    fun s => { s with submitted := true }) := by
  refine h.noteCall (atomic_submitted _ _) (fun _ => ⟨rfl, rfl, id⟩) (fun _ u n' hr => ?_)
    fun s hs u n' hr => ?_
  · rw [submitted_ok hr]
    exact (h.notes channel).aside ⟨rfl, rfl, rfl, rfl, rfl, rfl⟩ (.refl _)
      fun p t ht t' ht' => by rw [Option.some.inj (ht.symm.trans ht')]
  · rw [submitted_ok hr]
    refine (h.notes channel).aside ⟨rfl, rfl, rfl, rfl, rfl, rfl⟩ (.update hs rfl rfl id id)
      fun p t ht t' ht' => ?_
    rw [Function.update_apply] at ht'
    split at ht'
    · rename_i hp
      subst hp
      cases ht'
      rw [Option.some.inj (hs.symm.trans ht)]
    · rw [Option.some.inj (ht.symm.trans ht')]

theorem Inv.retire (h : Inv w) (hi : (w.points channel point).any (fun s => !s.image) = true) :
    Inv (w.noteCall channel point (retireWindowNoImage point deadline)
      fun s => { s with retired := true }) := by
  refine h.noteCall (atomic_retireWindowNoImage _ _) (fun _ => ⟨rfl, rfl, id⟩)
    (fun hnone u n' hr => ?_) fun s hs u n' hr => ?_
  · simp [hnone] at hi
  · refine (h.notes channel).retire hs ?_ hr
    simpa [hs] using hi

theorem Inv.arm (h : Inv w) {image : Bool} {u : Unit}
    (hr : armWindow point deadline offset (w.note channel) = .ok u n') :
    Inv ((w.setNote channel n').setPoint channel point { offset := offset, image := image }) := by
  refine h.setPoint ((h.notes channel).arm hr) fun t ht => ?_
  have h₁ := ((h.notes channel).point point t ht).2.1
  have h₂ := (armWindow_ok hr).2.2.1
  omega

theorem Inv.write (h : Inv w) (hs : w.points channel point = some s) (hlive : ¬ s.Over)
    {status : Word} {time : BitVec 30} {rest : Nat → Word} (hst : status = 1 ∨ status = 2) :
    Inv (w.write channel point s status time rest) := by
  refine h.setPoint ((h.notes channel).write hs hlive hst) fun t ht => ?_
  obtain rfl := Option.some.inj (hs.symm.trans ht)
  exact ⟨rfl, rfl, fun hf => by simp [hf]⟩

/-! ## Calls of the resources -/

/-- The resources after a call, with the history as it is. -/
def World.at (w : World) (r : Resources) : World := { w with resources := r }

/-- The table moves on and keeps the entries that have a use. -/
theorem Inv.onTable (h : Inv w) {t : Table}
    (ht : DisplayTable.Inv { w.resources.world with table := t })
    (hkeep : ∀ i d, w.resources.table.entries i = some d → t.entries i = some d) :
    Inv (w.at (w.resources.onTable t)) := by
  refine ⟨ht, h.notes, fun i used hi => ?_, h.closed⟩
  obtain ⟨d, hd, hr⟩ := h.uses i used hi
  exact ⟨d, hkeep i d hd, hr⟩

/-- A table call that fails changes nothing. -/
theorem Inv.failed {α : Type} {x : Call DisplayTable.Error Table α} {e : DisplayTable.Error}
    {t : Table} (h : Inv w) (hx : Atomic x) (hr : x w.resources.table = .error e t) :
    Inv (w.at (w.resources.onTable t)) := by
  rw [hx _ _ _ hr]
  exact h

theorem Inv.remove (h : Inv w) {ch handle : Word} :
    Spec (DisplayTable.remove ch handle) w.resources.table
      (fun _ t => Inv (w.at (w.resources.onTable t)))
      fun _ t => Inv (w.at (w.resources.onTable t)) := by
  refine .intro (fun u t hr => ?_) fun e t hr => h.failed (DisplayTable.atomic_remove _ _) hr
  obtain ⟨hv, hu, hc, hrev, i, b, hb, rfl⟩ := DisplayTable.remove_ok hr
  exact h.onTable (h.table.withdraw hv.1 hu hc hrev hb) fun i d hd => hd

theorem Inv.removeImage (h : Inv w) {ch handle second : Word} :
    Spec (removeImage sound ch handle second) w.resources (fun _ r => Inv (w.at r))
      fun _ r => Inv (w.at r) := by
  refine .get_bind (.failIf_bind (fun _ => h) fun _ => .failIf_bind (fun _ => h) fun _ => ?_)
  refine .lift_bind (fun _ _ => h) fun finished _ => .failIf_bind (fun _ => h) fun _ => ?_
  exact .zoom h.remove

theorem indexOf_ok {t : Table} {ch handle : Word} (h : t.indexOf ch handle = some i) :
    ∃ d, t.entries i = some d ∧ d.channel = ch ∧ d.handle = handle := DisplayTable.indexOf_some h

theorem Inv.recordImageUse (h : Inv w) {ch handle : Word}
    (hi : (w.points ch.toNat point).any (fun s => s.image) = true) :
    Spec (recordImageUse sound ch handle point offset) w.resources (fun _ r => Inv (w.at r))
      fun _ r => Inv (w.at r) := by
  refine .get_bind (.failIf_bind (fun _ => h) fun hoff => .failIf_bind (fun _ => h) fun hnote => ?_)
  refine .need_bind (fun _ => h) fun index hindex => ?_
  obtain ⟨s, hs, him⟩ : ∃ s, w.points ch.toNat point = some s ∧ s.image = true := by
    simpa [Option.any_eq_true] using hi
  obtain ⟨d, hd, rfl, -⟩ := indexOf_ok hindex
  have hslot : Slot offset := by
    simp only [not_or, not_and_or, not_not, ne_eq] at hoff
    exact hoff.2.2.2
  have hpoint : (w.note d.channel.toNat).windowPoints (offset / 16) = point := by
    simp only [not_or, not_not, ne_eq] at hnote
    exact hnote.2.2.2.2
  have hrecord : Recorded w d.channel.toNat ⟨point, offset⟩ := by
    have hpos := ((h.notes d.channel.toNat).point point s hs).1
    obtain ⟨t, ht, hto⟩ := (h.notes d.channel.toNat).issued offset hslot (by omega)
    rw [hpoint, hs] at ht
    obtain rfl := Option.some.inj ht
    exact ⟨s, hs, hto, him⟩
  refine ⟨h.table, h.notes, fun i used hu => ?_, h.closed⟩
  simp only [World.at, Function.update_apply] at hu
  split at hu
  · rename_i hii
    subst hii
    cases hu
    exact ⟨d, hd, hrecord⟩
  · exact h.uses i used hu

theorem Inv.add (h : Inv w) {input : Descriptor} :
    Spec (DisplayTable.add input) w.resources.table
      (fun _ t => Inv (w.at (w.resources.onTable t)))
      fun _ t => Inv (w.at (w.resources.onTable t)) := by
  refine .intro (fun u t hr => ?_) fun e t hr => h.failed (DisplayTable.atomic_add _) hr
  obtain ⟨hv, i, b, hready, rfl⟩ := DisplayTable.add_ok hr
  refine h.onTable (h.table.place hv.1 hready) fun j d hj => ?_
  have hji : j ≠ i := by
    rintro rfl
    rw [hready.entry] at hj
    cases hj
  simpa only [Table.place, Function.update_of_ne hji] using hj

theorem Inv.bindSource (h : Inv w) {input : Descriptor} {image console : Bool} :
    Spec (bindSource input image console) w.resources (fun _ r => Inv (w.at r))
      fun _ r => Inv (w.at r) := by
  refine .get_bind (.need_bind (fun _ => h) fun index _ => ?_)
  refine .seq (Q := fun _ r => Inv (w.at r)) (.zoom h.add) (fun _ r hr => ?_) fun _ _ hr => hr
  exact ⟨hr.table, hr.notes, hr.uses, hr.closed⟩

/-- The session's quarantine stops every notifier and the table, and writes no record. -/
theorem Inv.quarantine (h : Inv w) (hi : w.resources.table.initialised = true) :
    Inv (w.at w.resources.quarantine) := by
  refine ⟨?_, fun ch => ?_, h.uses, h.closed⟩
  · have ht := h.table
    exact ⟨fun hni => absurd (hi.symm.trans hni) (by decide),
      ⟨ht.books.counted, ht.books.held, ht.books.found, ht.books.single, ht.books.apart,
        ht.books.sound⟩, ⟨ht.imaged.bucket, ht.imaged.blank, ht.imaged.slot⟩,
      ⟨ht.dated.le, ht.dated.fresh, ht.dated.stamped, ht.dated.settled, ht.dated.changed,
        ht.dated.adding⟩,
      ⟨ht.known.named, ht.known.shown, ht.known.blank, ht.known.uploaded, ht.known.gone⟩,
      ⟨ht.staged.image, ht.staged.first, ht.staged.whole, ht.staged.last⟩⟩
  · refine (h.notes ch).aside ?_ (.refl _) fun p t ht t' ht' => by
      rw [Option.some.inj (ht.symm.trans ht')]
    simp only [World.note, World.at, Resources.quarantine]
    split
    · exact ⟨rfl, rfl, rfl, rfl, rfl, rfl⟩
    · exact ⟨rfl, rfl, rfl, rfl, rfl, rfl⟩

/-- An image that is finished has FINISHED written for its last recorded use. -/
theorem imageFinished_proves (h : Inv w) {ch handle second : Word} {d : Descriptor}
    (hd : w.resources.table.entries i = some d) (hch : d.channel = ch) (hhandle : d.handle = handle)
    (hfin : w.resources.imageFinished sound ch handle second = .ok true)
    (hu : w.resources.lastWindowUse i = some used) :
    ∃ s, w.points ch.toNat used.point = some s ∧ s.finished = true := by
  subst hch hhandle
  unfold Resources.imageFinished at hfin
  split at hfin
  · cases hfin
  · cases hidx : w.resources.table.indexOf d.channel d.handle with
    | none => simp [hidx] at hfin
    | some j =>
      obtain ⟨e, he, -, heh⟩ := indexOf_ok hidx
      obtain rfl := h.table.books.apart i j d e hd he heh.symm
      simp only [hidx, hu] at hfin
      obtain ⟨d', hd', s, hs, hso, him⟩ := h.uses i used hu
      obtain rfl := Option.some.inj (hd.symm.trans hd')
      rw [← hso] at hfin
      exact ⟨s, hs, windowFinished_image (h.notes _) hs him hfin⟩

/-- A withdrawn entry goes with its last use. -/
theorem Inv.discard (h : Inv w) {c : DisplayTable.Change} {images : Fin capacity → Bool}
    (hi : w.resources.table.initialised = true) (hu : w.resources.table.uploading = false)
    (hc : w.resources.table.change = some c) (hrem : c.remove = true)
    (hrev : w.resources.table.uploadedRevision = w.resources.table.revision) :
    Inv (w.at { w.resources.onTable (w.resources.table.discard c) with
      images := images
      lastWindowUse := Function.update w.resources.lastWindowUse c.index none }) := by
  refine ⟨h.table.discard hi hu hc hrem hrev, h.notes, fun i used hi => ?_, h.closed⟩
  simp only [World.at, Function.update_apply] at hi
  split at hi
  · cases hi
  · rename_i hne
    obtain ⟨d, hd, hr⟩ := h.uses i used hi
    refine ⟨d, ?_, hr⟩
    simpa only [World.at, Resources.onTable, Resources.table, Table.discard,
      Function.update_of_ne hne] using hd

theorem Inv.release (h : Inv w) {c : DisplayTable.Change} {ch : Nat} {closes retires : Bool}
    (hi : w.resources.table.initialised = true) (hc : w.resources.table.change = some c)
    (hfin : ∀ used, w.resources.lastWindowUse c.index = some used →
      ∃ s, w.points ch used.point = some s ∧ s.finished = true) :
    Spec (release c.index ch closes retires) w.resources (fun _ r => Inv (w.at r))
      fun _ r => Inv (w.at r) := by
  have hclosed : Inv (w.at { w.resources with
      closed := (ch, w.resources.lastWindowUse c.index) :: w.resources.closed }) := by
    refine ⟨h.table, h.notes, h.uses, fun ch' used hm => ?_⟩
    rcases List.mem_cons.mp hm with heq | hm
    · obtain ⟨rfl, hu⟩ := Prod.mk.inj heq
      exact hfin used hu.symm
    · exact h.closed ch' used hm
  refine .modify_bind ?_
  have hquarantine := hclosed.quarantine hi
  split
  · exact .modify_bind (.throw hquarantine)
  · split
    · exact .modify_bind (.throw hquarantine)
    · refine .seq (Q := fun _ r => Inv (w.at { r with
        images := Function.update r.images c.index false
        lastWindowUse := Function.update r.lastWindowUse c.index none }))
        (.zoom (.intro (fun j t hr => ?_) fun e t hr => ?_)) (fun _ _ hr => .modify hr)
        fun _ _ hr => hr
      · obtain ⟨hv, hu, hrev, c', hc', hrem, rfl⟩ := DisplayTable.finishRemove_ok hr
        obtain rfl := Option.some.inj (hc.symm.trans hc')
        exact hclosed.discard hv.1 hu hc hrem hrev
      · exact hclosed.failed DisplayTable.atomic_finishRemove hr

theorem Inv.finishRemoval (h : Inv w) {second : Word} {closes retires : Bool} :
    Spec (finishRemoval sound second closes retires) w.resources (fun _ r => Inv (w.at r))
      fun _ r => Inv (w.at r) := by
  refine .get_bind (.failIf_bind (fun _ => h) fun hv => ?_)
  cases hc : w.resources.table.change with
  | none => exact .pure h
  | some c =>
    refine .failIf_bind (fun _ => h) fun _ => .need_bind (fun _ => h) fun d hd => ?_
    refine .lift_bind (fun _ _ => h) fun finished hfin => .failIf_bind (fun _ => h) fun htrue => ?_
    rw [Bool.not_eq_false] at htrue
    subst htrue
    exact h.release (not_not.mp hv).2.1.1 hc fun used hu => imageFinished_proves h hd rfl rfl hfin hu

/-! ## Every run -/

theorem entries_call {α : Type} {x : Call DisplayTable.Error Table α} {t : DisplayTable.World}
    {d : Descriptor} (hx : Atomic x)
    (hok : ∀ a t', x t.table = .ok a t' → t'.entries i = some d)
    (hd : t.table.entries i = some d) : (t.call x).table.entries i = some d := by
  simp only [DisplayTable.World.call, Call.outcome]
  cases hr : x t.table with
  | ok a t' => exact hok a t' hr
  | error e t' =>
    dsimp only
    rw [hx _ _ _ hr]
    exact hd

/-- A table event that is no call of the resources keeps every entry. -/
theorem entries_act {wyhash : List Byte → Nat} {t : DisplayTable.World} (h : DisplayTable.Inv t)
    {e : DisplayTable.Event} (he : Outside e = true) {d : Descriptor}
    (hd : t.table.entries i = some d) : (DisplayTable.act wyhash t e).table.entries i = some d := by
  cases e with
  | init client root epoch =>
    refine entries_call (DisplayTable.atomic_init _ _ _) (fun u t' hr => ?_) hd
    simp only [DisplayTable.init, bind_ok_iff, get_apply, failIf_ok_iff, set_apply] at hr
    obtain ⟨_, _, ⟨⟩, _, _, ⟨hni, rfl⟩, _, _, ⟨-, rfl⟩, ⟨⟩⟩ := hr
    rw [h.idle (by simpa using hni)] at hd
    cases hd
  | add input =>
    refine entries_call (DisplayTable.atomic_add _) (fun u t' hr => ?_) hd
    obtain ⟨hv, j, b, hready, rfl⟩ := DisplayTable.add_ok hr
    have hij : i ≠ j := by
      rintro rfl
      rw [hready.entry] at hd
      cases hd
    simpa only [Table.place, Function.update_of_ne hij] using hd
  | remove channel handle => cases he
  | finishRemove => cases he
  | beginUpload =>
    simp only [DisplayTable.act, DisplayTable.World.stage, Call.outcome]
    cases hr : DisplayTable.beginUpload wyhash t.table with
    | ok image t' =>
      obtain ⟨-, -, rfl⟩ := DisplayTable.beginUpload_ok hr
      exact hd
    | error e t' =>
      dsimp only
      rw [DisplayTable.atomic_beginUpload _ _ _ _ hr]
      exact hd
  | part =>
    simp only [DisplayTable.act, DisplayTable.World.copyPart]
    split
    · split <;> exact hd
    · exact hd
  | cancelUpload revision =>
    refine entries_call (DisplayTable.atomic_cancelUpload _ _) (fun u t' hr => ?_) hd
    obtain ⟨-, rfl⟩ := DisplayTable.cancelUpload_ok hr
    exact hd
  | completeUpload revision =>
    simp only [DisplayTable.act]
    split
    · refine entries_call (DisplayTable.atomic_completeUpload _ _) (fun u t' hr => ?_) hd
      obtain ⟨-, -, rfl⟩ := DisplayTable.completeUpload_ok hr
      exact hd
    · exact hd

theorem Inv.call {α : Type} {x : Call Error Resources α}
    (hx : Spec x w.resources (fun _ r => Inv (w.at r)) fun _ r => Inv (w.at r)) :
    Inv (w.call x) := hx.outcome (P := fun _ r => Inv (w.at r))

theorem Inv.act (h : Inv w) (wyhash : List Byte → Nat) (e : Event) : Inv (act wyhash true w e) := by
  cases e with
  | table e =>
    simp only [Notifier.act]
    split
    · rename_i he
      refine ⟨h.table.act wyhash e, h.notes, fun i used hi => ?_, h.closed⟩
      obtain ⟨d, hd, hr⟩ := h.uses i used hi
      exact ⟨d, entries_act h.table he hd, hr⟩
    · exact h
  | bindSource input image console => exact .call h.bindSource
  | openNotifier channel => exact h.outcome (atomic_openOwner _) fun _ _ hr => (h.notes channel).open hr
  | loseNotifier channel =>
    exact h.setNote ((h.notes channel).aside ⟨rfl, rfl, rfl, rfl, rfl, rfl⟩ (.refl _)
      fun p t ht t' ht' => by rw [Option.some.inj (ht.symm.trans ht')])
  | armWindow channel point deadline offset image =>
    simp only [Notifier.act, Call.outcome]
    cases hr : armWindow point deadline offset (w.note channel) with
    | ok u n' => exact h.arm hr
    | error e n' =>
      dsimp only
      rw [atomic_armWindow _ _ _ _ _ _ hr]
      exact h.setNote (h.notes channel)
  | recordImageUse sound channel handle point offset =>
    simp only [Notifier.act]
    split
    · exact .call (h.recordImageUse ‹_›)
    · exact h
  | submitted channel point deadline => exact h.submitted
  | pollWindow channel detached second =>
    exact h.outcome (atomic_pollWindowRecord _ _) fun _ _ hr => (h.notes channel).aside (poll_ok hr)
      (.refl _) fun p t ht t' ht' => by rw [Option.some.inj (ht.symm.trans ht')]
  | retireWindowNoImage channel point deadline =>
    simp only [Notifier.act]
    split
    · exact h.retire ‹_›
    · exact h
  | removeImage sound channel handle second => exact .call h.removeImage
  | finishRemoval sound second closes retires => exact .call h.finishRemoval
  | begin channel point time rest =>
    simp only [Notifier.act]
    split
    · rename_i s hs
      split
      · rename_i hcond
        refine h.write hs ?_ (.inl rfl)
        rintro (hf | hr)
        · exact hcond.2.2.1 hf
        · exact hcond.2.2.2 ⟨trivial, hr⟩
      · exact h
    · exact h
  | finish channel point time rest =>
    simp only [Notifier.act]
    split
    · rename_i s hs
      split
      · rename_i hcond
        refine h.write hs ?_ (.inr rfl)
        rintro (hf | hr)
        · exact hcond.2.1 hf
        · exact hcond.2.2 ⟨trivial, hr⟩
      · exact h
    · exact h

theorem Inv.run (wyhash : List Byte → Nat) (events : List Event) :
    Inv (run wyhash true events) := by
  have hzero : Inv {} := by
    refine ⟨DisplayTable.Inv.zero, fun _ => Armed.fresh (fun _ => rfl) rfl rfl rfl,
      fun i used hi => ?_, fun ch used hm => ?_⟩
    · cases hi
    · cases hm
  suffices hall : ∀ w, Inv w → Inv (events.foldl (Notifier.act wyhash true) w) from hall {} hzero
  induction events with
  | nil => exact fun w h => h
  | cons e rest ih => exact fun w h => ih _ (h.act wyhash e)

/-- The display still owes the point's FINISHED. -/
def Outstanding (w : World) (channel point : Nat) : Prop :=
  ∃ s, w.points channel point = some s ∧ ¬ s.Over

/-- What the records of every window, and the resources that read them, prove. -/
structure Proves (w : World) : Prop where
  /-- Points strictly increase, and a record is cleared only unused, after its point was retired
  without an image, or at FINISHED. -/
  arm : ∀ channel point deadline offset u n,
    armWindow point deadline offset (w.note channel) = .ok u n →
    (∀ q s, w.points channel q = some s → q < point) ∧
    ((∀ q s, w.points channel q = some s → s.offset ≠ offset) ∨
      (∃ q s, w.points channel q = some s ∧ s.offset = offset ∧ s.retired = true ∧
        s.image = false ∧ ∀ q' s', w.points channel q' = some s' → s'.offset = offset → q' ≤ q) ∨
      (w.note channel).status offset = 2)
  /-- At most two records are outstanding. -/
  outstanding : ∀ channel, ∃ a b, ∀ point, Outstanding w channel point → point = a ∨ point = b
  /-- A finished window of an image's point, at the record it was armed in, has FINISHED written. -/
  finished : ∀ channel point s second, w.points channel point = some s → s.image = true →
    windowFinished (w.note channel) point s.offset second = .ok true → s.finished = true
  /-- A finished image has FINISHED written for its last recorded use. -/
  image : ∀ sound channel handle second index used,
    w.resources.imageFinished sound channel handle second = .ok true →
    w.resources.table.indexOf channel handle = some index →
    w.resources.lastWindowUse index = some used →
    ∃ s, w.points channel.toNat used.point = some s ∧ s.finished = true
  /-- So has every image whose storage was closed. -/
  closed : ∀ channel used, (channel, some used) ∈ w.resources.closed →
    ∃ s, w.points channel used.point = some s ∧ s.finished = true

theorem Armed.cleared (h : Armed n g) {u : Unit} (hr : armWindow point deadline offset n = .ok u n') :
    (∀ q s, g q = some s → q < point) ∧
    ((∀ q s, g q = some s → s.offset ≠ offset) ∨
      (∃ q s, g q = some s ∧ s.offset = offset ∧ s.retired = true ∧ s.image = false ∧
        ∀ q' s', g q' = some s' → s'.offset = offset → q' ≤ q) ∨
      n.status offset = 2) := by
  obtain ⟨-, hfollow, hlt, hused, -⟩ := armWindow_ok hr
  have hslot : Slot offset := hfollow ▸ following_slot h.offset
  refine ⟨fun q s hq => ?_, ?_⟩
  · have := (h.point q s hq).2.1
    omega
  · by_cases hu : n.windowUsed &&& Owner.bit offset = 0
    · by_cases h0 : n.windowPoints (offset / 16) = 0
      · refine .inl fun q s hq ho => ?_
        have h₁ := (h.point q s hq).1
        have h₂ := (h.last q s hq).1
        rw [ho] at h₂
        omega
      · obtain ⟨s, hs, hso⟩ := h.issued offset hslot h0
        have hret := h.unused offset s hslot hs hso hu
        refine .inr (.inl ⟨_, s, hs, hso, hret, h.image _ s hs hret, fun q' s' hq' ho' => ?_⟩)
        have := (h.last q' s' hq').1
        rwa [ho'] at this
    · exact .inr (.inr (hused hu))

theorem Armed.outstanding (h : Armed n g) (hp : g point = some s) (hlive : ¬ s.Over) :
    point = n.windowPoints 0 ∨ point = n.windowPoints 1 := by
  obtain ⟨hle, hover⟩ := h.last point s hp
  have heq : point = n.windowPoints (s.offset / 16) := by
    rcases Nat.lt_or_eq_of_le hle with hlt | heq
    · exact absurd (hover hlt) hlive
    · exact heq
  rcases (h.point point s hp).2.2 with ho | ho
  · exact .inl (by rw [ho] at heq; exact heq)
  · exact .inr (by rw [ho] at heq; exact heq)

/-- Where the display writes nothing for a point once it is retired, the records prove the end of
scanout in every run. -/
theorem records_prove (wyhash : List Byte → Nat) (events : List Event) :
    Proves (run wyhash true events) := by
  have h := Inv.run wyhash events
  constructor
  · exact fun channel point deadline offset u n hr => (h.notes channel).cleared hr
  · intro channel
    let n := (Notifier.run wyhash true events).note channel
    refine ⟨n.windowPoints 0, n.windowPoints 1, fun point hp => ?_⟩
    obtain ⟨s, hs, hlive⟩ := hp
    exact (h.notes channel).outstanding hs hlive
  · exact fun channel point s second hs hi hfin => windowFinished_image (h.notes channel) hs hi hfin
  · intro sound channel handle second index used hfin hidx hu
    obtain ⟨d, hd, hch, hhandle⟩ := indexOf_ok hidx
    exact imageFinished_proves h hd hch hhandle hfin hu
  · exact h.closed

/-- A point without an image is retired as soon as it is submitted; the next image takes its record,
and the FINISHED the display still owes the retired point is taken for the image's. -/
theorem retired_early : ¬ ∀ wyhash events, Proves (run wyhash false events) := by
  intro h
  have hfin := (h (fun _ => 0) [.openNotifier 1, .armWindow 1 1 5 0 false, .submitted 1 1 5,
    .retireWindowNoImage 1 1 5, .armWindow 1 2 5 0 true, .submitted 1 2 5,
    .begin 1 1 0 fun _ => 0, .finish 1 1 0 fun _ => 0]).finished 1 2
      { offset := 0, image := true, submitted := true } 0x80000000
  have hpoint := hfin (by decide +kernel) rfl (by decide +kernel)
  cases hpoint

end Notifier
end NvidiaGsp
