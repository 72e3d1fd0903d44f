import NvidiaGsp.Vm.OwnerTrace
import NvidiaGsp.Vm.Room

/-!
# Vm.RoomRuns

The ranges under every call. Everything but `prepare`, `close`, `reserve` and `releaseRange` leaves
the ranges and the window alone (`Shelf`), and these four keep them in order; only `reserve` adds one.
Then the answer of every reservation follows from the window and the ranges: the least free address,
the fixed one, or an error that moves nothing (`reserve_least`).
-/

namespace NvidiaGsp
namespace Vm

open Call

variable {E : Type} {port : Port E} {w w' : World E}

/-! ## What leaves the ranges alone -/

/-- The ranges, the window they lie in, and whether the owner is in use. -/
structure Shelf where
  ranges : List Range
  base : Nat
  bytes : Nat
  prepared : Bool
  attached : Bool
  epoch : Nat

def Owner.shelf (o : Owner E) : Shelf :=
  ⟨o.ranges, o.base, o.bytes, o.prepared, o.attached, o.epoch⟩

def World.shelf (w : World E) : Shelf := w.owner.shelf

/-- The call leaves the ranges alone. -/
abbrev Keeping {α : Type} (x : VmCall E α) : Prop := Frame World.shelf x

theorem callback_keeping {α : Type} (f : E → α × E) : Keeping (callback f) := fun _ => rfl

theorem update_keeping {f : Owner E → Owner E} (h : ∀ o, (f o).shelf = o.shelf) :
    Keeping (update f) := fun w => h w.owner

theorem update_bind_keeping {α : Type} {f : Owner E → Owner E} {g : Unit → VmCall E α}
    (h : ∀ o, (f o).shelf = o.shelf) (hg : ∀ u, Keeping (g u)) : Keeping (update f >>= g) :=
  (update_keeping h).bind hg

theorem updateWork_keeping (f : Work → Work) : Keeping (updateWork (E := E) f) :=
  update_keeping fun _ => rfl

theorem log_keeping (a : Access) : Keeping (E := E) (log a) := fun _ => rfl

theorem orFail_keeping {α : Type} {x : VmCall E α} (h : Keeping x) : Keeping (orFail x) :=
  fun w => orFail_spec (h w) fun _ _ he => he

theorem stable_keeping : Keeping (stable port) :=
  .get_bind fun _ => .failIf_bind ((callback_keeping _).bind fun _ => .failIf_bind (.failIf _ _))

theorem nextSerial_keeping : Keeping (E := E) nextSerial := by
  apply Frame.get_bind
  intro _
  apply Frame.failIf_bind
  apply update_bind_keeping
  · exact fun _ => rfl
  · exact fun _ => .pure _

theorem tableValid_keeping {id : TableId} : Keeping (tableValid port id) := by
  apply Frame.get_bind
  intro w
  apply Frame.failIf_bind
  apply (callback_keeping _).bind
  intro _
  apply Frame.failIf_bind
  apply Frame.lift_bind
  intro _
  apply Frame.failIf_bind
  exact .lift_bind fun _ => .pure _

theorem createTable_keeping {level : Level} {address : Nat} {parent : Option TableId} :
    Keeping (createTable port level address parent) := by
  apply Frame.lift_bind
  intro _
  apply Frame.get_bind
  intro _
  apply Frame.failIf_bind
  apply (callback_keeping _).bind
  intro _
  apply Frame.lift_bind
  intro _
  apply Frame.failIf_bind
  apply (callback_keeping _).bind
  intro _
  apply Frame.failIf_bind
  apply Frame.lift_bind
  intro _
  apply Frame.failIf_bind
  exact fun _ => rfl

theorem rootAddress_keeping : Keeping (rootAddress port) := by
  apply Frame.bind stable_keeping
  intro _
  apply Frame.get_bind
  intro _
  apply Frame.need_bind
  intro _
  apply Frame.bind tableValid_keeping
  intro _
  exact .get_bind fun _ => .pure _

theorem linkChild_keeping {create : Bool} {level : Level} {address slot : Nat} {parent : TableId} :
    Keeping (linkChild port create level address parent slot) := by
  apply Frame.get_bind
  intro _
  apply Frame.failIf_bind
  apply Frame.bind createTable_keeping
  intro _
  apply Frame.get_bind
  intro _
  exact .lift_bind fun _ _ => rfl

theorem descend_keeping {create : Bool} {address : Nat} {levels : List Level} {parent : TableId} :
    Keeping (descend port create address levels parent) := by
  induction levels generalizing parent with
  | nil => exact .pure _
  | cons level levels ih =>
    unfold descend
    apply Frame.bind tableValid_keeping
    intro _
    apply Frame.get_bind
    intro _
    apply Frame.lift_bind
    intro slot
    apply Frame.lift_bind
    intro _
    apply Frame.get_bind
    intro w
    have hrest (child : TableId) : Keeping (do
        tableValid port child
        let w ← get
        let word ← lift (directory (w.heap child).dma)
        failIf ((w.heap child).retiring = true ∨ (w.heap child).parent ≠ some parent ∨
          (w.heap child).level ≠ level ∨ (w.heap parent).words slot ≠ word ∨
          (w.heap parent).level = .dual ∧ (w.heap parent).words (slot - 1) ≠ 0) .Descriptor
        descend port create address levels child) :=
      Frame.bind tableValid_keeping fun _ => .get_bind fun _ => .lift_bind fun _ => .failIf_bind ih
    split
    · exact (Frame.pure _).bind hrest
    · exact Frame.bind linkChild_keeping hrest

theorem leaf_keeping {address : Nat} {create : Bool} : Keeping (leaf port address create) :=
  .get_bind fun _ => .need_bind fun _ => descend_keeping

theorem retireEmpty_keeping {depth : Nat} {cursor : TableId} :
    Keeping (retireEmpty port depth cursor) := by
  induction depth generalizing cursor with
  | zero => exact .pure _
  | succ depth ih =>
    unfold retireEmpty
    apply Frame.get_bind
    intro w
    split
    · exact .pure _
    split
    · exact .pure _
    apply Frame.bind tableValid_keeping
    intro _
    apply Frame.bind tableValid_keeping
    intro _
    apply Frame.get_bind
    intro _
    apply Frame.failIf_bind
    apply Frame.lift_bind
    intro _
    apply Frame.lift_bind
    intro _
    apply Frame.failIf_bind
    exact Frame.bind (fun _ => rfl) fun _ => ih

theorem workTime_keeping : Keeping (workTime port) := by
  apply Frame.get_bind
  intro _
  apply Frame.need_bind
  intro _
  apply (callback_keeping _).bind
  intro _
  apply Frame.failIf_bind
  exact (updateWork_keeping _).bind fun _ => .pure _

theorem editPage_keeping {range : Range} {binding : Binding E} {work : Work} :
    Keeping (editPage port range binding work) := by
  unfold editPage
  apply Frame.get_bind
  intro _
  apply Frame.lift_bind
  intro _
  apply Frame.lift_bind
  intro _
  apply Frame.bind leaf_keeping
  intro _
  apply Frame.get_bind
  intro _
  apply Frame.lift_bind
  intro _
  split
  · apply Frame.failIf_bind
    exact Frame.bind (fun _ => rfl) fun _ => updateWork_keeping _
  · apply Frame.failIf_bind
    apply Frame.bind
    · exact fun _ => rfl
    · exact fun _ => Frame.bind retireEmpty_keeping fun _ => updateWork_keeping _

theorem edit_keeping {binding : Binding E} {started left : Nat} :
    Keeping (edit port binding started left) := by
  induction left generalizing binding with
  | zero => exact .pure _
  | succ left ih =>
    unfold edit
    apply Frame.get_bind
    intro _
    apply Frame.need_bind
    intro _
    split
    · apply Frame.bind workTime_keeping
      intro _
      split
      · exact .pure _
      apply Frame.bind stable_keeping
      intro _
      apply Frame.get_bind
      intro _
      apply Frame.lift_bind
      intro _
      exact Frame.bind editPage_keeping fun _ => ih
    · exact .pure _

theorem editing_keeping {binding : Binding E} {started : Nat} :
    Keeping (editing port binding started) := by
  apply Frame.bind edit_keeping
  intro _
  apply Frame.get_bind
  intro _
  apply Frame.need_bind
  intro _
  split
  · apply Frame.bind workTime_keeping
    intro _
    apply Frame.get_bind
    intro _
    apply Frame.bind rootAddress_keeping
    intro _
    apply Frame.bind nextSerial_keeping
    intro _
    apply Frame.lift_bind
    intro _
    exact (updateWork_keeping _).bind fun _ => .pure _
  · exact .pure _

theorem withOperation_keeping {α : Type} {x : TlbCall E α} : Keeping (withOperation x) := by
  apply Frame.get_bind
  intro _
  apply Frame.need_bind
  intro work
  apply Frame.need_bind
  intro operation w
  unfold Spec
  dsimp only
  cases x ⟨operation, w.env, []⟩ <;> rfl

theorem invalidating_keeping : Keeping (invalidating port) := by
  apply Frame.bind withOperation_keeping
  intro _
  split
  · apply Frame.bind withOperation_keeping
    intro _
    apply Frame.need_bind
    intro _
    apply Frame.get_bind
    intro _
    apply Frame.failIf_bind
    apply Frame.bind rootAddress_keeping
    intro _
    apply Frame.get_bind
    intro _
    apply Frame.failIf_bind
    exact (updateWork_keeping _).bind fun _ => .pure _
  · exact .pure _

theorem releasing_keeping {binding : BindingId} {mapping : Bool} :
    Keeping (releasing port binding mapping) := by
  apply Frame.get_bind
  intro _
  split
  · apply Frame.bind tableValid_keeping
    intro _
    apply Frame.get_bind
    intro _
    apply Frame.failIf_bind
    apply update_bind_keeping
    · exact fun _ => rfl
    intro _
    apply (log_keeping _).bind
    intro _
    apply (callback_keeping _).bind
    intro _
    split
    · exact .throw _
    · exact .pure _
  · apply update_bind_keeping
    · exact fun _ => rfl
    · exact fun _ => (log_keeping _).bind fun _ => .pure _

theorem poll_keeping {id : BindingId} : Keeping (poll port id) := by
  apply Frame.bind stable_keeping
  intro _
  apply Frame.get_bind
  intro _
  apply Frame.failIf_bind
  apply orFail_keeping
  apply Frame.get_bind
  intro _
  apply Frame.lift_bind
  intro _
  apply Frame.bind workTime_keeping
  intro _
  apply Frame.get_bind
  intro _
  apply Frame.need_bind
  intro _
  split
  · exact editing_keeping
  · exact invalidating_keeping
  · exact releasing_keeping

theorem beginMap_keeping {range : RangeId} {id : BindingId} {offset deadline : Nat} {source : Source E} :
    Keeping (beginMap port range id offset source deadline) := by
  apply Frame.bind stable_keeping
  intro _
  apply Frame.get_bind
  intro _
  apply Frame.lift_bind
  intro _
  apply Frame.failIf_bind
  apply Frame.get_bind
  intro _
  apply Frame.failIf_bind
  apply Frame.failIf_bind
  apply (callback_keeping _).bind
  intro _
  apply Frame.failIf_bind
  apply Frame.get_bind
  intro _
  apply Frame.lift_bind
  intro _
  apply update_bind_keeping
  · exact fun _ => rfl
  · exact fun _ => log_keeping _

theorem beginUnmap_keeping {id : BindingId} {deadline : Nat} {quiesced : Bool} :
    Keeping (beginUnmap port id deadline quiesced) := by
  apply Frame.bind stable_keeping
  intro _
  apply Frame.get_bind
  intro _
  apply Frame.lift_bind
  intro _
  apply Frame.failIf_bind
  apply (callback_keeping _).bind
  intro _
  apply Frame.failIf_bind
  apply update_bind_keeping
  · exact fun _ => rfl
  · exact fun _ => log_keeping _

/-! ## The ranges of a reachable owner -/

/-- What every call keeps: the ranges in order inside a valid window, and an owner that is attached
only when it is prepared. -/
structure Owner.Sound (o : Owner E) : Prop where
  listed : o.Listed
  fresh : o.prepared = false → o.ranges = []
  window : o.prepared = true → extent o.base o.bytes = .ok ()
  live : o.attached = true → o.prepared = true ∧ o.epoch ≠ 0

theorem Owner.Listed.congr {o o' : Owner E} (h : o.Listed) (hs : o'.shelf = o.shelf) : o'.Listed := by
  obtain ⟨hranges, hbase, hbytes, -, -, -⟩ := Shelf.mk.inj hs
  constructor
  · rw [hranges]
    exact h.extent
  · rw [hranges]
    exact h.sorted
  · rw [hranges]
    exact h.names
  · rw [hranges]
    exact h.serial
  · rw [hranges, hbase, hbytes]
    exact h.inside

theorem Owner.Sound.congr {o o' : Owner E} (h : o.Sound) (hs : o'.shelf = o.shelf) : o'.Sound := by
  obtain ⟨hranges, hbase, hbytes, hprepared, hattached, hepoch⟩ := Shelf.mk.inj hs
  constructor
  · exact h.listed.congr hs
  · rw [hranges, hprepared]
    exact h.fresh
  · rw [hprepared, hbase, hbytes]
    exact h.window
  · rw [hattached, hprepared, hepoch]
    exact h.live

/-- The owner stays sound and gets no new range. -/
structure Owner.Kept (o o' : Owner E) : Prop where
  sound : o'.Sound
  ranges : o'.ranges ⊆ o.ranges

theorem Owner.Sound.kept {o o' : Owner E} (h : o.Sound) (hs : o'.shelf = o.shelf) : o.Kept o' :=
  ⟨h.congr hs, by rw [show o'.ranges = o.ranges from (Shelf.mk.inj hs).1]; exact fun _ hr => hr⟩

theorem Owner.Kept.trans {o o' o'' : Owner E} (h : o.Kept o') (h' : o'.Kept o'') : o.Kept o'' :=
  ⟨h'.sound, fun _ hr => h.ranges (h'.ranges hr)⟩

theorem Listed.nil {o : Owner E} (h : o.ranges = []) : o.Listed := by
  constructor <;> simp [h]

theorem sound_empty : ({} : Owner E).Sound :=
  ⟨Listed.nil rfl, fun _ => rfl, nofun, nofun⟩

theorem kept_empty {o : Owner E} : o.Kept {} := ⟨sound_empty, List.nil_subset _⟩

theorem Owner.Listed.insert {id : RangeId} {bytes a : Nat} (serial : Nat)
    {before after : List Range} {o : Owner E}
    (h : o.Listed) (hsplit : before ++ after = o.ranges) (hext : Vm.extent a bytes = .ok ())
    (hlow : ∀ r ∈ before, r.address + r.bytes ≤ a) (hhigh : ∀ r ∈ after, a + bytes ≤ r.address)
    (hid : ∀ r ∈ o.ranges, r.id ≠ id) (hin : o.base ≤ a ∧ a + bytes ≤ o.base + o.bytes) :
    Owner.Listed { o with serial := serial + 1, ranges := before ++ ⟨id, serial + 1, a, bytes⟩ :: after } := by
  have hbooks : Books (E := E) (before ++ after) [] :=
    ⟨hsplit ▸ h.extent, hsplit ▸ h.sorted, hsplit ▸ h.names, nofun, nofun, .nil⟩
  obtain ⟨hnew, -⟩ := hbooks.reserve (x := ⟨id, serial + 1, a, bytes⟩) hext hlow hhigh (hsplit ▸ hid)
  have hmem (r : Range) (hr : r ∈ before ++ ⟨id, serial + 1, a, bytes⟩ :: after) :
      r = ⟨id, serial + 1, a, bytes⟩ ∨ r ∈ o.ranges := by
    rw [← hsplit]
    simp only [List.mem_append, List.mem_cons] at hr ⊢
    tauto
  refine ⟨hnew.extent, hnew.sorted, hnew.names, fun r hr => ?_, fun r hr => ?_⟩
  · rcases hmem r hr with rfl | hr
    · exact Nat.succ_ne_zero _
    · exact h.serial r hr
  · rcases hmem r hr with rfl | hr
    · exact hin
    · exact h.inside r hr

theorem Owner.Listed.filter {o : Owner E} (h : o.Listed) (p : Range → Bool) :
    Owner.Listed { o with ranges := o.ranges.filter p } := by
  have hmem {r : Range} (hr : r ∈ o.ranges.filter p) : r ∈ o.ranges := (List.mem_filter.mp hr).1
  exact ⟨fun r hr => h.extent r (hmem hr), h.sorted.filter _, h.names.filter _,
    fun r hr => h.serial r (hmem hr), fun r hr => h.inside r (hmem hr)⟩

/-! ## Calls -/

theorem stable_live : Spec (stable port) w
    (fun _ w' => w'.owner = w.owner ∧ (w.owner.prepared = true ∧ w.owner.epoch ≠ 0) ∧
      (port.io.generation w.env).1 = w.owner.epoch)
    fun e w' => w'.owner = w.owner ∧ e ≠ .Exhausted := by
  unfold stable
  refine .get_bind (.failIf_bind (fun _ => ⟨rfl, by decide⟩) fun hlive => ?_)
  refine callback_bind (.failIf_bind (fun _ => ⟨rfl, by decide⟩) fun hgeneration => ?_)
  apply Spec.ends
  · exact fun _ => ⟨rfl, by decide⟩
  · intro _
    rw [not_or] at hlive
    exact ⟨rfl, ⟨by simpa using hlive.1, hlive.2⟩, Decidable.not_not.mp hgeneration⟩

theorem prepare_kept {epoch base bytes : Nat} (h : w.owner.Sound) :
    Spec (prepare port epoch base bytes) w (fun _ w' => w.owner.Kept w'.owner)
      fun _ w' => w.owner.Kept w'.owner := by
  have hsame : w.owner.Kept w.owner := h.kept rfl
  unfold prepare
  refine .get_bind (.failIf_bind (fun _ => hsame) fun hprepared => ?_)
  have hfresh : w.owner.prepared = false := by simpa using hprepared
  refine .lift_bind (fun _ _ => hsame) fun _ hextent => ?_
  refine .failIf_bind (fun _ => hsame) fun hepoch => ?_
  refine callback_bind (.failIf_bind (fun _ => hsame) fun _ => ?_)
  apply update_bind
  have hs : w.owner.Kept { w.owner with prepared := true, epoch, base, bytes } :=
    ⟨⟨Listed.nil (h.fresh hfresh), nofun, fun _ => hextent, fun _ => ⟨rfl, hepoch⟩⟩, fun _ hr => hr⟩
  apply Spec.seq (orFail_keeping createTable_keeping _)
  · intro root w₁ h₁
    exact hs.trans (hs.sound.kept h₁)
  · intro _ w₁ h₁
    exact hs.trans (hs.sound.kept h₁)

theorem close_kept (h : w.owner.Sound) :
    Spec (close port) w (fun _ w' => w.owner.Kept w'.owner) fun _ w' => w.owner.Kept w'.owner := by
  unfold close
  apply Spec.get_bind
  dsimp only
  split
  · exact h.kept rfl
  refine .seq (stable_keeping w) (fun _ w₁ h₁ => ?_) fun _ w₁ h₁ => h.kept h₁
  have h₁ := h.kept h₁
  refine .failIf_bind (fun _ => h₁) fun _ => ?_
  split
  · exact kept_empty
  rename_i root _
  refine .seq (tableValid_keeping w₁) (fun _ w₂ h₂ => ?_) fun _ w₂ h₂ => h₁.trans (h₁.sound.kept h₂)
  have h₂ := h₁.trans (h₁.sound.kept h₂)
  refine .get_bind (.failIf_bind (fun _ => h₂) fun _ => ?_)
  refine update_bind (log_bind (callback_bind ?_))
  split
  · exact h₂.trans (h₂.sound.kept rfl)
  · exact kept_empty

theorem bindSubmitted_keeping : Keeping (bindSubmitted port) := by
  apply Frame.bind rootAddress_keeping
  intro _
  apply Frame.get_bind
  intro _
  apply Frame.failIf_bind
  exact update_keeping fun _ => rfl

theorem bindConfirmed_kept (h : w.owner.Sound) :
    Spec (bindConfirmed port) w (fun _ w' => w.owner.Kept w'.owner)
      fun _ w' => w.owner.Kept w'.owner := by
  unfold bindConfirmed
  refine .seq stable_live (fun _ w₁ h₁ => ?_) fun _ w₁ h₁ => h.kept (congrArg Owner.shelf h₁.1)
  obtain ⟨howner, hlive, -⟩ := h₁
  have h₁ : w.owner.Kept w₁.owner := h.kept (congrArg Owner.shelf howner)
  refine .get_bind (.failIf_bind (fun _ => h₁) fun _ => ?_)
  obtain ⟨hs, hranges⟩ := h₁
  exact ⟨⟨⟨hs.listed.extent, hs.listed.sorted, hs.listed.names, hs.listed.serial, hs.listed.inside⟩,
    hs.fresh, hs.window, fun _ => howner ▸ hlive⟩, hranges⟩

theorem unbindConfirmed_kept (h : w.owner.Sound) :
    Spec (unbindConfirmed port) w (fun _ w' => w.owner.Kept w'.owner)
      fun _ w' => w.owner.Kept w'.owner := by
  unfold unbindConfirmed
  refine .seq (stable_keeping w) (fun _ w₁ h₁ => ?_) fun _ w₁ h₁ => h.kept h₁
  have h₁ := h.kept h₁
  refine .get_bind (.failIf_bind (fun _ => h₁) fun _ => ?_)
  obtain ⟨hs, hranges⟩ := h₁
  exact ⟨⟨⟨hs.listed.extent, hs.listed.sorted, hs.listed.names, hs.listed.serial, hs.listed.inside⟩,
    hs.fresh, hs.window, nofun⟩, hranges⟩

/-- One range of the list is new. -/
def Grown (x : Range) (ranges ranges' : List Range) : Prop :=
  ∃ before after, ranges = before ++ after ∧ ranges' = before ++ x :: after

theorem Grown.mem {x r : Range} {ranges ranges' : List Range} (h : Grown x ranges ranges')
    (hr : r ∈ ranges') : r = x ∨ r ∈ ranges := by
  obtain ⟨before, after, rfl, rfl⟩ := h
  simp only [List.mem_append, List.mem_cons] at hr ⊢
  exact or_left_comm.mp hr

theorem extent_error {address bytes : Nat} {e : Error} (h : extent address bytes = .error e) :
    e ≠ .Exhausted := by
  unfold extent at h
  split_ifs at h <;> cases h <;> decide

theorem rangeValid_error {o : Owner E} {id : RangeId} {e : Error} (h : o.rangeValid id = .error e) :
    e ≠ .Exhausted := by
  unfold Owner.rangeValid at h
  split at h
  · cases h
    decide
  split at h
  · cases h
    decide
  split at h
  · cases h
    exact extent_error ‹_›
  split_ifs at h <;> cases h <;> decide

theorem fit_error {o : Owner E} {bytes alignment fixed address : Nat} {before l : List Range}
    {e : Error} (h : o.fit bytes alignment fixed address before l = .error e) : e ≠ .Exhausted := by
  induction l generalizing before address with
  | nil => cases h
  | cons x l ih =>
    rw [Owner.fit] at h
    split at h
    · cases h
      exact rangeValid_error ‹_›
    split at h
    · cases h
    split at h
    · split at h
      · cases h
        decide
      · dsimp only at h
        split at h
        · cases h
          exact extent_error ‹_›
        · exact ih h
    · exact ih h

/-- A reservation by any sound owner: a new range in a gap, or the owner as it was. -/
theorem reserve_sound {id : RangeId} {bytes alignment fixed : Nat} (h : w.owner.Sound) :
    Spec (reserve port id bytes alignment fixed) w
      (fun a w' => w'.owner.Sound ∧
        Grown ⟨id, w'.owner.serial, a, bytes⟩ w.owner.ranges w'.owner.ranges)
      fun e w' => w'.owner = w.owner ∧ (e = .Exhausted → w.owner.serial = maxU64) := by
  unfold reserve
  refine .seq stable_live (fun _ w₁ h₁ => ?_) fun _ w₁ h₁ => ⟨h₁.1, fun he => absurd he h₁.2⟩
  obtain ⟨howner, ⟨hprepared, -⟩, -⟩ := h₁
  have h₁ : w₁.owner.Sound := howner ▸ h
  have hkept {e : Error} (he : e ≠ .Exhausted) :
      w₁.owner = w.owner ∧ (e = .Exhausted → w.owner.serial = maxU64) :=
    ⟨howner, fun heq => absurd heq he⟩
  refine .get_bind (.failIf_bind (fun _ => hkept (by decide)) fun hbusy => ?_)
  refine .failIf_bind (fun _ => hkept (by decide)) fun hbad => ?_
  dsimp only
  generalize (if fixed ≠ 0 then fixed else
    Owner.alignForward (max w₁.owner.base 0x100000000) alignment) = start
  refine .failIf_bind (fun _ => hkept (by decide)) fun _ => ?_
  refine .lift_bind (fun _ he => hkept (extent_error he)) fun _ hext => ?_
  refine .lift_bind (fun _ he => hkept (fit_error he)) fun ⟨a, before, after⟩ hok => ?_
  have hpos : 0 < alignment := by omega
  obtain ⟨hsplit, hexta, hlow, hhigh⟩ :=
    fit_ok hpos (by simpa using h₁.listed.sorted) (by simp) hext hok
  refine .failIf_bind (fun _ => hkept (by decide)) fun hin => ?_
  unfold nextSerial
  refine .bind (.get_bind (.failIf_bind (fun hmax => ⟨howner, fun _ => howner ▸ hmax⟩) fun _ => ?_))
  have hid : ∀ r ∈ w₁.owner.ranges, r.id ≠ id := by
    intro r hr heq
    exact hbusy (.inr (.inr (List.any_eq_true.mpr ⟨r, hr, by simpa using heq⟩)))
  have hl := h₁.listed.insert w₁.owner.serial hsplit hexta hlow hhigh hid (by omega)
  refine ⟨⟨hl, fun hfalse => ?_, h₁.window, h₁.live⟩, before, after, ?_, rfl⟩
  rotate_left
  · rw [hsplit, List.nil_append, howner]
  have hfalse : w₁.owner.prepared = false := hfalse
  rw [howner, hprepared] at hfalse
  cases hfalse

/-- A release takes the range out of the list, or leaves the owner as it was. -/
theorem releaseRange_sound {id : RangeId} (h : w.owner.Sound) :
    Spec (releaseRange port id) w
      (fun _ w' => w'.owner.Sound ∧ w'.owner.ranges = w.owner.ranges.filter (·.id ≠ id))
      fun _ w' => w'.owner = w.owner := by
  unfold releaseRange
  refine .seq stable_live (fun _ w₁ h₁ => ?_) fun _ w₁ h₁ => h₁.1
  obtain ⟨howner, -, -⟩ := h₁
  have h₁ : w₁.owner.Sound := howner ▸ h
  refine .get_bind (.lift_bind (fun _ _ => howner) fun r _ => ?_)
  refine .failIf_bind (fun _ => howner) fun _ => ?_
  refine ⟨⟨h₁.listed.filter _, fun hfalse => ?_, h₁.window, h₁.live⟩, by rw [← howner]⟩
  have hnil : w₁.owner.ranges = [] := h₁.fresh hfalse
  simp [hnil]

/-- A call that is no reservation keeps the owner sound and adds no range. -/
theorem call_kept (h : w.owner.Sound) {op : Op E}
    (hop : ∀ id bytes alignment fixed, op ≠ .reserve id bytes alignment fixed) :
    Spec (call port op) w (fun _ w' => w.owner.Kept w'.owner) fun _ w' => w.owner.Kept w'.owner := by
  have hkeep {α : Type} {x : VmCall E α} (hx : Keeping x) :
      Spec x w (fun _ w' => w.owner.Kept w'.owner) fun _ w' => w.owner.Kept w'.owner :=
    (hx w).mono (fun _ _ hs => h.kept hs) fun _ _ hs => h.kept hs
  have hend {α : Type} {x : VmCall E α} {f : α → Answer}
      (hx : Spec x w (fun _ w' => w.owner.Kept w'.owner) fun _ w' => w.owner.Kept w'.owner) :
      Spec (x >>= fun a => pure (f a)) w (fun _ w' => w.owner.Kept w'.owner)
        fun _ w' => w.owner.Kept w'.owner := .bind hx
  cases op with
  | prepare epoch base bytes => exact hend (prepare_kept h)
  | rootAddress => exact hend (hkeep rootAddress_keeping)
  | bindSubmitted => exact hend (hkeep bindSubmitted_keeping)
  | bindConfirmed => exact hend (bindConfirmed_kept h)
  | unbindConfirmed => exact hend (unbindConfirmed_kept h)
  | reserve id bytes alignment fixed => exact absurd rfl (hop id bytes alignment fixed)
  | releaseRange id =>
    refine hend ((releaseRange_sound h).mono (fun _ w' hs => ⟨hs.1, fun r hr => ?_⟩)
      fun _ w' hs => h.kept (congrArg Owner.shelf hs))
    exact (List.mem_filter.mp (hs.2 ▸ hr)).1
  | beginMap range id offset source deadline => exact hend (hkeep beginMap_keeping)
  | beginUnmap id deadline quiesced => exact hend (hkeep beginUnmap_keeping)
  | poll id => exact hend (hkeep poll_keeping)
  | close => exact hend (close_kept h)

/-! ## When a request succeeds -/

/-- A request fits at an address: aligned, inside the window, apart from every range. -/
structure Owner.Fits (o : Owner E) (bytes alignment a : Nat) : Prop where
  aligned : alignment ∣ a
  inside : o.base ≤ a ∧ a + bytes ≤ o.base + o.bytes
  free : ∀ r ∈ o.ranges, a + bytes ≤ r.address ∨ r.address + r.bytes ≤ a

theorem Owner.Sound.gap_iff {o : Owner E} {bytes alignment fixed a : Nat} (hs : o.Sound)
    (hp : o.prepared = true) (ha : Aligns alignment) (hbytes : 0 < bytes ∧ bytes % 4096 = 0) :
    o.Gap bytes alignment fixed a ↔
      (if fixed ≠ 0 then a = fixed else max o.base 0x100000000 ≤ a) ∧ o.Fits bytes alignment a := by
  constructor
  · intro hg
    exact ⟨hg.place, hg.aligned, hg.inside, hg.free⟩
  · rintro ⟨hplace, hf⟩
    obtain ⟨-, hlimit, -, -⟩ := extent_ok.1 (hs.window hp)
    have hpage := Nat.mod_eq_zero_of_dvd (Nat.dvd_trans ha.page hf.aligned)
    have := hf.inside
    exact ⟨hplace, hf.aligned, extent_ok.2 ⟨hbytes.1, by omega, hpage, hbytes.2⟩, hf.inside, hf.free⟩

/-- The device is still on the owner's generation, and there are serials left. -/
structure World.Serving (port : Port E) (w : World E) : Prop where
  generation : (port.io.generation w.env).1 = w.owner.epoch
  serial : w.owner.serial ≠ maxU64

theorem reserve_serving {id : RangeId} {bytes alignment fixed : Nat} :
    Spec (reserve port id bytes alignment fixed) w
      (fun _ _ => w.Serving port ∧ (alignment &&& (alignment - 1) = 0 → alignment ∣ fixed))
      fun _ _ => True := by
  unfold reserve
  refine .seq stable_live (fun _ w₁ h₁ => ?_) fun _ _ _ => trivial
  obtain ⟨howner, -, hgeneration⟩ := h₁
  refine .get_bind (.failIf_bind (fun _ => trivial) fun _ => ?_)
  refine .failIf_bind (fun _ => trivial) fun hbad => ?_
  refine .failIf_bind (fun _ => trivial) fun hmask => ?_
  refine .lift_bind (fun _ _ => trivial) fun _ _ => ?_
  refine .lift_bind (fun _ _ => trivial) fun ⟨a, before, after⟩ _ => ?_
  refine .failIf_bind (fun _ => trivial) fun _ => ?_
  unfold nextSerial
  refine .bind (.get_bind (.failIf_bind (fun _ => trivial) fun hserial => ?_))
  refine ⟨⟨hgeneration, howner ▸ hserial⟩, fun hpower => ?_⟩
  have haligns : Aligns alignment := ⟨by omega, by omega, hpower⟩
  by_cases hf : fixed = 0
  · exact hf ▸ Nat.dvd_zero alignment
  · rw [if_pos hf] at hmask
    exact haligns.mask.1 (Decidable.not_not.mp hmask)

/-- The requests of a reachable owner that is attached and idle. -/
theorem reserve_least (hs : w.owner.Sound) (hf : w.owner.failure = none)
    (hattached : w.owner.attached = true) (hidle : w.owner.work = none) {id : RangeId}
    {bytes alignment fixed a : Nat} (hid : ∀ r ∈ w.owner.ranges, r.id ≠ id) (ha : Aligns alignment)
    (hbytes : 0 < bytes ∧ bytes % 4096 = 0) :
    (∃ w', reserve port id bytes alignment fixed w = .ok a w') ↔
      w.Serving port ∧ IsLeast (fun x => w.owner.Gap bytes alignment fixed x) a := by
  obtain ⟨hprepared, hepoch⟩ := hs.live hattached
  constructor
  · rintro ⟨w', hok⟩
    obtain ⟨hserving, hdvd⟩ := reserve_serving.ok hok
    have hhealthy : w.Healthy port :=
      ⟨⟨hprepared, hepoch, hf, hattached, hidle, hs.listed⟩, hserving.generation⟩
    obtain ⟨-, hgap, hleast, -⟩ := (reserve_spec hhealthy hid ha hbytes (hdvd ha.power)).ok hok
    exact ⟨hserving, hgap, hleast⟩
  · rintro ⟨hserving, hgap, hleast⟩
    have hhealthy : w.Healthy port :=
      ⟨⟨hprepared, hepoch, hf, hattached, hidle, hs.listed⟩, hserving.generation⟩
    have hdvd : alignment ∣ fixed := by
      by_cases hzero : fixed = 0
      · exact hzero ▸ Nat.dvd_zero alignment
      · have hplace := hgap.place
        rw [if_pos hzero] at hplace
        exact hplace ▸ hgap.aligned
    have hspec := reserve_spec hhealthy hid ha hbytes hdvd
    cases hok : reserve port id bytes alignment fixed w with
    | ok a' w' =>
      obtain ⟨-, hgap', hleast', -⟩ := hspec.ok hok
      have heq : a' = a := Nat.le_antisymm (hleast' a hgap) (hleast hgap')
      exact ⟨w', by rw [heq]⟩
    | error e w' =>
      rcases (hspec.error hok).1 with hmax | hroom
      · exact absurd hmax hserving.serial
      · exact absurd ⟨a, hgap⟩ hroom

end Vm
end NvidiaGsp
