import NvidiaGsp.Vm.Books
import NvidiaGsp.Vm.OwnerTrace
import NvidiaGsp.Vm.Shape

/-!
# Vm.Refines

The page tables of an owner that has not failed hold exactly its bindings. `Mapped` joins the tree,
the books and the pages that the bindings and the work in progress ask for; every call keeps it, or
leaves the owner failed. Between two pieces of work a walk from the root then gives the page word of
the mapped binding at an address, and zero where there is none.
-/

namespace NvidiaGsp
namespace Vm

open Call Radix

variable {E : Type} {port : Port E} {law : Lawful port} {w w' : World E} {root : TableId}
  {M : Nat → Nat} {k k' : Work} {binding : Binding E}

/-! ## The work while the tables change -/

theorem createTable_work {level : Level} {address : Nat} {parent : Option TableId} :
    Spec (createTable port level address parent) w
      (fun _ w' => w'.owner.work = w.owner.work) (fun _ _ => True) := by
  unfold createTable
  refine .lift_bind (fun _ _ => trivial) fun key _ => ?_
  refine .get_bind (.failIf_bind (fun _ => trivial) fun _ => ?_)
  refine callback_bind (.lift_bind (fun _ _ => trivial) fun ⟨id, t⟩ _ => ?_)
  refine .failIf_bind (fun _ => trivial) fun _ => ?_
  refine callback_bind (.failIf_bind (fun _ => trivial) fun _ => ?_)
  refine .lift_bind (fun _ _ => trivial) fun _ _ => ?_
  exact .failIf_bind (fun _ => trivial) fun _ => rfl

theorem linkChild_work {create : Bool} {level : Level} {address slot : Nat} {parent : TableId} :
    Spec (linkChild port create level address parent slot) w
      (fun _ w' => w'.owner.work = w.owner.work) (fun _ _ => True) := by
  unfold linkChild
  refine .get_bind (.failIf_bind (fun _ => trivial) fun _ => ?_)
  refine .seq createTable_work (fun child w₁ h₁ => ?_) fun _ _ _ => trivial
  exact .get_bind (.lift_bind (fun _ _ => trivial) fun word _ => h₁)

theorem tableValid_work {id : TableId} :
    Spec (tableValid port id) w (fun _ w' => w'.owner.work = w.owner.work) (fun _ _ => True) :=
  (tableValid_spec (keeps_true port) trivial).mono (fun _ _ q => by rw [q.owner]) fun _ _ _ => trivial

theorem descend_work {create : Bool} {address : Nat} {levels : List Level} {parent : TableId} :
    Spec (descend port create address levels parent) w
      (fun _ w' => w'.owner.work = w.owner.work) (fun _ _ => True) := by
  induction levels generalizing w parent with
  | nil => exact .pure rfl
  | cons level levels ih =>
    unfold descend
    refine .seq tableValid_work (fun _ w₁ h₁ => ?_) fun _ _ _ => trivial
    refine .get_bind (.lift_bind (fun _ _ => trivial) fun slot _ => ?_)
    refine .lift_bind (fun _ _ => trivial) fun key _ => .get_bind ?_
    have hrest (child : TableId) (w₂ : World E) (h₂ : w₂.owner.work = w.owner.work) :
        Spec (do
          tableValid port child
          let w ← get
          let word ← lift (directory (w.heap child).dma)
          failIf ((w.heap child).retiring = true ∨ (w.heap child).parent ≠ some parent ∨
            (w.heap child).level ≠ level ∨ (w.heap parent).words slot ≠ word ∨
            (w.heap parent).level = .dual ∧ (w.heap parent).words (slot - 1) ≠ 0) .Descriptor
          descend port create address levels child) w₂
          (fun _ w' => w'.owner.work = w.owner.work) (fun _ _ => True) := by
      refine .seq tableValid_work (fun _ w₃ h₃ => ?_) fun _ _ _ => trivial
      refine .get_bind (.lift_bind (fun _ _ => trivial) fun word _ => ?_)
      refine .failIf_bind (fun _ => trivial) fun _ => ?_
      exact ih.mono (fun _ _ h => h.trans (h₃.trans h₂)) fun _ _ _ => trivial
    split
    · exact .bind (.pure (hrest _ _ h₁))
    · exact .seq linkChild_work (fun child w₂ h₂ => hrest child w₂ (h₂.trans h₁))
        fun _ _ _ => trivial

theorem retireEmpty_work {depth : Nat} {cursor : TableId} :
    Spec (retireEmpty port depth cursor) w (fun _ w' => w'.owner.work = w.owner.work)
      (fun _ _ => True) := by
  induction depth generalizing w cursor with
  | zero => exact .pure rfl
  | succ depth ih =>
    unfold retireEmpty
    refine .get_bind ?_
    split
    · exact .pure rfl
    · split
      · exact .pure rfl
      refine .seq tableValid_work (fun _ w₁ h₁ => ?_) fun _ _ _ => trivial
      refine .seq tableValid_work (fun _ w₂ h₂ => ?_) fun _ _ _ => trivial
      refine .get_bind (.failIf_bind (fun _ => trivial) fun _ => ?_)
      refine .lift_bind (fun _ _ => trivial) fun slot _ => .lift_bind (fun _ _ => trivial) fun word _ => ?_
      refine .failIf_bind (fun _ => trivial) fun _ => .bind ?_
      exact ih.mono (fun _ _ h => h.trans (h₂.trans h₁)) fun _ _ _ => trivial

theorem editPage_work {range : Range} {work : Work} :
    Spec (editPage port range binding work) w
      (fun _ w' => w'.owner.work = w.owner.work.map fun k => { k with offset := k.offset + 4096 })
      (fun _ _ => True) := by
  unfold editPage
  refine .get_bind (.lift_bind (fun _ _ => trivial) fun physical _ => ?_)
  refine .lift_bind (fun _ _ => trivial) fun word _ => ?_
  have hleaf {address : Nat} {create : Bool} : Spec (leaf port address create) w
      (fun _ w' => w'.owner.work = w.owner.work) (fun _ _ => True) := by
    unfold leaf
    exact .get_bind (.need_bind (fun _ => trivial) fun _ _ => descend_work)
  refine .seq hleaf (fun table w₁ h₁ => ?_) fun _ _ _ => trivial
  refine .get_bind (.lift_bind (fun _ _ => trivial) fun slot _ => ?_)
  split
  · refine .failIf_bind (fun _ => trivial) fun _ => ?_
    show w₁.owner.work.map _ = _
    rw [h₁]
  · refine .failIf_bind (fun _ => trivial) fun _ => ?_
    refine .bind (?_ : Spec (retireEmpty port 5 table >>= _) _ _ _)
    refine .seq retireEmpty_work (fun _ w₂ h₂ => ?_) fun _ _ _ => trivial
    show w₂.owner.work.map _ = _
    rw [h₂]
    show w₁.owner.work.map _ = _
    rw [h₁]

/-! ## The invariant -/

structure Mapped (law : Lawful port) (w : World E) (root : TableId) (M : Nat → Nat) : Prop where
  prepared : w.owner.prepared = true
  shape : Shape law w root M none
  books : Books w.owner.ranges w.owner.bindings
  maps : Maps w.owner.ranges w.owner.bindings w.owner.work M
  busy : Busy w.owner.bindings w.owner.work

/-- An owner that has not failed is unused, or its tables hold its bindings. -/
def Refines (law : Lawful port) (w : World E) : Prop :=
  w.owner.failure = none → w.owner = {} ∨ ∃ root M, Mapped law w root M

theorem Mapped.holds (h : Mapped law w root M) : law.Holds w.owner.tables w.heap w.env := h.shape.held

theorem Shape.of_eq {exc : Option TableId} (h : Shape law w root M exc)
    (hroot : w'.owner.root = w.owner.root) (htables : w'.owner.tables = w.owner.tables)
    (hret : w'.owner.retired = w.owner.retired) (hheap : w'.heap = w.heap)
    (henv : law.Holds w.owner.tables w.heap w'.env) : Shape law w' root M exc := by
  refine ⟨hroot.trans h.root, ?_, ?_, ?_, ?_⟩
  · rw [htables, hheap]
    exact h.tree
  · rw [htables, hheap, hret]
    exact h.retired
  · rw [hret]
    exact h.nodup
  · rw [htables, hheap]
    exact henv

theorem Mapped.quiet (h : Mapped law w root M)
    (q : Quiet (law.Holds w.owner.tables w.heap) w w') : Mapped law w' root M := by
  refine ⟨?_, h.shape.quiet q, ?_, ?_, ?_⟩
  · rw [q.owner]
    exact h.prepared
  · rw [q.owner]
    exact h.books
  · rw [q.owner]
    exact h.maps
  · rw [q.owner]
    exact h.busy

theorem Refines.quiet (h : Refines law w)
    (q : Quiet (law.Holds w.owner.tables w.heap) w w') : Refines law w' := by
  intro hf
  rw [q.owner] at hf
  rcases h hf with h | ⟨root, M, h⟩
  · exact .inl (q.owner.trans h)
  · exact .inr ⟨root, M, h.quiet q⟩

/-- The work changes, but neither its binding nor its place. -/
theorem Mapped.rework (k' : Work) (h : Mapped law w root M) (hk : w.owner.work = some k)
    (ho : w'.owner = { w.owner with work := some k', serial := w'.owner.serial })
    (hheap : w'.heap = w.heap) (henv : law.Holds w.owner.tables w.heap w'.env)
    (hb : k'.binding = k.binding) (hm : k'.mapping = k.mapping) (hof : k'.offset = k.offset)
    (hend : k'.phase ≠ .editing → k.phase ≠ .editing ∨
      ∀ b, Working w.owner.bindings k b → k.offset = b.source.bytes) : Mapped law w' root M := by
  have hmaps := h.maps
  have hbusy := h.busy
  rw [hk] at hmaps hbusy
  refine ⟨by rw [ho]; exact h.prepared, h.shape.of_eq (by rw [ho]) (by rw [ho]) (by rw [ho]) hheap henv,
    by rw [ho]; exact h.books, by rw [ho]; exact hmaps.congr hb hm hof, ?_⟩
  rw [ho]
  rintro _ ⟨⟩
  obtain ⟨b, hw⟩ := hbusy k rfl
  refine ⟨b, hw.mem, hw.id.trans hb.symm, by rw [hm]; exact hw.mapped, by rw [hof]; exact hw.aligned,
    by rw [hof]; exact hw.le, fun hp => ?_⟩
  rw [hof]
  rcases hend hp with hp | hp
  · exact hw.ended hp
  · exact hp b hw

/-! ## Editing -/

theorem Mapped.editPage (h : Mapped law w root M) (hk : w.owner.work = some k)
    (hw : Working w.owner.bindings k binding) (hp : k.phase = .editing)
    (hlt : k.offset < binding.source.bytes) {range : Range} (hr : range ∈ w.owner.ranges)
    (hid : range.id = binding.range) {work : Work} (hwo : work.offset = k.offset)
    (hwm : work.mapping = k.mapping) :
    Spec (editPage port range binding work) w
      (fun _ w' => ∃ M' k', Mapped law w' root M' ∧ w'.owner.work = some k' ∧
        k'.phase = .editing ∧ Working w'.owner.bindings k' binding) (fun _ _ => True) := by
  have hc : Covers w.owner.ranges binding (range.address + binding.offset + work.offset) k.offset :=
    ⟨range, hr, hid, by rw [hwo], hlt⟩
  have hva := hc.lt h.books hw.mem
  refine (((editPage_shape h.shape hva).both editPage_edits).both editPage_work).mono
    (fun _ w₁ h₁ => ?_) fun _ _ _ => trivial
  obtain ⟨⟨⟨e, pa, word, hpa, hword, hshape⟩, hedits⟩, hwork⟩ := h₁
  obtain ⟨tables, retired, work₁, ho⟩ := hedits.owner
  rw [hk] at hwork
  have hwork : w₁.owner.work = some { k with offset := k.offset + 4096 } := hwork
  have hmaps := h.maps
  rw [hk] at hmaps
  have hnext : Working w.owner.bindings { k with offset := k.offset + 4096 } binding := by
    have hal := hw.aligned
    have hbytes := (h.books.aligned binding hw.mem).2
    refine ⟨hw.mem, hw.id, hw.mapped, ?_, ?_, fun hn => absurd hp hn⟩
    · show 4096 ∣ k.offset + 4096
      omega
    · show k.offset + 4096 ≤ binding.source.bytes
      omega
  have hranges : w₁.owner.ranges = w.owner.ranges := by rw [ho]
  have hbindings : w₁.owner.bindings = w.owner.bindings := by rw [ho]
  rw [hwo] at hpa
  rw [hwm] at hshape
  refine ⟨_, _, ⟨by rw [ho]; exact h.prepared, hshape, by rw [hranges, hbindings]; exact h.books, ?_, ?_⟩,
    hwork, hp, by rw [hbindings]; exact hnext⟩
  · rw [hranges, hbindings, hwork]
    exact hmaps.edit h.books hw hc ⟨e, pa, hpa, hword⟩ rfl rfl rfl
  · rw [hbindings, hwork]
    rintro _ ⟨⟩
    exact ⟨binding, hnext⟩

/-- The clock of the work ticks. -/
theorem Mapped.workTime (h : Mapped law w root M) (hk : w.owner.work = some k) :
    Spec (workTime port) w
      (fun now w' => Mapped law w' root M ∧ w'.owner.bindings = w.owner.bindings ∧
        w'.owner.work = some { k with lastTime := now }) (fun _ _ => True) := by
  refine (workTime_spec (law.keeps_holds w.owner.tables w.heap) h.holds).mono (fun now w₁ h₁ => ?_)
    fun _ _ _ => trivial
  obtain ⟨work, hwork, hheap, -, henv, ho⟩ := h₁
  obtain rfl : k = work := Option.some.inj (hk.symm.trans hwork)
  refine ⟨h.rework { k with lastTime := now } hk (by rw [ho]) hheap henv rfl rfl rfl
    fun hp => .inl hp, by rw [ho], by rw [ho]⟩

theorem edit_mapped {started left : Nat} (h : Mapped law w root M) (hk : w.owner.work = some k)
    (hw : Working w.owner.bindings k binding) (hp : k.phase = .editing) :
    Spec (edit port binding started left) w
      (fun _ w' => ∃ M' k', Mapped law w' root M' ∧ w'.owner.work = some k' ∧
        k'.phase = .editing ∧ Working w'.owner.bindings k' binding) (fun _ _ => True) := by
  induction left generalizing w M k with
  | zero => exact .pure ⟨M, k, h, hk, hp, hw⟩
  | succ left ih =>
    unfold edit
    refine .get_bind (.need_bind (fun _ => trivial) fun work hwork => ?_)
    obtain rfl : k = work := Option.some.inj (hk.symm.trans hwork)
    split
    · rename_i hlt
      refine .seq (h.workTime hk) (fun now w₁ h₁ => ?_) fun _ _ _ => trivial
      obtain ⟨h₁, hb₁, hk₁⟩ := h₁
      have hw₁ : Working w₁.owner.bindings { k with lastTime := now } binding := by
        rw [hb₁]
        exact ⟨hw.mem, hw.id, hw.mapped, hw.aligned, hw.le, hw.ended⟩
      split
      · exact .pure ⟨M, _, h₁, hk₁, hp, hw₁⟩
      · refine .seq (stable_spec (law.keeps_holds w₁.owner.tables w₁.heap) h₁.holds)
          (fun _ w₂ h₂ => ?_) fun _ _ _ => trivial
        obtain ⟨q₂, -, -⟩ := h₂
        have h₂ := h₁.quiet q₂
        rw [← q₂.owner] at hk₁ hw₁
        refine .get_bind (.lift_bind (fun _ _ => trivial) fun pair hvalid => ?_)
        obtain ⟨range, found⟩ := pair
        obtain ⟨hfound, hfid, hr, hrid⟩ := bindingValid_ok hvalid
        obtain rfl := h₂.books.binding_unique hw₁.mem hfound hfid.symm
        refine .seq (h₂.editPage hk₁ hw₁ hp hlt hr hrid rfl rfl) (fun _ w₃ h₃ => ?_)
          fun _ _ _ => trivial
        obtain ⟨M₃, k₃, h₃, hk₃, hp₃, hw₃⟩ := h₃
        exact ih h₃ hk₃ hw₃ hp₃
    · exact .pure ⟨M, k, h, hk, hp, hw⟩

theorem editing_mapped {started : Nat} (h : Mapped law w root M) (hk : w.owner.work = some k)
    (hw : Working w.owner.bindings k binding) (hp : k.phase = .editing) :
    Spec (editing port binding started) w (fun _ w' => ∃ M', Mapped law w' root M')
      (fun _ _ => True) := by
  unfold editing
  refine .seq (edit_mapped h hk hw hp) (fun _ w₁ h₁ => ?_) fun _ _ _ => trivial
  obtain ⟨M₁, k₁, h₁, hk₁, hp₁, hw₁⟩ := h₁
  refine .get_bind (.need_bind (fun _ => trivial) fun work hwork => ?_)
  obtain rfl : k₁ = work := Option.some.inj (hk₁.symm.trans hwork)
  split
  · rename_i hend
    refine .seq (h₁.workTime hk₁) (fun now w₂ h₂ => ?_) fun _ _ _ => trivial
    obtain ⟨h₂, hb₂, hk₂⟩ := h₂
    refine .get_bind (.seq (rootAddress_spec (law.keeps_holds w₂.owner.tables w₂.heap) h₂.holds)
      (fun dma w₃ h₃ => ?_) fun _ _ _ => trivial)
    have q₃ := h₃.1
    refine .seq nextSerial_spec (fun serial w₄ h₄ => ?_) fun _ _ _ => trivial
    subst h₄
    refine .lift_bind (fun _ _ => trivial) fun operation _ => ?_
    refine ⟨M₁, h₂.rework { k₁ with
      lastTime := now, invalidate := some operation, phase := .invalidating } hk₂ ?_ q₃.heap q₃.env
      rfl rfl rfl fun _ => .inr fun b hb => ?_⟩
    · show ({ w₃.owner with serial, work := w₃.owner.work.map _ } : Owner E) = _
      rw [q₃.owner, hk₂]
      rfl
    · rw [hb₂] at hb
      obtain rfl := h₁.books.binding_unique hw₁.mem hb.mem (hw₁.id.trans hb.id.symm)
      exact hend
  · exact .pure ⟨M₁, h₁⟩

/-! ## Invalidation and release -/

theorem withOperation_mapped {α : Type} {x : TlbCall E α} (h : Mapped law w root M)
    (hk : w.owner.work = some k)
    (hx : ∀ op, Spec x ⟨op, w.env, []⟩ (fun _ t => law.Holds w.owner.tables w.heap t.env)
      (fun _ _ => True)) :
    Spec (withOperation x) w
      (fun _ w' => Mapped law w' root M ∧ ∃ op, w'.owner.work = some { k with invalidate := some op })
      (fun _ _ => True) := by
  unfold withOperation
  refine .get_bind (.need_bind (fun _ => trivial) fun work hwork => ?_)
  obtain rfl : k = work := Option.some.inj (hk.symm.trans hwork)
  refine .need_bind (fun _ => trivial) fun op _ => ?_
  have hop := hx op
  unfold Spec at hop ⊢
  dsimp only
  cases hr : x ⟨op, w.env, []⟩ with
  | ok a t =>
    rw [hr] at hop
    exact ⟨h.rework { k with invalidate := some t.operation } hk rfl rfl hop rfl rfl rfl
      fun hp => .inl hp, t.operation, rfl⟩
  | error e t => trivial

theorem invalidating_mapped (h : Mapped law w root M) (hk : w.owner.work = some k)
    (hp : k.phase ≠ .editing) :
    Spec (invalidating port) w (fun _ w' => ∃ M', Mapped law w' root M') (fun _ _ => True) := by
  have hkeeps (w : World E) := (law.keeps_holds w.owner.tables w.heap).io
  unfold invalidating
  refine .seq (withOperation_mapped h hk fun op =>
    (Operation.step_spec (hkeeps w) h.holds).mono (fun _ _ hs => hs.env) fun _ _ _ => trivial)
    (fun b w₁ h₁ => ?_) fun _ _ _ => trivial
  obtain ⟨h₁, op₁, hk₁⟩ := h₁
  split
  · refine .seq (withOperation_mapped h₁ hk₁ fun op =>
      (Operation.receipt_spec (hkeeps w₁) h₁.holds).mono (fun _ _ hs => hs.1.env) fun _ _ _ => trivial)
      (fun r w₂ h₂ => ?_) fun _ _ _ => trivial
    obtain ⟨h₂, op₂, hk₂⟩ := h₂
    refine .need_bind (fun _ => trivial) fun receipt _ => .get_bind ?_
    refine .failIf_bind (fun _ => trivial) fun _ => ?_
    refine .seq (rootAddress_spec (law.keeps_holds w₂.owner.tables w₂.heap) h₂.holds)
      (fun dma w₃ h₃ => ?_) fun _ _ _ => trivial
    have q₃ := h₃.1
    refine .get_bind (.failIf_bind (fun _ => trivial) fun _ => ?_)
    refine ⟨M, h₂.rework { k with invalidate := some op₂, phase := .releasing } hk₂ ?_ q₃.heap
      q₃.env rfl rfl rfl fun _ => .inl hp⟩
    show ({ w₃.owner with work := w₃.owner.work.map _ } : Owner E) = _
    rw [q₃.owner, hk₂]
    rfl
  · exact .pure ⟨M, h₁⟩

theorem releasing_mapped (h : Mapped law w root M) (hk : w.owner.work = some k)
    (hp : k.phase = .releasing) :
    Spec (releasing port k.binding k.mapping) w (fun _ w' => ∃ M', Mapped law w' root M')
      (fun _ _ => True) := by
  unfold releasing
  refine .get_bind ?_
  split
  · rename_i table next hret
    refine .seq h.shape.tableValid (fun _ w₁ h₁ => ?_) fun _ _ _ => trivial
    obtain ⟨hshape, ho₁, hheap₁, hkey⟩ := h₁
    refine .get_bind (.failIf_bind (fun _ => trivial) fun _ => ?_)
    refine update_bind (log_bind (callback_bind ?_))
    split
    · exact .throw trivial
    · refine .pure ⟨M, ?_, ?_, ?_, ?_, ?_⟩
      · show w₁.owner.prepared = true
        rw [ho₁]
        exact h.prepared
      · refine hshape.release (by rw [ho₁]; exact hret) ?_ rfl rfl rfl
        rw [hheap₁]
        exact hkey
      · show Books w₁.owner.ranges w₁.owner.bindings
        rw [ho₁]
        exact h.books
      · show Maps w₁.owner.ranges w₁.owner.bindings w₁.owner.work M
        rw [ho₁]
        exact h.maps
      · show Busy w₁.owner.bindings w₁.owner.work
        rw [ho₁]
        exact h.busy
  · have hmaps := h.maps
    rw [hk] at hmaps
    obtain ⟨b, hw⟩ := h.busy k hk
    refine update_bind (log_bind (.pure ⟨M, h.prepared, ?_, h.books.finish, ?_, ?_⟩))
    · exact h.shape.of_eq rfl rfl rfl rfl h.holds
    · exact hmaps.finish h.books hw (by rw [hp]; simp)
    · rintro _ ⟨⟩

theorem advance_mapped {id : BindingId} (h : Mapped law w root M) (hk : w.owner.work = some k)
    (hid : k.binding = id) :
    Spec (advance port id) w (fun _ w' => ∃ M', Mapped law w' root M') (fun _ _ => True) := by
  unfold advance
  refine .get_bind (.lift_bind (fun _ _ => trivial) fun ⟨range, binding⟩ hvalid => ?_)
  obtain ⟨hmem, hbid, -, -⟩ := bindingValid_ok hvalid
  refine .seq (h.workTime hk) (fun now w₁ h₁ => ?_) fun _ _ _ => trivial
  obtain ⟨h₁, hb₁, hk₁⟩ := h₁
  refine .get_bind (.need_bind (fun _ => trivial) fun work hwork => ?_)
  rw [hk₁] at hwork
  cases hwork
  obtain ⟨b, hw⟩ := h₁.busy _ hk₁
  rw [← hb₁] at hmem
  obtain rfl := h₁.books.binding_unique hmem hw.mem (hbid.trans (hid.symm.trans hw.id.symm))
  split
  · exact editing_mapped h₁ hk₁ hw ‹_›
  · rename_i hp
    exact invalidating_mapped h₁ hk₁ (by rw [hp]; simp)
  · rw [← hid]
    exact releasing_mapped (k := { k with lastTime := now }) h₁ hk₁ ‹_›

/-! ## Calls -/

section

variable (law)

theorem Refines.of_failed (hf : w.owner.failure ≠ none) : Refines law w := fun hn => absurd hn hf

theorem Refines.of_empty (ho : w.owner = {}) : Refines law w := fun _ => .inl ho

end

theorem Refines.of_mapped (h : Mapped law w root M) : Refines law w := fun _ => .inr ⟨root, M, h⟩

/-- An unused owner has no page out. -/
theorem Refines.holds (h : Refines law w) (hf : w.owner.failure = none) :
    law.Holds w.owner.tables w.heap w.env := by
  rcases h hf with h | ⟨_, _, h⟩
  · rintro i d ⟨⟨k, hk⟩, -⟩
    rw [h] at hk
    simp at hk
  · exact h.holds

/-- A call that checks the epoch first: it goes on from a mapped owner. -/
theorem Refines.stable {α : Type} {f : Unit → VmCall E α} (h : Refines law w)
    (hf : w.owner.failure = none)
    (hgo : ∀ w' root M, w'.owner = w.owner → Mapped law w' root M →
      Spec (f ()) w' (fun _ w'' => Refines law w'') (fun _ w'' => Refines law w'')) :
    Spec (stable port >>= f) w (fun _ w' => Refines law w') (fun _ w' => Refines law w') := by
  refine .seq (stable_spec (law.keeps_holds w.owner.tables w.heap) (h.holds hf)) (fun _ w₁ h₁ => ?_)
    fun _ _ hq => h.quiet hq.1
  obtain ⟨q, -, hprep⟩ := h₁
  rcases h hf with h | ⟨root, M, h⟩
  · rw [h] at hprep
    cases hprep
  · exact hgo w₁ root M q.owner (h.quiet q)

/-- Nothing of the map changes with the attachment and the serial. -/
theorem Mapped.of_owner (h : Mapped law w root M) {attached possibleBinding : Bool} {serial : Nat}
    (ho : w'.owner = { w.owner with attached, possibleBinding, serial }) (hheap : w'.heap = w.heap)
    (henv : w'.env = w.env) : Mapped law w' root M := by
  refine ⟨by rw [ho]; exact h.prepared, h.shape.of_eq (by rw [ho]) (by rw [ho]) (by rw [ho]) hheap
    (by rw [henv]; exact h.holds), by rw [ho]; exact h.books, by rw [ho]; exact h.maps,
    by rw [ho]; exact h.busy⟩

theorem rootAddress_refines {α : Type} {f : Nat → VmCall E α} (h : Refines law w)
    (hf : w.owner.failure = none)
    (hgo : ∀ dma w' root M, Mapped law w' root M →
      Spec (f dma) w' (fun _ w'' => Refines law w'') (fun _ w'' => Refines law w'')) :
    Spec (rootAddress port >>= f) w (fun _ w' => Refines law w') (fun _ w' => Refines law w') := by
  refine .seq (rootAddress_spec (law.keeps_holds w.owner.tables w.heap) (h.holds hf))
    (fun dma w₁ h₁ => ?_) fun _ _ hq => h.quiet hq
  obtain ⟨q, -, hprep, -⟩ := h₁
  rcases h hf with h | ⟨root, M, h⟩
  · rw [h] at hprep
    cases hprep
  · exact hgo dma w₁ root M (h.quiet q)

theorem bindSubmitted_refines (h : Refines law w) (hf : w.owner.failure = none) :
    Spec (bindSubmitted port) w (fun _ w' => Refines law w') (fun _ w' => Refines law w') := by
  refine rootAddress_refines h hf fun dma w₁ root M h₁ => ?_
  refine .get_bind (.failIf_bind (fun _ => .of_mapped h₁) fun _ => ?_)
  exact .of_mapped (h₁.of_owner rfl rfl rfl)

theorem bindConfirmed_refines (h : Refines law w) (hf : w.owner.failure = none) :
    Spec (bindConfirmed port) w (fun _ w' => Refines law w') (fun _ w' => Refines law w') := by
  refine h.stable hf fun w₁ root M _ h₁ => ?_
  refine .get_bind (.failIf_bind (fun _ => .of_mapped h₁) fun _ => ?_)
  exact .of_mapped (h₁.of_owner rfl rfl rfl)

theorem unbindConfirmed_refines (h : Refines law w) (hf : w.owner.failure = none) :
    Spec (unbindConfirmed port) w (fun _ w' => Refines law w') (fun _ w' => Refines law w') := by
  refine h.stable hf fun w₁ root M _ h₁ => ?_
  refine .get_bind (.failIf_bind (fun _ => .of_mapped h₁) fun _ => ?_)
  exact .of_mapped (h₁.of_owner rfl rfl rfl)

/-- The ranges change around the bindings. -/
theorem Mapped.of_ranges (h : Mapped law w root M) {ranges : List Range} {serial : Nat}
    (ho : w'.owner = { w.owner with ranges, serial }) (hheap : w'.heap = w.heap)
    (henv : w'.env = w.env) (hbooks : Books ranges w.owner.bindings)
    (hr : ∀ b ∈ w.owner.bindings, ∀ r, r.id = b.range → (r ∈ w.owner.ranges ↔ r ∈ ranges)) :
    Mapped law w' root M := by
  refine ⟨by rw [ho]; exact h.prepared, h.shape.of_eq (by rw [ho]) (by rw [ho]) (by rw [ho]) hheap
    (by rw [henv]; exact h.holds), by rw [ho]; exact hbooks, by rw [ho]; exact h.maps.of_ranges hr,
    by rw [ho]; exact h.busy⟩

theorem reserve_refines {id : RangeId} {bytes alignment fixed : Nat} (h : Refines law w)
    (hf : w.owner.failure = none) :
    Spec (reserve port id bytes alignment fixed) w (fun _ w' => Refines law w')
      (fun _ w' => Refines law w') := by
  refine h.stable hf fun w₁ root M _ h₁ => ?_
  have hr := Refines.of_mapped h₁
  refine .get_bind (.failIf_bind (fun _ => hr) fun hbusy => ?_)
  refine .failIf_bind (fun _ => hr) fun halign => .failIf_bind (fun _ => hr) fun _ => ?_
  refine .lift_bind (fun _ _ => hr) fun _ hext => ?_
  refine .lift_bind (fun _ _ => hr) fun ⟨address, before, after⟩ hfit => ?_
  obtain ⟨hsplit, hext, hlow, hhigh⟩ := fit_ok (by omega) (by simpa using h₁.books.sorted) (by simp) hext hfit
  refine .failIf_bind (fun _ => hr) fun _ => ?_
  refine .seq nextSerial_spec (fun serial w₂ h₂ => ?_) fun _ w₂ h₂ => by rw [h₂.1]; exact hr
  subst h₂
  have hranges : before ++ after = w₁.owner.ranges := hsplit
  have hbooks := h₁.books
  rw [← hranges] at hbooks
  have hid (r : Range) (hin : r ∈ before ++ after) : r.id ≠ id := by
    intro heq
    rw [hranges] at hin
    refine hbusy (.inr (.inr ?_))
    exact List.any_eq_true.mpr ⟨r, hin, by simpa using heq⟩
  obtain ⟨hbooks', hsame⟩ := hbooks.reserve (x := ⟨id, serial, address, bytes⟩) hext hlow hhigh hid
  rw [hranges] at hsame
  exact update_bind (.pure (.of_mapped (h₁.of_ranges rfl rfl rfl hbooks' hsame)))

theorem releaseRange_refines {id : RangeId} (h : Refines law w) (hf : w.owner.failure = none) :
    Spec (releaseRange port id) w (fun _ w' => Refines law w') (fun _ w' => Refines law w') := by
  refine h.stable hf fun w₁ root M _ h₁ => ?_
  have hr := Refines.of_mapped h₁
  refine .get_bind (.lift_bind (fun _ _ => hr) fun _ _ => .failIf_bind (fun _ => hr) fun hbusy => ?_)
  have hid (b : Binding E) (hb : b ∈ w₁.owner.bindings) : b.range ≠ id := by
    intro heq
    refine hbusy (.inl ?_)
    exact List.any_eq_true.mpr ⟨b, hb, by simpa using heq⟩
  obtain ⟨hbooks, hsame⟩ := h₁.books.releaseRange hid
  exact .of_mapped (h₁.of_ranges rfl rfl rfl hbooks hsame)

theorem work_none {o : Owner E} (h : ¬ o.work.isSome = true) : o.work = none := by
  simpa using h

theorem beginMap_refines {range : RangeId} {id : BindingId} {offset deadline : Nat}
    {source : Source E} (h : Refines law w) (hf : w.owner.failure = none) :
    Spec (beginMap port range id offset source deadline) w (fun _ w' => Refines law w')
      (fun _ w' => Refines law w') := by
  refine h.stable hf fun w₁ root M _ h₁ => ?_
  have hr := Refines.of_mapped h₁
  refine .get_bind (.lift_bind (fun _ _ => hr) fun r hvalid => ?_)
  obtain ⟨hmem, hrid⟩ := rangeValid_ok hvalid
  refine .failIf_bind (fun _ => hr) fun hbusy => .get_bind (.failIf_bind (fun _ => hr) fun _ => ?_)
  refine .failIf_bind (fun _ => hr) fun hbounds => ?_
  have hq : Quiet (law.Holds w₁.owner.tables w₁.heap) w₁ { w₁ with env := (port.io.nowNs w₁.env).2 } :=
    ⟨rfl, rfl, rfl, (law.keeps_holds _ _).io.nowNs _ h₁.holds⟩
  have h₂ := h₁.quiet hq
  have hr₂ := Refines.of_mapped h₂
  refine callback_bind (.failIf_bind (fun _ => hr₂) fun _ => .get_bind ?_)
  refine .lift_bind (fun _ _ => hr₂) fun _ hclash => update_bind ?_
  have hwork : w₁.owner.work = none := work_none fun hn => hbusy (.inr (.inl hn))
  have hnew (b : Binding E) (hb : b ∈ w₁.owner.bindings) : b.id ≠ id := by
    intro heq
    exact hbusy (.inr (.inr (List.any_eq_true.mpr ⟨b, hb, by simpa using heq⟩)))
  have halign : 4096 ∣ offset ∧ 4096 ∣ source.bytes := by
    have hmask : ¬ (offset ||| source.bytes ||| source.offset) &&& 4095 ≠ 0 :=
      fun hn => hbounds (.inr (.inl hn))
    have hmask := Decidable.not_not.mp hmask
    have h₁ := (or_and_mask_eq_zero (k := 12)).mp hmask
    have h₂ : offset % 4096 = 0 ∧ source.bytes % 4096 = 0 :=
      (or_and_mask_eq_zero (k := 12)).mp (by rw [and_mask]; exact h₁.1)
    exact ⟨Nat.dvd_of_mod_eq_zero h₂.1, Nat.dvd_of_mod_eq_zero h₂.2⟩
  have hmaps := h₁.maps
  rw [hwork] at hmaps
  obtain ⟨hbooks', hmaps'⟩ := hmaps.beginMap (b := ⟨id, range, source, offset, false⟩)
    (k := { binding := id, mapping := true, deadline }) h₁.books hmem hrid
    (by show offset + source.bytes ≤ r.bytes; omega) halign hnew
    (fun b hb heq => clash_ok hclash b (List.mem_filter.mpr ⟨hb, by simpa using heq⟩)) rfl rfl rfl
  refine .of_mapped ⟨h₁.prepared, h₂.shape.of_eq rfl rfl rfl rfl h₂.holds,
    hbooks', hmaps', ?_⟩
  rintro _ ⟨⟩
  exact ⟨_, List.mem_cons_self, rfl, rfl, Nat.dvd_zero _, Nat.zero_le _, fun hn => absurd rfl hn⟩

theorem beginUnmap_refines {id : BindingId} {deadline : Nat} {quiesced : Bool} (h : Refines law w)
    (hf : w.owner.failure = none) :
    Spec (beginUnmap port id deadline quiesced) w (fun _ w' => Refines law w')
      (fun _ w' => Refines law w') := by
  refine h.stable hf fun w₁ root M _ h₁ => ?_
  have hr := Refines.of_mapped h₁
  refine .get_bind (.lift_bind (fun _ _ => hr) fun ⟨r, b⟩ hvalid => ?_)
  obtain ⟨hmem, hbid, -, -⟩ := bindingValid_ok hvalid
  refine .failIf_bind (fun _ => hr) fun hbusy => ?_
  have hq : Quiet (law.Holds w₁.owner.tables w₁.heap) w₁ { w₁ with env := (port.io.nowNs w₁.env).2 } :=
    ⟨rfl, rfl, rfl, (law.keeps_holds _ _).io.nowNs _ h₁.holds⟩
  have h₂ := h₁.quiet hq
  refine callback_bind (.failIf_bind (fun _ => .of_mapped h₂) fun _ => update_bind ?_)
  have hwork : w₁.owner.work = none := work_none fun hn => hbusy (.inr (.inl hn))
  have hmapped : b.mapped = true := by
    cases hm : b.mapped with
    | true => rfl
    | false => exact absurd (.inr (.inr (.inl hm))) hbusy
  have hmaps := h₁.maps
  rw [hwork] at hmaps
  refine .of_mapped ⟨h₁.prepared, h₂.shape.of_eq rfl rfl rfl rfl h₂.holds,
    h₁.books, ?_, ?_⟩
  · exact hmaps.beginUnmap h₁.books hmem hmapped hbid.symm rfl rfl
  · rintro _ ⟨⟩
    exact ⟨b, hmem, hbid, hmapped, Nat.dvd_zero _, Nat.zero_le _, fun hn => absurd rfl hn⟩

theorem poll_refines {id : BindingId} (h : Refines law w) (hf : w.owner.failure = none) :
    Spec (poll port id) w (fun _ w' => Refines law w') (fun _ w' => Refines law w') := by
  refine h.stable hf fun w₁ root M _ h₁ => ?_
  refine .get_bind (.failIf_bind (fun _ => .of_mapped h₁) fun hwork => ?_)
  obtain ⟨k, hk, hid⟩ : ∃ k, w₁.owner.work = some k ∧ k.binding = id := by
    cases hk : w₁.owner.work with
    | none =>
      rw [hk] at hwork
      exact absurd rfl hwork
    | some k =>
      rw [hk] at hwork
      exact ⟨k, rfl, by simpa using hwork⟩
  refine orFail_spec ((advance_mapped h₁ hk hid).mono (fun _ w₂ h₂ => ?_) fun _ _ h => h)
    fun e w₂ _ => .of_failed law (by simp)
  obtain ⟨M', h₂⟩ := h₂
  exact .of_mapped h₂

theorem prepare_refines {epoch base bytes : Nat} (h : Refines law w) (hf : w.owner.failure = none) :
    Spec (prepare port epoch base bytes) w (fun _ w' => Refines law w') (fun _ w' => Refines law w') := by
  unfold prepare
  refine .get_bind (.failIf_bind (fun _ => h) fun hprep => ?_)
  have hempty : w.owner = {} := by
    rcases h hf with h | ⟨_, _, h⟩
    · exact h
    · exact absurd h.prepared hprep
  refine .lift_bind (fun _ _ => h) fun _ _ => .failIf_bind (fun _ => h) fun _ => ?_
  refine callback_bind (.failIf_bind (fun _ => .of_empty law hempty) fun _ => update_bind ?_)
  have hholds : law.Holds w.owner.tables w.heap (port.io.generation w.env).2 :=
    (law.keeps_holds _ _).io.generation _ (h.holds hf)
  refine .seq (orFail_spec (createTable_spec hholds) (G := fun _ w' => w'.owner.failure ≠ none)
    fun e w₁ _ => by simp) (fun c w₁ h₁ => ?_) fun _ _ hn => .of_failed law hn
  obtain ⟨key, t, hc⟩ := h₁
  obtain ⟨hkl, hk⟩ := tableKey_ok.1 hc.new.key
  have hk : key = 0 := by
    rw [hk]
    rfl
  subst hk
  have htree : Tree ((∅ : Index).insert 0 c) (Function.update w.heap c t) c (fun _ => 0) none :=
    .new hc.new.level hc.new.address hc.new.zero hc.new.used hc.new.retiring hc.parent
  have ho₁ := hc.owner
  rw [hempty] at ho₁
  have hlive {i : TableId} (hi : Live w₁.owner.tables i) : (w₁.heap i).retiring = false := by
    rw [ho₁] at hi
    obtain ⟨j, hj⟩ := hi
    rw [show ((∅ : Index).insert 0 c)[j]? = _ from insert_get] at hj
    split at hj
    · cases hj
      rw [hc.heap, Function.update_self]
      exact hc.new.retiring
    · simp at hj
  refine fun _ => .inr ⟨c, fun _ => 0, ?_, ⟨rfl, ?_, fun i => ?_, ?_, hc.held⟩, ?_, ?_, ?_⟩
  · show w₁.owner.prepared = true
    rw [ho₁]
  · show Tree w₁.owner.tables w₁.heap c _ none
    rw [ho₁, hc.heap]
    exact htree
  · show i ∈ w₁.owner.retired ↔ Live w₁.owner.tables i ∧ (w₁.heap i).retiring = true
    constructor
    · intro hin
      rw [ho₁] at hin
      cases hin
    · rintro ⟨hi, hret⟩
      rw [hlive hi] at hret
      cases hret
  · show w₁.owner.retired.Nodup
    rw [ho₁]
    exact .nil
  · show Books w₁.owner.ranges w₁.owner.bindings
    rw [ho₁]
    exact .nil
  · show Maps w₁.owner.ranges w₁.owner.bindings w₁.owner.work _
    rw [ho₁]
    exact ⟨by simp, fun n hn => absurd rfl hn⟩
  · show Busy w₁.owner.bindings w₁.owner.work
    rw [ho₁]
    rintro _ ⟨⟩

theorem close_refines (h : Refines law w) (hf : w.owner.failure = none) :
    Spec (close port) w (fun _ w' => Refines law w') (fun _ w' => Refines law w') := by
  unfold close
  refine .get_bind ?_
  dsimp only
  split
  · exact .pure h
  refine h.stable hf fun w₁ root M ho h₁ => ?_
  have hr := Refines.of_mapped h₁
  refine .failIf_bind (fun _ => hr) fun _ => ?_
  split
  · exact .of_empty law rfl
  · refine .seq (tableValid_spec (law.keeps_holds w₁.owner.tables w₁.heap) h₁.holds) (fun _ w₂ q₂ => ?_)
      fun _ _ hq => hr.quiet hq.1
    refine .get_bind (.failIf_bind (fun _ => hr.quiet q₂) fun _ => ?_)
    refine update_bind (log_bind (callback_bind ?_))
    split
    · exact orFail_spec (F := fun _ _ => True) (.throw trivial) fun _ _ _ => .of_failed law (by simp)
    · exact .of_empty law rfl

theorem call_refines {op : Op E} (h : Refines law w) (ht : Traced w) :
    Spec (call port op) w (fun _ w' => Refines law w') (fun _ w' => Refines law w') := by
  by_cases hf : w.owner.failure = none
  swap
  · refine (call_failed ht hf).mono (fun _ _ hn => hn.elim) fun _ w' q => .of_failed law ?_
    rw [q.owner]
    exact hf
  have hpure {α β : Type} {x : VmCall E α} {f : α → β}
      (hx : Spec x w (fun _ w' => Refines law w') (fun _ w' => Refines law w')) :
      Spec (do pure (f (← x))) w (fun _ w' => Refines law w') (fun _ w' => Refines law w') :=
    .seq hx (fun _ _ h => h) fun _ _ h => h
  cases op with
  | prepare => exact hpure (prepare_refines h hf)
  | rootAddress => exact rootAddress_refines h hf fun _ _ _ _ h₁ => .of_mapped h₁
  | bindSubmitted => exact hpure (bindSubmitted_refines h hf)
  | bindConfirmed => exact hpure (bindConfirmed_refines h hf)
  | unbindConfirmed => exact hpure (unbindConfirmed_refines h hf)
  | reserve => exact hpure (reserve_refines h hf)
  | releaseRange => exact hpure (releaseRange_refines h hf)
  | beginMap => exact hpure (beginMap_refines h hf)
  | beginUnmap => exact hpure (beginUnmap_refines h hf)
  | poll => exact hpure (poll_refines h hf)
  | close => exact hpure (close_refines h hf)

/-! ## Runs -/

section

variable {heap : TableId → Table} {env : E}
  {h : List (Event (World E) (Op E) (Except Error Answer))}

theorem refines_run (law : Lawful port) (hr : Run (step port) (initial heap env) h w) :
    Refines law w := by
  refine (hr.invariant (P := fun _ w => Refines law w ∧ Traced w) ⟨.of_empty law rfl,
    .of_idle (fun hn => absurd rfl hn) rfl rfl⟩ fun _ w op out w' ih hs => ?_).1
  obtain ⟨ih, ht⟩ := ih
  cases out with
  | ok a =>
    have hx := outcome_ok_iff.1 hs
    exact ⟨(call_refines ih ht).ok hx, (call_traced ht).ok hx⟩
  | error e =>
    have hx := outcome_error_iff.1 hs
    exact ⟨(call_refines ih ht).error hx, (call_traced ht).error hx⟩

/-- **The tables refine the bindings.** In every run over a backend that hands out fresh zeroed
pages, whatever the order and the outcomes of the calls: when the owner has not failed and no work
is in progress, the walk from the root to an aligned address reaches exactly the page word of the
mapped binding there, for a source whose physical addresses are a fixed function, and zero when no
mapped binding covers the address. -/
theorem tables_run (law : Lawful port) (hr : Run (step port) (initial heap env) h w)
    (hf : w.owner.failure = none) (hwork : w.owner.work = none) {va : Nat} (hva : va < vaLimit)
    (halign : va % 4096 = 0) :
    (∀ b ∈ w.owner.bindings, b.mapped = true → ∀ d, Covers w.owner.ranges b va d →
      ∀ f : Nat → Except Error Nat, (∀ offset e, b.source.physical offset e = f offset) →
        ∃ pa, f (b.source.offset + d) = .ok pa ∧ page pa b.source.policy = .ok (walk w va)) ∧
    ((∀ b ∈ w.owner.bindings, b.mapped = true → ∀ d, ¬ Covers w.owner.ranges b va d) →
      walk w va = 0) := by
  rcases refines_run law hr hf with ho | ⟨root, M, hm⟩
  · refine ⟨fun b hb => ?_, fun _ => ?_⟩
    · rw [ho] at hb
      cases hb
    · unfold walk
      rw [ho]
  have hwalk : walk w va = M (va / 4096) := by
    unfold walk
    rw [hm.shape.root]
    exact hm.shape.tree.walk hva
  have hmaps := hm.maps
  rw [hwork] at hmaps
  rw [hwalk]
  refine ⟨fun b hb hmapped d hc f hfixed => ?_, fun hnone => ?_⟩
  · obtain ⟨e, pa, hpa, hpage⟩ := hmaps.has b hb va d hc (Nat.dvd_of_mod_eq_zero halign) hmapped
    exact ⟨pa, by rw [← hfixed _ e]; exact hpa, hpage⟩
  · by_contra hne
    obtain ⟨b, hb, d, hc, hin⟩ := hmaps.only _ hne
    rw [Nat.div_mul_cancel (Nat.dvd_of_mod_eq_zero halign)] at hc
    exact hnone b hb hin d hc

end

/-- The calm device hands out every page once. -/
def calmLaw : Lawful calmPort where
  held e i d := i < e.next ∧ d = i * 4096
  keeps P := by
    refine ⟨⟨fun _ h => h, fun _ h => h, fun _ _ h => h, fun address value e h i d hP => ?_⟩,
      fun _ _ _ h => h⟩
    have hnext : (calmPort.io.write32 address value e).2.next = e.next := by
      show (if address = pdbLow then { e with low := value }
        else if address = pdbHigh then { e with high := value } else e).next = e.next
      split
      · rfl
      · split <;> rfl
    rw [hnext]
    exact h i d hP
  fresh := by
    rintro e e' i t ⟨⟩
    refine ⟨fun d h => absurd h.1 (Nat.lt_irrefl _), fun j h => ?_, fun _ => rfl,
      ⟨Nat.lt_succ_self _, rfl⟩, fun j d h => ⟨Nat.lt_succ_of_lt h.1, h.2⟩⟩
    have heq : e.next = j := Nat.eq_of_mul_eq_mul_right (by decide : 0 < 4096) h.2
    exact absurd h.1 (heq ▸ Nat.lt_irrefl _)
  release _ _ _ _ _ h := h

/-- The mapped page of the calm device, and its neighbour that is not mapped. -/
theorem tables_run_calm :
    (∃ b ∈ calmRun.2.owner.bindings, b.mapped = true ∧
      Covers calmRun.2.owner.ranges b 0x100001000 0 ∧
      ∀ f : Nat → Except Error Nat, (∀ offset e, b.source.physical offset e = f offset) →
        ∃ pa, f (b.source.offset + 0) = .ok pa ∧
          page pa b.source.policy = .ok (walk calmRun.2 0x100001000)) ∧
    page 0x10000000 calmSource.policy = .ok (walk calmRun.2 0x100001000) ∧
    walk calmRun.2 0x100000000 = 0 := by
  have hrun : Run (step calmPort) (initial (fun _ => {}) {}) calmRun.1 calmRun.2 := Run.of_exec _ _ _
  have hf : calmRun.2.owner.failure = none := by decide +kernel
  have hwork : calmRun.2.owner.work = none := Option.isNone_iff_eq_none.mp (by decide +kernel)
  have hbook : calmRun.2.owner.bindings.map (fun b => (b.range, b.offset, b.source.bytes, b.mapped)) =
      [(7, 4096, 4096, true)] := by decide +kernel
  have hranges : calmRun.2.owner.ranges.map (fun r => (r.id, r.address)) = [(7, 0x100000000)] := by
    decide +kernel
  have hwalk := fun va hva halign => @tables_run _ _ _ _ _ _ calmLaw hrun hf hwork va hva halign
  have hpage : page 0x10000000 calmSource.policy = .ok (walk calmRun.2 0x100001000) := by
    decide +kernel
  obtain ⟨b, hb, hbeq⟩ := List.map_eq_singleton_iff.mp hbook
  obtain ⟨r, hr, hreq⟩ := List.map_eq_singleton_iff.mp hranges
  simp only [Prod.mk.injEq] at hbeq hreq
  obtain ⟨hbr, hbo, hbb, hbm⟩ := hbeq
  rw [hb, hr] at hwalk ⊢
  have hc : Covers [r] b 0x100001000 0 :=
    ⟨r, List.mem_singleton_self r, hreq.1.trans hbr.symm, by omega, by omega⟩
  refine ⟨⟨b, List.mem_singleton_self b, hbm, hc, fun f hfixed => ?_⟩, hpage, ?_⟩
  · exact (hwalk _ (by decide) (by decide)).1 b (List.mem_singleton_self b) hbm 0 hc f hfixed
  · refine (hwalk _ (by decide) (by decide)).2 fun b' hin _ d hcov => ?_
    obtain ⟨r', hrin, -, heq, -⟩ := hcov
    rw [List.mem_singleton.mp hin, List.mem_singleton.mp hrin] at heq
    omega

end Vm
end NvidiaGsp
