import NvidiaGsp.Vm.OwnerSpec
import NvidiaGsp.Vm.Walk

/-!
# Vm.Shape

The tables of an owner form a tree, and every edit of a piece of work keeps it one. `Lawful` is what
the owner relies on of its backend: a page it hands out is zero, its node and its DMA address are
not those of a page already handed out, and nothing but its release takes a page back. `Shape` adds
the retired list and the backend's holdings to the tree.
-/

namespace NvidiaGsp
namespace Vm

open Call

/-- A backend that hands out fresh zeroed pages. `held e i d` says that node `i` with DMA address
`d` is out. -/
structure Lawful {E : Type} (port : Port E) where
  held : E → TableId → Nat → Prop
  keeps : ∀ P : TableId → Nat → Prop, port.Keeps fun e => ∀ i d, P i d → held e i d
  fresh : ∀ {e e' : E} {i : TableId} {t : Table}, port.allocate e = (.ok (i, t), e') →
    (∀ d, ¬ held e i d) ∧ (∀ j, ¬ held e j t.dma) ∧ (∀ s, t.words s = 0) ∧ held e' i t.dma ∧
      ∀ j d, held e j d → held e' j d
  release : ∀ (e : E) (i j : TableId) (d : Nat), j ≠ i → held e j d → held (port.release i e).2 j d

variable {E : Type} {port : Port E} {law : Lawful port} {w w' : World E} {root : TableId}
  {M : Nat → Nat} {exc : Option TableId}

/-- The pages of the owner are out. -/
def Lawful.Holds (law : Lawful port) (tables : Index) (heap : TableId → Table) (e : E) : Prop :=
  ∀ i d, Live tables i ∧ d = (heap i).dma → law.held e i d

theorem Lawful.keeps_holds (law : Lawful port) (tables : Index) (heap : TableId → Table) :
    port.Keeps (law.Holds tables heap) := law.keeps _

structure Shape (law : Lawful port) (w : World E) (r : TableId) (M : Nat → Nat)
    (exc : Option TableId) : Prop where
  root : w.owner.root = some r
  tree : Tree w.owner.tables w.heap r M exc
  retired : ∀ i, i ∈ w.owner.retired ↔ Live w.owner.tables i ∧ (w.heap i).retiring = true
  nodup : w.owner.retired.Nodup
  held : law.Holds w.owner.tables w.heap w.env

theorem Shape.quiet (h : Shape law w root M exc)
    (q : Quiet (law.Holds w.owner.tables w.heap) w w') : Shape law w' root M exc := by
  refine ⟨?_, ?_, ?_, ?_, ?_⟩
  · rw [q.owner, h.root]
  · rw [q.owner, q.heap]
    exact h.tree
  · rw [q.owner, q.heap]
    exact h.retired
  · rw [q.owner]
    exact h.nodup
  · rw [q.owner, q.heap]
    exact q.env

/-- A check of a table leaves the shape, and the table under its own key. -/
theorem Shape.tableValid {id : TableId} (h : Shape law w root M exc) :
    Spec (tableValid port id) w (fun _ w' => Shape law w' root M exc ∧ w'.owner = w.owner ∧
      w'.heap = w.heap ∧ tableKey (w.heap id).level (w.heap id).address = .ok (w.heap id).key)
      (fun _ _ => True) := by
  have hspec : Spec (Vm.tableValid port id) w _ _ :=
    tableValid_spec (law.keeps_holds w.owner.tables w.heap) h.held
  have hkey : Spec (Vm.tableValid port id) w
      (fun _ _ => tableKey (w.heap id).level (w.heap id).address = .ok (w.heap id).key)
      (fun _ _ => True) := by
    unfold Vm.tableValid
    refine .get_bind (.failIf_bind (fun _ => trivial) fun _ => ?_)
    refine callback_bind (.failIf_bind (fun _ => trivial) fun _ => ?_)
    refine .lift_bind (fun _ _ => trivial) fun key hk => .failIf_bind (fun _ => trivial) fun heq => ?_
    refine .lift_bind (fun _ _ => trivial) fun _ _ => .pure ?_
    rw [hk, Decidable.not_not.mp heq]
  refine (hspec.both hkey).mono (fun _ w' hw => ?_) fun _ _ _ => trivial
  exact ⟨h.quiet hw.1, hw.1.owner, hw.1.heap, hw.2⟩

/-! ## New tables -/

/-- What a new table is, and where it stands. -/
structure Created (law : Lawful port) (level : Level) (address : Nat) (parent : Option TableId)
    (w w' : World E) (c : TableId) (key : Nat) (t : Table) : Prop where
  new : NewTable w.owner.tables w.heap level address key c t
  parent : t.parent = parent
  owner : w'.owner = { w.owner with tables := w.owner.tables.insert key c }
  heap : w'.heap = Function.update w.heap c t
  held : law.Holds w'.owner.tables w'.heap w'.env

theorem createTable_spec {level : Level} {address : Nat} {parent : Option TableId}
    (h : law.Holds w.owner.tables w.heap w.env) :
    Spec (createTable port level address parent) w
      (fun c w' => ∃ key t, Created law level address parent w w' c key t) (fun _ _ => True) := by
  unfold createTable
  refine .lift_bind (fun _ _ => trivial) fun key hkey => ?_
  refine .get_bind (.failIf_bind (fun _ => trivial) fun habsent => ?_)
  have habsent : w.owner.tables[key]? = none := Decidable.not_not.mp habsent
  refine callback_bind (.lift_bind (fun _ _ => trivial) fun ⟨c, t⟩ hanswer => ?_)
  obtain ⟨hfresh, hdma, hzero, hheld, hmono⟩ :=
    law.fresh (Prod.ext hanswer rfl : port.allocate w.env = (.ok (c, t), (port.allocate w.env).2))
  refine .failIf_bind (fun _ => trivial) fun hblank => ?_
  refine callback_bind (.failIf_bind (fun _ => trivial) fun _ => ?_)
  refine .lift_bind (fun _ _ => trivial) fun _ _ => .failIf_bind (fun _ => trivial) fun _ => ?_
  have hblank : t.used = 0 ∧ t.retiring = false := by
    have := (not_or.mp hblank).1
    unfold Table.blank at this
    simp only [Bool.not_eq_false, Bool.and_eq_true, beq_iff_eq, Bool.not_eq_true'] at this
    exact ⟨this.1.2, this.2⟩
  generalize ht' : ({ t with
    owned := true, level := level, address := address, parent := parent, key := key,
    descriptor := some (Table.describe { t with
      owned := true, level := level, address := address, parent := parent }) } : Table) = t'
  have hnew : NewTable w.owner.tables w.heap level address key c t' := by
    rw [← ht']
    exact ⟨rfl, rfl, hkey, habsent, fun hl => hfresh _ (h c _ ⟨hl, rfl⟩), hzero, hblank.1, hblank.2,
      fun i hi heq => hdma i (heq ▸ h i _ ⟨hi, rfl⟩)⟩
  have hcdma : t'.dma = t.dma := by rw [← ht']
  refine ⟨key, t', hnew, by rw [← ht'], rfl, by rw [← ht'], ?_⟩
  -- The validity check keeps the old pages and the new one.
  have hkeep := (law.keeps fun i d => Live w.owner.tables i ∧ d = (w.heap i).dma ∨
    i = c ∧ d = t.dma).valid c t (port.allocate w.env).2 (by
      rintro i d (hi | ⟨rfl, rfl⟩)
      · exact hmono i d (h i d hi)
      · exact hheld)
  rintro i d ⟨hi, hd⟩
  rcases hnew.live.1 hi with rfl | hi
  · refine hkeep i d (.inr ⟨rfl, ?_⟩)
    rw [hd, ← hcdma, ← ht']
    show (Function.update w.heap i _ i).dma = _
    rw [Function.update_self]
  · refine hkeep i d (.inl ⟨hi, ?_⟩)
    have hic : i ≠ c := fun heq => hnew.fresh (heq ▸ hi)
    rw [hd]
    show (Function.update w.heap c _ i).dma = _
    rw [Function.update_of_ne hic]

theorem linkChild_shape {create : Bool} {level : Level} {address slot : Nat} {p : TableId}
    (h : Shape law w root M (some p)) (hp : OnPath w.owner.tables w.heap address level.parent p)
    (hl : level ≠ .root) (hslot : slot = slotOf level.parent (field level.parent address)) :
    Spec (linkChild port create level address p slot) w
      (fun c w' => Shape law w' root M (some c) ∧ OnPath w'.owner.tables w'.heap address level c)
      (fun _ _ => True) := by
  unfold linkChild
  refine .get_bind (.failIf_bind (fun _ => trivial) fun hzero => ?_)
  have hzero : (w.heap p).words slot = 0 := Decidable.not_not.mp (not_or.mp hzero).2
  refine .seq (createTable_spec h.held) (fun c w₁ h₁ => ?_) fun _ _ _ => trivial
  obtain ⟨key, t, hc⟩ := h₁
  have hcp : p ≠ c := fun heq => hc.new.fresh (heq ▸ hp.live)
  have hheapc : w₁.heap c = t := by rw [hc.heap, Function.update_self]
  have hheapp : w₁.heap p = w.heap p := by rw [hc.heap, Function.update_of_ne hcp]
  refine .get_bind (.lift_bind (fun _ _ => trivial) fun word hword => ?_)
  rw [hheapc] at hword
  have hslot' : slot = slotOf (w.heap p).level (field (w.heap p).level address) := by
    rw [hp.at', hslot]
  have htree := h.tree.link hc.new hp.live hp.retiring hl hp.at'
    (by rw [hp.at']; exact hp.stem.symm) hc.parent (by
      unfold entry
      rw [← hslot']
      exact hzero) hword
  rw [← hslot'] at htree
  have hheap : Function.update w₁.heap p ((w₁.heap p).put slot word ((w₁.heap p).used + 1)) =
      Function.update (Function.update w.heap c t) p
        ((w.heap p).put slot word ((w.heap p).used + 1)) := by
    rw [hheapp, hc.heap]
  have hcc : (Function.update (Function.update w.heap c t) p
      ((w.heap p).put slot word ((w.heap p).used + 1))) c = t := by
    rw [Function.update_of_ne hcp.symm, Function.update_self]
  have hretiring {i : TableId} (hi : Live w.owner.tables i) :
      ((Function.update (Function.update w.heap c t) p
        ((w.heap p).put slot word ((w.heap p).used + 1))) i).retiring = (w.heap i).retiring := by
    by_cases hip : i = p
    · subst hip
      rw [Function.update_self]
      rfl
    · have hic : i ≠ c := fun heq => hc.new.fresh (heq ▸ hi)
      rw [Function.update_of_ne hip, Function.update_of_ne hic]
  refine ⟨⟨?_, ?_, fun i => ?_, ?_, ?_⟩, ?_⟩
  · show w₁.owner.root = _
    rw [hc.owner]
    exact h.root
  · show Tree w₁.owner.tables _ root M (some c)
    rw [hc.owner, hheap]
    exact htree
  · show i ∈ w₁.owner.retired ↔ Live w₁.owner.tables i ∧ _
    rw [hc.owner, hheap]
    show i ∈ w.owner.retired ↔ Live (w.owner.tables.insert key c) i ∧
      ((Function.update (Function.update w.heap c t) p
        ((w.heap p).put slot word ((w.heap p).used + 1))) i).retiring = true
    rw [h.retired i, hc.new.live]
    constructor
    · rintro ⟨hi, hr⟩
      exact ⟨.inr hi, by rw [hretiring hi, hr]⟩
    · rintro ⟨rfl | hi, hr⟩
      · rw [hcc, hc.new.retiring] at hr
        cases hr
      · exact ⟨hi, by rw [← hretiring hi, hr]⟩
  · show w₁.owner.retired.Nodup
    rw [hc.owner]
    exact h.nodup
  · rintro i d ⟨hi, rfl⟩
    refine hc.held i _ ⟨hi, ?_⟩
    show ((Function.update w₁.heap p ((w₁.heap p).put slot word ((w₁.heap p).used + 1))) i).dma = _
    by_cases hip : i = p
    · subst hip
      rw [Function.update_self]
      rfl
    · rw [Function.update_of_ne hip]
  · refine ⟨?_, ?_, ?_, ?_⟩
    · show Live w₁.owner.tables c
      rw [hc.owner]
      exact hc.new.live.2 (.inl rfl)
    · show ((Function.update w₁.heap p _) c).level = level
      rw [hheap, hcc, hc.new.level]
    · show ((Function.update w₁.heap p _) c).retiring = false
      rw [hheap, hcc, hc.new.retiring]
    · show stem level ((Function.update w₁.heap p _) c).address = _
      rw [hheap, hcc, hc.new.address]

/-! ## The walk down -/

/-- The levels below a level, down to the leaf. -/
def Descends : Level → List Level → Prop
  | level, [] => level = .leaf
  | level, next :: rest => next.parent = level ∧ next ≠ .root ∧ Descends next rest

theorem descend_shape {create : Bool} {address : Nat} {levels : List Level} {level : Level}
    {p : TableId} (h : Shape law w root M (some p))
    (hp : OnPath w.owner.tables w.heap address level p) (hd : Descends level levels) :
    Spec (descend port create address levels p) w
      (fun t w' => Shape law w' root M (some t) ∧ OnPath w'.owner.tables w'.heap address .leaf t)
      (fun _ _ => True) := by
  induction levels generalizing w level p with
  | nil =>
    cases hd
    exact ⟨h, hp⟩
  | cons next levels ih =>
    obtain ⟨rfl, hnr, hd⟩ := hd
    unfold descend
    refine .seq h.tableValid (fun _ w₁ h₁ => ?_) fun _ _ _ => trivial
    obtain ⟨h₁, ho₁, hh₁, -⟩ := h₁
    have hp₁ : OnPath w₁.owner.tables w₁.heap address next.parent p := by
      rw [ho₁, hh₁]
      exact hp
    refine .get_bind (.lift_bind (fun _ _ => trivial) fun slot hslot => ?_)
    obtain ⟨haddr, hslot⟩ := slotAt_ok.1 hslot
    rw [hp₁.at'] at hslot
    refine .lift_bind (fun _ _ => trivial) fun key hkey => .get_bind ?_
    -- A child that passes the check is on the path and takes the exception over.
    have hrest (c : TableId) (w₂ : World E) (h₂ : Shape law w₂ root M (some c))
        (hc : OnPath w₂.owner.tables w₂.heap address next c) :
        Spec (do
          tableValid port c
          let w ← get
          let word ← lift (directory (w.heap c).dma)
          failIf ((w.heap c).retiring = true ∨ (w.heap c).parent ≠ some p ∨
            (w.heap c).level ≠ next ∨ (w.heap p).words slot ≠ word ∨
            (w.heap p).level = .dual ∧ (w.heap p).words (slot - 1) ≠ 0) .Descriptor
          descend port create address levels c) w₂
          (fun t w' => Shape law w' root M (some t) ∧
            OnPath w'.owner.tables w'.heap address .leaf t) (fun _ _ => True) := by
      refine .seq h₂.tableValid (fun _ w₃ h₃ => ?_) fun _ _ _ => trivial
      obtain ⟨h₃, ho₃, hh₃, -⟩ := h₃
      refine .get_bind (.lift_bind (fun _ _ => trivial) fun word _ => ?_)
      refine .failIf_bind (fun _ => trivial) fun _ => ih h₃ ?_ hd
      rw [ho₃, hh₃]
      exact hc
    split
    · rename_i c hget
      refine .bind (.pure ?_)
      have hck := h₁.tree.key key c hget
      obtain ⟨hcl, hcs⟩ := tableKey_inj hck hkey
      refine .seq h₁.tableValid (fun _ w₂ h₂ => ?_) fun _ _ _ => trivial
      obtain ⟨h₂, ho₂, hh₂, -⟩ := h₂
      refine .get_bind (.lift_bind (fun _ _ => trivial) fun word _ => ?_)
      refine .failIf_bind (fun _ => trivial) fun hcheck => ?_
      rw [hh₂] at hcheck
      have hret : (w₁.heap c).retiring = false := by
        cases hr : (w₁.heap c).retiring with
        | false => rfl
        | true => exact absurd (.inl hr) hcheck
      have hpar : (w₁.heap c).parent = some p := by
        by_contra hn
        exact hcheck (.inr (.inl hn))
      have hc : OnPath w₁.owner.tables w₁.heap address next c :=
        ⟨⟨key, hget⟩, hcl, hret, by rw [← hcs, hcl]⟩
      have hcr : c ≠ root := by
        rintro rfl
        exact hnr (hcl.symm.trans h₁.tree.root_level)
      obtain ⟨q, hh⟩ := h₁.tree.hung c hc.live hcr hret
      obtain rfl : q = p := Option.some.inj (hh.parent.symm.trans hpar)
      have hfull := h₂.tree.fill (by rw [hh₂]; exact hh.used_pos h₁.tree)
      refine ih ⟨h₂.root, hfull.weaken _, h₂.retired, h₂.nodup, h₂.held⟩ ?_ hd
      rw [ho₂, hh₂]
      exact hc
    · exact .seq (linkChild_shape h₁ hp₁ hnr hslot) (fun c w₂ h₂ => hrest c w₂ h₂.1 h₂.2)
        fun _ _ _ => trivial

theorem leaf_shape {address : Nat} {create : Bool} (h : Shape law w root M none) :
    Spec (leaf port address create) w
      (fun t w' => Shape law w' root M (some t) ∧ OnPath w'.owner.tables w'.heap address .leaf t)
      (fun _ _ => True) := by
  unfold leaf
  refine .get_bind (.need_bind (fun _ => trivial) fun r hr => ?_)
  obtain rfl : root = r := Option.some.inj (h.root.symm.trans hr)
  have htop := h.tree.top
  have hp : OnPath w.owner.tables w.heap address .root root :=
    ⟨h.tree.live_root, h.tree.root_level, htop.2.1, rfl⟩
  refine descend_shape ⟨h.root, h.tree.weaken _, h.retired, h.nodup, h.held⟩ hp ?_
  simp [Descends, Level.parent]

/-! ## Retiring -/

theorem Tree.parent_none {c : TableId} {tables : Index} {heap : TableId → Table}
    (h : Tree tables heap root M exc) (hc : Live tables c) (hr : (heap c).retiring = false)
    (hp : (heap c).parent = none) : c = root := by
  by_contra hn
  obtain ⟨p, hh⟩ := h.hung c hc hn hr
  rw [hh.parent] at hp
  cases hp

theorem Shape.unlink (w' : World E) {c p : TableId} (h : Shape law w root M (some c)) (hc : Live w.owner.tables c)
    (hcr : c ≠ root) (hu : (w.heap c).used = 0) (hr : (w.heap c).retiring = false)
    (hh : Hung w.owner.tables w.heap c p)
    (ho : w'.owner = { w.owner with retired := c :: w.owner.retired })
    (hheap : w'.heap = Function.update (Function.update w.heap p ((w.heap p).put
      (slotOf (w.heap p).level (field (w.heap p).level (w.heap c).address)) 0
      ((w.heap p).used - 1))) c { w.heap c with retiring := true })
    (henv : law.Holds w.owner.tables w.heap w'.env) :
    Shape law w' root M (some p) ∧ (w'.heap p).retiring = false ∧
      (w'.heap p).level = (w.heap c).level.parent := by
  have htree := h.tree.unlink hc hcr hu hr hh
  rw [← hheap] at htree
  have hcp : c ≠ p := by
    rintro rfl
    have := hh.used_pos h.tree
    omega
  have hp : w'.heap p = (w.heap p).put (slotOf (w.heap p).level
      (field (w.heap p).level (w.heap c).address)) 0 ((w.heap p).used - 1) := by
    rw [hheap, Function.update_of_ne hcp.symm, Function.update_self]
  have hcc : w'.heap c = { w.heap c with retiring := true } := by
    rw [hheap, Function.update_self]
  have hsame {i : TableId} : (w'.heap i).dma = (w.heap i).dma ∧
      (i ≠ c → (w'.heap i).retiring = (w.heap i).retiring) := by
    by_cases hic : i = c
    · subst hic
      rw [hcc]
      exact ⟨rfl, fun hn => absurd rfl hn⟩
    · by_cases hip : i = p
      · subst hip
        rw [hp]
        exact ⟨rfl, fun _ => rfl⟩
      · rw [hheap, Function.update_of_ne hic, Function.update_of_ne hip]
        exact ⟨rfl, fun _ => rfl⟩
  refine ⟨⟨?_, ?_, fun i => ?_, ?_, ?_⟩, ?_, ?_⟩
  · rw [ho]
    exact h.root
  · rw [ho]
    exact htree
  · rw [ho]
    show i ∈ c :: w.owner.retired ↔ Live w.owner.tables i ∧ _
    rw [List.mem_cons, h.retired i]
    by_cases hic : i = c
    · subst hic
      simp [hc, hcc]
    · simp [hic, hsame.2 hic]
  · rw [ho]
    refine List.nodup_cons.mpr ⟨fun hin => ?_, h.nodup⟩
    rw [h.retired c, hr] at hin
    exact absurd hin.2 (by simp)
  · rintro i d ⟨hi, rfl⟩
    rw [ho] at hi
    exact henv i _ ⟨hi, hsame.1⟩
  · rw [hsame.2 hcp.symm]
    exact hh.not_retiring h.tree
  · rw [hp]
    exact hh.above

theorem retireEmpty_shape {depth : Nat} {c : TableId} (h : Shape law w root M (some c))
    (hc : Live w.owner.tables c) (hr : (w.heap c).retiring = false)
    (hd : (w.heap c).level.toNat ≤ depth) :
    Spec (retireEmpty port depth c) w (fun _ w' => Shape law w' root M none) (fun _ _ => True) := by
  have hroot {w : World E} (h : Shape law w root M (some root)) : Shape law w root M none :=
    ⟨h.root, h.tree.drop_root, h.retired, h.nodup, h.held⟩
  induction depth generalizing w c with
  | zero =>
    have hl : (w.heap c).level = .root := by
      revert hd
      cases (w.heap c).level <;> simp [Level.toNat]
    obtain rfl : c = root := h.tree.unique hc h.tree.live_root (hl.trans h.tree.root_level.symm) (by
      rw [hl, h.tree.root_level]
      rfl)
    exact hroot h
  | succ depth ih =>
    unfold retireEmpty
    refine .get_bind ?_
    split
    · rename_i hp
      obtain rfl := h.tree.parent_none hc hr hp
      exact .pure (hroot h)
    · rename_i p hp
      have hcr : c ≠ root := by
        rintro rfl
        rw [h.tree.top.2.2] at hp
        cases hp
      obtain ⟨q, hh⟩ := h.tree.hung c hc hcr hr
      obtain rfl : q = p := Option.some.inj (hh.parent.symm.trans hp)
      split
      · rename_i hu
        exact .pure ⟨h.root, h.tree.fill (Nat.pos_of_ne_zero hu), h.retired, h.nodup, h.held⟩
      rename_i hu
      have hu : (w.heap c).used = 0 := Decidable.not_not.mp hu
      refine .seq h.tableValid (fun _ w₁ h₁ => ?_) fun _ _ _ => trivial
      obtain ⟨h₁, ho₁, hh₁, -⟩ := h₁
      refine .seq h₁.tableValid (fun _ w₂ h₂ => ?_) fun _ _ _ => trivial
      obtain ⟨h₂, ho₂, hh₂, -⟩ := h₂
      obtain ⟨o₂, heap₂, env₂, trace₂⟩ := w₂
      obtain rfl : o₂ = w.owner := ho₂.trans ho₁
      obtain rfl : heap₂ = w.heap := hh₂.trans hh₁
      refine .get_bind (.failIf_bind (fun _ => trivial) fun _ => ?_)
      refine .lift_bind (fun _ _ => trivial) fun slot hslot => ?_
      obtain ⟨-, hslot⟩ := slotAt_ok.1 hslot
      refine .lift_bind (fun _ _ => trivial) fun word _ => .failIf_bind (fun _ => trivial) fun _ => ?_
      refine .bind ?_
      have h₃ := h.unlink ⟨{ w.owner with retired := c :: w.owner.retired },
        Function.update (Function.update w.heap q ((w.heap q).put slot 0 ((w.heap q).used - 1))) c
          { w.heap c with retiring := true }, env₂, trace₂ ++ [.unlink c q slot]⟩ hc hcr hu hr hh rfl
        (by rw [hslot]) h₂.held
      obtain ⟨h₃, hqr, hql⟩ := h₃
      refine ih h₃ hh.live hqr ?_
      rw [hql]
      have hcl := hh.level
      revert hd hcl
      cases (w.heap c).level <;> simp [Level.parent, Level.toNat]

/-! ## Pages -/

/-- A write into the leaf of an address. -/
theorem Shape.write (w' : World E) (v : Nat) {t : TableId} {address : Nat} (h : Shape law w root M (some t))
    (hp : OnPath w.owner.tables w.heap address .leaf t) (ha : address < vaLimit)
    (ho : w'.owner = w.owner)
    (hheap : w'.heap = Function.update w.heap t ((w.heap t).put (field .leaf address) v
      (load (Function.update (w.heap t).words (field .leaf address) v))))
    (henv : w'.env = w.env) :
    Shape law w' root (Function.update M (address / 4096) v) (some t) ∧
      OnPath w'.owner.tables w'.heap address .leaf t := by
  have hlt : field .leaf address < 512 := field_lt
  have hpage : stem .leaf (w.heap t).address * 512 + field .leaf address = address / 4096 := by
    have hsplit : address >>> 12 = stem .leaf address * 512 + field .leaf address :=
      @stem_split .leaf address ha
    rw [hp.stem, ← hsplit, Nat.shiftRight_eq_div_pow]
  have htree := h.tree.write (v := v) hp.live hp.at' hp.retiring hlt
  rw [hpage, ← hheap] at htree
  have hsame {i : TableId} : (w'.heap i).dma = (w.heap i).dma ∧
      (w'.heap i).retiring = (w.heap i).retiring ∧ (w'.heap i).level = (w.heap i).level ∧
      (w'.heap i).address = (w.heap i).address := by
    by_cases hi : i = t
    · subst hi
      rw [hheap, Function.update_self]
      exact ⟨rfl, rfl, rfl, rfl⟩
    · rw [hheap, Function.update_of_ne hi]
      exact ⟨rfl, rfl, rfl, rfl⟩
  refine ⟨⟨by rw [ho, h.root], by rw [ho]; exact htree, fun i => ?_, by rw [ho]; exact h.nodup, ?_⟩,
    by rw [ho]; exact hp.live, ?_, ?_, ?_⟩
  · rw [ho, hsame.2.1]
    exact h.retired i
  · rintro i d ⟨hi, rfl⟩
    rw [ho] at hi
    rw [henv]
    exact h.held i _ ⟨hi, hsame.1⟩
  · rw [hsame.2.2.1]
    exact hp.at'
  · rw [hsame.2.1]
    exact hp.retiring
  · rw [hsame.2.2.2]
    exact hp.stem

/-- One page of the work: its word is set or cleared in the tree. -/
theorem editPage_shape {range : Range} {binding : Binding E} {work : Work}
    (h : Shape law w root M none) (ha : range.address + binding.offset + work.offset < vaLimit) :
    Spec (editPage port range binding work) w
      (fun _ w' => ∃ e pa word,
        binding.source.physical (binding.source.offset + work.offset) e = .ok pa ∧
        page pa binding.source.policy = .ok word ∧
        Shape law w' root (Function.update M
          ((range.address + binding.offset + work.offset) / 4096)
          (if work.mapping then word else 0)) none) (fun _ _ => True) := by
  unfold editPage
  generalize range.address + binding.offset + work.offset = address at ha ⊢
  refine .get_bind (.lift_bind (fun _ _ => trivial) fun pa hpa => ?_)
  refine .lift_bind (fun _ _ => trivial) fun word hword => ?_
  refine .seq (leaf_shape h) (fun t w₁ h₁ => ?_) fun _ _ _ => trivial
  obtain ⟨h₁, hp⟩ := h₁
  refine .get_bind (.lift_bind (fun _ _ => trivial) fun slot hslot => ?_)
  obtain ⟨-, hslot⟩ := slotAt_ok.1 hslot
  rw [hp.at'] at hslot
  have hslot : slot = field .leaf address := hslot
  subst hslot
  have hlt : field .leaf address < 512 := field_lt
  have hne := page_ne_zero hword
  have hused := h₁.tree.used t hp.live
  split
  · rename_i hm
    refine .failIf_bind (fun _ => trivial) fun hcheck => ?_
    have hzero : (w₁.heap t).words (field .leaf address) = 0 :=
      Decidable.not_not.mp (not_or.mp hcheck).1
    have hload := load_set hlt hzero hne
    have hw := h₁.write { w₁ with
      heap := Function.update w₁.heap t ((w₁.heap t).put (field .leaf address) word
        ((w₁.heap t).used + 1))
      trace := w₁.trace ++ [.set t (field .leaf address) word] } word hp ha rfl (by
        rw [hload, ← hused]) rfl
    refine ⟨w.env, pa, word, hpa, hword, ?_⟩
    have hfull := hw.1.tree.fill (by
      rw [hw.1.tree.used t hw.2.live]
      refine load_pos hlt ?_
      show ((Function.update w₁.heap t _) t).words _ ≠ 0
      rw [Function.update_self]
      show Function.update (w₁.heap t).words _ word _ ≠ 0
      rw [Function.update_self]
      exact hne)
    exact ⟨hw.1.root, hfull, hw.1.retired, hw.1.nodup, hw.1.held⟩
  · rename_i hm
    refine .failIf_bind (fun _ => trivial) fun hcheck => ?_
    have hword' : (w₁.heap t).words (field .leaf address) ≠ 0 := by
      rw [Decidable.not_not.mp (not_or.mp hcheck).1]
      exact hne
    have hload := load_clear hlt hword'
    have hw := h₁.write { w₁ with
      heap := Function.update w₁.heap t ((w₁.heap t).put (field .leaf address) 0
        ((w₁.heap t).used - 1))
      trace := w₁.trace ++ [.set t (field .leaf address) 0] } 0 hp ha rfl (by
        rw [hused, hload, Nat.add_sub_cancel]) rfl
    refine .bind (?_ : Spec (retireEmpty port 5 t >>= _) _ _ _)
    refine .seq (retireEmpty_shape hw.1 hw.2.live hw.2.retiring (by rw [hw.2.at']; decide))
      (fun _ w₂ h₂ => ?_) fun _ _ _ => trivial
    refine ⟨w.env, pa, word, hpa, hword, ?_⟩
    exact ⟨h₂.root, h₂.tree, h₂.retired, h₂.nodup, h₂.held⟩

/-- A retired table leaves the index. -/
theorem Shape.release {t : TableId} {next : List TableId} {k : Nat} (h : Shape law w root M none)
    (hr : w.owner.retired = t :: next)
    (hk : tableKey (w.heap t).level (w.heap t).address = .ok k)
    (ho : w'.owner = { w.owner with tables := w.owner.tables.erase k, retired := next })
    (hheap : w'.heap = w.heap) (henv : w'.env = (port.release t w.env).2) :
    Shape law w' root M none := by
  obtain ⟨hlive, hret⟩ := (h.retired t).mp (by rw [hr]; exact List.mem_cons_self)
  have hget := h.tree.get hlive hk rfl
  have hnodup := h.nodup
  rw [hr, List.nodup_cons] at hnodup
  have hiff {i : TableId} := h.tree.live_erase hget (i := i)
  refine ⟨?_, ?_, fun i => ?_, ?_, ?_⟩
  · rw [ho]
    exact h.root
  · rw [ho, hheap]
    exact h.tree.release hget hret
  · rw [ho, hheap]
    show i ∈ next ↔ Live (w.owner.tables.erase k) i ∧ _
    have hmem := h.retired i
    rw [hr, List.mem_cons] at hmem
    rw [hiff]
    constructor
    · intro hin
      obtain ⟨hl, hri⟩ := hmem.mp (.inr hin)
      exact ⟨⟨hl, fun heq => hnodup.1 (heq ▸ hin)⟩, hri⟩
    · rintro ⟨⟨hl, hne⟩, hri⟩
      exact (hmem.mpr ⟨hl, hri⟩).resolve_left hne
  · rw [ho]
    exact hnodup.2
  · rintro i d ⟨hi, rfl⟩
    rw [ho] at hi
    obtain ⟨hl, hne⟩ := hiff.mp hi
    rw [henv, hheap]
    exact law.release _ _ _ _ hne (h.held i _ ⟨hl, rfl⟩)

end Vm
end NvidiaGsp
