import NvidiaGsp.Lib.Counts
import NvidiaGsp.Vm.Owner

/-!
# Vm.Tree

The tables as a tree. `Tree tables heap root M exc` says that the indexed tables form a radix tree
under `root` whose leaves hold exactly the words `M` gives each page: every table but the root hangs
in one word of its parent, every word of an inner table points at such a child, counts are exact,
and no table but `exc` is empty. Retired tables are empty and hang nowhere.

The four edits of the owner each have a lemma: linking a new child, setting and clearing the word of
a page, and unlinking an empty table; a fifth drops a retired table from the index.
-/

namespace NvidiaGsp
namespace Vm

open Counts

abbrev Index := Std.TreeMap Nat TableId

/-- The table is in the index. -/
def Live (tables : Index) (i : TableId) : Prop := ∃ k : Nat, tables[k]? = some i

/-- The words of a page that are in use. -/
def load (words : Nat → Nat) : Nat := (List.range 512).countP fun s => words s ≠ 0

section

variable {words : Nat → Nat} {s v : Nat}

theorem load_set (hs : s < 512) (hz : words s = 0) (hv : v ≠ 0) :
    load (Function.update words s v) = load words + 1 := by
  refine countP_turn_off List.nodup_range (List.mem_range.mpr hs) (by simp [hv]) (by simp [hz]) ?_
  intro j _ hj
  simp [Function.update_of_ne hj]

theorem load_clear (hs : s < 512) (hv : words s ≠ 0) :
    load words = load (Function.update words s 0) + 1 := by
  refine countP_turn_off List.nodup_range (List.mem_range.mpr hs) (by simp [hv]) (by simp) ?_
  intro j _ hj
  simp [Function.update_of_ne hj]

theorem load_eq_zero : load words = 0 ↔ ∀ s < 512, words s = 0 := by
  simp [load, List.countP_eq_zero]

theorem load_pos (hs : s < 512) (hv : words s ≠ 0) : 0 < load words := by
  rw [Nat.pos_iff_ne_zero, Ne, load_eq_zero]
  exact fun h => hv (h s hs)

end

theorem insert_get {tables : Index} {k a : Nat} {i : TableId} :
    (tables.insert k i)[a]? = if k = a then some i else tables[a]? := by
  rw [Std.TreeMap.getElem?_insert]
  simp

theorem erase_get {tables : Index} {k a : Nat} :
    (tables.erase k)[a]? = if k = a then none else tables[a]? := by
  rw [Std.TreeMap.getElem?_erase]
  simp

/-- The word of `p` for an address. -/
def entry (heap : TableId → Table) (p : TableId) (address : Nat) : Nat :=
  (heap p).words (slotOf (heap p).level (field (heap p).level address))

/-- Table `i` hangs in its parent `p`. -/
structure Hung (tables : Index) (heap : TableId → Table) (i p : TableId) : Prop where
  parent : (heap i).parent = some p
  live : Live tables p
  level : (heap i).level ≠ .root
  above : (heap p).level = (heap i).level.parent
  stem : stem (heap p).level (heap i).address = stem (heap p).level (heap p).address
  word : directory (heap i).dma = .ok (entry heap p (heap i).address)

structure Tree (tables : Index) (heap : TableId → Table) (root : TableId) (M : Nat → Nat)
    (exc : Option TableId) : Prop where
  key : ∀ (k : Nat) i, tables[k]? = some i → tableKey (heap i).level (heap i).address = .ok k
  top : tables[0]? = some root ∧ (heap root).retiring = false ∧ (heap root).parent = none
  hung : ∀ i, Live tables i → i ≠ root → (heap i).retiring = false → ∃ p, Hung tables heap i p
  child : ∀ p, Live tables p → (heap p).level ≠ .leaf → ∀ s, (heap p).words s ≠ 0 →
    ∃ i, Live tables i ∧ (heap i).retiring = false ∧ Hung tables heap i p ∧
      s = slotOf (heap p).level (field (heap p).level (heap i).address)
  leaf : ∀ p, Live tables p → (heap p).level = .leaf → ∀ s < 512,
    (heap p).words s = if (heap p).retiring then 0 else M (stem .leaf (heap p).address * 512 + s)
  bound : ∀ p, Live tables p → ∀ s, (heap p).words s ≠ 0 → s < 512
  used : ∀ i, Live tables i → (heap i).used = load (heap i).words
  retired : ∀ i, Live tables i → (heap i).retiring = true → (heap i).used = 0
  nonempty : ∀ i, Live tables i → i ≠ root → (heap i).retiring = false → exc ≠ some i →
    0 < (heap i).used
  cover : ∀ n, M n ≠ 0 → ∃ i, Live tables i ∧ (heap i).level = .leaf ∧ (heap i).retiring = false ∧
    stem .leaf (heap i).address = n / 512
  dma : ∀ i j, Live tables i → Live tables j → (heap i).dma = (heap j).dma → i = j

section

variable {tables : Index} {heap : TableId → Table} {root : TableId} {M : Nat → Nat}
  {exc : Option TableId}

theorem Tree.live_root (h : Tree tables heap root M exc) : Live tables root := ⟨0, h.top.1⟩

theorem Tree.root_level (h : Tree tables heap root M exc) : (heap root).level = .root := by
  have hkey := h.key 0 root h.top.1
  exact (tableKey_inj hkey (show tableKey .root 0 = .ok 0 by rfl)).1

theorem Tree.address_lt (h : Tree tables heap root M exc) {i : TableId} (hi : Live tables i) :
    (heap i).address < vaLimit := by
  obtain ⟨k, hk⟩ := hi
  exact (tableKey_ok.1 (h.key k i hk)).1

/-- Level and stem name a table. -/
theorem Tree.unique (h : Tree tables heap root M exc) {i j : TableId} (hi : Live tables i)
    (hj : Live tables j) (hl : (heap i).level = (heap j).level)
    (hs : stem (heap i).level (heap i).address = stem (heap j).level (heap j).address) : i = j := by
  obtain ⟨k, hk⟩ := hi
  obtain ⟨k', hk'⟩ := hj
  have hi := (tableKey_ok.1 (h.key k i hk)).2
  have hj := (tableKey_ok.1 (h.key k' j hk')).2
  rw [hl, ← hl, hs, hl] at hi
  rw [hi, ← hj, hk'] at hk
  exact (Option.some.inj hk).symm

/-- A table with a level and a stem is found under their key. -/
theorem Tree.get (h : Tree tables heap root M exc) {i : TableId} (hi : Live tables i)
    {address k : Nat} (hk : tableKey (heap i).level address = .ok k)
    (hs : stem (heap i).level (heap i).address = stem (heap i).level address) :
    tables[k]? = some i := by
  obtain ⟨k', hk'⟩ := hi
  obtain ⟨-, rfl⟩ := tableKey_ok.1 hk
  obtain ⟨-, rfl⟩ := tableKey_ok.1 (h.key k' i hk')
  rw [← hs]
  exact hk'

theorem Tree.weaken (h : Tree tables heap root M none) (x : Option TableId) :
    Tree tables heap root M x :=
  { h with nonempty := fun i hi hr hn _ => h.nonempty i hi hr hn (by simp) }

/-- The exception can be dropped when its table has a word. -/
theorem Tree.fill {x : TableId} (h : Tree tables heap root M (some x)) (hx : 0 < (heap x).used) :
    Tree tables heap root M none := by
  refine { h with nonempty := fun i hi hr hn _ => ?_ }
  by_cases hix : x = i
  · exact hix ▸ hx
  · exact h.nonempty i hi hr hn fun he => hix (Option.some.inj he)

theorem Tree.drop_root (h : Tree tables heap root M (some root)) : Tree tables heap root M none := by
  refine { h with nonempty := fun i hi hr hn _ => ?_ }
  exact h.nonempty i hi hr hn fun he => hr (Option.some.inj he).symm

theorem Hung.ne_zero {i p : TableId} (h : Hung tables heap i p) : entry heap p (heap i).address ≠ 0 :=
  (directory_ok h.word).2.2

theorem Hung.used_pos {i p : TableId} (h : Hung tables heap i p) (ht : Tree tables heap root M exc) :
    0 < (heap p).used := by
  rw [ht.used p h.live]
  exact load_pos (ht.bound p h.live _ h.ne_zero) h.ne_zero

theorem Hung.not_retiring {i p : TableId} (h : Hung tables heap i p)
    (ht : Tree tables heap root M exc) : (heap p).retiring = false := by
  cases hr : (heap p).retiring with
  | false => rfl
  | true =>
    have := h.used_pos ht
    have := ht.retired p h.live hr
    omega

theorem Hung.field_lt {i p : TableId} (_ : Hung tables heap i p) :
    slotOf (heap p).level (field (heap p).level (heap i).address) < 512 :=
  slotOf_lt Vm.field_lt

/-- A retired table has no word. -/
theorem Tree.retired_words (h : Tree tables heap root M exc) {i : TableId} (hi : Live tables i)
    (hu : (heap i).used = 0) (s : Nat) : (heap i).words s = 0 := by
  by_contra hne
  have hlt := h.bound i hi s hne
  rw [h.used i hi, load_eq_zero] at hu
  exact hne (hu s hlt)

/-- An unchanged part of the heap keeps its tables hung. -/
theorem Hung.congr {tables' : Index} {heap' : TableId → Table} {i p : TableId}
    (h : Hung tables heap i p) (hlive : Live tables' p)
    (hparent : (heap' i).parent = (heap i).parent) (hlevel : (heap' i).level = (heap i).level)
    (haddr : (heap' i).address = (heap i).address) (hdma : (heap' i).dma = (heap i).dma)
    (hplevel : (heap' p).level = (heap p).level) (hpaddr : (heap' p).address = (heap p).address)
    (hword : entry heap' p (heap i).address = entry heap p (heap i).address) :
    Hung tables' heap' i p := by
  refine ⟨hparent.trans h.parent, hlive, hlevel ▸ h.level, ?_, ?_, ?_⟩
  · rw [hplevel, hlevel]
    exact h.above
  · rw [hplevel, haddr, hpaddr]
    exact h.stem
  · rw [hdma, haddr, hword]
    exact h.word

end

/-! ## Linking a child -/

/-- What a new table brings. -/
structure NewTable (tables : Index) (heap : TableId → Table) (l : Level) (a k : Nat)
    (c : TableId) (t : Table) : Prop where
  level : t.level = l
  address : t.address = a
  key : tableKey l a = .ok k
  absent : tables[k]? = none
  fresh : ¬ Live tables c
  zero : ∀ s, t.words s = 0
  used : t.used = 0
  retiring : t.retiring = false
  dma : ∀ i, Live tables i → (heap i).dma ≠ t.dma

section

variable {tables : Index} {heap : TableId → Table} {root c p : TableId} {M : Nat → Nat}
  {level : Level} {address key word : Nat} {t : Table}

theorem NewTable.live {i : TableId} (hn : NewTable tables heap level address key c t) :
    Live (tables.insert key c) i ↔ i = c ∨ Live tables i := by
  constructor
  · rintro ⟨k, hk⟩
    rw [insert_get] at hk
    split at hk
    · exact .inl (Option.some.inj hk).symm
    · exact .inr ⟨k, hk⟩
  · rintro (rfl | ⟨k, hk⟩)
    · exact ⟨key, by rw [insert_get, if_pos rfl]⟩
    · refine ⟨k, ?_⟩
      rw [insert_get, if_neg]
      · exact hk
      · rintro rfl
        rw [hn.absent] at hk
        cases hk

/-- A page under a table that does not exist is not mapped. -/
theorem NewTable.unmapped {exc : Option TableId} (hn : NewTable tables heap .leaf address key c t)
    (h : Tree tables heap root M exc) {s : Nat} (hs : s < 512) : M (stem .leaf address * 512 + s) = 0 := by
  by_contra hne
  obtain ⟨i, hi, hl, -, hstem⟩ := h.cover _ hne
  have hget := @Tree.get _ _ _ _ _ h i hi address key (by rw [hl]; exact hn.key) (by
    rw [hl, hstem]
    omega)
  rw [hn.absent] at hget
  cases hget

theorem Tree.link (h : Tree tables heap root M (some p))
    (hn : NewTable tables heap level address key c t) (hp : Live tables p)
    (hpr : (heap p).retiring = false) (hlevel : level ≠ .root) (habove : (heap p).level = level.parent)
    (hstem : stem (heap p).level address = stem (heap p).level (heap p).address)
    (hparent : t.parent = some p)
    (hslot : entry heap p address = 0) (hdir : directory t.dma = .ok word) :
    Tree (tables.insert key c) (Function.update (Function.update heap c t) p ((heap p).put
      (slotOf (heap p).level (field (heap p).level address)) word ((heap p).used + 1))) root M
      (some c) := by
  generalize hslot' : slotOf (heap p).level (field (heap p).level address) = slot
  have hzero : (heap p).words slot = 0 := by
    rw [← hslot']
    exact hslot
  have hword : word ≠ 0 := (directory_ok hdir).2.2
  have hlt : slot < 512 := by
    rw [← hslot']
    exact slotOf_lt field_lt
  have hcp : c ≠ p := fun heq => hn.fresh (heq ▸ hp)
  have hold {i : TableId} (hi : Live tables i) : i ≠ c := fun heq => hn.fresh (heq ▸ hi)
  generalize hheap : Function.update (Function.update heap c t) p ((heap p).put slot word
    ((heap p).used + 1)) = heap'
  have hc : heap' c = t := by
    rw [← hheap, Function.update_of_ne hcp, Function.update_self]
  have hpp : heap' p = (heap p).put slot word ((heap p).used + 1) := by
    rw [← hheap, Function.update_self]
  have hother {i : TableId} (hic : i ≠ c) (hip : i ≠ p) : heap' i = heap i := by
    rw [← hheap, Function.update_of_ne hip, Function.update_of_ne hic]
  have hsame {i : TableId} (hi : Live tables i) : (heap' i).level = (heap i).level ∧
      (heap' i).address = (heap i).address ∧ (heap' i).parent = (heap i).parent ∧
      (heap' i).dma = (heap i).dma ∧ (heap' i).retiring = (heap i).retiring := by
    by_cases hip : i = p
    · subst hip
      rw [hpp]
      exact ⟨rfl, rfl, rfl, rfl, rfl⟩
    · rw [hother (hold hi) hip]
      exact ⟨rfl, rfl, rfl, rfl, rfl⟩
  -- Of the old words only the one of the new child changed.
  have hwords {i : TableId} {s : Nat} (hi : Live tables i) (hs : i = p → s ≠ slot) :
      (heap' i).words s = (heap i).words s := by
    by_cases hip : i = p
    · subst hip
      rw [hpp]
      exact Function.update_of_ne (hs rfl) _ _
    · rw [hother (hold hi) hip]
  have hhung {i q : TableId} (hi : Live tables i) (hh : Hung tables heap i q) :
      Hung (tables.insert key c) heap' i q := by
    obtain ⟨a₁, a₂, a₃, a₄, -⟩ := hsame hi
    obtain ⟨b₁, b₂, -, -, -⟩ := hsame hh.live
    refine hh.congr (hn.live.2 (.inr hh.live)) a₃ a₁ a₂ a₄ b₁ b₂ ?_
    unfold entry
    rw [b₁]
    refine hwords hh.live fun hq heq => ?_
    have hne := hh.ne_zero
    unfold entry at hne
    rw [heq, hq] at hne
    exact hne hzero
  refine ⟨fun k i hk => ?_, ?_, fun i hi hir hret => ?_, fun q hq hl s hs => ?_,
    fun q hq hl s hs => ?_, fun q hq s hs => ?_, fun i hi => ?_, fun i hi hret => ?_,
    fun i hi hir hret hexc => ?_, fun n hM => ?_, fun i j hi hj hd => ?_⟩
  · rw [insert_get] at hk
    split at hk
    · rename_i heq
      cases hk
      rw [hc, hn.level, hn.address, ← heq]
      exact hn.key
    · obtain ⟨a₁, a₂, -⟩ := hsame ⟨k, hk⟩
      rw [a₁, a₂]
      exact h.key k i hk
  · refine ⟨?_, ?_⟩
    · rw [insert_get, if_neg]
      · exact h.top.1
      · rintro rfl
        have habsent := hn.absent
        rw [h.top.1] at habsent
        cases habsent
    · rw [(hsame h.live_root).2.2.2.2, (hsame h.live_root).2.2.1]
      exact h.top.2
  · rcases hn.live.1 hi with rfl | hi
    · refine ⟨p, by rw [hc, hparent], hn.live.2 (.inr hp), by rw [hc, hn.level]; exact hlevel, ?_, ?_, ?_⟩
      · rw [(hsame hp).1, hc, hn.level]
        exact habove
      · rw [(hsame hp).1, hc, hn.address, (hsame hp).2.1]
        exact hstem
      · unfold entry
        rw [hc, hn.address, (hsame hp).1, hslot', hpp]
        show directory t.dma = .ok (Function.update (heap p).words slot word slot)
        rw [Function.update_self]
        exact hdir
    · rw [(hsame hi).2.2.2.2] at hret
      obtain ⟨q, hh⟩ := h.hung i hi hir hret
      exact ⟨q, hhung hi hh⟩
  · rcases hn.live.1 hq with rfl | hq
    · rw [hc] at hs
      exact absurd (hn.zero s) hs
    · by_cases hnew : q = p ∧ s = slot
      · obtain ⟨rfl, rfl⟩ := hnew
        have hlive : Live (tables.insert key c) c := hn.live.2 (.inl rfl)
        refine ⟨c, hlive, by rw [hc, hn.retiring], ?_, ?_⟩
        · refine ⟨by rw [hc, hparent], hn.live.2 (.inr hq), by rw [hc, hn.level]; exact hlevel, ?_, ?_, ?_⟩
          · rw [(hsame hq).1, hc, hn.level]
            exact habove
          · rw [(hsame hq).1, hc, hn.address, (hsame hq).2.1]
            exact hstem
          · unfold entry
            rw [hc, hn.address, (hsame hq).1, hslot', hpp]
            show directory t.dma = .ok (Function.update (heap q).words s word s)
            rw [Function.update_self]
            exact hdir
        · rw [(hsame hq).1, hc, hn.address, hslot']
      · rw [hwords hq fun hqp hsl => hnew ⟨hqp, hsl⟩] at hs
        rw [(hsame hq).1] at hl ⊢
        obtain ⟨i, hi, hret, hh, heq⟩ := h.child q hq hl s hs
        refine ⟨i, hn.live.2 (.inr hi), ?_, hhung hi hh, ?_⟩
        · rw [(hsame hi).2.2.2.2]
          exact hret
        · rw [(hsame hi).2.1]
          exact heq
  · rcases hn.live.1 hq with rfl | hq
    · rw [hc] at hl ⊢
      rw [hn.zero, hn.retiring, hn.address]
      rw [hn.level] at hl
      subst hl
      exact (hn.unmapped h hs).symm
    · obtain ⟨a₁, a₂, -, -, a₅⟩ := hsame hq
      rw [a₁] at hl
      rw [hwords hq, a₂, a₅]
      · exact h.leaf q hq hl s hs
      · intro hqp _
        rw [hqp, habove] at hl
        cases level <;> simp [Level.parent] at hl
  · rcases hn.live.1 hq with rfl | hq
    · rw [hc] at hs
      exact absurd (hn.zero s) hs
    · by_cases hnew : q = p ∧ s = slot
      · rw [hnew.2]
        exact hlt
      · rw [hwords hq fun hqp hsl => hnew ⟨hqp, hsl⟩] at hs
        exact h.bound q hq s hs
  · rcases hn.live.1 hi with rfl | hi
    · rw [hc, hn.used]
      exact (load_eq_zero.2 fun s _ => hn.zero s).symm
    · by_cases hip : i = p
      · subst hip
        rw [hpp]
        show (heap i).used + 1 = load (Function.update (heap i).words slot word)
        rw [load_set hlt hzero hword, h.used i hi]
      · rw [hother (hold hi) hip]
        exact h.used i hi
  · rcases hn.live.1 hi with rfl | hi
    · rw [hc, hn.retiring] at hret
      cases hret
    · by_cases hip : i = p
      · subst hip
        rw [(hsame hi).2.2.2.2, hpr] at hret
        cases hret
      · rw [hother (hold hi) hip] at hret ⊢
        exact h.retired i hi hret
  · rcases hn.live.1 hi with rfl | hi
    · exact absurd rfl hexc
    · by_cases hip : i = p
      · subst hip
        rw [hpp]
        exact Nat.succ_pos _
      · rw [hother (hold hi) hip] at hret ⊢
        exact h.nonempty i hi hir hret fun he => hip (Option.some.inj he).symm
  · obtain ⟨i, hi, hl, hret, hst⟩ := h.cover n hM
    obtain ⟨a₁, a₂, -, -, a₅⟩ := hsame hi
    exact ⟨i, hn.live.2 (.inr hi), by rw [a₁, hl], by rw [a₅, hret], by rw [a₂, hst]⟩
  · rcases hn.live.1 hi with hi' | hi' <;> rcases hn.live.1 hj with hj' | hj'
    · exact hi'.trans hj'.symm
    · rw [hi', hc, (hsame hj').2.2.2.1] at hd
      exact absurd hd.symm (hn.dma j hj')
    · rw [hj', hc, (hsame hi').2.2.2.1] at hd
      exact absurd hd (hn.dma i hi')
    · rw [(hsame hi').2.2.2.1, (hsame hj').2.2.2.1] at hd
      exact h.dma i j hi' hj' hd

end

/-! ## Pages -/

section

variable {tables : Index} {heap : TableId → Table} {root c p t : TableId} {M : Nat → Nat}

theorem Hung.not_leaf {i : TableId} (h : Hung tables heap i p) : (heap p).level ≠ .leaf := by
  rw [h.above]
  cases (heap i).level <;> simp [Level.parent]

/-- The word of a page changes: nothing else hangs in a leaf. -/
theorem Tree.write {s v : Nat} (h : Tree tables heap root M (some t)) (ht : Live tables t)
    (hl : (heap t).level = .leaf) (hr : (heap t).retiring = false) (hs : s < 512) :
    Tree tables (Function.update heap t ((heap t).put s v (load (Function.update (heap t).words s v))))
      root (Function.update M (stem .leaf (heap t).address * 512 + s) v) (some t) := by
  generalize hheap : Function.update heap t ((heap t).put s v
    (load (Function.update (heap t).words s v))) = heap'
  have htt : heap' t = (heap t).put s v (load (Function.update (heap t).words s v)) := by
    rw [← hheap, Function.update_self]
  have hother {i : TableId} (hi : i ≠ t) : heap' i = heap i := by
    rw [← hheap, Function.update_of_ne hi]
  have hsame (i : TableId) : (heap' i).level = (heap i).level ∧
      (heap' i).address = (heap i).address ∧ (heap' i).parent = (heap i).parent ∧
      (heap' i).dma = (heap i).dma ∧ (heap' i).retiring = (heap i).retiring := by
    by_cases hi : i = t
    · subst hi
      rw [htt]
      exact ⟨rfl, rfl, rfl, rfl, rfl⟩
    · rw [hother hi]
      exact ⟨rfl, rfl, rfl, rfl, rfl⟩
  have hhung {i q : TableId} (hh : Hung tables heap i q) : Hung tables heap' i q := by
    have hq : q ≠ t := fun heq => hh.not_leaf (heq ▸ hl)
    obtain ⟨a₁, a₂, a₃, a₄, -⟩ := hsame i
    refine hh.congr hh.live a₃ a₁ a₂ a₄ (by rw [hother hq]) (by rw [hother hq]) ?_
    unfold entry
    rw [hother hq]
  refine ⟨fun k i hk => ?_, ?_, fun i hi hir hret => ?_, fun q hq hql s' hs' => ?_,
    fun q hq hql s' hs' => ?_, fun q hq s' hs' => ?_, fun i hi => ?_, fun i hi hret => ?_,
    fun i hi hir hret hexc => ?_, fun n hM => ?_, fun i j hi hj hd => ?_⟩
  · rw [(hsame i).1, (hsame i).2.1]
    exact h.key k i hk
  · rw [(hsame root).2.2.2.2, (hsame root).2.2.1]
    exact h.top
  · rw [(hsame i).2.2.2.2] at hret
    obtain ⟨q, hh⟩ := h.hung i hi hir hret
    exact ⟨q, hhung hh⟩
  · have hqt : q ≠ t := fun heq => hql (by rw [heq, (hsame t).1, hl])
    rw [hother hqt] at hql hs' ⊢
    obtain ⟨i, hi, hret, hh, heq⟩ := h.child q hq hql s' hs'
    refine ⟨i, hi, ?_, hhung hh, ?_⟩
    · rw [(hsame i).2.2.2.2, hret]
    · rw [(hsame i).2.1]
      exact heq
  · obtain ⟨a₁, a₂, -, -, a₅⟩ := hsame q
    rw [a₁] at hql
    rw [a₂, a₅]
    by_cases hqt : q = t
    · subst hqt
      rw [htt, hr]
      show Function.update (heap q).words s v s' = Function.update M _ v _
      have hold := h.leaf q hq hl s' hs'
      rw [hr] at hold
      by_cases hss : s' = s
      · subst hss
        rw [Function.update_self, Function.update_self]
      · rw [Function.update_of_ne hss, Function.update_of_ne (by omega)]
        exact hold
    · rw [hother hqt, h.leaf q hq hql s' hs']
      split
      · rfl
      · rw [Function.update_of_ne]
        intro heq
        refine hqt (h.unique hq ht (hql.trans hl.symm) ?_)
        rw [hql, hl]
        omega
  · by_cases hqt : q = t
    · subst hqt
      rw [htt] at hs'
      by_cases hss : s' = s
      · omega
      · have hs' : Function.update (heap q).words s v s' ≠ 0 := hs'
        rw [Function.update_of_ne hss] at hs'
        exact h.bound q hq s' hs'
    · rw [hother hqt] at hs'
      exact h.bound q hq s' hs'
  · by_cases hit : i = t
    · subst hit
      rw [htt]
      simp only [Table.put]
    · rw [hother hit]
      exact h.used i hi
  · by_cases hit : i = t
    · subst hit
      rw [(hsame i).2.2.2.2, hr] at hret
      cases hret
    · rw [hother hit] at hret ⊢
      exact h.retired i hi hret
  · have hit : i ≠ t := fun heq => hexc (by rw [heq])
    rw [hother hit] at hret ⊢
    exact h.nonempty i hi hir hret hexc
  · by_cases hn : n = stem .leaf (heap t).address * 512 + s
    · exact ⟨t, ht, by rw [(hsame t).1, hl], by rw [(hsame t).2.2.2.2, hr], by
        rw [(hsame t).2.1, hn]
        omega⟩
    · rw [Function.update_of_ne hn] at hM
      obtain ⟨i, hi, hil, hret, hst⟩ := h.cover n hM
      obtain ⟨a₁, a₂, -, -, a₅⟩ := hsame i
      exact ⟨i, hi, by rw [a₁, hil], by rw [a₅, hret], by rw [a₂, hst]⟩
  · rw [(hsame i).2.2.2.1, (hsame j).2.2.2.1] at hd
    exact h.dma i j hi hj hd

/-! ## Unlinking and releasing -/

theorem Tree.hung_unique {exc : Option TableId} (h : Tree tables heap root M exc) {i j : TableId}
    (hi : Live tables i) (hj : Live tables j) (hip : Hung tables heap i p) (hjp : Hung tables heap j p)
    (hs : slotOf (heap p).level (field (heap p).level (heap i).address) =
      slotOf (heap p).level (field (heap p).level (heap j).address)) : i = j := by
  have hi' := hip.word
  have hj' := hjp.word
  unfold entry at hi' hj'
  rw [hs] at hi'
  exact h.dma i j hi hj (directory_inj hi' hj')

theorem Tree.unlink (h : Tree tables heap root M (some c)) (hc : Live tables c) (hcr : c ≠ root)
    (hu : (heap c).used = 0) (hret : (heap c).retiring = false) (hh : Hung tables heap c p) :
    Tree tables (Function.update (Function.update heap p ((heap p).put
      (slotOf (heap p).level (field (heap p).level (heap c).address)) 0 ((heap p).used - 1))) c
      { heap c with retiring := true }) root M (some p) := by
  generalize hslot : slotOf (heap p).level (field (heap p).level (heap c).address) = slot
  have hlt : slot < 512 := by
    rw [← hslot]
    exact slotOf_lt field_lt
  have hword : (heap p).words slot ≠ 0 := by
    rw [← hslot]
    exact hh.ne_zero
  have hempty := h.retired_words hc hu
  have hpr := hh.not_retiring h
  have hcp : c ≠ p := by
    intro heq
    have := hh.used_pos h
    rw [← heq] at this
    omega
  generalize hheap : Function.update (Function.update heap p ((heap p).put slot 0
    ((heap p).used - 1))) c { heap c with retiring := true } = heap'
  have hcc : heap' c = { heap c with retiring := true } := by rw [← hheap, Function.update_self]
  have hpp : heap' p = (heap p).put slot 0 ((heap p).used - 1) := by
    rw [← hheap, Function.update_of_ne hcp.symm, Function.update_self]
  have hother {i : TableId} (hic : i ≠ c) (hip : i ≠ p) : heap' i = heap i := by
    rw [← hheap, Function.update_of_ne hic, Function.update_of_ne hip]
  have hsame (i : TableId) : (heap' i).level = (heap i).level ∧
      (heap' i).address = (heap i).address ∧ (heap' i).parent = (heap i).parent ∧
      (heap' i).dma = (heap i).dma ∧ (i ≠ c → (heap' i).retiring = (heap i).retiring) := by
    by_cases hic : i = c
    · subst hic
      rw [hcc]
      exact ⟨rfl, rfl, rfl, rfl, fun hn => absurd rfl hn⟩
    · by_cases hip : i = p
      · subst hip
        rw [hpp]
        exact ⟨rfl, rfl, rfl, rfl, fun _ => rfl⟩
      · rw [hother hic hip]
        exact ⟨rfl, rfl, rfl, rfl, fun _ => rfl⟩
  have hwords {i : TableId} {s : Nat} (hs : i = p → s ≠ slot) : (heap' i).words s = (heap i).words s := by
    by_cases hic : i = c
    · subst hic
      rw [hcc]
    · by_cases hip : i = p
      · subst hip
        rw [hpp]
        exact Function.update_of_ne (hs rfl) _ _
      · rw [hother hic hip]
  have hlive {i : TableId} (hi : (heap' i).retiring = false) : i ≠ c ∧ (heap i).retiring = false := by
    have hic : i ≠ c := by
      rintro rfl
      rw [hcc] at hi
      cases hi
    exact ⟨hic, by rw [← (hsame i).2.2.2.2 hic, hi]⟩
  have hhung {i q : TableId} (hi : Live tables i) (hic : i ≠ c) (hiq : Hung tables heap i q) :
      Hung tables heap' i q := by
    obtain ⟨a₁, a₂, a₃, a₄, -⟩ := hsame i
    obtain ⟨b₁, b₂, -, -, -⟩ := hsame q
    refine hiq.congr hiq.live a₃ a₁ a₂ a₄ b₁ b₂ ?_
    unfold entry
    rw [b₁]
    refine hwords fun hqp heq => hic ?_
    subst hqp
    exact h.hung_unique hi hc hiq hh (heq.trans hslot.symm)
  refine ⟨fun k i hk => ?_, ?_, fun i hi hir hr => ?_, fun q hq hql s hs => ?_,
    fun q hq hql s hs => ?_, fun q hq s hs => ?_, fun i hi => ?_, fun i hi hr => ?_,
    fun i hi hir hr hexc => ?_, fun n hM => ?_, fun i j hi hj hd => ?_⟩
  · rw [(hsame i).1, (hsame i).2.1]
    exact h.key k i hk
  · rw [(hsame root).2.2.2.2 hcr.symm, (hsame root).2.2.1]
    exact h.top
  · obtain ⟨hic, hr⟩ := hlive hr
    obtain ⟨q, hiq⟩ := h.hung i hi hir hr
    exact ⟨q, hhung hi hic hiq⟩
  · have hqs : ¬ (q = p ∧ s = slot) := by
      rintro ⟨rfl, rfl⟩
      rw [hpp] at hs
      exact hs (Function.update_self _ _ _)
    rw [hwords fun hqp hss => hqs ⟨hqp, hss⟩] at hs
    rw [(hsame q).1] at hql ⊢
    obtain ⟨i, hi, hr, hiq, heq⟩ := h.child q hq hql s hs
    have hic : i ≠ c := by
      rintro rfl
      obtain rfl : q = p := Option.some.inj (hiq.parent.symm.trans hh.parent)
      exact hqs ⟨rfl, heq.trans hslot⟩
    refine ⟨i, hi, by rw [(hsame i).2.2.2.2 hic, hr], hhung hi hic hiq, ?_⟩
    rw [(hsame i).2.1]
    exact heq
  · by_cases hqc : q = c
    · subst hqc
      rw [hcc]
      exact hempty s
    · have hqp : q ≠ p := fun heq => hh.not_leaf (by rw [← heq, ← (hsame q).1, hql])
      rw [hother hqc hqp] at hql ⊢
      exact h.leaf q hq hql s hs
  · by_cases hqs : q = p ∧ s = slot
    · rw [hqs.2]
      exact hlt
    · rw [hwords fun hqp hss => hqs ⟨hqp, hss⟩] at hs
      exact h.bound q hq s hs
  · by_cases hic : i = c
    · subst hic
      rw [hcc]
      exact h.used i hi
    · by_cases hip : i = p
      · subst hip
        rw [hpp]
        show (heap i).used - 1 = load (Function.update (heap i).words slot 0)
        rw [h.used i hi, load_clear hlt hword, Nat.add_sub_cancel]
      · rw [hother hic hip]
        exact h.used i hi
  · by_cases hic : i = c
    · subst hic
      rw [hcc]
      exact hu
    · rw [(hsame i).2.2.2.2 hic] at hr
      have hip : i ≠ p := by
        rintro rfl
        rw [hpr] at hr
        cases hr
      rw [hother hic hip]
      exact h.retired i hi hr
  · obtain ⟨hic, hr⟩ := hlive hr
    have hip : i ≠ p := fun heq => hexc (by rw [heq])
    rw [hother hic hip]
    exact h.nonempty i hi hir hr fun heq => hic (Option.some.inj heq).symm
  · obtain ⟨i, hi, hl, hr, hst⟩ := h.cover n hM
    have hic : i ≠ c := by
      rintro rfl
      have hleaf := h.leaf i hi hl (n % 512) (Nat.mod_lt _ (by decide))
      rw [hempty, hr, hst] at hleaf
      refine hM ?_
      rw [← Nat.div_add_mod' n 512]
      exact hleaf.symm
    obtain ⟨a₁, a₂, -, -, a₅⟩ := hsame i
    exact ⟨i, hi, by rw [a₁, hl], by rw [a₅ hic, hr], by rw [a₂, hst]⟩
  · rw [(hsame i).2.2.2.1, (hsame j).2.2.2.1] at hd
    exact h.dma i j hi hj hd

theorem Tree.live_erase {exc : Option TableId} (h : Tree tables heap root M exc) {k : Nat}
    (hk : tables[k]? = some c) {i : TableId} : Live (tables.erase k) i ↔ Live tables i ∧ i ≠ c := by
  constructor
  · rintro ⟨k', hk'⟩
    rw [erase_get] at hk'
    split at hk'
    · cases hk'
    · rename_i hne
      refine ⟨⟨k', hk'⟩, ?_⟩
      rintro rfl
      exact hne (Except.ok.inj ((h.key k i hk).symm.trans (h.key k' i hk')))
  · rintro ⟨⟨k', hk'⟩, hic⟩
    refine ⟨k', ?_⟩
    rw [erase_get, if_neg]
    · exact hk'
    · rintro rfl
      exact hic (Option.some.inj (hk'.symm.trans hk))

theorem Tree.release {k : Nat} (h : Tree tables heap root M none) (hk : tables[k]? = some c)
    (hr : (heap c).retiring = true) : Tree (tables.erase k) heap root M none := by
  have hlive {i : TableId} := h.live_erase hk (i := i)
  have hne {i : TableId} (hi : (heap i).retiring = false) : i ≠ c := by
    rintro rfl
    rw [hr] at hi
    cases hi
  have hhung {i q : TableId} (hiq : Hung tables heap i q) : Hung (tables.erase k) heap i q :=
    hiq.congr (hlive.mpr ⟨hiq.live, hne (hiq.not_retiring h)⟩) rfl rfl rfl rfl rfl rfl rfl
  refine ⟨fun k' i hk' => ?_, ⟨?_, h.top.2⟩, fun i hi hir hret => ?_, fun q hq hql s hs => ?_,
    fun q hq => h.leaf q (hlive.mp hq).1, fun q hq => h.bound q (hlive.mp hq).1,
    fun i hi => h.used i (hlive.mp hi).1, fun i hi => h.retired i (hlive.mp hi).1,
    fun i hi => h.nonempty i (hlive.mp hi).1, fun n hM => ?_,
    fun i j hi hj => h.dma i j (hlive.mp hi).1 (hlive.mp hj).1⟩
  · rw [erase_get] at hk'
    split at hk'
    · cases hk'
    · exact h.key k' i hk'
  · rw [erase_get, if_neg]
    · exact h.top.1
    · rintro rfl
      exact hne h.top.2.1 (Option.some.inj (h.top.1.symm.trans hk))
  · obtain ⟨q, hiq⟩ := h.hung i (hlive.mp hi).1 hir hret
    exact ⟨q, hhung hiq⟩
  · obtain ⟨i, hi, hret, hiq, heq⟩ := h.child q (hlive.mp hq).1 hql s hs
    exact ⟨i, hlive.mpr ⟨hi, hne hret⟩, hret, hhung hiq, heq⟩
  · obtain ⟨i, hi, hl, hret, hst⟩ := h.cover n hM
    exact ⟨i, hlive.mpr ⟨hi, hne hret⟩, hl, hret, hst⟩

/-- The tree of a new root. -/
theorem Tree.new {t : Table} (hl : t.level = .root) (ha : t.address = 0) (hz : ∀ s, t.words s = 0)
    (hu : t.used = 0) (hr : t.retiring = false) (hp : t.parent = none) :
    Tree ((∅ : Index).insert 0 c) (Function.update heap c t) c (fun _ => 0) none := by
  have hlive {i : TableId} (hi : Live ((∅ : Index).insert 0 c) i) : i = c := by
    obtain ⟨k, hk⟩ := hi
    rw [insert_get] at hk
    split at hk
    · exact (Option.some.inj hk).symm
    · simp at hk
  refine ⟨fun k i hk => ?_, ⟨by rw [insert_get, if_pos rfl], by rw [Function.update_self]; exact ⟨hr, hp⟩⟩,
    fun i hi hir => absurd (hlive hi) hir, fun p hp hpl s hs => ?_, fun p hp hpl => ?_,
    fun p hp s hs => ?_, fun i hi => ?_, fun i hi hret => ?_, fun i hi hir => absurd (hlive hi) hir,
    fun n hM => absurd rfl hM, fun i j hi hj _ => (hlive hi).trans (hlive hj).symm⟩
  · obtain rfl := hlive ⟨k, hk⟩
    rw [insert_get] at hk
    split at hk
    · rename_i hk0
      rw [Function.update_self, hl, ha, ← hk0]
      rfl
    · simp at hk
  · obtain rfl := hlive hp
    rw [Function.update_self] at hs
    exact absurd (hz s) hs
  · obtain rfl := hlive hp
    rw [Function.update_self, hl] at hpl
    cases hpl
  · obtain rfl := hlive hp
    rw [Function.update_self] at hs
    exact absurd (hz s) hs
  · obtain rfl := hlive hi
    rw [Function.update_self, hu]
    exact (load_eq_zero.2 fun s _ => hz s).symm
  · obtain rfl := hlive hi
    rw [Function.update_self, hr] at hret
    cases hret

end

end Vm
end NvidiaGsp
