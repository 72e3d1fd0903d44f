import NvidiaGsp.Vm.Tree

/-!
# Vm.Walk

The translation the hardware makes. It only sees pages by their DMA addresses: from the root it
reads the word of each level, follows directory words to the next table and returns the word of the
last one, or zero where a directory word is zero. In a tree this is exactly the word the tree gives
the page (`Tree.walk`).
-/

namespace NvidiaGsp
namespace Vm

variable {tables : Index} {heap : TableId → Table} {root : TableId} {M : Nat → Nat}
  {exc : Option TableId}

/-- The words of the page at a DMA address, if a live table is there. -/
def pageAt (tables : Index) (heap : TableId → Table) (dma : Nat) : Option (Nat → Nat) :=
  (tables.toList.find? fun e => (heap e.2).dma = dma).map fun e => (heap e.2).words

/-- The walk through `levels` from the table at `dma`. -/
def walkFrom (memory : Nat → Option (Nat → Nat)) (va : Nat) : List Level → Nat → Nat
  | [], _ => 0
  | level :: rest, dma =>
    match memory dma with
    | none => 0
    | some words =>
      let word := words (slotOf level (field level va))
      if rest = [] then word else if word = 0 then 0 else walkFrom memory va rest (pdeAddress word)

/-- The entry of an address; without a root there is none. -/
def walk {E : Type} (w : World E) (va : Nat) : Nat :=
  match w.owner.root with
  | none => 0
  | some root => walkFrom (pageAt w.owner.tables w.heap) va [.root, .pd2, .pd1, .dual, .leaf]
    (w.heap root).dma

theorem Tree.pageAt (h : Tree tables heap root M exc) {i : TableId} (hi : Live tables i) :
    pageAt tables heap (heap i).dma = some (heap i).words := by
  obtain ⟨k, hk⟩ := id hi
  have hin : (k, i) ∈ tables.toList := Std.TreeMap.mem_toList_iff_getElem?_eq_some.mpr hk
  unfold Vm.pageAt
  cases hf : tables.toList.find? fun e => (heap e.2).dma = (heap i).dma with
  | none =>
    have := List.find?_eq_none.mp hf (k, i) hin
    simp at this
  | some e =>
    have hmem := List.mem_of_find?_eq_some hf
    have hdma := List.find?_some hf
    have hlive : Live tables e.2 := ⟨e.1, Std.TreeMap.mem_toList_iff_getElem?_eq_some.mp hmem⟩
    have heq : e.2 = i := h.dma e.2 i hlive hi (by simpa using hdma)
    simp [heq]

section

variable {va : Nat}

/-- The table of the address at a level. -/
structure OnPath (tables : Index) (heap : TableId → Table) (va : Nat) (level : Level) (i : TableId) :
    Prop where
  live : Live tables i
  at' : (heap i).level = level
  retiring : (heap i).retiring = false
  stem : stem level (heap i).address = stem level va

/-- From a table of the path to the one above, whose word it is. -/
theorem OnPath.climb {level : Level} {i : TableId} (hp : OnPath tables heap va level i)
    (h : Tree tables heap root M exc) (hva : va < vaLimit) (hl : level ≠ .root) :
    ∃ p, OnPath tables heap va level.parent p ∧ entry heap p va ≠ 0 := by
  have hir : i ≠ root := by
    rintro rfl
    exact hl (hp.at'.symm.trans h.root_level)
  obtain ⟨p, hh⟩ := h.hung i hp.live hir hp.retiring
  have habove := hh.above
  rw [hp.at'] at habove
  obtain ⟨hstem, hfield⟩ := stem_parent (h.address_lt hp.live) hva hl hp.stem
  have hps := hh.stem
  rw [habove] at hps
  refine ⟨p, ⟨hh.live, habove, hh.not_retiring h, hps.symm.trans hstem⟩, ?_⟩
  have hne := hh.ne_zero
  unfold entry at hne ⊢
  rw [habove] at hne ⊢
  rw [← hfield]
  exact hne

/-- A mapped page has a table at every level, linked down to it. -/
theorem Tree.path (h : Tree tables heap root M exc) (hva : va < vaLimit) (hM : M (va / 4096) ≠ 0)
    (level : Level) : ∃ i, OnPath tables heap va level i ∧ (level ≠ .leaf → entry heap i va ≠ 0) := by
  obtain ⟨i, hi, hl, hr, hst⟩ := h.cover _ hM
  have hleaf : OnPath tables heap va .leaf i := by
    refine ⟨hi, hl, hr, hst.trans ?_⟩
    show va / 4096 / 512 = va >>> 21
    rw [Nat.shiftRight_eq_div_pow]
    omega
  obtain ⟨d, hd, hde⟩ := hleaf.climb h hva (by simp)
  obtain ⟨p₁, hp₁, hpe₁⟩ := hd.climb h hva (by simp [Level.parent])
  obtain ⟨p₂, hp₂, hpe₂⟩ := hp₁.climb h hva (by simp [Level.parent])
  obtain ⟨r, hr, hre⟩ := hp₂.climb h hva (by simp [Level.parent])
  cases level with
  | root => exact ⟨r, hr, fun _ => hre⟩
  | pd2 => exact ⟨p₂, hp₂, fun _ => hpe₂⟩
  | pd1 => exact ⟨p₁, hp₁, fun _ => hpe₁⟩
  | dual => exact ⟨d, hd, fun _ => hde⟩
  | leaf => exact ⟨i, hleaf, fun hn => absurd rfl hn⟩

/-- The last level of a walk. -/
theorem Tree.walk_leaf {i : TableId} (h : Tree tables heap root M exc) (hva : va < vaLimit)
    (hp : OnPath tables heap va .leaf i) :
    walkFrom (Vm.pageAt tables heap) va [.leaf] (heap i).dma = M (va / 4096) := by
  have hlt : field .leaf va < 512 := field_lt
  have hword := h.leaf i hp.live hp.at' (field .leaf va) hlt
  rw [hp.retiring, hp.stem] at hword
  have hsplit : va >>> 12 = stem .leaf va * 512 + field .leaf va := @stem_split .leaf va hva
  rw [Nat.shiftRight_eq_div_pow] at hsplit
  simp only [walkFrom, h.pageAt hp.live]
  show (heap i).words (field .leaf va) = _
  rw [hword, ← hsplit]
  rfl

/-- One level of a walk, given the walk below. -/
theorem Tree.walk_step {i : TableId} {level next : Level} {rest : List Level}
    (h : Tree tables heap root M exc) (hva : va < vaLimit) (hp : OnPath tables heap va level i)
    (hnext : next.parent = level) (hroot : next ≠ .root)
    (hrest : ∀ c, OnPath tables heap va next c →
      walkFrom (Vm.pageAt tables heap) va (next :: rest) (heap c).dma = M (va / 4096)) :
    walkFrom (Vm.pageAt tables heap) va (level :: next :: rest) (heap i).dma = M (va / 4096) := by
  have hleaf : level ≠ .leaf := by
    rw [← hnext]
    cases next <;> simp [Level.parent]
  have hentry : (heap i).words (slotOf level (field level va)) = entry heap i va := by
    unfold entry
    rw [hp.at']
  rw [walkFrom, h.pageAt hp.live]
  simp only [hentry, reduceCtorEq, if_false]
  by_cases hz : entry heap i va = 0
  · rw [if_pos hz]
    by_contra hM
    obtain ⟨j, hj, hje⟩ := h.path hva (fun hn => hM hn.symm) level
    obtain rfl : i = j := h.unique hp.live hj.live (hp.at'.trans hj.at'.symm) (by
      rw [hp.at', hj.at', hp.stem, hj.stem])
    exact hje hleaf hz
  · rw [if_neg hz]
    obtain ⟨c, hc, hr, hh, hslot⟩ := h.child i hp.live (by rw [hp.at']; exact hleaf) _ hz
    have habove := hh.above
    rw [hp.at'] at habove
    have hlevel : (heap c).level = next := by
      have hcl := hh.level
      have heq := habove.symm.trans hnext.symm
      revert heq hcl hroot
      cases (heap c).level <;> cases next <;> simp [Level.parent]
    have hfield : field level va = field level (heap c).address := by
      rw [hp.at'] at hslot
      exact slotOf_inj hslot
    have hstem : stem next (heap c).address = stem next va := by
      have hps := hh.stem
      rw [hp.at'] at hps
      rw [stem_child (h.address_lt hc) hroot, stem_child hva hroot, hnext, hps, hp.stem, hfield]
    have hpde : pdeAddress (entry heap i va) = (heap c).dma := by
      have hw := hh.word
      unfold entry at hw ⊢
      rw [hp.at'] at hw ⊢
      rw [hfield]
      exact (directory_ok hw).2.1
    rw [hpde]
    exact hrest c ⟨hc, hlevel, hr, hstem⟩

theorem Tree.walk (h : Tree tables heap root M exc) (hva : va < vaLimit) :
    walkFrom (Vm.pageAt tables heap) va [.root, .pd2, .pd1, .dual, .leaf] (heap root).dma =
      M (va / 4096) := by
  have hroot : OnPath tables heap va .root root := ⟨h.live_root, h.root_level, h.top.2.1, rfl⟩
  refine h.walk_step hva hroot rfl (by simp) fun c₁ h₁ => ?_
  refine h.walk_step hva h₁ rfl (by simp) fun c₂ h₂ => ?_
  refine h.walk_step hva h₂ rfl (by simp) fun c₃ h₃ => ?_
  refine h.walk_step hva h₃ rfl (by simp) fun c₄ h₄ => ?_
  exact h.walk_leaf hva h₄

end

end Vm
end NvidiaGsp
