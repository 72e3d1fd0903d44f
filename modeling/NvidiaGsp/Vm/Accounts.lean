import NvidiaGsp.Vm.Refines

/-!
# Vm.Accounts

The accounts of the page tables. Every count is the number of words in use, every table in use hangs
in one word of its parent, and no table stays behind: once all bindings and ranges are gone, the root
is the only table, its page is zero, and the owner can close unless the backend refuses the root.
-/

namespace NvidiaGsp
namespace Vm

open Call

variable {E : Type} {port : Port E} {law : Lawful port} {w w' : World E} {root : TableId}
  {M : Nat → Nat} {tables : Index} {heap : TableId → Table}

/-- Word `s` of the table is the directory entry of the child. -/
def References (t : Table) (s : Nat) (child : Table) : Prop :=
  directory child.dma = .ok (t.words s)

/-- A table in use is referenced by exactly one word of its parent. -/
theorem Tree.references (h : Tree tables heap root M none) {i : TableId} (hi : Live tables i)
    (hir : i ≠ root) (hr : (heap i).retiring = false) :
    ∃ p, (heap i).parent = some p ∧ Live tables p ∧ ∃! s, References (heap p) s (heap i) := by
  obtain ⟨p, hh⟩ := h.hung i hi hir hr
  refine ⟨p, hh.parent, hh.live, _, hh.word, fun s hs => ?_⟩
  have hleaf : (heap p).level ≠ .leaf := by
    rw [hh.above]
    cases (heap i).level <;> simp [Level.parent]
  obtain ⟨j, hj, -, hhj, rfl⟩ := h.child p hh.live hleaf s (directory_ok hs).2.2
  obtain rfl : j = i := h.dma j i hj hi (directory_inj hhj.word hs)
  rfl

/-! ## Nothing stays behind -/

/-- The tables of a level have no word. -/
def EmptyAt (tables : Index) (heap : TableId → Table) (level : Level) : Prop :=
  ∀ i, Live tables i → (heap i).level = level → ∀ s, (heap i).words s = 0

theorem Tree.empty_leaf (h : Tree tables heap root M none) (hM : ∀ n, M n = 0) :
    EmptyAt tables heap .leaf := by
  intro i hi hl s
  by_contra hne
  have hlt := h.bound i hi s hne
  rw [h.leaf i hi hl s hlt, hM] at hne
  simp at hne

/-- A level whose tables are empty has none but the root, so the level above is empty. -/
theorem Tree.empty_parent {level : Level} (h : Tree tables heap root M none)
    (he : EmptyAt tables heap level) (hl : level ≠ .root) : EmptyAt tables heap level.parent := by
  intro i hi hil s
  by_contra hne
  have hleaf : (heap i).level ≠ .leaf := by
    rw [hil]
    cases level <;> simp [Level.parent]
  obtain ⟨c, hc, hr, hh, -⟩ := h.child i hi hleaf s hne
  have hcl : (heap c).level = level := by
    have hc' := hh.level
    have habove := hh.above.symm.trans hil
    revert hc' habove hl
    cases (heap c).level <;> cases level <;> simp [Level.parent]
  have hcr : c ≠ root := by
    rintro rfl
    exact hl (hcl.symm.trans h.root_level)
  have hpos := h.nonempty c hc hcr hr (by simp)
  rw [h.used c hc, Nat.pos_iff_ne_zero, Ne, load_eq_zero] at hpos
  exact hpos fun s _ => he c hc hcl s

theorem Tree.empty (h : Tree tables heap root M none) (hM : ∀ n, M n = 0) {i : TableId}
    (hi : Live tables i) (s : Nat) : (heap i).words s = 0 := by
  have hleaf := h.empty_leaf hM
  have hdual := h.empty_parent hleaf (by simp)
  have hpd1 := h.empty_parent hdual (by simp [Level.parent])
  have hpd2 := h.empty_parent hpd1 (by simp [Level.parent])
  have hroot := h.empty_parent hpd2 (by simp [Level.parent])
  cases hl : (heap i).level with
  | root => exact hroot i hi hl s
  | pd2 => exact hpd2 i hi hl s
  | pd1 => exact hpd1 i hi hl s
  | dual => exact hdual i hi hl s
  | leaf => exact hleaf i hi hl s

/-- Without a mapped page the root is the only table. -/
theorem Tree.alone (h : Tree tables heap root M none) (hM : ∀ n, M n = 0)
    (hret : ∀ i, Live tables i → (heap i).retiring = false) {k : Nat} {i : TableId} :
    tables[k]? = some i ↔ k = 0 ∧ i = root := by
  constructor
  · intro hk
    have hi : Live tables i := ⟨k, hk⟩
    have hir : i = root := by
      by_contra hir
      have hpos := h.nonempty i hi hir (hret i hi) (by simp)
      rw [h.used i hi, Nat.pos_iff_ne_zero, Ne, load_eq_zero] at hpos
      exact hpos fun s _ => h.empty hM hi s
    subst hir
    exact ⟨Except.ok.inj ((h.key k i hk).symm.trans (h.key 0 i h.top.1)), rfl⟩
  · rintro ⟨rfl, rfl⟩
    exact h.top.1

theorem Mapped.no_page (h : Mapped law w root M) (hr : w.owner.ranges = []) (n : Nat) : M n = 0 := by
  by_contra hne
  obtain ⟨b, hb, -⟩ := h.maps.only n hne
  obtain ⟨r, hin, -⟩ := h.books.home b hb
  rw [hr] at hin
  cases hin

/-- Without work no table waits for its release. -/
theorem Mapped.not_retiring (h : Mapped law w root M) (hret : w.owner.retired = []) {i : TableId}
    (hi : Live w.owner.tables i) : (w.heap i).retiring = false := by
  cases hr : (w.heap i).retiring with
  | false => rfl
  | true =>
    have hin := (h.shape.retired i).mpr ⟨hi, hr⟩
    rw [hret] at hin
    cases hin

theorem table_empty {t : Table} (h : ∀ s, t.words s = 0) : t.empty = true := by
  unfold Table.empty
  simp [h]

/-- A call gave the root back last, and the backend refused its page with this error. -/
def RootRefused (port : Port E) (w : World E) (e : Error) (w' : World E) : Prop :=
  ∃ root env, w.owner.root = some root ∧ port.release root env = (some e, w'.env) ∧
    w'.trace = w.trace ++ [.release root]

/-- What `close` answers when nothing is left but the root: it is not busy, and retained only when
the backend refuses the root it was just given. -/
theorem close_own (h : Mapped law w root M) (hf : w.owner.failure = none)
    (hwork : w.owner.work = none) (hret : w.owner.retired = []) (hranges : w.owner.ranges = [])
    (hpos : w.owner.possibleBinding = false) (hatt : w.owner.attached = false) :
    Spec (close port) w (fun _ _ => True)
      (fun e w' => (e ≠ .Retained ∧ e ≠ .Busy) ∨ RootRefused port w e w') := by
  have htree := h.shape.tree
  have hM := h.no_page hranges
  have hzero := htree.empty hM htree.live_root
  have hused : (w.heap root).used = 0 := by
    rw [htree.used root htree.live_root, load_eq_zero]
    exact fun s _ => hzero s
  have halone {k : Nat} {i : TableId} := htree.alone hM (fun _ hi => h.not_retiring hret hi) (k := k) (i := i)
  have hlist {e : Nat × TableId} (he : e ∈ w.owner.tables.toList) : e.2 = root :=
    (halone.mp (Std.TreeMap.mem_toList_iff_getElem?_eq_some.mp he)).2
  have hnil : w.owner.tables.toList ≠ [] :=
    List.ne_nil_of_mem (Std.TreeMap.mem_toList_iff_getElem?_eq_some.mpr htree.top.1)
  have hmin : w.owner.getMin = some root := by
    unfold Owner.getMin
    rw [List.head?_eq_some_head hnil, Option.map_some, hlist (List.head_mem hnil)]
  have hmax : w.owner.getMax = some root := by
    unfold Owner.getMax
    rw [List.getLast?_eq_some_getLast hnil, Option.map_some, hlist (List.getLast_mem hnil)]
  unfold close
  refine .get_bind ?_
  dsimp only
  rw [if_neg (by simp [h.prepared])]
  refine .seq (stable_spec (keeps_true port) trivial) (fun _ w₁ h₁ => ?_) fun e _ he => ?_
  swap
  · rcases he.2 with rfl | ⟨-, hn⟩
    · exact .inl ⟨by simp, by simp⟩
    · exact absurd hf hn
  have q₁ := h₁.1
  refine .failIf_bind (fun hbusy => ?_) fun _ => ?_
  · simp [hpos, hatt, hwork, hranges, hret] at hbusy
  rw [h.shape.root]
  refine .seq (tableValid_spec (keeps_true port) trivial) (fun _ w₂ q₂ => ?_) fun _ _ he => .inl he.2
  have q := q₁.trans q₂
  refine .get_bind (.failIf_bind (fun hbad => ?_) fun _ => ?_)
  · rw [q.heap, hused, table_empty hzero, hmin, hmax] at hbad
    simp at hbad
  refine update_bind (log_bind (callback_bind ?_))
  split
  · rename_i e he
    have hrefused : RootRefused port w e { w₂ with
        trace := w₂.trace ++ [.release root], env := (port.release root w₂.env).2 } :=
      ⟨root, w₂.env, h.shape.root, Prod.ext he rfl, by rw [q.trace]⟩
    exact .inr hrefused
  · trivial

theorem unbindConfirmed_clears :
    Spec (unbindConfirmed port) w (fun _ w' => w'.owner.failure = none ∧ w'.owner.prepared = true ∧
      w'.owner.work = none ∧ w'.owner.retired = [] ∧ w'.owner.ranges = [] ∧
      w'.owner.possibleBinding = false ∧ w'.owner.attached = false) (fun _ _ => True) := by
  unfold unbindConfirmed
  refine .seq (stable_spec (keeps_true port) trivial) (fun _ w₁ h₁ => ?_) fun _ _ _ => trivial
  obtain ⟨q, hf, hprep⟩ := h₁
  rw [← q.owner] at hf hprep
  refine .get_bind (.failIf_bind (fun _ => trivial) fun hbusy => ?_)
  simp only [not_or, Decidable.not_not] at hbusy
  obtain ⟨-, hranges, hwork, hret⟩ := hbusy
  exact ⟨hf, hprep, work_none hwork, hret, hranges, rfl, rfl⟩

/-! ## Runs -/

section

variable {heap₀ : TableId → Table} {env : E}
  {h : List (Event (World E) (Op E) (Except Error Answer))}

theorem close_run (law : Lawful port) (hr : Run (step port) (initial heap₀ env) h w)
    {e : Event (World E) (Op E) (Except Error Answer)} (he : e ∈ h) (hop : e.op = .unbindConfirmed)
    (hout : e.out = .ok .done) {err : Error} (hc : (step port e.post .close).1 = .error err) :
    (err ≠ .Retained ∧ err ≠ .Busy) ∨
      RootRefused port e.post err (step port e.post .close).2 := by
  obtain ⟨h₁, h₂, rfl, hpre, hstep⟩ := hr.event he
  have hpost := refines_run law (Run.snoc hpre hstep)
  rw [hop, hout] at hstep
  obtain ⟨a, w₁, hx, hy⟩ := bind_ok_iff.1 (outcome_ok_iff.1 hstep)
  cases hy
  obtain ⟨hf, hprep, hwork, hret, hranges, hpos, hatt⟩ := unbindConfirmed_clears.ok hx
  rcases hpost hf with ho | ⟨root, M, hm⟩
  · rw [ho] at hprep
    cases hprep
  have hown := close_own hm hf hwork hret hranges hpos hatt
  have hclose : call port .close e.post = .error err (step port e.post .close).2 :=
    outcome_error_iff.1 (Prod.ext hc rfl)
  rcases bind_error_iff.1 hclose with hx | ⟨_, _, _, hy⟩
  · exact hown.error hx
  · cases hy

/-- **The accounts of the tables.** In every run over a backend that hands out fresh zeroed pages, an
owner that has not failed counts the words of every table, refers to every table in use by exactly one
word of its parent, keeps different tables under different keys, and between two pieces of work every
table but the root has a word. When all ranges and with them all bindings are gone, the root is the
only table and its page is zero; and once it is unbound, a close answers neither busy nor retained
unless it ends with the release of the root, and the backend answers that one so. -/
theorem accounts_run (law : Lawful port) (hr : Run (step port) (initial heap₀ env) h w)
    (hf : w.owner.failure = none) :
    (∀ i, Live w.owner.tables i → (w.heap i).used = load (w.heap i).words) ∧
    (∀ i, Live w.owner.tables i → w.owner.root ≠ some i → (w.heap i).retiring = false →
      ∃ p, (w.heap i).parent = some p ∧ Live w.owner.tables p ∧
        ∃! s, References (w.heap p) s (w.heap i)) ∧
    (∀ level address level' address' key, tableKey level address = .ok key →
      tableKey level' address' = .ok key → level = level' ∧ stem level address = stem level' address') ∧
    (w.owner.work = none → ∀ i, Live w.owner.tables i → w.owner.root ≠ some i →
      0 < (w.heap i).used) ∧
    (w.owner.ranges = [] → w.owner.work = none → w.owner.bindings = [] ∧
      ∀ root, w.owner.root = some root →
        (∀ (k : Nat) i, w.owner.tables[k]? = some i ↔ k = 0 ∧ i = root) ∧
          ∀ s, (w.heap root).words s = 0) ∧
    ∀ e ∈ h, e.op = .unbindConfirmed → e.out = .ok .done →
      ∀ err, (step port e.post .close).1 = .error err → (err ≠ .Retained ∧ err ≠ .Busy) ∨
        RootRefused port e.post err (step port e.post .close).2 := by
  have htraced := traced_run hr
  have hclose : ∀ e ∈ h, e.op = .unbindConfirmed → e.out = .ok .done →
      ∀ err, (step port e.post .close).1 = .error err → (err ≠ .Retained ∧ err ≠ .Busy) ∨
        RootRefused port e.post err (step port e.post .close).2 :=
    fun _ he hop hout _ hc => close_run law hr he hop hout hc
  have hkeys : ∀ level address level' address' key, tableKey level address = .ok key →
      tableKey level' address' = .ok key → level = level' ∧ stem level address = stem level' address' :=
    fun _ _ _ _ _ hk hk' => by
      obtain ⟨rfl, hs⟩ := tableKey_inj hk hk'
      exact ⟨rfl, hs⟩
  rcases refines_run law hr hf with ho | ⟨root, M, hm⟩
  · have hnone (i : TableId) : ¬ Live w.owner.tables i := by
      rintro ⟨k, hk⟩
      rw [ho] at hk
      simp at hk
    refine ⟨fun i hi => absurd hi (hnone i), fun i hi => absurd hi (hnone i), hkeys,
      fun _ i hi => absurd hi (hnone i), fun _ _ => ⟨by rw [ho], fun root hroot => ?_⟩, hclose⟩
    rw [ho] at hroot
    cases hroot
  have htree := hm.shape.tree
  have hne {i : TableId} (hir : w.owner.root ≠ some i) : i ≠ root := by
    rintro rfl
    exact hir hm.shape.root
  refine ⟨htree.used, fun i hi hir hret => htree.references hi (hne hir) hret, hkeys,
    fun hwork i hi hir => ?_, fun hranges hwork => ⟨?_, fun root' hroot => ?_⟩, hclose⟩
  · have hret := hm.not_retiring (htraced.idle hf hwork) hi
    exact htree.nonempty i hi (hne hir) hret (by simp)
  · refine List.eq_nil_iff_forall_not_mem.mpr fun b hb => ?_
    obtain ⟨r, hin, -⟩ := hm.books.home b hb
    rw [hranges] at hin
    cases hin
  · obtain rfl : root = root' := Option.some.inj (hm.shape.root.symm.trans hroot)
    have hM := hm.no_page hranges
    exact ⟨fun k i => htree.alone hM fun _ hi => hm.not_retiring (htraced.idle hf hwork) hi,
      htree.empty hM htree.live_root⟩

end

/-! ## A device that keeps its root -/

/-- A binding is mapped and unmapped again, its range released and the root unbound. -/
def tidyOps : List (Op Calm) :=
  calmOps ++ .beginUnmap 3 100 true :: List.replicate 16 (.poll 3) ++ [.releaseRange 7, .unbindConfirmed]

def tidyRun : List (Event (World Calm) (Op Calm) (Except Error Answer)) × World Calm :=
  exec (step calmPort) (initial (fun _ => {}) {}) tidyOps

/-- On the calm device the tables of a mapping are all given back. -/
theorem accounts_run_tidy : tidyRun.2.owner.root = some 1 ∧
    (∀ (k : Nat) i, tidyRun.2.owner.tables[k]? = some i ↔ k = 0 ∧ i = 1) ∧
    (∀ s, (tidyRun.2.heap 1).words s = 0) ∧ (step calmPort tidyRun.2 .close).1 = .ok .done := by
  have hrun : Run (step calmPort) (initial (fun _ => {}) {}) tidyRun.1 tidyRun.2 := Run.of_exec _ _ _
  have hf : tidyRun.2.owner.failure = none := by decide +kernel
  have hwork : tidyRun.2.owner.work = none := Option.isNone_iff_eq_none.mp (by decide +kernel)
  have hranges : tidyRun.2.owner.ranges = [] := List.isEmpty_iff.mp (by decide +kernel)
  have hroot : tidyRun.2.owner.root = some 1 := by decide +kernel
  obtain ⟨-, -, -, -, hidle, -⟩ := accounts_run calmLaw hrun hf
  obtain ⟨hkeys, hzero⟩ := (hidle hranges hwork).2 1 hroot
  exact ⟨hroot, hkeys, hzero, by decide +kernel⟩

/-- The calm device, with a backend that still holds a page it was given back. -/
def stickyPort : Port Calm := { calmPort with release := fun _ e => (some .Retained, e) }

def stickyRun : List (Event (World Calm) (Op Calm) (Except Error Answer)) × World Calm :=
  exec (step stickyPort) (initial (fun _ => {}) {})
    [.prepare 1 0 (1 <<< 48), .bindSubmitted, .bindConfirmed, .unbindConfirmed, .close]

/-- With nothing ever mapped and the root unbound, the close is answered with the backend's own
refusal. -/
theorem close_retained_by_backend : Nonempty (Lawful stickyPort) ∧
    (stickyRun.1.map (·.out)).drop 3 = [.ok .done, .error .Retained] := by
  refine ⟨⟨⟨calmLaw.held, fun P => ?_, calmLaw.fresh, fun _ _ _ _ _ h => h⟩⟩, by decide +kernel⟩
  exact ⟨(calmLaw.keeps P).io, (calmLaw.keeps P).valid⟩

end Vm
end NvidiaGsp
