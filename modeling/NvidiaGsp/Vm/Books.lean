import NvidiaGsp.Vm.Owner

/-!
# Vm.Books

The ranges and bindings of an owner. The ranges lie apart in address order, every binding lies
inside its range and apart from the others there, so that an address belongs to at most one page of
one binding (`Books.unique`). `Maps` is what the tables must hold at each moment: the pages of the
mapped bindings and the part of the current work that is done.
-/

namespace NvidiaGsp
namespace Vm

variable {E : Type}

/-- `va` is the address of displacement `d` of the binding. -/
def Covers (ranges : List Range) (b : Binding E) (va d : Nat) : Prop :=
  ∃ r ∈ ranges, r.id = b.range ∧ va = r.address + b.offset + d ∧ d < b.source.bytes

/-- One range ends before the other starts. -/
def Before (r r' : Range) : Prop := r.address + r.bytes ≤ r'.address

/-- Two bindings of one range do not overlap. -/
def Apart (b b' : Binding E) : Prop :=
  b.id ≠ b'.id ∧ (b.range = b'.range → b.offset + b.source.bytes ≤ b'.offset ∨
    b'.offset + b'.source.bytes ≤ b.offset)

structure Books (ranges : List Range) (bindings : List (Binding E)) : Prop where
  extent : ∀ r ∈ ranges, extent r.address r.bytes = .ok ()
  sorted : ranges.Pairwise Before
  names : ranges.Pairwise fun r r' => r.id ≠ r'.id
  home : ∀ b ∈ bindings, ∃ r ∈ ranges, r.id = b.range ∧ b.offset + b.source.bytes ≤ r.bytes
  aligned : ∀ b ∈ bindings, 4096 ∣ b.offset ∧ 4096 ∣ b.source.bytes
  apart : bindings.Pairwise Apart

variable {ranges : List Range} {bindings : List (Binding E)} {b b' : Binding E} {va d d' : Nat}

theorem Books.nil : Books ([] : List Range) ([] : List (Binding E)) :=
  ⟨by simp, .nil, .nil, by simp, by simp, .nil⟩

theorem Books.range_aligned (h : Books ranges bindings) {r : Range} (hr : r ∈ ranges) :
    4096 ∣ r.address ∧ r.address + r.bytes ≤ vaLimit := by
  obtain ⟨-, hle, ha, -⟩ := extent_ok.1 (h.extent r hr)
  exact ⟨Nat.dvd_of_mod_eq_zero ha, hle⟩

/-- What a pairwise relation says of two members, whichever comes first. -/
theorem pairwise_total {α : Type} {R : α → α → Prop} {l : List α} (h : l.Pairwise R) {x y : α}
    (hx : x ∈ l) (hy : y ∈ l) (hne : x ≠ y) : R x y ∨ R y x := by
  induction h with
  | nil => cases hx
  | cons hl _ ih =>
    rcases List.mem_cons.mp hx with heq | hx'
    · subst heq
      exact .inl (hl _ ((List.mem_cons.mp hy).resolve_left fun h => hne h.symm))
    · rcases List.mem_cons.mp hy with heq | hy'
      · subst heq
        exact .inr (hl _ hx')
      · exact ih hx' hy'

theorem Books.range_unique (h : Books ranges bindings) {r r' : Range} (hr : r ∈ ranges)
    (hr' : r' ∈ ranges) (hid : r.id = r'.id) : r = r' := by
  by_contra hne
  rcases pairwise_total h.names hr hr' hne with hn | hn
  · exact hn hid
  · exact hn hid.symm

theorem Books.binding_unique (h : Books ranges bindings) (hb : b ∈ bindings) (hb' : b' ∈ bindings)
    (hid : b.id = b'.id) : b = b' := by
  by_contra hne
  rcases pairwise_total h.apart hb hb' hne with hn | hn
  · exact hn.1 hid
  · exact hn.1 hid.symm

/-- An address belongs to at most one page of one binding. -/
theorem Books.unique (h : Books ranges bindings) (hb : b ∈ bindings) (hb' : b' ∈ bindings)
    (hc : Covers ranges b va d) (hc' : Covers ranges b' va d') : b = b' ∧ d = d' := by
  obtain ⟨r, hr, hid, hva, hd⟩ := hc
  obtain ⟨r', hr', hid', hva', hd'⟩ := hc'
  obtain ⟨s, hs, hsid, hsle⟩ := h.home b hb
  obtain ⟨s', hs', hsid', hsle'⟩ := h.home b' hb'
  obtain rfl := h.range_unique hr hs (hid.trans hsid.symm)
  obtain rfl := h.range_unique hr' hs' (hid'.trans hsid'.symm)
  have hrr : r = r' := by
    by_contra hne
    rcases pairwise_total h.sorted hr hr' hne with hn | hn
    all_goals
      have hn : _ ≤ _ := hn
      omega
  subst hrr
  have hbb : b = b' := by
    by_contra hne
    rcases pairwise_total h.apart hb hb' hne with hn | hn
    · rcases hn.2 (hid.symm.trans hid') with hn | hn <;> omega
    · rcases hn.2 (hid'.symm.trans hid) with hn | hn <;> omega
  subst hbb
  exact ⟨rfl, by omega⟩

theorem Covers.lt (hc : Covers ranges b va d) (h : Books ranges bindings) (hb : b ∈ bindings) :
    va < vaLimit := by
  obtain ⟨r, hr, hid, hva, hd⟩ := hc
  obtain ⟨s, hs, hsid, hsle⟩ := h.home b hb
  obtain rfl := h.range_unique hr hs (hid.trans hsid.symm)
  have := (h.range_aligned hr).2
  omega

/-- The displacement of an aligned address is aligned. -/
theorem Covers.dvd (hc : Covers ranges b va d) (h : Books ranges bindings) (hb : b ∈ bindings)
    (hva : 4096 ∣ va) : 4096 ∣ d := by
  obtain ⟨r, hr, hid, heq, hd⟩ := hc
  have := (h.range_aligned hr).1
  have := (h.aligned b hb).1
  omega

/-! ## The pages that are in -/

/-- Displacement `d` of the binding is in the tables. -/
def Installed (work : Option Work) (b : Binding E) (d : Nat) : Prop :=
  match work with
  | none => b.mapped = true
  | some k =>
    if k.binding = b.id then if k.mapping = true then d < k.offset else k.offset ≤ d
    else b.mapped = true

/-- `word` is the page word of displacement `d`. -/
def WordOf (b : Binding E) (d word : Nat) : Prop :=
  ∃ e pa, b.source.physical (b.source.offset + d) e = .ok pa ∧ page pa b.source.policy = .ok word

structure Maps (ranges : List Range) (bindings : List (Binding E)) (work : Option Work)
    (M : Nat → Nat) : Prop where
  has : ∀ b ∈ bindings, ∀ va d, Covers ranges b va d → 4096 ∣ va → Installed work b d →
    WordOf b d (M (va / 4096))
  only : ∀ n, M n ≠ 0 → ∃ b ∈ bindings, ∃ d, Covers ranges b (n * 4096) d ∧ Installed work b d

/-- The binding of the work, and how far it is. -/
structure Working (bindings : List (Binding E)) (k : Work) (b : Binding E) : Prop where
  mem : b ∈ bindings
  id : b.id = k.binding
  mapped : b.mapped = !k.mapping
  aligned : 4096 ∣ k.offset
  le : k.offset ≤ b.source.bytes
  ended : k.phase ≠ .editing → k.offset = b.source.bytes

/-- The work in progress is on a binding. -/
def Busy (bindings : List (Binding E)) (work : Option Work) : Prop :=
  ∀ k, work = some k → ∃ b, Working bindings k b

variable {work : Option Work} {M : Nat → Nat} {k k' : Work}

/-- The tables only depend on how far the work is. -/
theorem Maps.congr (h : Maps ranges bindings (some k) M) (hb : k'.binding = k.binding)
    (hm : k'.mapping = k.mapping) (ho : k'.offset = k.offset) :
    Maps ranges bindings (some k') M := by
  have hin {b : Binding E} {d : Nat} : Installed (some k') b d ↔ Installed (some k) b d := by
    simp only [Installed, hb, hm, ho]
  refine ⟨fun b hb va d hc hva hi => h.has b hb va d hc hva (hin.mp hi), fun n hn => ?_⟩
  obtain ⟨b, hb, d, hc, hi⟩ := h.only n hn
  exact ⟨b, hb, d, hc, hin.mpr hi⟩

theorem Installed.self (hid : b.id = k.binding) :
    Installed (some k) b d ↔ if k.mapping = true then d < k.offset else k.offset ≤ d := by
  simp only [Installed]
  rw [if_pos hid.symm]

theorem Installed.other (hid : b.id ≠ k.binding) :
    Installed (some k) b d ↔ b.mapped = true := by
  simp only [Installed]
  rw [if_neg fun h => hid h.symm]

/-- One page of the work is done: its word is set or cleared. -/
theorem Maps.edit {word : Nat} (h : Maps ranges bindings (some k) M) (hbooks : Books ranges bindings)
    (hw : Working bindings k b) (hc : Covers ranges b va k.offset) (hword : WordOf b k.offset word)
    (hb' : k'.binding = k.binding) (hm' : k'.mapping = k.mapping)
    (ho' : k'.offset = k.offset + 4096) :
    Maps ranges bindings (some k')
      (Function.update M (va / 4096) (if k.mapping = true then word else 0)) := by
  have hva : 4096 ∣ va := by
    obtain ⟨r, hr, hid, heq, -⟩ := hc
    have := (hbooks.range_aligned hr).1
    have := (hbooks.aligned b hw.mem).1
    have := hw.aligned
    omega
  have hid' : b.id = k'.binding := hw.id.trans hb'.symm
  refine ⟨fun b₁ hb₁ va₁ d hc₁ hva₁ hi => ?_, fun n hn => ?_⟩
  · have hd := hc₁.dvd hbooks hb₁ hva₁
    by_cases hpage : va₁ = va
    · -- The page of the edit itself: it is in only when mapping.
      subst hpage
      obtain ⟨rfl, rfl⟩ := hbooks.unique hb₁ hw.mem hc₁ hc
      rw [Installed.self hid', hm', ho'] at hi
      rw [Function.update_self]
      split at hi
      · rename_i hm
        rw [if_pos hm]
        exact hword
      · omega
    · have hne : va₁ / 4096 ≠ va / 4096 := by omega
      rw [Function.update_of_ne hne]
      refine h.has b₁ hb₁ va₁ d hc₁ hva₁ ?_
      by_cases hid₁ : b₁.id = k.binding
      · obtain rfl := hbooks.binding_unique hb₁ hw.mem (hid₁.trans hw.id.symm)
        have hdne : d ≠ k.offset := by
          rintro rfl
          obtain ⟨r, hr, hrid, heq, -⟩ := hc
          obtain ⟨r₁, hr₁, hrid₁, heq₁, -⟩ := hc₁
          obtain rfl := hbooks.range_unique hr hr₁ (hrid.trans hrid₁.symm)
          exact hpage (heq₁.trans heq.symm)
        have := hw.aligned
        rw [Installed.self hid', hm', ho'] at hi
        rw [Installed.self hid₁]
        split at hi
        · rw [if_pos ‹_›]
          omega
        · rw [if_neg ‹_›]
          omega
      · rw [Installed.other (by rw [hb']; exact hid₁)] at hi
        rw [Installed.other hid₁]
        exact hi
  · by_cases hn' : n = va / 4096
    · subst hn'
      rw [Function.update_self] at hn
      have hm : k.mapping = true := by
        by_contra hm
        rw [if_neg hm] at hn
        exact hn rfl
      refine ⟨b, hw.mem, k.offset, ?_, ?_⟩
      · rw [Nat.div_mul_cancel hva]
        exact hc
      · rw [Installed.self hid', hm', ho', if_pos hm]
        omega
    · rw [Function.update_of_ne hn'] at hn
      obtain ⟨b₁, hb₁, d, hc₁, hi⟩ := h.only n hn
      have hd := hc₁.dvd hbooks hb₁ (Nat.dvd_mul_left 4096 n)
      refine ⟨b₁, hb₁, d, hc₁, ?_⟩
      by_cases hid₁ : b₁.id = k.binding
      · obtain rfl := hbooks.binding_unique hb₁ hw.mem (hid₁.trans hw.id.symm)
        have hdne : d ≠ k.offset := by
          rintro rfl
          obtain ⟨r, hr, hrid, heq, -⟩ := hc
          obtain ⟨r₁, hr₁, hrid₁, heq₁, -⟩ := hc₁
          obtain rfl := hbooks.range_unique hr hr₁ (hrid.trans hrid₁.symm)
          omega
        have := hw.aligned
        rw [Installed.self hid₁] at hi
        rw [Installed.self hid', hm', ho']
        split at hi
        · rw [if_pos ‹_›]
          omega
        · rw [if_neg ‹_›]
          omega
      · rw [Installed.other hid₁] at hi
        rw [Installed.other (by rw [hb']; exact hid₁)]
        exact hi

/-! ## Changes of the books -/

theorem locate_mem {id : RangeId} {previous : Option Range} {p n : Option Range} {r : Range}
    (h : Owner.locate id previous ranges = some (p, r, n)) : r ∈ ranges ∧ r.id = id := by
  induction ranges generalizing previous with
  | nil => cases h
  | cons x l ih =>
    rw [Owner.locate] at h
    split at h
    · rename_i hid
      cases h
      exact ⟨List.mem_cons_self, hid⟩
    · obtain ⟨hm, hid⟩ := ih h
      exact ⟨List.mem_cons_of_mem _ hm, hid⟩

theorem rangeValid_ok {o : Owner E} {id : RangeId} {r : Range} (h : o.rangeValid id = .ok r) :
    r ∈ o.ranges ∧ r.id = id := by
  unfold Owner.rangeValid at h
  split at h
  · cases h
  · rename_i hl
    repeat' split at h
    all_goals cases h
    exact locate_mem hl

theorem bindingValid_ok {o : Owner E} {env : E} {id : BindingId} {r : Range}
    (h : o.bindingValid env id = .ok (r, b)) :
    b ∈ o.bindings ∧ b.id = id ∧ r ∈ o.ranges ∧ r.id = b.range := by
  unfold Owner.bindingValid at h
  split at h
  · cases h
  · rename_i hf
    split at h
    · cases h
    · rename_i hr
      repeat' split at h
      all_goals cases h
      obtain ⟨hm, hid⟩ := rangeValid_ok hr
      exact ⟨List.mem_of_find?_eq_some hf, by simpa using List.find?_some hf, hm, hid⟩

theorem clash_ok {o : Owner E} {env : E} {offset bytes : Nat} {l : List (Binding E)}
    (h : o.clash env offset bytes l = .ok ()) : ∀ b ∈ l,
    offset + bytes ≤ b.offset ∨ b.offset + b.source.bytes ≤ offset := by
  induction l with
  | nil => simp
  | cons x l ih =>
    rw [Owner.clash] at h
    split at h
    · cases h
    · split at h
      · cases h
      · intro b hb
        rcases List.mem_cons.mp hb with rfl | hb
        · omega
        · exact ih h b hb

theorem le_alignForward (address : Nat) {alignment : Nat} (h : 0 < alignment) :
    address ≤ Owner.alignForward address alignment := by
  have hdiv := Nat.div_add_mod (address + (alignment - 1)) alignment
  have hmod := Nat.mod_lt (address + (alignment - 1)) h
  rw [Nat.mul_comm] at hdiv
  unfold Owner.alignForward
  omega

/-- What the search of `reserve` finds: a gap between the ranges before and after it. -/
theorem fit_ok {o : Owner E} {bytes alignment fixed : Nat} {l before : List Range} {address : Nat}
    {a : Nat} {before' after' : List Range} (halign : 0 < alignment)
    (hsorted : (before ++ l).Pairwise Before) (hlow : ∀ r ∈ before, r.address + r.bytes ≤ address)
    (hext : extent address bytes = .ok ())
    (h : o.fit bytes alignment fixed address before l = .ok (a, before', after')) :
    before' ++ after' = before ++ l ∧ extent a bytes = .ok () ∧
      (∀ r ∈ before', r.address + r.bytes ≤ a) ∧ ∀ r ∈ after', a + bytes ≤ r.address := by
  induction l generalizing address before with
  | nil =>
    cases h
    exact ⟨rfl, hext, hlow, by simp⟩
  | cons x l ih =>
    have hx : (before ++ [x] ++ l).Pairwise Before := by rwa [List.append_cons] at hsorted
    have hgo {address : Nat} (hlow' : ∀ r ∈ before, r.address + r.bytes ≤ address)
        (hle : x.address + x.bytes ≤ address) (r : Range) (hr : r ∈ before ++ [x]) :
        r.address + r.bytes ≤ address := by
      rcases List.mem_append.mp hr with hr | hr
      · exact hlow' r hr
      · rw [List.mem_singleton.mp hr]
        exact hle
    obtain ⟨-, hxl, hbx⟩ := List.pairwise_append.mp hsorted
    rw [Owner.fit] at h
    split at h
    · cases h
    · split at h
      · cases h
        refine ⟨rfl, hext, hlow, fun r hr => ?_⟩
        rcases List.mem_cons.mp hr with rfl | hr
        · omega
        · have hb : x.address + x.bytes ≤ r.address := (List.pairwise_cons.mp hxl).1 r hr
          omega
      · split at h
        · split at h
          · cases h
          · -- The search goes on behind the entry.
            dsimp only at h
            have hle := le_alignForward (x.address + x.bytes) halign
            split at h
            · cases h
            · rename_i hext'
              have hlow' (r : Range) (hr : r ∈ before) : r.address + r.bytes ≤
                  Owner.alignForward (x.address + x.bytes) alignment := by
                have hb : r.address + r.bytes ≤ x.address := hbx r hr x List.mem_cons_self
                omega
              obtain ⟨heq, hrest⟩ := ih hx (hgo hlow' hle) hext' h
              exact ⟨by rw [heq, List.append_assoc]; rfl, hrest⟩
        · obtain ⟨heq, hrest⟩ := ih hx (hgo hlow (by omega)) hext h
          exact ⟨by rw [heq, List.append_assoc]; rfl, hrest⟩

/-- A binding is covered by its own range, wherever that stands. -/
theorem Covers.congr {ranges' : List Range}
    (h : ∀ r, r.id = b.range → (r ∈ ranges ↔ r ∈ ranges')) :
    Covers ranges b va d ↔ Covers ranges' b va d := by
  constructor
  · rintro ⟨r, hr, hid, hrest⟩
    exact ⟨r, (h r hid).mp hr, hid, hrest⟩
  · rintro ⟨r, hr, hid, hrest⟩
    exact ⟨r, (h r hid).mpr hr, hid, hrest⟩

theorem Maps.of_ranges {ranges' : List Range} (h : Maps ranges bindings work M)
    (hr : ∀ b ∈ bindings, ∀ r, r.id = b.range → (r ∈ ranges ↔ r ∈ ranges')) :
    Maps ranges' bindings work M := by
  refine ⟨fun b hb va d hc hva hi => ?_, fun n hn => ?_⟩
  · exact h.has b hb va d ((Covers.congr (hr b hb)).mpr hc) hva hi
  · obtain ⟨b, hb, d, hc, hi⟩ := h.only n hn
    exact ⟨b, hb, d, (Covers.congr (hr b hb)).mp hc, hi⟩

/-- A new range between the others. -/
theorem Books.reserve {before after : List Range} {x : Range} (h : Books (before ++ after) bindings)
    (hext : Vm.extent x.address x.bytes = .ok ()) (hlow : ∀ r ∈ before, Before r x)
    (hhigh : ∀ r ∈ after, Before x r) (hid : ∀ r ∈ before ++ after, r.id ≠ x.id) :
    Books (before ++ x :: after) bindings ∧
      ∀ b ∈ bindings, ∀ r, r.id = b.range → (r ∈ before ++ after ↔ r ∈ before ++ x :: after) := by
  have hmem {r : Range} : r ∈ before ++ x :: after ↔ r = x ∨ r ∈ before ++ after := by
    rw [List.mem_append, List.mem_cons, List.mem_append]
    tauto
  have hinsert {R : Range → Range → Prop} (hp : (before ++ after).Pairwise R)
      (hl : ∀ r ∈ before, R r x) (hr : ∀ r ∈ after, R x r) : (before ++ x :: after).Pairwise R := by
    obtain ⟨hb, ha, hba⟩ := List.pairwise_append.mp hp
    refine List.pairwise_append.mpr ⟨hb, List.pairwise_cons.mpr ⟨hr, ha⟩, fun r hrb y hy => ?_⟩
    rcases List.mem_cons.mp hy with rfl | hy
    · exact hl r hrb
    · exact hba r hrb y hy
  refine ⟨⟨fun r hr => ?_, hinsert h.sorted hlow hhigh, ?_, fun b hb => ?_, h.aligned, h.apart⟩,
    fun b hb r hrid => ?_⟩
  · rcases hmem.mp hr with rfl | hr
    · exact hext
    · exact h.extent r hr
  · refine hinsert h.names (fun r hr => hid r (List.mem_append_left _ hr)) fun r hr => ?_
    exact (hid r (List.mem_append_right _ hr)).symm
  · obtain ⟨r, hr, hrest⟩ := h.home b hb
    exact ⟨r, hmem.mpr (.inr hr), hrest⟩
  · rw [hmem]
    refine ⟨.inr, fun hr => hr.resolve_left ?_⟩
    rintro rfl
    obtain ⟨s, hs, hsid, -⟩ := h.home b hb
    exact hid s hs (hsid.trans hrid.symm)

/-- A range without bindings goes. -/
theorem Books.releaseRange {id : RangeId} (h : Books ranges bindings)
    (hid : ∀ b ∈ bindings, b.range ≠ id) :
    Books (ranges.filter (·.id ≠ id)) bindings ∧
      ∀ b ∈ bindings, ∀ r, r.id = b.range → (r ∈ ranges ↔ r ∈ ranges.filter (·.id ≠ id)) := by
  have hmem {r : Range} : r ∈ ranges.filter (·.id ≠ id) ↔ r ∈ ranges ∧ r.id ≠ id := by simp
  refine ⟨⟨fun r hr => h.extent r (hmem.mp hr).1, h.sorted.filter _, h.names.filter _,
    fun b hb => ?_, h.aligned, h.apart⟩, fun b hb r hrid => ?_⟩
  · obtain ⟨r, hr, hrid, hle⟩ := h.home b hb
    exact ⟨r, hmem.mpr ⟨hr, fun hn => hid b hb (hrid.symm.trans hn)⟩, hrid, hle⟩
  · rw [hmem]
    exact ⟨fun hr => ⟨hr, fun hn => hid b hb (hrid.symm.trans hn)⟩, fun hr => hr.1⟩

/-- A new binding, with no page in yet. -/
theorem Maps.beginMap (h : Maps ranges bindings none M) (hbooks : Books ranges bindings) {r : Range}
    (hr : r ∈ ranges) (hrid : r.id = b.range) (hle : b.offset + b.source.bytes ≤ r.bytes)
    (halign : 4096 ∣ b.offset ∧ 4096 ∣ b.source.bytes) (hid : ∀ b' ∈ bindings, b'.id ≠ b.id)
    (hclash : ∀ b' ∈ bindings, b'.range = b.range →
      b.offset + b.source.bytes ≤ b'.offset ∨ b'.offset + b'.source.bytes ≤ b.offset)
    (hk : k.binding = b.id) (hm : k.mapping = true) (ho : k.offset = 0) :
    Books ranges (b :: bindings) ∧ Maps ranges (b :: bindings) (some k) M := by
  refine ⟨⟨hbooks.extent, hbooks.sorted, hbooks.names, fun b' hb' => ?_,
    fun b' hb' => ?_, List.pairwise_cons.mpr ⟨fun b' hb' => ?_, hbooks.apart⟩⟩,
    ⟨fun b' hb' va d hc hva hi => ?_, fun n hn => ?_⟩⟩
  · rcases List.mem_cons.mp hb' with rfl | hb'
    · exact ⟨r, hr, hrid, hle⟩
    · exact hbooks.home b' hb'
  · rcases List.mem_cons.mp hb' with rfl | hb'
    · exact halign
    · exact hbooks.aligned b' hb'
  · exact ⟨fun hn => hid b' hb' hn.symm, fun hn => hclash b' hb' hn.symm⟩
  · rcases List.mem_cons.mp hb' with rfl | hb'
    · rw [Installed.self hk.symm, if_pos hm, ho] at hi
      omega
    · rw [Installed.other (by rw [hk]; exact hid b' hb')] at hi
      exact h.has b' hb' va d hc hva hi
  · obtain ⟨b', hb', d, hc, hi⟩ := h.only n hn
    refine ⟨b', List.mem_cons_of_mem _ hb', d, hc, ?_⟩
    rw [Installed.other (by rw [hk]; exact hid b' hb')]
    exact hi

/-- The unmapping of a mapped binding starts with every page in. -/
theorem Maps.beginUnmap (h : Maps ranges bindings none M) (hbooks : Books ranges bindings)
    (hb : b ∈ bindings) (hmapped : b.mapped = true) (hk : k.binding = b.id)
    (hm : k.mapping = false) (ho : k.offset = 0) : Maps ranges bindings (some k) M := by
  have hin {b' : Binding E} (hb' : b' ∈ bindings) {d : Nat} :
      Installed (some k) b' d ↔ b'.mapped = true := by
    by_cases hid : b'.id = k.binding
    · obtain rfl := hbooks.binding_unique hb hb' (hk.symm.trans hid.symm)
      rw [Installed.self hid, if_neg (by simp [hm]), ho]
      simp [hmapped]
    · exact Installed.other hid
  refine ⟨fun b' hb' va d hc hva hi => h.has b' hb' va d hc hva ((hin hb').mp hi), fun n hn => ?_⟩
  obtain ⟨b', hb', d, hc, hi⟩ := h.only n hn
  exact ⟨b', hb', d, hc, (hin hb').mpr hi⟩

/-- The bindings after a finished work. -/
def finished (id : BindingId) (mapping : Bool) (bindings : List (Binding E)) : List (Binding E) :=
  if mapping then bindings.map fun b => if b.id = id then { b with mapped := true } else b
  else bindings.filter (·.id ≠ id)

theorem Books.finish {id : BindingId} {mapping : Bool} (h : Books ranges bindings) :
    Books ranges (finished id mapping bindings) := by
  unfold finished
  split
  · have hsame (b : Binding E) : ∃ m, (if b.id = id then { b with mapped := true } else b) =
        { b with mapped := m } := by
      split
      · exact ⟨_, rfl⟩
      · exact ⟨b.mapped, rfl⟩
    refine ⟨h.extent, h.sorted, h.names, ?_, ?_, ?_⟩
    · rw [List.forall_mem_map]
      intro b hb
      obtain ⟨m, hm⟩ := hsame b
      rw [hm]
      exact h.home b hb
    · rw [List.forall_mem_map]
      intro b hb
      obtain ⟨m, hm⟩ := hsame b
      rw [hm]
      exact h.aligned b hb
    · rw [List.pairwise_map]
      refine h.apart.imp fun {b b'} hap => ?_
      obtain ⟨m, hm⟩ := hsame b
      obtain ⟨m', hm'⟩ := hsame b'
      rw [hm, hm']
      exact hap
  · exact ⟨h.extent, h.sorted, h.names, fun b hb => h.home b (List.mem_filter.mp hb).1,
      fun b hb => h.aligned b (List.mem_filter.mp hb).1, h.apart.filter _⟩

theorem Maps.finish (h : Maps ranges bindings (some k) M) (hbooks : Books ranges bindings)
    (hw : Working bindings k b) (hp : k.phase ≠ .editing) :
    Maps ranges (finished k.binding k.mapping bindings) none M := by
  have hend := hw.ended hp
  unfold finished
  split
  · rename_i hm
    refine ⟨?_, fun n hn => ?_⟩
    · rw [List.forall_mem_map]
      intro b₁ hb₁ va d hc hva hi
      by_cases hid : b₁.id = k.binding
      · rw [if_pos hid] at hc ⊢
        obtain rfl := hbooks.binding_unique hw.mem hb₁ (hw.id.trans hid.symm)
        obtain ⟨r, hr, hrid, heq, hd⟩ := hc
        have hin : Installed (some k) b d := by
          rw [Installed.self hid, if_pos hm, hend]
          exact hd
        exact h.has b hb₁ va d ⟨r, hr, hrid, heq, hd⟩ hva hin
      · rw [if_neg hid] at hc hi ⊢
        exact h.has b₁ hb₁ va d hc hva ((Installed.other hid).mpr hi)
    · obtain ⟨b₁, hb₁, d, hc, hi⟩ := h.only n hn
      refine ⟨_, List.mem_map_of_mem hb₁, d, ?_⟩
      by_cases hid : b₁.id = k.binding
      · rw [if_pos hid]
        exact ⟨hc, rfl⟩
      · rw [if_neg hid]
        exact ⟨hc, (Installed.other hid).mp hi⟩
  · rename_i hm
    refine ⟨fun b₁ hb₁ va d hc hva hi => ?_, fun n hn => ?_⟩
    · obtain ⟨hb₁, hid⟩ := List.mem_filter.mp hb₁
      have hid : b₁.id ≠ k.binding := by simpa using hid
      exact h.has b₁ hb₁ va d hc hva ((Installed.other hid).mpr hi)
    · obtain ⟨b₁, hb₁, d, hc, hi⟩ := h.only n hn
      have hid : b₁.id ≠ k.binding := by
        intro hid
        obtain rfl := hbooks.binding_unique hw.mem hb₁ (hw.id.trans hid.symm)
        rw [Installed.self hid, if_neg hm, hend] at hi
        obtain ⟨_, _, _, _, hd⟩ := hc
        omega
      exact ⟨b₁, List.mem_filter.mpr ⟨hb₁, by simpa using hid⟩, d, hc, (Installed.other hid).mp hi⟩

end Vm
end NvidiaGsp
