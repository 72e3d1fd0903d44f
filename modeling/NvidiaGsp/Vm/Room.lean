import NvidiaGsp.Lib.Triples
import NvidiaGsp.Vm.Books

/-!
# Vm.Room

When `reserve` succeeds. A request has room when some aligned address of the window leaves the
existing ranges alone: the fixed one, or any from the lowest address on. The search takes the first
gap, so it fails only where there is none (`reserve_spec`).
-/

namespace NvidiaGsp
namespace Vm

open Call

variable {E : Type} {o : Owner E} {bytes alignment fixed : Nat}

/-- The ranges of an owner as its calls leave them. -/
structure Owner.Listed (o : Owner E) : Prop where
  extent : ∀ r ∈ o.ranges, Vm.extent r.address r.bytes = .ok ()
  sorted : o.ranges.Pairwise Before
  names : o.ranges.Pairwise fun r r' => r.id ≠ r'.id
  serial : ∀ r ∈ o.ranges, r.serial ≠ 0
  inside : ∀ r ∈ o.ranges, o.base ≤ r.address ∧ r.address + r.bytes ≤ o.base + o.bytes

/-- An address that a request may get. -/
structure Owner.Gap (o : Owner E) (bytes alignment fixed a : Nat) : Prop where
  place : if fixed ≠ 0 then a = fixed else max o.base 0x100000000 ≤ a
  aligned : alignment ∣ a
  extent : Vm.extent a bytes = .ok ()
  inside : o.base ≤ a ∧ a + bytes ≤ o.base + o.bytes
  free : ∀ r ∈ o.ranges, a + bytes ≤ r.address ∨ r.address + r.bytes ≤ a

def Owner.Room (o : Owner E) (bytes alignment fixed : Nat) : Prop :=
  ∃ a, o.Gap bytes alignment fixed a

/-! ## The list -/

theorem locate_split {id : RangeId} {before after : List Range} {r : Range} (hid : r.id = id)
    (hbefore : ∀ x ∈ before, x.id ≠ id) (previous : Option Range) :
    Owner.locate id previous (before ++ r :: after) =
      some (before.getLast?.or previous, r, after.head?) := by
  induction before generalizing previous with
  | nil => simp [Owner.locate, hid]
  | cons x l ih =>
    have hx : x.id ≠ id := hbefore x List.mem_cons_self
    have hl := ih (fun y hy => hbefore y (List.mem_cons_of_mem _ hy)) (some x)
    rw [List.cons_append, Owner.locate, if_neg hx, hl]
    cases l with
    | nil => simp
    | cons y l => simp [List.getLast?_cons]

theorem Owner.Listed.valid (h : o.Listed) {r : Range} (hr : r ∈ o.ranges) :
    o.rangeValid r.id = .ok r := by
  obtain ⟨before, after, hl⟩ := List.append_of_mem hr
  have hsorted := hl ▸ h.sorted
  obtain ⟨-, hra, hbr⟩ := List.pairwise_append.mp hsorted
  have hbefore : ∀ x ∈ before, x.id ≠ r.id := by
    intro x hx
    exact (List.pairwise_append.mp (hl ▸ h.names)).2.2 x hx r List.mem_cons_self
  obtain ⟨hlow, hhigh⟩ := h.inside r hr
  have hprevious : (before.getLast?.or none).any (fun p => decide (p.address + p.bytes > r.address)) =
      false := by
    cases hp : before.getLast? with
    | none => simp
    | some p =>
      have : p.address + p.bytes ≤ r.address := hbr p (List.mem_of_getLast? hp) r List.mem_cons_self
      simp
      omega
  have hnext : after.head?.any (fun n => decide (r.address + r.bytes > n.address)) = false := by
    cases hn : after.head? with
    | none => simp
    | some n =>
      have hmem : n ∈ after := List.mem_of_head? hn
      have : r.address + r.bytes ≤ n.address := (List.pairwise_cons.mp hra).1 n hmem
      simp
      omega
  unfold Owner.rangeValid
  rw [hl, locate_split rfl hbefore]
  dsimp only
  rw [if_neg (h.serial r hr), h.extent r hr]
  dsimp only
  rw [if_neg (by omega), hprevious, hnext]
  rfl

/-! ## The search -/

theorem alignForward_dvd (address alignment : Nat) :
    alignment ∣ Owner.alignForward address alignment := ⟨_, Nat.mul_comm _ _⟩

theorem alignForward_le {address a : Nat} (hpos : 0 < alignment) (ha : alignment ∣ a)
    (h : address ≤ a) : Owner.alignForward address alignment ≤ a := by
  obtain ⟨c, rfl⟩ := ha
  have hle : (address + (alignment - 1)) / alignment ≤ c := by
    rw [← Nat.lt_add_one_iff]
    apply Nat.div_lt_of_lt_mul
    rw [Nat.mul_add, Nat.mul_one]
    omega
  have := Nat.mul_le_mul_left alignment hle
  rw [Nat.mul_comm] at this
  exact this

/-- Below a valid address of a request every page-aligned one is valid. -/
theorem extent_below {a b : Nat} (h : extent b bytes = .ok ()) (hle : a ≤ b) (ha : a % 4096 = 0) :
    extent a bytes = .ok () := by
  obtain ⟨hpos, hlimit, -, hbytes⟩ := extent_ok.1 h
  exact extent_ok.2 ⟨hpos, by omega, ha, hbytes⟩

/-- The search does not run past a gap. -/
theorem fit_gap {a : Nat} {l before : List Range} {address : Nat} (hpos : 0 < alignment)
    (hpage : 4096 ∣ alignment) (hlisted : o.Listed) (hgap : o.Gap bytes alignment fixed a)
    (hl : ∀ r ∈ l, r ∈ o.ranges) (haddress : address ≤ a) (hdvd : alignment ∣ address)
    (hfixed : fixed ≠ 0 → address = a) :
    ∃ a' b c, o.fit bytes alignment fixed address before l = .ok (a', b, c) ∧ a' ≤ a := by
  induction l generalizing before address with
  | nil => exact ⟨_, _, _, rfl, haddress⟩
  | cons x l ih =>
    have hx : x ∈ o.ranges := hl x List.mem_cons_self
    have hrest : ∀ r ∈ l, r ∈ o.ranges := fun r hr => hl r (List.mem_cons_of_mem _ hr)
    rw [Owner.fit, hlisted.valid hx]
    dsimp only
    split
    · exact ⟨_, _, _, rfl, haddress⟩
    rename_i hno
    have hbehind : x.address + x.bytes ≤ a := by
      rcases hgap.free x hx with h | h
      · omega
      · exact h
    split
    · rename_i hlt
      have hfree : ¬ fixed ≠ 0 := by
        intro h
        have := hfixed h
        omega
      rw [if_neg hfree]
      have hle := alignForward_le hpos hgap.aligned hbehind
      have hdvd' := alignForward_dvd (x.address + x.bytes) alignment
      have hmod := Nat.mod_eq_zero_of_dvd (Nat.dvd_trans hpage hdvd')
      rw [extent_below hgap.extent hle hmod]
      exact ih hrest hle hdvd' (fun h => absurd h hfree)
    · exact ih hrest haddress hdvd hfixed

/-- The address the search ends with: a fixed one stays, any other is aligned further on. -/
theorem fit_result {l before : List Range} {address a : Nat} {b c : List Range} (hpos : 0 < alignment)
    (hdvd : alignment ∣ address) (h : o.fit bytes alignment fixed address before l = .ok (a, b, c)) :
    (fixed ≠ 0 → a = address) ∧ address ≤ a ∧ alignment ∣ a := by
  induction l generalizing before address with
  | nil =>
    cases h
    exact ⟨fun _ => rfl, Nat.le_refl _, hdvd⟩
  | cons x l ih =>
    rw [Owner.fit] at h
    split at h
    · cases h
    split at h
    · cases h
      exact ⟨fun _ => rfl, Nat.le_refl _, hdvd⟩
    split at h
    · split at h
      · cases h
      · rename_i hfree
        dsimp only at h
        split at h
        · cases h
        · obtain ⟨-, hle, hd⟩ := ih (alignForward_dvd _ _) h
          have := le_alignForward (x.address + x.bytes) hpos
          exact ⟨fun hf => absurd hf hfree, by omega, hd⟩
    · exact ih hdvd h

/-! ## The call -/

/-- An owner that serves: attached, without failure or work. -/
structure Owner.Usable (o : Owner E) : Prop where
  prepared : o.prepared = true
  epoch : o.epoch ≠ 0
  failure : o.failure = none
  attached : o.attached = true
  idle : o.work = none
  listed : o.Listed

/-- An owner that serves, on its own generation. -/
structure World.Healthy (port : Port E) (w : World E) : Prop where
  usable : w.owner.Usable
  generation : (port.io.generation w.env).1 = w.owner.epoch

variable {port : Port E} {w : World E} {id : RangeId}

theorem stable_healthy (h : w.Healthy port) :
    stable port w = .ok () { w with env := (port.io.generation w.env).2 } := by
  have hp : ¬ (w.owner.prepared = false ∨ w.owner.epoch = 0) := by
    simp [h.usable.prepared, h.usable.epoch]
  have hg : ¬ (port.io.generation w.env).1 ≠ w.owner.epoch := by simp [h.generation]
  have hf : ¬ w.owner.failure ≠ none := by simp [h.usable.failure]
  have hc : callback port.io.generation w =
      .ok (port.io.generation w.env).1 { w with env := (port.io.generation w.env).2 } := rfl
  unfold stable
  simp only [bind_apply, get_apply, failIf_of_not hp, hc, failIf_of_not hg, failIf_of_not hf]

theorem pow_of_mask {n : Nat} (hpos : n ≠ 0) (h : n &&& (n - 1) = 0) : ∃ k, n = 2 ^ k :=
  (Nat.and_sub_one_eq_zero_iff_isPowerOfTwo hpos).mp h

/-- A power of two of at least a page. -/
structure Aligns (alignment : Nat) : Prop where
  low : 4096 ≤ alignment
  high : alignment ≤ vaLimit
  power : alignment &&& (alignment - 1) = 0

theorem Aligns.page (h : Aligns alignment) : 4096 ∣ alignment := by
  obtain ⟨k, rfl⟩ := pow_of_mask (by have := h.low; omega) h.power
  have hk : 12 ≤ k := by
    have : 2 ^ 12 ≤ 2 ^ k := h.low
    exact (Nat.pow_le_pow_iff_right (by decide)).mp this
  exact Nat.pow_dvd_pow 2 hk

theorem Aligns.mask (h : Aligns alignment) {a : Nat} :
    a &&& (alignment - 1) = 0 ↔ alignment ∣ a := by
  obtain ⟨k, rfl⟩ := pow_of_mask (by have := h.low; omega) h.power
  rw [Radix.and_mask, Nat.dvd_iff_mod_eq_zero]

/-- The owner after a reservation: the new range stands between the others. -/
structure Reserved (id : RangeId) (bytes : Nat) (a : Nat) (o o' : Owner E) : Prop where
  split : ∃ before after, o.ranges = before ++ after ∧
    o' = { o with
      serial := o.serial + 1
      ranges := before ++ ⟨id, o.serial + 1, a, bytes⟩ :: after } ∧
    (∀ r ∈ before, r.address + r.bytes ≤ a) ∧ ∀ r ∈ after, a + bytes ≤ r.address

theorem Reserved.listed {a : Nat} {o' : Owner E} (h : Reserved id bytes a o o') (hl : o.Listed)
    (hgap : o.Gap bytes alignment fixed a) (hid : ∀ r ∈ o.ranges, r.id ≠ id) : o'.Listed := by
  obtain ⟨before, after, hsplit, rfl, hlow, hhigh⟩ := h.split
  have hmem : ∀ r, r ∈ before ++ ⟨id, o.serial + 1, a, bytes⟩ :: after →
      r = ⟨id, o.serial + 1, a, bytes⟩ ∨ r ∈ o.ranges := by
    intro r hr
    rw [hsplit]
    simp only [List.mem_append, List.mem_cons] at hr ⊢
    tauto
  have hbooks : Books (E := E) (before ++ after) [] :=
    ⟨hsplit ▸ hl.extent, hsplit ▸ hl.sorted, hsplit ▸ hl.names, nofun, nofun, .nil⟩
  obtain ⟨hnew, -⟩ := hbooks.reserve (x := ⟨id, o.serial + 1, a, bytes⟩) hgap.extent hlow hhigh
    (hsplit ▸ hid)
  refine ⟨hnew.extent, hnew.sorted, hnew.names, ?_, ?_⟩
  · intro r hr
    rcases hmem r hr with rfl | hr
    · exact Nat.succ_ne_zero _
    · exact hl.serial r hr
  · intro r hr
    rcases hmem r hr with rfl | hr
    · exact hgap.inside
    · exact hl.inside r hr

theorem Reserved.usable {a : Nat} {o' : Owner E} (h : Reserved id bytes a o o') (hu : o.Usable)
    (hgap : o.Gap bytes alignment fixed a) (hid : ∀ r ∈ o.ranges, r.id ≠ id) : o'.Usable := by
  have hlisted := h.listed hu.listed hgap hid
  obtain ⟨_, _, _, rfl, _⟩ := h.split
  exact ⟨hu.prepared, hu.epoch, hu.failure, hu.attached, hu.idle, hlisted⟩

/-- A reservation by a healthy owner: the lowest gap where there is one and the serials last, else
an error that leaves the owner as it was. -/
theorem reserve_spec (h : w.Healthy port) (hid : ∀ r ∈ w.owner.ranges, r.id ≠ id)
    (ha : Aligns alignment) (hbytes : 0 < bytes ∧ bytes % 4096 = 0) (hfixed : alignment ∣ fixed) :
    Spec (reserve port id bytes alignment fixed) w
      (fun a w' => w.owner.serial ≠ maxU64 ∧ w.owner.Gap bytes alignment fixed a ∧
        (∀ b, w.owner.Gap bytes alignment fixed b → a ≤ b) ∧
        Reserved id bytes a w.owner w'.owner ∧ w'.heap = w.heap ∧ w'.trace = w.trace)
      (fun _ w' => (w.owner.serial = maxU64 ∨ ¬ w.owner.Room bytes alignment fixed) ∧
        w'.owner = w.owner ∧ w'.heap = w.heap ∧ w'.trace = w.trace) := by
  have hpos : 0 < alignment := by have := ha.low; omega
  generalize hstart : (if fixed ≠ 0 then fixed else
    Owner.alignForward (max w.owner.base 0x100000000) alignment) = start
  have hdvd : alignment ∣ start := by
    subst hstart
    split
    · exact hfixed
    · exact alignForward_dvd _ _
  have hplace : ∀ a, w.owner.Gap bytes alignment fixed a → start ≤ a ∧ (fixed ≠ 0 → start = a) := by
    intro a hgap
    have hp := hgap.place
    subst hstart
    by_cases hf : fixed ≠ 0
    · rw [if_pos hf] at hp ⊢
      exact ⟨Nat.le_of_eq hp.symm, fun _ => hp.symm⟩
    · rw [if_neg hf] at hp ⊢
      exact ⟨alignForward_le hpos hgap.aligned hp, fun h => absurd h hf⟩
  have hfit : ∀ b, w.owner.Gap bytes alignment fixed b → ∃ a before after,
      w.owner.fit bytes alignment fixed start [] w.owner.ranges = .ok (a, before, after) ∧ a ≤ b := by
    intro b hgap
    obtain ⟨hle, hf⟩ := hplace b hgap
    exact fit_gap hpos ha.page h.usable.listed hgap (fun _ hr => hr) hle hdvd hf
  have hlow : start % 4096 = 0 := Nat.mod_eq_zero_of_dvd (Nat.dvd_trans ha.page hdvd)
  unfold reserve
  apply Spec.bind
  unfold Spec
  rw [stable_healthy h]
  apply Spec.get_bind
  apply Spec.failIf_bind
  · intro hbusy
    simp only [h.usable.attached, h.usable.idle, List.any_eq_true, decide_eq_true_eq] at hbusy
    rcases hbusy with hc | hc | ⟨r, hr, heq⟩
    · cases hc
    · cases hc
    · exact absurd heq (hid r hr)
  intro _
  apply Spec.failIf_bind
  · intro hbad
    have hmask : bytes &&& 4095 = bytes % 4096 := Nat.and_two_pow_sub_one_eq_mod bytes 12
    have := ha.low
    have := ha.high
    have := ha.power
    omega
  intro _
  dsimp only
  rw [hstart]
  apply Spec.failIf_bind
  · intro hbad
    exact absurd (ha.mask.2 hdvd) hbad
  intro _
  apply Spec.lift_bind
  · intro e he
    refine ⟨.inr ?_, rfl, rfl, rfl⟩
    rintro ⟨b, hgap⟩
    rw [extent_below hgap.extent (hplace b hgap).1 hlow] at he
    cases he
  intro _ hext
  apply Spec.lift_bind
  · intro e he
    refine ⟨.inr ?_, rfl, rfl, rfl⟩
    rintro ⟨b, hgap⟩
    obtain ⟨a, before, after, hok, -⟩ := hfit b hgap
    rw [hok] at he
    cases he
  rintro ⟨a, before, after⟩ hok
  dsimp only
  obtain ⟨hfix, hge, hd⟩ := fit_result hpos hdvd hok
  obtain ⟨hsplit, hexta, hbelow, habove⟩ := fit_ok hpos (by simpa using h.usable.listed.sorted) (by simp) hext
    hok
  have hleast : ∀ b, w.owner.Gap bytes alignment fixed b → a ≤ b := by
    intro b hgap
    obtain ⟨a', _, _, hok', hle⟩ := hfit b hgap
    rw [hok] at hok'
    cases hok'
    exact hle
  apply Spec.failIf_bind
  · intro hout
    refine ⟨.inr ?_, rfl, rfl, rfl⟩
    rintro ⟨b, hgap⟩
    have := hleast b hgap
    have := hgap.inside
    have hbase : w.owner.base ≤ start := by
      by_cases hf : fixed ≠ 0
      · rw [(hplace b hgap).2 hf]
        exact hgap.inside.1
      · subst hstart
        rw [if_neg hf]
        exact Nat.le_trans (Nat.le_max_left _ _) (le_alignForward _ hpos)
    omega
  intro hin
  have hgap : w.owner.Gap bytes alignment fixed a := by
    refine ⟨?_, hd, hexta, by omega, ?_⟩
    · subst hstart
      by_cases hf : fixed ≠ 0
      · rw [if_pos hf]
        have := hfix hf
        rwa [if_pos hf] at this
      · rw [if_neg hf] at hge ⊢
        exact Nat.le_trans (le_alignForward _ hpos) hge
    · intro r hr
      rw [← List.nil_append w.owner.ranges, ← hsplit] at hr
      rcases List.mem_append.mp hr with hr | hr
      · exact .inr (hbelow r hr)
      · exact .inl (habove r hr)
  apply Spec.bind
  unfold nextSerial
  apply Spec.get_bind
  apply Spec.failIf_bind
  · intro hmax
    exact ⟨.inl hmax, rfl, rfl, rfl⟩
  intro hserial
  refine ⟨hserial, hgap, hleast, ⟨before, after, hsplit.symm, rfl, hbelow, habove⟩, rfl, rfl⟩

end Vm
end NvidiaGsp
