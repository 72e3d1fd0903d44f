import NvidiaGsp.Bar1.Walk
import NvidiaGsp.Lib.Radix

/-!
# Bar1.WalkSpec

A walk that returns has found what the memory unit's translation gives for every byte of the span, and
it never needs more entries than it has.
-/

namespace NvidiaGsp
namespace Bar1

open Bytes Call

variable {vram : Nat → Byte} {q : Request} {reader : Reader} {w : World} {m : Mapped} {s : Span}
  {address bytes raw shift d n o : Nat} {level : Level} {block : Word}

/-! ## The accesses -/

/-- Every error but the one of a full list. -/
def Quiet (e : Fault) : Prop := e ≠ .State

instance {e : Fault} : Decidable (Quiet e) := inferInstanceAs (Decidable (_ ≠ _))

/-- A pure check at the end of a body. -/
theorem lift_spec {α : Type} {x : Except Fault α} {R : α → World → Prop} {E : Fault → World → Prop}
    (hok : ∀ a, x = .ok a → R a w) (herr : ∀ e, x = .error e → E e w) : Spec (lift x) w R E :=
  .intro (fun a _ hx => (lift_ok_iff.1 hx).2 ▸ hok a (lift_ok_iff.1 hx).1)
    fun e _ hx => (lift_error_iff.1 hx).2 ▸ herr e (lift_error_iff.1 hx).1

theorem tick_bind {α β : Type} {answer : Nat → α} {f : α → Step β} {R : β → World → Prop}
    {E : Fault → World → Prop}
    (h : ∀ a, Spec (f a) { w with step := w.step + 1 } R E) : Spec (tick answer >>= f) w R E :=
  h (answer w.step)

theorem guard_spec : Spec (guard q reader) w (fun _ w' => w'.entries = w.entries)
    fun e _ => Quiet e := by
  refine tick_bind fun generation => .failIf_bind (fun _ => by decide) fun _ => ?_
  refine tick_bind fun now => .get_bind (.failIf_bind (fun _ => by decide) fun _ => ?_)
  exact .failIf_bind (fun _ => by decide) fun _ => rfl

theorem checkControls_error {value : Control} {e : Fault} (h : checkControls q value = .error e) :
    Quiet e := by
  unfold checkControls at h
  repeat' split at h
  all_goals
    cases h
    try decide

theorem controls_spec : Spec (controls q reader) w (fun _ w' => w'.entries = w.entries)
    fun e _ => Quiet e := by
  refine .seq guard_spec (fun _ w₁ h₁ => ?_) fun _ _ he => he
  refine tick_bind fun answer => .lift_bind (fun e he => ?_) fun value _ => ?_
  · cases answer with
    | ok value => cases he
    | error code =>
      cases he
      exact fun h => nomatch h
  refine .seq guard_spec (fun _ w₂ h₂ => ?_) fun _ _ he => he
  exact lift_spec (fun _ _ => h₂.trans h₁) fun e he => checkControls_error he

theorem access_spec : Spec (access vram q reader address bytes) w
    (fun value w' => value = content vram address bytes ∧ w'.entries = w.entries)
    fun e _ => Quiet e := by
  refine .seq guard_spec (fun _ w₁ h₁ => tick_bind fun failure => ?_) fun _ _ he => he
  refine .failIf_bind (fun _ h => nomatch h) fun _ => .seq guard_spec (fun _ w₂ h₂ => ?_) fun _ _ he => he
  exact .pure ⟨rfl, h₂.trans h₁⟩

theorem checkSpan_ok (h : checkSpan q address bytes = .ok ()) :
    0 < bytes ∧ address + bytes ≤ q.framebufferBytes := by
  unfold checkSpan at h
  split at h
  · cases h
  · omega

theorem checkSpan_error {e : Fault} (h : checkSpan q address bytes = .error e) : Quiet e := by
  unfold checkSpan at h
  split at h
  · cases h
    decide
  · cases h

theorem read_spec (hb : bytes = 8 ∨ bytes = 16) (ha : address % 8 = 0)
    (hroom : w.entries.length < maxEntries) : Spec (read vram q reader address bytes level) w
      (fun entry w' => entry.value = content vram address bytes ∧
        w'.entries.length = w.entries.length + 1) fun e _ => Quiet e := by
  refine .get_bind (.failIf_bind (fun h => by omega) fun _ => ?_)
  refine .lift_bind (fun e he => checkSpan_error he) fun _ _ => ?_
  refine .seq access_spec (fun value w₁ h => .modify_bind (.pure ⟨h.1, ?_⟩)) fun _ _ he => he
  show (w₁.entries ++ [_]).length = _
  rw [h.2, List.length_append, List.length_singleton]

theorem number_content (h : o + 8 ≤ n) :
    number (content vram address n) o 8 = wordAt vram (address + o) := by
  refine number_congr fun k hk => ?_
  have hleft : o + k < n := by omega
  unfold content
  simp [List.getD_eq_getElem?_getD, hleft, hk, Nat.add_assoc]

theorem word_content {entry : Entry} (h : entry.value = content vram address n) (hn : o + 8 ≤ n) :
    word entry o = wordAt vram (address + o) := by
  unfold word
  rw [h, number_content hn]

/-! ## The entries -/

theorem index_eq (s k : Nat) : q.offset >>> s &&& (2 ^ k - 1) = q.offset / 2 ^ s % 2 ^ k := by
  rw [Radix.and_mask, Nat.shiftRight_eq_div_pow]

/-- A leaf, and what its span is. -/
structure Leaf (q : Request) (raw shift : Nat) (m : Mapped) : Prop where
  valid : raw &&& 1 ≠ 0
  address : m.span.address = leafAddress raw + q.offset % 2 ^ shift
  bytes : m.span.bytes = min q.bytes (2 ^ shift - q.offset % 2 ^ shift)
  inside : leafAddress raw + 2 ^ shift ≤ q.framebufferBytes

theorem leaf_ok (h : leaf q raw shift = .ok m) : Leaf q raw shift m := by
  unfold leaf at h
  split at h
  · cases h
  rename_i hvalid
  split at h
  · cases h
  split at h
  · cases h
  split at h
  · cases h
  · rename_i hspan
    cases h
    rw [Radix.and_mask]
    exact ⟨hvalid, rfl, rfl, (checkSpan_ok hspan).2⟩

theorem leaf_error {e : Fault} (h : leaf q raw shift = .error e) : Quiet e := by
  unfold leaf at h
  repeat' split at h
  · cases h
    decide
  · cases h
    decide
  · cases h
    decide
  · rename_i hspan
    cases h
    exact checkSpan_error hspan
  · cases h

theorem table_ok {big : Bool} {next : Nat} (h : table raw big = .ok (some next)) :
    nextTable raw big = some next ∧ next % 8 = 0 := by
  unfold table at h
  split at h
  · cases h
  rename_i hinvalid
  split at h
  · split at h <;> cases h
  split at h
  · cases h
  rename_i haperture
  split at h
  · cases h
  · cases h
    unfold nextTable
    rw [if_pos ⟨Decidable.not_not.mp hinvalid, Decidable.not_not.mp haperture⟩, Nat.shiftLeft_eq]
    exact ⟨rfl, by omega⟩

/-- An empty entry leads nowhere in the translation either. -/
theorem table_none {big : Bool} (h : table raw big = .ok none) : nextTable raw big = none := by
  unfold table at h
  split at h
  · cases h
  split at h
  · rename_i hzero
    unfold nextTable
    rw [if_neg fun hn => by omega]
  split at h
  · cases h
  split at h <;> cases h

theorem table_error {big : Bool} {e : Fault} (h : table raw big = .error e) : Quiet e := by
  unfold table at h
  repeat' split at h
  all_goals
    cases h
    try decide

theorem levelResult_leaf (h : levelResult q raw level = .ok (.inl m)) :
    level = .pd1 ∧ Leaf q raw 29 m := by
  unfold levelResult at h
  split at h
  · split at h
    · cases h
    rename_i hlevel
    split at h
    · cases h
    · rename_i hleaf
      cases h
      exact ⟨Decidable.not_not.mp hlevel, leaf_ok hleaf⟩
  · split at h <;> cases h

theorem levelResult_next {next : Nat} (h : levelResult q raw level = .ok (.inr next)) :
    nextTable raw false = some next ∧ next % 8 = 0 := by
  unfold levelResult at h
  split at h
  · split at h
    · cases h
    split at h <;> cases h
  · split at h
    · cases h
    · cases h
    · rename_i htable
      cases h
      exact table_ok htable

theorem levelResult_error {e : Fault} (h : levelResult q raw level = .error e) : Quiet e := by
  unfold levelResult at h
  split at h
  · split at h
    · cases h
      decide
    split at h
    · rename_i hleaf
      cases h
      exact leaf_error hleaf
    · cases h
  · split at h
    · rename_i htable
      cases h
      exact table_error htable
    · cases h
      decide
    · cases h

theorem pteResult_leaf (h : pteResult q raw shift = .ok (some m)) : Leaf q raw shift m := by
  unfold pteResult at h
  split at h
  · split at h <;> cases h
  · split at h
    · cases h
    · rename_i hleaf
      cases h
      exact leaf_ok hleaf

theorem pteResult_absent (h : pteResult q raw shift = .ok none) :
    raw &&& 1 = 0 ∧ raw &&& 8 = 0 := by
  unfold pteResult at h
  split at h
  · rename_i hinvalid
    split at h
    · cases h
    · rename_i hsparse
      exact ⟨hinvalid, Decidable.not_not.mp hsparse⟩
  · split at h <;> cases h

theorem pteResult_error {e : Fault} (h : pteResult q raw shift = .error e) : Quiet e := by
  unfold pteResult at h
  split at h
  · split at h
    · cases h
      decide
    · cases h
  · split at h
    · rename_i hleaf
      cases h
      exact leaf_error hleaf
    · cases h

/-! ## The walk -/

/-- What the upper levels say, one after the other. -/
def Descends (vram : Nat → Byte) (q : Request) : List (Nat × Nat × Level) → Nat → Mapped ⊕ Nat → Prop
  | [], current, r => r = .inr current
  | (shift, mask, level) :: rest, current, r =>
    ∃ x, levelResult q (wordAt vram (current + (q.offset >>> shift &&& mask) * 8)) level = .ok x ∧
      match x with
      | .inl m => r = .inl m
      | .inr next => Descends vram q rest next r

theorem descend_spec {levels : List (Nat × Nat × Level)} {current : Nat} (hc : current % 8 = 0)
    (hroom : w.entries.length + levels.length ≤ maxEntries) :
    Spec (descend vram q reader levels current) w
      (fun r w' => Descends vram q levels current r ∧ (∀ t, r = .inr t → t % 8 = 0) ∧
        w'.entries.length ≤ w.entries.length + levels.length) fun e _ => Quiet e := by
  induction levels generalizing current w with
  | nil => exact .pure ⟨rfl, (fun t ht => Sum.inr.inj ht ▸ hc), Nat.le_refl _⟩
  | cons l rest ih =>
    obtain ⟨shift, mask, level⟩ := l
    rw [List.length_cons] at hroom ⊢
    refine .seq (read_spec (.inl rfl) (by omega) (by omega)) (fun entry w₁ h₁ => ?_) fun _ _ he => he
    have hword := word_content h₁.1 (o := 0) (by omega)
    rw [Nat.add_zero] at hword
    rw [hword]
    refine .lift_bind (fun e he => levelResult_error he) fun x hx => ?_
    cases x with
    | inl m => exact .pure ⟨⟨.inl m, hx, rfl⟩, (fun _ h => nomatch h), by omega⟩
    | inr next =>
      refine (ih (levelResult_next hx).2 (by omega)).mono (fun r w' h => ?_) fun _ _ he => he
      exact ⟨⟨.inr next, hx, h.1⟩, h.2.1, by have := h.2.2; omega⟩

/-- What one of the two lowest tables says. -/
def Half (vram : Nat → Byte) (q : Request) (shift : Nat) : Option Nat → Option Mapped → Prop
  | none, r => r = none
  | some base, r =>
    pteResult q (wordAt vram (base + q.offset % 2 ^ 21 / 2 ^ shift * 8)) shift = .ok r

theorem half_spec {base : Option Nat} (hbase : ∀ b, base = some b → b % 8 = 0)
    (hroom : w.entries.length < maxEntries) : Spec (half vram q reader shift level base) w
      (fun r w' => Half vram q shift base r ∧ w'.entries.length ≤ w.entries.length + 1)
      fun e _ => Quiet e := by
  cases base with
  | none => exact .pure ⟨rfl, Nat.le_succ _⟩
  | some b =>
    have hb := hbase b rfl
    have hindex : (q.offset &&& (2 ^ 21 - 1)) >>> shift = q.offset % 2 ^ 21 / 2 ^ shift := by
      rw [Radix.and_mask, Nat.shiftRight_eq_div_pow]
    unfold half
    dsimp only
    rw [hindex]
    refine .failIf_bind (fun _ => by decide) fun _ => ?_
    refine .seq (read_spec (.inl rfl) (by omega) hroom) (fun entry w₁ h₁ => ?_) fun _ _ he => he
    have hword := word_content h₁.1 (o := 0) (by omega)
    rw [Nat.add_zero] at hword
    rw [hword]
    exact lift_spec (fun r hr => ⟨hr, by omega⟩) fun e he => pteResult_error he

/-- What the two halves of a dual entry and the tables behind them say. -/
inductive Low (vram : Nat → Byte) (q : Request) (bigShift big small : Nat) (m : Mapped) : Prop
  | large (hvalid : big &&& 1 ≠ 0) (hleaf : Leaf q big 21 m)
  | tables (b s : Option Nat) (rb rs : Option Mapped) (hinvalid : big &&& 1 = 0)
      (hbig : table big true = .ok b) (hsmall : table small false = .ok s)
      (hfromBig : Half vram q bigShift b rb) (hfromSmall : Half vram q 12 s rs)
      (hcombine : combine rb rs = .ok m)

theorem combine_error {rb rs : Option Mapped} {e : Fault} (h : combine rb rs = .error e) : Quiet e := by
  unfold combine at h
  split at h <;> cases h <;> decide

theorem largeLeaf_ok {big small : Nat} (h : largeLeaf q big small = .ok m) : Leaf q big 21 m := by
  unfold largeLeaf at h
  split at h
  · cases h
  · exact leaf_ok h

theorem largeLeaf_error {big small : Nat} {e : Fault} (h : largeLeaf q big small = .error e) :
    Quiet e := by
  unfold largeLeaf at h
  split at h
  · cases h
    decide
  · exact leaf_error h

theorem lowest_spec {bigShift current : Nat} (hc : current % 8 = 0)
    (hroom : w.entries.length + 3 ≤ maxEntries) : Spec (lowest vram q reader bigShift current) w
      (fun m w' => Low vram q bigShift (wordAt vram (current + q.offset / 2 ^ 21 % 256 * 16))
        (wordAt vram (current + q.offset / 2 ^ 21 % 256 * 16 + 8)) m ∧
          w'.entries.length ≤ w.entries.length + 3)
      fun e _ => Quiet e := by
  unfold lowest
  rw [show q.offset >>> 21 &&& 255 = q.offset / 2 ^ 21 % 256 from index_eq 21 8]
  refine .seq (read_spec (.inr rfl) (by omega) (by omega)) (fun dual w₁ h₁ => ?_) fun _ _ he => he
  have hbig := word_content h₁.1 (o := 0) (by omega)
  have hsmall := word_content h₁.1 (o := 8) (by omega)
  rw [Nat.add_zero] at hbig
  dsimp only
  rw [hbig, hsmall]
  generalize wordAt vram (current + q.offset / 2 ^ 21 % 256 * 16) = big
  generalize wordAt vram (current + q.offset / 2 ^ 21 % 256 * 16 + 8) = small
  split
  · rename_i hvalid
    exact lift_spec (fun m hm => ⟨.large hvalid (largeLeaf_ok hm), by omega⟩) fun e he => largeLeaf_error he
  · rename_i hinvalid
    refine .lift_bind (fun e he => table_error he) fun b hb => ?_
    refine .lift_bind (fun e he => table_error he) fun s hs => ?_
    have hb8 (t : Nat) (ht : b = some t) : t % 8 = 0 := (table_ok (ht ▸ hb)).2
    have hs8 (t : Nat) (ht : s = some t) : t % 8 = 0 := (table_ok (ht ▸ hs)).2
    refine .seq (half_spec hb8 (by omega)) (fun rb w₂ h₂ => ?_) fun _ _ he => he
    refine .seq (half_spec hs8 (by omega)) (fun rs w₃ h₃ => ?_) fun _ _ he => he
    refine lift_spec (fun m hm => ⟨.tables b s rb rs (Decidable.not_not.mp hinvalid) hb hs h₂.1 h₃.1 hm,
      ?_⟩) fun e he => combine_error he
    have := h₂.2
    have := h₃.2
    omega

/-! ## The translation -/

section

variable {off t k : Nat}

/-- An offset in the same leaf: its higher parts are the same. -/
theorem near_div (h : d < 2 ^ shift - off % 2 ^ shift) (hst : shift ≤ t) :
    (off + d) / 2 ^ t = off / 2 ^ t := by
  have hlow : (off + d) / 2 ^ shift = off / 2 ^ shift := by
    have hsplit := Nat.div_add_mod off (2 ^ shift)
    have hlt : off % 2 ^ shift + d < 2 ^ shift := by omega
    calc (off + d) / 2 ^ shift
        = (2 ^ shift * (off / 2 ^ shift) + (off % 2 ^ shift + d)) / 2 ^ shift := by
          rw [← Nat.add_assoc, hsplit]
      _ = off / 2 ^ shift := by
          rw [Nat.mul_add_div (Nat.two_pow_pos _), Nat.div_eq_of_lt hlt, Nat.add_zero]
  obtain ⟨k, rfl⟩ := Nat.exists_eq_add_of_le hst
  rw [Nat.pow_add, ← Nat.div_div_eq_div_mul, ← Nat.div_div_eq_div_mul, hlow]

theorem near_mod (h : d < 2 ^ shift - off % 2 ^ shift) :
    (off + d) % 2 ^ shift = off % 2 ^ shift + d := by
  have hdiv := near_div h (Nat.le_refl shift)
  have hleft := Nat.div_add_mod (off + d) (2 ^ shift)
  have hright := Nat.div_add_mod off (2 ^ shift)
  rw [hdiv] at hleft
  omega

/-- The index in a table below a boundary. -/
theorem near_index (h : d < 2 ^ shift - off % 2 ^ shift) (hst : shift ≤ t) (htk : t ≤ k) :
    (off + d) % 2 ^ k / 2 ^ t = off % 2 ^ k / 2 ^ t := by
  obtain ⟨j, rfl⟩ := Nat.exists_eq_add_of_le htk
  rw [Nat.pow_add, Nat.mod_mul_right_div_self, Nat.mod_mul_right_div_self, near_div h hst]

end

theorem Leaf.near (h : Leaf q raw shift m) (hd : d < m.span.bytes) :
    d < 2 ^ shift - q.offset % 2 ^ shift := by
  rw [h.bytes] at hd
  omega

/-- The address of a byte in a leaf. -/
theorem Leaf.at_ (h : Leaf q raw shift m) (hd : d < m.span.bytes) :
    leafAddress raw + (q.offset + d) % 2 ^ shift = m.span.address + d := by
  rw [near_mod (h.near hd), h.address, Nat.add_assoc]

/-- The span of a leaf is inside the framebuffer and in the request. -/
theorem Leaf.span (h : Leaf q raw shift m) (hq : 0 < q.bytes) :
    0 < m.span.bytes ∧ m.span.bytes ≤ q.bytes ∧
      m.span.address + m.span.bytes ≤ q.framebufferBytes := by
  have hmod := Nat.mod_lt q.offset (Nat.two_pow_pos shift)
  have := h.bytes
  have := h.address
  have := h.inside
  omega

/-- A leaf of one of the two lowest tables, as the translation looks it up. -/
theorem lookup_leaf {base : Option Nat} (h : Half vram q shift base (some m)) (hs : shift ≤ 21)
    (hd : d < m.span.bytes) :
    lookup vram base shift (q.offset + d) = .leaf (m.span.address + d) ∧ ∃ raw, Leaf q raw shift m := by
  cases base with
  | none => cases h
  | some b =>
    have hleaf := pteResult_leaf h
    refine ⟨?_, _, hleaf⟩
    unfold lookup
    dsimp only
    rw [near_index (hleaf.near hd) (Nat.le_refl _) hs, if_pos hleaf.valid, hleaf.at_ hd]

/-- An absent entry, for the addresses in the leaf of another table. -/
theorem lookup_absent {base : Option Nat} {other : Nat} (h : Half vram q shift base none)
    (hs : shift ≤ 21) (ho : other ≤ shift) (hd : d < 2 ^ other - q.offset % 2 ^ other) :
    lookup vram base shift (q.offset + d) = .absent := by
  cases base with
  | none => rfl
  | some b =>
    obtain ⟨hinvalid, hsparse⟩ := pteResult_absent h
    unfold lookup
    dsimp only
    rw [near_index hd ho hs, if_neg (by rw [hinvalid]; decide), if_neg (by rw [hsparse]; decide)]

theorem table_next {big : Bool} {b : Option Nat} (h : table raw big = .ok b) : nextTable raw big = b := by
  cases b with
  | none => exact table_none h
  | some b => exact (table_ok h).1

variable {bigShift current : Nat}

/-- Everything below the dual entry, with the leaf that was found. -/
theorem low_translates (hbig : bigShift = 16 ∨ bigShift = 17)
    (h : Low vram q bigShift (wordAt vram (current + q.offset / 2 ^ 21 % 256 * 16))
      (wordAt vram (current + q.offset / 2 ^ 21 % 256 * 16 + 8)) m) :
    ∃ raw shift, shift ≤ 21 ∧ Leaf q raw shift m ∧ ∀ d < m.span.bytes,
      translateLow vram bigShift current (q.offset + d) = some (m.span.address + d) := by
  have hle : bigShift ≤ 21 := by omega
  cases h with
  | large hvalid hleaf =>
    refine ⟨_, 21, Nat.le_refl _, hleaf, fun d hd => ?_⟩
    unfold translateLow
    dsimp only
    rw [near_div (hleaf.near hd) (Nat.le_refl 21), if_pos hvalid, hleaf.at_ hd]
  | tables b s rb rs hinvalid hb hs hfromBig hfromSmall hcombine =>
    cases rb with
    | some m' =>
      cases rs with
      | some _ => cases hcombine
      | none =>
        cases hcombine
        obtain ⟨raw, hleaf⟩ : ∃ raw, Leaf q raw bigShift m := by
          cases b with
          | none => cases hfromBig
          | some b => exact ⟨_, pteResult_leaf hfromBig⟩
        refine ⟨raw, bigShift, hle, hleaf, fun d hd => ?_⟩
        unfold translateLow
        dsimp only
        rw [near_div (hleaf.near hd) hle, if_neg (by rw [hinvalid]; decide), table_next hb,
          (lookup_leaf hfromBig hle hd).1]
    | none =>
      cases rs with
      | none => cases hcombine
      | some m' =>
        cases hcombine
        obtain ⟨raw, hleaf⟩ : ∃ raw, Leaf q raw 12 m := by
          cases s with
          | none => cases hfromSmall
          | some s => exact ⟨_, pteResult_leaf hfromSmall⟩
        refine ⟨raw, 12, by omega, hleaf, fun d hd => ?_⟩
        unfold translateLow
        dsimp only
        rw [near_div (hleaf.near hd) (by omega), if_neg (by rw [hinvalid]; decide), table_next hb,
          table_next hs, lookup_absent hfromBig hle (by omega) (hleaf.near hd)]
        dsimp only
        rw [(lookup_leaf hfromSmall (by omega) hd).1]

/-- A span whose every byte is what a translation gives, inside the framebuffer and the request. -/
structure Found (q : Request) (translation : Nat → Option Nat) (s : Span) : Prop where
  positive : 0 < s.bytes
  within : s.bytes ≤ q.bytes
  inside : s.address + s.bytes ≤ q.framebufferBytes
  translates : ∀ d < s.bytes, translation (q.offset + d) = some (s.address + d)

/-- The two directories that only lead further down. -/
theorem descends_upper {root : Nat} {r : Mapped ⊕ Nat} (h : Descends vram q upperLevels root r) :
    ∃ pd2 pd1, nextTable (wordAt vram (root + q.offset / 2 ^ 47 % 4 * 8)) false = some pd2 ∧
      nextTable (wordAt vram (pd2 + q.offset / 2 ^ 38 % 512 * 8)) false = some pd1 ∧
      Descends vram q [(29, 511, .pd1)] pd1 r := by
  obtain ⟨x, hx, hrest⟩ := h
  cases x with
  | inl m => cases (levelResult_leaf hx).1
  | inr pd2 =>
    obtain ⟨y, hy, hlast⟩ := hrest
    cases y with
    | inl m => cases (levelResult_leaf hy).1
    | inr pd1 =>
      rw [show q.offset >>> 47 &&& 3 = q.offset / 2 ^ 47 % 4 from index_eq 47 2] at hx
      rw [show q.offset >>> 38 &&& 511 = q.offset / 2 ^ 38 % 512 from index_eq 38 9] at hy
      exact ⟨pd2, pd1, (levelResult_next hx).1, (levelResult_next hy).1, hlast⟩

/-- The last of the three: a 512-MB leaf, or the table of dual entries. -/
theorem descends_last {pd1 : Nat} {r : Mapped ⊕ Nat} (h : Descends vram q [(29, 511, .pd1)] pd1 r) :
    (∃ m, r = .inl m ∧ Leaf q (wordAt vram (pd1 + q.offset / 2 ^ 29 % 512 * 8)) 29 m) ∨
      ∃ pd0, r = .inr pd0 ∧ wordAt vram (pd1 + q.offset / 2 ^ 29 % 512 * 8) &&& 1 = 0 ∧
        nextTable (wordAt vram (pd1 + q.offset / 2 ^ 29 % 512 * 8)) false = some pd0 := by
  obtain ⟨x, hx, hrest⟩ := h
  rw [show q.offset >>> 29 &&& 511 = q.offset / 2 ^ 29 % 512 from index_eq 29 9] at hx
  cases x with
  | inl m => exact .inl ⟨m, hrest, (levelResult_leaf hx).2⟩
  | inr pd0 =>
    have hnext := (levelResult_next hx).1
    refine .inr ⟨pd0, hrest, ?_, hnext⟩
    unfold nextTable at hnext
    split at hnext
    · rename_i hinvalid
      exact hinvalid.1
    · cases hnext

/-- The translation of an address in the same leaf goes through the same directories. -/
theorem translate_near {root pd2 pd1 : Nat} (hd : d < 2 ^ shift - q.offset % 2 ^ shift)
    (hs : shift ≤ 29) (h2 : nextTable (wordAt vram (root + q.offset / 2 ^ 47 % 4 * 8)) false = some pd2)
    (h1 : nextTable (wordAt vram (pd2 + q.offset / 2 ^ 38 % 512 * 8)) false = some pd1) :
    translate vram root bigShift (q.offset + d) =
      if wordAt vram (pd1 + q.offset / 2 ^ 29 % 512 * 8) &&& 1 ≠ 0 then
        some (leafAddress (wordAt vram (pd1 + q.offset / 2 ^ 29 % 512 * 8)) + (q.offset + d) % 2 ^ 29)
      else
        (nextTable (wordAt vram (pd1 + q.offset / 2 ^ 29 % 512 * 8)) false).bind fun pd0 =>
          translateLow vram bigShift pd0 (q.offset + d) := by
  unfold translate
  rw [near_div hd (show shift ≤ 47 by omega), near_div hd (show shift ≤ 38 by omega), near_div hd hs, h2]
  dsimp only [Option.bind_eq_bind, Option.bind_some]
  rw [h1]
  rfl

theorem descends_leaf {root : Nat} (hq : 0 < q.bytes) (h : Descends vram q upperLevels root (.inl m)) :
    Found q (translate vram root bigShift) m.span := by
  obtain ⟨pd2, pd1, h2, h1, hlast⟩ := descends_upper h
  obtain ⟨m', heq, hleaf⟩ | ⟨pd0, heq, _⟩ := descends_last hlast
  · cases heq
    obtain ⟨hpositive, hwithin, hinside⟩ := hleaf.span hq
    refine ⟨hpositive, hwithin, hinside, fun d hd => ?_⟩
    rw [translate_near (hleaf.near hd) (Nat.le_refl 29) h2 h1, if_pos hleaf.valid, hleaf.at_ hd]
  · cases heq

theorem descends_low {root pd0 : Nat} (hq : 0 < q.bytes)
    (hbig : bigShift = 16 ∨ bigShift = 17) (h : Descends vram q upperLevels root (.inr pd0))
    (hlow : Low vram q bigShift (wordAt vram (pd0 + q.offset / 2 ^ 21 % 256 * 16))
      (wordAt vram (pd0 + q.offset / 2 ^ 21 % 256 * 16 + 8)) m) :
    Found q (translate vram root bigShift) m.span := by
  obtain ⟨pd2, pd1, h2, h1, hlast⟩ := descends_upper h
  obtain ⟨m', heq, _⟩ | ⟨pd0', heq, hinvalid, hnext⟩ := descends_last hlast
  · cases heq
  · cases heq
    obtain ⟨raw, shift, hs, hleaf, htranslates⟩ := low_translates hbig hlow
    obtain ⟨hpositive, hwithin, hinside⟩ := hleaf.span hq
    refine ⟨hpositive, hwithin, hinside, fun d hd => ?_⟩
    rw [translate_near (hleaf.near hd) (by omega) h2 h1, if_neg (by rw [hinvalid]; decide), hnext,
      Option.bind_some, htranslates d hd]

/-! ## The whole walk -/

theorem checkInstance_error {header limit : Nat} {e : Fault}
    (h : checkInstance q header limit = .error e) : Quiet e := by
  unfold checkInstance at h
  repeat' split at h
  · cases h
    decide
  · cases h
    decide
  · cases h
    decide
  · cases h
    decide
  · exact checkSpan_error h

theorem virtual_spec {inst : Nat} (hq : 0 < q.bytes) (hinst : inst % 4096 = 0) (hw : w.entries = []) :
    Spec (virtual vram q reader inst) w
      (fun m w' => Found q (translate vram (rootOf (wordAt vram (inst + 0x200)))
        (bigShiftOf (wordAt vram (inst + 0x200)))) m.span ∧ w'.entries.length ≤ maxEntries)
      fun e _ => Quiet e := by
  have hempty : w.entries.length = 0 := by rw [hw]; rfl
  have hroot (header : Nat) : rootOf header % 8 = 0 := by
    unfold rootOf
    omega
  have hbig (header : Nat) : bigShiftOf header = 16 ∨ bigShiftOf header = 17 := by
    unfold bigShiftOf
    split
    · exact .inl rfl
    · exact .inr rfl
  unfold virtual
  refine .lift_bind (fun e he => checkSpan_error he) fun _ _ => ?_
  refine .seq (read_spec (.inr rfl) (by omega) (by rw [hempty]; decide)) (fun header w₁ h₁ => ?_)
    fun _ _ he => he
  have hword := word_content h₁.1 (o := 0) (by omega)
  rw [Nat.add_zero] at hword
  rw [hword]
  generalize wordAt vram (inst + 0x200) = raw
  have hone : w₁.entries.length = 1 := by rw [h₁.2, hempty]
  have hthree : upperLevels.length = 3 := rfl
  have hseven : maxEntries = 7 := rfl
  refine .lift_bind (fun e he => checkInstance_error he) fun _ _ => ?_
  refine .seq (descend_spec (hroot raw) (by omega)) (fun r w₂ h₂ => ?_) fun _ _ he => he
  obtain ⟨hdescends, haligned, hroom⟩ := h₂
  cases r with
  | inl m => exact .pure ⟨descends_leaf hq hdescends, by omega⟩
  | inr pd0 =>
    refine (lowest_spec (haligned pd0 rfl) (by omega)).mono (fun m w₃ h₃ => ?_) fun _ _ he => he
    exact ⟨descends_low hq (hbig raw) hdescends h₃.1, by omega⟩

theorem follow_spec (hq : 0 < q.bytes) (hw : w.entries = []) : Spec (follow vram q reader block) w
    (fun r w' => Found q (gmmu vram block) r.2.span ∧ w'.entries.length ≤ maxEntries)
    fun e _ => Quiet e := by
  unfold follow
  split
  · rename_i hphysical
    refine .lift_bind (fun e he => checkSpan_error he) fun _ hspan => .pure ⟨?_, by rw [hw]; decide⟩
    obtain ⟨hpositive, hinside⟩ := checkSpan_ok hspan
    refine ⟨hpositive, Nat.le_refl _, hinside, fun d _ => ?_⟩
    unfold gmmu
    rw [if_pos hphysical]
  · rename_i hvirtual
    have haligned : (block &&& 0xfffffff).toNat <<< 12 % 4096 = 0 := by
      rw [Nat.shiftLeft_eq]
      omega
    refine .seq (virtual_spec hq haligned hw) (fun m w₁ h₁ => .pure ⟨?_, h₁.2⟩) fun _ _ he => he
    have hsame : gmmu vram block = translate vram
        (rootOf (wordAt vram ((block &&& 0xfffffff).toNat <<< 12 + 0x200)))
        (bigShiftOf (wordAt vram ((block &&& 0xfffffff).toNat <<< 12 + 0x200))) := by
      funext va
      unfold gmmu
      rw [if_neg hvirtual]
    rw [hsame]
    exact h₁.1

theorem recheck_spec (entries : List Entry) : Spec (recheck vram q reader entries) w
    (fun _ w' => w'.entries = w.entries) fun e _ => Quiet e := by
  induction entries generalizing w with
  | nil => exact .pure rfl
  | cons entry rest ih =>
    refine .seq access_spec (fun value w₁ h₁ => ?_) fun _ _ he => he
    refine .failIf_bind (fun _ => by decide) fun _ => ?_
    exact ih.mono (fun _ w₂ h₂ => h₂.trans h₁.2) fun _ _ he => he

/-- What a report promises about its request. -/
structure Resolved (vram : Nat → Byte) (q : Request) (report : Report) : Prop where
  reached : q.bar.base ≤ q.cpuPhysical
  found : Found q (gmmu vram report.control.block) report.mapped
  entries : report.entries.length ≤ maxEntries

theorem walk_spec (hbase : q.bar.base ≤ q.cpuPhysical) (hq : 0 < q.bytes) (hw : w.entries = []) :
    Spec (walk vram q reader) w (fun report _ => Resolved vram q report) fun e _ => Quiet e := by
  refine .seq controls_spec (fun control w₁ h₁ => ?_) fun _ _ he => he
  refine .failIf_bind (fun _ => by decide) fun _ => ?_
  refine .seq (follow_spec hq (h₁.trans hw)) (fun found w₂ h₂ => .get_bind ?_) fun _ _ he => he
  refine .seq (recheck_spec w₂.entries) (fun _ w₃ h₃ => ?_) fun _ _ he => he
  refine .seq controls_spec (fun again w₄ h₄ => ?_) fun _ _ he => he
  exact .failIf_bind (fun _ => by decide) fun _ => .pure ⟨hbase, h₂.1, h₂.2⟩

theorem Request.check_ok (h : q.check = .ok ()) : q.bar.base ≤ q.cpuPhysical ∧ 0 < q.bytes := by
  unfold Request.check at h
  split at h
  · cases h
  split at h
  · cases h
  split at h
  · cases h
  · omega

theorem Request.check_error {e : Fault} (h : q.check = .error e) : Quiet e := by
  unfold Request.check at h
  repeat' split at h
  all_goals
    cases h
    try decide

/-- A report is the translation of its span, and the list of entries is never full at a read. -/
theorem resolve_spec : Spec (resolve vram q reader) w (fun report _ => Resolved vram q report)
    fun e _ => Quiet e := by
  refine .lift_bind (fun e he => Request.check_error he) fun _ hcheck => .modify_bind ?_
  obtain ⟨hbase, hq⟩ := Request.check_ok hcheck
  exact walk_spec hbase hq rfl

end Bar1
end NvidiaGsp
