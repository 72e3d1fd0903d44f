import NvidiaGsp.Display.Notifier

/-!
# Display.NotifierInv

What holds of one window's records and of the history of its points, and how each call of the
notifier and each write of the display keeps it.
-/

namespace NvidiaGsp
namespace Notifier

open Call

variable {n n' : Owner} {g : Nat → Option Point} {s : Point} {point deadline offset p o : Nat}

/-- One of the two records. -/
def Slot (offset : Nat) : Prop := offset = 0 ∨ offset = 16

/-- The point's record is free for another. -/
def Point.Over (s : Point) : Prop := s.finished = true ∨ s.retired = true

/-- The records and the history of a window's points agree. -/
structure Armed (n : Owner) (g : Nat → Option Point) : Prop where
  idle : n.opened = false → ∀ p, g p = none
  offset : Slot n.offset
  point : ∀ p s, g p = some s → 0 < p ∧ p ≤ n.point ∧ Slot s.offset
  last : ∀ p s, g p = some s → p ≤ n.windowPoints (s.offset / 16) ∧
    (p < n.windowPoints (s.offset / 16) → s.Over)
  issued : ∀ o, Slot o → n.windowPoints (o / 16) ≠ 0 →
    ∃ s, g (n.windowPoints (o / 16)) = some s ∧ s.offset = o
  unused : ∀ o s, Slot o → g (n.windowPoints (o / 16)) = some s → s.offset = o →
    n.windowUsed &&& Owner.bit o = 0 → s.retired = true
  finished : ∀ o, Slot o → n.status o = 2 →
    ∃ s, g (n.windowPoints (o / 16)) = some s ∧ s.offset = o ∧ s.finished = true
  image : ∀ p s, g p = some s → s.retired = true → s.image = false

/-- Histories that differ in nothing the invariant reads, but further along. -/
structure Further (g g' : Nat → Option Point) : Prop where
  back : ∀ p s', g' p = some s' → ∃ s, g p = some s ∧ s.offset = s'.offset ∧ s.image = s'.image ∧
    (s.finished = true → s'.finished = true) ∧ (s.retired = true → s'.retired = true)
  forth : ∀ p s, g p = some s → ∃ s', g' p = some s' ∧ s.offset = s'.offset ∧
    (s.finished = true → s'.finished = true) ∧ (s.retired = true → s'.retired = true)

theorem Further.refl (g : Nat → Option Point) : Further g g :=
  ⟨fun _ s h => ⟨s, h, rfl, rfl, id, id⟩, fun _ s h => ⟨s, h, rfl, id, id⟩⟩

theorem Further.update {s' : Point} (h : g p = some s) (ho : s.offset = s'.offset)
    (hi : s.image = s'.image) (hf : s.finished = true → s'.finished = true)
    (hr : s.retired = true → s'.retired = true) : Further g (Function.update g p (some s')) := by
  constructor
  · intro q t hq
    rw [Function.update_apply] at hq
    split at hq
    · rename_i hqp
      subst hqp
      cases hq
      exact ⟨s, h, ho, hi, hf, hr⟩
    · exact ⟨t, hq, rfl, rfl, id, id⟩
  · intro q t hq
    by_cases hqp : q = p
    · subst hqp
      obtain rfl := Option.some.inj (h.symm.trans hq)
      exact ⟨s', Function.update_self .., ho, hf, hr⟩
    · exact ⟨t, by rwa [Function.update_of_ne hqp], rfl, id, id⟩

theorem Slot.apart (ho : Slot o) (hp : Slot offset) (hne : o ≠ offset) : o / 16 ≠ offset / 16 := by
  rcases ho with rfl | rfl <;> rcases hp with rfl | rfl <;> simp_all

theorem Slot.bits (ho : Slot o) (hp : Slot offset) (hne : o ≠ offset) (u : BitVec 2) :
    (u ||| Owner.bit offset) &&& Owner.bit o = u &&& Owner.bit o ∧
      (u &&& ~~~ Owner.bit offset) &&& Owner.bit o = u &&& Owner.bit o := by
  rcases ho with rfl | rfl <;> rcases hp with rfl | rfl
  · exact absurd rfl hne
  · revert u
    decide
  · revert u
    decide
  · exact absurd rfl hne

theorem Slot.bit_set (ho : Slot o) (u : BitVec 2) : (u ||| Owner.bit o) &&& Owner.bit o ≠ 0 := by
  rcases ho with rfl | rfl
  · revert u
    decide
  · revert u
    decide

theorem Slot.status_clear (ho : Slot o) (hp : Slot offset) :
    (n.clear offset).status o = if o = offset then 0 else n.status o := by
  rcases ho with rfl | rfl <;> rcases hp with rfl | rfl <;> simp [Owner.status, Owner.clear]

theorem following_slot (h : Slot n.offset) : Slot n.following := by
  unfold Owner.following
  split
  · exact .inl rfl
  · rcases h with h | h
    · exact .inr (by rw [h]; rfl)
    · exact .inl (by rw [h]; rfl)

/-! ## The calls -/

theorem nextWindowOffset_ok {next : Nat} (h : nextWindowOffset n = .ok next n') :
    n.valid ∧ n' = n ∧ next = n.following ∧
      (n.windowUsed &&& Owner.bit next ≠ 0 → n.status next = 2) := by
  simp only [nextWindowOffset, bind_ok_iff, get_apply, failIf_ok_iff, pure_apply] at h
  obtain ⟨_, _, ⟨⟩, _, _, ⟨hv, rfl⟩, _, _, ⟨-, rfl⟩, _, _, ⟨-, rfl⟩, _, _, ⟨hbusy, rfl⟩, ⟨⟩⟩ := h
  rw [not_or, not_not] at hv
  refine ⟨hv.1, rfl, rfl, fun hu => ?_⟩
  by_contra hne
  exact hbusy ⟨hu, hne⟩

/-- What a successful arming checked, and the window after it. -/
theorem armWindow_ok {u : Unit} (h : armWindow point deadline offset n = .ok u n') :
    n.valid ∧ offset = n.following ∧ n.point < point ∧
      (n.windowUsed &&& Owner.bit offset ≠ 0 → n.status offset = 2) ∧
      n' = { n.clear offset with
        offset := offset
        point := point
        deadline := deadline
        result := none
        phase := .armed
        windowUsed := n.windowUsed ||| Owner.bit offset
        windowPoints := Function.update n.windowPoints (offset / 16) point } := by
  rw [armWindow, bind_ok_iff] at h
  obtain ⟨next, n₁, hnext, h⟩ := h
  obtain ⟨hv, rfl, hfollow, hused⟩ := nextWindowOffset_ok hnext
  simp only [reset, bind_ok_iff, get_apply, failIf_ok_iff, set_apply, modify_apply] at h
  obtain ⟨_, _, ⟨heq, rfl⟩, _, _, ⟨_, _, ⟨⟩, _, _, ⟨hpoint, rfl⟩, ⟨⟩⟩, ⟨⟩⟩ := h
  rw [ne_eq, not_not] at heq
  subst heq
  rw [not_or, not_or, not_le] at hpoint
  exact ⟨hv, hfollow, hpoint.2.1, hused, rfl⟩

/-- Arming a window keeps the agreement, with the new point in the history. -/
theorem Armed.arm (h : Armed n g) {u : Unit} {image : Bool}
    (hr : armWindow point deadline offset n = .ok u n') :
    Armed n' (Function.update g point (some { offset := offset, image := image })) := by
  obtain ⟨hv, hfollow, hlt, hused, rfl⟩ := armWindow_ok hr
  have hslot : Slot offset := hfollow ▸ following_slot h.offset
  have hnew {q : Nat} {t : Point} (hq : g q = some t) : q ≠ point := by
    have := (h.point q t hq).2.1
    omega
  -- the record's last point is over: FINISHED was read, or its use was retired
  have hover {q : Nat} {t : Point} (hq : g q = some t) (ho : t.offset = offset) : t.Over := by
    obtain ⟨hle, hold⟩ := h.last q t hq
    rcases Nat.lt_or_eq_of_le hle with hlt | heq
    · exact hold hlt
    · rw [ho] at heq
      rw [heq] at hq
      by_cases hu : n.windowUsed &&& Owner.bit offset = 0
      · exact .inr (h.unused offset t hslot hq ho hu)
      · obtain ⟨t', ht', -, hf⟩ := h.finished offset hslot (hused hu)
        obtain rfl := Option.some.inj (hq.symm.trans ht')
        exact .inl hf
  constructor
  · exact fun hni => absurd (hv.1.symm.trans hni) (by decide)
  · exact hslot
  · intro q t hq
    rw [Function.update_apply] at hq
    split at hq
    · rename_i hqp
      cases hq
      exact ⟨by omega, by dsimp only; omega, hslot⟩
    · obtain ⟨h₁, h₂, h₃⟩ := h.point q t hq
      exact ⟨h₁, by dsimp only; omega, h₃⟩
  · intro q t hq
    rw [Function.update_apply] at hq
    split at hq
    · rename_i hqp
      cases hq
      dsimp only
      rw [Function.update_self]
      exact ⟨by omega, fun h => by omega⟩
    · have hpt := h.point q t hq
      dsimp only
      by_cases ho : t.offset = offset
      · rw [ho, Function.update_self]
        exact ⟨by omega, fun _ => hover hq ho⟩
      · rw [Function.update_of_ne (hpt.2.2.apart hslot ho)]
        exact h.last q t hq
  · intro o ho hne
    dsimp only at hne ⊢
    by_cases heq : o = offset
    · subst heq
      simp only [Function.update_self]
      exact ⟨_, rfl, rfl⟩
    · rw [Function.update_of_ne (ho.apart hslot heq)] at hne ⊢
      obtain ⟨t, ht, hto⟩ := h.issued o ho hne
      exact ⟨t, by rwa [Function.update_of_ne (hnew ht)], hto⟩
  · intro o t ho ht hto hu
    dsimp only at ht hu
    by_cases heq : o = offset
    · subst heq
      exact absurd hu (hslot.bit_set _)
    · rw [Function.update_of_ne (ho.apart hslot heq), Function.update_apply] at ht
      rw [(ho.bits hslot heq _).1] at hu
      split at ht
      · cases ht
        exact absurd hto.symm heq
      · exact h.unused o t ho ht hto hu
  · intro o ho hst
    have hst : (n.clear offset).status o = 2 := hst
    rw [ho.status_clear hslot] at hst
    split at hst
    · cases hst
    · rename_i heq
      obtain ⟨t, ht, hto, hf⟩ := h.finished o ho hst
      dsimp only
      rw [Function.update_of_ne (ho.apart hslot heq), Function.update_of_ne (hnew ht)]
      exact ⟨t, ht, hto, hf⟩
  · intro q t hq hret
    rw [Function.update_apply] at hq
    split at hq
    · cases hq
      cases hret
    · exact h.image q t hq hret

/-- A step that writes no record and arms nothing keeps the agreement. -/
theorem Armed.keep {g' : Nat → Option Point} (h : Armed n g) (hg : Further g g')
    (hopen : n'.opened = n.opened) (hoff : n'.offset = n.offset) (hpoint : n'.point = n.point)
    (hpoints : n'.windowPoints = n.windowPoints) (hwords : n'.words = n.words)
    (hused : ∀ o s, Slot o → g' (n.windowPoints (o / 16)) = some s → s.offset = o →
      n'.windowUsed &&& Owner.bit o = 0 → s.retired = true)
    (himage : ∀ p s, g' p = some s → s.retired = true → s.image = false) : Armed n' g' := by
  constructor
  · intro hni p
    have hnone := h.idle (hopen ▸ hni) p
    cases hp : g' p with
    | none => rfl
    | some s =>
      obtain ⟨t, ht, -⟩ := hg.back p s hp
      rw [hnone] at ht
      cases ht
  · rw [hoff]
    exact h.offset
  · intro p s hp
    obtain ⟨t, ht, ho, -⟩ := hg.back p s hp
    rw [hpoint, ← ho]
    exact h.point p t ht
  · intro p s hp
    obtain ⟨t, ht, ho, -, hf, hr⟩ := hg.back p s hp
    rw [hpoints, ← ho]
    obtain ⟨hle, hover⟩ := h.last p t ht
    exact ⟨hle, fun hlt => (hover hlt).imp hf hr⟩
  · intro o ho hne
    rw [hpoints] at hne ⊢
    obtain ⟨t, ht, hto⟩ := h.issued o ho hne
    obtain ⟨s, hs, hso, -⟩ := hg.forth _ t ht
    exact ⟨s, hs, hso ▸ hto⟩
  · intro o s ho hs
    rw [hpoints] at hs
    exact hused o s ho hs
  · intro o ho hst
    have hst : n.status o = 2 := by rwa [Owner.status, hwords] at hst
    obtain ⟨t, ht, hto, hf⟩ := h.finished o ho hst
    obtain ⟨s, hs, hso, hfs, -⟩ := hg.forth _ t ht
    rw [hpoints]
    exact ⟨s, hs, hso ▸ hto, hfs hf⟩
  · exact himage

/-- Where no record bit changed hands, an unused record's point is retired as before. -/
theorem Armed.unused_of {g' : Nat → Option Point} (h : Armed n g) (hg : Further g g') (o : Nat)
    (s : Point) (ho : Slot o) (hs : g' (n.windowPoints (o / 16)) = some s) (hso : s.offset = o)
    (hu : n.windowUsed &&& Owner.bit o = 0) : s.retired = true := by
  obtain ⟨t, ht, hto, -, -, hr⟩ := hg.back _ s hs
  exact hr (h.unused o t ho ht (hto.trans hso) hu)

theorem Armed.image_of {g' : Nat → Option Point} (h : Armed n g) (hg : Further g g')
    (hsame : ∀ p s, g p = some s → ∀ s', g' p = some s' → s'.retired = s.retired) (p : Nat)
    (s : Point) (hs : g' p = some s) (hr : s.retired = true) : s.image = false := by
  obtain ⟨t, ht, -, hi, -⟩ := hg.back p s hs
  rw [← hi]
  exact h.image p t ht (hsame p t ht s hs ▸ hr)

theorem submitted_ok {u : Unit} (h : submitted point deadline n = .ok u n') :
    n' = { n with phase := .submitted } := by
  simp only [submitted, bind_ok_iff, get_apply, failIf_ok_iff, set_apply] at h
  obtain ⟨_, _, ⟨⟩, _, _, ⟨-, rfl⟩, ⟨⟩⟩ := h
  rfl

/-- A call that leaves the records, the points and the used bits alone. -/
structure Aside (n n' : Owner) : Prop where
  opened : n'.opened = n.opened
  offset : n'.offset = n.offset
  point : n'.point = n.point
  windowPoints : n'.windowPoints = n.windowPoints
  words : n'.words = n.words
  windowUsed : n'.windowUsed = n.windowUsed

theorem Armed.aside {g' : Nat → Option Point} (h : Armed n g) (ha : Aside n n') (hg : Further g g')
    (hsame : ∀ p s, g p = some s → ∀ s', g' p = some s' → s'.retired = s.retired) : Armed n' g' :=
  h.keep hg ha.opened ha.offset ha.point ha.windowPoints ha.words
    (fun o s ho hs hso hu => h.unused_of hg o s ho hs hso (ha.windowUsed ▸ hu)) (h.image_of hg hsame)

theorem poll_ok {detached : Bool} {second : Word} {r : Option Result}
    (h : pollWindowRecord detached second n = .ok r n') : Aside n n' := by
  simp only [pollWindowRecord, bind_ok_iff, get_apply, failIf_ok_iff] at h
  obtain ⟨_, _, ⟨⟩, _, _, ⟨-, rfl⟩, h⟩ := h
  split at h
  · cases h
    exact ⟨rfl, rfl, rfl, rfl, rfl, rfl⟩
  · simp only [bind_ok_iff, failIf_ok_iff] at h
    obtain ⟨_, _, ⟨-, rfl⟩, h⟩ := h
    unfold settle at h
    split at h
    · cases h
      exact ⟨rfl, rfl, rfl, rfl, rfl, rfl⟩
    · cases h
      exact ⟨rfl, rfl, rfl, rfl, rfl, rfl⟩

theorem retire_ok {u : Unit} (h : retireWindowNoImage point deadline n = .ok u n') :
    n.windowPoints (n.offset / 16) = point ∧
      n' = { n with windowUsed := n.windowUsed &&& ~~~ Owner.bit n.offset, phase := .complete } := by
  simp only [retireWindowNoImage, bind_ok_iff, get_apply, failIf_ok_iff, set_apply] at h
  obtain ⟨_, _, ⟨⟩, _, _, ⟨hcheck, rfl⟩, _, _, ⟨-, rfl⟩, _, _, ⟨-, rfl⟩, ⟨⟩⟩ := h
  simp only [not_or, ne_eq, not_not] at hcheck
  exact ⟨hcheck.2.2.2.2.2, rfl⟩

theorem Armed.retire (h : Armed n g) (hs : g point = some s) (hi : s.image = false) {u : Unit}
    (hr : retireWindowNoImage point deadline n = .ok u n') :
    Armed n' (Function.update g point (some { s with retired := true })) := by
  obtain ⟨hissued, rfl⟩ := retire_ok hr
  have hg : Further g (Function.update g point (some { s with retired := true })) :=
    Further.update hs rfl rfl id fun _ => rfl
  have hoff : s.offset = n.offset := by
    have hpos := (h.point point s hs).1
    obtain ⟨t, ht, hto⟩ := h.issued n.offset h.offset (by omega)
    rw [hissued, hs] at ht
    obtain rfl := Option.some.inj ht
    exact hto
  refine h.keep hg rfl rfl rfl rfl rfl (fun o t ho ht hto hu => ?_) fun p t ht hret => ?_
  · by_cases heq : o = n.offset
    · subst heq
      rw [hissued, Function.update_self] at ht
      cases ht
      rfl
    · rw [(ho.bits h.offset heq _).2] at hu
      exact h.unused_of hg o t ho ht hto hu
  · rw [Function.update_apply] at ht
    split at ht
    · cases ht
      exact hi
    · exact h.image p t ht hret

theorem openOwner_ok {channel : Nat} {u : Unit} (h : openOwner channel n = .ok u n') :
    n.opened = false ∧ n' = { opened := true, channel := channel } := by
  simp only [openOwner, bind_ok_iff, get_apply, failIf_ok_iff, set_apply] at h
  obtain ⟨_, _, ⟨⟩, _, _, ⟨hopen, rfl⟩, ⟨⟩⟩ := h
  exact ⟨by simpa using hopen, rfl⟩

/-- No point was ever armed, and the records are zero. -/
theorem Armed.fresh (hn : ∀ p, g p = none) (hoff : n.offset = 0) (hwords : n.words = fun _ => 0)
    (hpoints : n.windowPoints = fun _ => 0) : Armed n g := by
  constructor
  · exact fun _ => hn
  · exact .inl hoff
  · intro p s hp
    rw [hn] at hp
    cases hp
  · intro p s hp
    rw [hn] at hp
    cases hp
  · intro o _ hne
    rw [hpoints] at hne
    exact absurd rfl hne
  · intro o s _ hp
    rw [hn] at hp
    cases hp
  · intro o _ hst
    rw [Owner.status, hwords] at hst
    have hst : (0 : Word) >>> 30 = 2 := hst
    exact absurd hst (by decide)
  · intro p s hp
    rw [hn] at hp
    cases hp

theorem Armed.open (h : Armed n g) {channel : Nat} {u : Unit} (hr : openOwner channel n = .ok u n') :
    Armed n' g := by
  obtain ⟨hopen, rfl⟩ := openOwner_ok hr
  exact Armed.fresh (h.idle hopen) rfl rfl rfl

/-! ## The display -/

theorem statusWord {status : Word} (hst : status.toNat < 4) (time : BitVec 30) :
    ((status <<< 30) ||| time.setWidth 32) >>> 30 = status := by
  apply BitVec.eq_of_toNat_eq
  have ht := time.isLt
  have h₁ : (status <<< 30).toNat = status.toNat <<< 30 := by
    rw [BitVec.toNat_shiftLeft, Nat.shiftLeft_eq]
    omega
  have h₂ : (time.setWidth 32).toNat = time.toNat := by
    rw [BitVec.toNat_setWidth]
    omega
  rw [BitVec.toNat_ushiftRight, BitVec.toNat_or, h₁, h₂, ← Nat.shiftLeft_add_eq_or_of_lt ht,
    Nat.shiftLeft_eq, Nat.shiftRight_eq_div_pow]
  omega

theorem status_record {status : Word} {time : BitVec 30} {rest : Nat → Word} (ho : Slot o)
    (hp : Slot offset) (hst : status = 1 ∨ status = 2) :
    World.record status time offset rest n.words (o / 4) >>> 30 =
      if o = offset then status else n.status o := by
  have hword : ((status <<< 30) ||| time.setWidth 32) >>> 30 = status :=
    statusWord (by rcases hst with rfl | rfl <;> decide) time
  rcases ho with rfl | rfl <;> rcases hp with rfl | rfl <;>
    simp [World.record, Owner.status, hword]

/-- The display's write for a point that is neither finished nor retired goes to the record that is
still the point's own. -/
theorem Armed.write (h : Armed n g) (hs : g point = some s) (hlive : ¬ s.Over) {status : Word}
    {time : BitVec 30} {rest : Nat → Word} (hst : status = 1 ∨ status = 2) :
    Armed { n with words := World.record status time s.offset rest n.words }
      (Function.update g point
        (some { s with begun := true, finished := s.finished || status = 2 })) := by
  obtain ⟨hpos, hle, hslot⟩ := h.point point s hs
  have hown : n.windowPoints (s.offset / 16) = point := by
    obtain ⟨h₁, h₂⟩ := h.last point s hs
    rcases Nat.lt_or_eq_of_le h₁ with hlt | heq
    · exact absurd (h₂ hlt) hlive
    · exact heq.symm
  have hg : Further g (Function.update g point
      (some { s with begun := true, finished := s.finished || status = 2 })) :=
    Further.update hs rfl rfl (fun hf => by simp [hf]) id
  have hret : ∀ p t, g p = some t → ∀ t', Function.update g point
      (some { s with begun := true, finished := s.finished || status = 2 }) p = some t' →
      t'.retired = t.retired := by
    intro p t ht t' ht'
    rw [Function.update_apply] at ht'
    split at ht'
    · rename_i hpp
      subst hpp
      cases ht'
      rw [hs] at ht
      cases ht
      rfl
    · rw [ht] at ht'
      cases ht'
      rfl
  have hmid : Armed n (Function.update g point
      (some { s with begun := true, finished := s.finished || status = 2 })) :=
    h.aside ⟨rfl, rfl, rfl, rfl, rfl, rfl⟩ hg hret
  refine ⟨hmid.idle, hmid.offset, hmid.point, hmid.last, hmid.issued, hmid.unused, ?_, hmid.image⟩
  intro o ho h2
  have h2 : World.record status time s.offset rest n.words (o / 4) >>> 30 = 2 := h2
  rw [status_record ho hslot hst] at h2
  by_cases heq : o = s.offset
  · subst heq
    rw [if_pos rfl] at h2
    dsimp only
    rw [hown, Function.update_self]
    exact ⟨_, rfl, rfl, by simp [h2]⟩
  · rw [if_neg heq] at h2
    exact hmid.finished o ho h2

end Notifier
end NvidiaGsp
