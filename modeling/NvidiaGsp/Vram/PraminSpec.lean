import NvidiaGsp.Vram.Pramin

/-!
# Vram.PraminSpec

What holds of a capture after any calls on it, whatever the port answers: which window values were
written and what had just been read there, and what the destination holds.
-/

namespace NvidiaGsp
namespace Pramin

open Call

variable {port : Port} {s s' s₁ s₂ s₃ : State} {c : Capture} {options : Options} {me deadline : Nat}
  {byStep : Bool} {events es : List Event} {original : Word} {phase : Phase}

/-! ## What is seen in the events -/

/-- An access that neither writes nor copies. -/
def Glance : Event → Prop
  | .read offset _ => offset < aperture
  | .write _ _ _ => False
  | .retain => True

/-- An access that does not copy. -/
def Outside : Event → Prop
  | .read offset _ => offset < aperture
  | .write _ _ _ => True
  | .retain => True

theorem Glance.outside {e : Event} (h : Glance e) : Outside e := by
  cases e with
  | read offset value => exact h
  | write byStep offset value => trivial
  | retain => trivial

/-- Each write is of the window, to show the range behind a reading of the original value, or to put
the original back behind a reading of the selected one. -/
def Lawful (original : Option Word) (selected : Word) : List Event → Prop
  | [] => True
  | .write byStep offset value :: before => (offset = windowRegister ∧
      ∃ o, original = some o ∧ o ≠ selected ∧
        ((byStep = true ∧ value = selected ∧ before.head? = some (.read windowRegister (some o))) ∨
          (value = o ∧ before.head? = some (.read windowRegister (some selected))))) ∧
      Lawful original selected before
  | .read _ _ :: before => Lawful original selected before
  | .retain :: before => Lawful original selected before

/-- How often `step` wrote a value to the window. -/
def stepWrites (value : Word) (events : List Event) : Nat :=
  events.countP fun e => decide (e = .write true windowRegister value)

/-- Accesses that write nothing. -/
def Reads (es : List Event) : Prop := ∀ byStep offset value, .write byStep offset value ∉ es

theorem Reads.of_glances (h : ∀ e ∈ es, Glance e) : Reads es := fun _ _ _ hmem => h _ hmem

theorem Lawful.reads {o : Option Word} {w : Word} (h : Lawful o w events) (hes : Reads es) :
    Lawful o w (es ++ events) := by
  induction es with
  | nil => exact h
  | cons e rest ih =>
    have hrest := ih fun b o v he => hes b o v (List.mem_cons_of_mem _ he)
    cases e with
    | read offset value => exact hrest
    | write byStep offset value => exact (hes _ _ _ List.mem_cons_self).elim
    | retain => exact hrest

theorem stepWrites_reads {w : Word} (hes : Reads es) :
    stepWrites w (es ++ events) = stepWrites w events := by
  unfold stepWrites
  rw [List.countP_append, List.countP_eq_zero.mpr, Nat.zero_add]
  intro e he heq
  rw [of_decide_eq_true heq] at he
  exact hes _ _ _ he

theorem stepWrites_write {w value : Word} {offset : Nat} :
    stepWrites w (.write byStep offset value :: events) =
      stepWrites w events + if byStep = true ∧ offset = windowRegister ∧ value = w then 1 else 0 := by
  unfold stepWrites
  rw [List.countP_cons]
  simp

/-- Before the original value is known nothing was written. -/
theorem Lawful.none {w w' : Word} {o : Option Word} (h : Lawful none w events) :
    Lawful o w' events ∧ ∀ v, stepWrites v events = 0 := by
  induction events with
  | nil => exact ⟨trivial, fun _ => rfl⟩
  | cons e rest ih =>
    cases e with
    | read offset value =>
      obtain ⟨hl, hc⟩ := ih h
      refine ⟨hl, fun v => ?_⟩
      rw [stepWrites, List.countP_cons_of_neg (by simp)]
      exact hc v
    | write byStep offset value =>
      obtain ⟨⟨-, o, ho, -⟩, -⟩ := h
      cases ho
    | retain =>
      obtain ⟨hl, hc⟩ := ih h
      refine ⟨hl, fun v => ?_⟩
      rw [stepWrites, List.countP_cons_of_neg (by simp)]
      exact hc v

/-! ## VRAM through the window -/

/-- The VRAM address a window value shows. -/
def windowBase (w : Word) : Nat := (w &&& 0xffffff).toNat * 2 ^ 16

/-- The aperture shows the VRAM of the window: between two readings of one window value with nothing
but aperture reads between them, these find the bytes there. -/
def Shows (vram : Nat → Byte) (events : List Event) : Prop :=
  ∀ after w mid before,
    events = after ++ .read windowRegister (some w) ::
      (mid ++ .read windowRegister (some w) :: before) →
    (∀ e ∈ mid, ∃ o v, e = .read (aperture + o) v) →
    ∀ o v, .read (aperture + o) (some v) ∈ mid →
      ∀ k, k < 4 → (Bytes.le32 v).getD k 0 = vram (windowBase w + o + k)

theorem Shows.suffix {vram : Nat → Byte} (h : Shows vram (es ++ events)) : Shows vram events := by
  intro after w mid before heq
  refine h (es ++ after) w mid before ?_
  rw [heq, List.append_assoc]

theorem Shows.tail {vram : Nat → Byte} {e : Event} (h : Shows vram (e :: events)) :
    Shows vram events := by
  rw [← List.singleton_append] at h
  exact h.suffix

/-- The selected window value shows the range. -/
theorem windowBase_choose {address : Nat} (ha : address % 2 ^ 16 = 0) (hlt : address < 2 ^ 40) :
    windowBase (choose original address) = address := by
  have hmask : choose original address &&& 0xffffff = BitVec.ofNat 32 (address / 2 ^ 16) &&& 0xffffff := by
    unfold choose windowMask
    rw [BitVec.and_or_distrib_right, BitVec.and_assoc,
      show ~~~ (0x03ffffff : Word) &&& 0xffffff = 0 by decide]
    simp
  unfold windowBase
  rw [hmask, BitVec.toNat_and, BitVec.toNat_ofNat]
  have hand : address / 2 ^ 16 % 2 ^ 32 &&& (0xffffff : Word).toNat = address / 2 ^ 16 % 2 ^ 32 % 2 ^ 24 :=
    Nat.and_two_pow_sub_one_eq_mod _ 24
  rw [hand]
  omega

/-! ## The invariant -/

def Phase.rank : Phase → Nat
  | .observe => 0
  | .retain => 1
  | .select => 2
  | .copy => 3
  | .restore => 4
  | .done => 5

/-- What holds also of a capture that has failed. -/
structure Held (options : Options) (s : State) : Prop where
  given : s.capture.options = options
  lawful : Lawful s.capture.original s.capture.selected s.events
  fresh : s.capture.phase = .observe → s.capture.original = none
  begun : s.capture.phase ≠ .observe → ∃ o, s.capture.original = some o ∧
    s.capture.selected = choose o options.range.address
  selects : ∀ o, s.capture.original = some o → o ≠ s.capture.selected →
    stepWrites s.capture.selected s.events ≤ 1
  returns : ∀ o, s.capture.original = some o → o ≠ s.capture.selected → stepWrites o s.events ≤ 1
  done : s.capture.phase = .done → ∃ o after before, s.capture.original = some o ∧
    s.events = after ++ .read windowRegister (some o) :: before ∧ ∀ e ∈ after, Outside e

/-- What holds while it has not failed, at a phase. -/
structure Going (options : Options) (phase : Phase) (s : State) : Prop where
  unselected : phase.rank ≤ 2 → ∀ o, s.capture.original = some o → o ≠ s.capture.selected →
    stepWrites s.capture.selected s.events = 0
  unreturned : phase ≠ .done → ∀ o, s.capture.original = some o → o ≠ s.capture.selected →
    stepWrites o s.events = 0
  words : s.capture.copied % 4 = 0
  within : s.capture.copied ≤ options.range.bytes
  early : phase.rank ≤ 2 → s.capture.copied = 0
  whole : 4 ≤ phase.rank → s.capture.copied = options.range.bytes
  data : ∀ vram, Shows vram s.events → ∀ i, i < s.capture.copied →
    s.output i = vram (options.range.address + i)

/-- Calls that only look: the capture keeps all but its clock. -/
structure Looked (s s' : State) : Prop where
  capture : ∃ now, s'.capture = { s.capture with previousClock := now }
  output : s'.output = s.output
  events : ∃ es, s'.events = es ++ s.events ∧ ∀ e ∈ es, Glance e

theorem Looked.refl (s : State) : Looked s s := ⟨⟨_, rfl⟩, rfl, [], rfl, fun _ he => nomatch he⟩

theorem Looked.trans (h : Looked s₁ s₂) (h' : Looked s₂ s₃) : Looked s₁ s₃ := by
  obtain ⟨⟨now, hc⟩, ho, es, he, hg⟩ := h
  obtain ⟨⟨now', hc'⟩, ho', es', he', hg'⟩ := h'
  refine ⟨⟨now', by rw [hc', hc]⟩, ho'.trans ho, es' ++ es, by rw [he', he, List.append_assoc], ?_⟩
  intro e hmem
  rcases List.mem_append.mp hmem with hmem | hmem
  · exact hg' e hmem
  · exact hg e hmem

theorem Held.looked (h : Held options s) (hl : Looked s s') : Held options s' := by
  obtain ⟨⟨now, hc⟩, ho, es, he, hg⟩ := hl
  cases s'
  dsimp only at hc ho he
  subst hc ho he
  refine ⟨h.given, h.lawful.reads (.of_glances hg), h.fresh, h.begun, fun o ho hne => ?_, fun o ho hne => ?_,
    fun hd => ?_⟩
  · exact (stepWrites_reads (.of_glances hg)).trans_le (h.selects o ho hne)
  · exact (stepWrites_reads (.of_glances hg)).trans_le (h.returns o ho hne)
  · obtain ⟨o, after, before, ho, heq, hout⟩ := h.done hd
    refine ⟨o, es ++ after, before, ho, by dsimp only; rw [heq, List.append_assoc], ?_⟩
    intro e hmem
    rcases List.mem_append.mp hmem with hmem | hmem
    · exact (hg e hmem).outside
    · exact hout e hmem

theorem Going.looked (h : Going options phase s) (hl : Looked s s') : Going options phase s' := by
  obtain ⟨⟨now, hc⟩, ho, es, he, hg⟩ := hl
  cases s'
  dsimp only at hc ho he
  subst hc ho he
  refine ⟨fun hr o ho hne => ?_, fun hr o ho hne => ?_, h.words, h.within, h.early, h.whole,
    fun vram hs => h.data vram hs.suffix⟩
  · exact (stepWrites_reads (.of_glances hg)).trans (h.unselected hr o ho hne)
  · exact (stepWrites_reads (.of_glances hg)).trans (h.unreturned hr o ho hne)

/-! ## Accesses -/

theorem guard_spec : Spec (guard port me deadline) s (fun _ s' => Looked s s')
    fun _ s' => Looked s s' := by
  refine .get_bind ?_
  refine .failIf_bind (fun _ => .refl s) fun _ => ?_
  refine .failIf_bind (fun _ => .refl s) fun _ => ?_
  refine .set_bind ?_
  have hl : Looked s { s with
      capture := { s.capture with previousClock := port.now s.tick }
      tick := s.tick + 1 } := ⟨⟨_, rfl⟩, rfl, [], rfl, fun _ he => nomatch he⟩
  exact .ends (fun _ => hl) fun _ => hl

theorem read_spec {offset : Nat} (ho : offset < aperture) : Spec (read32 port offset) s
    (fun value s' => Looked s s' ∧ s'.events = .read offset (some value) :: s.events)
    fun _ s' => Looked s s' := by
  have hl : Looked s { s with
      events := .read offset (port.read s.tick offset) :: s.events
      tick := s.tick + 1 } := by
    refine ⟨⟨_, rfl⟩, rfl, [.read offset (port.read s.tick offset)], rfl, fun e he => ?_⟩
    rw [List.mem_singleton.mp he]
    exact ho
  refine .get_bind ?_
  refine .set_bind ?_
  cases hv : port.read s.tick offset with
  | none =>
    rw [hv] at hl
    exact hl
  | some value =>
    rw [hv] at hl
    exact ⟨hl, rfl⟩

theorem identity_spec : Spec (identityMatches port) s (fun _ s' => Looked s s')
    fun _ s' => Looked s s' := by
  refine .get_bind ?_
  refine .seq (read_spec (by decide)) (fun _ s₁ h₁ => ?_) fun _ _ h => h
  refine .failIf_bind (fun _ => h₁.1) fun _ => ?_
  refine .seq (read_spec (by decide)) (fun _ s₂ h₂ => ?_) fun _ _ h => h₁.1.trans h
  refine .failIf_bind (fun _ => h₁.1.trans h₂.1) fun _ => ?_
  refine .seq (read_spec (by decide)) (fun _ s₃ h₃ => ?_) fun _ _ h => (h₁.1.trans h₂.1).trans h
  have hl := (h₁.1.trans h₂.1).trans h₃.1
  exact .ends (fun _ => hl) fun _ => hl

theorem window_spec : Spec (currentWindow port) s
    (fun value s' => Looked s s' ∧ s'.events = .read windowRegister (some value) :: s.events)
    fun _ s' => Looked s s' := by
  refine .seq (read_spec (by decide)) (fun value s₁ h₁ => ?_) fun _ _ h => h
  exact .failIf_bind (fun _ => h₁.1) fun _ => h₁

theorem retain_spec : Spec (retain port) s (fun _ s' => Looked s s') fun _ s' => Looked s s' := by
  refine .get_bind ?_
  refine .set_bind ?_
  have hl : Looked s { s with events := .retain :: s.events, tick := s.tick + 1 } := by
    refine ⟨⟨_, rfl⟩, rfl, [.retain], rfl, fun e he => ?_⟩
    rw [List.mem_singleton.mp he]
    trivial
  exact .ends (fun _ => hl) fun _ => hl

/-! ## The phases -/

/-- The capture moves on to a phase that is not the last one. -/
theorem Held.move {next : Phase} (h : Held options s) (hp : s.capture.phase ≠ .observe)
    (hn : next ≠ .observe) (hd : next ≠ .done) :
    Held options { s with capture := { s.capture with phase := next } } :=
  ⟨h.given, h.lawful, fun h => absurd h hn, fun _ => h.begun hp, h.selects, h.returns,
    fun h => absurd h hd⟩

theorem observe_spec (hh : Held options s) (hg : Going options .observe s)
    (hp : s.capture.phase = .observe) :
    Spec (observe port) s (fun _ s' => Held options s' ∧ Going options s'.capture.phase s')
      fun _ s' => Held options s' := by
  refine .seq identity_spec (fun _ s₁ h₁ => ?_) fun _ _ h => hh.looked h
  refine .seq window_spec (fun value s₂ h₂ => ?_) fun _ _ h => hh.looked (h₁.trans h)
  have hl₂ := h₁.trans h₂.1
  refine .seq window_spec (fun again s₃ h₃ => ?_) fun _ _ h => hh.looked (hl₂.trans h)
  have hl := hl₂.trans h₃.1
  refine .failIf_bind (fun _ => hh.looked hl) fun _ => ?_
  have hh₃ := hh.looked hl
  have hg₃ := hg.looked hl
  have hp₃ : s₃.capture.phase = .observe := by
    obtain ⟨⟨now, hc⟩, -⟩ := hl
    rw [hc]
    exact hp
  have hnone := hh₃.fresh hp₃
  have hlaw := hh₃.lawful
  rw [hnone] at hlaw
  obtain ⟨-, hzero⟩ := @Lawful.none _ _ 0 none hlaw
  refine ⟨⟨hh₃.given, hlaw.none.1, (fun h => nomatch h), fun _ => ⟨value, rfl, ?_⟩, fun o _ _ => ?_,
    fun o _ _ => ?_, (fun h => nomatch h)⟩, ⟨fun _ o _ _ => ?_, fun _ o _ _ => ?_, hg₃.words,
    hg₃.within, fun _ => hg₃.early (Nat.zero_le _), fun h => ?_, hg₃.data⟩⟩
  · show choose value s₃.capture.options.range.address = _
    rw [hh₃.given]
  · exact (hzero _).trans_le (Nat.zero_le _)
  · exact (hzero _).trans_le (Nat.zero_le _)
  · exact hzero _
  · exact hzero _
  · simp [Phase.rank] at h

theorem Going.move {next : Phase} (h : Going options phase s) (hs : next.rank ≤ 2 → phase.rank ≤ 2)
    (hd : phase ≠ .done) (hw : 4 ≤ next.rank → 4 ≤ phase.rank) : Going options next s :=
  ⟨fun hr => h.unselected (hs hr), fun _ => h.unreturned hd, h.words, h.within, fun hr => h.early (hs hr),
    fun hr => h.whole (hw hr), h.data⟩

theorem Going.update {f : Capture → Capture} (h : Going options phase s)
    (ho : (f s.capture).original = s.capture.original)
    (hs : (f s.capture).selected = s.capture.selected) (hc : (f s.capture).copied = s.capture.copied) :
    Going options phase { s with capture := f s.capture } := by
  refine ⟨?_, ?_, ?_, ?_, ?_, ?_, ?_⟩
  · dsimp only
    rw [ho, hs]
    exact h.unselected
  · dsimp only
    rw [ho, hs]
    exact h.unreturned
  · dsimp only
    rw [hc]
    exact h.words
  · dsimp only
    rw [hc]
    exact h.within
  · dsimp only
    rw [hc]
    exact h.early
  · dsimp only
    rw [hc]
    exact h.whole
  · dsimp only
    rw [hc]
    exact h.data

/-- The write that shows the range. -/
theorem selecting_spec (hh : Held options s) (hg : Going options .select s)
    (ho : s.capture.original = some original) (hp : s.capture.phase = .select)
    (hread : s.events.head? = some (.read windowRegister (some original))) :
    Spec (selecting port original) s
      (fun _ s' => Held options s' ∧ Going options .copy s' ∧ s'.capture.phase = .select)
      fun _ s' => Held options s' := by
  refine .get_bind ?_
  split
  · rename_i hne
    refine .modify_bind ?_
    refine .get_bind ?_
    refine .set_bind ?_
    have hwrites (v : Word) : stepWrites v (.write true windowRegister s.capture.selected :: s.events) =
        stepWrites v s.events + if s.capture.selected = v then 1 else 0 := by
      rw [stepWrites_write]
      simp
    have hzero := hg.unselected (Nat.le_refl _) original ho (Ne.symm hne)
    have hh' : Held options { s with
        capture := { s.capture with effectsPossible := true }
        events := .write true windowRegister s.capture.selected :: s.events
        tick := s.tick + 1 } := by
      refine ⟨hh.given, ?_, hh.fresh, hh.begun, fun o ho' hne' => ?_, fun o ho' hne' => ?_, ?_⟩
      · exact ⟨⟨rfl, original, ho, Ne.symm hne, .inl ⟨rfl, rfl, hread⟩⟩, hh.lawful⟩
      · have hone := hwrites s.capture.selected
        rw [if_pos rfl, hzero] at hone
        exact Nat.le_of_eq hone
      · dsimp only at ho' hne' ⊢
        rw [hwrites, if_neg hne'.symm]
        exact hh.returns o ho' hne'
      · intro hd
        rw [hp] at hd
        cases hd
    have hg' : Going options .copy { s with
        capture := { s.capture with effectsPossible := true }
        events := .write true windowRegister s.capture.selected :: s.events
        tick := s.tick + 1 } := by
      refine ⟨fun hr => absurd hr (by decide), fun _ o ho' hne' => ?_, hg.words, hg.within,
        fun hr => absurd hr (by decide), fun hr => absurd hr (by decide), fun vram hs => ?_⟩
      · dsimp only at ho' hne' ⊢
        rw [hwrites, if_neg (Ne.symm hne')]
        exact hg.unreturned (by decide) o ho' hne'
      · exact hg.data vram hs.tail
    exact .ends (fun _ => hh') fun _ => ⟨hh', hg', hp⟩
  · exact ⟨hh, hg.move (fun h => absurd h (by decide)) (by decide) (fun h => absurd h (by decide)), hp⟩

theorem select_spec (hh : Held options s) (hg : Going options .select s)
    (hp : s.capture.phase = .select) :
    Spec (select port) s (fun _ s' => Held options s' ∧ Going options s'.capture.phase s')
      fun _ s' => Held options s' := by
  refine .seq identity_spec (fun _ s₁ h₁ => ?_) fun _ _ h => hh.looked h
  refine .seq window_spec (fun value s₂ h₂ => ?_) fun _ _ h => hh.looked (h₁.trans h)
  have hl := h₁.trans h₂.1
  have hh₂ := hh.looked hl
  have hg₂ := hg.looked hl
  have hp₂ : s₂.capture.phase = .select := by
    obtain ⟨⟨now, hc⟩, -⟩ := hl
    rw [hc]
    exact hp
  refine .get_bind ?_
  refine .need_bind (fun _ => hh₂) fun original ho => ?_
  refine .failIf_bind (fun _ => hh₂) fun hvalue => ?_
  have hvalue : value = original := by simpa using hvalue
  have hread : s₂.events.head? = some (.read windowRegister (some original)) := by
    rw [h₂.2, hvalue]
    rfl
  refine .seq (selecting_spec hh₂ hg₂ ho hp₂ hread) (fun _ s₃ h₃ => ?_) fun _ _ h => h
  obtain ⟨hh₃, hg₃, hp₃⟩ := h₃
  refine .seq window_spec (fun again s₄ h₄ => ?_) fun _ _ h => hh₃.looked h
  have hh₄ := hh₃.looked h₄.1
  have hg₄ := hg₃.looked h₄.1
  have hp₄ : s₄.capture.phase = .select := by
    obtain ⟨⟨⟨now, hc⟩, -⟩, -⟩ := h₄
    rw [hc]
    exact hp₃
  refine .get_bind ?_
  refine .failIf_bind (fun _ => hh₄) fun _ => ?_
  refine ⟨hh₄.move (by rw [hp₄]; decide) (by decide) (by decide), ?_⟩
  exact hg₄.update (f := fun c => { c with phase := .copy }) rfl rfl rfl

/-! ## One block -/

/-- What the loop has done so far: the events it added, and the words it stored. -/
structure Copied (s s' : State) (mid : List Event) : Prop where
  capture : s'.capture = { s.capture with copied := s'.capture.copied }
  events : s'.events = mid ++ s.events
  aperture : ∀ e ∈ mid, ∃ o v, e = .read (Pramin.aperture + o) v
  low : s.capture.copied ≤ s'.capture.copied
  words : (s'.capture.copied - s.capture.copied) % 4 = 0
  kept : ∀ i, i < s.capture.copied → s'.output i = s.output i
  data : ∀ i, s.capture.copied ≤ i → i < s'.capture.copied → ∃ o v k,
    .read (Pramin.aperture + o) (some v) ∈ mid ∧ k < 4 ∧ o + k = i ∧
      s'.output i = (Bytes.le32 v).getD k 0

theorem Copied.refl (s : State) : Copied s s [] :=
  ⟨rfl, rfl, (fun _ he => nomatch he), Nat.le_refl _, by rw [Nat.sub_self], fun _ _ => rfl,
    fun i h h' => absurd h' (Nat.not_lt.mpr h)⟩

theorem Copied.trans {mid mid' : List Event} (h : Copied s₁ s₂ mid) (h' : Copied s₂ s₃ mid') :
    Copied s₁ s₃ (mid' ++ mid) where
  capture := by rw [h'.capture, h.capture]
  events := by rw [h'.events, h.events, List.append_assoc]
  aperture := fun e he => by
    rcases List.mem_append.mp he with he | he
    · exact h'.aperture e he
    · exact h.aperture e he
  low := Nat.le_trans h.low h'.low
  words := by
    have := h.low
    have := h'.low
    have := h.words
    have := h'.words
    omega
  kept := fun i hi => (h'.kept i (Nat.lt_of_lt_of_le hi h.low)).trans (h.kept i hi)
  data := fun i hi hi' => by
    by_cases hlt : i < s₂.capture.copied
    · obtain ⟨o, v, k, hmem, hk, ho, hout⟩ := h.data i hi hlt
      exact ⟨o, v, k, List.mem_append_right _ hmem, hk, ho, (h'.kept i hlt).trans hout⟩
    · obtain ⟨o, v, k, hmem, hk, ho, hout⟩ := h'.data i (Nat.le_of_not_lt hlt) hi'
      exact ⟨o, v, k, List.mem_append_left _ hmem, hk, ho, hout⟩

/-- A read of the aperture that fails. -/
theorem Copied.failed {o t : Nat} {v : Option Word} :
    Copied s { s with events := .read (Pramin.aperture + o) v :: s.events, tick := t }
      [.read (Pramin.aperture + o) v] :=
  ⟨rfl, rfl, fun e he => ⟨o, v, List.mem_singleton.mp he⟩, Nat.le_refl _, by simp, fun _ _ => rfl,
    fun i h h' => absurd h' (Nat.not_lt.mpr h)⟩

theorem copyWord_spec : Spec (copyWord port) s
    (fun _ s' => s'.capture.copied = s.capture.copied + 4 ∧ ∃ mid, Copied s s' mid)
    fun _ s' => ∃ mid, Copied s s' mid := by
  refine .get_bind ?_
  refine .bind ?_
  refine .get_bind ?_
  refine .set_bind ?_
  cases hv : port.read s.tick (aperture + s.capture.copied) with
  | none => exact ⟨_, .failed⟩
  | some value =>
    refine ⟨rfl, [.read (aperture + s.capture.copied) (some value)], rfl, rfl, fun e he => ?_,
      Nat.le_add_right _ _, by simp, fun i hi => ?_, fun i hi hi' => ?_⟩
    · exact ⟨_, _, List.mem_singleton.mp he⟩
    · exact Memory.poke_outside (.inl hi)
    · have hi' : i < s.capture.copied + 4 := hi'
      obtain ⟨k, rfl⟩ := Nat.exists_eq_add_of_le hi
      exact ⟨s.capture.copied, value, k, List.mem_singleton_self _, by omega, rfl,
        Memory.poke_inside (by simp; omega)⟩

/-- The loop ends at its limit, which is a number of words away that its turns suffice for. -/
theorem copyWords_spec {finish n : Nat} (hle : s.capture.copied ≤ finish)
    (hmod : (finish - s.capture.copied) % 4 = 0) (hn : finish - s.capture.copied ≤ 4 * n) :
    Spec (copyWords port finish n) s
      (fun _ s' => s'.capture.copied = finish ∧ ∃ mid, Copied s s' mid)
      fun _ s' => ∃ mid, Copied s s' mid := by
  induction n generalizing s with
  | zero => exact ⟨by omega, [], .refl s⟩
  | succ n ih =>
    refine .get_bind ?_
    split
    · exact ⟨‹_›, [], .refl s⟩
    · rename_i hne
      refine .seq copyWord_spec (fun _ s₁ h₁ => ?_) fun _ _ h => h
      obtain ⟨hfour, mid, h₁⟩ := h₁
      refine (ih (by omega) (by omega) (by omega)).mono (fun _ s₂ h₂ => ?_) fun _ s₂ h₂ => ?_
      · obtain ⟨hdone, mid', h₂⟩ := h₂
        exact ⟨hdone, _, h₁.trans h₂⟩
      · obtain ⟨mid', h₂⟩ := h₂
        exact ⟨_, h₁.trans h₂⟩

theorem Copied.reads {mid : List Event} (h : Copied s s' mid) : Reads mid := by
  intro b o v hmem
  obtain ⟨o', v', he⟩ := h.aperture _ hmem
  cases he

theorem Held.copied {mid : List Event} (h : Held options s) (hc : Copied s s' mid)
    (hp : s.capture.phase = .copy) : Held options s' := by
  have hreads := hc.reads
  obtain ⟨hcap, hev, -⟩ := hc
  cases s'
  dsimp only at hcap hev
  rw [hcap]
  subst hev
  refine ⟨h.given, h.lawful.reads hreads, h.fresh, h.begun, fun o ho hne => ?_, fun o ho hne => ?_,
    fun hd => ?_⟩
  · exact (stepWrites_reads hreads).trans_le (h.selects o ho hne)
  · exact (stepWrites_reads hreads).trans_le (h.returns o ho hne)
  · have hd : s.capture.phase = .done := hd
    rw [hp] at hd
    cases hd

/-- A block between two readings of the selected window holds the VRAM of the range. -/
theorem Going.copied {mid before : List Event} (h : Going options .copy s) (hh : Held options s)
    (hp : s.capture.phase = .copy) (hc : Copied s s₁ mid) (hl : Looked s₁ s₂)
    (haddr : options.range.address % 2 ^ 16 = 0) (hlt : options.range.address < 2 ^ 40)
    (hfirst : s.events = .read windowRegister (some s.capture.selected) :: before)
    (hlast : s₂.events = .read windowRegister (some s.capture.selected) :: s₁.events)
    (hle : s₁.capture.copied ≤ options.range.bytes)
    (hw : 4 ≤ phase.rank → s₁.capture.copied = options.range.bytes) (hr : 2 < phase.rank) :
    Going options phase s₂ := by
  have hreads := hc.reads
  obtain ⟨⟨now, hcap⟩, hout, -⟩ := hl
  have hsel : s₂.capture.selected = s.capture.selected := by rw [hcap, hc.capture]
  have hcopied : s₂.capture.copied = s₁.capture.copied := by rw [hcap]
  have horig : s₂.capture.original = s.capture.original := by rw [hcap, hc.capture]
  obtain ⟨o, ho, hchoose⟩ := hh.begun (by rw [hp]; decide)
  refine ⟨fun hrank => absurd hrank (by omega), fun _ o' ho' hne => ?_, ?_, ?_,
    fun hrank => absurd hrank (by omega), fun hrank => ?_, fun vram hs i hi => ?_⟩
  · rw [horig] at ho'
    rw [hsel] at hne
    rw [hlast, hc.events, ← List.cons_append, stepWrites_reads]
    · exact h.unreturned (by decide) o' ho' hne
    · intro b f v hmem
      rcases List.mem_cons.mp hmem with he | hmem
      · cases he
      · exact hreads b f v hmem
  · rw [hcopied]
    have := hc.words
    have := hc.low
    have := h.words
    omega
  · rw [hcopied]
    exact hle
  · rw [hcopied]
    exact hw hrank
  · rw [hcopied] at hi
    rw [hout]
    by_cases hold : i < s.capture.copied
    · rw [hc.kept i hold]
      refine h.data vram ?_ i hold
      rw [hlast, hc.events, ← List.cons_append] at hs
      exact hs.suffix
    · obtain ⟨f, v, k, hmem, hk, rfl, hval⟩ := hc.data i (Nat.le_of_not_lt hold) hi
      have hshow := hs [] s.capture.selected mid before (by rw [hlast, hc.events, hfirst]; rfl)
        hc.aperture f v hmem k hk
      rw [hval, hshow, hchoose, windowBase_choose haddr hlt, Nat.add_assoc]

theorem copy_spec (hh : Held options s) (hg : Going options .copy s) (hp : s.capture.phase = .copy)
    (haddr : options.range.address % 2 ^ 16 = 0) (hlt : options.range.address < 2 ^ 40)
    (hbytes : options.range.bytes % 4 = 0) :
    Spec (copy port) s (fun _ s' => Held options s' ∧ Going options s'.capture.phase s')
      fun _ s' => Held options s' := by
  refine .seq identity_spec (fun _ s₁ h₁ => ?_) fun _ _ h => hh.looked h
  refine .seq window_spec (fun value s₂ h₂ => ?_) fun _ _ h => hh.looked (h₁.trans h)
  have hl := h₁.trans h₂.1
  have hh₂ := hh.looked hl
  have hg₂ := hg.looked hl
  have hp₂ : s₂.capture.phase = .copy := by
    obtain ⟨⟨now, hc⟩, -⟩ := hl
    rw [hc]
    exact hp
  refine .get_bind ?_
  refine .failIf_bind (fun _ => hh₂) fun hvalue => ?_
  have hvalue : value = s₂.capture.selected := by simpa using hvalue
  have hgiven : s₂.capture.options = options := hh₂.given
  have hword := hg₂.words
  have hwithin := hg₂.within
  rw [hgiven]
  refine .seq (copyWords_spec (Nat.le_min.mpr ⟨Nat.le_add_right _ _, hwithin⟩) (by omega) (by omega))
    (fun _ s₃ h₃ => ?_) fun _ s₃ h₃ => hh₂.copied h₃.choose_spec hp₂
  obtain ⟨hdone, mid, hc⟩ := h₃
  have hh₃ := hh₂.copied hc hp₂
  have hp₃ : s₃.capture.phase = .copy := by
    rw [hc.capture]
    exact hp₂
  refine .seq window_spec (fun again s₄ h₄ => ?_) fun _ _ h => hh₃.looked h
  have hh₄ := hh₃.looked h₄.1
  refine .failIf_bind (fun _ => hh₄) fun hagain => ?_
  have hagain : again = s₂.capture.selected := by simpa using hagain
  have hp₄ : s₄.capture.phase = .copy := by
    obtain ⟨⟨⟨now, hcap⟩, -⟩, -⟩ := h₄
    rw [hcap]
    exact hp₃
  have hcopied₄ : s₄.capture.copied = s₃.capture.copied := by
    obtain ⟨⟨⟨now, hcap⟩, -⟩, -⟩ := h₄
    rw [hcap]
  have hgiven₄ : s₄.capture.options = options := hh₄.given
  have hgo (next : Phase) (hr : 2 < next.rank)
      (hw : 4 ≤ next.rank → s₃.capture.copied = options.range.bytes) : Going options next s₄ :=
    hg₂.copied hh₂ hp₂ hc h₄.1 haddr hlt (by rw [h₂.2, hvalue]) (by rw [h₄.2, hagain])
      (by rw [hdone]; exact Nat.min_le_right _ _) hw hr
  have hend (next : Phase) (hr : 2 < next.rank) (hn : next ≠ .observe ∧ next ≠ .done)
      (hw : 4 ≤ next.rank → s₃.capture.copied = options.range.bytes) :
      Held options { s₄ with capture := { s₄.capture with phase := next } } ∧
        Going options ({ s₄.capture with phase := next } : Capture).phase
          { s₄ with capture := { s₄.capture with phase := next } } :=
    ⟨hh₄.move (by rw [hp₄]; decide) hn.1 hn.2,
      (hgo next hr hw).update (f := fun c => { c with phase := next }) rfl rfl rfl⟩
  by_cases hall : s₄.capture.copied = s₄.capture.options.range.bytes
  · have hnext : (if s₄.capture.copied = s₄.capture.options.range.bytes then Phase.restore
        else s₄.capture.phase) = .restore := if_pos hall
    have h := hend .restore (by decide) (by decide) fun _ => by rw [← hcopied₄, hall, hgiven₄]
    rw [← hnext] at h
    exact h
  · have hnext : (if s₄.capture.copied = s₄.capture.options.range.bytes then Phase.restore
        else s₄.capture.phase) = .copy := (if_neg hall).trans hp₄
    have h := hend .copy (by decide) (by decide) fun h => absurd h (by decide)
    rw [← hnext] at h
    exact h

/-! ## The window is put back -/

/-- What a restore keeps; only the one `step` makes counts as a write of `step`. -/
structure Kept (byStep : Bool) (s s' : State) : Prop where
  capture : ∃ now r, s'.capture = { s.capture with previousClock := now, restored := r }
  output : s'.output = s.output
  events : ∃ es, s'.events = es ++ s.events ∧ ∀ e ∈ es, Outside e
  selects : ∀ o, s.capture.original = some o → o ≠ s.capture.selected →
    stepWrites s.capture.selected s'.events = stepWrites s.capture.selected s.events
  returns : byStep = false → ∀ o, stepWrites o s'.events = stepWrites o s.events

theorem Looked.kept (h : Looked s s') : Kept byStep s s' := by
  obtain ⟨⟨now, hc⟩, ho, es, he, hg⟩ := h
  exact ⟨⟨now, _, hc⟩, ho, ⟨es, he, fun e hmem => (hg e hmem).outside⟩,
    fun _ _ _ => by rw [he, stepWrites_reads (.of_glances hg)],
    fun _ _ => by rw [he, stepWrites_reads (.of_glances hg)]⟩

theorem Kept.trans (h : Kept byStep s₁ s₂) (h' : Kept byStep s₂ s₃) : Kept byStep s₁ s₃ := by
  obtain ⟨⟨now, r, hc⟩, ho, ⟨es, he, hg⟩, hs, hr⟩ := h
  obtain ⟨⟨now', r', hc'⟩, ho', ⟨es', he', hg'⟩, hs', hr'⟩ := h'
  refine ⟨⟨now', r', by rw [hc', hc]⟩, ho'.trans ho, ⟨es' ++ es, by rw [he', he, List.append_assoc], ?_⟩,
    fun o horig hne => ?_, fun hb o => (hr' hb o).trans (hr hb o)⟩
  · intro e hmem
    rcases List.mem_append.mp hmem with hmem | hmem
    · exact hg' e hmem
    · exact hg e hmem
  · have hsel : s₂.capture.selected = s₁.capture.selected := by rw [hc]
    have h₂ := hs' o (by rw [hc]; exact horig) (by rw [hsel]; exact hne)
    rw [hsel] at h₂
    exact h₂.trans (hs o horig hne)

/-- No `step` has put the window back so far. -/
def Unreturned (byStep : Bool) (s : State) : Prop :=
  byStep = true → ∀ o, s.capture.original = some o → o ≠ s.capture.selected → stepWrites o s.events = 0

theorem Unreturned.looked (h : Unreturned byStep s) (hl : Looked s s') : Unreturned byStep s' := by
  obtain ⟨⟨now, hc⟩, -, es, he, hg⟩ := hl
  intro hb o ho hne
  rw [hc] at ho hne
  rw [he, stepWrites_reads (.of_glances hg)]
  exact h hb o ho hne

theorem writeBack_spec {current : Word} (hh : Held options s) (hn : Unreturned byStep s)
    (ho : s.capture.original = some original)
    (hread : s.events.head? = some (.read windowRegister (some current))) :
    Spec (writeBack port byStep original current) s
      (fun _ s' => Held options s' ∧ Kept byStep s s') fun _ s' => Held options s' ∧ Kept byStep s s' := by
  refine .get_bind ?_
  split
  · rename_i hne
    refine .failIf_bind (fun _ => ⟨hh, (Looked.refl s).kept⟩) fun hc => ?_
    have hsel : current = s.capture.selected := by
      simp only [not_or, Decidable.not_not, ne_eq] at hc
      exact hc.2.2
    have hne : original ≠ s.capture.selected := hsel ▸ Ne.symm hne
    refine .get_bind ?_
    refine .set_bind ?_
    have hselects : stepWrites s.capture.selected
        (.write byStep windowRegister original :: s.events) = stepWrites s.capture.selected s.events := by
      rw [stepWrites_write, if_neg fun h => hne h.2.2]
      rfl
    have hh' : Held options { s with
        events := .write byStep windowRegister original :: s.events
        tick := s.tick + 1 } := by
      refine ⟨hh.given, ?_, hh.fresh, hh.begun, fun o ho' hne' => ?_, fun o ho' hne' => ?_, fun hd => ?_⟩
      · exact ⟨⟨rfl, original, ho, hne, .inr ⟨rfl, by rw [hread, hsel]⟩⟩, hh.lawful⟩
      · dsimp only
        rw [hselects]
        exact hh.selects o ho' hne'
      · obtain rfl : original = o := Option.some.inj (ho.symm.trans ho')
        dsimp only
        rw [stepWrites_write]
        have hone := hh.returns original ho hne
        cases hb : byStep with
        | false => simpa using hone
        | true =>
          have hzero := hn hb original ho hne
          simp [hzero]
      · obtain ⟨o, after, before, ho', heq, hout⟩ := hh.done hd
        refine ⟨o, .write byStep windowRegister original :: after, before, ho', by dsimp only; rw [heq]; rfl, ?_⟩
        intro e he
        rcases List.mem_cons.mp he with rfl | he
        · trivial
        · exact hout e he
    have hk : Kept byStep s { s with
        events := .write byStep windowRegister original :: s.events
        tick := s.tick + 1 } := by
      refine ⟨⟨_, _, rfl⟩, rfl, ⟨[_], rfl, fun e he => ?_⟩, fun _ _ _ => hselects, fun hb o => ?_⟩
      · rw [List.mem_singleton.mp he]
        trivial
      · dsimp only
        rw [stepWrites_write, if_neg fun h => ?_]
        · rfl
        · rw [hb] at h
          cases h.1
    exact .ends (fun _ => ⟨hh', hk⟩) fun _ => ⟨hh', hk⟩
  · exact ⟨hh, (Looked.refl s).kept⟩

/-- The window has been read back as the original value, and only other registers were read since. -/
def ReadBack (s : State) : Prop := ∀ o, s.capture.original = some o → ∃ after before,
  s.events = after ++ .read windowRegister (some o) :: before ∧ ∀ e ∈ after, Outside e

theorem ReadBack.looked (h : ReadBack s) (hl : Looked s s') : ReadBack s' := by
  obtain ⟨⟨now, hc⟩, -, es, he, hg⟩ := hl
  intro o ho
  rw [hc] at ho
  obtain ⟨after, before, heq, hout⟩ := h o ho
  refine ⟨es ++ after, before, by rw [he, heq, List.append_assoc], fun e hmem => ?_⟩
  rcases List.mem_append.mp hmem with hmem | hmem
  · exact (hg e hmem).outside
  · exact hout e hmem

theorem putBack_spec (hh : Held options s) (hn : Unreturned byStep s) :
    Spec (putBack port byStep) s (fun _ s' => Held options s' ∧ Kept byStep s s' ∧ ReadBack s')
      fun _ s' => Held options s' ∧ Kept byStep s s' := by
  refine .get_bind ?_
  cases ho : s.capture.original with
  | none =>
    dsimp only
    refine .ends (fun _ => ⟨hh, (Looked.refl s).kept⟩) fun _ => ⟨hh, (Looked.refl s).kept, fun o h => ?_⟩
    rw [ho] at h
    cases h
  | some original =>
    dsimp only
    refine .seq window_spec (fun current s₁ h₁ => ?_) fun _ _ h => ⟨hh.looked h, h.kept⟩
    have ho₁ : s₁.capture.original = some original := by
      obtain ⟨⟨⟨now, hc⟩, -⟩, -⟩ := h₁
      rw [hc]
      exact ho
    refine .seq (writeBack_spec (hh.looked h₁.1) (hn.looked h₁.1) ho₁ (by rw [h₁.2]; rfl))
      (fun _ s₂ h₂ => ?_) fun _ _ h => ⟨h.1, h₁.1.kept.trans h.2⟩
    have hk₂ := h₁.1.kept.trans h₂.2
    refine .seq window_spec (fun again s₃ h₃ => ?_) fun _ _ h => ⟨h₂.1.looked h, hk₂.trans h.kept⟩
    have hk₃ := hk₂.trans h₃.1.kept
    have hh₃ := h₂.1.looked h₃.1
    refine .ends (fun _ => ⟨hh₃, hk₃⟩) fun hagain => ⟨hh₃, hk₃, fun o h => ?_⟩
    have hagain : again = original := by simpa using hagain
    obtain ⟨⟨now, r, hc⟩, -⟩ := hk₃
    rw [hc] at h
    obtain rfl : original = o := Option.some.inj (ho.symm.trans h)
    exact ⟨[], s₂.events, by rw [h₃.2, hagain]; rfl, fun e he => nomatch he⟩

theorem restore_spec (hh : Held options s) (hn : Unreturned byStep s) :
    Spec (restore port byStep me deadline) s
      (fun _ s' => Held options s' ∧ Kept byStep s s' ∧ ReadBack s')
      fun _ s' => Held options s' ∧ Kept byStep s s' := by
  refine .seq guard_spec (fun _ s₁ h₁ => ?_) fun _ _ h => ⟨hh.looked h, h.kept⟩
  refine .seq identity_spec (fun _ s₂ h₂ => ?_) fun _ _ h => ⟨hh.looked (h₁.trans h), (h₁.trans h).kept⟩
  have hl := h₁.trans h₂
  refine .seq (putBack_spec (hh.looked hl) (hn.looked hl)) (fun _ s₃ h₃ => ?_)
    fun _ _ h => ⟨h.1, hl.kept.trans h.2⟩
  obtain ⟨hh₃, hk₃, hr₃⟩ := h₃
  have hk := hl.kept.trans hk₃
  refine .seq identity_spec (fun _ s₄ h₄ => ?_) fun _ _ h => ⟨hh₃.looked h, hk.trans h.kept⟩
  refine .seq guard_spec (fun _ s₅ h₅ => ?_)
    fun _ _ h => ⟨hh₃.looked (h₄.trans h), hk.trans (h₄.trans h).kept⟩
  have hh₅ := hh₃.looked (h₄.trans h₅)
  have hk₅ := hk.trans (h₄.trans h₅).kept
  have hr₅ := hr₃.looked (h₄.trans h₅)
  obtain ⟨⟨now, r, hc⟩, ho, he, hs, hr⟩ := hk₅
  refine ⟨⟨hh₅.given, hh₅.lawful, hh₅.fresh, hh₅.begun, hh₅.selects, hh₅.returns, hh₅.done⟩,
    ⟨⟨now, true, ?_⟩, ho, he, hs, hr⟩, hr₅⟩
  show { s₅.capture with restored := true } = _
  rw [hc]

theorem Going.kept (h : Going options phase s) (hk : Kept false s s') : Going options phase s' := by
  obtain ⟨⟨now, r, hc⟩, ho, ⟨es, he, -⟩, -, hr⟩ := hk
  have hcount := hr rfl
  refine ⟨fun hrank o horig hne => ?_, fun hd o horig hne => ?_, ?_, ?_, ?_, ?_, fun vram hs => ?_⟩
  · rw [hc] at horig hne ⊢
    rw [hcount]
    exact h.unselected hrank o horig hne
  · rw [hc] at horig hne
    rw [hcount]
    exact h.unreturned hd o horig hne
  · rw [hc]
    exact h.words
  · rw [hc]
    exact h.within
  · rw [hc]
    exact h.early
  · rw [hc]
    exact h.whole
  · rw [hc, ho]
    rw [he] at hs
    exact h.data vram hs.suffix

/-- The restore `step` makes ends the capture. -/
theorem Going.finish (h : Going options .restore s) (hk : Kept true s s') : Going options .done s' := by
  obtain ⟨⟨now, r, hc⟩, ho, ⟨es, he, -⟩, -⟩ := hk
  refine ⟨fun hrank => absurd hrank (by decide), fun hd => absurd rfl hd, ?_, ?_,
    fun hrank => absurd hrank (by decide), fun _ => ?_, fun vram hs => ?_⟩
  · rw [hc]
    exact h.words
  · rw [hc]
    exact h.within
  · rw [hc]
    exact h.whole (by decide)
  · rw [hc, ho]
    rw [he] at hs
    exact h.data vram hs.suffix

end Pramin
end NvidiaGsp
