import NvidiaGsp.Irq.GateSpec

/-!
# Irq.GateRuns

Any number of invocations of the handler, of setups and of retries of the retirement, in any order of
their steps. The invariant gives each running program a mode that fits the gate: only a section has
it at 2 or 3, and the retirement has it at 0 from the moment it touches the device.
-/

namespace NvidiaGsp
namespace Irq

open Prog (Follows)

abbrev Endpoint := Pool Shared Local Kind Act Res Outcome

/-! ## One action -/

variable {l : Local} {s : Shared} {answer : Nat}

/-- An action that leaves the gate, the retirement and the thread where they are. -/
structure Still (l : Local) (s : Shared) (l' : Local) (s' : Shared) : Prop where
  here : l' = l
  gate : s'.gate = s.gate
  closed : s'.closed = s.closed
  closing : s'.closing = s.closing
  fault : s.fault ≠ 0 → s'.fault ≠ 0

@[simp] theorem written_gate (offset : Nat) (value : Word) :
    (s.written offset value).gate = s.gate := by
  unfold Shared.written
  split_ifs <;> rfl

@[simp] theorem written_closed (offset : Nat) (value : Word) :
    (s.written offset value).closed = s.closed := by
  unfold Shared.written
  split_ifs <;> rfl

@[simp] theorem written_closing (offset : Nat) (value : Word) :
    (s.written offset value).closing = s.closing := by
  unfold Shared.written
  split_ifs <;> rfl

@[simp] theorem written_fault (offset : Nat) (value : Word) :
    (s.written offset value).fault = s.fault := by
  unfold Shared.written
  split_ifs <;> rfl

theorem execute_still {a : Act} (ha : a.Plain ∨ a.Looks ∨ a.Kernel ∨ a = .loadGate ∨
    (∃ value, a = .write reg.rearm value)) :
    Still l s (execute a answer l s).2.1 (execute a answer l s).2.2 := by
  cases a with
  | casFault fault =>
    by_cases hfault : s.fault = 0
    · exact ⟨rfl, by simp [execute, hfault], by simp [execute, hfault], by simp [execute, hfault],
        fun h => absurd hfault h⟩
    · exact ⟨rfl, by simp [execute, hfault], by simp [execute, hfault], by simp [execute, hfault],
        fun _ => by simp [execute, hfault]⟩
  | write offset value =>
    exact ⟨rfl, written_gate _ _, written_closed _ _, written_closing _ _, fun h => by
      simpa [execute] using h⟩
  | casGate expected desired => simp [Act.Plain, Act.Looks, Act.Kernel] at ha
  | storeGate value => simp [Act.Plain, Act.Looks, Act.Kernel] at ha
  | setClosed => simp [Act.Plain, Act.Looks, Act.Kernel] at ha
  | _ => exact ⟨rfl, rfl, rfl, rfl, id⟩

theorem execute_taken {expected desired : Nat}
    (h : (execute (.casGate expected desired) answer l s).1 = (none : Option Nat)) :
    s.gate = expected ∧ (execute (.casGate expected desired) answer l s).2 =
      (l.swapped s expected desired, { s with gate := desired }) := by
  by_cases hgate : s.gate = expected
  · simp [execute, hgate]
  · simp only [execute, if_neg hgate] at h
    cases h

theorem execute_refused {expected desired gate : Nat}
    (h : (execute (.casGate expected desired) answer l s).1 = (some gate : Option Nat)) :
    s.gate ≠ expected ∧ (execute (.casGate expected desired) answer l s).2 = (l, s) := by
  by_cases hgate : s.gate = expected
  · simp only [execute, if_pos hgate] at h
    cases h
  · simp [execute, hgate]

/-! ## Modes and the gate -/

def Mode.Fits (kind : Kind) (l : Local) (s : Shared) : Mode → Prop
  | .outside => l.inside = false ∧ kind ≠ .close
  | .inside clear => l.inside = true ∧ kind ≠ .close ∧ (s.gate = 2 ∨ s.gate = 3) ∧
      (clear = true → l.faulted = false) ∧ (l.faulted = true → s.fault ≠ 0)
  | .unsure => l.inside = false ∧ kind = .close
  | .seeking => l.inside = false ∧ kind = .close ∧ s.closed = false
  | .retired => l.inside = false ∧ kind = .close ∧ s.closed = false ∧ s.gate = 0
  | .done => l.inside = false ∧ kind = .close ∧ s.closed = true

/-- What an action of a thread changes. -/
inductive Shift (kind : Kind) (l : Local) (s : Shared) (l' : Local) (s' : Shared) : Prop where
  | same : l'.inside = l.inside → s'.gate = s.gate → s'.closed = s.closed → Shift kind l s l' s'
  | enter : s.gate = 1 → s'.gate = 2 → l'.inside = true → kind ≠ .close → s'.closed = s.closed →
      Shift kind l s l' s'
  | leave : s.gate = 2 → s'.gate = 1 → l.inside = true → l'.inside = false →
      s'.closed = s.closed → Shift kind l s l' s'
  | disable : s'.gate = 0 → l.inside = true → l'.inside = false → s'.closed = s.closed →
      Shift kind l s l' s'
  | retire : s.gate = 1 → s'.gate = 0 → l'.inside = l.inside → s'.closed = s.closed →
      Shift kind l s l' s'
  | ask : s.gate = 2 → s'.gate = 3 → l'.inside = l.inside → s'.closed = s.closed →
      Shift kind l s l' s'
  | close : kind = .close → s.gate = 0 → s'.gate = 0 → s'.closed = true → l'.inside = l.inside →
      Shift kind l s l' s'

def Shared.Off (s : Shared) : Prop := s.gate = 0 ∨ s.gate = 3

variable {kind : Kind} {l' : Local} {s' : Shared}

theorem Still.shift (h : Still l s l' s') : Shift kind l s l' s' :=
  .same (by rw [h.here]) h.gate h.closed

theorem Still.fits {m : Mode} (h : Still l s l' s') (hm : m.Fits kind l s) :
    m.Fits kind l' s' := by
  obtain ⟨rfl, hgate, hclosed, -, hfault⟩ := h
  cases m with
  | outside => exact hm
  | inside clear =>
    obtain ⟨hin, hkind, hg, hclear, hf⟩ := hm
    exact ⟨hin, hkind, hgate ▸ hg, hclear, fun h => hfault (hf h)⟩
  | unsure => exact hm
  | seeking => exact ⟨hm.1, hm.2.1, hclosed ▸ hm.2.2⟩
  | retired => exact ⟨hm.1, hm.2.1, hclosed ▸ hm.2.2.1, hgate ▸ hm.2.2.2⟩
  | done => exact ⟨hm.1, hm.2.1, hclosed ▸ hm.2.2⟩

theorem Shift.off (h : Shift kind l s l' s') (hs : s.Off) : s'.Off := by
  unfold Shared.Off at *
  cases h <;> omega

theorem Shift.gate (h : Shift kind l s l' s') (hs : s.gate ≤ 3) : s'.gate ≤ 3 := by
  cases h <;> omega

theorem Shift.closed (h : Shift kind l s l' s') (hs : s.closed = true) : s'.closed = true := by
  cases h with
  | close _ _ _ hclosed _ => exact hclosed
  | same _ _ hclosed => rw [hclosed]; exact hs
  | enter _ _ _ _ hclosed => rw [hclosed]; exact hs
  | leave _ _ _ _ hclosed => rw [hclosed]; exact hs
  | disable _ _ _ hclosed => rw [hclosed]; exact hs
  | retire _ _ _ hclosed => rw [hclosed]; exact hs
  | ask _ _ _ hclosed => rw [hclosed]; exact hs

/-- Once closed, the gate is 0 and stays so. -/
theorem Shift.closedOff (h : Shift kind l s l' s') (hs : s.closed = true → s.gate = 0)
    (hclosed : s'.closed = true) : s'.gate = 0 := by
  cases h with
  | close _ _ hgate _ _ => exact hgate
  | disable hgate _ _ _ => exact hgate
  | retire _ hgate _ _ => exact hgate
  | same _ hgate heq => rw [hgate]; exact hs (heq ▸ hclosed)
  | enter hgate _ _ _ heq =>
    have := hs (heq ▸ hclosed)
    omega
  | leave hgate _ _ _ heq =>
    have := hs (heq ▸ hclosed)
    omega
  | ask hgate _ _ heq =>
    have := hs (heq ▸ hclosed)
    omega

/-- One action of a thread that keeps to the automaton. -/
structure Acted (kind : Kind) (m : Mode) (l : Local) (s : Shared) (l' : Local) (s' : Shared) :
    Prop where
  fits : m.Fits kind l' s'
  shift : Shift kind l s l' s'
  fault : s.fault ≠ 0 → s'.fault ≠ 0
  closing : s'.closing = s.closing

theorem Still.acted {m : Mode} (h : Still l s l' s') (hm : m.Fits kind l s) :
    Acted kind m l s l' s' :=
  ⟨h.fits hm, h.shift, h.fault, h.closing⟩

theorem goes_acted {m m' : Mode} {a : Act} {r : Res a} (hg : Goes m a r m')
    (hr : (execute a answer l s).1 = r) (hm : m.Fits kind l s) (hgate : s.gate ≤ 3) :
    Acted kind m' l s (execute a answer l s).2.1 (execute a answer l s).2.2 := by
  cases hg with
  | look ha => exact (execute_still (.inr (.inl ha))).acted hm
  | plain ha => exact (execute_still (.inl ha)).acted hm
  | calm ha => exact (execute_still (.inl ha)).acted hm
  | kernel ha => exact (execute_still (.inr (.inr (.inl ha)))).acted hm
  | gate => exact (execute_still (.inr (.inr (.inr (.inl rfl))))).acted hm
  | fault => exact (execute_still (a := .loadFault) (.inr (.inl trivial))).acted hm
  | rearm value => exact (execute_still (.inr (.inr (.inr (.inr ⟨value, rfl⟩))))).acted hm
  | seen => exact (execute_still (.inr (.inr (.inr (.inl rfl))))).acted hm
  | faultless clear =>
    obtain ⟨hin, hkind, hg, -, hf⟩ := hm
    have hfree : l.faulted = false := by
      have hzero : s.fault = 0 := hr
      by_contra hne
      exact hf (by simpa using hne) hzero
    exact (execute_still (a := .loadFault) (.inr (.inl trivial))).acted ⟨hin, hkind, hg, fun _ => hfree, hf⟩
  | closed =>
    have hclosed : s.closed = true := hr
    exact (execute_still (a := .loadClosed) (.inr (.inl trivial))).acted ⟨hm.1, hm.2, hclosed⟩
  | unclosed =>
    have hclosed : s.closed = false := hr
    exact (execute_still (a := .loadClosed) (.inr (.inl trivial))).acted ⟨hm.1, hm.2, hclosed⟩
  | found =>
    have hzero : s.gate = 0 := hr
    exact (execute_still (a := .loadGate) (.inr (.inr (.inr (.inl rfl))))).acted ⟨hm.1, hm.2.1, hm.2.2, hzero⟩
  | enter =>
    obtain ⟨hone, heq⟩ := execute_taken hr
    rw [heq]
    refine ⟨⟨rfl, hm.2, .inl rfl, nofun, ?_⟩, .enter hone rfl rfl hm.2 rfl, id, rfl⟩
    intro h
    simpa [Local.swapped] using h
  | refused gate =>
    obtain ⟨-, heq⟩ := execute_refused hr
    rw [heq]
    exact ⟨hm, .same rfl rfl rfl, id, rfl⟩
  | leave clear =>
    obtain ⟨htwo, heq⟩ := execute_taken hr
    rw [heq]
    exact ⟨⟨rfl, hm.2.1⟩, .leave htwo rfl hm.1 rfl rfl, id, rfl⟩
  | ousted clear gate =>
    obtain ⟨-, heq⟩ := execute_refused hr
    rw [heq]
    exact ⟨hm, .same rfl rfl rfl, id, rfl⟩
  | disable clear => exact ⟨⟨rfl, hm.2.1⟩, .disable rfl hm.1 rfl rfl, id, rfl⟩
  | ask r =>
    cases r with
    | none =>
      obtain ⟨htwo, heq⟩ := execute_taken hr
      rw [heq]
      exact ⟨hm, .ask htwo rfl rfl rfl, id, rfl⟩
    | some gate =>
      obtain ⟨-, heq⟩ := execute_refused hr
      rw [heq]
      exact ⟨hm, .same rfl rfl rfl, id, rfl⟩
  | @retire gate h0 h2 h3 =>
    obtain ⟨heq, hexec⟩ := execute_taken hr
    have hone : gate = 1 := by omega
    subst hone
    rw [hexec]
    exact ⟨⟨hm.1, hm.2.1, hm.2.2, rfl⟩, .retire heq rfl rfl rfl, id, rfl⟩
  | lost gate other =>
    obtain ⟨-, heq⟩ := execute_refused hr
    rw [heq]
    exact ⟨hm, .same rfl rfl rfl, id, rfl⟩
  | close => exact ⟨⟨hm.1, hm.2.1, rfl⟩, .close hm.2.1 hm.2.2.2 hm.2.2.2 rfl rfl, id, rfl⟩

/-! ## The pool -/

structure Inv (p : Endpoint) : Prop where
  threads : ∀ t th, p.threads t = some th →
    ∃ m : Mode, m.Fits th.kind th.here p.shared ∧ Follows Goes Final m th.prog
  gate : p.shared.gate ≤ 3
  alone : ∀ t u th uh, p.threads t = some th → p.threads u = some uh → th.here.inside = true →
    uh.here.inside = true → t = u
  closing : ∀ t th, p.threads t = some th → th.kind = .close → p.shared.closing = true
  closer : ∀ t u th uh, p.threads t = some th → p.threads u = some uh → th.kind = .close →
    uh.kind = .close → t = u
  closedOff : p.shared.closed = true → p.shared.gate = 0

/-- A thread inside a section has the gate. -/
theorem Mode.Fits.held {m : Mode} (hm : m.Fits kind l s) (hin : l.inside = true) :
    s.gate = 2 ∨ s.gate = 3 := by
  cases m with
  | inside clear => exact hm.2.2.1
  | _ => rw [hm.1] at hin; cases hin

/-- The other threads fit what one thread leaves. -/
theorem Mode.Fits.other {m : Mode} {kind' : Kind} {lt lt' : Local} (hm : m.Fits kind l s)
    (h : Shift kind' lt s lt' s') (hfault : s.fault ≠ 0 → s'.fault ≠ 0)
    (halone : lt.inside = true → l.inside = false) (hcloser : kind' = .close → kind ≠ .close) :
    m.Fits kind l s' := by
  have hclosed : kind = .close → s'.closed = s.closed := by
    intro hkind
    cases h with
    | close hk _ _ _ _ => exact absurd hkind (hcloser hk)
    | same _ _ heq => exact heq
    | enter _ _ _ _ heq => exact heq
    | leave _ _ _ _ heq => exact heq
    | disable _ _ _ heq => exact heq
    | retire _ _ _ heq => exact heq
    | ask _ _ _ heq => exact heq
  cases m with
  | outside => exact hm
  | unsure => exact hm
  | inside clear =>
    obtain ⟨hin, hkind, hg, hclear, hf⟩ := hm
    have hout : lt.inside = true → False := fun ht => by simp [halone ht] at hin
    refine ⟨hin, hkind, ?_, hclear, fun h => hfault (hf h)⟩
    cases h with
    | same _ hgate _ => rw [hgate]; exact hg
    | ask _ hgate _ _ => exact .inr hgate
    | leave _ _ ht _ _ => exact absurd ht hout
    | disable _ ht _ _ => exact absurd ht hout
    | enter hgate _ _ _ _ => omega
    | retire hgate _ _ _ => omega
    | close _ hgate _ _ _ => omega
  | seeking => exact ⟨hm.1, hm.2.1, (hclosed hm.2.1).trans hm.2.2⟩
  | retired =>
    obtain ⟨hout, hkind, hopen, hzero⟩ := hm
    refine ⟨hout, hkind, (hclosed hkind).trans hopen, ?_⟩
    cases h with
    | same _ hgate _ => rw [hgate]; exact hzero
    | disable hgate _ _ _ => exact hgate
    | close _ _ hgate _ _ => exact hgate
    | _ => omega
  | done =>
    exact ⟨hm.1, hm.2.1, h.closed hm.2.2⟩

theorem Opened.inv {p : Endpoint} (h : Opened p) : Inv p where
  threads t th ht := by simp [h.idle] at ht
  gate := Nat.le_trans h.gate (by decide)
  alone t u th uh ht := by simp [h.idle] at ht
  closing t th ht := by simp [h.idle] at ht
  closer t u th uh ht := by simp [h.idle] at ht
  closedOff hclosed := by simp [h.closed] at hclosed

variable {c : Config} {p p' : Endpoint} {d : Did Kind Act Outcome}

/-- What a step of the pool keeps. -/
structure Kept (p p' : Endpoint) : Prop where
  inv : Inv p'
  off : p.shared.Off → p'.shared.Off
  closed : p.shared.closed = true → p'.shared.closed = true

theorem start_kept {t : Nat} {here : Local} {prog : Io Outcome} (hi : Inv p)
    (ht : p.threads t = none) (hs : (endpoint c).start kind p.shared = some (here, prog, s')) :
    Kept p ⟨s', Function.update p.threads t (some ⟨kind, here, prog⟩)⟩ := by
  obtain ⟨shared, hshared, heq⟩ := Option.map_eq_some_iff.mp hs
  obtain ⟨rfl, rfl, rfl⟩ : ({} : Local) = here ∧ program c kind = prog ∧ shared = s' := by
    simpa using heq
  have hsame : shared.gate = p.shared.gate ∧ shared.closed = p.shared.closed ∧
      shared.fault = p.shared.fault ∧
      (p.shared.closing = true → shared.closing = true ∧ kind ≠ .close) ∧
      (kind = .close → shared.closing = true) := by
    cases kind with
    | interrupt irq raw =>
      obtain rfl := Option.some.inj hshared
      simp
    | configure request =>
      obtain rfl := Option.some.inj hshared
      simp
    | message =>
      simp only [Shared.starts] at hshared
      split at hshared
      · obtain rfl := Option.some.inj hshared
        simp
      · cases hshared
    | close =>
      simp only [Shared.starts] at hshared
      split at hshared
      · cases hshared
      · rename_i hclosing
        obtain rfl := Option.some.inj hshared
        simp [hclosing]
  obtain ⟨hgate, hclosed, hfault, hkeep, hclose⟩ := hsame
  have hstill : ∀ l, Shift (.interrupt 0 0) l p.shared l shared := fun l =>
    .same rfl hgate hclosed
  constructor
  · constructor
    · intro u th hu
      rcases System.threads_update hu with ⟨rfl, heq⟩ | ⟨hne, hold⟩
      · obtain rfl := Option.some.inj heq
        refine ⟨kind.mode, ?_, program_follows c kind⟩
        cases kind with
        | close => exact ⟨rfl, rfl⟩
        | _ => exact ⟨rfl, nofun⟩
      · obtain ⟨m, hm, hp⟩ := hi.threads u th hold
        exact ⟨m, hm.other (hstill {}) (fun h => hfault ▸ h) nofun nofun, hp⟩
    · rw [hgate]
      exact hi.gate
    · intro u v uh vh hu hv hinu hinv
      rcases System.threads_update hu with ⟨rfl, heq⟩ | ⟨hne, hold⟩
      · obtain rfl := Option.some.inj heq
        cases hinu
      rcases System.threads_update hv with ⟨rfl, heq⟩ | ⟨hne', hold'⟩
      · obtain rfl := Option.some.inj heq
        cases hinv
      exact hi.alone u v uh vh hold hold' hinu hinv
    · intro u uh hu hkind
      rcases System.threads_update hu with ⟨rfl, heq⟩ | ⟨hne, hold⟩
      · obtain rfl := Option.some.inj heq
        exact hclose hkind
      · exact (hkeep (hi.closing u uh hold hkind)).1
    · intro u v uh vh hu hv hku hkv
      rcases System.threads_update hu with ⟨rfl, heq⟩ | ⟨hne, hold⟩
      · rcases System.threads_update hv with ⟨rfl, -⟩ | ⟨hne', hold'⟩
        · rfl
        · obtain rfl := Option.some.inj heq
          exact absurd hku (hkeep (hi.closing v vh hold' hkv)).2
      · rcases System.threads_update hv with ⟨rfl, heq⟩ | ⟨hne', hold'⟩
        · obtain rfl := Option.some.inj heq
          exact absurd hkv (hkeep (hi.closing u uh hold hku)).2
        · exact hi.closer u v uh vh hold hold' hku hkv
    · intro h
      show shared.gate = 0
      rw [hgate]
      exact hi.closedOff (hclosed ▸ h)
  · intro h
    exact (hstill {}).off h
  · intro h
    exact (hstill {}).closed h

/-- The mode of a thread that is about to act, and the one it reaches. -/
theorem Inv.acts {t : Nat} {here : Local} {a : Act} {k : Res a → Io Outcome} (hi : Inv p)
    (ht : p.threads t = some ⟨kind, here, .act a k⟩) (answer : Nat) :
    ∃ m m' : Mode, m.Fits kind here p.shared ∧ Goes m a (execute a answer here p.shared).1 m' ∧
      Acted kind m' here p.shared (execute a answer here p.shared).2.1
        (execute a answer here p.shared).2.2 ∧
      Follows Goes Final m' (k (execute a answer here p.shared).1) := by
  obtain ⟨m, hm, hp⟩ := hi.threads t _ ht
  obtain ⟨m', hg, hp'⟩ := hp (execute a answer here p.shared).1
  exact ⟨m, m', hm, hg, goes_acted hg rfl hm hi.gate, hp'⟩

theorem act_kept {t : Nat} {here : Local} {a : Act} {k : Res a → Io Outcome} (hi : Inv p)
    (ht : p.threads t = some ⟨kind, here, .act a k⟩) (answer : Nat) :
    Kept p ⟨(execute a answer here p.shared).2.2, Function.update p.threads t
      (some ⟨kind, (execute a answer here p.shared).2.1, k (execute a answer here p.shared).1⟩)⟩ := by
  obtain ⟨m, m', hm, -, hacted, hp⟩ := hi.acts ht answer
  obtain ⟨hfits, hshift, hfault, hclosing⟩ := hacted
  generalize execute a answer here p.shared = r at *
  constructor
  · constructor
    · intro u uh hu
      rcases System.threads_update hu with ⟨rfl, heq⟩ | ⟨hne, hold⟩
      · obtain rfl := Option.some.inj heq
        exact ⟨m', hfits, hp⟩
      · obtain ⟨mu, hmu, hpu⟩ := hi.threads u uh hold
        refine ⟨mu, hmu.other hshift hfault ?_ ?_, hpu⟩
        · intro hin
          by_contra hinu
          exact hne (hi.alone u t uh _ hold ht (by simpa using hinu) hin)
        · intro hkind hkindu
          exact hne (hi.closer u t uh _ hold ht hkindu hkind)
    · exact hshift.gate hi.gate
    · -- Whoever is inside after the step was so before it, unless it enters: then nobody was.
      have hone : ∀ u uh, u ≠ t → p.threads u = some uh → uh.here.inside = true →
          r.2.1.inside = false := by
        intro u uh hne hold hin
        obtain ⟨mu, hmu, -⟩ := hi.threads u uh hold
        have hheld := hmu.held hin
        have hout : here.inside = false := by
          by_contra hinside
          exact hne (hi.alone u t uh _ hold ht hin (by simpa using hinside))
        cases hshift with
        | same hsame _ _ => rw [hsame]; exact hout
        | enter hgate _ _ _ _ => omega
        | leave _ _ _ hleft _ => exact hleft
        | disable _ _ hleft _ => exact hleft
        | retire _ _ hsame _ => rw [hsame]; exact hout
        | ask _ _ hsame _ => rw [hsame]; exact hout
        | close _ _ _ _ hsame => rw [hsame]; exact hout
      intro u v uh vh hu hv hinu hinv
      rcases System.threads_update hu with ⟨rfl, heq⟩ | ⟨hne, hold⟩
      · rcases System.threads_update hv with ⟨rfl, -⟩ | ⟨hne', hold'⟩
        · rfl
        · obtain rfl := Option.some.inj heq
          simp [hone v vh hne' hold' hinv] at hinu
      · rcases System.threads_update hv with ⟨rfl, heq⟩ | ⟨hne', hold'⟩
        · obtain rfl := Option.some.inj heq
          simp [hone u uh hne hold hinu] at hinv
        · exact hi.alone u v uh vh hold hold' hinu hinv
    · intro u uh hu hkind
      show r.2.2.closing = true
      rw [hclosing]
      rcases System.threads_update hu with ⟨rfl, heq⟩ | ⟨hne, hold⟩
      · obtain rfl := Option.some.inj heq
        exact hi.closing u _ ht hkind
      · exact hi.closing u uh hold hkind
    · intro u v uh vh hu hv hku hkv
      rcases System.threads_update hu with ⟨rfl, heq⟩ | ⟨hne, hold⟩
      · obtain rfl := Option.some.inj heq
        rcases System.threads_update hv with ⟨rfl, -⟩ | ⟨hne', hold'⟩
        · rfl
        · exact hi.closer u v _ vh ht hold' hku hkv
      · rcases System.threads_update hv with ⟨rfl, heq⟩ | ⟨hne', hold'⟩
        · obtain rfl := Option.some.inj heq
          exact hi.closer u v uh _ hold ht hku hkv
        · exact hi.closer u v uh vh hold hold' hku hkv
    · exact hshift.closedOff hi.closedOff
  · exact hshift.off
  · exact hshift.closed

theorem finish_kept {t : Nat} {here : Local} {v : Outcome} (hi : Inv p)
    (ht : p.threads t = some ⟨kind, here, .ret v⟩) :
    Kept p ⟨p.shared.finishes kind, Function.update p.threads t none⟩ := by
  have hsame : (p.shared.finishes kind).gate = p.shared.gate ∧
      (p.shared.finishes kind).closed = p.shared.closed ∧
      (p.shared.finishes kind).fault = p.shared.fault ∧
      (kind ≠ .close → (p.shared.finishes kind).closing = p.shared.closing) := by
    cases kind <;> simp [Shared.finishes]
  obtain ⟨hgate, hclosed, hfault, hclosing⟩ := hsame
  have hstill : Shift (.interrupt 0 0) {} p.shared {} (p.shared.finishes kind) :=
    .same rfl hgate hclosed
  have hrest : ∀ u uh, Function.update p.threads t none u = some uh →
      u ≠ t ∧ p.threads u = some uh := by
    intro u uh hu
    rcases System.threads_update hu with ⟨-, heq⟩ | hold
    · cases heq
    · exact hold
  constructor
  · constructor
    · intro u uh hu
      obtain ⟨m, hm, hp⟩ := hi.threads u uh (hrest u uh hu).2
      exact ⟨m, hm.other hstill (fun h => hfault ▸ h) nofun nofun, hp⟩
    · exact hstill.gate hi.gate
    · intro u v uh vh hu hv
      exact hi.alone u v uh vh (hrest u uh hu).2 (hrest v vh hv).2
    · intro u uh hu hkind
      obtain ⟨hne, hold⟩ := hrest u uh hu
      have hother : kind ≠ .close := fun hk => hne (hi.closer u t uh _ hold ht hkind hk)
      show (p.shared.finishes kind).closing = true
      rw [hclosing hother]
      exact hi.closing u uh hold hkind
    · intro u v uh vh hu hv
      exact hi.closer u v uh vh (hrest u uh hu).2 (hrest v vh hv).2
    · exact hstill.closedOff hi.closedOff
  · exact hstill.off
  · exact hstill.closed

theorem step_kept (hi : Inv p) {label : Label Kind}
    (hs : (endpoint c).step p label = (d, p')) : Kept p p' := by
  have hmoved := System.step_moved (endpoint c) p label
  rw [hs] at hmoved
  cases hmoved with
  | start ht hst => exact start_kept hi ht hst
  | act ht => exact act_kept hi ht _
  | finish ht => exact finish_kept hi ht
  | nothing => exact ⟨hi, id, id⟩

theorem run_kept {h : List (Event Endpoint (Label Kind) (Did Kind Act Outcome))} (hi : Inv p)
    (hr : Run (endpoint c).step p h p') : Kept p p' ∧ ∀ e ∈ h, Inv e.pre ∧ Kept p e.post := by
  have hall : ∀ {h p'}, Run (endpoint c).step p h p' → Kept p p' := by
    intro h p' hr
    refine hr.invariant (P := fun _ q => Kept p q) ⟨hi, id, id⟩ ?_
    intro _ q _ _ q' hq hs
    have hstep := step_kept hq.inv hs
    exact ⟨hstep.inv, fun h => hstep.off (hq.off h), fun h => hstep.closed (hq.closed h)⟩
  refine ⟨hall hr, ?_⟩
  intro e he
  obtain ⟨h₁, h₂, -, hpre, hs⟩ := hr.event he
  exact ⟨(hall hpre).inv, hall (hpre.snoc hs)⟩

/-! ## The device is only touched from where it may be -/

def Act.Register : Act → Prop
  | .read _ | .write _ _ => True
  | _ => False

/-- What the retirement does to the device and with the kernel. -/
def Act.Teardown : Act → Prop
  | .read _ | .write _ _ | .update _ | .irqUnregister | .pciDisableMsi | .leaseRelease => True
  | _ => False

theorem Goes.teardown {m m' : Mode} {a : Act} {r : Res a} (hg : Goes m a r m') (ha : a.Teardown) :
    m = .retired ∨ ∃ clear, m = .inside clear := by
  cases hg with
  | look h => cases a <;> simp [Act.Looks, Act.Teardown] at h ha
  | plain _ => exact .inr ⟨_, rfl⟩
  | rearm value => exact .inr ⟨_, rfl⟩
  | calm _ => exact .inl rfl
  | kernel _ => exact .inl rfl
  | _ => exact absurd ha id

theorem Act.Register.teardown {a : Act} (h : a.Register) : a.Teardown := by
  cases a <;> trivial

theorem Goes.rearms {m m' : Mode} {value : Word} {r : Res (.write reg.rearm value)}
    (hg : Goes m (.write reg.rearm value) r m') : m = .inside true := by
  cases hg with
  | look h => cases h
  | plain h => exact absurd rfl h
  | rearm => rfl
  | calm h => exact absurd rfl h
  | kernel h => cases h

theorem acted_thread {t : Nat} {a : Act} {label : Label Kind}
    (hs : (endpoint c).step p label = (.acted t kind a, p')) :
    ∃ here k, p.threads t = some ⟨kind, here, .act a k⟩ := by
  have hmoved := System.step_moved (endpoint c) p label
  rw [hs] at hmoved
  cases hmoved with
  | act ht => exact ⟨_, _, ht⟩

theorem finished_thread {t : Nat} {v : Outcome} {label : Label Kind}
    (hs : (endpoint c).step p label = (.finished t kind v, p')) :
    (∃ here, p.threads t = some ⟨kind, here, .ret v⟩) ∧ p'.shared.closed = p.shared.closed := by
  have hmoved := System.step_moved (endpoint c) p label
  rw [hs] at hmoved
  cases hmoved with
  | finish ht =>
    refine ⟨⟨_, ht⟩, ?_⟩
    show (p.shared.finishes kind).closed = _
    cases kind <;> rfl

/-- A section, a retirement with the gate at 0, or nobody touches the device. -/
theorem Inv.touches {t : Nat} {here : Local} {a : Act} {k : Res a → Io Outcome} (hi : Inv p)
    (ht : p.threads t = some ⟨kind, here, .act a k⟩) (ha : a.Teardown) :
    (kind = .close ∧ p.shared.closed = false ∧ p.shared.gate = 0) ∨
      (kind ≠ .close ∧ here.inside = true ∧ (p.shared.gate = 2 ∨ p.shared.gate = 3)) := by
  obtain ⟨m, m', hm, hg, -⟩ := hi.acts ht 0
  rcases hg.teardown ha with rfl | ⟨clear, rfl⟩
  · exact .inl hm.2
  · exact .inr ⟨hm.2.1, hm.1, hm.2.2.1⟩

theorem Inv.nobody {u : Nat} {uh : Thread Local Kind Act Res Outcome} (hi : Inv p)
    (hzero : p.shared.gate = 0) (hu : p.threads u = some uh) : uh.here.inside = false := by
  obtain ⟨m, hm, -⟩ := hi.threads u uh hu
  cases hin : uh.here.inside with
  | false => rfl
  | true =>
    have := hm.held hin
    omega

/-- Any number of invocations, setups and retries of the retirement, in any order of their steps: at
most one thread is inside a section; the retirement touches the device and takes the endpoint apart
only with the gate at 0 and nobody inside; from 0 or 3 the gate is never 1 again; a section that
began with a fault does not rearm; behind a retirement that returned true no register is accessed. -/
theorem gate_run {p₀ : Endpoint} {h : List (Event Endpoint (Label Kind) (Did Kind Act Outcome))}
    (ho : Opened p₀) (hr : Run (endpoint c).step p₀ h p) :
    (∀ t u th uh, p.threads t = some th → p.threads u = some uh → th.here.inside = true →
      uh.here.inside = true → t = u) ∧
    (∀ e ∈ h, ∀ t a, e.out = .acted t .close a → a.Teardown → e.pre.shared.gate = 0 ∧
      ∀ u uh, e.pre.threads u = some uh → uh.here.inside = false) ∧
    (∀ h₁ e h₂, h = h₁ ++ e :: h₂ → (e.post.shared.gate = 0 ∨ e.post.shared.gate = 3) →
      ∀ e' ∈ h₂, e'.post.shared.gate ≠ 1) ∧
    (∀ e ∈ h, ∀ t kind value, e.out = .acted t kind (.write reg.rearm value) →
      ∃ th, e.pre.threads t = some th ∧ th.here.inside = true ∧ th.here.faulted = false) ∧
    (∀ h₁ e h₂, h = h₁ ++ e :: h₂ → ∀ t, e.out = .finished t .close (.closed true) →
      ∀ e' ∈ h₂, ∀ u kind a, e'.out = .acted u kind a → ¬ a.Register) := by
  have hi := ho.inv
  obtain ⟨hlast, hall⟩ := run_kept hi hr
  have hrest : ∀ {h₁ e h₂}, h = h₁ ++ e :: h₂ → Inv e.pre ∧
      (endpoint c).step e.pre e.op = (e.out, e.post) ∧
      ∀ e' ∈ h₂, Inv e'.pre ∧ Kept e.post e'.post ∧
        (endpoint c).step e'.pre e'.op = (e'.out, e'.post) ∧
        (e.post.shared.closed = true → e'.pre.shared.closed = true) := by
    intro h₁ e h₂ heq
    subst heq
    obtain ⟨hpre, hs⟩ := hr.prior
    have hinv := (run_kept hi hpre).1.inv
    refine ⟨hinv, hs, ?_⟩
    intro e' he'
    rw [List.append_cons] at hr
    obtain ⟨q, hq, hr₂⟩ := hr.split
    obtain rfl := hq.last
    obtain ⟨h₃, h₄, -, hr₃, hs'⟩ := hr₂.event he'
    obtain ⟨hpre', hpost'⟩ := (run_kept (step_kept hinv hs).inv hr₂).2 e' he'
    exact ⟨hpre', hpost', hs', (run_kept (step_kept hinv hs).inv hr₃).1.closed⟩
  refine ⟨hlast.inv.alone, ?_, ?_, ?_, ?_⟩
  · intro e he t a hout ha
    obtain ⟨h₁, h₂, -, -, hs⟩ := hr.event he
    rw [hout] at hs
    obtain ⟨here, k, ht⟩ := acted_thread hs
    rcases (hall e he).1.touches ht ha with ⟨-, -, hzero⟩ | ⟨hkind, -⟩
    · exact ⟨hzero, fun u uh hu => (hall e he).1.nobody hzero hu⟩
    · exact absurd rfl hkind
  · intro h₁ e h₂ heq hoff e' he' hone
    obtain ⟨-, -, hlater⟩ := hrest heq
    have hoff' := (hlater e' he').2.1.off hoff
    unfold Shared.Off at hoff'
    omega
  · intro e he t kind value hout
    obtain ⟨h₁, h₂, -, -, hs⟩ := hr.event he
    rw [hout] at hs
    obtain ⟨here, k, ht⟩ := acted_thread hs
    obtain ⟨m, m', hm, hg, -⟩ := (hall e he).1.acts ht 0
    obtain rfl := hg.rearms
    exact ⟨_, ht, hm.1, hm.2.2.2.1 rfl⟩
  · intro h₁ e h₂ heq t hout e' he' u kind a hact ha
    obtain ⟨hinv, hs, hlater⟩ := hrest heq
    rw [hout] at hs
    obtain ⟨⟨here, ht⟩, hsame⟩ := finished_thread hs
    have hdone : e.pre.shared.closed = true := by
      obtain ⟨m, hm, hp⟩ := hinv.threads t _ ht
      cases m with
      | done => exact hm.2.2
      | seeking => cases hp
      | retired => cases hp
      | _ => exact absurd hp id
    obtain ⟨hinv', -, hs', hclosed⟩ := hlater e' he'
    have hclosed' := hclosed (hsame.trans hdone)
    have hzero := hinv'.closedOff hclosed'
    rw [hact] at hs'
    obtain ⟨here', k, ht'⟩ := acted_thread hs'
    rcases hinv'.touches ht' ha.teardown with ⟨-, hopen, -⟩ | ⟨-, -, hheld⟩
    · simp [hclosed'] at hopen
    · omega

def sampleConfig : Config :=
  { address := 4096, selfAddress := 4096, irq := 11, boot0 := 0x176000a1, leaf := 4, bit := 2
    subtree := 4, handled := 1, opened := rfl, address_ne := by decide }

def sampleEndpoint : Endpoint :=
  ⟨{ gate := 1, msi := true, armed := true, msiEnabled := true,
     fields := { registered := true, touched := true } }, fun _ => none⟩

/-- A handler in its section, and a retirement that finds it there. -/
def askOps : List (Label Kind) :=
  [.start 0 .message, .act 0 0, .start 1 .close, .act 1 0, .act 1 0, .act 1 0, .finish 1]

theorem gate_run_ask :
    let r := exec (endpoint sampleConfig).step sampleEndpoint askOps
    r.2.shared.gate = 3 ∧
    (∀ t u th uh, r.2.threads t = some th → r.2.threads u = some uh → th.here.inside = true →
      uh.here.inside = true → t = u) :=
  ⟨rfl, (gate_run (c := sampleConfig) ⟨by decide, rfl, rfl, fun _ => rfl⟩
    (Run.of_exec _ sampleEndpoint askOps)).1⟩

end Irq
end NvidiaGsp
