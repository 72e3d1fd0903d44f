import NvidiaGsp.Irq.GateRuns

/-!
# Irq.Messages

Whether the device can still send a message. A message disables further ones until its handler
writes zero to the message register. A handler that finds the gate taken returns without the write,
so the message is only safe when the holder of the gate is still going to write.

`messages_run` is that condition over whole runs. The setup of the display sources breaks it: it takes
the gate while the tree is armed, and gives it back after arming the tree again
(`message_swallowed`).
-/

namespace NvidiaGsp
namespace Irq

open Prog (when)

/-- The program writes zero to the message register before it gives the gate back, once it has the
gate, where messages are in use. -/
def Rewrites : Io Outcome → Prop
  | .ret _ => False
  | .act (.write offset value) k => (offset = reg.msi ∧ value = 0) ∨ Rewrites (k ())
  | .act (.casGate expected _) k => expected = 1 ∧ Rewrites (k (none : Option Nat))
  | .act .loadMsi k => Rewrites (k true)
  | .act (.storeGate _) _ => False
  | .act .loadGate k => ∀ r, Rewrites (k r)
  | .act .loadFault k => ∀ r, Rewrites (k r)
  | .act (.casFault _) k => ∀ r, Rewrites (k r)
  | .act (.read _) k => ∀ r, Rewrites (k r)
  | .act .fields k => ∀ r, Rewrites (k r)
  | .act (.update _) k => ∀ r, Rewrites (k r)
  | .act .loadClosed k => ∀ r, Rewrites (k r)
  | .act .setClosed k => ∀ r, Rewrites (k r)
  | .act .dropMsi k => ∀ r, Rewrites (k r)
  | .act .resources k => ∀ r, Rewrites (k r)
  | .act .nowNs k => ∀ r, Rewrites (k r)
  | .act .signal k => ∀ r, Rewrites (k r)
  | .act .irqUnregister k => ∀ r, Rewrites (k r)
  | .act .pciDisableMsi k => ∀ r, Rewrites (k r)
  | .act .leaseRelease k => ∀ r, Rewrites (k r)

/-- An invocation of the handler. -/
def Kind.Handler : Kind → Prop
  | .interrupt _ _ | .message => True
  | _ => False

variable {c : Config} {p p' : Endpoint} {d : Did Kind Act Outcome}

/-- A message starts with the write before it. -/
theorem message_rewrites (c : Config) : Rewrites (program c .message) := by
  have hself : ¬ (c.selfAddress ≠ c.selfAddress ∨ c.irq ≠ c.irq) := by simp
  unfold program interrupt
  rw [if_neg hself]
  exact ⟨rfl, .inr (.inl ⟨rfl, rfl⟩)⟩

/-- Some invocation is going to write. It answers a message, or it has the gate. -/
def Pending (p : Endpoint) : Prop :=
  ∃ t th, p.threads t = some th ∧ th.kind.Handler ∧ Rewrites th.prog ∧
    (th.kind = .message ∨ th.here.inside = true)

/-- A section that is still going to write has the gate. -/
def HeldByWriter (p : Endpoint) : Prop :=
  ∃ t th, p.threads t = some th ∧ th.kind.Handler ∧ Rewrites th.prog ∧ th.here.inside = true

/-- No retirement runs; the endpoint is off, or messages are enabled, or an invocation will enable
them. -/
structure Safe (p : Endpoint) : Prop where
  inv : Inv p
  msi : p.shared.msi = true
  serving : ∀ t th, p.threads t = some th → th.kind ≠ .close
  enabled : p.shared.Off ∨ p.shared.msiEnabled = true ∨ Pending p

/-- A message finds the gate not taken, or held by a section that is still going to write. -/
def Finds (e : Event Endpoint (Label Kind) (Did Kind Act Outcome)) : Prop :=
  ∀ t, e.out = .acted t .message (.casGate 1 2) → e.pre.shared.gate ≠ 2 ∨ HeldByWriter e.pre

theorem written_enabled {s : Shared} {offset : Nat} {value : Word}
    (h : (offset = reg.msi ∧ value = 0) ∨ s.msiEnabled = true) :
    (s.written offset value).msiEnabled = true := by
  rcases h with ⟨rfl, rfl⟩ | h
  · rfl
  · unfold Shared.written
    split_ifs <;> first | exact h | rfl

@[simp] theorem written_msi (s : Shared) (offset : Nat) (value : Word) :
    (s.written offset value).msi = s.msi := by
  unfold Shared.written
  split_ifs <;> rfl

theorem execute_msi {a : Act} {answer : Nat} {l : Local} {s : Shared} (ha : a ≠ .dropMsi) :
    (execute a answer l s).2.2.msi = s.msi := by
  cases a with
  | dropMsi => exact absurd rfl ha
  | write offset value => exact written_msi s offset value
  | casGate expected desired =>
    by_cases hgate : s.gate = expected <;> simp [execute, hgate]
  | casFault fault =>
    by_cases hfault : s.fault = 0 <;> simp [execute, hfault]
  | _ => rfl

theorem execute_enabled {a : Act} {answer : Nat} {l : Local} {s : Shared}
    (h : s.msiEnabled = true) : (execute a answer l s).2.2.msiEnabled = true := by
  cases a with
  | write offset value => exact written_enabled (.inr h)
  | casGate expected desired =>
    by_cases hgate : s.gate = expected <;> simp [execute, hgate, h]
  | casFault fault =>
    by_cases hfault : s.fault = 0 <;> simp [execute, hfault, h]
  | _ => exact h

theorem Goes.drops {m m' : Mode} {r : Res .dropMsi} (hg : Goes m .dropMsi r m') : m = .retired := by
  cases hg with
  | look h => cases h
  | plain h => cases h
  | calm h => cases h
  | kernel h => rfl

theorem Goes.takes {m m' : Mode} {desired : Nat} {r : Res (.casGate 1 desired)}
    (hg : Goes m (.casGate 1 desired) r m') : (m = .outside ∧ desired = 2) ∨ m = .seeking := by
  cases hg with
  | look h => cases h
  | plain h => cases h
  | calm h => cases h
  | kernel h => cases h
  | enter => exact .inl ⟨rfl, rfl⟩
  | refused gate => exact .inl ⟨rfl, rfl⟩
  | retire => exact .inr rfl
  | lost => exact .inr rfl

theorem Pending.other {t : Nat} {o : Option (Thread Local Kind Act Res Outcome)} {shared : Shared}
    {u : Nat} {th : Thread Local Kind Act Res Outcome} (hu : p.threads u = some th) (hne : u ≠ t)
    (hkind : th.kind.Handler) (hprog : Rewrites th.prog)
    (hhere : th.kind = .message ∨ th.here.inside = true) :
    Pending ⟨shared, Function.update p.threads t o⟩ :=
  ⟨u, th, (Function.update_of_ne hne ..).trans hu, hkind, hprog, hhere⟩

/-- The thread that is going to write acts: it wrote, or it is still going to, or the gate was
refused. -/
theorem rewrites_act {t : Nat} {kind : Kind} {here : Local} {a : Act} {k : Res a → Io Outcome}
    (hsafe : Safe p) (ht : p.threads t = some ⟨kind, here, .act a k⟩) (answer : Nat)
    (hprog : Rewrites (.act a k)) (hhere : kind = .message ∨ here.inside = true) :
    (execute a answer here p.shared).2.2.msiEnabled = true ∨
      (Rewrites (k (execute a answer here p.shared).1) ∧
        (kind = .message ∨ (execute a answer here p.shared).2.1.inside = true)) ∨
      (kind = .message ∧ a = .casGate 1 2 ∧ here.inside = false ∧ p.shared.gate ≠ 1) := by
  cases a with
  | write offset value =>
    rcases hprog with h | h
    · exact .inl (written_enabled (.inl h))
    · exact .inr (.inl ⟨h, hhere⟩)
  | casGate expected desired =>
    obtain ⟨rfl, hnext⟩ := hprog
    obtain ⟨m, m', hm, hg, -⟩ := hsafe.inv.acts ht answer
    have hout : here.inside = false ∧ desired = 2 := by
      rcases hg.takes with ⟨rfl, rfl⟩ | rfl
      · exact ⟨hm.1, rfl⟩
      · exact absurd hm.2.1 (hsafe.serving t _ ht)
    obtain ⟨hout, rfl⟩ := hout
    have hkind : kind = .message := by
      rcases hhere with h | h
      · exact h
      · simp [hout] at h
    by_cases hgate : p.shared.gate = 1
    · right
      left
      simp only [execute, if_pos hgate]
      exact ⟨hnext, .inl hkind⟩
    · exact .inr (.inr ⟨hkind, rfl, hout, hgate⟩)
  | loadMsi =>
    right
    left
    have hmsi : (execute .loadMsi answer here p.shared).1 = true := hsafe.msi
    rw [hmsi]
    exact ⟨hprog, hhere⟩
  | storeGate value => exact absurd hprog id
  | _ => exact .inr (.inl ⟨hprog _, hhere⟩)

theorem act_enabled {t : Nat} {kind : Kind} {here : Local} {a : Act} {k : Res a → Io Outcome}
    (hsafe : Safe p) (ht : p.threads t = some ⟨kind, here, .act a k⟩) (answer : Nat)
    (hfinds : kind = .message → a = .casGate 1 2 → p.shared.gate ≠ 2 ∨ HeldByWriter p) :
    let r := execute a answer here p.shared
    r.2.2.Off ∨ r.2.2.msiEnabled = true ∨
      Pending ⟨r.2.2, Function.update p.threads t (some ⟨kind, r.2.1, k r.1⟩)⟩ := by
  intro r
  have hoff := (act_kept hsafe.inv ht answer).off
  rcases hsafe.enabled with h | h | ⟨u, uh, hu, hkind, hprog, hhere⟩
  · exact .inl (hoff h)
  · exact .inr (.inl (execute_enabled h))
  by_cases hne : u = t
  · subst hne
    obtain rfl := Option.some.inj (ht.symm.trans hu)
    rcases rewrites_act hsafe ht answer hprog hhere with h | ⟨h, hhere'⟩ | ⟨hm, ha, hout, hgate⟩
    · exact .inr (.inl h)
    · right
      right
      exact ⟨u, _, Function.update_self .., hkind, h, hhere'⟩
    · rcases hfinds hm ha with htwo | ⟨v, vh, hv, hkv, hpv, hin⟩
      · left
        have := hsafe.inv.gate
        exact hoff (by unfold Shared.Off; omega)
      · right
        right
        have hvt : v ≠ u := by
          rintro rfl
          obtain rfl := Option.some.inj (ht.symm.trans hv)
          simp [hout] at hin
        exact Pending.other hv hvt hkv hpv (.inr hin)
  · exact .inr (.inr (Pending.other hu hne hkind hprog hhere))

theorem start_enabled {t : Nat} {kind : Kind} {here : Local} {prog : Io Outcome} {shared : Shared}
    (hsafe : Safe p) (ht : p.threads t = none)
    (hs : (endpoint c).start kind p.shared = some (here, prog, shared)) :
    shared.msi = true ∧ (shared.Off ∨ shared.msiEnabled = true ∨
      Pending ⟨shared, Function.update p.threads t (some ⟨kind, here, prog⟩)⟩) := by
  obtain ⟨s', hs', heq⟩ := Option.map_eq_some_iff.mp hs
  obtain ⟨rfl, rfl, rfl⟩ : ({} : Local) = here ∧ program c kind = prog ∧ s' = shared := by
    simpa using heq
  have hrest : s'.gate = p.shared.gate → s'.msiEnabled = p.shared.msiEnabled →
      (s'.Off ∨ s'.msiEnabled = true ∨
        Pending ⟨s', Function.update p.threads t (some ⟨kind, {}, program c kind⟩)⟩) := by
    intro hgate hsame
    rcases hsafe.enabled with h | h | ⟨u, uh, hu, hkind, hprog, hhere⟩
    · exact .inl (by unfold Shared.Off at *; omega)
    · exact .inr (.inl (hsame.trans h))
    · right
      right
      have hne : u ≠ t := by
        rintro rfl
        simp [ht] at hu
      exact Pending.other hu hne hkind hprog hhere
  cases kind with
  | interrupt irq raw =>
    obtain rfl := Option.some.inj hs'
    exact ⟨hsafe.msi, hrest rfl rfl⟩
  | configure request =>
    obtain rfl := Option.some.inj hs'
    exact ⟨hsafe.msi, hrest rfl rfl⟩
  | message =>
    simp only [Shared.starts] at hs'
    split at hs'
    · obtain rfl := Option.some.inj hs'
      refine ⟨hsafe.msi, .inr (.inr ?_)⟩
      exact ⟨t, _, Function.update_self .., trivial, message_rewrites c, .inl rfl⟩
    · cases hs'
  | close =>
    simp only [Shared.starts] at hs'
    split at hs'
    · cases hs'
    · obtain rfl := Option.some.inj hs'
      exact ⟨hsafe.msi, hrest rfl rfl⟩

theorem finish_enabled {t : Nat} {kind : Kind} {here : Local} {v : Outcome} (hsafe : Safe p)
    (ht : p.threads t = some ⟨kind, here, .ret v⟩) :
    (p.shared.finishes kind).msi = true ∧ ((p.shared.finishes kind).Off ∨
      (p.shared.finishes kind).msiEnabled = true ∨
      Pending ⟨p.shared.finishes kind, Function.update p.threads t none⟩) := by
  have hsame : (p.shared.finishes kind).msi = p.shared.msi ∧
      (p.shared.finishes kind).gate = p.shared.gate ∧
      (p.shared.finishes kind).msiEnabled = p.shared.msiEnabled := by
    cases kind <;> simp [Shared.finishes]
  obtain ⟨hmsi, hgate, henabled⟩ := hsame
  refine ⟨hmsi.trans hsafe.msi, ?_⟩
  rcases hsafe.enabled with h | h | ⟨u, uh, hu, hkind, hprog, hhere⟩
  · exact .inl (by unfold Shared.Off at *; omega)
  · exact .inr (.inl (henabled.trans h))
  · right
    right
    have hne : u ≠ t := by
      rintro rfl
      obtain rfl := Option.some.inj (ht.symm.trans hu)
      exact hprog
    exact Pending.other hu hne hkind hprog hhere

theorem step_safe (hsafe : Safe p) {label : Label Kind} (hs : (endpoint c).step p label = (d, p'))
    (hserving : ∀ t, d ≠ .started t .close) (hfinds : Finds ⟨p, label, d, p'⟩) : Safe p' := by
  have hinv := (step_kept hsafe.inv hs).inv
  have hmoved := System.step_moved (endpoint c) p label
  rw [hs] at hmoved
  cases hmoved with
  | nothing => exact hsafe
  | @start t kind here prog shared ht hst =>
    obtain ⟨hmsi, henabled⟩ := start_enabled hsafe ht hst
    refine ⟨hinv, hmsi, ?_, henabled⟩
    intro u uh hu
    rcases System.threads_update hu with ⟨rfl, heq⟩ | ⟨-, hold⟩
    · obtain rfl := Option.some.inj heq
      rintro rfl
      exact hserving u rfl
    · exact hsafe.serving u uh hold
  | @act t answer kind here a k ht =>
    refine ⟨hinv, ?_, ?_, ?_⟩
    · have hkeep : a ≠ .dropMsi := by
        rintro rfl
        obtain ⟨m, m', hm, hg, -⟩ := hsafe.inv.acts ht answer
        obtain rfl := hg.drops
        exact hsafe.serving t _ ht hm.2.1
      exact (execute_msi hkeep).trans hsafe.msi
    · intro u uh hu
      rcases System.threads_update hu with ⟨rfl, heq⟩ | ⟨-, hold⟩
      · obtain rfl := Option.some.inj heq
        exact hsafe.serving u ⟨kind, here, .act a k⟩ ht
      · exact hsafe.serving u uh hold
    · apply act_enabled hsafe ht answer
      rintro rfl rfl
      exact hfinds t rfl
  | @finish t kind here v ht =>
    obtain ⟨hmsi, henabled⟩ := finish_enabled hsafe ht
    refine ⟨hinv, hmsi, ?_, henabled⟩
    intro u uh hu
    rcases System.threads_update hu with ⟨-, heq⟩ | ⟨-, hold⟩
    · cases heq
    · exact hsafe.serving u uh hold

/-- The endpoint after a successful `open` with messages in use. -/
structure Serving (p : Endpoint) : Prop where
  opened : Opened p
  msi : p.shared.msi = true
  enabled : p.shared.msiEnabled = true

theorem Serving.safe (h : Serving p) : Safe p where
  inv := h.opened.inv
  msi := h.msi
  serving t th ht := by simp [h.opened.idle] at ht
  enabled := .inr (.inl h.enabled)

/-- No message is swallowed in any run of invocations and setups in which every message finds the gate
not taken, or held by a section that is still going to write: with the gate open messages are enabled,
or an invocation is in progress that enables them. -/
theorem messages_run {p₀ : Endpoint} {h : List (Event Endpoint (Label Kind) (Did Kind Act Outcome))}
    (ho : Serving p₀) (hr : Run (endpoint c).step p₀ h p)
    (hserving : ∀ e ∈ h, ∀ t, e.out ≠ .started t .close) (hfinds : ∀ e ∈ h, Finds e)
    (hgate : p.shared.gate = 1) :
    p.shared.msiEnabled = true ∨
      ∃ t th, p.threads t = some th ∧ th.kind.Handler ∧ Rewrites th.prog := by
  have hsafe : (∀ e ∈ h, (∀ t, e.out ≠ .started t .close) ∧ Finds e) → Safe p := by
    refine hr.invariant (P := fun h q =>
      (∀ e ∈ h, (∀ t, e.out ≠ .started t .close) ∧ Finds e) → Safe q) (fun _ => ho.safe) ?_
    intro h q label out q' ih hs hall
    have hprior : Safe q := ih fun e he => hall e (List.mem_append_left _ he)
    obtain ⟨hclose, hfind⟩ := hall ⟨q, label, out, q'⟩ (by simp)
    exact step_safe hprior hs hclose hfind
  rcases (hsafe fun e he => ⟨hserving e he, hfinds e he⟩).enabled with hoff | h | hpending
  · unfold Shared.Off at hoff
    omega
  · exact .inl h
  · obtain ⟨t, th, ht, hkind, hprog, -⟩ := hpending
    exact .inr ⟨t, th, ht, hkind, hprog⟩

theorem sample_serving : Serving sampleEndpoint :=
  ⟨⟨by decide, rfl, rfl, fun _ => rfl⟩, rfl, rfl⟩

theorem started_label {t : Nat} {kind : Kind} {label : Label Kind}
    (hs : (endpoint c).step p label = (.started t kind, p')) : label = .start t kind := by
  cases label with
  | start u kind' =>
    unfold System.step at hs
    dsimp only at hs
    split at hs
    · cases hs
      rfl
    · cases hs
  | act u answer =>
    unfold System.step at hs
    dsimp only at hs
    split at hs <;> cases hs
  | finish u =>
    unfold System.step at hs
    dsimp only at hs
    split at hs <;> cases hs

/-- A run whose labels start no retirement has none. -/
theorem exec_serving {ops : List (Label Kind)} (hops : ∀ label ∈ ops, ∀ t, label ≠ .start t .close) :
    ∀ e ∈ (exec (endpoint c).step p ops).1, ∀ t, e.out ≠ .started t .close := by
  intro e he t hout
  obtain ⟨-, -, -, -, hs⟩ := (Run.of_exec (endpoint c).step p ops).event he
  rw [hout] at hs
  exact hops e.op (mem_of_mem_exec he) t (started_label hs)

/-- Threads that no label names are not started. -/
theorem exec_idle {ops : List (Label Kind)} {n : Nat} (hp : ∀ t, p.threads t = none)
    (hops : ∀ label ∈ ops, label.thread < n)
    (hlow : ∀ t < n, ((exec (endpoint c).step p ops).2.threads t).isNone) (t : Nat) :
    (exec (endpoint c).step p ops).2.threads t = none := by
  by_cases ht : t < n
  · exact Option.isNone_iff_eq_none.mp (hlow t ht)
  · rw [System.exec_other _ _ fun label hl => ?_]
    · exact hp t
    · have := hops label hl
      omega

/-- The invocation of a message asks for the gate. -/
def asks : Did Kind Act Outcome → Bool
  | .acted _ .message (.casGate 1 2) => true
  | _ => false

/-- A message that finds the gate not taken. -/
theorem Finds.of_asks {e : Event Endpoint (Label Kind) (Did Kind Act Outcome)}
    (h : (!asks e.out || e.pre.shared.gate != 2) = true) : Finds e := by
  intro t hout
  rw [hout] at h
  exact .inl (by simpa [asks] using h)

/-- The setup of one head, then a message of the processor that is handled to its end. -/
def handledOps : List (Label Kind) :=
  let request : Request := ⟨⟨[⟨2, 40⟩], 1, some 0⟩, 1, 1, false⟩
  let boot0 : Nat := 0x176000a1
  .start 0 (.configure request) :: List.replicate 27 (.act 0 boot0) ++ [.finish 0, .start 1 .message] ++
    [0, 0, 0, 0, boot0, 4, 2, 0, 0, 0, 0x40, 0x40, 0, 0, 0, 0, 0, boot0, 0, 0, 0, 0, 0, boot0, 0, 0].map
      (.act 1) ++ [.finish 1]

/-- The message finds the gate open, and messages are enabled behind its invocation. -/
theorem messages_run_handled :
    let r := exec (endpoint sampleConfig).step sampleEndpoint handledOps
    r.1.any (fun e => asks e.out && e.pre.shared.gate == 1) = true ∧ r.2.shared.fields.messages = 1 ∧
      r.2.shared.msiEnabled = true := by
  have hrun : (exec (endpoint sampleConfig).step sampleEndpoint handledOps).1.any
        (fun e => asks e.out && e.pre.shared.gate == 1) = true ∧
      (exec (endpoint sampleConfig).step sampleEndpoint handledOps).2.shared.fields.messages = 1 ∧
      (exec (endpoint sampleConfig).step sampleEndpoint handledOps).2.shared.gate = 1 ∧
      (∀ e ∈ (exec (endpoint sampleConfig).step sampleEndpoint handledOps).1,
        (!asks e.out || e.pre.shared.gate != 2) = true) ∧
      ∀ t < 2, ((exec (endpoint sampleConfig).step sampleEndpoint handledOps).2.threads t).isNone := by
    decide +kernel
  obtain ⟨hasks, hmessages, hgate, hfinds, hlow⟩ := hrun
  have hserving : ∀ e ∈ (exec (endpoint sampleConfig).step sampleEndpoint handledOps).1, ∀ t,
      e.out ≠ .started t .close := exec_serving fun label hl t hlabel => by
    subst hlabel
    simp [handledOps] at hl
  have hthread : ∀ label ∈ handledOps, label.thread < 2 := by simp [handledOps, Label.thread]
  have hr := Run.of_exec (endpoint sampleConfig).step sampleEndpoint handledOps
  have hfound := fun e he => Finds.of_asks (hfinds e he)
  refine ⟨hasks, hmessages, ?_⟩
  rcases messages_run sample_serving hr hserving hfound hgate with h | ⟨t, th, ht, -⟩
  · exact h
  · rw [exec_idle (fun _ => rfl) hthread hlow t] at ht
    cases ht

/-- The setup of one head, with the answers of a device that is there. A message arrives when it has
the gate and did not unarm the tree yet. -/
def swallowOps : List (Label Kind) :=
  let request : Request := ⟨⟨[⟨2, 40⟩], 1, some 0⟩, 1, 1, false⟩
  let act : Label Kind := .act 0 0x176000a1
  [.start 0 (.configure request), act, act, act, act, act, act, act,
    .start 1 .message, .act 1 0, .finish 1,
    act, act, act, act, act, act, act, act, act, act, act, act, act, act, act, act, act, act, act,
    act, .finish 0]

theorem message_swallowed :
    ¬ ∀ (c : Config) (p₀ p : Endpoint) (h : List (Event Endpoint (Label Kind) (Did Kind Act Outcome))),
      Serving p₀ → Run (endpoint c).step p₀ h p → (∀ e ∈ h, ∀ t, e.out ≠ .started t .close) →
      p.shared.gate = 1 → p.shared.fault = 0 → p.shared.msiEnabled = true ∨
        ∃ t th, p.threads t = some th ∧ th.kind.Handler ∧ Rewrites th.prog := by
  intro hall
  have hrun := Run.of_exec (endpoint sampleConfig).step sampleEndpoint swallowOps
  have hlast : (exec (endpoint sampleConfig).step sampleEndpoint swallowOps).2.shared.gate = 1 ∧
      (exec (endpoint sampleConfig).step sampleEndpoint swallowOps).2.shared.fault = 0 ∧
      (exec (endpoint sampleConfig).step sampleEndpoint swallowOps).2.shared.msiEnabled = false := by
    decide +kernel
  have hlow : ∀ t < 2, ((exec (endpoint sampleConfig).step sampleEndpoint swallowOps).2.threads
      t).isNone := by
    decide +kernel
  have hserving : ∀ e ∈ (exec (endpoint sampleConfig).step sampleEndpoint swallowOps).1, ∀ t,
      e.out ≠ .started t .close := exec_serving fun label hl t hlabel => by
    subst hlabel
    simp [swallowOps] at hl
  rcases hall _ _ _ _ sample_serving hrun hserving hlast.1 hlast.2.1 with h | ⟨t, th, ht, -⟩
  · rw [hlast.2.2] at h
    cases h
  · rw [exec_idle (fun _ => rfl) (by decide) hlow t] at ht
    cases ht

end Irq
end NvidiaGsp
