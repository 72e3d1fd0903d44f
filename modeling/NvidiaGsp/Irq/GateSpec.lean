import NvidiaGsp.Irq.Gate

/-!
# Irq.GateSpec

What each program of the endpoint may do, as an automaton. A section has the gate between `enter` and
`leave` or `disable`, and may only rearm once it saw no fault. The retirement looks for the gate,
touches the device when it has found it at 0, and ends with `true` only behind `setClosed` or when it
found `closed` set.
-/

namespace NvidiaGsp
namespace Irq

open Prog (when Only Follows)

/-- Actions that neither the gate, the fault and the retirement nor the rearm depend on. -/
def Act.Plain : Act → Prop
  | .read _ | .fields | .update _ | .loadMsi | .nowNs | .signal | .casFault _ => True
  | .write offset _ => offset ≠ reg.rearm
  | _ => False

/-- What a program looks at before it has the gate. -/
def Act.Looks : Act → Prop
  | .loadFault | .fields | .loadClosed | .resources | .nowNs => True
  | _ => False

/-- Calls of the kernel that take the endpoint apart. -/
def Act.Kernel : Act → Prop
  | .irqUnregister | .pciDisableMsi | .leaseRelease | .dropMsi => True
  | _ => False

/-- Where a program is: without the gate; in a section, that has seen no fault or may have; in the
retirement before it looked at `closed`, while it tries the gate, with the gate at 0, and closed. -/
inductive Mode where
  | outside
  | inside (clear : Bool)
  | unsure
  | seeking
  | retired
  | done

inductive Goes : Mode → (a : Act) → Res a → Mode → Prop where
  | look {a : Act} {r : Res a} : a.Looks → Goes .outside a r .outside
  | enter : Goes .outside (.casGate 1 2) (none : Option Nat) (.inside false)
  | refused (gate : Nat) : Goes .outside (.casGate 1 2) (some gate : Option Nat) .outside
  | plain {clear : Bool} {a : Act} {r : Res a} : a.Plain → Goes (.inside clear) a r (.inside clear)
  | gate (clear : Bool) (gate : Nat) : Goes (.inside clear) .loadGate gate (.inside clear)
  | fault (clear : Bool) (fault : Nat) : Goes (.inside clear) .loadFault fault (.inside clear)
  | faultless (clear : Bool) : Goes (.inside clear) .loadFault (0 : Nat) (.inside true)
  | rearm (value : Word) : Goes (.inside true) (.write reg.rearm value) () (.inside true)
  | leave (clear : Bool) : Goes (.inside clear) (.casGate 2 1) (none : Option Nat) .outside
  | ousted (clear : Bool) (gate : Nat) :
      Goes (.inside clear) (.casGate 2 1) (some gate : Option Nat) (.inside clear)
  | disable (clear : Bool) : Goes (.inside clear) (.storeGate 0) () .outside
  | closed : Goes .unsure .loadClosed true .done
  | unclosed : Goes .unsure .loadClosed false .seeking
  | found : Goes .seeking .loadGate (0 : Nat) .retired
  | seen (gate : Nat) : Goes .seeking .loadGate gate .seeking
  | ask (r : Option Nat) : Goes .seeking (.casGate 2 3) r .seeking
  | retire {gate : Nat} : gate ≠ 0 → gate ≠ 2 → gate ≠ 3 →
      Goes .seeking (.casGate gate 0) (none : Option Nat) .retired
  | lost (gate other : Nat) : Goes .seeking (.casGate gate 0) (some other : Option Nat) .seeking
  | calm {a : Act} {r : Res a} : a.Plain → Goes .retired a r .retired
  | kernel {a : Act} {r : Res a} : a.Kernel → Goes .retired a r .retired
  | close : Goes .retired .setClosed () .done

/-- What a program may end with. -/
def Final : Mode → Outcome → Prop
  | .outside, .handled _ => True
  | .outside, .configured _ => True
  | .seeking, .closed done => done = false
  | .retired, .closed done => done = false
  | .done, .closed _ => True
  | _, _ => False

/-! ## Plain pieces -/

theorem read_plain (offset : Nat) : Only Act.Plain (read offset) := .perform trivial

theorem write_plain {offset : Nat} (h : offset ≠ reg.rearm) (value : Word) :
    Only Act.Plain (write offset value) := .perform h

theorem fields_plain : Only Act.Plain fields := .perform trivial

theorem update_plain (f : Fields → Fields) : Only Act.Plain (update f) := .perform trivial

theorem latch_plain (fault : Nat) : Only Act.Plain (latch fault) := .perform trivial

theorem nowNs_plain : Only Act.Plain nowNs := .perform trivial

theorem loadMsi_plain : Only Act.Plain loadMsi := .perform trivial

theorem updateHead_plain (head : Fin maxHeads) (f : Head → Head) :
    Only Act.Plain (updateHead head f) := update_plain _

theorem leaf_plain (leaf : Fin 8) : reg.leaf + leaf.val * 4 ≠ reg.rearm := by
  have := leaf.isLt
  simp only [reg.leaf, reg.rearm]
  omega

theorem allow_plain (leaf : Fin 8) : reg.allow + leaf.val * 4 ≠ reg.rearm := by
  have := leaf.isLt
  simp only [reg.allow, reg.rearm]
  omega

theorem block_plain (leaf : Fin 8) : reg.block + leaf.val * 4 ≠ reg.rearm := by
  have := leaf.isLt
  simp only [reg.block, reg.rearm]
  omega

theorem headClear_plain (head : Fin maxHeads) : headReg.clear + head.val * 4 ≠ reg.rearm := by
  have := head.isLt
  simp only [headReg.clear, reg.rearm, maxHeads] at *
  omega

theorem headEnable_plain (head : Fin maxHeads) : headReg.enable + head.val * 4 ≠ reg.rearm := by
  have := head.isLt
  simp only [headReg.enable, reg.rearm, maxHeads] at *
  omega

theorem flush_plain (c : Config) : Only Act.Plain (flush c) := by
  unfold flush
  apply Only.bind (read_plain 0)
  intro word
  exact .ret _

theorem flushOrLatch_plain (c : Config) : Only Act.Plain (flushOrLatch c) := by
  unfold flushOrLatch
  apply Only.bind (flush_plain c)
  intro answered
  split
  · exact .ret ()
  · exact latch_plain 1

theorem signal_plain : Only Act.Plain signal := by
  unfold signal
  apply Only.bind (p := wakeSignal) (.perform trivial)
  intro status
  exact .when (latch_plain 3)

theorem enableHeads_plain (mask : Word) (heads : List (Fin maxHeads)) :
    Only Act.Plain (enableHeads mask heads) := by
  induction heads with
  | nil => exact .ret ()
  | cons head rest ih =>
    unfold enableHeads
    apply Only.bind
    · apply Only.when
      apply Only.bind (write_plain (headClear_plain head) _)
      intro _
      apply Only.bind (read_plain _)
      intro enabled
      exact write_plain (headEnable_plain head) _
    · intro _
      exact ih

theorem disableHeads_plain (mask : Word) (heads : List (Fin maxHeads)) :
    Only Act.Plain (disableHeads mask heads) := by
  induction heads with
  | nil => exact .ret ()
  | cons head rest ih =>
    unfold disableHeads
    apply Only.bind
    · apply Only.when
      apply Only.bind (read_plain _)
      intro enabled
      exact write_plain (headEnable_plain head) _
    · intro _
      exact ih

theorem enable_plain (epoch vector : Nat) (mask : Word) :
    Only Act.Plain (Display.enable epoch vector mask) := by
  unfold Display.enable
  apply Only.bind fields_plain
  intro s
  split
  · exact .ret _
  · apply Only.bind (update_plain _)
    intro _
    apply Only.bind (enableHeads_plain mask _)
    intro _
    exact .ret _

theorem disable_plain : Only Act.Plain Display.disable := by
  unfold Display.disable
  apply Only.bind fields_plain
  intro s
  apply Only.when
  apply Only.bind (disableHeads_plain _ _)
  intro _
  exact update_plain _

theorem extend_plain (epoch vector : Nat) (mask : Word) :
    Only Act.Plain (Display.extend epoch vector mask) := by
  unfold Display.extend
  apply Only.bind fields_plain
  intro s
  dsimp only
  split
  · exact .ret _
  · apply Only.bind (update_plain _)
    intro _
    apply Only.bind (enableHeads_plain _ _)
    intro _
    exact .ret _

theorem observe_plain (head : Fin maxHeads) (now : Nat) (position : Word) :
    Only Act.Plain (observe head now position) := by
  unfold observe
  apply Only.bind fields_plain
  intro s
  dsimp only
  split
  · exact .ret _
  split
  · exact .ret _
  iterate 5
    apply Only.bind (updateHead_plain head _)
    intro _
  exact .ret _

theorem observeHeads_plain (dispatch : Word) (now : Nat) (heads : List (Fin maxHeads))
    (seen : Word) : Only Act.Plain (observeHeads dispatch now heads seen) := by
  induction heads generalizing seen with
  | nil => exact .ret _
  | cons head rest ih =>
    unfold observeHeads
    split
    · exact ih seen
    apply Only.bind (read_plain _)
    intro status
    split
    · exact .ret _
    split
    · exact ih seen
    apply Only.bind (read_plain _)
    intro position
    apply Only.bind (observe_plain head now position)
    intro result
    split
    · exact .ret _
    · apply Only.bind (write_plain (headClear_plain head) _)
      intro _
      exact ih _

theorem interrupt_plain (now : Nat) : Only Act.Plain (Display.interrupt now) := by
  unfold Display.interrupt
  apply Only.bind fields_plain
  intro s
  split
  · exact .ret _
  apply Only.bind (read_plain _)
  intro dispatch
  split
  · exact .ret _
  · exact observeHeads_plain _ _ _ _

theorem pendingAt_plain (top subtree : Word) (leaf : Fin 8) (bit : Word) :
    Only Act.Plain (pendingAt top subtree leaf bit) := by
  unfold pendingAt
  split
  · apply Only.bind (read_plain _)
    intro word
    exact .ret _
  · exact .ret _

theorem displayPending_plain (top : Word) : Only Act.Plain (displayPending top) := by
  unfold displayPending
  apply Only.bind fields_plain
  intro s
  split
  · exact pendingAt_plain _ _ _ _
  · exact .ret _

theorem serveDisplay_plain : Only Act.Plain serveDisplay := by
  unfold serveDisplay
  apply Only.bind fields_plain
  intro s
  apply Only.bind (write_plain (leaf_plain _) _)
  intro _
  apply Only.bind nowNs_plain
  intro now
  apply Only.bind (interrupt_plain now)
  intro result
  split
  · exact latch_plain 4
  · exact .ret ()

theorem serveGsp_plain (c : Config) : Only Act.Plain (serveGsp c) := by
  unfold serveGsp
  apply Only.bind (write_plain (leaf_plain c.leaf) _)
  intro _
  apply Only.bind (read_plain _)
  intro status
  apply Only.bind (read_plain _)
  intro mask
  apply Only.bind (update_plain _)
  intro _
  apply Only.bind (update_plain _)
  intro _
  apply Only.bind
  · apply Only.when
    apply Only.bind (write_plain (by decide) _)
    intro _
    exact update_plain _
  intro _
  apply Only.bind
  · apply Only.when
    apply Only.bind (write_plain (by decide) _)
    intro _
    exact write_plain (by decide) _
  intro _
  apply Only.bind (.when (latch_plain 2))
  intro _
  exact .when (write_plain (by decide) _)

theorem serve_plain (c : Config) : Only Act.Plain (serve c) := by
  unfold serve
  apply Only.bind (read_plain _)
  intro top
  apply Only.bind (pendingAt_plain _ _ _ _)
  intro gspPending
  apply Only.bind (displayPending_plain top)
  intro displayPending
  split
  · exact .ret _
  apply Only.bind (update_plain _)
  intro _
  apply Only.bind (.when serveDisplay_plain)
  intro _
  apply Only.bind (.when (serveGsp_plain c))
  intro _
  apply Only.bind (flushOrLatch_plain c)
  intro _
  apply Only.bind signal_plain
  intro _
  exact .ret _

theorem handle_plain (c : Config) : Only Act.Plain (handle c) := by
  unfold handle
  apply Only.bind (write_plain (by decide) _)
  intro _
  apply Only.bind loadMsi_plain
  intro msi
  apply Only.bind (.when (write_plain (by decide) _))
  intro _
  apply Only.bind (flush_plain c)
  intro answered
  split
  · exact serve_plain c
  · apply Only.bind (latch_plain 1)
    intro _
    apply Only.bind signal_plain
    intro _
    exact .ret _

theorem apply_plain (r : Request) (vector : Nat) : Only Act.Plain (r.apply vector) := by
  unfold Request.apply
  split
  · exact extend_plain _ _ _
  · exact enable_plain _ _ _

theorem configureHeld_plain (c : Config) (r : Request) (vector : Nat) :
    Only Act.Plain (configureHeld c r vector) := by
  have hlost : Only Act.Plain (do latch 1; pure (.error .IdentityChanged) : Io (Except Error Unit)) := by
    apply Only.bind (latch_plain 1)
    intro _
    exact .ret _
  unfold configureHeld
  apply Only.bind (write_plain (by decide) _)
  intro _
  apply Only.bind (flush_plain c)
  intro answered
  split
  · apply Only.bind (update_plain _)
    intro _
    apply Only.bind (apply_plain r vector)
    intro result
    split
    · exact .ret _
    apply Only.bind fields_plain
    intro s
    apply Only.bind (write_plain (leaf_plain _) _)
    intro _
    apply Only.bind fields_plain
    intro s
    apply Only.bind (write_plain (allow_plain _) _)
    intro _
    apply Only.bind (flush_plain c)
    intro answered
    split
    · exact .ret _
    · exact hlost
  · exact hlost

theorem quiesce_plain (c : Config) : Only Act.Plain (quiesce c) := by
  unfold quiesce
  apply Only.bind (write_plain (by decide) _)
  intro _
  apply Only.bind fields_plain
  intro s
  apply Only.bind
  · apply Only.when
    apply Only.bind (write_plain (block_plain _) _)
    intro _
    apply Only.bind (flush_plain c)
    intro answered
    split
    · exact disable_plain
    · exact .ret ()
  intro _
  apply Only.bind (write_plain (block_plain c.leaf) _)
  intro _
  apply Only.bind (flush_plain c)
  intro _
  exact .ret ()

/-! ## The programs -/

section

variable {α : Type} {final : Mode → α → Prop} {clear : Bool}

/-- A plain piece of a section, then the rest. -/
theorem inside_then {β : Type} {p : Io β} {f : β → Io α} (hp : Only Act.Plain p)
    (hf : ∀ v, Follows Goes final (.inside clear) (f v)) :
    Follows Goes final (.inside clear) (p >>= f) :=
  .seq (hp.follows fun _ _ h => .plain h) hf

theorem failed_inside {f : Bool → Io α} (hfaulted : Follows Goes final (.inside clear) (f true))
    (hfree : Follows Goes final (.inside true) (f false)) :
    Follows Goes final (.inside clear) (failed >>= f) := by
  apply Follows.bind
  intro (fault : Nat)
  by_cases hfault : fault = 0
  · subst hfault
    exact ⟨.inside true, .faultless clear, hfree⟩
  · have hne : (fault != 0) = true := by simpa using hfault
    refine ⟨.inside clear, .fault clear fault, ?_⟩
    show Follows Goes final (.inside clear) (f (fault != 0))
    rw [hne]
    exact hfaulted

theorem looks_then {a : Act} {f : Res a → Io α} (ha : a.Looks)
    (hf : ∀ r, Follows Goes final .outside (f r)) :
    Follows Goes final .outside (io a >>= f) := fun r => ⟨.outside, .look ha, hf r⟩

end

theorem storeGate_follows (clear : Bool) :
    Follows Goes (fun m _ => m = .outside) (.inside clear) (storeGate 0) :=
  fun _ => ⟨.outside, .disable clear, rfl⟩

theorem rearm_follows (c : Config) :
    Follows Goes (fun m _ => m = .inside true) (.inside true) (rearm c) := by
  unfold rearm
  apply inside_then fields_plain
  intro s value
  refine ⟨.inside true, .rearm _, ?_⟩
  exact (flushOrLatch_plain c).follows fun _ _ h => .plain h

/-- The end of `leave`: the gate opens, unless it was taken meanwhile. -/
def leaveEnd : Io Unit := do
  if ← failed then storeGate 0
  else match ← casGate 2 1 with
    | none => pure ()
    | some _ => storeGate 0

theorem leave_follows (c : Config) (clear : Bool) :
    Follows Goes (fun m _ => m = .outside) (.inside clear) (leave c) := by
  have hend : ∀ clear, Follows Goes (fun m _ => m = .outside) (.inside clear) leaveEnd := by
    intro clear
    apply failed_inside
    · exact storeGate_follows clear
    · intro gate
      cases gate with
      | none => exact ⟨.outside, .leave true, rfl⟩
      | some g => exact ⟨.inside true, .ousted true g, storeGate_follows true⟩
  unfold leave
  apply failed_inside
  · exact hend clear
  · apply Follows.bind
    intro (gate : Nat)
    refine ⟨.inside true, .gate true gate, ?_⟩
    by_cases hgate : gate = 2
    · subst hgate
      exact (rearm_follows c).mono fun m _ h => h ▸ hend true
    · show Follows Goes _ _ (when (gate = 2) (rearm c))
      rw [when, if_neg hgate]
      exact hend true

/-- A section between `enter` and the end of `leave`. -/
theorem section_follows {α : Type} (c : Config) {p : Io α} (hp : Only Act.Plain p) :
    Follows Goes (fun m _ => m = .outside) (.inside false)
      (do let result ← p; leave c; pure result) := by
  apply inside_then hp
  intro result
  apply Follows.bind
  exact (leave_follows c false).mono fun _ _ h => h

theorem enter_follows {α : Type} {final : Mode → α → Prop} {f : Option Nat → Io α}
    (hrefused : ∀ gate, Follows Goes final .outside (f (some gate)))
    (henter : Follows Goes final (.inside false) (f none)) :
    Follows Goes final .outside (casGate 1 2 >>= f) := by
  intro r
  cases r with
  | none => exact ⟨.inside false, .enter, henter⟩
  | some gate => exact ⟨.outside, .refused gate, hrefused gate⟩

theorem interrupt_follows (c : Config) (irq raw : Nat) :
    Follows Goes (fun m _ => m = .outside) .outside (interrupt c irq raw) := by
  unfold interrupt
  split
  · exact rfl
  · apply enter_follows
    · intro gate
      exact rfl
    · exact section_follows c (handle_plain c)

theorem configurable_follows (c : Config) (r : Request) :
    Follows Goes (fun m _ => m = .outside) .outside (configurable c r) := by
  unfold configurable
  split
  · exact rfl
  apply looks_then (a := .fields) trivial
  intro s
  split
  · exact rfl
  apply looks_then (a := .loadClosed) trivial
  intro closed
  split
  · exact rfl
  apply looks_then (a := .loadFault) trivial
  intro (fault : Nat)
  show Follows Goes _ _ (if (fault != 0) = true then _ else _)
  split
  · exact rfl
  apply looks_then (a := .fields) trivial
  intro s
  exact rfl

theorem configureDisplay_follows (c : Config) (r : Request) :
    Follows Goes (fun m _ => m = .outside) .outside (configureDisplay c r) := by
  unfold configureDisplay
  apply Follows.seq (configurable_follows c r)
  intro ok
  split
  · split
    · exact rfl
    · apply looks_then (a := .resources) trivial
      intro available
      split
      · apply looks_then (a := .nowNs) trivial
        intro now
        split
        · exact rfl
        apply enter_follows
        · intro gate
          exact rfl
        · exact section_follows c (configureHeld_plain c r _)
      · exact rfl
  · exact rfl

theorem seize_follows (tries : Nat) :
    Follows Goes (fun m retired => m = if retired then .retired else .seeking) .seeking
      (seize tries) := by
  induction tries with
  | zero => exact rfl
  | succ tries ih =>
    intro (gate : Nat)
    by_cases h0 : gate = 0
    · subst h0
      exact ⟨.retired, .found, rfl⟩
    refine ⟨.seeking, .seen gate, ?_⟩
    show Follows Goes _ _ (if gate = 0 then _ else if gate = 3 then _ else _)
    rw [if_neg h0]
    split
    · exact rfl
    rename_i h3
    by_cases h2 : gate = 2
    · subst h2
      intro r
      refine ⟨.seeking, .ask r, ?_⟩
      cases r with
      | none => exact rfl
      | some other => exact ih
    · rw [if_neg h2]
      intro r
      cases r with
      | none =>
        refine ⟨.retired, .retire h0 h2 h3, ?_⟩
        have hne : (gate != 2) = true := by simpa using h2
        show Mode.retired = if (gate != 2) = true then _ else _
        rw [if_pos hne]
      | some other => exact ⟨.seeking, .lost gate other, ih⟩

section

variable {α : Type} {final : Mode → α → Prop}

theorem retired_then {β : Type} {p : Io β} {f : β → Io α} (hp : Only Act.Plain p)
    (hf : ∀ v, Follows Goes final .retired (f v)) : Follows Goes final .retired (p >>= f) :=
  .seq (hp.follows fun _ _ h => .calm h) hf

theorem kernel_then {a : Act} {f : Res a → Io α} (ha : a.Kernel)
    (hf : ∀ r, Follows Goes final .retired (f r)) : Follows Goes final .retired (io a >>= f) :=
  fun r => ⟨.retired, .kernel ha, hf r⟩

end

theorem unregister_follows :
    Follows Goes (fun m _ => m = .retired) .retired unregister := by
  unfold unregister
  apply retired_then fields_plain
  intro s
  split
  · apply kernel_then (a := .irqUnregister) trivial
    intro status
    apply retired_then (update_plain _)
    intro _
    split
    · exact rfl
    · apply retired_then (update_plain _)
      intro _
      exact rfl
  · exact rfl

theorem disableMsi_follows :
    Follows Goes (fun m _ => m = .retired) .retired disableMsi := by
  unfold disableMsi
  apply retired_then loadMsi_plain
  intro msi
  split
  · apply kernel_then (a := .pciDisableMsi) trivial
    intro status
    apply retired_then (update_plain _)
    intro _
    split
    · exact rfl
    · apply kernel_then (a := .dropMsi) trivial
      intro _
      exact rfl
  · exact rfl

theorem teardown_follows (c : Config) :
    Follows Goes (fun m closed => m = if closed then .done else .retired) .retired (teardown c) := by
  unfold teardown
  apply retired_then fields_plain
  intro s
  apply retired_then (.when (quiesce_plain c))
  intro _
  apply Follows.seq unregister_follows
  intro unregistered
  split
  · apply retired_then fields_plain
    intro s
    split
    · exact rfl
    apply Follows.seq disableMsi_follows
    intro disabled
    split
    · apply kernel_then (a := .leaseRelease) trivial
      intro released
      split
      · exact fun _ => ⟨.done, .close, rfl⟩
      · exact rfl
    · exact rfl
  · exact rfl

theorem close_follows (c : Config) :
    Follows Goes (fun m closed => Final m (.closed closed)) .unsure (close c) := by
  unfold close
  have hself : c.selfAddress ≠ 0 := c.opened ▸ c.address_ne
  rw [if_neg hself]
  intro closed
  cases closed with
  | true => exact ⟨.done, .closed, trivial⟩
  | false =>
    refine ⟨.seeking, .unclosed, ?_⟩
    show Follows Goes _ _ (if c.selfAddress ≠ c.address then _ else _)
    rw [if_neg (not_not.mpr c.opened)]
    apply Follows.bind
    refine (seize_follows 4).mono ?_
    intro m retired hm
    cases retired with
    | true =>
      subst hm
      refine (teardown_follows c).mono ?_
      intro m closed hm
      cases closed <;> subst hm <;> trivial
    | false =>
      subst hm
      exact rfl

/-- Where a program begins. -/
def Kind.mode : Kind → Mode
  | .close => .unsure
  | _ => .outside

theorem program_follows (c : Config) (kind : Kind) :
    Follows Goes Final kind.mode (program c kind) := by
  cases kind with
  | interrupt irq raw =>
    exact .bind ((interrupt_follows c irq raw).mono fun _ _ h => h ▸ trivial)
  | message =>
    exact .bind ((interrupt_follows c c.irq c.selfAddress).mono fun _ _ h => h ▸ trivial)
  | configure request =>
    exact .bind ((configureDisplay_follows c request).mono fun _ _ h => h ▸ trivial)
  | close => exact .bind ((close_follows c).mono fun _ _ h => h)

end Irq
end NvidiaGsp
