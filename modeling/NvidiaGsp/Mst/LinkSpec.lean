import NvidiaGsp.Mst.LinkSteps

/-!
# Mst.LinkSpec

What one call of the link work keeps. `Inv` says that the receipts of the stages passed ascend, that
the journal knows of the effects, and that the trained link is the one the journal will install.
-/

namespace NvidiaGsp
namespace Mst
namespace LinkWork

open Call Ladder
open Payload
open Link (Fault Request Reply AuxReply SideReply Ports Root)

set_option linter.unusedSectionVars false

variable {D : Type} [DecidableEq D] {R S U : Type} {w w' : World D S} {serial now : Nat}

/-- The journal has been told of a changing query; only a failed work is retained. -/
structure Exposed (w : World D S) : Prop where
  told : w.root.tx.journal.firstPosted ≠ 0
  phase : w.root.tx.journal.phase = .posted ∨ w.work.failure.isSome = true

/-- The journal is the work's while it has neither failed nor finished. -/
structure Held (w : World D S) : Prop where
  token : w.root.tx.journal.token = some w.work.token
  last : w.root.tx.journal.lastReceipt = w.work.lastReceipt
  phase : w.root.tx.journal.phase = .reserved ∨ w.root.tx.journal.phase = .posted
  link : ∀ t ∈ w.work.training, t.link = w.root.tx.journal.target.link

structure Inv (w : World D S) : Prop where
  climbed : Climbed w.work.mark (rank w.work.stage) w.work.lastReceipt
  posted : 2 ≤ rank w.work.stage → Exposed w
  exposed : w.work.request.isSome = true → w.work.requestPosted = true →
    mutating w.work.stage = true → Exposed w
  held : w.work.failure = none → w.work.stage ≠ .complete → Held w
  side : w.work.sideband.isSome = true → packets w.work.stage = true

/-! ## Statements -/

section

variable {α β : Type} {Q : β → World D S → Prop} {E : Fault → World D S → Prop}

theorem onWork_bind {g : Work D S → Work D S} {f : Unit → Op D S β}
    (h : Spec (f ()) { w with work := g w.work } Q E) : Spec (onWork g >>= f) w Q E := h

theorem onRoot_bind {g : Root D → Root D} {f : Unit → Op D S β}
    (h : Spec (f ()) { w with root := g w.root } Q E) : Spec (onRoot g >>= f) w Q E := h

theorem onJournal_bind {x : Transaction.Op D α} {f : α → Op D S β} (hx : Atomic x)
    (he : ∀ e tx, x w.root.tx = .error e tx → E (.error e) w)
    (hok : ∀ a tx, x w.root.tx = .ok a tx →
      Spec (f a) { w with root := { w.root with tx := tx } } Q E) :
    Spec (onJournal x >>= f) w Q E := by
  refine .bind (.zoom ?_)
  refine .intro (fun a tx h => hok a tx h) fun e tx h => ?_
  have := he e tx h
  rw [hx _ _ _ h]
  exact this

end

/-! ## Parts of the invariant -/

/-- Nothing that the invariant speaks of has changed but query and sideband. -/
structure Quiet (w w' : World D S) : Prop where
  journal : w'.root.tx.journal = w.root.tx.journal
  stage : w'.work.stage = w.work.stage
  token : w'.work.token = w.work.token
  last : w'.work.lastReceipt = w.work.lastReceipt
  failure : w'.work.failure = w.work.failure
  receipts : SameBut 6 w.work w'.work

theorem Exposed.quiet (h : Exposed w) (hq : Quiet w w') : Exposed w' where
  told := hq.journal ▸ h.told
  phase := by rw [hq.journal, hq.failure]; exact h.phase

theorem Inv.quiet (hi : Inv w) (hq : Quiet w w')
    (hreq : w'.work.request.isSome = true → w'.work.requestPosted = true →
      w.work.request.isSome = true ∧ w.work.requestPosted = true)
    (hside : w'.work.sideband.isSome = true → packets w'.work.stage = true) : Inv w' where
  climbed := by
    rw [hq.stage, hq.last]
    exact hi.climbed.keep le_rfl le_rfl fun i h => hq.receipts.mark i (by
      have := rank_le w.work.stage
      omega)
  posted h := (hi.posted (hq.stage ▸ h)).quiet hq
  exposed h₁ h₂ h₃ := (hi.exposed (hreq h₁ h₂).1 (hreq h₁ h₂).2 (hq.stage ▸ h₃)).quiet hq
  held h₁ h₂ := by
    have h := hi.held (hq.failure ▸ h₁) (hq.stage ▸ h₂)
    refine ⟨?_, ?_, ?_, ?_⟩
    · rw [hq.journal, hq.token]
      exact h.token
    · rw [hq.journal, hq.last]
      exact h.last
    · rw [hq.journal]
      exact h.phase
    · rw [hq.journal, hq.receipts.training (by decide)]
      exact h.link
  side := hside

/-- A failed work promises less. -/
theorem Inv.fail (hi : Inv w) (e : Fault) :
    Inv { w with work := { w.work with failure := some e } } where
  climbed := hi.climbed.keep le_rfl le_rfl fun i _ => by
    match i with
    | 0 | 1 | 2 | 3 | 4 | 5 | _ + 6 => rfl
  posted h := ⟨(hi.posted h).told, .inr rfl⟩
  exposed h₁ h₂ h₃ := ⟨(hi.exposed h₁ h₂ h₃).told, .inr rfl⟩
  held h := by cases h
  side := hi.side

theorem failing_spec {α : Type} {x : Op D S α} {Q : α → World D S → Prop}
    (h : Spec x w Q fun _ w' => Inv w') : Spec (failing x) w Q fun _ w' => Inv w' := by
  unfold Spec failing at *
  cases hx : x w with
  | ok a w' =>
    rw [hx] at h
    exact h
  | error e w' =>
    rw [hx] at h
    exact h.fail e

/-! ## Guard and queries -/

variable {env : Transaction.Env D} {ports : Ports R S U}

/-- What the guard has checked. -/
structure Guarded (env : Transaction.Env D) (w : World D S) : Prop where
  healthy : w.work.failure = none
  unfinished : w.work.stage ≠ .complete
  valid : Transaction.Valid env w.work.token w.root.tx

theorem guard_spec {Q : World D S → Prop} (hq : Guarded env w → Q w) :
    Spec (guard env now) w (fun _ w' => Q w') fun _ w' => w' = w := by
  unfold guard
  apply Spec.get_bind
  refine Spec.failIf_bind (fun _ => rfl) fun hf => ?_
  refine Spec.failIf_bind (fun _ => rfl) fun _ => ?_
  refine onJournal_bind (Transaction.readOnly_validate _).atomic (fun _ _ _ => rfl) fun _ tx htx => ?_
  obtain ⟨rfl, hv⟩ := Transaction.validate_ok htx
  apply Spec.intro
  · intro _ w' h
    rw [(failIf_ok_iff.1 h).2]
    simp only [not_or, Bool.not_eq_true, Option.isSome_eq_false_iff, Option.isNone_iff_eq_none] at hf
    exact hq ⟨hf.1, hf.2, hv⟩
  · intro _ w' h
    exact (failIf_error_iff.1 h).2.2

theorem openSideband_spec :
    Spec (openSideband ports) w (fun _ w' => Quiet w w' ∧ w'.work.request = w.work.request ∧
      w'.work.requestPosted = w.work.requestPosted) fun _ w' => w' = w := by
  unfold openSideband
  apply Spec.get_bind
  cases w.work.sideband with
  | some s => exact Spec.pure ⟨⟨rfl, rfl, rfl, rfl, rfl, by constructor <;> intro <;> rfl⟩, rfl, rfl⟩
  | none =>
    refine Spec.failIf_bind (fun _ => rfl) fun _ => ?_
    refine Spec.lift_bind (fun _ _ => rfl) fun _ _ => ?_
    refine Spec.lift_bind (fun _ _ => rfl) fun _ _ => ?_
    apply onWork_bind
    exact Spec.pure ⟨⟨rfl, rfl, rfl, rfl, rfl, by constructor <;> intro <;> rfl⟩, rfl, rfl⟩

/-- The query is out of the way of everything else. -/
structure Asks (w w' : World D S) : Prop extends Quiet w w' where
  request : w'.work.request = w.work.request
  posted : w'.work.requestPosted = w.work.requestPosted
  side : w'.work.sideband.isSome = true → packets w.work.stage = true

theorem select_spec (hi : Inv w) :
    Spec (select ports now) w (fun _ w' => Asks w w') fun _ w' => Asks w w' := by
  unfold select
  apply Spec.get_bind
  split
  · rename_i hs
    unfold sidebandQuery
    have hsame : Asks w w :=
      ⟨⟨rfl, rfl, rfl, rfl, rfl, by constructor <;> intro <;> rfl⟩, rfl, rfl, fun _ => hs⟩
    refine Spec.seq openSideband_spec (fun s w₁ h₁ => ?_) fun _ w₁ h₁ => by rwa [h₁]
    obtain ⟨hq, hr, hp⟩ := h₁
    apply Spec.get_bind
    apply onWork_bind
    have hasks : Asks w { w₁ with work := { w₁.work with
        sideband := some (ports.downPrepare s w₁.work.token.generation now).2 } } :=
      ⟨⟨hq.journal, hq.stage, hq.token, hq.last, hq.failure,
        ⟨hq.receipts.training, hq.receipts.source, hq.receipts.table, hq.receipts.act,
          hq.receipts.packet, hq.receipts.branch⟩⟩, hr, hp, fun _ => hs⟩
    exact Spec.lift_bind (fun _ _ => hasks) fun _ _ => Spec.pure hasks
  · rename_i hs
    have hnone : w.work.sideband = none := by
      cases h : w.work.sideband with
      | none => rfl
      | some s => exact absurd (hi.side (by rw [h]; rfl)) hs
    have hasks : Asks w { w with work := w.work.aim w.root } := by
      unfold Work.aim
      split
      · exact ⟨⟨rfl, rfl, rfl, rfl, rfl, by constructor <;> intro <;> rfl⟩, rfl, rfl,
          fun h => by simp [hnone] at h⟩
      · exact ⟨⟨rfl, rfl, rfl, rfl, rfl, by constructor <;> intro <;> rfl⟩, rfl, rfl,
          fun h => by simp [hnone] at h⟩
    apply onWork_bind
    exact Spec.lift_bind (fun _ _ => hasks) fun _ _ => Spec.pure hasks

theorem Inv.asks (hi : Inv w) (h : Asks w w') : Inv w' :=
  hi.quiet h.toQuiet (fun h₁ h₂ => ⟨h.request ▸ h₁, h.posted ▸ h₂⟩) fun hs => h.stage ▸ h.side hs

theorem hold_spec {request : Request} (hi : Inv w) :
    Spec (hold request) w (fun _ w' => Inv w') fun _ w' => Inv w' := by
  unfold hold
  apply Spec.get_bind
  refine Spec.failIf_bind (fun _ => hi) fun _ => ?_
  exact hi.quiet ⟨rfl, rfl, rfl, rfl, rfl, by constructor <;> intro <;> rfl⟩ (fun _ h => by cases h)
    hi.side

theorem prepare_inv (hi : Inv w) :
    Spec (prepare env ports now) w (fun _ w' => Inv w') fun _ w' => Inv w' := by
  unfold prepare
  refine Spec.seq (guard_spec (Q := fun w' => w' = w) fun _ => rfl) ?_ fun _ w' h => h ▸ hi
  intro _ w₁ h₁
  rw [h₁]
  apply onWork_bind
  have hpin : Inv { w with work := { w.work with pinned := true } } :=
    hi.quiet ⟨rfl, rfl, rfl, rfl, rfl, by constructor <;> intro <;> rfl⟩ (fun h₁ h₂ => ⟨h₁, h₂⟩) hi.side
  apply Spec.get_bind
  refine Spec.failIf_bind (fun _ => hpin) fun _ => ?_
  split
  · exact Spec.pure hpin
  · refine Spec.seq (select_spec hpin) (fun request w₁ h₁ => ?_) fun _ w₁ h₁ => hpin.asks h₁
    cases request with
    | none => exact Spec.pure (hpin.asks h₁)
    | some request =>
      refine Spec.seq (hold_spec (hpin.asks h₁)) (fun _ w₂ h₂ => Spec.pure h₂) fun _ _ h => h

/-! ## Submission -/

theorem posted_journal {t : Transaction.Token D} {n : Nat} {tx tx' : Transaction.World D} {u : Unit}
    (h : Transaction.posted t n tx = .ok u tx') :
    tx' = { tx with journal := { tx.journal with
      firstPosted := if tx.journal.firstPosted = 0 then n else tx.journal.firstPosted
      phase := if tx.journal.phase = .reserved then .posted else tx.journal.phase } } ∧ n ≠ 0 := by
  simp only [Transaction.posted, bind_ok_iff, get_apply, failIf_ok_iff,
    Transaction.setJournal_apply] at h
  obtain ⟨_, _, h₀, _, _, ⟨hg, rfl⟩, h₁⟩ := h
  cases h₀; cases h₁
  exact ⟨rfl, fun hn => hg (.inr (.inl hn))⟩

theorem expose_spec (hi : Inv w) :
    Spec (expose : Op D S Unit) w (fun _ w' => Inv w' ∧ (mutating w.work.stage = true → Exposed w') ∧
      w'.work = w.work) fun _ w' => w' = w := by
  unfold expose
  apply Spec.get_bind
  split
  · rename_i hs
    unfold onJournal
    apply Spec.zoom
    apply Spec.intro
    · intro _ tx htx
      obtain ⟨rfl, hn⟩ := posted_journal htx
      have hopen : w.work.stage ≠ .complete := by
        intro hc
        rw [hc] at hs
        cases hs
      have hexposed : Exposed { w with root := { w.root with tx := { w.root.tx with journal :=
          { w.root.tx.journal with
            firstPosted := if w.root.tx.journal.firstPosted = 0 then w.work.requestSerial
              else w.root.tx.journal.firstPosted
            phase := if w.root.tx.journal.phase = .reserved then .posted
              else w.root.tx.journal.phase } } } } := by
        constructor
        · dsimp only
          split
          · exact hn
          · assumption
        · cases hf : w.work.failure with
          | some e => exact .inr rfl
          | none =>
            rcases (hi.held hf hopen).phase with hp | hp
            · exact .inl (if_pos hp)
            · left
              dsimp only
              rw [hp]
              rfl
      refine ⟨⟨hi.climbed, fun _ => hexposed, fun _ _ _ => hexposed, fun hf ho => ?_, hi.side⟩,
        fun _ => hexposed, rfl⟩
      have h := hi.held hf ho
      refine ⟨h.token, h.last, ?_, h.link⟩
      rcases hexposed.phase with hp | hp
      · exact .inr hp
      · rw [show w.work.failure = none from hf] at hp
        cases hp
    · intro e tx htx
      rw [Transaction.atomic_posted _ _ _ _ _ htx]
  · rename_i hs
    exact Spec.pure ⟨hi, fun h => absurd h hs, rfl⟩

theorem submitted_inv (hi : Inv w) :
    Spec (submitted ports) w (fun _ w' => Inv w') fun _ w' => Inv w' := by
  unfold submitted
  apply Spec.get_bind
  refine Spec.failIf_bind (fun _ => hi) fun _ => ?_
  refine Spec.need_bind (fun _ => hi) fun request _ => ?_
  split
  · exact Spec.pure hi
  · refine Spec.seq (expose_spec hi) (fun _ w₁ h₁ => ?_) fun _ w₁ h₁ => by rwa [h₁]
    obtain ⟨hi₁, hx, hw⟩ := h₁
    have hposted : Inv { w₁ with work := { w₁.work with requestPosted := true } } :=
      { climbed := hi₁.climbed.keep le_rfl le_rfl fun i _ => by
          match i with
          | 0 | 1 | 2 | 3 | 4 | 5 | _ + 6 => rfl
        posted := fun h => ⟨(hi₁.posted h).told, (hi₁.posted h).phase⟩
        exposed := fun _ _ h => ⟨(hx (hw ▸ h)).told, (hx (hw ▸ h)).phase⟩
        held := fun h₁ h₂ =>
          have h := hi₁.held h₁ h₂
          ⟨h.token, h.last, h.phase, h.link⟩
        side := hi₁.side }
    apply onWork_bind
    have hroot : ∀ r : Root D, r.tx.journal = w₁.root.tx.journal →
        Inv { w₁ with root := r, work := { w₁.work with requestPosted := true } } := fun r hr =>
      hposted.quiet ⟨hr, rfl, rfl, rfl, rfl, by constructor <;> intro <;> rfl⟩ (fun h₁ h₂ => ⟨h₁, h₂⟩)
        hposted.side
    refine hroot _ ?_
    split <;> rfl

/-! ## Replies -/

/-- A reply has been acknowledged and the guard has passed. -/
structure Answering (serial : Nat) (w : World D S) : Prop where
  climbed : ∃ bound < serial, Climbed w.work.mark (rank w.work.stage) bound
  last : w.work.lastReceipt = serial
  request : w.work.request = none
  healthy : w.work.failure = none
  unfinished : w.work.stage ≠ .complete
  posted : 2 ≤ rank w.work.stage ∨ mutating w.work.stage = true → Exposed w
  held : Held w
  side : w.work.sideband.isSome = true → packets w.work.stage = true

theorem Answering.inv (h : Answering serial w) : Inv w where
  climbed := by
    obtain ⟨bound, hb, hc⟩ := h.climbed
    exact hc.keep le_rfl (by rw [h.last]; omega) fun _ _ => rfl
  posted hr := h.posted (.inl hr)
  exposed hr := by simp [h.request] at hr
  held _ _ := h.held
  side := h.side

/-- A work that is complete promises nothing. -/
theorem inv_of_complete (hc : w.work.stage = .complete) (hr : w.work.request = none)
    (hs : w.work.sideband = none) : Inv w where
  climbed := by
    rw [hc]
    exact .ground
  posted h := by
    rw [hc] at h
    exact absurd h (by decide)
  exposed h := by simp [hr] at h
  held _ h := absurd hc h
  side h := by simp [hs] at h

theorem retarget_journal {t t' : Transaction.Token D} {desired : Budget} {n : Nat}
    {tx tx' : Transaction.World D} (h : Transaction.retargetTraining env t desired n tx = .ok t' tx') :
    tx' = { tx with journal := { tx.journal with target := desired, token := some t' } } := by
  simp only [Transaction.retargetTraining, bind_ok_iff, get_apply, failIf_ok_iff, lift_ok_iff,
    Transaction.setJournal_apply, pure_apply] at h
  obtain ⟨_, w₁, hval, _, _, h₀, _, _, ⟨-, rfl⟩, _, _, ⟨-, rfl⟩, _, _, ⟨-, rfl⟩, _, _, ⟨-, rfl⟩,
    after, _, ⟨-, rfl⟩, _, _, h₁, h₂⟩ := h
  obtain ⟨rfl, -⟩ := Transaction.validate_ok hval
  cases h₀; cases h₁; cases h₂
  rfl

theorem fallback_inv (ha : Answering serial w) (hside : w.work.sideband = none) :
    Spec (fallback env ports serial) w (fun _ w' => Inv w') fun _ w' => Inv w' := by
  unfold fallback
  apply Spec.get_bind
  refine Spec.failIf_bind (fun _ => ha.inv) fun hc => ?_
  refine Spec.lift_bind (fun _ _ => ha.inv) fun _ _ => ?_
  refine Spec.need_bind (fun _ => ha.inv) fun _ _ => ?_
  refine onJournal_bind (Transaction.atomic_retargetTraining _ _ _) (fun _ _ _ => ha.inv)
    fun t tx htx => ?_
  rw [retarget_journal htx]
  simp only [Work.Committed, not_or, Bool.not_eq_true, Option.isSome_eq_false_iff,
    Option.isNone_iff_eq_none] at hc
  have htraining : w.work.training = none := hc.2.2.2.2.2.1
  exact
    { climbed := .ground
      posted := fun h => absurd h (by show ¬ 2 ≤ rank .train; decide)
      exposed := fun h => by
        rw [show (w.work.move .train).request = none from ha.request] at h
        cases h
      held := fun _ _ => ⟨rfl, ha.held.last, ha.held.phase, fun t h => by
        rw [show (w.work.move .train).training = none from htraining] at h
        cases h⟩
      side := fun h => by
        rw [show (w.work.move .train).sideband = none from hside] at h
        cases h }

theorem commit_inv (ha : Answering serial w) (hside : w.work.sideband = none) :
    Spec (commit env ports serial) w (fun _ w' => Inv w') fun _ w' => Inv w' := by
  unfold commit
  apply Spec.get_bind
  refine Spec.need_bind (fun _ => ha.inv) fun _ _ => ?_
  refine Spec.failIf_bind (fun _ => ha.inv) fun _ => ?_
  refine onJournal_bind (Transaction.atomic_commit _ _ _) (fun _ _ _ => ha.inv) fun _ tx _ => ?_
  exact inv_of_complete rfl ha.request hside

theorem Goes.inv {x : Work D S} (hg : Goes w.root w.work x serial) (ha : Answering serial w)
    (hside : w.work.sideband = none) : Inv { w with work := x } := by
  have hexposed : 2 ≤ rank x.stage → Exposed { w with work := x } := fun h =>
    ⟨(ha.posted (hg.earned h)).told, by
      show _ ∨ x.failure.isSome = true
      rw [hg.failure]
      exact (ha.posted (hg.earned h)).phase⟩
  have hrequest : x.request = none := hg.request.trans ha.request
  have hnone : x.sideband = none := hg.sideband.trans hside
  refine ⟨?_, hexposed, fun h => ?_, fun _ _ => ⟨?_, ?_, ha.held.phase, fun t ht => ?_⟩, fun h => ?_⟩
  · obtain ⟨bound, hb, hc⟩ := ha.climbed
    show Climbed x.mark (rank x.stage) x.lastReceipt
    rw [hg.last, ha.last]
    exact hg.climbed bound hc hb
  · rw [show x.request = none from hrequest] at h
    cases h
  · exact ha.held.token.trans (congrArg some hg.token.symm)
  · exact ha.held.last.trans hg.last.symm
  · exact (hg.training t ht).elim (ha.held.link t) id
  · rw [show x.sideband = none from hnone] at h
    cases h

theorem proceed_inv {next : Root D → Work D S → Except Fault (Next D S)} (ha : Answering serial w)
    (hside : w.work.sideband = none)
    (hnext : ∀ x, next w.root w.work = .ok (.work x) → Goes w.root w.work x serial) :
    Spec (proceed env ports serial next) w (fun _ w' => Inv w') fun _ w' => Inv w' := by
  unfold proceed
  apply Spec.get_bind
  cases hn : next w.root w.work with
  | error e => exact Spec.throw ha.inv
  | ok n =>
    cases n with
    | work x => exact (hnext x hn).inv ha hside
    | fallback => exact fallback_inv ha hside
    | commit => exact commit_inv ha hside

/-- Sideband and mailbox are no part of what a reply relies on. -/
theorem Answering.sideband (ha : Answering serial w) {o : Option S}
    (ho : o.isSome = true → packets w.work.stage = true) {r : Root D}
    (hr : r.tx = w.root.tx) : Answering serial ⟨r, { w.work with sideband := o }⟩ where
  climbed := by
    obtain ⟨bound, hb, hc⟩ := ha.climbed
    exact ⟨bound, hb, hc.keep le_rfl le_rfl fun i _ => by
      match i with
      | 0 | 1 | 2 | 3 | 4 | 5 | _ + 6 => rfl⟩
  last := ha.last
  request := ha.request
  healthy := ha.healthy
  unfinished := ha.unfinished
  posted h := ⟨by rw [hr]; exact (ha.posted h).told, by rw [hr]; exact (ha.posted h).phase⟩
  held := ⟨by rw [hr]; exact ha.held.token, by rw [hr]; exact ha.held.last,
    by rw [hr]; exact ha.held.phase, by rw [hr]; exact ha.held.link⟩
  side := ho

theorem finishSideband_inv {s : S} (ha : Answering serial w) :
    Spec (finishSideband env ports s serial) w (fun _ w' => Inv w') fun _ w' => Inv w' := by
  unfold finishSideband
  refine Spec.lift_bind (fun _ _ => ha.inv) fun response _ => ?_
  apply onRoot_bind
  apply onWork_bind
  have hdone := ha.sideband (o := none) nofun (r := { w.root with
    mailboxPending := false
    mailboxDeadline := 0
    sequence := w.root.sequence ^^^ 1 }) rfl
  refine Spec.failIf_bind (fun _ => hdone.inv) fun _ => ?_
  refine Spec.failIf_bind (fun _ => hdone.inv) fun _ => ?_
  refine proceed_inv hdone rfl fun x hx => ?_
  obtain ⟨y, hy, he⟩ := map_ok.1 hx
  cases he
  exact sideAnswered_goes hy

theorem consumeSideband_inv {s : S} {observation : AuxReply} (ha : Answering serial w)
    (hs : packets w.work.stage = true) :
    Spec (consumeSideband env ports s observation serial now) w (fun _ w' => Inv w')
      fun _ w' => Inv w' := by
  unfold consumeSideband
  apply Spec.get_bind
  dsimp only
  apply onWork_bind
  have htaken : ∀ o : Option S, Answering serial (⟨w.root, { w.work with sideband := o }⟩ : World D S) :=
    fun o => ha.sideband (fun _ => hs) rfl
  refine Spec.lift_bind (fun _ _ => (htaken _).inv) fun _ _ => ?_
  split
  · exact finishSideband_inv (htaken _)
  · exact Spec.pure (htaken _).inv

theorem respond_inv {request : Request} {response : Reply} (ha : Answering serial w) :
    Spec (respond env ports request response serial now) w (fun _ w' => Inv w')
      fun _ w' => Inv w' := by
  unfold respond
  apply Spec.get_bind
  cases hs : w.work.sideband with
  | some s =>
    dsimp only
    split
    · exact consumeSideband_inv ha (ha.side (by rw [hs]; rfl))
    · exact Spec.throw ha.inv
  | none =>
    dsimp only
    split
    · refine proceed_inv ha hs fun x hx => ?_
      obtain ⟨y, hy, he⟩ := map_ok.1 hx
      cases he
      exact pollLater_goes hy ha.unfinished
    · exact proceed_inv ha hs fun x hx => transferred_goes hx ha.unfinished
    · exact proceed_inv ha hs fun x hx => answered_goes hx

/-! ## Consumption -/

theorem receipt_journal {t : Transaction.Token D} {n : Nat} {tx tx' : Transaction.World D} {u : Unit}
    (h : Transaction.receipt t n tx = .ok u tx') :
    tx' = { tx with journal := { tx.journal with lastReceipt := n } } := by
  simp only [Transaction.receipt, bind_ok_iff, get_apply, failIf_ok_iff,
    Transaction.setJournal_apply] at h
  obtain ⟨_, _, h₀, _, _, ⟨-, rfl⟩, h₁⟩ := h
  cases h₀; cases h₁
  rfl

/-- The journal of a work that goes on takes the next receipt. -/
theorem Held.receipt (h : Held w) (hs : w.work.lastReceipt < serial) :
    Transaction.receipt w.work.token serial w.root.tx =
      .ok () { w.root.tx with journal := { w.root.tx.journal with lastReceipt := serial } } := by
  unfold Transaction.receipt
  rw [bind_apply, get_apply]
  dsimp only
  rw [bind_apply, failIf_of_not]
  · rfl
  · have := h.last
    rw [h.token]
    rcases h.phase with hp | hp <;> rw [hp] <;> simp <;> omega

/-- The work with a reply taken in. -/
def taken (w : World D S) (serial : Nat) : World D S where
  root := { w.root with tx := { w.root.tx with
    journal := { w.root.tx.journal with lastReceipt := serial } } }
  work := { w.work with request := none, lastReceipt := serial }

theorem taken_answering (hi : Inv w) (hr : w.work.request.isSome = true)
    (hp : w.work.requestPosted = true) (hs : w.work.lastReceipt < serial)
    (hf : w.work.failure = none) (ho : w.work.stage ≠ .complete) : Answering serial (taken w serial) where
  climbed := ⟨w.work.lastReceipt, hs, hi.climbed.keep le_rfl le_rfl fun i _ => by
    match i with
    | 0 | 1 | 2 | 3 | 4 | 5 | _ + 6 => rfl⟩
  last := rfl
  request := rfl
  healthy := hf
  unfinished := ho
  posted h := by
    have hx : Exposed w := h.elim hi.posted (hi.exposed hr hp)
    exact ⟨hx.told, hx.phase⟩
  held :=
    have h := hi.held hf ho
    ⟨h.token, rfl, h.phase, h.link⟩
  side := hi.side

theorem taken_inv (hi : Inv w) (hs : w.work.lastReceipt < serial)
    (hd : w.work.failure.isSome = true ∨ w.work.stage = .complete) (r : Root D)
    (hr : ∃ n, r.tx.journal = { w.root.tx.journal with lastReceipt := n }) :
    Inv (⟨r, { w.work with request := none, lastReceipt := serial }⟩ : World D S) where
  climbed := hi.climbed.keep le_rfl hs.le fun i _ => by
    match i with
    | 0 | 1 | 2 | 3 | 4 | 5 | _ + 6 => rfl
  posted h := by
    obtain ⟨n, hr⟩ := hr
    exact ⟨by rw [hr]; exact (hi.posted h).told, by rw [hr]; exact (hi.posted h).phase⟩
  exposed h := by cases h
  held hf ho := by
    rcases hd with hd | hd
    · rw [show w.work.failure = none from hf] at hd
      cases hd
    · exact absurd hd ho
  side := hi.side

theorem consume_inv {record : R} (hi : Inv w) :
    Spec (consume env ports record serial now) w (fun _ w' => Inv w') fun _ w' => Inv w' := by
  unfold consume
  apply Spec.get_bind
  refine Spec.need_bind (fun _ => hi) fun request hr => ?_
  refine Spec.failIf_bind (fun _ => hi) fun hg => ?_
  simp only [not_or, not_le, Bool.not_eq_false] at hg
  obtain ⟨hp, -, hs⟩ := hg
  apply onWork_bind
  by_cases hlive : w.work.failure = none ∧ w.work.stage ≠ .complete
  · -- the work goes on: the receipt passes, and the reply is answered
    have ha := taken_answering hi (by rw [hr]; rfl) hp hs hlive.1 hlive.2
    refine onJournal_bind (Transaction.atomic_receipt _ _) (fun e tx h => ?_) fun _ tx h => ?_
    · rw [(hi.held hlive.1 hlive.2).receipt hs] at h
      cases h
    · rw [receipt_journal h]
      apply failing_spec
      refine Spec.seq (guard_spec (Q := fun w' => w' = taken w serial) fun _ => rfl) ?_
        fun _ w' h => by rw [h]; exact ha.inv
      intro _ w₁ h₁
      rw [h₁]
      refine Spec.lift_bind (fun _ _ => ha.inv) fun response _ => ?_
      exact respond_inv ha
  · -- a work that has failed or finished is refused
    have hd : w.work.failure.isSome = true ∨ w.work.stage = .complete := by
      by_cases hf : w.work.failure = none
      · exact .inr (by simpa [hf] using hlive)
      · exact .inl (Option.isSome_iff_ne_none.mpr hf)
    refine onJournal_bind (Transaction.atomic_receipt _ _) (fun e tx h => ?_) fun _ tx h => ?_
    · exact taken_inv hi hs hd _ ⟨w.root.tx.journal.lastReceipt, rfl⟩
    · rw [receipt_journal h]
      have htaken := taken_inv hi hs hd { w.root with tx := { w.root.tx with
        journal := { w.root.tx.journal with lastReceipt := serial } } } ⟨serial, rfl⟩
      apply failing_spec
      unfold guard
      refine Spec.seq (Q := fun _ _ => False) ?_ (fun _ _ h => h.elim) fun _ _ h => h
      apply Spec.get_bind
      exact Spec.failIf_bind (fun _ => htaken) fun h => absurd hd h

/-! ## The display owner -/

theorem scanoutComplete_inv {corePoint windowPoint : Nat} (hi : Inv w) :
    Spec (scanoutComplete corePoint windowPoint) w (fun _ w' => Inv w') fun _ w' => Inv w' := by
  unfold scanoutComplete
  apply Spec.get_bind
  refine Spec.failIf_bind (fun _ => hi) fun hg => ?_
  simp only [not_or, not_not, Bool.not_eq_true, Option.isSome_eq_false_iff,
    Option.isNone_iff_eq_none] at hg
  obtain ⟨hs, hr, hf, -⟩ := hg
  have hopen : w.work.stage ≠ .complete := by rw [hs]; decide
  have hside : w.work.sideband = none := by
    cases hsome : w.work.sideband with
    | none => rfl
    | some s =>
      have hp := hi.side (by rw [hsome]; rfl)
      rw [hs] at hp
      cases hp
  have hclimbed := hi.climbed
  rw [hs] at hclimbed
  have hx := hi.posted (by rw [hs]; decide)
  refine ⟨?_, fun _ => ⟨hx.told, hx.phase⟩, fun hsome => ?_, fun _ _ => ?_, fun hsome => ?_⟩
  · exact hclimbed.keep le_rfl le_rfl fun i _ => by
      match i with
      | 0 | 1 | 2 | 3 | 4 | 5 | _ + 6 => rfl
  · have hnone : w.work.request.isSome = true := hsome
    rw [hr] at hnone
    cases hnone
  · have h := hi.held hf hopen
    exact ⟨h.token, h.last, h.phase, h.link⟩
  · have hnone : w.work.sideband.isSome = true := hsome
    rw [hside] at hnone
    cases hnone

theorem cancelUnsubmitted_inv (hi : Inv w) :
    Spec (cancelUnsubmitted : Op D S Unit) w (fun _ w' => Inv w') fun _ w' => Inv w' := by
  unfold cancelUnsubmitted
  apply Spec.get_bind
  refine Spec.failIf_bind (fun _ => hi) fun _ => ?_
  refine onJournal_bind (Transaction.atomic_cancelUnsubmitted _) (fun _ _ _ => hi) fun _ tx h => ?_
  have hunposted : w.root.tx.journal.firstPosted = 0 := by
    simp only [Transaction.cancelUnsubmitted, bind_ok_iff, get_apply, failIf_ok_iff] at h
    obtain ⟨_, _, h₀, _, _, ⟨hg, rfl⟩, -⟩ := h
    cases h₀
    simp only [not_or, not_not] at hg
    exact hg.2.2
  exact
    { climbed := hi.climbed.keep le_rfl le_rfl fun i _ => by
        obtain _ | _ | _ | _ | _ | _ | i := i <;> rfl
      posted := fun hr => absurd hunposted (hi.posted hr).told
      exposed := by intros; contradiction
      held := by intros; contradiction
      side := hi.side }

theorem retainAmbiguous_inv {reason : Fault} (hi : Inv w) :
    Spec (retainAmbiguous reason) w (fun _ w' => Inv w') fun _ w' => Inv w' := by
  unfold retainAmbiguous
  refine onJournal_bind Transaction.atomic_retain (fun _ _ _ => hi) fun _ tx h => ?_
  have hfirst : tx.journal.firstPosted = w.root.tx.journal.firstPosted := by
    simp only [Transaction.retain, Transaction.setJournal_apply] at h
    cases h
    dsimp only
    split <;> rfl
  have hx : Exposed w → Exposed (⟨{ w.root with tx := tx }, { w.work with failure := some reason }⟩ :
      World D S) := fun hx => ⟨by rw [hfirst]; exact hx.told, .inr rfl⟩
  exact
    { climbed := hi.climbed.keep le_rfl le_rfl fun i _ => by
        obtain _ | _ | _ | _ | _ | _ | i := i <;> rfl
      posted := fun hr => hx (hi.posted hr)
      exposed := fun h₁ h₂ h₃ => hx (hi.exposed h₁ h₂ h₃)
      held := by intros; contradiction
      side := hi.side }

theorem run_inv {step : Step R} (hi : Inv w) :
    Spec (run env ports step) w (fun _ w' => Inv w') fun _ w' => Inv w' := by
  cases step with
  | prepare now => exact Spec.seq (prepare_inv hi) (fun _ _ h => h) fun _ _ h => h
  | submitted => exact submitted_inv hi
  | consume record serial now => exact consume_inv hi
  | scanoutComplete corePoint windowPoint => exact scanoutComplete_inv hi
  | cancelUnsubmitted => exact cancelUnsubmitted_inv hi
  | retainAmbiguous reason => exact retainAmbiguous_inv hi

end LinkWork
end Mst
end NvidiaGsp
