import NvidiaGsp.Mst.LinkSpec
import NvidiaGsp.Mst.RestoreSteps

/-!
# Mst.RestoreSpec

What one call of the restore work keeps. `Live` is what holds of a work that has neither failed nor
finished: the journal is its own, it stands on one of the ladders, the training it has seen is that of
the old table, and the display owner has spoken before anything is stopped.
-/

namespace NvidiaGsp
namespace Mst
namespace Restore

open Call Ladder
open Payload
open Link (Fault Request Reply AuxReply SideReply Ports Root)
open LinkWork (before target map_ok)

set_option linter.unusedSectionVars false

variable {D : Type} [DecidableEq D] {R S U : Type} {w w' : World D S U} {serial now : Nat}

structure Live (w : World D S U) : Prop where
  token : w.root.tx.journal.token = some w.work.token
  phase : w.work.phaseOk w.root.tx.journal.phase = true
  standing : Standing w.root w.work w.work.lastReceipt
  training : ∀ t ∈ w.work.training, Proven w.root t
  core : past w.work.stage = true → w.work.core.isSome = true
  side : w.work.sideband.isSome = true → packets w.work.stage = true
  calm : w.work.stage = .connected → w.work.up = none ∧ w.work.training = none
  single : w.work.up.isSome = true → w.work.sideband = none

/-- The journal has been told of a query. -/
structure Told (w : World D S U) : Prop where
  posted : w.root.tx.journal.firstPosted ≠ 0
  phase : w.root.tx.journal.phase ≠ .reserved

/-- The receipts of a finished rebuild, as an image refers to them. -/
def Ordered (w : Work D S U) : Prop :=
  ∀ t ∈ w.training, t.receipt < w.sourceReceipt ∧ w.sourceReceipt < w.tableReceipt ∧
    w.tableReceipt < w.actReceipt ∧ w.actReceipt < w.packetReceipt ∧
    w.packetReceipt < w.branchReceipt ∧ w.branchReceipt < w.completionReceipt

structure Inv (w : World D S U) : Prop where
  told : w.work.request.isSome = true → w.work.posted = true → Told w
  live : w.work.failure = none → w.work.stage ≠ .complete → Live w
  finished : w.work.failure = none → w.work.stage = .complete → Ordered w.work

/-! ## Statements -/

section

variable {α β : Type} {Q : β → World D S U → Prop} {E : Fault → World D S U → Prop}

theorem onWork_bind {g : Work D S U → Work D S U} {f : Unit → Op D S U β}
    (h : Spec (f ()) { w with work := g w.work } Q E) : Spec (onWork g >>= f) w Q E := h

theorem onRoot_bind {g : Root D → Root D} {f : Unit → Op D S U β}
    (h : Spec (f ()) { w with root := g w.root } Q E) : Spec (onRoot g >>= f) w Q E := h

theorem onJournal_bind {x : Transaction.Op D α} {f : α → Op D S U β} (hx : Atomic x)
    (he : ∀ e tx, x w.root.tx = .error e tx → E (.error e) w)
    (hok : ∀ a tx, x w.root.tx = .ok a tx →
      Spec (f a) { w with root := { w.root with tx := tx } } Q E) :
    Spec (onJournal x >>= f) w Q E := by
  refine .bind (.zoom ?_)
  refine .intro (fun a tx h => hok a tx h) fun e tx h => ?_
  have := he e tx h
  rw [hx _ _ _ h]
  exact this

end

/-- A failed work without a query promises nothing. -/
theorem inv_of_failed (hr : w.work.request = none) (ho : w.work.failure.isSome = true) : Inv w where
  told h := by simp [hr] at h
  live hf _ := by simp [hf] at ho
  finished hf := by simp [hf] at ho

theorem failing_spec {α : Type} {x : Op D S U α} {Q : α → World D S U → Prop}
    (h : Spec x w Q fun _ w' => w'.work.request = none) : Spec (failing x) w Q fun _ w' => Inv w' := by
  unfold Spec failing at *
  cases hx : x w with
  | ok a w' =>
    rw [hx] at h
    exact h
  | error e w' =>
    rw [hx] at h
    exact inv_of_failed h rfl

/-! ## The root changes around the work -/

/-- What the ladders read of the journal. -/
structure SameTables (r r' : Root D) : Prop where
  previous : r'.tx.journal.previous = r.tx.journal.previous
  target : r'.tx.journal.target = r.tx.journal.target
  missing : r'.tx.journal.missingReceipt = r.tx.journal.missingReceipt

theorem Standing.root {r r' : Root D} {x : Work D S U} {bound : Nat} (h : Standing r x bound)
    (hr : SameTables r r') : Standing r' x bound := by
  have htable : x.table r' = x.table r := by
    unfold Work.table LinkWork.target LinkWork.before
    rw [hr.previous, hr.target]
  exact ⟨fun hd hn => h.full hd (htable ▸ hn), fun hd hn => h.bare hd (htable ▸ hn),
    fun hd => hr.missing ▸ h.lost hd⟩

theorem Proven.root {r r' : Root D} {t : Training} (h : Proven r t) (hr : SameTables r r') :
    Proven r' t := by
  unfold Proven
  rw [hr.previous]
  exact h

/-- Query and sideband are no part of where the work stands. -/
theorem Standing.quiet {r : Root D} {x y : Work D S U} {bound : Nat} (h : Standing r x bound)
    (hy : y = { x with pinned := y.pinned, request := y.request, sideband := y.sideband,
                       requestSerial := y.requestSerial, posted := y.posted,
                       lastReceipt := y.lastReceipt, eventsSeen := y.eventsSeen }) :
    Standing r y bound := by
  rw [hy]
  refine ⟨fun hd hn => (h.full hd hn).keep le_rfl le_rfl fun i _ => ?_, fun hd hn => ?_, fun hd =>
    h.lost hd⟩
  · match i with
    | 0 | 1 | 2 | 3 | 4 | 5 | 6 | 7 | _ + 8 => rfl
  · have hbare := h.bare hd hn
    exact ⟨hbare.climbed.keep le_rfl le_rfl fun i _ => by
        match i with
        | 0 | 1 | 2 | 3 | 4 | 5 | 6 | _ + 7 => rfl,
      hbare.training, hbare.act, hbare.branch, hbare.low, hbare.unread⟩

theorem Live.quiet (h : Live w) (hj : w'.root.tx.journal = w.root.tx.journal)
    (hy : w'.work = { w.work with
      pinned := w'.work.pinned, request := w'.work.request, sideband := w'.work.sideband,
      requestSerial := w'.work.requestSerial, posted := w'.work.posted,
      eventsSeen := w'.work.eventsSeen })
    (hside : w'.work.sideband.isSome = true → packets w'.work.stage = true)
    (hsingle : w'.work.up.isSome = true → w'.work.sideband = none) : Live w' := by
  have hroot : SameTables w.root w'.root := ⟨by rw [hj], by rw [hj], by rw [hj]⟩
  have hstanding : Standing w'.root w'.work w'.work.lastReceipt := by
    have hlast : w'.work.lastReceipt = w.work.lastReceipt := by rw [hy]
    refine Standing.quiet (Standing.root (hlast ▸ h.standing) hroot) ?_
    rw [hlast]
    exact hy
  refine ⟨?_, ?_, hstanding, fun t ht => ?_, fun hp => ?_, hside, fun hc => ?_, hsingle⟩
  · rw [hj, hy]
    exact h.token
  · rw [hj, hy]
    exact h.phase
  · rw [hy] at ht
    exact (h.training t ht).root hroot
  · rw [hy] at hp ⊢
    exact h.core hp
  · rw [hy] at hc ⊢
    exact h.calm hc

theorem Inv.quiet (hi : Inv w) (hj : w'.root.tx.journal = w.root.tx.journal)
    (hy : w'.work = { w.work with
      pinned := w'.work.pinned, request := w'.work.request, sideband := w'.work.sideband,
      requestSerial := w'.work.requestSerial, posted := w'.work.posted,
      eventsSeen := w'.work.eventsSeen })
    (hreq : w'.work.request.isSome = true → w'.work.posted = true →
      w.work.request.isSome = true ∧ w.work.posted = true)
    (hside : w'.work.sideband.isSome = true → packets w'.work.stage = true)
    (hsingle : w'.work.up.isSome = true → w'.work.sideband = none) : Inv w' where
  told h₁ h₂ := by
    have h := hi.told (hreq h₁ h₂).1 (hreq h₁ h₂).2
    exact ⟨hj ▸ h.posted, hj ▸ h.phase⟩
  live hf hs := by
    have hfail : w'.work.failure = w.work.failure := by rw [hy]
    have hstage : w'.work.stage = w.work.stage := by rw [hy]
    exact (hi.live (hfail ▸ hf) (hstage ▸ hs)).quiet hj hy hside hsingle
  finished hf hs := by
    have hfail : w'.work.failure = w.work.failure := by rw [hy]
    have hstage : w'.work.stage = w.work.stage := by rw [hy]
    rw [hy]
    exact hi.finished (hfail ▸ hf) (hstage ▸ hs)

/-- The upstream exchange moves on. -/
theorem Inv.detour (hi : Inv w) (hu : w.work.up.isSome = true) (u : U) :
    Inv { w with work := { w.work with up := some u } } where
  told h₁ h₂ := ⟨(hi.told h₁ h₂).posted, (hi.told h₁ h₂).phase⟩
  live hf hs := by
    have h := hi.live hf hs
    refine ⟨h.token, h.phase, ?_, h.training, h.core, h.side, fun hc => ?_, fun _ => h.single hu⟩
    · refine ⟨fun hd hn => (h.standing.full hd hn).keep le_rfl le_rfl fun i _ => ?_, fun hd hn => ?_,
        fun hd => ?_⟩
      · match i with
        | 0 | 1 | 2 | 3 | 4 | 5 | 6 | 7 | _ + 8 => rfl
      · have hbare := h.standing.bare hd hn
        exact ⟨hbare.climbed.keep le_rfl le_rfl fun i _ => by
            match i with
            | 0 | 1 | 2 | 3 | 4 | 5 | 6 | _ + 7 => rfl,
          hbare.training, hbare.act, hbare.branch, hbare.low, hbare.unread⟩
      · have hnone := (h.standing.lost hd).2.1
        simp [hnone] at hu
    · have hnone := (h.calm hc).1
      simp [hnone] at hu
  finished := hi.finished

/-- The events are drained, and the paths are read again. -/
theorem Inv.drained (hi : Inv w) (hu : w.work.up.isSome = true) (ho : w.work.stage ≠ .complete) :
    Inv (⟨w.root, Work.move { w.work with up := none } .guid⟩ : World D S U) where
  told h₁ h₂ := ⟨(hi.told h₁ h₂).posted, (hi.told h₁ h₂).phase⟩
  live hf _ := by
    have h := hi.live hf ho
    have hside : (Work.move { w.work with up := none } .guid).sideband = none := h.single hu
    refine ⟨h.token, h.phase, ⟨fun _ _ => .ground, fun hd hn => ?_, fun hd => ?_⟩, h.training, nofun,
      fun hs => ?_, nofun, fun _ => hside⟩
    · have hbare := h.standing.bare hd hn
      exact ⟨.ground, hbare.training, hbare.act, hbare.branch, Nat.zero_le 2, rfl⟩
    · have hnone := (h.standing.lost hd).2.1
      simp [hnone] at hu
    · rw [hside] at hs
      cases hs
  finished := nofun

/-! ## Guard and queries -/

variable {env : Transaction.Env D} {ports : Ports R S U}

/-- What the guard has checked. -/
structure Guarded (env : Transaction.Env D) (w : World D S U) : Prop where
  healthy : w.work.failure = none
  unfinished : w.work.stage ≠ .complete
  valid : Transaction.Valid env w.work.token w.root.tx

theorem guard_spec : Spec (guard env now) w (fun _ w' => w' = w ∧ Guarded env w) fun _ w' => w' = w := by
  unfold guard
  apply Spec.get_bind
  refine Spec.failIf_bind (fun _ => rfl) fun hf => ?_
  refine Spec.failIf_bind (fun _ => rfl) fun _ => ?_
  refine onJournal_bind (Transaction.readOnly_validate _).atomic (fun _ _ _ => rfl) fun _ tx htx => ?_
  obtain ⟨rfl, hv⟩ := Transaction.validate_ok htx
  refine Spec.failIf_bind (fun _ => rfl) fun _ => ?_
  apply Spec.intro
  · intro _ w' h
    simp only [not_or, Bool.not_eq_true, Option.isSome_eq_false_iff, Option.isNone_iff_eq_none] at hf
    exact ⟨(failIf_ok_iff.1 h).2, hf.1, hf.2, hv⟩
  · intro _ w' h
    exact (failIf_error_iff.1 h).2.2

theorem sidebandQuery_spec (hi : Inv w) (hs : packets w.work.stage = true) (hu : w.work.up = none) :
    Spec (sidebandQuery ports now) w (fun _ w' => Inv w') fun _ w' => Inv w' := by
  have hset : ∀ o : Option S, Inv (⟨w.root, { w.work with sideband := o }⟩ : World D S U) := fun o =>
    hi.quiet rfl rfl (fun h₁ h₂ => ⟨h₁, h₂⟩) (fun _ => hs) fun h => by
      rw [show w.work.up = none from hu] at h
      cases h
  have hopen : Spec (openSideband ports) w
      (fun _ w' => ∃ o : Option S, w' = ⟨w.root, { w.work with sideband := o }⟩)
      fun _ w' => w' = w := by
    unfold openSideband
    apply Spec.get_bind
    cases hsome : w.work.sideband with
    | some s => exact Spec.pure ⟨some s, by rw [← hsome]⟩
    | none =>
      refine Spec.failIf_bind (fun _ => rfl) fun _ => ?_
      refine Spec.lift_bind (fun _ _ => rfl) fun _ _ => ?_
      refine Spec.lift_bind (fun _ _ => rfl) fun _ s => ?_
      apply onWork_bind
      exact Spec.pure ⟨_, rfl⟩
  unfold sidebandQuery
  refine Spec.seq hopen (fun s w₁ h₁ => ?_) fun _ w₁ h₁ => by rwa [h₁]
  obtain ⟨o, rfl⟩ := h₁
  apply Spec.get_bind
  apply onWork_bind
  exact Spec.lift_bind (fun _ _ => hset _) fun _ _ => Spec.pure (hset _)

theorem answerNotice_spec {u : U} (hi : Inv w) (hu : w.work.up.isSome = true) :
    Spec (answerNotice ports u now) w
      (fun _ w' => Inv w' ∧ w'.work.up.isSome = true ∧ w'.work.stage = w.work.stage)
      fun _ w' => Inv w' := by
  unfold answerNotice
  apply Spec.get_bind
  split
  · refine Spec.lift_bind (fun _ _ => hi) fun _ _ => ?_
    refine Spec.failIf_bind (fun _ => hi) fun _ => ?_
    apply onWork_bind
    have hseen : Inv (⟨w.root, { w.work with eventsSeen := w.work.eventsSeen + 1 }⟩ : World D S U) :=
      { told := fun h₁ h₂ => ⟨(hi.told h₁ h₂).posted, (hi.told h₁ h₂).phase⟩
        live := fun hf hs =>
          have h := hi.live hf hs
          h.quiet rfl rfl h.side h.single
        finished := hi.finished }
    refine Spec.lift_bind (fun _ _ => hseen) fun next _ => ?_
    apply onWork_bind
    exact Spec.pure ⟨hseen.detour hu next, rfl, rfl⟩
  · exact Spec.pure ⟨hi, hu, rfl⟩

theorem upstreamQuery_spec {u : U} (hi : Inv w) (hu : w.work.up.isSome = true)
    (ho : w.work.stage ≠ .complete) :
    Spec (upstreamQuery ports u now) w (fun _ w' => Inv w') fun _ w' => Inv w' := by
  unfold upstreamQuery
  refine Spec.seq (answerNotice_spec hi hu) (fun u w₁ h₁ => ?_) fun _ _ h => h
  obtain ⟨hi₁, hu₁, hs₁⟩ := h₁
  apply Spec.get_bind
  split
  · refine Spec.failIf_bind (fun _ => hi₁) fun _ => ?_
    refine Spec.lift_bind (fun _ _ => hi₁) fun next _ => ?_
    apply onWork_bind
    exact Spec.pure (hi₁.detour hu₁ next)
  · split
    · refine Spec.failIf_bind (fun _ => hi₁) fun _ => ?_
      apply onWork_bind
      exact Spec.pure (hi₁.drained hu₁ (hs₁ ▸ ho))
    · apply onWork_bind
      exact Spec.lift_bind (fun _ _ => hi₁.detour hu₁ _) fun _ _ => Spec.pure (hi₁.detour hu₁ _)

theorem select_spec (hi : Inv w) (ho : w.work.stage ≠ .complete) :
    Spec (select ports now) w (fun _ w' => Inv w') fun _ w' => Inv w' := by
  unfold select
  apply Spec.get_bind
  cases hu : w.work.up with
  | some u => exact upstreamQuery_spec hi (by rw [hu]; rfl) ho
  | none =>
    dsimp only
    split
    · rename_i hs
      exact sidebandQuery_spec hi hs hu
    · exact Spec.lift_bind (fun _ _ => hi) fun _ _ => Spec.pure hi

/-- A query that is held is not out yet. -/
theorem hold_spec {request : Request} (hi : Inv w) :
    Spec (hold request) w (fun _ w' => Inv w') fun _ w' => Inv w' := by
  unfold hold
  apply Spec.get_bind
  refine Spec.failIf_bind (fun _ => hi) fun _ => ?_
  exact
    { told := fun _ h => by cases h
      live := fun hf hs =>
        have h := hi.live hf hs
        h.quiet rfl rfl h.side h.single
      finished := hi.finished }

theorem prepare_inv (hi : Inv w) :
    Spec (prepare env ports now) w (fun _ w' => Inv w') fun _ w' => Inv w' := by
  unfold prepare
  refine Spec.seq guard_spec ?_ fun _ w' h => h ▸ hi
  intro _ w₁ h₁
  obtain ⟨h₁, hg⟩ := h₁
  rw [h₁]
  apply onWork_bind
  have hpin : Inv (⟨w.root, { w.work with pinned := true }⟩ : World D S U) :=
    { told := fun h₁ h₂ => ⟨(hi.told h₁ h₂).posted, (hi.told h₁ h₂).phase⟩
      live := fun hf hs =>
        have h := hi.live hf hs
        h.quiet rfl rfl h.side h.single
      finished := hi.finished }
  apply Spec.get_bind
  refine Spec.failIf_bind (fun _ => hpin) fun _ => ?_
  split
  · exact Spec.pure hpin
  · refine Spec.seq (select_spec hpin hg.unfinished) (fun request w₁ h₁ => ?_) fun _ _ h => h
    cases request with
    | none => exact Spec.pure h₁
    | some request => exact Spec.seq (hold_spec h₁) (fun _ w₂ h₂ => Spec.pure h₂) fun _ _ h => h

/-! ## Submission -/

/-- The phase a posting leaves is still one the work may find. -/
theorem phaseOk_posted {x : Work D S U} {phase : Transaction.Phase} (h : x.phaseOk phase = true) :
    x.phaseOk (if phase = .reserved then .posted else phase) = true := by
  by_cases hp : phase = .reserved
  · subst hp
    unfold Work.phaseOk at h ⊢
    cases hd : x.disconnected <;> cases hs : x.stopOnly <;> simp [hd, hs] at h ⊢
  · rw [if_neg hp]
    exact h

theorem submitted_inv (hi : Inv w) :
    Spec (submitted ports) w (fun _ w' => Inv w') fun _ w' => Inv w' := by
  unfold submitted
  apply Spec.get_bind
  refine Spec.failIf_bind (fun _ => hi) fun _ => ?_
  refine Spec.need_bind (fun _ => hi) fun request _ => ?_
  split
  · exact Spec.pure hi
  · refine onJournal_bind (Transaction.atomic_posted _ _) (fun _ _ _ => hi) fun _ tx htx => ?_
    obtain ⟨rfl, hn⟩ := LinkWork.posted_journal htx
    apply onWork_bind
    -- the journal knows of the query; the ladders read nothing of that
    have hposted : ∀ r : Root D, r.tx.journal = { w.root.tx.journal with
          firstPosted := if w.root.tx.journal.firstPosted = 0 then w.work.requestSerial
            else w.root.tx.journal.firstPosted
          phase := if w.root.tx.journal.phase = .reserved then .posted
            else w.root.tx.journal.phase } →
        Inv (⟨r, { w.work with posted := true }⟩ : World D S U) := fun r hr => by
      refine ⟨fun _ _ => ⟨?_, ?_⟩, fun hf hs => ?_, hi.finished⟩
      · rw [hr]
        dsimp only
        split
        · exact hn
        · assumption
      · rw [hr]
        dsimp only
        split
        · nofun
        · assumption
      · have h := hi.live hf hs
        have hroot : SameTables w.root r := ⟨by rw [hr], by rw [hr], by rw [hr]⟩
        refine ⟨by rw [hr]; exact h.token, ?_,
          (h.standing.quiet rfl).root hroot, fun t ht => (h.training t ht).root hroot, h.core, h.side,
          h.calm, h.single⟩
        rw [hr]
        exact phaseOk_posted h.phase
    refine hposted _ ?_
    dsimp only
    cases Work.closes ports w.work request <;> rfl

/-! ## Replies -/

/-- A reply has been acknowledged and the guard has passed. -/
structure Answering (serial : Nat) (w : World D S U) : Prop where
  request : w.work.request = none
  healthy : w.work.failure = none
  unfinished : w.work.stage ≠ .complete
  last : w.work.lastReceipt = serial
  told : Told w
  token : w.root.tx.journal.token = some w.work.token
  journal : w.root.tx.journal.lastReceipt = serial
  phase : w.work.phaseOk w.root.tx.journal.phase = true
  standing : ∃ bound < serial, Standing w.root w.work bound
  training : ∀ t ∈ w.work.training, Proven w.root t
  core : past w.work.stage = true → w.work.core.isSome = true
  calm : w.work.stage = .connected → w.work.up = none ∧ w.work.training = none

/-- The work waits for the next step where it stands. -/
theorem Answering.inv (h : Answering serial w)
    (hside : w.work.sideband.isSome = true → packets w.work.stage = true)
    (hsingle : w.work.up.isSome = true → w.work.sideband = none) : Inv w where
  told hr := by simp [h.request] at hr
  live _ _ := by
    refine ⟨h.token, h.phase, ?_, h.training, h.core, hside, h.calm, hsingle⟩
    obtain ⟨bound, hb, hstanding⟩ := h.standing
    have hle : bound ≤ w.work.lastReceipt := by rw [h.last]; omega
    refine ⟨fun hd hn => (hstanding.full hd hn).keep le_rfl hle fun _ _ => rfl, fun hd hn => ?_,
      fun hd => ?_⟩
    · have hbare := hstanding.bare hd hn
      exact ⟨hbare.climbed.keep le_rfl hle fun _ _ => rfl, hbare.training, hbare.act, hbare.branch,
        hbare.low, hbare.unread⟩
    · have hlost := hstanding.lost hd
      exact ⟨hlost.1, hlost.2.1, hlost.2.2.1, hlost.2.2.2.keep le_rfl hle fun _ _ => rfl⟩
  finished _ hs := absurd hs h.unfinished

theorem Goes.inv {x : Work D S U} (hg : Goes w.root w.work x serial) (ha : Answering serial w)
    (hside : w.work.sideband = none) : Inv (⟨w.root, x⟩ : World D S U) where
  told h := by
    rw [show x.request = none from hg.request.trans ha.request] at h
    cases h
  live _ _ := by
    obtain ⟨bound, hb, hstanding⟩ := ha.standing
    have hnone : x.sideband = none := hg.sideband.trans hside
    refine ⟨?_, ?_, ?_, fun t ht => ?_, fun hp => ?_, fun h => ?_, fun hc => ?_, fun _ => hnone⟩
    · exact ha.token.trans (congrArg some hg.token.symm)
    · show x.phaseOk _ = true
      unfold Work.phaseOk
      rw [hg.disconnected, hg.stopOnly]
      exact ha.phase
    · show Standing w.root x x.lastReceipt
      rw [hg.last, ha.last]
      exact hg.standing bound hstanding hb
    · exact (hg.training t ht).elim (ha.training t) id
    · rw [show x.core = w.work.core from hg.core]
      exact ha.core (hg.past hp)
    · rw [show x.sideband = none from hnone] at h
      cases h
    · obtain ⟨hstart, htraining⟩ := hg.start hc
      exact ⟨(hg.up (by rw [hstart]; rfl)).trans (ha.calm hstart).1,
        htraining.trans (ha.calm hstart).2⟩
  finished _ hs := absurd hs hg.unfinished

theorem disconnected_journal {t t' : Transaction.Token D} {n : Nat} {tx tx' : Transaction.World D}
    (h : Transaction.disconnected env t n tx = .ok t' tx') :
    tx' = { tx with journal := { tx.journal with
      target := { tx.journal.target with table := {} }
      token := some t'
      phase := .disconnected
      missingReceipt := n } } ∧ n ≠ 0 := by
  simp only [Transaction.disconnected, bind_ok_iff, get_apply, failIf_ok_iff, lift_ok_iff,
    Transaction.setJournal_apply, pure_apply] at h
  obtain ⟨_, _, hval, _, _, h₀, _, _, ⟨hg, rfl⟩, after, _, ⟨-, rfl⟩, _, _, h₁, h₂⟩ := h
  obtain ⟨rfl, -⟩ := Transaction.validate_ok hval
  cases h₀; cases h₁; cases h₂
  exact ⟨rfl, fun hn => hg (.inr (.inr (.inr (.inl hn))))⟩

/-- The receiver is gone: the ladder of the lost begins. -/
theorem disconnect_inv (ha : Answering serial w) (hs : w.work.stage = .connected)
    (hstop : w.work.stopOnly = true) (hside : w.work.sideband = none) :
    Spec (do
      lose env serial
      onRoot fun r => { r with payloadDirty := true }
      onWork fun x => x.move .resource) w (fun _ w' => Inv w') fun _ w' => w'.work.request = none := by
  obtain ⟨hup, htraining⟩ := ha.calm hs
  by_cases hd : w.work.disconnected = true
  · -- another head has told the journal
    have hlose : Spec (lose env serial) w (fun _ w' => w' = w) fun _ w' => w' = w := by
      unfold lose
      apply Spec.get_bind
      rw [if_pos hd]
      exact Spec.pure rfl
    refine Spec.seq hlose (fun _ w₁ h₁ => ?_) fun _ w₁ h₁ => by rw [h₁]; exact ha.request
    rw [h₁]
    apply onRoot_bind
    have hgoes : Goes w.root w.work (w.work.move .resource) serial := move_goes (by rw [hs]; rfl)
    have h := hgoes.inv ha hside
    exact
      { told := fun h₁ h₂ => ⟨(h.told h₁ h₂).posted, (h.told h₁ h₂).phase⟩
        live := fun hf ho =>
          have hl := h.live hf ho
          ⟨hl.token, hl.phase, hl.standing.root ⟨rfl, rfl, rfl⟩,
            fun t ht => (hl.training t ht).root ⟨rfl, rfl, rfl⟩, hl.core, hl.side, hl.calm, hl.single⟩
        finished := h.finished }
  · have hlose : Spec (lose env serial) w
        (fun _ w' => ∃ t tx, Transaction.disconnected env w.work.token serial w.root.tx = .ok t tx ∧
          w' = ⟨{ w.root with tx := tx }, { w.work with token := t, disconnected := true }⟩)
        fun _ w' => w' = w := by
      unfold lose
      apply Spec.get_bind
      rw [if_neg hd]
      refine onJournal_bind (Transaction.atomic_disconnected _ _) (fun _ _ _ => rfl) fun t tx htx => ?_
      exact ⟨t, tx, htx, rfl⟩
    refine Spec.seq hlose (fun _ w₁ h₁ => ?_) fun _ w₁ h₁ => by rw [h₁]; exact ha.request
    obtain ⟨t, tx, htx, rfl⟩ := h₁
    obtain ⟨rfl, hn⟩ := disconnected_journal htx
    apply onRoot_bind
    refine ⟨fun h => ?_, fun _ _ => ⟨rfl, ?_, ⟨nofun, nofun, fun _ => ?_⟩, fun t ht => ?_, nofun,
      fun h => ?_, nofun, fun _ => hside⟩, nofun⟩
    · have hsome : w.work.request.isSome = true := h
      rw [ha.request] at hsome
      cases hsome
    · show (if true = true then w.work.stopOnly && _ else _) = true
      rw [if_pos rfl, hstop]
      rfl
    · refine ⟨rfl, hup, htraining, ?_⟩
      show Climbed (lossMark serial w.work.sourceStop) 1 w.work.lastReceipt
      rw [ha.last]
      have hground : Climbed (fun _ => 0) 0 0 := .ground
      exact hground.climb (by omega) (fun i hi => absurd hi (by omega)) rfl
    · obtain ⟨p, hp, hproof⟩ := ha.training t ht
      exact ⟨p, hp, hproof⟩
    · have hsome : w.work.sideband.isSome = true := h
      rw [hside] at hsome
      cases hsome

theorem Settled.ordered {r : Root D} {x : Work D S U} (h : Settled r x serial) (revision : Nat) :
    Ordered (Work.move { x with revision := revision, completionReceipt := serial } .complete) := by
  intro t ht
  have hx : x.training = some t := ht
  by_cases hd : x.disconnected = true
  · rw [(h.lost hd).1] at hx
    cases hx
  · rw [Bool.not_eq_true] at hd
    by_cases hn : (x.table r).count = 0
    · rw [(h.bare hd hn).1] at hx
      cases hx
    · obtain ⟨u, hu, -, h₁, h₂, h₃, h₄, h₅, h₆, h₇, h₈⟩ := h.full hd hn
      rw [hu] at hx
      cases hx
      have hsource : t.receipt < x.sourceReceipt := by omega
      exact ⟨hsource, h₄, h₅, h₆, h₇, h₈⟩

theorem finish_inv (hr : w.work.request = none) (hs : Settled w.root w.work serial) :
    Spec (finish env serial) w (fun _ w' => Inv w') fun _ w' => w'.work.request = none := by
  unfold finish
  apply Spec.get_bind
  refine Spec.need_bind (fun _ => hr) fun core _ => ?_
  unfold onJournal
  refine .bind (.zoom (.intro (fun revision tx _ => ?_) fun _ _ _ => hr))
  refine ⟨fun h => ?_, fun _ h => absurd rfl h, fun _ _ => hs.ordered revision⟩
  have hsome : w.work.request.isSome = true := h
  rw [hr] at hsome
  cases hsome

theorem proceed_inv {next : Root D → Work D S U → Except Fault (Next D S U)} (ha : Answering serial w)
    (hside : w.work.sideband = none)
    (hnext : ∀ n, next w.root w.work = .ok n → Leads w.root w.work serial n) :
    Spec (proceed env serial next) w (fun _ w' => Inv w') fun _ w' => w'.work.request = none := by
  unfold proceed
  apply Spec.get_bind
  cases hn : next w.root w.work with
  | error e => exact Spec.throw ha.request
  | ok n =>
    have hleads := hnext n hn
    cases n with
    | work x => exact Goes.inv hleads ha hside
    | finish x =>
      apply onWork_bind
      obtain ⟨bound, hb, hstanding⟩ := ha.standing
      exact finish_inv (hleads.request.trans ha.request) (hleads.settled bound hstanding hb)
    | disconnect => exact disconnect_inv ha hleads.1 hleads.2 hside

/-! ## Consumption -/

/-- Sideband and mailbox are no part of what a reply relies on. -/
theorem Answering.sideband (ha : Answering serial w) (o : Option S) {r : Root D}
    (hr : r.tx = w.root.tx) :
    Answering serial (⟨r, { w.work with sideband := o }⟩ : World D S U) where
  request := ha.request
  healthy := ha.healthy
  unfinished := ha.unfinished
  last := ha.last
  told := ⟨by rw [hr]; exact ha.told.posted, by rw [hr]; exact ha.told.phase⟩
  token := by rw [hr]; exact ha.token
  journal := by rw [hr]; exact ha.journal
  phase := by rw [hr]; exact ha.phase
  standing := by
    obtain ⟨bound, hb, hstanding⟩ := ha.standing
    exact ⟨bound, hb, (hstanding.quiet rfl).root ⟨by rw [hr], by rw [hr], by rw [hr]⟩⟩
  training t ht := (ha.training t ht).root ⟨by rw [hr], by rw [hr], by rw [hr]⟩
  core := ha.core
  calm := ha.calm

theorem finishSideband_inv {s : S} (ha : Answering serial w) :
    Spec (finishSideband env ports s serial) w (fun _ w' => Inv w')
      fun _ w' => w'.work.request = none := by
  unfold finishSideband
  refine Spec.lift_bind (fun _ _ => ha.request) fun response _ => ?_
  apply onRoot_bind
  apply onWork_bind
  have hdone := ha.sideband none (r := { w.root with
    mailboxPending := false
    mailboxDeadline := 0
    sequence := w.root.sequence ^^^ 1 }) rfl
  apply Spec.get_bind
  refine Spec.failIf_bind (fun _ => ha.request) fun _ => ?_
  refine Spec.failIf_bind (fun _ => ha.request) fun _ => ?_
  refine proceed_inv hdone rfl fun n hn => ?_
  obtain ⟨y, hy, he⟩ := map_ok.1 hn
  cases he
  exact sideAnswered_goes hy

theorem consumeSideband_inv {s : S} {observation : AuxReply} (ha : Answering serial w)
    (hs : packets w.work.stage = true) (hu : w.work.up = none) :
    Spec (consumeSideband env ports s observation serial now) w (fun _ w' => Inv w')
      fun _ w' => w'.work.request = none := by
  unfold consumeSideband
  apply Spec.get_bind
  dsimp only
  apply onWork_bind
  refine Spec.lift_bind (fun _ _ => ha.request) fun _ _ => ?_
  have htaken := ha.sideband (some (ports.downConsume s w.work.token.generation observation serial now).2)
    (r := w.root) rfl
  split
  · exact finishSideband_inv htaken
  · refine Spec.pure (htaken.inv (fun _ => hs) fun h => ?_)
    rw [show w.work.up = none from hu] at h
    cases h

theorem consumeUpstream_inv {u : U} {observation : AuxReply} (ha : Answering serial w)
    (hu : w.work.up = some u) (hside : w.work.sideband = none) :
    Spec (consumeUpstream ports u observation serial now) w (fun _ w' => Inv w')
      fun _ w' => w'.work.request = none := by
  have hi : Inv w := ha.inv (fun h => by rw [hside] at h; cases h) fun _ => hside
  unfold consumeUpstream
  apply Spec.get_bind
  dsimp only
  apply onWork_bind
  apply Spec.intro
  · intro _ w' h
    rw [(lift_ok_iff.1 h).2]
    exact hi.detour (by rw [hu]; rfl) _
  · intro _ w' h
    rw [(lift_error_iff.1 h).2]
    exact ha.request

theorem respond_inv {request : Request} {response : Reply} (ha : Answering serial w)
    (hside : w.work.sideband.isSome = true → packets w.work.stage = true)
    (hsingle : w.work.up.isSome = true → w.work.sideband = none) :
    Spec (respond env ports request response serial now) w (fun _ w' => Inv w')
      fun _ w' => w'.work.request = none := by
  unfold respond
  apply Spec.get_bind
  cases hu : w.work.up with
  | some u =>
    dsimp only
    split
    · exact consumeUpstream_inv ha hu (hsingle (by rw [hu]; rfl))
    · exact Spec.throw ha.request
  | none =>
    cases hs : w.work.sideband with
    | some s =>
      dsimp only
      split
      · exact consumeSideband_inv ha (hside (by rw [hs]; rfl)) hu
      · exact Spec.throw ha.request
    | none =>
      dsimp only
      split
      · refine proceed_inv ha hs fun n hn => ?_
        obtain ⟨y, hy, he⟩ := map_ok.1 hn
        cases he
        exact pollLater_goes hy (follows_self ha.unfinished)
      · exact proceed_inv ha hs fun n hn => transferred_leads hn ha.unfinished
      · exact proceed_inv ha hs fun n hn => answered_leads hn

/-- The work with a reply taken in. -/
def taken (w : World D S U) (serial : Nat) : World D S U where
  root := { w.root with tx := { w.root.tx with
    journal := { w.root.tx.journal with lastReceipt := serial } } }
  work := { w.work with request := none, lastReceipt := serial }

theorem taken_answering (hi : Inv w) (hr : w.work.request.isSome = true) (hp : w.work.posted = true)
    (hs : w.work.lastReceipt < serial) (hf : w.work.failure = none) (ho : w.work.stage ≠ .complete) :
    Answering serial (taken w serial) where
  request := rfl
  healthy := hf
  unfinished := ho
  last := rfl
  told := ⟨(hi.told hr hp).posted, (hi.told hr hp).phase⟩
  token := (hi.live hf ho).token
  journal := rfl
  phase := (hi.live hf ho).phase
  standing := ⟨w.work.lastReceipt, hs,
    ((hi.live hf ho).standing.quiet (y := (taken w serial).work) rfl).root ⟨rfl, rfl, rfl⟩⟩
  training t ht := ((hi.live hf ho).training t ht).root ⟨rfl, rfl, rfl⟩
  core := (hi.live hf ho).core
  calm := (hi.live hf ho).calm

/-- A successful receipt is noted, and nothing else. -/
theorem receipt_spec {t : Transaction.Token D} :
    Spec (onJournal (Transaction.receipt t serial)) w
      (fun _ w' => w' = { w with root := { w.root with tx := { w.root.tx with
        journal := { w.root.tx.journal with lastReceipt := serial } } } }) fun _ w' => w' = w := by
  unfold onJournal
  refine .zoom (.intro (fun _ tx h => ?_) fun _ tx h => ?_)
  · rw [LinkWork.receipt_journal h]
  · rw [Transaction.atomic_receipt _ _ _ _ _ h]

theorem consume_inv {record : R} (hi : Inv w) :
    Spec (consume env ports record serial now) w (fun _ w' => Inv w') fun _ w' => Inv w' := by
  unfold consume
  apply Spec.get_bind
  refine Spec.need_bind (fun _ => hi) fun request hr => ?_
  refine Spec.failIf_bind (fun _ => hi) fun hg => ?_
  simp only [not_or, not_le, Bool.not_eq_false] at hg
  obtain ⟨hp, -, hs⟩ := hg
  apply onWork_bind
  apply failing_spec
  refine Spec.seq receipt_spec (fun _ w₁ h₁ => ?_) fun _ w₁ h₁ => by rw [h₁]
  refine Spec.seq guard_spec (fun _ w₂ h₂ => ?_) fun _ w₂ h₂ => by rw [h₂, h₁]
  obtain ⟨h₂, hg⟩ := h₂
  have htaken : w₁ = taken w serial := h₁
  rw [htaken] at hg
  rw [h₂, htaken]
  have ha := taken_answering hi (by rw [hr]; rfl) hp hs hg.healthy hg.unfinished
  have hlive := hi.live hg.healthy hg.unfinished
  refine Spec.lift_bind (fun _ _ => ha.request) fun response _ => ?_
  exact respond_inv ha hlive.side hlive.single

/-! ## The display owner -/

theorem scanoutRestored_inv {core : Core} (hi : Inv w) :
    Spec (scanoutRestored core) w (fun _ w' => Inv w') fun _ w' => Inv w' := by
  unfold scanoutRestored
  apply Spec.get_bind
  refine Spec.failIf_bind (fun _ => hi) fun hg => ?_
  refine Spec.failIf_bind (fun _ => hi) fun _ => ?_
  refine Spec.failIf_bind (fun _ => hi) fun _ => ?_
  simp only [not_or, not_not, Bool.not_eq_true, Option.isSome_eq_false_iff,
    Option.isNone_iff_eq_none] at hg
  obtain ⟨hs, hf, hr, -⟩ := hg
  have h := hi.live hf (by rw [hs]; decide)
  have hside : w.work.sideband = none := by
    cases hsome : w.work.sideband with
    | none => rfl
    | some s =>
      have hp := h.side (by rw [hsome]; rfl)
      rw [hs] at hp
      cases hp
  refine ⟨fun hsome => ?_, fun _ _ => ⟨h.token, h.phase, ?_, h.training, fun _ => rfl,
    fun hsome => ?_, nofun, fun _ => hside⟩, nofun⟩
  · have hnone : w.work.request.isSome = true := hsome
    rw [hr] at hnone
    cases hnone
  · -- every ladder goes on as before
    have hstanding := h.standing
    refine ⟨fun hd hn => ?_, fun hd hn => ?_, fun hd => ?_⟩
    · have hfull := hstanding.full hd hn
      rw [hs] at hfull
      exact hfull.keep le_rfl le_rfl fun i _ => by
        match i with
        | 0 | 1 | 2 | 3 | 4 | 5 | 6 | 7 | _ + 8 => rfl
    · have hbare := hstanding.bare hd hn
      exact ⟨.ground, hbare.training, hbare.act, hbare.branch,
        (by decide : rank .verifyActive ≤ 2), rfl⟩
    · have hlost := hstanding.lost hd
      rw [hs] at hlost
      exact ⟨rfl, hlost.2.1, hlost.2.2.1, hlost.2.2.2⟩
  · have hnone : w.work.sideband.isSome = true := hsome
    rw [hside] at hnone
    cases hnone

theorem retain_journal {tx tx' : Transaction.World D} {u : Unit} (h : Transaction.retain tx = .ok u tx') :
    tx'.journal.firstPosted = tx.journal.firstPosted ∧
      (tx.journal.phase ≠ .reserved → tx'.journal.phase ≠ .reserved) := by
  simp only [Transaction.retain, Transaction.setJournal_apply] at h
  cases h
  by_cases hv : tx.journal.phase = .vacant
  · simp [hv]
  · simp [hv]

theorem retainAmbiguous_inv {reason : Fault} (hi : Inv w) :
    Spec (retainAmbiguous reason) w (fun _ w' => Inv w') fun _ w' => Inv w' := by
  unfold retainAmbiguous
  apply onWork_bind
  unfold onJournal
  refine .zoom (.intro (fun _ tx h => ?_) fun _ tx h => ?_)
  · obtain ⟨hf, hp⟩ := retain_journal h
    refine ⟨fun h₁ h₂ => ⟨?_, hp (hi.told h₁ h₂).phase⟩, nofun, nofun⟩
    show tx.journal.firstPosted ≠ 0
    rw [hf]
    exact (hi.told h₁ h₂).posted
  · simp only [Transaction.retain, Transaction.setJournal_apply] at h
    cases h

theorem run_inv {step : Step R} (hi : Inv w) :
    Spec (run env ports step) w (fun _ w' => Inv w') fun _ w' => Inv w' := by
  cases step with
  | prepare now => exact Spec.seq (prepare_inv hi) (fun _ _ h => h) fun _ _ h => h
  | submitted => exact submitted_inv hi
  | consume record serial now => exact consume_inv hi
  | scanoutRestored core => exact scanoutRestored_inv hi
  | retainAmbiguous reason => exact retainAmbiguous_inv hi

end Restore
end Mst
end NvidiaGsp
