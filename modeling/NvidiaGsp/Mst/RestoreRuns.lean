import NvidiaGsp.Mst.LinkRuns
import NvidiaGsp.Mst.RestoreSpec

/-!
# Mst.RestoreRuns

Whole runs of the restore work, and the two works together. `consume_finishes` is the restore work's
counterpart of `LinkWork.consume_commits`; `sequence_commits` says both of all runs, and that no query
that changes the hardware is answered before the journal has been told.
-/

namespace NvidiaGsp
namespace Mst

open Call Ladder
open Payload
open Link (Fault Request Reply Ports Root Plan Result)
open Registry (Image)
open LinkWork (before target lengthOf)

set_option linter.unusedSectionVars false

variable {D : Type} [DecidableEq D] {R S U : Type} {env : Transaction.Env D} {ports : Ports R S U}

namespace Restore

inductive Act (D R : Type) where
  | call (step : Step R)
  | outside (other : Root D)

variable (env ports) in
def act (w : World D S U) : Act D R → Except Fault Unit × World D S U
  | .call step => outcome (run env ports step) w
  | .outside other => (.ok (), { w with root := w.root.outside other })

variable (env ports) in
/-- The work begins, by `init` or by `initStop`, on a root whose journal any calls may have touched. -/
def Started (w : World D S U) : Prop :=
  ∃ live h r, Run (Transaction.step env) ⟨{}, live, {}⟩ h r.tx ∧
    ((∃ failed : LinkWork.Work D S, ∃ deadline, init env failed deadline r = .ok w.work w.root) ∨
      ∃ plan proof image deadline,
        initStop env ports plan proof image deadline r = .ok w.work w.root)

variable {w w₀ : World D S U} {serial now : Nat}

/-- A work that has not begun has all its ladders before it. -/
theorem inv_of_fresh (ht : w.root.tx.journal.token = some w.work.token)
    (hp : w.work.phaseOk w.root.tx.journal.phase = true) (hs : w.work.stage = .connected)
    (hr : w.work.request = none) (hb : w.work.sideband = none) (hu : w.work.up = none)
    (htr : w.work.training = none) (ha : w.work.actReceipt = 0) (hbr : w.work.branchReceipt = 0)
    (hl : w.work.disconnected = true → 0 < w.root.tx.journal.missingReceipt ∧
      w.root.tx.journal.missingReceipt ≤ w.work.lastReceipt) : Inv w := by
  refine ⟨fun h => by simp [hr] at h, fun _ _ => ⟨ht, hp, ?_, by simp [htr], fun h => ?_,
    fun h => by simp [hb] at h, fun _ => ⟨hu, htr⟩, fun _ => hb⟩, fun _ h => ?_⟩
  · have hground : Climbed w.work.mark (rank w.work.stage) w.work.lastReceipt := by
      rw [hs]
      exact .ground
    refine ⟨fun _ _ => hground, fun _ _ => ⟨?_, htr, ha, hbr, ?_, ?_⟩, fun hd => ⟨?_, hu, htr, ?_⟩⟩
    · rw [hs]
      exact .ground
    · rw [hs]
      decide
    · rw [hs]
      rfl
    · rw [hs]
      rfl
    · obtain ⟨hpos, hle⟩ := hl hd
      have hbottom : Climbed (fun _ => 0) 0 0 := .ground
      have hlost : Climbed (lossMark w.root.tx.journal.missingReceipt w.work.sourceStop) 1
          w.root.tx.journal.missingReceipt :=
        hbottom.climb hpos (fun i hi => absurd hi (by omega)) rfl
      rw [hs]
      exact hlost.keep le_rfl hle fun _ _ => rfl
  · rw [hs] at h
    cases h
  · rw [hs] at h
    cases h

theorem init_inv {failed : LinkWork.Work D S} {deadline : Nat} {r : Root D}
    (h : init env failed deadline r = .ok w.work w.root) : Inv w := by
  simp only [init, bind_ok_iff, get_apply, failIf_ok_iff, pure_apply] at h
  obtain ⟨_, _, h₀, _, _, ⟨-, rfl⟩, _, r₁, hres, h₁⟩ := h
  cases h₀
  unfold zoom at hres
  split at hres
  · rename_i u tx htx
    cases hres
    obtain ⟨_, tx₀, hval, hrest⟩ := bind_ok_iff.1 htx
    obtain ⟨rfl, hv⟩ := Transaction.validate_ok hval
    simp only [Transaction.restoring, bind_ok_iff, get_apply, failIf_ok_iff,
      Transaction.setJournal_apply] at hrest
    obtain ⟨_, _, h₂, _, _, ⟨-, rfl⟩, h₃⟩ := hrest
    cases h₂; cases h₃
    injection h₁ with hwork hroot
    refine inv_of_fresh ?_ ?_ ?_ ?_ ?_ ?_ ?_ ?_ ?_ ?_ <;> rw [← hwork]
    · rw [← hroot]
      exact hv.token
    · rw [← hroot]
      rfl
    · intros
      contradiction
  · cases hres

theorem resume_inv {plan : Plan} {image : Image} {deadline : Nat} {r : Root D}
    (hs : Transaction.Sound r.tx.journal) (hd : r.tx.journal.phase = .disconnected)
    (h : resume env plan image deadline r = .ok w.work w.root) : Inv w := by
  simp only [resume, bind_ok_iff, get_apply, failIf_ok_iff, need_ok_iff, pure_apply] at h
  obtain ⟨_, _, h₀, token, _, ⟨ht, rfl⟩, _, r₁, hval, _, _, ⟨-, rfl⟩, h₁⟩ := h
  cases h₀
  unfold zoom at hval
  split at hval
  · rename_i u tx htx
    cases hval
    obtain ⟨rfl, hv⟩ := Transaction.validate_ok htx
    injection h₁ with hwork hroot
    refine inv_of_fresh ?_ ?_ ?_ ?_ ?_ ?_ ?_ ?_ ?_ ?_ <;> rw [← hwork]
    · rw [← hroot]
      exact hv.token
    · rw [← hroot]
      show (r.tx.journal.phase == .disconnected) = true
      rw [hd]
      rfl
    · rw [← hroot]
      exact fun _ => hs.lost hd
  · cases hval

theorem reserveStop_inv {plan : Plan} {image : Image} {live : Training} {deadline : Nat} {r : Root D}
    (h : reserveStop env plan image live deadline r = .ok w.work w.root) : Inv w := by
  simp only [reserveStop, bind_ok_iff, get_apply, failIf_ok_iff, lift_ok_iff, pure_apply,
    modify_apply] at h
  obtain ⟨_, _, h₀, _, _, ⟨-, rfl⟩, table, _, ⟨-, rfl⟩, paths, _, ⟨-, rfl⟩, token, r₁, hres, _, _,
    h₁, h₂⟩ := h
  cases h₀; cases h₁
  unfold zoom at hres
  split at hres
  · rename_i t tx htx
    cases hres
    obtain ⟨-, handles, hj⟩ := Transaction.reserve_journal htx
    injection h₂ with hwork hroot
    have hjournal : w.root.tx.journal = tx.journal := by rw [← hroot]
    refine inv_of_fresh ?_ ?_ ?_ ?_ ?_ ?_ ?_ ?_ ?_ ?_ <;> rw [← hwork]
    · rw [hjournal, hj]
    · rw [hjournal, hj]
      rfl
    · intros
      contradiction
  · cases hres

theorem Started.inv (h : Started env ports w) : Inv w := by
  obtain ⟨live, h, r, hr, ⟨failed, deadline, hinit⟩ | ⟨plan, proof, image, deadline, hstop⟩⟩ := h
  · exact init_inv hinit
  · simp only [initStop, bind_ok_iff, get_apply, failIf_ok_iff, lift_ok_iff, need_ok_iff] at hstop
    obtain ⟨_, _, ⟨-, rfl⟩, stamp, _, ⟨-, rfl⟩, _, _, h₀, _, _, ⟨-, rfl⟩, live, _, ⟨-, rfl⟩, handle, _,
      ⟨-, rfl⟩, _, _, ⟨-, rfl⟩, entry, _, ⟨-, rfl⟩, _, _, ⟨-, rfl⟩, hstop⟩ := hstop
    cases h₀
    split at hstop
    · rename_i hd
      exact resume_inv (Transaction.sound_run hr) hd hstop
    · exact reserveStop_inv hstop

theorem act_inv {a : Act D R} {out : Except Fault Unit} {w' : World D S U} (hi : Inv w)
    (h : act env ports w a = (out, w')) : Inv w' := by
  cases a with
  | call step =>
    have hrun : Spec (run env ports step) w (fun _ w' => Inv w') fun _ w' => Inv w' := run_inv hi
    have hspec := hrun.outcome (P := fun _ w' => Inv w')
    rw [show outcome (run env ports step) w = (out, w') from h] at hspec
    exact hspec
  | outside other =>
    cases h
    exact
      { told := fun h₁ h₂ => ⟨(hi.told h₁ h₂).posted, (hi.told h₁ h₂).phase⟩
        live := fun hf ho =>
          have hl := hi.live hf ho
          hl.quiet rfl rfl hl.side hl.single
        finished := hi.finished }

theorem inv_of_run {h : List (Event (World D S U) (Act D R) (Except Fault Unit))}
    (hs : Started env ports w₀) (hr : Run (act env ports) w₀ h w) : Inv w :=
  hr.invariant (P := fun _ w => Inv w) hs.inv fun _ _ _ _ _ hi hst => act_inv hi hst

/-! ## The last query -/

/-- Where a reply leads when neither a branch nor an upstream event is being talked to. -/
def Work.leads (x : Work D S U) (r : Root D) (request : Request) (response : Reply) (serial now : Nat) :
    Except Fault (Next D S U) :=
  match response with
  | .ratePending => (x.pollLater now).map .work
  | .aux observation => x.transferred r (lengthOf request) observation serial now
  | _ => x.answered r response serial

variable (env ports) in
/-- The last query of the work is out and comes back acknowledged, in time and for the rebuild that was
begun: the work `x` is about to hand its receipts to the journal. -/
structure Acknowledged (w : World D S U) (record : R) (serial now : Nat) (x : Work D S U) : Prop where
  posted : w.work.posted = true
  /-- Serials only grow: this one is past what the work and the journal have seen. -/
  fresh : w.work.lastReceipt < serial ∧ w.root.tx.journal.lastReceipt < serial
  calm : w.work.up = none ∧ w.work.sideband = none
  reply : ∃ request response, w.work.request = some request ∧
    ports.decode request record = .ok response ∧
    (taken w serial).work.leads (taken w serial).root request response serial now = .ok (.finish x)
  guarded : guard env now (taken w serial) = .ok () (taken w serial)

/-- The checks of the journal that are not about the order of receipts. -/
structure Presentable (w : World D S U) (x : Work D S U) : Prop where
  released : ∃ tx, Transaction.releaseAll w.work.token w.root.tx = .ok () tx
  head : x.disconnected = true → ∃ image core entry, x.previousImage = some image ∧
    x.core = some core ∧
    Transaction.HeadFits w.root.tx x.plan.mode.displayId image core.corePoint core.windowPoint entry

theorem leads_of_answering {x : Work D S U} {request : Request} {response : Reply} (ha : Answering serial w)
    (h : w.work.leads w.root request response serial now = .ok (.finish x)) :
    Ends w.root w.work x serial := by
  unfold Work.leads at h
  split at h
  · obtain ⟨_, _, he⟩ := LinkWork.map_ok.1 h
    cases he
  · exact transferred_leads h ha.unfinished
  · exact answered_leads h

/-- The receipts satisfy the journal. -/
theorem settle_succeeds {x : Work D S U} {core : Core} (ha : Answering serial w)
    (hv : Transaction.validate env w.work.token w.root.tx = .ok () w.root.tx)
    (hepoch : w.root.tx.ids.epoch = w.work.token.epoch) (he : Ends w.root w.work x serial)
    (hcore : x.core = some core) (hp : Presentable w x) :
    Spec (settle env x core serial) w.root.tx (fun _ _ => True) fun _ _ => False := by
  obtain ⟨bound, hb, hstanding⟩ := ha.standing
  have hs := he.settled bound hstanding hb
  obtain ⟨tx, htx⟩ := hp.released
  have hphase := ha.phase
  rw [← he.token] at hv htx hepoch
  unfold Work.phaseOk at hphase
  rw [← he.disconnected, ← he.stopOnly] at hphase
  unfold settle
  by_cases hd : x.disconnected = true
  · rw [if_pos hd]
    obtain ⟨image, core', entry, himage, hcore', hfits⟩ := hp.head hd
    rw [hcore] at hcore'
    cases hcore'
    obtain ⟨-, hm, hsource, hlast⟩ := hs.lost hd
    rw [if_pos hd, Bool.and_eq_true, beq_iff_eq] at hphase
    obtain ⟨b, tx', hok⟩ := Transaction.disconnectedHead_apply hv hphase.2 hm hsource hlast
      ha.journal.symm hepoch hfits htx
    rw [himage]
    refine Spec.need_bind nofun fun _ h => ?_
    cases h
    exact .bind (.of_ok hok trivial)
  · rw [if_neg hd]
    rw [if_neg hd] at hphase
    rw [Bool.not_eq_true] at hd
    have hposted : w.root.tx.journal.phase = if (!x.stopOnly) = true then .restoring else .posted := by
      cases hstop : x.stopOnly with
      | true =>
        rw [hstop, if_pos rfl, Bool.or_eq_true, beq_iff_eq, beq_iff_eq] at hphase
        exact hphase.resolve_left ha.told.phase
      | false =>
        rw [hstop, if_neg nofun, beq_iff_eq] at hphase
        exact hphase
    have htable : (if (!x.stopOnly) = true then w.root.tx.journal.previous.table
        else w.root.tx.journal.target.table) = x.table w.root := by
      unfold Work.table before target
      cases x.stopOnly <;> rfl
    have hrebuilt : Transaction.rebuilt (x.table w.root) w.root.tx.journal.previous x.training
        x.sourceStop x.clearReceipt x.actReceipt x.branchReceipt serial ∧ 0 < x.sourceStop ∧
        x.sourceStop < x.clearReceipt ∧ x.clearReceipt ≤ serial := by
      unfold Transaction.rebuilt
      by_cases hn : (x.table w.root).count = 0
      · obtain ⟨htraining, hact, hbranch, hpos, hlt, heq⟩ := hs.bare hd hn
        rw [if_neg (not_not_intro hn)]
        exact ⟨⟨htraining, hact, hbranch⟩, hpos, hlt, heq.le⟩
      · obtain ⟨t, htraining, hpos, h₁, h₂, h₃, h₄, h₅, h₆, h₇, h₈⟩ := hs.full hd hn
        rw [if_pos hn]
        obtain ⟨p, hprev, hlink, hsource, hdpcd, htrained⟩ :=
          ha.training t (he.training t htraining)
        refine ⟨⟨t, htraining, by omega, h₁, ?_, htrained, by omega, by omega, h₈⟩, by omega, h₂, by omega⟩
        rw [Option.mem_def] at hprev
        rw [hprev]
        simp [hlink, hsource, hdpcd]
    exact .of_ok (Transaction.finishRebuild_apply hv hposted ha.told.posted hrebuilt.2.1 hrebuilt.2.2.1
      ha.journal.symm hrebuilt.2.2.2 (htable ▸ hrebuilt.1) htx) trivial

/-- What the guard has found of the journal and the registry. -/
theorem guard_valid (h : guard env now w = .ok () w) :
    Transaction.validate env w.work.token w.root.tx = .ok () w.root.tx ∧
      w.root.tx.ids.epoch = w.work.token.epoch := by
  simp only [guard, bind_ok_iff, get_apply, failIf_ok_iff] at h
  obtain ⟨_, _, h₀, _, _, ⟨-, rfl⟩, _, _, ⟨-, rfl⟩, _, w₁, hv, _, _, ⟨hg, -⟩, -⟩ := h
  cases h₀
  simp only [not_or, not_not] at hg
  unfold onJournal zoom at hv
  split at hv
  · rename_i hx
    exact ⟨by rw [hx, (Transaction.validate_ok hx).1], hg.2.2⟩
  · cases hv

/-- When the last query comes back, the receipts are as the journal demands. -/
theorem settled_of_acknowledged {record : R} {x : Work D S U} (hi : Inv w)
    (hk : Acknowledged env ports w record serial now x) :
    Answering serial (taken w serial) ∧ Ends (taken w serial).root (taken w serial).work x serial ∧
      Settled (taken w serial).root x serial := by
  obtain ⟨request, response, hr, -, hleads⟩ := hk.reply
  have hguard : Spec (guard env now) (taken w serial)
      (fun _ w' => w' = taken w serial ∧ Guarded env (taken w serial))
      fun _ w' => w' = taken w serial := guard_spec
  obtain ⟨-, hg⟩ := hguard.ok hk.guarded
  have ha := taken_answering hi (by rw [hr]; rfl) hk.posted hk.fresh.1 hg.healthy hg.unfinished
  have he := leads_of_answering ha hleads
  obtain ⟨bound, hb, hstanding⟩ := ha.standing
  exact ⟨ha, he, he.settled bound hstanding hb⟩

/-- Nothing but a check of another kind refuses the end of a rebuild. -/
theorem consume_finishes {record : R} {x : Work D S U} (hi : Inv w)
    (hk : Acknowledged env ports w record serial now x) (hp : Presentable w x) :
    ∃ w', consume env ports record serial now w = .ok () w' ∧ w'.work.stage = .complete ∧
      w'.work.completionReceipt = serial := by
  obtain ⟨ha, he, -⟩ := settled_of_acknowledged hi hk
  obtain ⟨request, response, hr, hdecode, hleads⟩ := hk.reply
  obtain ⟨hv, hepoch⟩ := guard_valid hk.guarded
  have hlast : Presentable (taken w serial) x :=
    { released := by
        obtain ⟨tx, htx⟩ := hp.released
        simp only [Transaction.releaseAll, bind_ok_iff, get_apply, Transaction.onIds_ok] at htx ⊢
        obtain ⟨_, _, h₀, r, hrel, -⟩ := htx
        cases h₀
        exact ⟨_, _, _, rfl, r, hrel, rfl⟩
      head := fun hd => by
        obtain ⟨image, core, entry, himage, hcore, hf⟩ := hp.head hd
        exact ⟨image, core, entry, himage, hcore, hf.found, hf.head, hf.window, hf.core, hf.point,
          hf.handle, hf.shown, hf.running⟩ }
  obtain ⟨core, hcore⟩ : ∃ core, x.core = some core := by
    rw [he.core]
    exact Option.isSome_iff_exists.mp (ha.core he.past)
  have hfinish : Spec (respond env ports request response serial now) (taken w serial)
      (fun _ w' => w'.work.stage = .complete ∧ w'.work.completionReceipt = serial)
      fun _ _ => False := by
    -- the switch of the reply is the one that `leads` names
    have hproceed : Spec (proceed env serial fun r y => y.leads r request response serial now)
        (taken w serial) (fun _ w' => w'.work.stage = .complete ∧ w'.work.completionReceipt = serial)
        fun _ _ => False := by
      unfold proceed
      apply Spec.get_bind
      dsimp only
      rw [hleads]
      apply onWork_bind
      unfold finish
      apply Spec.get_bind
      dsimp only
      rw [hcore]
      refine Spec.need_bind (by intro h; cases h) fun _ h => ?_
      cases h
      unfold onJournal
      refine .bind (.zoom ?_)
      exact (settle_succeeds ha hv hepoch he hcore hlast).mono (fun _ _ _ => ⟨rfl, rfl⟩) fun _ _ h => h
    unfold respond
    apply Spec.get_bind
    rw [show (taken w serial).work.up = none from hk.calm.1,
      show (taken w serial).work.sideband = none from hk.calm.2]
    cases response <;> exact hproceed
  have hspec : Spec (consume env ports record serial now) w
      (fun _ w' => w'.work.stage = .complete ∧ w'.work.completionReceipt = serial)
      fun _ _ => False := by
    unfold consume
    apply Spec.get_bind
    rw [hr]
    refine Spec.need_bind (by intro h; cases h) fun _ h => ?_
    cases h
    have hfresh := hk.fresh.1
    refine Spec.failIf_bind (fun h => ?_) fun _ => ?_
    · rcases h with h | h | h
      · rw [hk.posted] at h
        cases h
      · omega
      · omega
    apply onWork_bind
    have hbody : Spec (do
        onJournal (Transaction.receipt w.work.token serial)
        guard env now
        let response ← lift (ports.decode request record)
        respond env ports request response serial now)
        (⟨w.root, { w.work with request := none, lastReceipt := serial }⟩ : World D S U)
        (fun _ w' => w'.work.stage = .complete ∧ w'.work.completionReceipt = serial)
        fun _ _ => False := by
      have hphase : w.root.tx.journal.phase ≠ .vacant ∧ w.root.tx.journal.phase ≠ .committed ∧
          w.root.tx.journal.phase ≠ .restored := by
        have h := ha.phase
        unfold Work.phaseOk at h
        refine ⟨fun hp => ?_, fun hp => ?_, fun hp => ?_⟩ <;>
          simp [taken, hp] at h
      have hreceipt := Transaction.receipt_apply (w := w.root.tx) ha.token hk.fresh.2 hphase
      unfold onJournal
      refine .bind (.zoom (.of_ok hreceipt ?_))
      refine .bind (.of_ok hk.guarded ?_)
      rw [hdecode]
      refine Spec.lift_bind (by rintro _ ⟨⟩) fun _ h => ?_
      cases h
      exact hfinish
    obtain ⟨_, w', hok, hdone⟩ := hbody.returns
    refine .of_ok (?_ : _ = EStateM.Result.ok () w') hdone
    unfold failing
    rw [hok]
  obtain ⟨_, w', hok, hdone⟩ := hspec.returns
  exact ⟨w', hok, hdone⟩

/-- The receipts an image of the rebuilt table refers to are in order. -/
theorem imageProof_ordered {entry : Entry} {training : Training} {stamp : Link.Stamp}
    {corePoint windowPoint : Nat} (hi : Inv w) (hf : w.work.failure = none)
    (hs : w.work.stage = .complete) (ht : w.work.training = some training) :
    (w.work.imageProof entry training stamp corePoint windowPoint).ordered = true :=
  decide_eq_true (hi.finished hf hs training ht)

/-- A rebuild proves an image without a change: it is complete, the proof is that of the root's live
table as it was last committed, and complete for the plan. -/
theorem restoredImage_spec {plan : Plan} {corePoint windowPoint : Nat} :
    Spec (restoredImage env ports plan corePoint windowPoint) w
      (fun result w' => w' = w ∧ w.work.stage = .complete ∧
        result.revision = w.root.tx.live.revision ∧
        result.rateReceipt = w.root.tx.live.completionReceipt ∧
        (∃ entry, w.root.tx.live.table.find plan.mode.displayId = some entry ∧
          result.payloadId = entry.allocation.payloadId ∧ result.demand = entry.allocation.demand) ∧
        result.complete ports env.links plan = true)
      fun _ w' => w' = w := by
  unfold restoredImage
  refine .get_bind (.failIf_bind (fun _ => rfl) fun hown => ?_)
  refine .need_bind (fun _ => rfl) fun training _ => .need_bind (fun _ => rfl) fun stamp _ => ?_
  refine .need_bind (fun _ => rfl) fun entry hentry => .failIf_bind (fun _ => rfl) fun _ => ?_
  refine .failIf_bind (fun _ => rfl) fun hcomplete => ?_
  simp only [Work.Foreign, not_or, ne_eq, Decidable.not_not] at hown
  obtain ⟨hstage, -, -, -, hrevision, hreceipt, -⟩ := hown
  exact ⟨rfl, hstage, hrevision.symm, hreceipt.symm, ⟨entry, hentry, rfl, rfl⟩, by simpa using hcomplete⟩

end Restore

/-! ## Both works -/

namespace LinkWork

variable (env ports) in
/-- What holds at every moment of a run of the link work. -/
structure Sealed (w : World D S) : Prop where
  /-- A changing query is answered after the journal has been told. -/
  exposed : mutating w.work.stage = true → ∀ record serial now,
    (∃ e, consume env ports record serial now w = .error e w) ∨ Exposed w
  /-- The display owner is not refused for the order of receipts. -/
  scanout : w.work.stage = .scanout → w.work.request = none → w.work.failure = none →
    ∀ corePoint windowPoint, corePoint ≠ 0 → windowPoint ≠ 0 →
      ∃ w', scanoutComplete corePoint windowPoint w = .ok () w' ∧ w'.work.stage = .act
  chained : w.work.stage = .rateCheck → ∀ serial, w.work.lastReceipt < serial → Chained w.work serial
  commits : ∀ record serial now result, Acknowledged env ports w record serial now →
    Presentable env ports w serial result →
      ∃ w', consume env ports record serial now w = .ok () w' ∧ Installed w w' result

theorem Inv.sealed {w : World D S} (hi : Inv w) : Sealed env ports w where
  exposed hm record serial now := by
    cases hr : w.work.request with
    | none => exact .inl ⟨.error .Pending, by simp [consume, bind_apply, hr, need]⟩
    | some request =>
      cases hp : w.work.requestPosted with
      | false => exact .inl ⟨.error .Stale, by simp [consume, bind_apply, hr, hp, need, failIf]⟩
      | true => exact .inr (hi.exposed (by rw [hr]; rfl) hp hm)
  scanout hs hr hf _ _ hc hw := scanoutComplete_succeeds hi hs hr hf hc hw
  chained hs serial hlt := chained_of_climbed (by have h := hi.climbed; rwa [hs] at h) hlt
  commits _ _ _ _ hk hp := consume_commits hi hk hp

end LinkWork

namespace Restore

variable (env ports) in
/-- The same of the restore work, whose queries all count as changes. -/
structure Sealed (w : World D S U) : Prop where
  told : ∀ record serial now, (∃ e, consume env ports record serial now w = .error e w) ∨ Told w
  settled : ∀ record serial now x, Acknowledged env ports w record serial now x →
    Settled (taken w serial).root x serial
  finishes : ∀ record serial now x, Acknowledged env ports w record serial now x → Presentable w x →
    ∃ w', consume env ports record serial now w = .ok () w' ∧ w'.work.stage = .complete ∧
      w'.work.completionReceipt = serial
  /-- An image of the rebuilt table is not refused for the order of receipts. -/
  image : w.work.failure = none → w.work.stage = .complete → ∀ training, w.work.training = some training →
    ∀ entry stamp corePoint windowPoint,
      (w.work.imageProof entry training stamp corePoint windowPoint).ordered = true

theorem Inv.sealed {w : World D S U} (hi : Inv w) : Sealed env ports w where
  told record serial now := by
    cases hr : w.work.request with
    | none => exact .inl ⟨.error .Pending, by simp [consume, bind_apply, hr, need]⟩
    | some request =>
      cases hp : w.work.posted with
      | false => exact .inl ⟨.error .Stale, by simp [consume, bind_apply, hr, hp, need, failIf]⟩
      | true => exact .inr (hi.told (by rw [hr]; rfl) hp)
  settled _ _ _ _ hk := (settled_of_acknowledged hi hk).2.2
  finishes _ _ _ _ hk hp := consume_finishes hi hk hp
  image hf hs _ ht _ _ _ _ := imageProof_ordered hi hf hs ht

end Restore

/-- In every run of either work, the hardware's answers find the journal ready for them, and the order of
the receipts never stands in the way of the end. -/
theorem sequence_commits :
    (∀ (w₀ w : LinkWork.World D S) h, LinkWork.Started env w₀ → Run (LinkWork.act env ports) w₀ h w →
      LinkWork.Sealed env ports w) ∧
    ∀ (w₀ w : Restore.World D S U) h, Restore.Started env ports w₀ →
      Run (Restore.act env ports) w₀ h w → Restore.Sealed env ports w :=
  ⟨fun _ _ _ hs hr => (LinkWork.inv_of_run hs hr).sealed, fun _ _ _ hs hr =>
    (Restore.inv_of_run hs hr).sealed⟩

/-! ## A stream brought up, and one taken back -/

namespace Bringup

open Link (SideRequest Resource BranchInfo)
open Transaction (plainEnv twoSinks oneStream)

def blank : Vector Byte 16 := Vector.replicate 16 0

def dpcd : Vector Byte 16 := ((blank.set 0 0x12).set 1 20).set 2 0x84

def guid : Guid := Vector.replicate 16 7

/-- Replies come as they are, and the branch answers each request at once. -/
def plainPorts : Ports Reply SideRequest Unit where
  decode _ r := .ok r
  receiverCaps _ := .ok (20, 4, true, false)
  downInit _ _ _ _ _ request := .ok request
  downPrepare s _ _ := (.ok (some (1, .mailbox true 0 4)), s)
  downNotBefore _ := 0
  downConsume s _ _ _ _ := (.ok (), s)
  downComplete _ := true
  downReply s :=
    match s with
    | .linkAddress => .ok (.branch ⟨guid, []⟩)
    | .enumPath _ => .ok (.path ⟨2560, 2560, none⟩)
    | .allocate .. => .ok .allocated
    | .query .. => .ok (.queried 532)
    | .clear => .ok (.ack .clear)
  downUpPending _ := false
  downPacketCount _ := 4
  upInit _ _ _ := .ok ()
  upStage _ := .busy
  upNotification _ _ := .error (.error .Stale)
  upRoute _ := {}
  upRespond _ _ _ _ := .ok ()
  upDownPending _ := false
  upNotBefore _ := 0
  upPrepare _ _ _ := (.error (.error .Stale), ())
  upConsume _ _ _ _ _ := (.ok (), ())

def rootResource : Resource := ⟨0, 2, 8, 0, 0, 0, 0, 0, 0, false, false⟩
def leafResource : Resource := ⟨0, 2, 8, 0, 0, 0, 1, 0, 0, false, true⟩
def source : DpSource := { rate := 30, increasedWatermark := false, mst := true }

def plan : Plan where
  object := ⟨1, 1, 1⟩
  mode := ⟨0, 0, 0, 2, some ⟨⟨1, 1, 0⟩, 1, 2⟩, 1, ⟨⟨148500000, 1⟩, 1920, 2200, 8⟩, false⟩
  rootResource := rootResource
  rootSource := source
  rootDpcd := dpcd
  rootGuid := guid

/-- The first sink has a verified ID. -/
def opened : List (Transaction.Request Content) :=
  [.registry (.synchronize twoSinks 0 0 1),
    .registry (.allocate ⟨1, 1, 0⟩), .registry (.allocated ⟨1, 1, 0⟩ 2 6),
    .registry (.resource ⟨1, 1, 0⟩ ⟨true, 1, 0, 2, 8, 0⟩ 7)]

def root : Root Content where
  tx := (exec (Transaction.step plainEnv) ⟨{}, {}, {}⟩ opened).2
  id := 1
  graph := twoSinks
  descriptors _ := some ⟨guid, []⟩
  resource := some rootResource
  source := some source
  dpcd := dpcd
  mailboxPending := false
  mailboxDeadline := 0
  sequence := 0
  streamSerial := 4
  payloadDirty := false

def start : Call Fault (Root Content) (LinkWork.Work Content SideRequest) :=
  LinkWork.init plainEnv plan (.ok plan) (.ok ⟨⟨20, 4⟩, oneStream⟩) 1000000000000

def succeeded {ε σ α : Type} : EStateM.Result ε σ α → Bool
  | .ok .. => true
  | .error .. => false

/-- The work that a successful call returns, on the root it leaves. -/
def linkWorld : LinkWork.World Content SideRequest :=
  match start root with
  | .ok w r => ⟨r, w⟩
  | .error _ r => ⟨r, { plan := plan, token := Transaction.oneToken, deadline := 0 }⟩

theorem started : LinkWork.Started plainEnv linkWorld := by
  have hok : succeeded (start root) = true := by decide +kernel
  refine ⟨{}, _, root, plan, .ok plan, .ok ⟨⟨20, 4⟩, oneStream⟩, 1000000000000,
    Run.of_exec (Transaction.step plainEnv) ⟨{}, {}, {}⟩ opened, ?_⟩
  show start root = _
  unfold linkWorld
  cases h : start root with
  | ok w r => rfl
  | error e r =>
    rw [h] at hok
    cases hok

def acked (n : Nat) (data : Vector Byte 16) : Reply := .aux ⟨0, .ack, 0, n, data⟩

/-- Sixteen slots of the payload table with the stream in slots 1 to 14. -/
def part (i : Nat) : Vector Byte 16 :=
  Vector.ofFn fun k => if i * 16 + k.val = 0 then 2 else if i * 16 + k.val < 15 then 1 else 0

/-- The root is the one of the plan, and both paths have room. -/
def inspected : List Reply :=
  [.connected 1, .resource rootResource, .dpSource (.ok source), .resource leafResource,
    acked 16 dpcd, acked 1 (blank.set 0 1), acked 1 (blank.set 0 7), acked 16 guid, acked 8 blank,
    .heads 2, .active 0, .active 0, acked 4 blank, acked 4 blank, acked 4 blank]

/-- The link trains, the receiver is cleared, the stream starts. -/
def programmed : List Reply :=
  [acked 1 (blank.set 0 1), acked 1 (blank.set 0 1), .training ⟨0, 0, 0⟩,
    acked 2 ((blank.set 0 20).set 1 0x84),
    acked 8 ((((blank.set 0 1).set 2 0x77).set 3 0x77).set 4 1), acked 1 blank, acked 3 blank,
    acked 1 (blank.set 0 1), acked 4 blank, acked 16 blank, acked 16 blank, acked 16 blank,
    acked 16 blank, .control, .control, .control, acked 1 blank, acked 3 blank,
    acked 1 (blank.set 0 1)]

/-- The receiver acts, and the branch allocates. -/
def allocated : List Reply :=
  [.control, acked 1 (blank.set 0 2), acked 16 (part 0), acked 16 (part 1), acked 16 (part 2),
    acked 16 (part 3), .control, .control, acked 4 blank, acked 4 blank, .control, .control]

/-- Each query is prepared, submitted and answered, ten milliseconds after the one before. -/
def exchanges : Nat → List Reply → List (LinkWork.Act Content Reply)
  | _, [] => []
  | n, r :: rest => .call (.prepare (n * 10000000)) :: .call .submitted ::
      .call (.consume r n (n * 10000000)) :: exchanges (n + 1) rest

def whole : List (LinkWork.Act Content Reply) :=
  exchanges 1 (inspected ++ programmed) ++ .call (.scanoutComplete 40 41) :: exchanges 35 allocated

/-- The journal of a work that failed behind its eighteenth reply. -/
def exposed : List (Transaction.Request Content) :=
  opened ++ [.reserve 1 1 1 5 {} ⟨⟨20, 4⟩, oneStream⟩, .posted Transaction.oneToken 17,
    .receipt Transaction.oneToken 18]

def failedRoot : Root Content :=
  { root with tx := (exec (Transaction.step plainEnv) ⟨{}, {}, {}⟩ exposed).2 }

def failed : LinkWork.Work Content SideRequest :=
  { plan := plan, token := Transaction.oneToken, deadline := 0, lastReceipt := 18, requestSerial := 18,
    failure := some .Unexpected }

def takeBack : Call Fault (Root Content) (Restore.Work Content SideRequest Unit) :=
  Restore.init plainEnv failed 1000000000000

def restoreWorld : Restore.World Content SideRequest Unit :=
  match takeBack failedRoot with
  | .ok w r => ⟨r, w⟩
  | .error _ r => ⟨r, { plan := plan, token := Transaction.oneToken, deadline := 0, candidateCore := 0,
                        candidateWindow := 0 }⟩

theorem restoreStarted : Restore.Started plainEnv plainPorts restoreWorld := by
  have hok : succeeded (takeBack failedRoot) = true := by decide +kernel
  refine ⟨{}, _, failedRoot, Run.of_exec (Transaction.step plainEnv) ⟨{}, {}, {}⟩ exposed,
    .inl ⟨failed, 1000000000000, ?_⟩⟩
  show takeBack failedRoot = _
  unfold restoreWorld
  cases h : takeBack failedRoot with
  | ok w r => rfl
  | error e r =>
    rw [h] at hok
    cases hok

def rebuilds : Nat → List Reply → List (Restore.Act Content Reply)
  | _, [] => []
  | n, r :: rest => .call (.prepare (n * 10000000)) :: .call .submitted ::
      .call (.consume r n (n * 10000000)) :: rebuilds (n + 1) rest

/-- No stream was on before: the source is stopped, the receiver cleared. -/
def wholeRebuild : List (Restore.Act Content Reply) :=
  rebuilds 19 [.connected 1, .resource rootResource, acked 16 guid, acked 4 blank, .heads 2, .active 0,
    .active 0] ++
  .call (.scanoutRestored ⟨false, 0, 0⟩) ::
  rebuilds 26 [.active 0, .control, acked 1 blank, acked 3 blank, acked 1 (blank.set 0 1),
    acked 4 blank, acked 16 blank, acked 16 blank, acked 16 blank, acked 16 blank]

/-- A whole link sequence ends with the stream's table installed, and a whole rebuild with none. -/
theorem sequence_commits_whole :
    (LinkWork.Sealed plainEnv plainPorts (exec (LinkWork.act plainEnv plainPorts) linkWorld whole).2 ∧
      (exec (LinkWork.act plainEnv plainPorts) linkWorld whole).2.work.stage = .complete ∧
      (exec (LinkWork.act plainEnv plainPorts) linkWorld whole).2.root.tx.live.table = oneStream) ∧
    Restore.Sealed plainEnv plainPorts
      (exec (Restore.act plainEnv plainPorts) restoreWorld wholeRebuild).2 ∧
    (exec (Restore.act plainEnv plainPorts) restoreWorld wholeRebuild).2.work.stage = .complete :=
  ⟨⟨sequence_commits.1 _ _ _ started (Run.of_exec _ _ _), by decide +kernel, by decide +kernel⟩,
    sequence_commits.2 _ _ _ restoreStarted (Run.of_exec _ _ _), by decide +kernel⟩

end Bringup

end Mst
end NvidiaGsp
