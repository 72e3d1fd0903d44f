import NvidiaGsp.Mst.TransactionSound

/-!
# Mst.LinkRuns

Whole runs of the link work. It starts on a root whose journal any calls may have touched, and between
its own steps everything of the root but the journal may change. `consume_commits` is the result: when
the last query is acknowledged, the receipts ascend as the journal demands, and nothing but a check of
another kind can refuse the commit.
-/

namespace NvidiaGsp
namespace Mst

open Call Ladder
open Payload
open Link (Fault Request Reply Ports Root Plan Result)

set_option linter.unusedSectionVars false

variable {D : Type} [DecidableEq D] {R S U : Type} {env : Transaction.Env D} {ports : Ports R S U}

namespace Link

/-- Others change the root; its journal is the work's. -/
def Root.outside (r other : Root D) : Root D :=
  { other with tx := { other.tx with journal := r.tx.journal } }

end Link

namespace LinkWork

inductive Act (D R : Type) where
  | call (step : Step R)
  | outside (other : Root D)

variable (env ports) in
def act (w : World D S) : Act D R → Except Fault Unit × World D S
  | .call step => outcome (run env ports step) w
  | .outside other => (.ok (), { w with root := w.root.outside other })

variable (env) in
/-- The work begins on a root whose journal any calls may have touched. -/
def Started (w : World D S) : Prop :=
  ∃ live h r plan derived desired deadline, Run (Transaction.step env) ⟨{}, live, {}⟩ h r.tx ∧
    init env plan derived desired deadline r = .ok w.work w.root

variable {w w₀ : World D S} {serial now : Nat}

theorem Started.inv (h : Started env w) : Inv w := by
  obtain ⟨live, h, r, plan, derived, desired, deadline, hr, hinit⟩ := h
  have hs := Transaction.sound_run hr
  simp only [init, bind_ok_iff, get_apply, failIf_ok_iff, lift_ok_iff, pure_apply, modify_apply] at hinit
  obtain ⟨_, _, ⟨-, rfl⟩, _, _, ⟨-, rfl⟩, _, _, h₀, _, _, ⟨-, rfl⟩, wanted, _, ⟨-, rfl⟩, token, r₁,
    hres, _, _, h₁, h₂⟩ := hinit
  cases h₀; cases h₁
  unfold zoom at hres
  split at hres
  · rename_i t tx htx
    cases hres
    obtain ⟨hv, handles, hj⟩ := Transaction.reserve_journal htx
    have hempty := hs.vacant hv
    injection h₂ with hwork hroot
    have hjournal : w.root.tx.journal = tx.journal := by rw [← hroot]
    refine ⟨?_, ?_, ?_, fun _ _ => ⟨?_, ?_, .inl ?_, ?_⟩, ?_⟩
    · rw [← hwork]
      exact .ground
    · rw [← hwork]
      exact fun h => absurd h (by decide : ¬ 2 ≤ rank .connected)
    · rw [← hwork]
      intros
      contradiction
    · rw [hjournal, hj, ← hwork]
    · rw [hjournal, hj, ← hwork, hempty]
    · rw [hjournal, hj]
    · rw [← hwork]
      intros
      contradiction
    · rw [← hwork]
      intros
      contradiction
  · cases hres

theorem act_inv {a : Act D R} {out : Except Fault Unit} {w' : World D S} (hi : Inv w)
    (h : act env ports w a = (out, w')) : Inv w' := by
  cases a with
  | call step =>
    have hrun : Spec (run env ports step) w (fun _ w' => Inv w') fun _ w' => Inv w' := run_inv hi
    have hspec := hrun.outcome (P := fun _ w' => Inv w')
    rw [show outcome (run env ports step) w = (out, w') from h] at hspec
    exact hspec
  | outside other =>
    cases h
    exact hi.quiet ⟨rfl, rfl, rfl, rfl, rfl, by constructor <;> intro <;> rfl⟩ (fun h₁ h₂ => ⟨h₁, h₂⟩)
      hi.side

theorem inv_of_run {h : List (Event (World D S) (Act D R) (Except Fault Unit))} (hs : Started env w₀)
    (hr : Run (act env ports) w₀ h w) : Inv w :=
  hr.invariant (P := fun _ w => Inv w) hs.inv fun _ _ _ _ _ hi hst => act_inv hi hst

/-- The receipts ascend up to the last one. -/
def Chained (w : Work D S) (last : Nat) : Prop :=
  ∃ t, w.training = some t ∧ 0 < t.receipt ∧ t.receipt < w.sourceReceipt ∧
    w.sourceReceipt < w.tableReceipt ∧ w.tableReceipt < w.actReceipt ∧
    w.actReceipt < w.packetReceipt ∧ w.packetReceipt < w.branchReceipt ∧ w.branchReceipt < last

theorem chained_of_climbed {x : Work D S} {bound : Nat} (h : Climbed x.mark 6 bound)
    (hlt : bound < serial) : Chained x serial := by
  have hpos := h.pos (i := 0) (by decide)
  cases ht : x.training with
  | none =>
    have hzero : x.mark 0 = 0 := congrArg receiptOf ht
    omega
  | some t =>
    have hzero : x.mark 0 = t.receipt := congrArg receiptOf ht
    refine ⟨t, ht, hzero ▸ hpos, hzero ▸ h.lt (i := 0) (j := 1) (by decide) (by decide),
      h.lt (i := 1) (j := 2) (by decide) (by decide), h.lt (i := 2) (j := 3) (by decide) (by decide),
      h.lt (i := 3) (j := 4) (by decide) (by decide), h.lt (i := 4) (j := 5) (by decide) (by decide), ?_⟩
    exact lt_of_le_of_lt (h.le (i := 5) (by decide)) hlt

/-- What the work has to show is in order. -/
theorem Chained.ordered {x : Work D S} {r : Root D} {result : Result} (h : Chained x serial)
    (hp : x.proof r serial = some result) : result.ordered = true ∧ 0 < result.training.receipt ∧
      result.training.receipt < serial ∧ x.training = some result.training := by
  obtain ⟨t, ht, hchain⟩ := h
  simp only [Work.proof, ht, Option.bind_eq_bind, Option.bind_eq_some_iff, Option.pure_def,
    Option.some.injEq] at hp
  obtain ⟨stamp, -, _, rfl, entry, -, rfl⟩ := hp
  refine ⟨decide_eq_true ⟨?_, ?_, ?_, ?_, ?_, ?_⟩, hchain.1, ?_, ht⟩ <;> dsimp only <;> omega

variable (env ports) in
/-- The last query of the work is out and comes back acknowledged, in time and on the root that the
plan was made for. -/
structure Acknowledged (w : World D S) (record : R) (serial now : Nat) : Prop where
  stage : w.work.stage = .rateCheck
  posted : w.work.requestPosted = true
  request : ∃ request, w.work.request = some request ∧ ports.decode request record = .ok .control
  fresh : w.work.lastReceipt < serial
  guarded : guard env now (taken w serial) = .ok () (taken w serial)

variable (env ports) in
/-- The checks of the commit that are not about the order of receipts. -/
structure Presentable (w : World D S) (serial : Nat) (result : Result) : Prop where
  proof : w.work.proof w.root serial = some result
  fits : result.fits env.links (ports.receiverCaps result.training.dpcd) w.work.plan = true
  released : ∃ tx, Transaction.releaseAll w.work.token w.root.tx = .ok () tx

/-- The target table is the live one, proved by the result. -/
structure Installed (w w' : World D S) (result : Result) : Prop where
  stage : w'.work.stage = .complete
  shown : w'.work.result = some { result with revision := w.work.token.revision + 1 }
  table : w'.root.tx.live.table = w.root.tx.journal.target.table
  training : w'.root.tx.live.training = some result.training

/-- The guard lets the journal's token through. -/
theorem guard_valid (h : guard env now w = .ok () w) :
    Transaction.validate env w.work.token w.root.tx = .ok () w.root.tx := by
  simp only [guard, bind_ok_iff, get_apply, failIf_ok_iff] at h
  obtain ⟨_, _, h₀, _, _, ⟨-, rfl⟩, _, _, ⟨-, rfl⟩, _, w₁, hv, _⟩ := h
  cases h₀
  unfold onJournal zoom at hv
  split at hv
  · rename_i hx
    rw [hx, (Transaction.validate_ok hx).1]
  · cases hv

theorem commit_succeeds {result : Result} (ha : Answering serial w) (hs : w.work.stage = .rateCheck)
    (hv : Transaction.validate env w.work.token w.root.tx = .ok () w.root.tx)
    (hp : Presentable env ports w serial result) :
    Spec (commit env ports serial) w
      (fun _ w' => Installed w w' result) fun _ _ => False := by
  obtain ⟨bound, hb, hc⟩ := ha.climbed
  rw [hs] at hc
  obtain ⟨hordered, hpos, hlt, htraining⟩ := (chained_of_climbed hc hb).ordered hp.proof
  have hx := ha.posted (.inl (by rw [hs]; decide))
  have hposted : w.root.tx.journal.phase = .posted := by
    refine hx.phase.resolve_right fun h => ?_
    rw [ha.healthy] at h
    cases h
  have hfits := hp.fits
  have htrained : trained result.training.lanes result.training.link.lanes = true := by
    simp only [Result.fits, Bool.and_eq_true] at hfits
    exact hfits.1.2
  obtain ⟨tx, htx⟩ := hp.released
  unfold commit
  apply Spec.get_bind
  rw [hp.proof]
  refine Spec.need_bind nofun fun _ h => ?_
  cases h
  refine Spec.failIf_bind (fun h => ?_) fun _ => ?_
  · rw [Result.complete, hordered, hfits] at h
    cases h
  · unfold onJournal
    refine .bind (.zoom (.of_ok (Transaction.commit_apply hv hposted hx.told
      (ha.last.symm.trans ha.held.last.symm) hpos hlt (ha.held.link _ htraining) htrained htx) ?_))
    exact ⟨rfl, rfl, rfl, rfl⟩

/-- Nothing but a check of another kind refuses the last acknowledgement. -/
theorem consume_commits {record : R} {result : Result} (hi : Inv w)
    (hk : Acknowledged env ports w record serial now)
    (hp : Presentable env ports w serial result) :
    ∃ w', consume env ports record serial now w = .ok () w' ∧ Installed w w' result := by
  obtain ⟨request, hr, hdecode⟩ := hk.request
  have hguard : Spec (guard env now) (taken w serial) (fun _ w' => Guarded env w')
      fun _ w' => w' = taken w serial := guard_spec id
  have hg := hguard.ok hk.guarded
  have hf : w.work.failure = none := hg.healthy
  have ha := taken_answering hi (by rw [hr]; rfl) hk.posted hk.fresh hf hg.unfinished
  have hside : (taken w serial).work.sideband = none := by
    cases hsome : (taken w serial).work.sideband with
    | none => rfl
    | some s =>
      have hpackets := ha.side (by rw [hsome]; rfl)
      rw [show (taken w serial).work.stage = .rateCheck from hk.stage] at hpackets
      cases hpackets
  have hlast : Presentable env ports (taken w serial) serial result :=
    ⟨hp.proof, hp.fits, by
      obtain ⟨tx, htx⟩ := hp.released
      simp only [Transaction.releaseAll, bind_ok_iff, get_apply, Transaction.onIds_ok] at htx ⊢
      obtain ⟨_, _, h₀, r, hrel, -⟩ := htx
      cases h₀
      exact ⟨_, _, _, rfl, r, hrel, rfl⟩⟩
  have hspec : Spec (consume env ports record serial now) w
      (fun _ w' => Installed w w' result) fun _ _ => False := by
    unfold consume
    apply Spec.get_bind
    rw [hr]
    refine Spec.need_bind (by intro h; cases h) fun _ h => ?_
    cases h
    have hfresh := hk.fresh
    refine Spec.failIf_bind (fun h => ?_) fun _ => ?_
    · rcases h with h | h | h
      · rw [hk.posted] at h
        cases h
      · omega
      · omega
    apply onWork_bind
    refine onJournal_bind (Transaction.atomic_receipt _ _) (fun e tx h => ?_) fun _ tx h => ?_
    · rw [(hi.held hf hg.unfinished).receipt hk.fresh] at h
      cases h
    · rw [receipt_journal h]
      show Spec (failing _) (taken w serial) _ _
      have hbody : Spec (do
          guard env now
          let response ← lift (ports.decode request record)
          respond env ports request response serial now) (taken w serial)
          (fun _ w' => Installed w w' result) fun _ _ => False := by
        refine .bind (.of_ok hk.guarded ?_)
        rw [hdecode]
        refine Spec.lift_bind (by rintro _ ⟨⟩) fun _ h => ?_
        cases h
        unfold respond
        apply Spec.get_bind
        rw [hside]
        unfold proceed
        apply Spec.get_bind
        dsimp only
        rw [show Work.answered (taken w serial).work (taken w serial).root .control serial now =
          .ok .commit by
            unfold Work.answered
            rw [show (taken w serial).work.stage = .rateCheck from hk.stage]]
        exact (commit_succeeds ha hk.stage (guard_valid hk.guarded) hlast).mono
          (fun _ _ h => ⟨h.stage, h.shown, h.table, h.training⟩) fun _ _ h => h
      obtain ⟨_, w', hok, hdone⟩ := hbody.returns
      refine .of_ok (?_ : _ = EStateM.Result.ok () w') hdone
      unfold failing
      rw [hok]
  obtain ⟨_, w', hok, hdone⟩ := hspec.returns
  exact ⟨w', hok, hdone⟩

/-- The display owner is never refused for the order of the receipts. -/
theorem scanoutComplete_succeeds {corePoint windowPoint : Nat} (hi : Inv w) (hs : w.work.stage = .scanout)
    (hr : w.work.request = none) (hf : w.work.failure = none) (hc : corePoint ≠ 0) (hw : windowPoint ≠ 0) :
    ∃ w', scanoutComplete corePoint windowPoint w = .ok () w' ∧ w'.work.stage = .act := by
  have hclimbed := hi.climbed
  rw [hs] at hclimbed
  have h₁ : w.work.sourceReceipt < w.work.tableReceipt :=
    hclimbed.lt (i := 1) (j := 2) (by decide) (by decide)
  have h₀ : w.work.mark 0 < w.work.sourceReceipt := hclimbed.lt (i := 0) (j := 1) (by decide) (by decide)
  have hpos := hclimbed.pos (i := 0) (by decide)
  have htraining : w.work.training.any (fun t => decide (t.receipt < w.work.sourceReceipt)) = true := by
    cases ht : w.work.training with
    | none =>
      have hzero : w.work.mark 0 = 0 := congrArg receiptOf ht
      omega
    | some t =>
      have hzero : w.work.mark 0 = t.receipt := congrArg receiptOf ht
      simp only [Option.any_some, decide_eq_true_eq]
      omega
  refine ⟨⟨w.root, { w.work with corePoint := corePoint, windowPoint := windowPoint }.move .act⟩, ?_, rfl⟩
  unfold scanoutComplete
  rw [bind_apply, get_apply]
  dsimp only
  rw [bind_apply, failIf_of_not]
  · rfl
  · simp only [not_or, not_not, Option.isSome_none, hr, hf, hs]
    exact ⟨trivial, nofun, nofun, hc, hw, by omega, htraining⟩

end LinkWork

end Mst
end NvidiaGsp
