import NvidiaGsp.Mst.LinkSteps
import NvidiaGsp.Mst.Restore

/-!
# Mst.RestoreSteps

Where a reply can take the restore work. There are three ladders: a root with streams climbs over
training, source stop, clear, source, table, ACT, packet and branch; a root left empty over source
stop and clear alone; and when the receiver is gone, the loss and the source stop are all there is.
`Standing` says which ladder the work is on and how far it has come; `Goes` collects what every switch
of `consume` keeps.
-/

namespace NvidiaGsp
namespace Mst
namespace Restore

open Call Ladder
open Payload
open Link (Fault Reply AuxReply SideReply Ports Root BranchInfo Resource)
open LinkWork (before target receiptOf bind_ok map_ok expect_ok nextOf entryAt shows)

set_option linter.unusedSectionVars false

variable {D : Type} [DecidableEq D] {R S U : Type} {r : Root D} {w w' : Work D S U}
  {serial now : Nat}

/-! ## Ranks and marks -/

/-- How many of the eight receipts a stage has behind it; no root with streams can have the nine of
a stage that is for lost receivers alone. -/
def rank : Stage → Nat
  | .heads | .active | .activeResource | .rateOn | .rateOnCheck | .scanout | .verifyActive
  | .stopSource => 1
  | .clearStatus | .clearTable | .clearUpdated | .clearBranches | .clearVerify => 2
  | .source => 3
  | .payloadClear | .payload | .updated => 4
  | .trigger | .act | .actHandled | .verifyTable => 5
  | .clearVsc | .clearHdr => 6
  | .allocate | .query => 7
  | .rateOff | .rateOffCheck => 8
  | .lossSource | .lossRateOff | .lossRateCheck => 9
  | _ => 0

/-- The receipts in the order they must come. -/
def Work.mark (w : Work D S U) : Nat → Nat
  | 0 => receiptOf w.training
  | 1 => w.sourceStop
  | 2 => w.clearReceipt
  | 3 => w.sourceReceipt
  | 4 => w.tableReceipt
  | 5 => w.actReceipt
  | 6 => w.packetReceipt
  | 7 => w.branchReceipt
  | _ => 0

/-- The stages of a root whose receiver is gone. -/
def lossStage : Stage → Bool
  | .connected | .resource | .heads | .active | .activeResource | .scanout | .verifyActive
  | .lossSource | .lossRateOff | .lossRateCheck => true
  | _ => false

def lossRank : Stage → Nat
  | .lossRateOff | .lossRateCheck => 2
  | _ => 1

/-- The loss, then the stopped source. -/
def lossMark (missing stop : Nat) : Nat → Nat
  | 0 => missing
  | 1 => stop
  | _ => 0

/-- The stages that read the link of a running root. -/
def reads : Stage → Bool
  | .linkConfig | .linkStatus => true
  | _ => false

/-- The stages behind the display owner's scanout. -/
def past : Stage → Bool
  | .connected | .resource | .guid | .branches | .linkConfig | .linkStatus | .heads | .active
  | .activeResource | .rateOn | .rateOnCheck | .scanout => false
  | _ => true

/-- A root left without streams. -/
structure Bare (w : Work D S U) (bound : Nat) : Prop where
  climbed : Climbed (fun i => w.mark (i + 1)) (rank w.stage - 1) bound
  training : w.training = none
  act : w.actReceipt = 0
  branch : w.branchReceipt = 0
  low : rank w.stage ≤ 2
  unread : reads w.stage = false

/-- How far the work has come; `bound` is the last serial. -/
structure Standing (r : Root D) (w : Work D S U) (bound : Nat) : Prop where
  full : w.disconnected = false → (w.table r).count ≠ 0 → Climbed w.mark (rank w.stage) bound
  bare : w.disconnected = false → (w.table r).count = 0 → Bare w bound
  lost : w.disconnected = true → lossStage w.stage = true ∧ w.up = none ∧ w.training = none ∧
    Climbed (lossMark r.tx.journal.missingReceipt w.sourceStop) (lossRank w.stage) bound

/-- The training is that of the old table, seen again. -/
def Proven (r : Root D) (t : Training) : Prop :=
  ∃ p ∈ r.tx.journal.previous.training, t.link = p.link ∧ t.source = p.source ∧ t.dpcd = p.dpcd ∧
    trained t.lanes t.link.lanes = true

/-- The part of the work that a reply leaves alone. -/
structure Steady (w w' : Work D S U) : Prop where
  token : w'.token = w.token
  request : w'.request = w.request
  last : w'.lastReceipt = w.lastReceipt
  failure : w'.failure = w.failure
  sideband : w'.sideband = w.sideband
  disconnected : w'.disconnected = w.disconnected
  stopOnly : w'.stopOnly = w.stopOnly
  core : w'.core = w.core
  up : lossStage w.stage = true → w'.up = w.up

/-- The receipts are the same, except perhaps that of rank `k`. -/
structure SameBut (k : Nat) (w w' : Work D S U) : Prop where
  training : k ≠ 0 → w'.training = w.training
  stop : k ≠ 1 → w'.sourceStop = w.sourceStop
  clear : k ≠ 2 → w'.clearReceipt = w.clearReceipt
  source : k ≠ 3 → w'.sourceReceipt = w.sourceReceipt
  table : k ≠ 4 → w'.tableReceipt = w.tableReceipt
  act : k ≠ 5 → w'.actReceipt = w.actReceipt
  packet : k ≠ 6 → w'.packetReceipt = w.packetReceipt
  branch : k ≠ 7 → w'.branchReceipt = w.branchReceipt

theorem SameBut.mark {k : Nat} (h : SameBut k w w') : ∀ i, i ≠ k → w'.mark i = w.mark i
  | 0, hi => congrArg receiptOf (h.training hi.symm)
  | 1, hi => h.stop hi.symm
  | 2, hi => h.clear hi.symm
  | 3, hi => h.source hi.symm
  | 4, hi => h.table hi.symm
  | 5, hi => h.act hi.symm
  | 6, hi => h.packet hi.symm
  | 7, hi => h.branch hi.symm
  | _ + 8, _ => rfl

theorem rank_le (stage : Stage) : rank stage ≤ 9 := by
  cases stage <;> decide

/-- What a reply does to the work. -/
structure Goes (r : Root D) (w w' : Work D S U) (serial : Nat) : Prop extends Steady w w' where
  unfinished : w'.stage ≠ .complete
  start : w'.stage = .connected → w.stage = .connected ∧ w'.training = w.training
  past : past w'.stage = true → past w.stage = true
  training : ∀ t ∈ w'.training, t ∈ w.training ∨ Proven r t
  standing : ∀ bound, Standing r w bound → bound < serial → Standing r w' serial

/-- A stage can follow another on every ladder. -/
def follows (stage next : Stage) : Bool :=
  decide (rank next ≤ rank stage) && (!reads next || reads stage) &&
    (!lossStage stage || lossStage next && decide (lossRank next ≤ lossRank stage)) &&
    (!past next || past stage) && (next != .connected || stage == .connected) && next != .complete

/-- Nothing but the place changes; each ladder is answered for. Rank 9 has no receipt. -/
theorem Goes.stay (stage : Stage) (hw : w'.stage = stage) (hs : Steady w w') (hm : SameBut 9 w w')
    (hf : w.disconnected = false → (w.table r).count ≠ 0 → rank stage ≤ rank w.stage)
    (hb : w.disconnected = false → (w.table r).count = 0 → reads w.stage = false →
      rank w.stage ≤ 2 → rank stage - 1 ≤ rank w.stage - 1 ∧ rank stage ≤ 2 ∧ reads stage = false)
    (hl : w.disconnected = true → lossStage w.stage = true →
      lossStage stage = true ∧ lossRank stage ≤ lossRank w.stage)
    (hp : Restore.past stage = true → Restore.past w.stage = true)
    (hn : stage = .connected → w.stage = .connected) (hc : stage ≠ .complete) :
    Goes r w w' serial where
  toSteady := hs
  unfinished := hw ▸ hc
  start h := ⟨hn (hw ▸ h), hm.training (by decide)⟩
  past h := hp (hw ▸ h)
  training t h := .inl (hm.training (by decide) ▸ h)
  standing bound h hlt := by
    have htable : w'.table r = w.table r := by
      unfold Work.table
      rw [hs.stopOnly]
    have hmark : ∀ i < 9, w'.mark i = w.mark i := fun i hi => hm.mark i (by omega)
    refine ⟨fun hd hn => ?_, fun hd hn => ?_, fun hd => ?_⟩
    · rw [hs.disconnected] at hd
      rw [htable] at hn
      rw [hw]
      refine (h.full hd hn).keep (hf hd hn) hlt.le fun i hi => hmark i ?_
      have := rank_le stage
      omega
    · rw [hs.disconnected] at hd
      rw [htable] at hn
      have hbare := h.bare hd hn
      obtain ⟨hr, hlow, hunread⟩ := hb hd hn hbare.unread hbare.low
      refine ⟨?_, ?_, ?_, ?_, ?_, ?_⟩
      · rw [hw]
        refine hbare.climbed.keep hr hlt.le fun i hi => hmark (i + 1) ?_
        omega
      · rw [hm.training (by decide)]
        exact hbare.training
      · rw [hm.act (by decide)]
        exact hbare.act
      · rw [hm.branch (by decide)]
        exact hbare.branch
      · rw [hw]
        exact hlow
      · rw [hw]
        exact hunread
    · rw [hs.disconnected] at hd
      obtain ⟨hstage, hup, htraining, hclimb⟩ := h.lost hd
      obtain ⟨hloss, hr⟩ := hl hd hstage
      rw [hw, hm.stop (by decide), hs.up hstage, hm.training (by decide)]
      exact ⟨hloss, hup, htraining, hclimb.keep hr hlt.le fun _ _ => rfl⟩

/-- The place changes to one that can follow on every ladder. -/
theorem Goes.step (stage : Stage) (hw : w'.stage = stage) (hs : Steady w w') (hm : SameBut 9 w w')
    (hn : follows w.stage stage = true) : Goes r w w' serial := by
  simp only [follows, Bool.and_eq_true, decide_eq_true_eq, Bool.or_eq_true, Bool.not_eq_true',
    bne_iff_ne, ne_eq] at hn
  obtain ⟨⟨⟨⟨⟨hr, hread⟩, hloss⟩, hpast⟩, hstart⟩, hc⟩ := hn
  refine .stay stage hw hs hm (fun _ _ => hr) (fun _ _ hu hlow => ⟨by omega, by omega, ?_⟩)
    (fun _ hl => ?_) (fun hp => ?_) (fun hn => ?_) hc
  · exact hread.resolve_right (by simp [hu])
  · exact hloss.resolve_left (by simp [hl])
  · exact hpast.resolve_left (by simp [hp])
  · exact eq_of_beq (hstart.resolve_left (by simp [hn]))

/-- The receipt of the rank is in. Without streams, only the stopped source is one of these. -/
theorem Goes.climb (k : Nat) (stage : Stage) (hk : rank w.stage = k) (hw : w'.stage = stage)
    (hs : Steady w w') (hm : SameBut k w w') (hnew : w'.mark k = serial) (hr : rank stage ≤ k + 1)
    (ht : ∀ t ∈ w'.training, t ∈ w.training ∨ Proven r t) (hl : lossStage w.stage = false)
    (hb : (w.table r).count = 0 → reads w.stage = false → k ≤ 2 →
      k = 1 ∧ rank stage ≤ 2 ∧ reads stage = false)
    (hp : Restore.past stage = true → Restore.past w.stage = true)
    (hc : stage ≠ .complete ∧ stage ≠ .connected) : Goes r w w' serial where
  toSteady := hs
  unfinished := hw ▸ hc.1
  start h := absurd (hw ▸ h) hc.2
  past h := hp (hw ▸ h)
  training := ht
  standing bound h hlt := by
    have htable : w'.table r = w.table r := by
      unfold Work.table
      rw [hs.stopOnly]
    refine ⟨fun hd hn => ?_, fun hd hn => ?_, fun hd => ?_⟩
    · rw [hs.disconnected] at hd
      rw [htable] at hn
      have hfull := h.full hd hn
      rw [hk] at hfull
      rw [hw]
      exact (hfull.climb hlt (fun i hi => hm.mark i (by omega)) hnew).keep hr le_rfl fun _ _ => rfl
    · rw [hs.disconnected] at hd
      rw [htable] at hn
      have hbare := h.bare hd hn
      obtain ⟨rfl, hlow, hunread⟩ := hb hn hbare.unread (hk ▸ hbare.low)
      have hclimbed := hbare.climbed
      rw [hk] at hclimbed
      refine ⟨?_, ?_, ?_, ?_, ?_, ?_⟩
      · rw [hw]
        exact (hclimbed.climb hlt (fun i hi => absurd hi (by omega)) hnew).keep (by omega) le_rfl
          fun _ _ => rfl
      · rw [hm.training (by decide)]
        exact hbare.training
      · rw [hm.act (by decide)]
        exact hbare.act
      · rw [hm.branch (by decide)]
        exact hbare.branch
      · rw [hw]
        exact hlow
      · rw [hw]
        exact hunread
    · rw [hs.disconnected] at hd
      obtain ⟨hstage, -⟩ := h.lost hd
      rw [hl] at hstage
      cases hstage

/-- Counters are no part of where the work stands. -/
theorem Standing.same {w₁ : Work D S U} {bound : Nat} (hb : Standing r w bound) (hs : Steady w w₁)
    (hm : SameBut 9 w w₁) (hw : w₁.stage = w.stage) : Standing r w₁ bound := by
  have htable : w₁.table r = w.table r := by
    unfold Work.table
    rw [hs.stopOnly]
  have hmark : ∀ i < 9, w₁.mark i = w.mark i := fun i hi => hm.mark i (by omega)
  have hle := rank_le w.stage
  refine ⟨fun hd hn => ?_, fun hd hn => ?_, fun hd => ?_⟩
  · rw [hw]
    exact (hb.full (hs.disconnected ▸ hd) (htable ▸ hn)).keep le_rfl le_rfl fun i hi =>
      hmark i (by omega)
  · have hbare := hb.bare (hs.disconnected ▸ hd) (htable ▸ hn)
    refine ⟨?_, ?_, ?_, ?_, ?_, ?_⟩
    · rw [hw]
      have hlow := hbare.low
      exact hbare.climbed.keep le_rfl le_rfl fun i hi => hmark (i + 1) (by omega)
    · rw [hm.training (by decide)]
      exact hbare.training
    · rw [hm.act (by decide)]
      exact hbare.act
    · rw [hm.branch (by decide)]
      exact hbare.branch
    · rw [hw]
      exact hbare.low
    · rw [hw]
      exact hbare.unread
  · have hlost := hb.lost (hs.disconnected ▸ hd)
    rw [hw, hm.stop (by decide), hs.up hlost.1, hm.training (by decide)]
    exact hlost

theorem Steady.trans {w₁ : Work D S U} (h : Steady w₁ w') (hs : Steady w w₁)
    (hw : w₁.stage = w.stage) : Steady w w' where
  token := h.token.trans hs.token
  request := h.request.trans hs.request
  last := h.last.trans hs.last
  failure := h.failure.trans hs.failure
  sideband := h.sideband.trans hs.sideband
  disconnected := h.disconnected.trans hs.disconnected
  stopOnly := h.stopOnly.trans hs.stopOnly
  core := h.core.trans hs.core
  up hl := (h.up (hw ▸ hl)).trans (hs.up hl)

/-- A reply is looked at with some counters of the work already changed. -/
theorem Goes.after {w₁ : Work D S U} (h : Goes r w₁ w' serial) (hs : Steady w w₁) (hm : SameBut 9 w w₁)
    (hw : w₁.stage = w.stage) : Goes r w w' serial where
  toSteady := h.toSteady.trans hs hw
  unfinished := h.unfinished
  start hn := ⟨hw ▸ (h.start hn).1, (h.start hn).2.trans (hm.training (by decide))⟩
  past hp := hw ▸ h.past hp
  training t ht := hm.training (by decide) ▸ h.training t ht
  standing bound hb hlt := h.standing bound (hb.same hs hm hw) hlt

/-! ## The last query -/

/-- What the journal will ask of the receipts. -/
structure Settled (r : Root D) (w : Work D S U) (serial : Nat) : Prop where
  lost : w.disconnected = true → w.training = none ∧ 0 < r.tx.journal.missingReceipt ∧
    r.tx.journal.missingReceipt < w.sourceStop ∧ w.sourceStop < serial
  full : w.disconnected = false → (w.table r).count ≠ 0 → ∃ t, w.training = some t ∧ 0 < t.receipt ∧
    t.receipt < w.sourceStop ∧ w.sourceStop < w.clearReceipt ∧ w.clearReceipt < w.sourceReceipt ∧
    w.sourceReceipt < w.tableReceipt ∧ w.tableReceipt < w.actReceipt ∧
    w.actReceipt < w.packetReceipt ∧ w.packetReceipt < w.branchReceipt ∧ w.branchReceipt < serial
  bare : w.disconnected = false → (w.table r).count = 0 → w.training = none ∧ w.actReceipt = 0 ∧
    w.branchReceipt = 0 ∧ 0 < w.sourceStop ∧ w.sourceStop < w.clearReceipt ∧ w.clearReceipt = serial

/-- How the work changes before it hands its receipts over. -/
structure Ends (r : Root D) (w w' : Work D S U) (serial : Nat) : Prop extends Steady w w' where
  past : past w.stage = true
  training : ∀ t ∈ w'.training, t ∈ w.training
  settled : ∀ bound, Standing r w bound → bound < serial → Settled r w' serial

theorem Climbed.settled {t : Training} {bound : Nat} (h : Climbed w.mark 8 bound)
    (ht : w.training = some t) (hlt : bound < serial) : 0 < t.receipt ∧
    t.receipt < w.sourceStop ∧ w.sourceStop < w.clearReceipt ∧ w.clearReceipt < w.sourceReceipt ∧
    w.sourceReceipt < w.tableReceipt ∧ w.tableReceipt < w.actReceipt ∧
    w.actReceipt < w.packetReceipt ∧ w.packetReceipt < w.branchReceipt ∧ w.branchReceipt < serial := by
  have hzero : w.mark 0 = t.receipt := congrArg receiptOf ht
  refine ⟨hzero ▸ h.pos (by decide), hzero ▸ h.lt (i := 0) (j := 1) (by decide) (by decide),
    h.lt (i := 1) (j := 2) (by decide) (by decide), h.lt (i := 2) (j := 3) (by decide) (by decide),
    h.lt (i := 3) (j := 4) (by decide) (by decide), h.lt (i := 4) (j := 5) (by decide) (by decide),
    h.lt (i := 5) (j := 6) (by decide) (by decide), h.lt (i := 6) (j := 7) (by decide) (by decide), ?_⟩
  exact lt_of_le_of_lt (h.le (i := 7) (by decide)) hlt

/-- A climbed ladder starts with a training. -/
theorem trained_of_climbed {n bound : Nat} (h : Climbed w.mark (n + 1) bound) : ∃ t, w.training = some t := by
  have hpos := h.pos (i := 0) (by omega)
  cases ht : w.training with
  | some t => exact ⟨t, rfl⟩
  | none =>
    have hzero : w.mark 0 = 0 := congrArg receiptOf ht
    omega

/-- What a reply leads to. -/
def Leads (r : Root D) (w : Work D S U) (serial : Nat) : Next D S U → Prop
  | .work x => Goes r w x serial
  | .finish x => Ends r w x serial
  | .disconnect => w.stage = .connected ∧ w.stopOnly = true

theorem Ends.after {w₁ : Work D S U} (h : Ends r w₁ w' serial) (hs : Steady w w₁) (hm : SameBut 9 w w₁)
    (hw : w₁.stage = w.stage) : Ends r w w' serial where
  toSteady := h.toSteady.trans hs hw
  past := hw ▸ h.past
  training t ht := hm.training (by decide) ▸ h.training t ht
  settled bound hb hlt := h.settled bound (hb.same hs hm hw) hlt

theorem Leads.after {w₁ : Work D S U} {n : Next D S U} (h : Leads r w₁ serial n) (hs : Steady w w₁)
    (hm : SameBut 9 w w₁) (hw : w₁.stage = w.stage) : Leads r w serial n := by
  cases n with
  | work x => exact Goes.after h hs hm hw
  | finish x => exact Ends.after h hs hm hw
  | disconnect => exact ⟨hw ▸ h.1, hs.stopOnly ▸ h.2⟩

/-! ## The switches -/

theorem retry_goes {ms : Nat} (h : w.retry now ms = .ok w') (hc : follows w.stage w.stage = true) :
    Goes r w w' serial := by
  unfold Work.retry at h
  split at h
  · cases h
  · cases h
    exact .step w.stage rfl ⟨rfl, rfl, rfl, rfl, rfl, rfl, rfl, rfl, fun _ => rfl⟩
      (by constructor <;> intro <;> rfl) hc

theorem pollLater_goes (h : w.pollLater now = .ok w') (hc : follows w.stage w.stage = true) :
    Goes r w w' serial := by
  unfold Work.pollLater at h
  split at h
  · cases h
  · cases h
    exact .step w.stage rfl ⟨rfl, rfl, rfl, rfl, rfl, rfl, rfl, rfl, fun _ => rfl⟩
      (by constructor <;> intro <;> rfl) hc

theorem follows_self {stage : Stage} (h : stage ≠ .complete) : follows stage stage = true := by
  cases stage <;> first | rfl | exact absurd rfl h

theorem move_goes {stage : Stage} (hn : follows w.stage stage = true) :
    Goes r w (w.move stage) serial :=
  .step stage rfl ⟨rfl, rfl, rfl, rfl, rfl, rfl, rfl, rfl, fun _ => rfl⟩ (by constructor <;> intro <;> rfl) hn

/-- The same, the counters kept. -/
theorem enter_goes {stage : Stage} (hn : follows w.stage stage = true) :
    Goes r w { w with stage := stage } serial :=
  .step stage rfl ⟨rfl, rfl, rfl, rfl, rfl, rfl, rfl, rfl, fun _ => rfl⟩ (by constructor <;> intro <;> rfl) hn

/-- A switch that checks what it got. -/
theorem checked_leads {ok : Bool} {e : Fault} {stage : Stage} {n : Next D S U}
    (h : (do LinkWork.expect ok e; return .work (w.move stage) : Except Fault (Next D S U)) = .ok n)
    (hn : follows w.stage stage = true) : Leads r w serial n := by
  obtain ⟨_, -, h⟩ := bind_ok.1 h
  cases h
  exact move_goes hn

/-- A switch that polls until the receiver is ready. -/
theorem polled_leads {busy : Prop} [Decidable busy] {stage : Stage} {n : Next D S U}
    (h : (if busy then (w.pollLater now).map .work else .ok (.work (w.move stage)) :
      Except Fault (Next D S U)) = .ok n)
    (hw : w.stage ≠ .complete) (hn : follows w.stage stage = true) : Leads r w serial n := by
  split at h
  · obtain ⟨x, hx, hw'⟩ := map_ok.1 h
    cases hw'
    exact pollLater_goes hx (follows_self hw)
  · cases h
    exact move_goes hn

theorem acknowledged_work {response : Reply} {x : Work D S U} {n : Next D S U}
    (h : acknowledged response x = .ok n) : n = .work x := by
  unfold acknowledged at h
  split at h
  · cases h
    rfl
  · cases h

/-! ## AUX transfers -/

/-- A whole table: an empty root ends here. -/
theorem tableSeen_leads (w : Work D S U) (hs : w.stage = .clearVerify ∨ w.stage = .verifyTable) :
    Leads r w serial (w.tableSeen r serial) := by
  unfold Work.tableSeen
  split
  · split
    · rename_i hstage
      split
      · rename_i hcount
        refine ⟨⟨rfl, rfl, rfl, rfl, rfl, rfl, rfl, rfl, fun _ => rfl⟩, by rw [hstage]; rfl,
          fun t h => h, fun bound hb hlt => ⟨fun hd => ?_, fun _ hn => absurd hcount hn,
            fun hd hn => ?_⟩⟩
        · have hloss := (hb.lost hd).1
          rw [hstage] at hloss
          cases hloss
        · have hbare := hb.bare hd hn
          have hclimb := hbare.climbed
          rw [hstage] at hclimb
          refine ⟨hbare.training, hbare.act, hbare.branch, hclimb.pos (i := 0) (by decide), ?_, rfl⟩
          exact lt_of_le_of_lt (hclimb.le (i := 0) (by decide)) hlt
      · rename_i hcount
        exact .climb 2 .source (by rw [hstage]; rfl) rfl
          ⟨rfl, rfl, rfl, rfl, rfl, rfl, rfl, rfl, fun _ => rfl⟩
          (by constructor <;> intro h <;> first | rfl | exact absurd rfl h) rfl (by decide)
          (fun t h => .inl h) (by rw [hstage]; rfl) (fun h => absurd h hcount)
          (fun _ => by rw [hstage]; rfl) (by decide)
    · rename_i hstage
      have hverify := hs.resolve_left hstage
      exact .climb 5 .clearVsc (by rw [hverify]; rfl) rfl
        ⟨rfl, rfl, rfl, rfl, rfl, rfl, rfl, rfl, fun _ => rfl⟩
        (by constructor <;> intro h <;> first | rfl | exact absurd rfl h) rfl (by decide)
        (fun t h => .inl h) (by rw [hverify]; rfl) (fun _ _ h => absurd h (by decide))
        (fun _ => by rw [hverify]; rfl) (by decide)
  · exact .step w.stage rfl ⟨rfl, rfl, rfl, rfl, rfl, rfl, rfl, rfl, fun _ => rfl⟩
      (by constructor <;> intro <;> rfl)
      (follows_self (by rcases hs with hs | hs <;> rw [hs] <;> decide))

theorem observed_leads {data : Vector Byte 16} {n : Next D S U}
    (h : w.observed r data serial now = .ok n) : Leads r w serial n := by
  unfold Work.observed at h
  split at h <;> rename_i hs
  · exact checked_leads h (by rw [hs]; rfl)
  · obtain ⟨_, -, h⟩ := bind_ok.1 h
    exact checked_leads h (by rw [hs]; rfl)
  · -- the old link is still trained: the first receipt of a running root
    obtain ⟨previous, hprevious, h⟩ := bind_ok.1 h
    obtain ⟨_, htrained, h⟩ := bind_ok.1 h
    cases h
    have hp : r.tx.journal.previous.training = some previous := by
      unfold LinkWork.present LinkWork.orFail at hprevious
      split at hprevious
      · cases hprevious
        assumption
      · cases hprevious
    exact .climb 0 .heads (by rw [hs]; rfl) rfl ⟨rfl, rfl, rfl, rfl, rfl, rfl, rfl, rfl, fun _ => rfl⟩
      (by constructor <;> intro h <;> first | rfl | exact absurd rfl h) rfl (by decide)
      (fun t h => by
        cases h
        exact .inr ⟨previous, hp, rfl, rfl, rfl, expect_ok.1 htrained⟩) (by rw [hs]; rfl)
      (fun _ h => by rw [hs] at h; cases h) nofun (by decide)
  · cases h
    exact move_goes (by rw [hs]; rfl)
  · cases h
    exact move_goes (by rw [hs]; rfl)
  · exact polled_leads h (by rw [hs]; decide) (by rw [hs]; rfl)
  · obtain ⟨_, -, h⟩ := bind_ok.1 h
    rw [← Except.ok.inj h]
    exact (tableSeen_leads { w with cursor := w.cursor + 1 } (.inl hs)).after
      ⟨rfl, rfl, rfl, rfl, rfl, rfl, rfl, rfl, fun _ => rfl⟩ (by constructor <;> intro <;> rfl) rfl
  · obtain ⟨_, -, h⟩ := bind_ok.1 h
    rw [← Except.ok.inj h]
    exact (tableSeen_leads { w with cursor := w.cursor + 1 } (.inr hs)).after
      ⟨rfl, rfl, rfl, rfl, rfl, rfl, rfl, rfl, fun _ => rfl⟩ (by constructor <;> intro <;> rfl) rfl
  · cases h
    exact enter_goes (by rw [hs]; rfl)
  · cases h
    exact enter_goes (by rw [hs]; rfl)
  · -- the last payload of the table is in the receiver
    split at h
    · obtain ⟨x, hx, hw'⟩ := map_ok.1 h
      cases hw'
      exact pollLater_goes hx (by rw [hs]; rfl)
    · split at h
      · cases h
        exact .climb 4 .trigger (by rw [hs]; rfl) rfl ⟨rfl, rfl, rfl, rfl, rfl, rfl, rfl, rfl, fun _ => rfl⟩
          (by constructor <;> intro h <;> first | rfl | exact absurd rfl h) rfl (by decide)
          (fun t h => .inl h) (by rw [hs]; rfl) (fun _ _ h => absurd h (by decide))
          (fun _ => by rw [hs]; rfl) (by decide)
      · cases h
        exact .step .payloadClear rfl ⟨rfl, rfl, rfl, rfl, rfl, rfl, rfl, rfl, fun _ => rfl⟩
          (by constructor <;> intro <;> rfl) (by rw [hs]; rfl)
  · exact polled_leads h (by rw [hs]; decide) (by rw [hs]; rfl)
  · cases h

theorem transferred_leads {length : Nat} {observation : AuxReply} {n : Next D S U}
    (h : w.transferred r length observation serial now = .ok n) (hc : w.stage ≠ .complete) :
    Leads r w serial n := by
  unfold Work.transferred at h
  split at h
  · obtain ⟨x, hx, hw'⟩ := map_ok.1 h
    cases hw'
    exact retry_goes hx (follows_self hc)
  · split at h
    · cases h
    · split at h
      · obtain ⟨x, hx, hw'⟩ := map_ok.1 h
        cases hw'
        exact retry_goes hx (follows_self hc)
      · split at h
        · cases h
        · exact (observed_leads h).after ⟨rfl, rfl, rfl, rfl, rfl, rfl, rfl, rfl, fun _ => rfl⟩
            (by constructor <;> intro <;> rfl) rfl

/-! ## Controls and resources -/

/-- The next head, or what comes after the last one. -/
theorem nextHead_goes (h : w.nextHead r = .ok w') (hs : w.stage = .active ∨ w.stage = .activeResource) :
    Goes r w w' serial := by
  unfold Work.nextHead at h
  split at h
  · cases h
    exact .step .active rfl ⟨rfl, rfl, rfl, rfl, rfl, rfl, rfl, rfl, fun _ => rfl⟩
      (by constructor <;> intro <;> rfl) (by rcases hs with hs | hs <;> rw [hs] <;> rfl)
  · split at h
    · cases h
      exact move_goes (by rcases hs with hs | hs <;> rw [hs] <;> rfl)
    · rename_i hd
      obtain ⟨_, -, h⟩ := bind_ok.1 h
      dsimp only at h
      split at h
      · cases h
        exact move_goes (by rcases hs with hs | hs <;> rw [hs] <;> rfl)
      · cases h
        -- rate governing: not on the ladder of a lost receiver
        exact .stay .rateOn rfl ⟨rfl, rfl, rfl, rfl, rfl, rfl, rfl, rfl, fun _ => rfl⟩
          (by constructor <;> intro <;> rfl)
          (fun _ _ => by rcases hs with hs | hs <;> rw [hs] <;> decide)
          (fun _ _ _ _ => by rcases hs with hs | hs <;> rw [hs] <;> decide)
          (fun hl => absurd hl hd) nofun nofun (by decide)

theorem headSeen_goes {value : Resource} {x : Work D S U} (h : w.headSeen r value = .ok x)
    (hn : x.nextHead r = .ok w') (hs : w.stage = .activeResource) : Goes r w w' serial := by
  unfold Work.headSeen at h
  split at h
  · obtain ⟨_, -, h⟩ := bind_ok.1 h
    obtain ⟨_, -, h⟩ := bind_ok.1 h
    cases h
    exact (nextHead_goes hn (.inr hs)).after ⟨rfl, rfl, rfl, rfl, rfl, rfl, rfl, rfl, fun _ => rfl⟩
      (by constructor <;> intro <;> rfl) rfl
  · obtain ⟨_, -, h⟩ := bind_ok.1 h
    cases h
    exact nextHead_goes hn (.inr hs)

theorem afterScanout_goes (h : w.afterScanout r = .ok w') (hs : w.stage = .verifyActive) :
    Goes r w w' serial := by
  unfold Work.afterScanout at h
  split at h
  · cases h
    rename_i hd
    exact .stay .lossSource rfl ⟨rfl, rfl, rfl, rfl, rfl, rfl, rfl, rfl, fun _ => rfl⟩
      (by constructor <;> intro <;> rfl) (fun h => by rw [hd] at h; cases h)
      (fun h => by rw [hd] at h; cases h) (fun _ _ => by rw [hs]; decide) (fun _ => by rw [hs]; rfl)
      nofun (by decide)
  · rename_i hd
    obtain ⟨_, -, h⟩ := bind_ok.1 h
    cases h
    exact .stay .stopSource rfl ⟨rfl, rfl, rfl, rfl, rfl, rfl, rfl, rfl, fun _ => rfl⟩
      (by constructor <;> intro <;> rfl) (fun _ _ => by rw [hs]; decide)
      (fun _ _ _ _ => by rw [hs]; decide) (fun hl => absurd hl hd) (fun _ => by rw [hs]; rfl)
      nofun (by decide)

/-- A stopped source is the second receipt, and the first one of a root left empty. -/
theorem sourceStopped_goes (hs : w.stage = .stopSource) : Goes r w (w.sourceStopped r serial) serial := by
  unfold Work.sourceStopped
  dsimp only
  split
  · exact .climb 1 .clearStatus (by rw [hs]; rfl) rfl
      ⟨rfl, rfl, rfl, rfl, rfl, rfl, rfl, rfl, fun _ => rfl⟩
      (by constructor <;> intro h <;> first | rfl | exact absurd rfl h) rfl (by decide)
      (fun t h => .inl h) (by rw [hs]; rfl) (fun _ _ _ => by decide) (fun _ => by rw [hs]; rfl)
      (by decide)
  · exact .climb 1 .stopSource (by rw [hs]; rfl) hs
      ⟨rfl, rfl, rfl, rfl, rfl, rfl, rfl, rfl, fun _ => rfl⟩
      (by constructor <;> intro h <;> first | rfl | exact absurd rfl h) rfl (by decide)
      (fun t h => .inl h) (by rw [hs]; rfl) (fun _ _ _ => by decide) (fun _ => by rw [hs]; rfl)
      (by decide)

/-- There is no ninth receipt. -/
theorem ladder_top {bound : Nat} (h : Climbed w.mark (rank w.stage) bound) (hr : rank w.stage = 9) :
    False := by
  rw [hr] at h
  exact Nat.lt_irrefl 0 (h.pos (i := 8) (by decide))

/-- The source of a head whose receiver is gone has stopped. -/
theorem lossSource_goes (hs : w.stage = .lossSource) :
    Goes r w ({ w with sourceStop := serial }.move .lossRateOff) serial where
  token := rfl
  request := rfl
  last := rfl
  failure := rfl
  sideband := rfl
  disconnected := rfl
  stopOnly := rfl
  core := rfl
  up _ := rfl
  unfinished := by
    show Stage.lossRateOff ≠ .complete
    decide
  start h := by cases h
  past _ := by rw [hs]; rfl
  training t h := .inl h
  standing bound h hlt := by
    have hrank : rank w.stage = 9 := by rw [hs]; rfl
    refine ⟨fun hd hn => (ladder_top (h.full hd hn) hrank).elim, fun hd hn => ?_, fun hd => ?_⟩
    · have := (h.bare hd hn).low
      omega
    · obtain ⟨-, hup, htraining, hclimb⟩ := h.lost hd
      rw [hs] at hclimb
      refine ⟨rfl, hup, htraining, hclimb.climb hlt (fun i hi => ?_) rfl⟩
      have hzero : i = 0 := by
        have : lossRank .lossSource = 1 := rfl
        omega
      rw [hzero]
      rfl

theorem answered_leads {response : Reply} {n : Next D S U}
    (h : w.answered r response serial = .ok n) : Leads r w serial n := by
  unfold Work.answered at h
  split at h <;> rename_i hs
  · split at h
    · split at h
      · rename_i hlost
        cases h
        exact ⟨hs, hlost.2⟩
      · exact checked_leads h (by rw [hs]; rfl)
    · cases h
  · split at h
    · obtain ⟨_, -, h⟩ := bind_ok.1 h
      cases h
      split
      · rename_i hd
        exact .stay .heads rfl ⟨rfl, rfl, rfl, rfl, rfl, rfl, rfl, rfl, fun _ => rfl⟩
          (by constructor <;> intro <;> rfl) (fun h => by rw [hd] at h; cases h)
          (fun h => by rw [hd] at h; cases h) (fun _ _ => by rw [hs]; decide) nofun nofun (by decide)
      · rename_i hd
        exact .stay .guid rfl ⟨rfl, rfl, rfl, rfl, rfl, rfl, rfl, rfl, fun _ => rfl⟩
          (by constructor <;> intro <;> rfl) (fun _ _ => by rw [hs]; decide)
          (fun _ _ _ _ => by rw [hs]; decide) (fun h => absurd h hd) nofun nofun (by decide)
    · cases h
  · split at h
    · obtain ⟨_, -, h⟩ := bind_ok.1 h
      cases h
      exact .step .active rfl ⟨rfl, rfl, rfl, rfl, rfl, rfl, rfl, rfl, fun _ => rfl⟩
        (by constructor <;> intro <;> rfl) (by rw [hs]; rfl)
    · cases h
  · split at h
    · split at h
      · obtain ⟨x, hx, hw'⟩ := map_ok.1 h
        cases hw'
        exact (nextHead_goes hx (.inl hs)).after
          ⟨rfl, rfl, rfl, rfl, rfl, rfl, rfl, rfl, fun _ => rfl⟩ (by constructor <;> intro <;> rfl) rfl
      · obtain ⟨_, -, h⟩ := bind_ok.1 h
        cases h
        exact .step .activeResource rfl ⟨rfl, rfl, rfl, rfl, rfl, rfl, rfl, rfl, fun _ => rfl⟩
          (by constructor <;> intro <;> rfl) (by rw [hs]; rfl)
    · cases h
  · split at h
    · obtain ⟨x, hx, h⟩ := bind_ok.1 h
      obtain ⟨y, hy, hw'⟩ := map_ok.1 h
      cases hw'
      exact headSeen_goes hx hy hs
    · cases h
  · rw [acknowledged_work h]
    exact enter_goes (by rw [hs]; rfl)
  · rw [acknowledged_work h]
    split
    · exact move_goes (by rw [hs]; rfl)
    · exact .step .rateOn rfl ⟨rfl, rfl, rfl, rfl, rfl, rfl, rfl, rfl, fun _ => rfl⟩
        (by constructor <;> intro <;> rfl) (by rw [hs]; rfl)
  · split at h
    · obtain ⟨_, -, h⟩ := bind_ok.1 h
      obtain ⟨_, -, h⟩ := bind_ok.1 h
      obtain ⟨y, hy, hw'⟩ := map_ok.1 h
      cases hw'
      exact afterScanout_goes hy hs
    · cases h
  · rw [acknowledged_work h]
    exact sourceStopped_goes hs
  · rw [acknowledged_work h]
    split
    · exact .climb 3 .payloadClear (by rw [hs]; rfl) rfl
        ⟨rfl, rfl, rfl, rfl, rfl, rfl, rfl, rfl, fun _ => rfl⟩
        (by constructor <;> intro h <;> first | rfl | exact absurd rfl h) rfl (by decide)
        (fun t h => .inl h) (by rw [hs]; rfl) (fun _ _ h => absurd h (by decide))
        (fun _ => by rw [hs]; rfl) (by decide)
    · exact .climb 3 .source (by rw [hs]; rfl) hs
        ⟨rfl, rfl, rfl, rfl, rfl, rfl, rfl, rfl, fun _ => rfl⟩
        (by constructor <;> intro h <;> first | rfl | exact absurd rfl h) rfl (by decide)
        (fun t h => .inl h) (by rw [hs]; rfl) (fun _ _ h => absurd h (by decide))
        (fun _ => by rw [hs]; rfl) (by decide)
  · rw [acknowledged_work h]
    exact move_goes (by rw [hs]; rfl)
  · rw [acknowledged_work h]
    exact move_goes (by rw [hs]; rfl)
  · rw [acknowledged_work h]
    exact enter_goes (by rw [hs]; rfl)
  · rw [acknowledged_work h]
    exact .climb 6 .allocate (by rw [hs]; rfl) rfl
      ⟨rfl, rfl, rfl, rfl, rfl, rfl, rfl, rfl, fun _ => rfl⟩
      (by constructor <;> intro h <;> first | rfl | exact absurd rfl h) rfl (by decide)
      (fun t h => .inl h) (by rw [hs]; rfl) (fun _ _ h => absurd h (by decide))
      (fun _ => by rw [hs]; rfl) (by decide)
  · rw [acknowledged_work h]
    exact enter_goes (by rw [hs]; rfl)
  · -- every stream is running again
    split at h
    · split at h
      · cases h
        refine ⟨⟨rfl, rfl, rfl, rfl, rfl, rfl, rfl, rfl, fun _ => rfl⟩, by rw [hs]; rfl,
          fun t h => h, fun bound hb hlt => ⟨fun hd => ?_, fun hd hn => ?_, fun hd hn => ?_⟩⟩
        · have hloss := (hb.lost hd).1
          rw [hs] at hloss
          cases hloss
        · have hfull := hb.full hd hn
          rw [hs] at hfull
          obtain ⟨t, ht⟩ := trained_of_climbed hfull
          exact ⟨t, ht, Climbed.settled hfull ht hlt⟩
        · have hlow := (hb.bare hd hn).low
          rw [hs] at hlow
          exact absurd hlow (by decide)
      · cases h
        exact .step .rateOff rfl ⟨rfl, rfl, rfl, rfl, rfl, rfl, rfl, rfl, fun _ => rfl⟩
          (by constructor <;> intro <;> rfl) (by rw [hs]; rfl)
    · cases h
  · rw [acknowledged_work h]
    exact lossSource_goes hs
  · rw [acknowledged_work h]
    exact move_goes (by rw [hs]; rfl)
  · -- the receiver is gone, and the source of this head has stopped
    split at h
    · cases h
      refine ⟨⟨rfl, rfl, rfl, rfl, rfl, rfl, rfl, rfl, fun _ => rfl⟩, by rw [hs]; rfl,
        fun t h => h, fun bound hb hlt => ⟨fun hd => ?_, fun hd hn => ?_, fun hd hn => ?_⟩⟩
      · have hclimb := (hb.lost hd).2.2.2
        rw [hs] at hclimb
        refine ⟨(hb.lost hd).2.2.1, hclimb.pos (i := 0) (by decide),
          hclimb.lt (i := 0) (j := 1) (by decide) (by decide), ?_⟩
        exact lt_of_le_of_lt (hclimb.le (i := 1) (by decide)) hlt
      · exact (ladder_top (hb.full hd hn) (by rw [hs]; rfl)).elim
      · have hlow := (hb.bare hd hn).low
        rw [hs] at hlow
        exact absurd hlow (by decide)
    · cases h
  · cases h

/-! ## Sideband replies -/

theorem branchSeen_goes {info : BranchInfo} (h : w.branchSeen r info = .ok w') (hs : w.stage = .branches) :
    Goes r w w' serial := by
  obtain ⟨_, -, h⟩ := bind_ok.1 h
  split at h
  · cases h
    split
    · rename_i hn
      exact .stay .heads rfl ⟨rfl, rfl, rfl, rfl, rfl, rfl, rfl, rfl, fun _ => rfl⟩
        (by constructor <;> intro <;> rfl) (fun _ h => absurd hn h)
        (fun _ _ _ _ => by rw [hs]; decide) (fun _ h => by rw [hs] at h; cases h) nofun nofun (by decide)
    · rename_i hn
      exact .stay .linkConfig rfl ⟨rfl, rfl, rfl, rfl, rfl, rfl, rfl, rfl, fun _ => rfl⟩
        (by constructor <;> intro <;> rfl) (fun _ _ => by rw [hs]; decide)
        (fun _ h => absurd h hn) (fun _ h => by rw [hs] at h; cases h) nofun nofun (by decide)
  · cases h
    exact .step .branches hs ⟨rfl, rfl, rfl, rfl, rfl, rfl, rfl, rfl, fun _ => rfl⟩
      (by constructor <;> intro <;> rfl) (by rw [hs]; rfl)

/-- A notice on its way does not change where the work stands. -/
theorem Goes.detour (h : Goes r w w' serial) (hl : lossStage w.stage = false) (u : Option U) :
    Goes r w { w' with up := u } serial where
  token := h.token
  request := h.request
  last := h.last
  failure := h.failure
  sideband := h.sideband
  disconnected := h.disconnected
  stopOnly := h.stopOnly
  core := h.core
  up hloss := by rw [hl] at hloss; cases hloss
  unfinished := h.unfinished
  start := h.start
  past := h.past
  training := h.training
  standing bound hb hlt := by
    have hgoes := h.standing bound hb hlt
    have hmark : ∀ i, ({ w' with up := u } : Work D S U).mark i = w'.mark i := fun i => by
      match i with
      | 0 | 1 | 2 | 3 | 4 | 5 | 6 | 7 | _ + 8 => rfl
    refine ⟨fun hd hn => (hgoes.full hd hn).keep le_rfl le_rfl fun i _ => hmark i, fun hd hn => ?_,
      fun hd => ?_⟩
    · have hbare := hgoes.bare hd hn
      exact ⟨hbare.climbed.keep le_rfl le_rfl fun i _ => hmark (i + 1), hbare.training, hbare.act,
        hbare.branch, hbare.low, hbare.unread⟩
    · obtain ⟨hstage, -⟩ := hb.lost (h.disconnected ▸ hd)
      rw [hl] at hstage
      cases hstage

theorem sideAnswered_goes {ports : Ports R S U} {response : SideReply} {upPending : Bool}
    (h : w.sideAnswered ports r response upPending serial = .ok w') : Goes r w w' serial := by
  unfold Work.sideAnswered at h
  split at h <;> rename_i hs
  · split at h
    · obtain ⟨x, hx, h⟩ := bind_ok.1 h
      split at h
      · obtain ⟨u, -, h⟩ := bind_ok.1 h
        cases h
        exact (branchSeen_goes hx hs).detour (by rw [hs]; rfl) _
      · cases h
        exact branchSeen_goes hx hs
    · cases h
  · obtain ⟨_, -, h⟩ := bind_ok.1 h
    cases h
    exact move_goes (by rw [hs]; rfl)
  · obtain ⟨_, -, h⟩ := bind_ok.1 h
    cases h
    exact enter_goes (by rw [hs]; rfl)
  · obtain ⟨_, -, h⟩ := bind_ok.1 h
    split at h
    · cases h
      exact .climb 7 .rateOff (by rw [hs]; rfl) rfl
        ⟨rfl, rfl, rfl, rfl, rfl, rfl, rfl, rfl, fun _ => rfl⟩
        (by constructor <;> intro h <;> first | rfl | exact absurd rfl h) rfl (by decide)
        (fun t h => .inl h) (by rw [hs]; rfl) (fun _ _ h => absurd h (by decide))
        (fun _ => by rw [hs]; rfl) (by decide)
    · cases h
      exact .step .clearVsc rfl ⟨rfl, rfl, rfl, rfl, rfl, rfl, rfl, rfl, fun _ => rfl⟩
        (by constructor <;> intro <;> rfl) (by rw [hs]; rfl)
  · cases h

end Restore
end Mst
end NvidiaGsp
