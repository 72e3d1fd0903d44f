import NvidiaGsp.Lib.Ladder
import NvidiaGsp.Mst.LinkWork
import NvidiaGsp.Mst.TransactionSpec

/-!
# Mst.LinkSteps

Where a reply can take the link work. The stages stand on six ranks, and the work leaves a rank
upwards only with the receipt of that rank: training, source, table, ACT, packet, branch. `Goes`
collects what every switch of `consume` keeps, `observed_goes`, `answered_goes` and
`sideAnswered_goes` prove it switch by switch.
-/

namespace NvidiaGsp
namespace Mst
namespace LinkWork

open Call Ladder
open Payload
open Link (Fault Reply AuxReply SideReply Ports Root)

set_option linter.unusedSectionVars false

variable {D : Type} [DecidableEq D] {R S U : Type} {r : Root D} {w w' : Work D S} {serial now : Nat}

/-! ## Ranks and marks -/

/-- How many of the six receipts a stage has behind it. -/
def rank : Link.Stage → Nat
  | .initialClearStatus | .initialClear | .initialUpdated | .initialBranches | .initialVerify
  | .removeRate | .removeRateCheck | .removeBranch | .removeQuery | .removeSource | .removeClear
  | .removePayload | .removeUpdated | .removeAct | .removeHandled | .removeVerify | .trigger
  | .sourceStreams => 1
  | .rateOn | .tableClear | .tablePayload | .tableUpdated => 2
  | .scanout | .act | .actHandled | .tableFinal => 3
  | .clearVsc | .clearHdr => 4
  | .branch | .branchQuery => 5
  | .rateOff | .rateCheck => 6
  | _ => 0

def receiptOf : Option Training → Nat
  | some t => t.receipt
  | none => 0

/-- The receipts in the order they must come. -/
def Work.mark (w : Work D S) : Nat → Nat
  | 0 => receiptOf w.training
  | 1 => w.sourceReceipt
  | 2 => w.tableReceipt
  | 3 => w.actReceipt
  | 4 => w.packetReceipt
  | 5 => w.branchReceipt
  | _ => 0

/-- The part of the work that a reply leaves alone. -/
structure Steady (w w' : Work D S) : Prop where
  token : w'.token = w.token
  request : w'.request = w.request
  last : w'.lastReceipt = w.lastReceipt
  failure : w'.failure = w.failure
  sideband : w'.sideband = w.sideband

/-- The receipts are the same, except perhaps that of rank `k`. -/
structure SameBut (k : Nat) (w w' : Work D S) : Prop where
  training : k ≠ 0 → w'.training = w.training
  source : k ≠ 1 → w'.sourceReceipt = w.sourceReceipt
  table : k ≠ 2 → w'.tableReceipt = w.tableReceipt
  act : k ≠ 3 → w'.actReceipt = w.actReceipt
  packet : k ≠ 4 → w'.packetReceipt = w.packetReceipt
  branch : k ≠ 5 → w'.branchReceipt = w.branchReceipt

theorem SameBut.mark {k : Nat} (h : SameBut k w w') : ∀ i, i ≠ k → w'.mark i = w.mark i
  | 0, hi => congrArg receiptOf (h.training hi.symm)
  | 1, hi => h.source hi.symm
  | 2, hi => h.table hi.symm
  | 3, hi => h.act hi.symm
  | 4, hi => h.packet hi.symm
  | 5, hi => h.branch hi.symm
  | _ + 6, _ => rfl

/-- What a reply does to the work: it stays on its rank, falls back or climbs to the next one. -/
structure Goes (r : Root D) (w w' : Work D S) (serial : Nat) : Prop extends Steady w w' where
  /-- The first climb past the training is a reply to a changing query. -/
  earned : 2 ≤ rank w'.stage → 2 ≤ rank w.stage ∨ mutating w.stage = true
  unfinished : w'.stage ≠ .complete
  training : ∀ t ∈ w'.training, t ∈ w.training ∨ t.link = r.tx.journal.target.link
  climbed : ∀ bound, Climbed w.mark (rank w.stage) bound → bound < serial →
    Climbed w'.mark (rank w'.stage) serial

theorem rank_le (stage : Link.Stage) : rank stage ≤ 6 := by
  cases stage <;> decide

/-- Nothing but the place changes. Rank 6 has no receipt. -/
theorem Goes.stay (stage : Link.Stage) (hw : w'.stage = stage) (hs : Steady w w')
    (hm : SameBut 6 w w') (hr : rank stage ≤ rank w.stage) (hc : stage ≠ .complete) :
    Goes r w w' serial where
  toSteady := hs
  earned h := .inl (by rw [hw] at h; omega)
  unfinished := hw ▸ hc
  training t h := .inl (hm.training (by decide) ▸ h)
  climbed _ h hlt := h.keep (hw ▸ hr) (by omega) fun i hi => hm.mark i (by
    have := rank_le w'.stage
    omega)

/-- The receipt of the rank is in. -/
theorem Goes.up (k : Nat) (stage : Link.Stage) (hk : rank w.stage = k) (hw : w'.stage = stage)
    (hs : Steady w w') (hm : SameBut k w w') (hnew : w'.mark k = serial) (hr : rank stage ≤ k + 1)
    (ht : ∀ t ∈ w'.training, t ∈ w.training ∨ t.link = r.tx.journal.target.link)
    (he : k = 1 → mutating w.stage = true) (hc : stage ≠ .complete) : Goes r w w' serial where
  toSteady := hs
  earned h := by
    rw [hw] at h
    by_cases hone : k = 1
    · exact .inr (he hone)
    · exact .inl (by omega)
  unfinished := hw ▸ hc
  training := ht
  climbed bound h hlt := by
    rw [hk] at h
    exact (h.climb hlt (fun i hi => hm.mark i (by omega)) hnew).keep (hw ▸ hr) le_rfl fun _ _ => rfl

/-- A reply is looked at with some counters of the work already changed. -/
theorem Goes.after {w₁ : Work D S} (h : Goes r w₁ w' serial) (hs : Steady w w₁) (hm : SameBut 6 w w₁)
    (hw : w₁.stage = w.stage) : Goes r w w' serial where
  token := h.token.trans hs.token
  request := h.request.trans hs.request
  last := h.last.trans hs.last
  failure := h.failure.trans hs.failure
  sideband := h.sideband.trans hs.sideband
  earned hr := hw ▸ h.earned hr
  unfinished := h.unfinished
  training t ht := hm.training (by decide) ▸ h.training t ht
  climbed bound hb hlt := h.climbed bound
    (hw ▸ hb.keep le_rfl le_rfl fun i hi => hm.mark i (by have := rank_le w.stage; omega)) hlt

/-! ## The switches -/

theorem expect_ok {ok : Bool} {e : Fault} {u : Unit} : expect ok e = .ok u ↔ ok = true := by
  unfold expect
  split <;> simp_all

theorem bind_ok {α β : Type} {x : Except Fault α} {f : α → Except Fault β} {b : β} :
    (x >>= f) = .ok b ↔ ∃ a, x = .ok a ∧ f a = .ok b := by
  cases x <;> simp [bind, Except.bind]

theorem map_ok {α β : Type} {x : Except Fault α} {f : α → β} {b : β} :
    x.map f = .ok b ↔ ∃ a, x = .ok a ∧ f a = b := by
  cases x <;> simp [Except.map]

theorem retry_goes {ms : Nat} (h : w.retry now ms = .ok w') (hc : w.stage ≠ .complete) :
    Goes r w w' serial := by
  unfold Work.retry at h
  split at h
  · cases h
  · cases h
    exact .stay w.stage rfl ⟨rfl, rfl, rfl, rfl, rfl⟩ (by constructor <;> intro <;> rfl) le_rfl hc

theorem pollLater_goes (h : w.pollLater now = .ok w') (hc : w.stage ≠ .complete) :
    Goes r w w' serial := by
  unfold Work.pollLater at h
  split at h
  · cases h
  · cases h
    exact .stay w.stage rfl ⟨rfl, rfl, rfl, rfl, rfl⟩ (by constructor <;> intro <;> rfl) le_rfl hc

/-- Moving within a rank or back. -/
theorem move_goes {stage : Link.Stage} (hr : rank stage ≤ rank w.stage) (hc : stage ≠ .complete) :
    Goes r w (w.move stage) serial :=
  .stay stage rfl ⟨rfl, rfl, rfl, rfl, rfl⟩ (by constructor <;> intro <;> rfl) hr hc

/-- A switch that moves on without a receipt. -/
theorem moved_goes {stage : Link.Stage} (h : (Except.ok (.work (w.move stage)) : Except Fault (Next D S)) =
    .ok (.work w')) (hr : rank stage ≤ rank w.stage) (hc : stage ≠ .complete) :
    Goes r w w' serial := by
  cases h
  exact move_goes hr hc

/-- A switch that checks what it got. -/
theorem checked_goes {ok : Bool} {e : Fault} {stage : Link.Stage}
    (h : (do expect ok e; return .work (w.move stage) : Except Fault (Next D S)) = .ok (.work w'))
    (hr : rank stage ≤ rank w.stage) (hc : stage ≠ .complete) : Goes r w w' serial := by
  obtain ⟨_, -, h⟩ := bind_ok.1 h
  exact moved_goes h hr hc

/-- A switch that polls until the receiver is ready. -/
theorem polled_goes {busy : Prop} [Decidable busy] {stage : Link.Stage}
    (h : (if busy then (w.pollLater now).map .work else .ok (.work (w.move stage)) :
      Except Fault (Next D S)) = .ok (.work w'))
    (hr : rank stage ≤ rank w.stage) (hw : w.stage ≠ .complete) (hc : stage ≠ .complete) :
    Goes r w w' serial := by
  split at h
  · obtain ⟨x, hx, hw'⟩ := map_ok.1 h
    cases hw'
    exact pollLater_goes hx hw
  · exact moved_goes h hr hc

theorem afterTraining_rank : rank (w.afterTraining r) = 1 := by
  unfold Work.afterTraining
  split
  · rfl
  · split <;> rfl

theorem tableSeen_goes (h : w.tableSeen serial = .ok w')
    (hs : w.stage = .tableBefore ∨ w.stage = .initialVerify ∨ w.stage = .removeVerify ∨
      w.stage = .tableFinal) : Goes r w w' serial := by
  unfold Work.tableSeen at h
  split at h
  · rcases hs with hs | hs | hs | hs <;> rw [hs] at h <;> cases h
    · exact move_goes (by rw [hs]; decide) (by decide)
    · exact move_goes (by rw [hs]; decide) (by decide)
    · exact move_goes (by rw [hs]; decide) (by decide)
    · exact .up 3 .clearVsc (by rw [hs]; rfl) rfl ⟨rfl, rfl, rfl, rfl, rfl⟩
        (by constructor <;> intro h <;> first | rfl | exact absurd rfl h) rfl (by decide)
        (fun t h => .inl h) nofun (by decide)
  · cases h
    exact .stay w.stage rfl ⟨rfl, rfl, rfl, rfl, rfl⟩ (by constructor <;> intro <;> rfl) le_rfl
      (by rcases hs with hs | hs | hs | hs <;> rw [hs] <;> decide)

theorem table_goes {data : Vector Byte 16}
    (h : (do
      w.verified r data
      ({ w with cursor := w.cursor + 1 }.tableSeen serial).map .work : Except Fault (Next D S)) =
        .ok (.work w'))
    (hs : w.stage = .tableBefore ∨ w.stage = .initialVerify ∨ w.stage = .removeVerify ∨
      w.stage = .tableFinal) : Goes r w w' serial := by
  obtain ⟨_, -, h⟩ := bind_ok.1 h
  obtain ⟨x, hx, hw'⟩ := map_ok.1 h
  cases hw'
  exact (tableSeen_goes hx hs).after ⟨rfl, rfl, rfl, rfl, rfl⟩ (by constructor <;> intro <;> rfl) rfl

theorem observed_goes {data : Vector Byte 16} (h : w.observed r data serial now = .ok (.work w')) :
    Goes r w w' serial := by
  unfold Work.observed at h
  split at h <;> rename_i hs
  · split at h
    · exact moved_goes h (by rw [hs]; decide) (by decide)
    · exact checked_goes h (by rw [hs]; decide) (by decide)
  · exact checked_goes h (by rw [hs]; decide) (by decide)
  · exact checked_goes h (by rw [hs]; decide) (by decide)
  · exact checked_goes h (by rw [hs]; decide) (by decide)
  · exact checked_goes h (by rw [hs]; decide) (by decide)
  · exact checked_goes h (by rw [hs]; decide) (by decide)
  · cases h
    exact .stay .powerOn rfl ⟨rfl, rfl, rfl, rfl, rfl⟩ (by constructor <;> intro <;> rfl)
      (by rw [hs]; decide) (by decide)
  · cases h
    exact .stay .train rfl ⟨rfl, rfl, rfl, rfl, rfl⟩ (by constructor <;> intro <;> rfl)
      (by rw [hs]; decide) (by decide)
  · dsimp only at h
    split at h
    · cases h
    · exact moved_goes h (by rw [hs]; decide) (by decide)
  · -- the link is trained: the first receipt
    dsimp only at h
    split at h
    · cases h
    · cases h
      exact .up 0 (w.afterTraining r) (by rw [hs]; rfl) rfl ⟨rfl, rfl, rfl, rfl, rfl⟩
        (by constructor <;> intro h <;> first | rfl | exact absurd rfl h) rfl
        (by rw [afterTraining_rank]) (fun t h => .inr (by cases h; rfl)) nofun
        (by unfold Work.afterTraining; split <;> [decide; (split <;> decide)])
  · exact moved_goes h (by rw [hs]; decide) (by decide)
  · exact moved_goes h (by rw [hs]; decide) (by decide)
  · exact polled_goes h (by rw [hs]; decide) (by rw [hs]; decide) (by decide)
  · exact moved_goes h (by rw [hs]; decide) (by decide)
  · exact moved_goes h (by rw [hs]; decide) (by decide)
  · exact polled_goes h (by rw [hs]; decide) (by rw [hs]; decide) (by decide)
  · exact polled_goes h (by rw [hs]; decide) (by rw [hs]; decide) (by decide)
  · exact moved_goes h (by rw [hs]; decide) (by decide)
  · exact moved_goes h (by rw [hs]; decide) (by decide)
  · -- the table is in the receiver: the third receipt
    split at h
    · obtain ⟨x, hx, hw'⟩ := map_ok.1 h
      cases hw'
      exact pollLater_goes hx (by rw [hs]; decide)
    · cases h
      exact .up 2 .scanout (by rw [hs]; rfl) rfl ⟨rfl, rfl, rfl, rfl, rfl⟩
        (by constructor <;> intro h <;> first | rfl | exact absurd rfl h) rfl (by decide)
        (fun t h => .inl h) nofun (by decide)
  · exact polled_goes h (by rw [hs]; decide) (by rw [hs]; decide) (by decide)
  case _ => exact table_goes h (.inl hs)
  case _ => exact table_goes h (.inr (.inl hs))
  case _ => exact table_goes h (.inr (.inr (.inl hs)))
  case _ => exact table_goes h (.inr (.inr (.inr hs)))
  case _ => cases h

theorem transferred_goes {length : Nat} {observation : AuxReply}
    (h : w.transferred r length observation serial now = .ok (.work w')) (hc : w.stage ≠ .complete) :
    Goes r w w' serial := by
  unfold Work.transferred at h
  split at h
  · obtain ⟨x, hx, hw'⟩ := map_ok.1 h
    cases hw'
    exact retry_goes hx hc
  · split at h
    · cases h
    · split at h
      · obtain ⟨x, hx, hw'⟩ := map_ok.1 h
        cases hw'
        exact retry_goes hx hc
      · split at h
        · rename_i hs
          exact moved_goes h (by rw [hs.1]; decide) (by decide)
        · split at h
          · cases h
          · exact (observed_goes h).after ⟨rfl, rfl, rfl, rfl, rfl⟩
              (by constructor <;> intro <;> rfl) rfl

/-! ## Controls and resources -/

theorem nextHead_goes (h : w.nextHead r = .ok w') (hs : rank w.stage = 0) : Goes r w w' serial := by
  unfold Work.nextHead at h
  split at h
  · cases h
    exact .stay .active rfl ⟨rfl, rfl, rfl, rfl, rfl⟩ (by constructor <;> intro <;> rfl)
      (by rw [hs]; decide) (by decide)
  · obtain ⟨_, -, h⟩ := bind_ok.1 h
    cases h
    exact move_goes (by rw [hs]; decide) (by decide)

/-- A control that moves on without a receipt. -/
theorem acknowledged_goes {response : Reply} {stage : Link.Stage}
    (h : acknowledged response (w.move stage) = .ok (.work w')) (hr : rank stage ≤ rank w.stage)
    (hc : stage ≠ .complete) : Goes r w w' serial := by
  unfold acknowledged at h
  split at h
  · exact moved_goes h hr hc
  · cases h

theorem acknowledged_ok {response : Reply} (h : acknowledged response w = .ok (.work w')) : w' = w := by
  unfold acknowledged at h
  split at h
  · cases h
    rfl
  · cases h

/-- A programmed stream is the second receipt, also while streams are taken away. -/
theorem streamed_goes (hs : w.stage = .sourceStreams ∨ w.stage = .removeSource) :
    Goes r w (w.streamed r serial) serial := by
  have hrank : rank w.stage = 1 := by rcases hs with hs | hs <;> rw [hs] <;> rfl
  have hmut : mutating w.stage = true := by rcases hs with hs | hs <;> rw [hs] <;> rfl
  unfold Work.streamed
  dsimp only
  split
  · split
    · exact .up 1 .removeClear hrank rfl ⟨rfl, rfl, rfl, rfl, rfl⟩
        (by constructor <;> intro h <;> first | rfl | exact absurd rfl h) rfl (by decide)
        (fun t h => .inl h) (fun _ => hmut) (by decide)
    · exact .up 1 .rateOn hrank rfl ⟨rfl, rfl, rfl, rfl, rfl⟩
        (by constructor <;> intro h <;> first | rfl | exact absurd rfl h) rfl (by decide)
        (fun t h => .inl h) (fun _ => hmut) (by decide)
  · exact .up 1 w.stage hrank rfl ⟨rfl, rfl, rfl, rfl, rfl⟩
      (by constructor <;> intro h <;> first | rfl | exact absurd rfl h) rfl (by omega)
      (fun t h => .inl h) (fun _ => hmut) (by rcases hs with hs | hs <;> rw [hs] <;> decide)

theorem answered_goes {response : Reply} (h : w.answered r response serial now = .ok (.work w')) :
    Goes r w w' serial := by
  unfold Work.answered at h
  split at h <;> rename_i hs
  · split at h
    · exact checked_goes h (by rw [hs]; decide) (by decide)
    · cases h
  · split at h
    · exact checked_goes h (by rw [hs]; decide) (by decide)
    · cases h
  · split at h
    · obtain ⟨_, -, h⟩ := bind_ok.1 h
      exact checked_goes h (by rw [hs]; decide) (by decide)
    · cases h
  · split at h
    · obtain ⟨_, -, h⟩ := bind_ok.1 h
      obtain ⟨_, -, h⟩ := bind_ok.1 h
      split at h
      · cases h
        exact .stay .caps rfl ⟨rfl, rfl, rfl, rfl, rfl⟩ (by constructor <;> intro <;> rfl)
          (by rw [hs]; decide) (by decide)
      · cases h
        exact .stay w.stage rfl ⟨rfl, rfl, rfl, rfl, rfl⟩ (by constructor <;> intro <;> rfl) le_rfl
          (by rw [hs]; decide)
    · cases h
  · split at h
    · obtain ⟨_, -, h⟩ := bind_ok.1 h
      cases h
      exact .stay .active rfl ⟨rfl, rfl, rfl, rfl, rfl⟩ (by constructor <;> intro <;> rfl)
        (by rw [hs]; decide) (by decide)
    · cases h
  · split at h
    · split at h
      · obtain ⟨x, hx, hw'⟩ := map_ok.1 h
        cases hw'
        exact (nextHead_goes hx (by dsimp only; rw [hs]; rfl)).after ⟨rfl, rfl, rfl, rfl, rfl⟩
          (by constructor <;> intro <;> rfl) rfl
      · obtain ⟨_, -, h⟩ := bind_ok.1 h
        cases h
        exact .stay .activeResource rfl ⟨rfl, rfl, rfl, rfl, rfl⟩ (by constructor <;> intro <;> rfl)
          (by rw [hs]; decide) (by decide)
    · cases h
  · split at h
    · split at h
      · obtain ⟨_, -, h⟩ := bind_ok.1 h
        obtain ⟨x, hx, hw'⟩ := map_ok.1 h
        cases hw'
        exact (nextHead_goes hx (by dsimp only; rw [hs]; rfl)).after ⟨rfl, rfl, rfl, rfl, rfl⟩
          (by constructor <;> intro <;> rfl) rfl
      · obtain ⟨_, -, h⟩ := bind_ok.1 h
        obtain ⟨x, hx, hw'⟩ := map_ok.1 h
        cases hw'
        exact nextHead_goes hx (by rw [hs]; rfl)
    · cases h
  · split at h
    · split at h
      · obtain ⟨x, hx, hw'⟩ := map_ok.1 h
        cases hw'
        exact retry_goes hx (by rw [hs]; decide)
      · split at h
        · cases h
        · split at h
          · cases h
          · exact moved_goes h (by rw [hs]; decide) (by decide)
    · cases h
  · exact acknowledged_goes h (by rw [hs]; decide) (by decide)
  · rw [acknowledged_ok h]
    exact streamed_goes (.inl hs)
  · rw [acknowledged_ok h]
    exact streamed_goes (.inr hs)
  · exact acknowledged_goes h (by rw [hs]; decide) (by decide)
  · exact acknowledged_goes h (by rw [hs]; decide) (by decide)
  · exact acknowledged_goes h (by rw [hs]; decide) (by decide)
  · exact acknowledged_goes h (by rw [hs]; decide) (by decide)
  · exact acknowledged_goes h (by rw [hs]; decide) (by decide)
  · exact acknowledged_goes h (by rw [hs]; decide) (by decide)
  · rw [acknowledged_ok h]
    exact .up 4 .branch (by rw [hs]; rfl) rfl ⟨rfl, rfl, rfl, rfl, rfl⟩
      (by constructor <;> intro h <;> first | rfl | exact absurd rfl h) rfl (by decide)
      (fun t h => .inl h) nofun (by decide)
  · exact acknowledged_goes h (by rw [hs]; decide) (by decide)
  · split at h <;> cases h
  · cases h

/-! ## Sideband replies -/

theorem afterQueries_goes (hc : rank w.stage = 0) : Goes r w (w.afterQueries r) serial := by
  unfold Work.afterQueries
  exact move_goes (by rw [hc]; split <;> decide) (by split <;> decide)

theorem sideAnswered_goes {response : SideReply} (h : w.sideAnswered r response serial = .ok w') :
    Goes r w w' serial := by
  unfold Work.sideAnswered at h
  split at h <;> rename_i hs
  · obtain ⟨_, -, h⟩ := bind_ok.1 h
    obtain ⟨_, -, h⟩ := bind_ok.1 h
    split at h
    · cases h
      exact .stay .paths rfl ⟨rfl, rfl, rfl, rfl, rfl⟩ (by constructor <;> intro <;> rfl)
        (by rw [hs]; decide) (by decide)
    · cases h
      exact .stay w.stage rfl ⟨rfl, rfl, rfl, rfl, rfl⟩ (by constructor <;> intro <;> rfl) le_rfl
        (by rw [hs]; decide)
  · split at h
    · obtain ⟨_, -, h⟩ := bind_ok.1 h
      obtain ⟨_, -, h⟩ := bind_ok.1 h
      obtain ⟨_, -, h⟩ := bind_ok.1 h
      split at h
      · split at h
        · cases h
          exact (afterQueries_goes (by dsimp only; rw [hs]; rfl)).after ⟨rfl, rfl, rfl, rfl, rfl⟩
            (by constructor <;> intro <;> rfl) rfl
        · cases h
          exact .stay .queryOld rfl ⟨rfl, rfl, rfl, rfl, rfl⟩ (by constructor <;> intro <;> rfl)
            (by rw [hs]; decide) (by decide)
      · cases h
        exact .stay w.stage rfl ⟨rfl, rfl, rfl, rfl, rfl⟩ (by constructor <;> intro <;> rfl) le_rfl
          (by rw [hs]; decide)
    · cases h
  · obtain ⟨_, -, h⟩ := bind_ok.1 h
    dsimp only at h
    split at h
    · split at h
      · cases h
        exact (afterQueries_goes (by dsimp only; rw [hs]; rfl)).after ⟨rfl, rfl, rfl, rfl, rfl⟩
          (by constructor <;> intro <;> rfl) rfl
      · cases h
        exact .stay w.stage rfl ⟨rfl, rfl, rfl, rfl, rfl⟩ (by constructor <;> intro <;> rfl) le_rfl
          (by rw [hs]; decide)
    · split at h
      · cases h
        exact (afterQueries_goes (by dsimp only; rw [hs]; rfl)).after ⟨rfl, rfl, rfl, rfl, rfl⟩
          (by constructor <;> intro <;> rfl) rfl
      · cases h
        exact .stay w.stage rfl ⟨rfl, rfl, rfl, rfl, rfl⟩ (by constructor <;> intro <;> rfl) le_rfl
          (by rw [hs]; decide)
  · obtain ⟨_, -, h⟩ := bind_ok.1 h
    cases h
    exact move_goes (by rw [hs]; decide) (by decide)
  · obtain ⟨_, -, h⟩ := bind_ok.1 h
    cases h
    exact move_goes (by rw [hs]; decide) (by decide)
  · obtain ⟨_, -, h⟩ := bind_ok.1 h
    cases h
    exact move_goes (by rw [hs]; decide) (by decide)
  · obtain ⟨_, -, h⟩ := bind_ok.1 h
    cases h
    exact move_goes (by rw [hs]; decide) (by decide)
  · obtain ⟨_, -, h⟩ := bind_ok.1 h
    obtain ⟨_, -, h⟩ := bind_ok.1 h
    cases h
    exact .up 5 .rateOff (by rw [hs]; rfl) rfl ⟨rfl, rfl, rfl, rfl, rfl⟩
      (by constructor <;> intro h <;> first | rfl | exact absurd rfl h) rfl (by decide)
      (fun t h => .inl h) nofun (by decide)
  · cases h

end LinkWork
end Mst
end NvidiaGsp
