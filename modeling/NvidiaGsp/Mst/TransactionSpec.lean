import NvidiaGsp.Mst.RegistryRuns
import NvidiaGsp.Mst.Transaction

/-!
# Mst.TransactionSpec

What each journal call does. A failing call writes nothing (`atomic_*`); a successful one reserves,
notes something in the journal (`Notes`), finishes the transaction, or is a registry call made by
someone else. `Effect` lists these, `step_effect` says that there is nothing else.
-/

namespace NvidiaGsp
namespace Mst
namespace Transaction

open Call
open Registry (Reg Handle StreamLease Image maxU64 slotCount)
open Payload

set_option linter.unusedSectionVars false

variable {D : Type} [DecidableEq D] {env : Env D}

/-! ## Parts of the calls -/

theorem onIds_ok {α : Type} {x : Registry.Op α} {w w' : World D} {a : α} :
    onIds x w = .ok a w' ↔ ∃ r, x w.ids = .ok a r ∧ w' = { w with ids := r } := by
  unfold onIds
  cases x w.ids <;> simp [eq_comm]

theorem atomic_onIds {α : Type} {x : Registry.Op α} (hx : Atomic x) :
    Atomic (onIds x : Op D α) := by
  intro w e w' h
  unfold onIds at h
  split at h
  · cases h
  · rename_i r hr
    cases h
    rw [hx _ _ _ hr]

@[simp] theorem setJournal_apply (f : Journal D → Journal D) (w : World D) :
    setJournal f w = .ok () { w with journal := f w.journal } := rfl

@[simp] theorem setLive_apply (s : State) (w : World D) :
    setLive s w = .ok () { w with live := s } := rfl

theorem total_setJournal (f : Journal D → Journal D) : Total (setJournal f) := total_modify _
theorem total_setLive (s : State) : Total (setLive s : Op D Unit) := total_modify _

theorem atomic_checked {c : Prop} [Decidable c] {e : Error} {α : Type} {x : Op D α}
    (hx : Atomic x) : Atomic (do failIf c e; x) := (readOnly_failIf c e).bind_atomic fun _ => hx

/-- The token is the journal's, and nothing it stands for has changed. -/
structure Valid (env : Env D) (t : Token D) (w : World D) : Prop where
  active : w.journal.phase ≠ .vacant
  token : w.journal.token = some t
  revision : w.live.revision = t.revision
  live : w.live.table.digest env.hash = .ok t.before
  previous : w.journal.previous.table.digest env.hash = .ok t.before
  target : w.journal.target.table.digest env.hash = .ok t.after

theorem validate_ok {t : Token D} {w w' : World D} {u : Unit} (h : validate env t w = .ok u w') :
    w' = w ∧ Valid env t w := by
  simp only [validate, bind_ok_iff, get_apply, failIf_ok_iff, lift_ok_iff] at h
  obtain ⟨_, _, h₀, _, _, ⟨hg, rfl⟩, _, _, ⟨hl, rfl⟩, _, _, ⟨hlb, rfl⟩, _, _, ⟨hp, rfl⟩, _, _,
    ⟨hpb, rfl⟩, _, _, ⟨ht, rfl⟩, hta, rfl⟩ := h
  cases h₀
  simp only [not_or, not_not] at hg hlb hpb hta
  exact ⟨rfl, hg.1, hg.2.1, hg.2.2.1, hlb ▸ hl, hpb ▸ hp, hta ▸ ht⟩

theorem readOnly_validate (t : Token D) : ReadOnly (validate env t) :=
  readOnly_get.bind fun _ => (readOnly_failIf _ _).bind fun _ => (readOnly_lift _).bind fun _ =>
    (readOnly_failIf _ _).bind fun _ => (readOnly_lift _).bind fun _ =>
    (readOnly_failIf _ _).bind fun _ => (readOnly_lift _).bind fun _ => readOnly_failIf _ _

/-- The registry without the journal's leases. -/
def World.released (w : World D) : Reg := w.ids.setLeases w.journal.handles none

theorem releaseAll_ok {t : Token D} {w w' : World D} {u : Unit} (h : releaseAll t w = .ok u w') :
    w' = { w with ids := w.released } := by
  simp only [releaseAll, bind_ok_iff, get_apply, onIds_ok] at h
  obtain ⟨_, _, h₀, r, hr, rfl⟩ := h
  cases h₀
  rw [(Registry.releaseStreams_ok.1 hr).1]
  rfl

theorem atomic_releaseAll (t : Token D) : Atomic (releaseAll t) :=
  readOnly_get.bind_atomic fun _ => atomic_onIds (Registry.atomic_releaseStreams _ _)

theorem finish_ok {t : Token D} {s : State} {w w' : World D} {u : Unit}
    (h : finish t s w = .ok u w') : w' = ⟨{}, s, w.released⟩ := by
  simp only [finish, bind_ok_iff, setLive_apply, setJournal_apply] at h
  obtain ⟨_, _, h₁, _, _, h₂, h₃⟩ := h
  rw [releaseAll_ok h₁] at h₂
  cases h₂; cases h₃
  rfl

theorem atomic_finish (t : Token D) (s : State) : Atomic (finish t s) :=
  (atomic_releaseAll t).bind_total fun _ => (total_setLive s).bind fun _ => total_setJournal _

/-! ## What a call can do -/

/-- The part of a token that stays when it is rewritten. -/
def Token.stamp (t : Token D) : StreamLease × Nat := (t.lease, t.revision)

/-- What the journal remembers between reservation and finish. -/
structure Notes (j j' : Journal D) : Prop where
  active : j.phase ≠ .vacant
  active' : j'.phase ≠ .vacant
  token : j'.token.map Token.stamp = j.token.map Token.stamp
  handles : j'.handles = j.handles
  previous : j'.previous = j.previous
  target : ∀ entry ∈ j'.target.table.used, ∃ old ∈ j.target.table.used, old.handle = entry.handle
  posted : j.firstPosted ≠ 0 → j'.firstPosted ≠ 0

/-- The table a successful call installs. -/
def installs (j : Journal D) : Request D → Answer D → Option Table
  | .commit .., .revision _ => some j.target.table
  | .restored .., .revision _ => some j.previous.table
  | .stopped .., .revision _ => some j.target.table
  | .disconnectedHead .., .finished true => some {}
  | _, _ => none

/-- The call returned a value. -/
def Answer.succeeded : Answer D → Bool
  | .failed _ => false
  | .registry (.failed _) => false
  | _ => true

/-- Only a successful call installs a table. -/
theorem succeeded_of_installs {j : Journal D} {req : Request D} {a : Answer D} {t : Table}
    (h : installs j req a = some t) : a.succeeded = true := by
  cases a with
  | failed => cases req <;> cases h
  | registry => cases req <;> cases h
  | _ => rfl

/-- The reservation as it starts: vacant journal, leased handles of both tables. -/
structure Reserves (w : World D) (t : Token D) (previous : State) (target : Budget)
    (handles : List Handle) : Prop where
  vacant : w.journal.phase = .vacant
  collected : handles = collect (collect [] previous.table.used) target.table.used
  held : Registry.holdStreams t.lease handles w.ids =
    .ok () (w.ids.setLeases handles (some t.lease))
  revision : t.revision ≠ maxU64

inductive Effect (env : Env D) (w : World D) : Request D → Answer D → World D → Prop where
  | failed {req : Request D} {e : Error} : Effect env w req (.failed e) w
  | reserved {t : Token D} {previous : State} {target : Budget} {handles : List Handle}
      (hr : Reserves w t previous target handles) :
      Effect env w (.reserve t.epoch t.root t.generation t.serial previous target) (.token t)
        { w with
          journal := { w.journal with previous := previous, target := target, handles := handles,
                                      token := some t, phase := .reserved },
          ids := w.ids.setLeases handles (some t.lease) }
  | noted {req : Request D} {a : Answer D} {j : Journal D} (hn : Notes w.journal j)
      (ha : a.succeeded = true) (hi : installs w.journal req a = none) (hc : ∀ t, req ≠ .cancelUnsubmitted t)
      (hp : ∀ t n, req = .posted t n → j.firstPosted ≠ 0) :
      Effect env w req a { w with journal := j }
  | retained (hv : w.journal.phase = .vacant) : Effect env w .retain .done w
  | cancelled {t : Token D} (ht : w.journal.token = some t) (hp : w.journal.phase = .reserved)
      (hf : w.journal.firstPosted = 0) :
      Effect env w (.cancelUnsubmitted t) .done ⟨{}, w.live, w.released⟩
  | finished {req : Request D} {a : Answer D} {t : Token D} {s : State} (hv : Valid env t w)
      (hi : installs w.journal req a = some s.table) (hr : s.revision = t.revision + 1) :
      Effect env w req a ⟨{}, s, w.released⟩
  | registry {req : Registry.Request} {a : Registry.Answer} {r : Reg}
      (hs : Registry.step w.ids req = (a, r)) :
      Effect env w (.registry req) (.registry a) { w with ids := r }

section

variable {w w' : World D}

theorem reserve_ok {epoch root generation serial : Nat} {previous : State} {target : Budget}
    {t : Token D} (h : reserve env epoch root generation serial previous target w = .ok t w') :
    Effect env w (.reserve epoch root generation serial previous target) (.token t) w' := by
  simp only [reserve, bind_ok_iff, get_apply, failIf_ok_iff, lift_ok_iff, onIds_ok,
    setJournal_apply, pure_apply] at h
  obtain ⟨_, _, h₀, _, _, ⟨hb, rfl⟩, _, _, ⟨hu, rfl⟩, _, _, ⟨-, rfl⟩, _, _, ⟨-, rfl⟩, _, _,
    ⟨-, rfl⟩, before, _, ⟨-, rfl⟩, after, _, ⟨-, rfl⟩, _, _, ⟨-, rfl⟩, _, _, ⟨r, hr, rfl⟩, _, _,
    h₁, h₂⟩ := h
  cases h₀; cases h₁; cases h₂
  simp only [not_or, not_not, Unfit] at hb hu
  obtain ⟨rfl, -⟩ := Registry.holdStreams_ok hr
  exact .reserved (t := ⟨epoch, root, generation, serial, previous.revision, before, after⟩)
    ⟨hb.1, rfl, hr, hu.2.2.2.2.2.2⟩

theorem posted_ok {t : Token D} {n : Nat} (h : posted t n w = .ok () w') :
    Effect env w (.posted t n) .done w' := by
  simp only [posted, bind_ok_iff, get_apply, failIf_ok_iff, setJournal_apply] at h
  obtain ⟨_, _, h₀, _, _, ⟨hg, rfl⟩, h₁⟩ := h
  cases h₀; cases h₁
  simp only [not_or, not_not, not_and_or] at hg
  obtain ⟨ht, hn, hp⟩ := hg
  have hactive : w.journal.phase ≠ .vacant := by
    intro hv
    simp [hv] at hp
  refine .noted ⟨hactive, ?_, rfl, rfl, rfl, fun e he => ⟨e, he, rfl⟩, ?_⟩ rfl rfl (by simp) ?_
  · dsimp only
    split
    · simp
    · exact hactive
  · intro hf
    simp [hf]
  · intro _ _ _
    dsimp only
    split
    · exact hn
    · assumption

theorem receipt_ok {t : Token D} {n : Nat} (h : receipt t n w = .ok () w') :
    Effect env w (.receipt t n) .done w' := by
  simp only [receipt, bind_ok_iff, get_apply, failIf_ok_iff, setJournal_apply] at h
  obtain ⟨_, _, h₀, _, _, ⟨hg, rfl⟩, h₁⟩ := h
  cases h₀; cases h₁
  simp only [not_or] at hg
  exact .noted ⟨hg.2.2.2.1, hg.2.2.2.1, rfl, rfl, rfl, fun e he => ⟨e, he, rfl⟩, id⟩ rfl rfl (by simp)
    (by simp)

theorem restoring_ok {t : Token D} (h : restoring t w = .ok () w') :
    Effect env w (.restoring t) .done w' := by
  simp only [restoring, bind_ok_iff, get_apply, failIf_ok_iff, setJournal_apply] at h
  obtain ⟨_, _, h₀, _, _, ⟨hg, rfl⟩, h₁⟩ := h
  cases h₀; cases h₁
  simp only [not_or, not_not] at hg
  exact .noted ⟨by simp [hg.2.1], by simp, rfl, rfl, rfl, fun e he => ⟨e, he, rfl⟩, id⟩ rfl rfl
    (by simp) (by simp)

theorem disconnected_ok {t t' : Token D} {n : Nat} (h : disconnected env t n w = .ok t' w') :
    Effect env w (.disconnected t n) (.token t') w' := by
  simp only [disconnected, bind_ok_iff, get_apply, failIf_ok_iff, lift_ok_iff, setJournal_apply,
    pure_apply] at h
  obtain ⟨_, _, hval, _, _, h₀, _, _, ⟨hg, rfl⟩, after, _, ⟨-, rfl⟩, _, _, h₁, h₂⟩ := h
  obtain ⟨rfl, hv⟩ := validate_ok hval
  cases h₀; cases h₁; cases h₂
  exact .noted ⟨hv.active, by simp, by simp [hv.token, Token.stamp, Token.lease], rfl, rfl,
    by simp [Table.used], id⟩ rfl rfl (by simp) (by simp)

theorem disconnectedHead_ok {t : Token D} {displayId : Nat} {previous : Image}
    {corePoint windowPoint source last : Nat} {b : Bool}
    (h : disconnectedHead env t displayId previous corePoint windowPoint source last w = .ok b w') :
    Effect env w (.disconnectedHead t displayId previous corePoint windowPoint source last)
      (.finished b) w' := by
  simp only [disconnectedHead, bind_ok_iff, get_apply, failIf_ok_iff, lift_ok_iff, need_ok_iff] at h
  obtain ⟨_, _, hval, _, _, h₀, _, _, ⟨-, rfl⟩, entry, _, ⟨-, rfl⟩, _, _, ⟨-, rfl⟩, handle, _,
    ⟨-, rfl⟩, _, _, ⟨-, rfl⟩, image, _, ⟨-, rfl⟩, _, _, ⟨-, rfl⟩, _, _, ⟨-, rfl⟩, hlast⟩ := h
  obtain ⟨rfl, hv⟩ := validate_ok hval
  cases h₀
  split at hlast
  · simp only [bind_ok_iff, setJournal_apply, pure_apply] at hlast
    obtain ⟨_, _, h₁, h₂⟩ := hlast
    cases h₁; cases h₂
    exact .noted ⟨hv.active, hv.active, rfl, rfl, rfl, fun e he => ⟨e, he, rfl⟩, id⟩ rfl rfl (by simp)
      (by simp)
  · simp only [bind_ok_iff, pure_apply] at hlast
    obtain ⟨_, _, h₁, h₂⟩ := hlast
    cases h₂
    rw [finish_ok h₁]
    exact .finished hv rfl rfl

/-- A one-stream table holds its first entry. -/
theorem used_of_count_one {t : Table} (h : t.count = 1) : t.used = [Table.first t] := by
  have hlen : t.entries.toList.length = maxStreams := by simp
  unfold Table.used Table.first
  rw [h]
  cases hl : t.entries.toList with
  | nil => rw [hl] at hlen; simp [maxStreams] at hlen
  | cons x rest => simp

theorem retargetTraining_ok {t t' : Token D} {desired : Budget} {n : Nat}
    (h : retargetTraining env t desired n w = .ok t' w') :
    Effect env w (.retargetTraining t desired n) (.token t') w' := by
  simp only [retargetTraining, bind_ok_iff, get_apply, failIf_ok_iff, lift_ok_iff, setJournal_apply,
    pure_apply] at h
  obtain ⟨_, w₁, hval, _, _, h₀, _, _, ⟨hg, rfl⟩, _, _, ⟨-, rfl⟩, _, _, ⟨-, rfl⟩, _, _, ⟨he, rfl⟩,
    after, _, ⟨-, rfl⟩, _, _, h₁, h₂⟩ := h
  obtain ⟨rfl, hv⟩ := validate_ok hval
  cases h₀; cases h₁; cases h₂
  simp only [not_or, not_not] at hg he
  refine .noted ⟨hv.active, hv.active, by simp [hv.token, Token.stamp, Token.lease], rfl, rfl, ?_, id⟩ rfl rfl
    (by simp) (by simp)
  intro entry hentry
  rw [used_of_count_one hg.2.2.2.1, List.mem_singleton] at hentry
  subst hentry
  refine ⟨Table.first w₁.journal.target.table, by rw [used_of_count_one hg.2.2.1]; simp, ?_⟩
  rw [← he]

theorem cancelUnsubmitted_ok {t : Token D} (h : cancelUnsubmitted t w = .ok () w') :
    Effect env w (.cancelUnsubmitted t) .done w' := by
  simp only [cancelUnsubmitted, bind_ok_iff, get_apply, failIf_ok_iff, setJournal_apply] at h
  obtain ⟨_, _, h₀, _, _, ⟨hg, rfl⟩, _, _, h₁, h₂⟩ := h
  cases h₀
  rw [releaseAll_ok h₁] at h₂
  cases h₂
  simp only [not_or, not_not] at hg
  exact .cancelled hg.1 hg.2.1 hg.2.2

theorem retain_ok (h : retain w = .ok () w') : Effect env w .retain .done w' := by
  simp only [retain, setJournal_apply] at h
  cases h
  by_cases hv : w.journal.phase = .vacant
  · simp only [hv, ne_eq, not_true_eq_false, if_false]
    exact .retained hv
  · simp only [ne_eq, hv, not_false_eq_true, if_true]
    exact .noted ⟨hv, by simp, rfl, rfl, rfl, fun e he => ⟨e, he, rfl⟩, id⟩ rfl rfl (by simp) (by simp)

theorem commit_ok {t : Token D} {training : Training} {n m : Nat}
    (h : commit env t training n w = .ok m w') :
    Effect env w (.commit t training n) (.revision m) w' := by
  simp only [commit, bind_ok_iff, get_apply, failIf_ok_iff, pure_apply] at h
  obtain ⟨_, _, hval, _, _, h₀, _, _, ⟨-, rfl⟩, _, _, h₁, h₂⟩ := h
  obtain ⟨rfl, hv⟩ := validate_ok hval
  cases h₀; cases h₂
  rw [finish_ok h₁]
  exact .finished hv rfl rfl

theorem finishRebuild_ok {t : Token D} {training : Option Training}
    {source cleared act branches last m : Nat} {restore : Bool}
    (h : finishRebuild env t training source cleared act branches last restore w = .ok m w') :
    Valid env t w ∧ ∃ s, w' = ⟨{}, s, w.released⟩ ∧ s.revision = t.revision + 1 ∧
      s.table = if restore then w.journal.previous.table else w.journal.target.table := by
  simp only [finishRebuild, bind_ok_iff, get_apply, failIf_ok_iff, pure_apply] at h
  obtain ⟨_, _, hval, _, _, h₀, _, _, ⟨-, rfl⟩, _, _, ⟨-, rfl⟩, _, _, h₁, h₂⟩ := h
  obtain ⟨rfl, hv⟩ := validate_ok hval
  cases h₀; cases h₂
  rw [finish_ok h₁]
  exact ⟨hv, _, rfl, rfl, rfl⟩

theorem restored_ok {t : Token D} {training : Option Training}
    {source cleared act branches last m : Nat}
    (h : restored env t training source cleared act branches last w = .ok m w') :
    Effect env w (.restored t training source cleared act branches last) (.revision m) w' := by
  obtain ⟨hv, s, rfl, hr, ht⟩ := finishRebuild_ok h
  exact .finished hv (by rw [ht]; rfl) hr

theorem stopped_ok {t : Token D} {training : Option Training}
    {source cleared act branches last m : Nat}
    (h : stopped env t training source cleared act branches last w = .ok m w') :
    Effect env w (.stopped t training source cleared act branches last) (.revision m) w' := by
  obtain ⟨hv, s, rfl, hr, ht⟩ := finishRebuild_ok h
  exact .finished hv (by rw [ht]; rfl) hr

end

/-! ## A failing call writes nothing -/

theorem atomic_note {c : Prop} [Decidable c] {e : Error} (f : Journal D → Journal D) :
    Atomic (do failIf c e; setJournal f) := atomic_checked (total_setJournal f).atomic

theorem atomic_reserve (epoch root generation serial : Nat) (previous : State) (target : Budget) :
    Atomic (reserve env epoch root generation serial previous target) :=
  readOnly_get.bind_atomic fun _ => atomic_checked <| atomic_checked <| atomic_checked <|
    (readOnly_lift _).bind_atomic fun _ => (readOnly_lift _).bind_atomic fun _ =>
    (readOnly_lift _).bind_atomic fun _ => (readOnly_lift _).bind_atomic fun _ =>
    atomic_checked <| (atomic_onIds (Registry.atomic_holdStreams _ _)).bind_total fun _ =>
    (total_setJournal _).bind fun _ => total_pure _

theorem atomic_posted (t : Token D) (n : Nat) : Atomic (posted t n) :=
  readOnly_get.bind_atomic fun _ => atomic_note _

theorem atomic_receipt (t : Token D) (n : Nat) : Atomic (receipt t n) :=
  readOnly_get.bind_atomic fun _ => atomic_note _

theorem atomic_restoring (t : Token D) : Atomic (restoring t) :=
  readOnly_get.bind_atomic fun _ => atomic_note _

theorem atomic_disconnected (t : Token D) (n : Nat) : Atomic (disconnected env t n) :=
  (readOnly_validate t).bind_atomic fun _ => readOnly_get.bind_atomic fun _ => atomic_checked <|
    (readOnly_lift _).bind_atomic fun _ => ((total_setJournal _).bind fun _ => total_pure _).atomic

theorem atomic_disconnectedHead (t : Token D) (displayId : Nat) (previous : Image)
    (corePoint windowPoint source last : Nat) :
    Atomic (disconnectedHead env t displayId previous corePoint windowPoint source last) := by
  refine (readOnly_validate t).bind_atomic fun _ => readOnly_get.bind_atomic fun w =>
    atomic_checked <| (readOnly_need _ _).bind_atomic fun _ => atomic_checked <|
    (readOnly_lift _).bind_atomic fun _ => atomic_checked <|
    (readOnly_need _ _).bind_atomic fun _ => atomic_checked <| atomic_checked ?_
  dsimp only
  split
  · exact ((total_setJournal _).bind fun _ => total_pure _).atomic
  · exact (atomic_finish _ _).bind_total fun _ => total_pure _

theorem atomic_retargetTraining (t : Token D) (desired : Budget) (n : Nat) :
    Atomic (retargetTraining env t desired n) :=
  (readOnly_validate t).bind_atomic fun _ => readOnly_get.bind_atomic fun _ => atomic_checked <|
    (readOnly_lift _).bind_atomic fun _ => atomic_checked <| atomic_checked <|
    (readOnly_lift _).bind_atomic fun _ => ((total_setJournal _).bind fun _ => total_pure _).atomic

theorem atomic_cancelUnsubmitted (t : Token D) : Atomic (cancelUnsubmitted t) :=
  readOnly_get.bind_atomic fun _ => atomic_checked <|
    (atomic_releaseAll t).bind_total fun _ => total_setJournal _

theorem atomic_retain : Atomic (retain : Op D Unit) := (total_setJournal _).atomic

theorem atomic_commit (t : Token D) (training : Training) (n : Nat) :
    Atomic (commit env t training n) :=
  (readOnly_validate t).bind_atomic fun _ => readOnly_get.bind_atomic fun _ => atomic_checked <|
    (atomic_finish _ _).bind_total fun _ => total_pure _

theorem atomic_finishRebuild (t : Token D) (training : Option Training)
    (source cleared act branches last : Nat) (restore : Bool) :
    Atomic (finishRebuild env t training source cleared act branches last restore) :=
  (readOnly_validate t).bind_atomic fun _ => readOnly_get.bind_atomic fun _ => atomic_checked <|
    atomic_checked <| (atomic_finish _ _).bind_total fun _ => total_pure _

/-- The answer of an atomic call: an error and no write, or what its success does. -/
theorem effect_of_answer {α : Type} {f : α → Answer D} {x : Op D α} {w w' : World D}
    {req : Request D} {a : Answer D} (hx : Atomic x)
    (hok : ∀ b w', x w = .ok b w' → Effect env w req (f b) w') (h : answer f x w = (a, w')) :
    Effect env w req a w' := by
  unfold answer at h
  split at h
  · rename_i b w₁ hxw
    cases h
    exact hok b _ hxw
  · rename_i e w₁ hxw
    cases h
    rw [hx _ _ _ hxw]
    exact .failed

theorem step_effect {w w' : World D} {req : Request D} {a : Answer D}
    (h : step env w req = (a, w')) : Effect env w req a w' := by
  cases req with
  | reserve epoch root generation serial previous target =>
    exact effect_of_answer (atomic_reserve _ _ _ _ _ _) (fun _ _ => reserve_ok) h
  | posted token submission => exact effect_of_answer (atomic_posted _ _) (fun _ _ => posted_ok) h
  | receipt token serial => exact effect_of_answer (atomic_receipt _ _) (fun _ _ => receipt_ok) h
  | restoring token => exact effect_of_answer (atomic_restoring _) (fun _ _ => restoring_ok) h
  | disconnected token serial =>
    exact effect_of_answer (atomic_disconnected _ _) (fun _ _ => disconnected_ok) h
  | disconnectedHead token displayId previous corePoint windowPoint source last =>
    exact effect_of_answer (atomic_disconnectedHead _ _ _ _ _ _ _) (fun _ _ => disconnectedHead_ok) h
  | retargetTraining token desired serial =>
    exact effect_of_answer (atomic_retargetTraining _ _ _) (fun _ _ => retargetTraining_ok) h
  | cancelUnsubmitted token =>
    exact effect_of_answer (atomic_cancelUnsubmitted _) (fun _ _ => cancelUnsubmitted_ok) h
  | retain => exact effect_of_answer atomic_retain (fun _ _ => retain_ok) h
  | commit token training receiptSerial =>
    exact effect_of_answer (atomic_commit _ _ _) (fun _ _ => commit_ok) h
  | restored token training source cleared act branches last =>
    exact effect_of_answer (atomic_finishRebuild _ _ _ _ _ _ _ _) (fun _ _ => restored_ok) h
  | stopped token training source cleared act branches last =>
    exact effect_of_answer (atomic_finishRebuild _ _ _ _ _ _ _ _) (fun _ _ => stopped_ok) h
  | registry req =>
    simp only [step] at h
    cases h
    exact .registry rfl

end Transaction
end Mst
end NvidiaGsp
