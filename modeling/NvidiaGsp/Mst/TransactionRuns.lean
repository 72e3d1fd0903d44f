import NvidiaGsp.Mst.TransactionSpec

/-!
# Mst.TransactionRuns

What holds of every run of one root's journal, interleaved with the registry calls of others. The
invariant `Inv` says that an active journal leases the handles of both its tables; it survives every
registry call except the release of its own lease. `journal_run` is the result: failing calls change
nothing, the live state moves only by the four finishing calls, the release inside them cannot fail,
and posted work cannot be cancelled any more.
-/

namespace NvidiaGsp
namespace Mst
namespace Transaction

open Call
open Registry (Reg Handle StreamLease maxU64 slotCount)
open Payload

set_option linter.unusedSectionVars false

variable {D : Type} [DecidableEq D] {env : Env D}

/-! ## The invariant -/

/-- The registry holds the lease on every handle, so that it can be released. -/
structure Leased (r : Reg) (lease : StreamLease) (handles : List Handle) : Prop where
  epoch : lease.epoch = r.epoch
  serial : lease.serial ≠ 0
  some : handles ≠ []
  few : handles.length ≤ 16
  nodup : handles.Nodup
  carried : ∀ v ∈ handles, ∃ i, r.Resolves v i ∧ (r.slots i).streamLease = .some lease

theorem Leased.release {r : Reg} {lease : StreamLease} {handles : List Handle}
    (h : Leased r lease handles) :
    Registry.releaseStreams lease handles r = .ok () (r.setLeases handles none) :=
  Registry.releaseStreams_ok.2 ⟨rfl, h.epoch, h.serial, h.some, h.few, h.nodup, h.carried⟩

/-- The handles of both tables of the journal. -/
def Journal.entries (j : Journal D) : List Entry := j.previous.table.used ++ j.target.table.used

structure Inv (w : World D) : Prop where
  ids : Registry.Inv w.ids
  vacant : w.journal.phase = .vacant → w.journal = {}
  active : w.journal.phase ≠ .vacant → ∃ t, w.journal.token = some t ∧
    Leased w.ids t.lease w.journal.handles ∧ t.revision ≠ maxU64
  entries : ∀ entry ∈ w.journal.entries, entry.handle ∈ w.journal.handles

theorem inv_start (live : State) : Inv (⟨{}, live, {}⟩ : World D) where
  ids := Registry.inv_empty
  vacant := fun _ => rfl
  active := fun h => absurd rfl h
  entries := by simp [Journal.entries, Table.used]

/-! ## Leases through registry calls -/

theorem mem_collect_acc {acc : List Handle} {l : List Entry} {v : Handle} (h : v ∈ acc) :
    v ∈ collect acc l := by
  induction l generalizing acc with
  | nil => exact h
  | cons entry rest ih =>
    refine ih ?_
    split
    · exact h
    · simp [h]

theorem mem_collect {acc : List Handle} {l : List Entry} {entry : Entry} (h : entry ∈ l) :
    entry.handle ∈ collect acc l := by
  induction l generalizing acc with
  | nil => simp at h
  | cons x rest ih =>
    rcases List.mem_cons.mp h with rfl | h
    · rw [collect]
      refine mem_collect_acc ?_
      split <;> simp_all
    · exact ih h

/-- Holding leases every handle. -/
theorem leased_of_hold {r r' : Reg} {lease : StreamLease} {handles : List Handle}
    (h : Registry.holdStreams lease handles r = .ok () r') : Leased r' lease handles := by
  obtain ⟨rfl, he, hs, hne, hlen, hnd, hall⟩ := Registry.holdStreams_ok h
  refine ⟨by rw [Registry.Reg.setLeases_epoch]; exact he, hs, hne, hlen, hnd, fun v hv => ?_⟩
  obtain ⟨i, ⟨h₁, h₂, h₃, h₄, h₅, h₆⟩, -⟩ := hall v hv
  have hslot : (r.setLeases handles (some lease)).slots i =
      { r.slots i with streamLease := some lease } := by
    rw [Registry.Reg.setLeases_slots, if_pos ⟨v, hv, h₄⟩]
  refine ⟨i, ⟨?_, ?_, h₃, h₄, ?_, ?_⟩, ?_⟩
  · rw [Registry.Reg.setLeases_epoch]
    exact h₁
  · rw [Registry.Reg.setLeases_epoch]
    exact h₂
  · rw [hslot]
    exact h₅
  · rw [hslot]
    exact h₆
  · rw [hslot]

/-- A registry call other than the release of the lease keeps it on every handle. -/
theorem Leased.step {r r' : Reg} {req : Registry.Request} {a : Registry.Answer}
    {lease : StreamLease} {handles : List Handle} (h : Leased r lease handles)
    (hi : Registry.Inv r) (he : Registry.Effect r req a r')
    (hreq : ∀ hs, req ≠ .releaseStreams lease hs) : Leased r' lease handles := by
  have hep : r'.epoch = r.epoch := by
    obtain ⟨v, hv⟩ := List.exists_mem_of_ne_nil _ h.some
    obtain ⟨i, hres, -⟩ := h.carried v hv
    exact he.epoch hres.1
  refine ⟨by rw [hep]; exact h.epoch, h.serial, h.some, h.few, h.nodup, fun v hv => ?_⟩
  obtain ⟨i, hres, hl⟩ := h.carried v hv
  exact ⟨i, he.leased hi hres hl hreq⟩

/-- The token may be rewritten, its stamp stays. -/
theorem Notes.token_of {j j' : Journal D} (hn : Notes j j') {t : Token D} (ht : j.token = some t) :
    ∃ t', j'.token = some t' ∧ t'.stamp = t.stamp :=
  Option.map_eq_some_iff.mp (by rw [hn.token, ht]; rfl)

/-- A call of someone else that releases the journal's own lease. -/
def Intrudes (w : World D) (req : Request D) : Prop :=
  ∃ t handles, w.journal.token = some t ∧ req = .registry (.releaseStreams t.lease handles)

/-- Every call keeps the invariant, unless someone else releases the journal's lease. -/
theorem Effect.inv {w w' : World D} {req : Request D} {a : Answer D} (he : Effect env w req a w')
    (hi : Inv w) (hq : ¬ Intrudes w req) : Inv w' := by
  have empty : ∀ live, Inv (⟨{}, live, w.released⟩ : World D) := fun live =>
    ⟨hi.ids.release _, fun _ => rfl, fun h => absurd rfl h, by simp [Journal.entries, Table.used]⟩
  cases he with
  | failed => exact hi
  | retained => exact hi
  | @reserved t previous target handles hr =>
    refine ⟨hi.ids.hold (Registry.holdStreams_ok hr.held).2.2.2.2.2.2, fun h => by simp at h,
      fun _ => ⟨t, rfl, leased_of_hold hr.held, hr.revision⟩, ?_⟩
    intro entry hentry
    dsimp only
    rw [hr.collected]
    rcases List.mem_append.mp hentry with hentry | hentry
    · exact mem_collect_acc (mem_collect hentry)
    · exact mem_collect hentry
  | @noted _ _ j hn _ _ _ _ =>
    refine ⟨hi.ids, fun h => absurd h hn.active', fun _ => ?_, ?_⟩
    · obtain ⟨t, ht, hl, hr⟩ := hi.active hn.active
      obtain ⟨t', ht', hstamp⟩ := hn.token_of ht
      obtain ⟨hlease, hrev⟩ := Prod.mk.inj hstamp
      refine ⟨t', ht', ?_, by rw [hrev]; exact hr⟩
      dsimp only
      rw [hlease, hn.handles]
      exact hl
    · intro entry hentry
      dsimp only at hentry ⊢
      rw [hn.handles]
      rcases List.mem_append.mp hentry with hentry | hentry
      · rw [hn.previous] at hentry
        exact hi.entries entry (List.mem_append.mpr (.inl hentry))
      · obtain ⟨old, hold, heq⟩ := hn.target entry hentry
        rw [← heq]
        exact hi.entries old (List.mem_append.mpr (.inr hold))
  | cancelled => exact empty _
  | finished => exact empty _
  | @registry req a r hs =>
    have hreg := Registry.step_effect hi.ids hs
    refine ⟨hreg.inv hi.ids, hi.vacant, fun h => ?_, hi.entries⟩
    obtain ⟨t, ht, hl, hr⟩ := hi.active h
    refine ⟨t, ht, hl.step hi.ids hreg fun handles heq => ?_, hr⟩
    exact hq ⟨t, handles, ht, by rw [heq]⟩

/-! ## Whole runs -/

/-- One call in a run. -/
abbrev Step (D : Type) := Event (World D) (Request D) (Answer D)

/-- A call that ends the transaction. -/
def Finishing (e : Step D) : Prop :=
  (∃ t, installs e.pre.journal e.op e.out = some t) ∨
    ∃ t, e.op = .cancelUnsubmitted t ∧ e.out = .done

/-- Someone else put the lease on slots of its own. -/
def HeldOutside (h : List (Step D)) (l : StreamLease) : Prop :=
  ∃ e ∈ h, ∃ handles, e.op = .registry (.holdStreams l handles) ∧ e.out = .registry .done

/-- Mutating work was posted. -/
def Posts (e : Step D) : Prop := (∃ t n, e.op = .posted t n) ∧ e.out = .done

/-- The invariant of a run. -/
structure Journaled (h : List (Step D)) (w : World D) : Prop where
  inv : Inv w
  /-- A lease on a slot is the journal's, on one of its handles, or was put there by someone else. -/
  leases : ∀ i l, (w.ids.slots i).streamLease = some l →
    (∃ t, w.journal.token = some t ∧ l = t.lease ∧ ∃ v ∈ w.journal.handles, v.slot = i.val) ∨
      HeldOutside h l
  /-- Posted work stays on record until the transaction is finished. -/
  posted : ∀ h₁ e h₂, h = h₁ ++ e :: h₂ → Posts e → (∀ f ∈ h₂, ¬ Finishing f) →
    w.journal.firstPosted ≠ 0

theorem journaled_start (live : State) : Journaled [] (⟨{}, live, {}⟩ : World D) where
  inv := inv_start live
  leases := by simp
  posted := by simp

theorem HeldOutside.mono {h : List (Step D)} {l : StreamLease} (hl : HeldOutside h l) (e : Step D) :
    HeldOutside (h ++ [e]) l := by
  obtain ⟨f, hf, h'⟩ := hl
  exact ⟨f, by simp [hf], h'⟩

/-- After the release only the leases of others are left. -/
theorem Journaled.released {h : List (Step D)} {w : World D} (hj : Journaled h w)
    {i : Fin slotCount} {l : StreamLease} (hl : (w.released.slots i).streamLease = some l) :
    HeldOutside h l := by
  rw [World.released, Registry.Reg.setLeases_slots] at hl
  split at hl
  · cases hl
  · rename_i hout
    rcases hj.leases i l hl with ⟨t, -, -, v, hv, hslot⟩ | hother
    · exact absurd ⟨v, hv, hslot⟩ hout
    · exact hother

theorem Journaled.leases_step {h : List (Step D)} {w w' : World D} {req : Request D} {a : Answer D}
    (hj : Journaled h w) (he : Effect env w req a w') (i : Fin slotCount) (l : StreamLease)
    (hl : (w'.ids.slots i).streamLease = some l) :
    (∃ t, w'.journal.token = some t ∧ l = t.lease ∧ ∃ v ∈ w'.journal.handles, v.slot = i.val) ∨
      HeldOutside (h ++ [⟨w, req, a, w'⟩]) l := by
  cases he with
  | failed => exact (hj.leases i l hl).imp_right fun h => h.mono _
  | retained => exact (hj.leases i l hl).imp_right fun h => h.mono _
  | @reserved t previous target handles hr =>
    dsimp only at hl ⊢
    rw [Registry.Reg.setLeases_slots] at hl
    split at hl
    · rename_i hmem
      cases hl
      exact .inl ⟨t, rfl, rfl, hmem⟩
    · rcases hj.leases i l hl with ⟨t', ht', -⟩ | hother
      · rw [hj.inv.vacant hr.vacant] at ht'
        cases ht'
      · exact .inr (hother.mono _)
  | @noted _ _ j hn _ _ _ _ =>
    rcases hj.leases i l hl with ⟨t, ht, hlt, hv⟩ | hother
    · obtain ⟨t', ht', hstamp⟩ := hn.token_of ht
      refine .inl ⟨t', ht', ?_, by dsimp only; rw [hn.handles]; exact hv⟩
      rw [hlt]
      exact (Prod.mk.inj hstamp).1.symm
    · exact .inr (hother.mono _)
  | cancelled => exact .inr ((hj.released hl).mono _)
  | finished => exact .inr ((hj.released hl).mono _)
  | @registry req a r hs =>
    rcases (Registry.step_effect hj.inv.ids hs).lease_source hl with hold | ⟨handles, hreq, ha⟩
    · exact (hj.leases i l hold).imp_right fun h => h.mono _
    · subst hreq ha
      exact .inr ⟨_, List.mem_append.mpr (.inr (List.mem_singleton.mpr rfl)), handles, rfl, rfl⟩

/-- A call that does not finish the transaction keeps what was posted. -/
theorem Effect.firstPosted {w w' : World D} {req : Request D} {a : Answer D}
    (he : Effect env w req a w') (hi : Inv w) (hf : ¬ Finishing ⟨w, req, a, w'⟩)
    (hp : w.journal.firstPosted ≠ 0) : w'.journal.firstPosted ≠ 0 := by
  cases he with
  | failed => exact hp
  | retained => exact hp
  | reserved hr =>
    rw [hi.vacant hr.vacant] at hp
    exact absurd rfl hp
  | noted hn => exact hn.posted hp
  | cancelled => exact absurd (.inr ⟨_, rfl, rfl⟩) hf
  | finished _ hinst => exact absurd (.inl ⟨_, hinst⟩) hf
  | registry => exact hp

theorem Effect.posts {w w' : World D} {req : Request D} {a : Answer D}
    (he : Effect env w req a w') (hp : Posts ⟨w, req, a, w'⟩) : w'.journal.firstPosted ≠ 0 := by
  obtain ⟨⟨t, n, hreq⟩, ha⟩ := hp
  dsimp only at hreq ha
  subst hreq ha
  cases he with
  | noted _ _ _ _ hpost => exact hpost t n rfl
  | finished _ hinst => cases hinst

theorem Journaled.step {h : List (Step D)} {w w' : World D} {req : Request D} {a : Answer D}
    (hj : Journaled h w) (hq : ¬ Intrudes w req) (hs : step env w req = (a, w')) :
    Journaled (h ++ [⟨w, req, a, w'⟩]) w' := by
  have he := step_effect hs
  refine ⟨he.inv hj.inv hq, hj.leases_step he, ?_⟩
  intro h₁ e h₂ heq hpost hfin
  rcases List.eq_nil_or_concat h₂ with rfl | ⟨h₃, g, rfl⟩
  · obtain ⟨-, he'⟩ := List.append_inj' heq rfl
    rw [List.singleton_inj] at he'
    subst he'
    exact he.posts hpost
  · rw [List.concat_eq_append, ← List.cons_append, ← List.append_assoc] at heq
    obtain ⟨heq, hg⟩ := List.append_inj' heq rfl
    rw [List.singleton_inj] at hg
    have hprior := hj.posted h₁ e h₃ heq hpost fun f hf => hfin f (by simp [hf])
    exact he.firstPosted hj.inv (hg ▸ hfin g (by simp)) hprior

theorem journaled_run {live : State} {h : List (Step D)} {w : World D}
    (hr : Run (step env) ⟨{}, live, {}⟩ h w) (hq : ∀ e ∈ h, ¬ Intrudes e.pre e.op) :
    Journaled h w := by
  induction hr with
  | nil => exact journaled_start live
  | snoc hr hs ih =>
    have hj := ih fun e he => hq e (by simp [he])
    exact hj.step (hq _ (List.mem_append.mpr (.inr (List.mem_singleton.mpr rfl)))) hs

/-- What every single call of a run respects. -/
structure Guarded (e : Step D) : Prop where
  /-- An error leaves journal, live state and registry as they were. -/
  unchanged : ∀ err, e.out = .failed err ∨ e.out = .registry (.failed err) → e.post = e.pre
  /-- Without an installed table the live state stays. -/
  kept : installs e.pre.journal e.op e.out = none → e.post.live = e.pre.live
  /-- An installed table is exactly the one named, one revision on. -/
  installed : ∀ t, installs e.pre.journal e.op e.out = some t →
    e.post.live.table = t ∧ e.post.live.revision = e.pre.live.revision + 1
  /-- Restoring puts back the table that was live all along. -/
  restored : ∀ t training source cleared act branches last n,
    e.op = .restored t training source cleared act branches last → e.out = .revision n →
      e.post.live.table.content = e.pre.live.table.content

theorem digest_content {hash : Content → D} (hinj : Function.Injective hash) {a b : Table} {d : D}
    (ha : a.digest hash = .ok d) (hb : b.digest hash = .ok d) : a.content = b.content := by
  unfold Table.digest at ha hb
  split at ha
  · cases ha
  · split at hb
    · cases hb
    · cases ha
      exact hinj (Except.ok.inj hb).symm

theorem Effect.guarded {w w' : World D} {req : Request D} {a : Answer D}
    (he : Effect env w req a w') (hi : Inv w) (hinj : Function.Injective env.hash) :
    Guarded ⟨w, req, a, w'⟩ where
  unchanged := by
    intro err ha
    dsimp only at ha ⊢
    have hfail : a.succeeded = false := by rcases ha with ha | ha <;> rw [ha] <;> rfl
    cases he with
    | failed => rfl
    | retained => rfl
    | reserved => cases hfail
    | noted _ hok => simp [hok] at hfail
    | cancelled => cases hfail
    | finished _ hinst => simp [succeeded_of_installs hinst] at hfail
    | registry hs =>
      simp only [reduceCtorEq, false_or, Answer.registry.injEq] at ha
      rw [(Registry.step_effect hi.ids hs).unchanged ha]
  kept := by
    intro hnone
    cases he with
    | finished _ hinst =>
      rw [hinst] at hnone
      cases hnone
    | _ => rfl
  installed := by
    intro t ht
    dsimp only at ht ⊢
    cases he with
    | finished hv hinst hrev =>
      rw [hinst] at ht
      cases ht
      exact ⟨rfl, by dsimp only; rw [hrev, hv.revision]⟩
    | noted _ _ hinst =>
      rw [hinst] at ht
      cases ht
    | failed => cases succeeded_of_installs ht
    | registry => cases ht
    | reserved => cases ht
    | retained => cases ht
    | cancelled => cases ht
  restored := by
    intro t training source cleared act branches last n hop hout
    dsimp only at hop hout ⊢
    subst hop hout
    cases he with
    | finished hv hinst =>
      rw [← Option.some.inj hinst]
      exact digest_content hinj hv.previous hv.live
    | noted _ _ hinst => cases hinst

/-- A finishing call vacates the journal and releases its lease. -/
theorem Effect.finishing {w w' : World D} {req : Request D} {a : Answer D}
    (he : Effect env w req a w') (hf : Finishing ⟨w, req, a, w'⟩) :
    w'.journal = {} ∧ w'.ids = w.released := by
  cases he with
  | cancelled => exact ⟨rfl, rfl⟩
  | finished => exact ⟨rfl, rfl⟩
  | failed =>
    rcases hf with ⟨t, hinst⟩ | ⟨t, -, hout⟩
    · cases succeeded_of_installs hinst
    · cases hout
  | noted _ _ hnone hc =>
    rcases hf with ⟨t, hinst⟩ | ⟨t, hop, -⟩
    · rw [hnone] at hinst
      cases hinst
    · exact absurd hop (hc t)
  | reserved => rcases hf with ⟨t, hinst⟩ | ⟨t, hop, -⟩ <;> contradiction
  | retained => rcases hf with ⟨t, hinst⟩ | ⟨t, hop, -⟩ <;> contradiction
  | registry => rcases hf with ⟨t, hinst⟩ | ⟨t, hop, -⟩ <;> contradiction

theorem cancelUnsubmitted_refused {w : World D} {t : Token D} (h : w.journal.firstPosted ≠ 0) :
    cancelUnsubmitted t w = .error .Retained w := by
  simp only [cancelUnsubmitted, bind_apply, get_apply]
  rw [failIf_of (.inr (.inr h))]

/-- **Stream transactions are atomic.** In every run of a root's journal, interleaved with registry
calls of others none of which releases the journal's lease: each call respects `Guarded`; while the
journal is active every handle of both its tables carries its lease and the release inside the
finishing calls succeeds; a finishing call leaves the journal vacant and the lease only where someone
else put it; and posted work cannot be cancelled before it is finished. -/
theorem journal_run (hinj : Function.Injective env.hash) {live : State} {h : List (Step D)}
    {w : World D} (hr : Run (step env) ⟨{}, live, {}⟩ h w) (hq : ∀ e ∈ h, ¬ Intrudes e.pre e.op) :
    (∀ e ∈ h, Guarded e) ∧
    (w.journal.phase ≠ .vacant → ∃ t, w.journal.token = some t ∧ t.revision ≠ maxU64 ∧
      (∀ entry ∈ w.journal.entries, ∃ i, w.ids.Resolves entry.handle i ∧
        (w.ids.slots i).streamLease = some t.lease) ∧
      ∃ r, Registry.releaseStreams t.lease w.journal.handles w.ids = .ok () r) ∧
    (∀ h₁ e h₂, h = h₁ ++ e :: h₂ → Finishing e → e.post.journal = {} ∧
      ∀ t i, e.pre.journal.token = some t → (e.post.ids.slots i).streamLease = some t.lease →
        HeldOutside h₁ t.lease) ∧
    (∀ h₁ e h₂ f h₃ t, h = h₁ ++ e :: (h₂ ++ f :: h₃) → Posts e → (∀ g ∈ h₂, ¬ Finishing g) →
      f.op = .cancelUnsubmitted t → f.out = .failed .Retained) := by
  refine ⟨?_, ?_, ?_, ?_⟩
  · intro e he
    obtain ⟨h₁, h₂, rfl, hrun, hst⟩ := hr.event he
    have hj := journaled_run hrun fun f hf => hq f (by simp [hf])
    exact (step_effect hst).guarded hj.inv hinj
  · intro hactive
    have hi := (journaled_run hr hq).inv
    obtain ⟨t, ht, hl, hrev⟩ := hi.active hactive
    exact ⟨t, ht, hrev, fun entry hentry => hl.carried _ (hi.entries entry hentry), _, hl.release⟩
  · intro h₁ e h₂ heq hfin
    subst heq
    obtain ⟨hrun, hst⟩ := hr.prior
    have hj := journaled_run hrun fun f hf => hq f (by simp [hf])
    obtain ⟨hvac, hids⟩ := (step_effect hst).finishing hfin
    refine ⟨hvac, fun t i _ hl => ?_⟩
    rw [hids] at hl
    exact hj.released hl
  · intro h₁ e h₂ f h₃ t heq hpost hfin hop
    have heq' : h = (h₁ ++ e :: h₂) ++ f :: h₃ := by rw [heq]; simp
    subst heq'
    obtain ⟨hrun, hst⟩ := hr.prior
    have hj := journaled_run hrun fun g hg => hq g (by simp only [List.mem_append] at hg ⊢; exact .inl hg)
    have hposted := hj.posted h₁ e h₂ rfl hpost hfin
    rw [hop] at hst
    simp only [step, answer, cancelUnsubmitted_refused hposted] at hst
    exact (Prod.mk.inj hst).1.symm

/-! ## A concrete transaction -/

/-- 8b/10b links as the DisplayPort rates define them. -/
def dpLinks : Links where
  dp8b10bPayload := fun rate lanes =>
    if (rate = 6 ∨ rate = 10 ∨ rate = 20 ∨ rate = 30) ∧ (lanes = 1 ∨ lanes = 2 ∨ lanes = 4) then
      some (rate * 216000000 * lanes)
    else none
  atMost := fun clock hz => decide (clock.denominator ≠ 0 ∧ clock.numerator ≤ hz * clock.denominator)
  ceilHz := fun clock =>
    if clock.denominator = 0 then none else some (ceil clock.numerator clock.denominator)

/-- A digest that keeps the whole content cannot collide. -/
def plainEnv : Env Content := ⟨id, dpLinks⟩

/-- A capture of root `1` with two sinks behind its branch. -/
def twoSinks : Graph :=
  { epoch := 1, generation := 1, root := 1, branchCount := 1, edgeCount := 2, sinkCount := 2,
    branches := fun _ => { descriptor := some (Vector.replicate 16 7) },
    edges := fun n => { port := { number := 8 + n, connected := true } },
    sinks := fun n => { edge := n }, coherent := true, completionReceipt := 5 }

theorem maxPath_pos : 0 < maxPath := by decide
theorem maxStreams_pos : 0 < maxStreams := by decide


/-- One 1080p stream on the first sink. -/
def oneStream : Table :=
  { count := 1, slots := 14, usedPbn := 532,
    entries := (Vector.replicate maxStreams {}).set 0
      { handle := ⟨1, 1, 0⟩,
        key := ⟨1, Vector.replicate 16 7, Vector.replicate 16 7, {}, 8⟩,
        pathCount := 1,
        path := (Vector.replicate maxPath {}).set 0 ⟨Vector.replicate 16 7, {}, 8⟩ maxPath_pos,
        timing := ⟨⟨148500000, 1⟩, 1920, 2200, 8⟩,
        allocation := ⟨2, 1, 0, 1, ⟨532, 14, 560, 976, 6782, true⟩⟩ } maxStreams_pos }

def oneToken : Token Content := ⟨1, 1, 1, 5, 0, ({} : Table).content, oneStream.content⟩

def oneTraining : Training :=
  ⟨⟨20, 4⟩, { rate := 30, increasedWatermark := false }, Vector.replicate 16 0,
    #v[1, 0, 0x77, 0x77, 1, 0, 0, 0], 10⟩

/-- Both sinks get verified IDs, the first one's stream is reserved, someone else leases the second
sink under the same lease, and the work is posted and acknowledged. -/
def sharedLease : List (Request Content) :=
  [.registry (.synchronize twoSinks 0 0 1),
    .registry (.allocate ⟨1, 1, 0⟩), .registry (.allocated ⟨1, 1, 0⟩ 2 6),
    .registry (.resource ⟨1, 1, 0⟩ ⟨true, 1, 0, 2, 8, 0⟩ 7),
    .registry (.allocate ⟨1, 2, 1⟩), .registry (.allocated ⟨1, 2, 1⟩ 4 6),
    .registry (.resource ⟨1, 2, 1⟩ ⟨true, 1, 0, 2, 8, 0⟩ 7),
    .reserve 1 1 1 5 {} ⟨⟨20, 4⟩, oneStream⟩,
    .registry (.holdStreams ⟨1, 1, 5⟩ [⟨1, 2, 1⟩]),
    .posted oneToken 9, .receipt oneToken 20]

/-- The commit succeeds, releases the journal's own handles, and the second sink still carries the
lease. -/
theorem lease_survives_commit :
    ∃ h w, Run (step plainEnv) ⟨{}, {}, {}⟩ h w ∧ (∀ e ∈ h, ¬ Intrudes e.pre e.op) ∧
      ∃ e ∈ h, Finishing e ∧ ∃ t i, e.pre.journal.token = some t ∧
        (e.post.ids.slots i).streamLease = some t.lease := by
  have hout : (step plainEnv (exec (step plainEnv) ⟨{}, {}, {}⟩ sharedLease).2
      (.commit oneToken oneTraining 20)).1 = .revision 1 := by decide +kernel
  have htoken : (exec (step plainEnv) ⟨{}, {}, {}⟩ sharedLease).2.journal.token = some oneToken := by
    decide +kernel
  have hslot : ((step plainEnv (exec (step plainEnv) ⟨{}, {}, {}⟩ sharedLease).2
      (.commit oneToken oneTraining 20)).2.ids.slots ⟨1, by decide⟩).streamLease =
        some oneToken.lease := by decide +kernel
  have hrun := Run.of_exec (step plainEnv) ⟨{}, {}, {}⟩ sharedLease
  have hops : ∀ e ∈ (exec (step plainEnv) ⟨{}, {}, {}⟩ sharedLease).1, ¬ Intrudes e.pre e.op := by
    rintro e he ⟨t, handles, -, hop⟩
    have hmem := mem_of_mem_exec he
    rw [hop] at hmem
    simp [sharedLease] at hmem
  generalize (exec (step plainEnv) ⟨{}, {}, {}⟩ sharedLease).2 = w at hrun hout htoken hslot
  generalize hs : step plainEnv w (.commit oneToken oneTraining 20) = r at hout hslot
  obtain ⟨out, w'⟩ := r
  dsimp only at hout
  subst hout
  refine ⟨_, w', .snoc hrun hs, ?_, _, List.mem_append.mpr (.inr (List.mem_singleton.mpr rfl)),
    .inl ⟨_, rfl⟩, oneToken, ⟨1, by decide⟩, htoken, hslot⟩
  intro e he
  rcases List.mem_append.mp he with he | he
  · exact hops e he
  · rw [List.mem_singleton] at he
    rw [he]
    rintro ⟨t, handles, -, hop⟩
    cases hop

/-- The same run up to its commit installs the stream's table at revision 1. -/
theorem journal_run_commit :
    (exec (step plainEnv) ⟨{}, {}, {}⟩
      (sharedLease ++ [.commit oneToken oneTraining 20])).2.live.table = oneStream ∧
    ∀ e ∈ (exec (step plainEnv) ⟨{}, {}, {}⟩
      (sharedLease ++ [.commit oneToken oneTraining 20])).1, Guarded e := by
  refine ⟨by decide +kernel, (@journal_run _ _ plainEnv Function.injective_id _ _ _
    (Run.of_exec (step plainEnv) ⟨{}, {}, {}⟩ _) ?_).1⟩
  rintro e he ⟨t, handles, -, hop⟩
  have hmem := mem_of_mem_exec he
  rw [hop] at hmem
  simp [sharedLease] at hmem

end Transaction
end Mst
end NvidiaGsp
