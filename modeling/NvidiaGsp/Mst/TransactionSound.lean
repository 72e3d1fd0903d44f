import NvidiaGsp.Mst.TransactionRuns
import NvidiaGsp.Mst.LinkSpec

/-!
# Mst.TransactionSound

What the works of a root need of the journal beside `Mst.TransactionRuns`: that a vacant journal is an
empty one and a lost receiver was found with an acknowledged query, in every run (`sound_run`); and
when its finishing calls succeed (`commit_apply`, `finishRebuild_apply`, `disconnectedHead_apply`).
-/

namespace NvidiaGsp
namespace Mst
namespace Transaction

open Call
open Payload
open Registry (Image)

set_option linter.unusedSectionVars false

variable {D : Type} [DecidableEq D] {env : Env D} {w w' : World D}

/-- A vacant journal is an empty one, and a lost receiver was found with an acknowledged query. -/
structure Sound (j : Journal D) : Prop where
  vacant : j.phase = .vacant → j = {}
  lost : j.phase = .disconnected → 0 < j.missingReceipt ∧ j.missingReceipt ≤ j.lastReceipt

theorem sound_empty : Sound ({} : Journal D) := ⟨fun _ => rfl, nofun⟩

/-- A journal that is neither vacant nor lost. -/
theorem Sound.of_phase {j : Journal D} (hv : j.phase ≠ .vacant) (hd : j.phase ≠ .disconnected) : Sound j :=
  ⟨fun h => absurd h hv, fun h => absurd h hd⟩

theorem sound_posted {t : Token D} {n : Nat} {u : Unit} (h : posted t n w = .ok u w')
    (hs : Sound w.journal) : Sound w'.journal := by
  simp only [posted, bind_ok_iff, get_apply, failIf_ok_iff, setJournal_apply] at h
  obtain ⟨_, _, h₀, _, _, ⟨hg, rfl⟩, h₁⟩ := h
  cases h₀; cases h₁
  simp only [not_or, not_not, not_and_or] at hg
  obtain ⟨-, -, hp⟩ := hg
  rcases hp with hp | hp | hp | hp
  · exact .of_phase (by simp [hp]) (by simp [hp])
  · exact .of_phase (by simp [hp]) (by simp [hp])
  · exact .of_phase (by simp [hp]) (by simp [hp])
  · exact ⟨by simp [hp], fun _ => hs.lost hp⟩

theorem sound_receipt {t : Token D} {n : Nat} {u : Unit} (h : receipt t n w = .ok u w')
    (hs : Sound w.journal) : Sound w'.journal := by
  simp only [receipt, bind_ok_iff, get_apply, failIf_ok_iff, setJournal_apply] at h
  obtain ⟨_, _, h₀, _, _, ⟨hg, rfl⟩, h₁⟩ := h
  cases h₀; cases h₁
  simp only [not_or, not_le] at hg
  refine ⟨fun hv => absurd hv hg.2.2.2.1, fun hd => ?_⟩
  have := hs.lost hd
  exact ⟨this.1, this.2.trans hg.2.2.1.le⟩

theorem sound_disconnected {t t' : Token D} {n : Nat} (h : disconnected env t n w = .ok t' w') :
    Sound w'.journal := by
  simp only [disconnected, bind_ok_iff, get_apply, failIf_ok_iff, lift_ok_iff, setJournal_apply,
    pure_apply] at h
  obtain ⟨_, _, hval, _, _, h₀, _, _, ⟨hg, rfl⟩, after, _, ⟨-, rfl⟩, _, _, h₁, h₂⟩ := h
  obtain ⟨rfl, -⟩ := validate_ok hval
  cases h₀; cases h₁; cases h₂
  simp only [not_or, not_not] at hg
  exact ⟨nofun, fun _ => ⟨Nat.pos_of_ne_zero hg.2.2.2.1, hg.2.2.2.2.le⟩⟩

theorem sound_disconnectedHead {t : Token D} {displayId : Nat} {previous : Image}
    {corePoint windowPoint source last : Nat} {b : Bool}
    (h : disconnectedHead env t displayId previous corePoint windowPoint source last w = .ok b w')
    (hs : Sound w.journal) : Sound w'.journal := by
  simp only [disconnectedHead, bind_ok_iff, get_apply, failIf_ok_iff, lift_ok_iff, need_ok_iff] at h
  obtain ⟨_, _, hval, _, _, h₀, _, _, ⟨-, rfl⟩, entry, _, ⟨-, rfl⟩, _, _, ⟨-, rfl⟩, handle, _,
    ⟨-, rfl⟩, _, _, ⟨-, rfl⟩, image, _, ⟨-, rfl⟩, _, _, ⟨-, rfl⟩, _, _, ⟨-, rfl⟩, hlast⟩ := h
  obtain ⟨rfl, hv⟩ := validate_ok hval
  cases h₀
  split at hlast
  · simp only [bind_ok_iff, setJournal_apply, pure_apply] at hlast
    obtain ⟨_, _, h₁, h₂⟩ := hlast
    cases h₁; cases h₂
    exact ⟨fun hn => absurd hn hv.active, hs.lost⟩
  · simp only [bind_ok_iff, pure_apply] at hlast
    obtain ⟨_, _, h₁, h₂⟩ := hlast
    cases h₂
    rw [finish_ok h₁]
    exact sound_empty

/-- Every call of the journal leaves it sound. -/
theorem sound_step {req : Request D} {a : Answer D} (h : step env w req = (a, w'))
    (hs : Sound w.journal) : Sound w'.journal := by
  have keeps : ∀ {α : Type} {f : α → Answer D} {x : Op D α}, Atomic x →
      (∀ b w', x w = .ok b w' → Sound w'.journal) → answer f x w = (a, w') → Sound w'.journal := by
    intro α f x hx hok h
    unfold answer at h
    split at h
    · rename_i b w₁ hxw
      cases h
      exact hok b _ hxw
    · rename_i e w₁ hxw
      cases h
      rw [hx _ _ _ hxw]
      exact hs
  cases req with
  | reserve epoch root generation serial previous target =>
    refine keeps (atomic_reserve _ _ _ _ _ _) (fun _ _ h₁ => ?_) h
    simp only [reserve, bind_ok_iff, setJournal_apply, pure_apply] at h₁
    obtain ⟨_, _, -, _, _, -, _, _, -, _, _, -, _, _, -, _, _, -, _, _, -, _, _, -, _, _, -, _, _, -,
      _, _, h₁, h₂⟩ := h₁
    cases h₁; cases h₂
    exact .of_phase (by intro h; cases h) (by intro h; cases h)
  | posted t n => exact keeps (atomic_posted _ _) (fun _ _ h₁ => sound_posted h₁ hs) h
  | receipt t n => exact keeps (atomic_receipt _ _) (fun _ _ h₁ => sound_receipt h₁ hs) h
  | restoring t =>
    refine keeps (atomic_restoring _) (fun _ _ h₁ => ?_) h
    simp only [restoring, bind_ok_iff, get_apply, failIf_ok_iff, setJournal_apply] at h₁
    obtain ⟨_, _, h₀, _, _, ⟨-, rfl⟩, h₁⟩ := h₁
    cases h₀; cases h₁
    exact .of_phase (by intro h; cases h) (by intro h; cases h)
  | disconnected t n => exact keeps (atomic_disconnected _ _) (fun _ _ => sound_disconnected) h
  | disconnectedHead t displayId previous corePoint windowPoint source last =>
    exact keeps (atomic_disconnectedHead _ _ _ _ _ _ _)
      (fun _ _ h₁ => sound_disconnectedHead h₁ hs) h
  | retargetTraining t desired n =>
    refine keeps (atomic_retargetTraining _ _ _) (fun _ _ h₁ => ?_) h
    rw [LinkWork.retarget_journal h₁]
    refine ⟨fun hv => ?_, hs.lost⟩
    simp only [retargetTraining, bind_ok_iff] at h₁
    obtain ⟨_, _, hval, -⟩ := h₁
    exact absurd hv (validate_ok hval).2.active
  | cancelUnsubmitted t =>
    refine keeps (atomic_cancelUnsubmitted _) (fun _ _ h₁ => ?_) h
    simp only [cancelUnsubmitted, bind_ok_iff, setJournal_apply] at h₁
    obtain ⟨_, _, -, _, _, -, _, _, -, h₁⟩ := h₁
    cases h₁
    exact sound_empty
  | retain =>
    refine keeps (f := fun _ => .done) atomic_retain (fun _ _ h₁ => ?_) h
    simp only [retain, setJournal_apply] at h₁
    cases h₁
    by_cases hv : w.journal.phase = .vacant
    · simpa [hv] using hs
    · simpa [hv] using Sound.of_phase (j := { w.journal with phase := .retained })
        (by intro h; cases h) (by intro h; cases h)
  | commit t training n =>
    refine keeps (atomic_commit _ _ _) (fun _ _ h₁ => ?_) h
    simp only [commit, bind_ok_iff, pure_apply] at h₁
    obtain ⟨_, _, -, _, _, -, _, _, -, _, _, h₁, h₂⟩ := h₁
    cases h₂
    rw [finish_ok h₁]
    exact sound_empty
  | restored t training source cleared act branches last =>
    refine keeps (atomic_finishRebuild _ _ _ _ _ _ _ _) (fun _ _ h₁ => ?_) h
    obtain ⟨-, s, rfl, -⟩ := finishRebuild_ok h₁
    exact sound_empty
  | stopped t training source cleared act branches last =>
    refine keeps (atomic_finishRebuild _ _ _ _ _ _ _ _) (fun _ _ h₁ => ?_) h
    obtain ⟨-, s, rfl, -⟩ := finishRebuild_ok h₁
    exact sound_empty
  | registry req =>
    cases h
    exact hs

/-- A journal that began vacant is sound after any calls. -/
theorem sound_run {live : State} {h : List (Event (World D) (Request D) (Answer D))}
    (hr : Run (step env) ⟨{}, live, {}⟩ h w) : Sound w.journal :=
  hr.invariant (P := fun _ w => Sound w.journal) sound_empty fun _ _ _ _ _ hs hst => sound_step hst hs

/-- What a reservation writes. -/
theorem reserve_journal {epoch root generation serial : Nat} {previous : State} {target : Budget}
    {t : Token D} (h : reserve env epoch root generation serial previous target w = .ok t w') :
    w.journal.phase = .vacant ∧ ∃ handles, w'.journal = { w.journal with
      previous := previous, target := target, handles := handles, token := some t,
      phase := .reserved } := by
  simp only [reserve, bind_ok_iff, get_apply, failIf_ok_iff, lift_ok_iff, onIds_ok,
    setJournal_apply, pure_apply] at h
  obtain ⟨_, _, h₀, _, _, ⟨hb, rfl⟩, _, _, ⟨-, rfl⟩, _, _, ⟨-, rfl⟩, _, _, ⟨-, rfl⟩, _, _,
    ⟨-, rfl⟩, before, _, ⟨-, rfl⟩, after, _, ⟨-, rfl⟩, _, _, ⟨-, rfl⟩, _, _, ⟨r, -, rfl⟩, _, _,
    h₁, h₂⟩ := h
  cases h₀; cases h₁; cases h₂
  simp only [not_or, not_not] at hb
  exact ⟨hb.1, _, rfl⟩

/-- The leases go back, and the state is installed. -/
theorem finish_apply {t : Token D} {s : State} {tx : World D} (h : releaseAll t w = .ok () tx) :
    finish t s w = .ok () ⟨{}, s, w.released⟩ := by
  unfold finish
  rw [bind_apply, h]
  dsimp only
  rw [releaseAll_ok h, bind_apply, setLive_apply]
  rfl

theorem receipt_apply {t : Token D} {n : Nat} (ht : w.journal.token = some t) (hn : w.journal.lastReceipt < n)
    (hp : w.journal.phase ≠ .vacant ∧ w.journal.phase ≠ .committed ∧ w.journal.phase ≠ .restored) :
    receipt t n w = .ok () { w with journal := { w.journal with lastReceipt := n } } := by
  unfold receipt
  rw [bind_apply, get_apply]
  dsimp only
  rw [bind_apply, failIf_of_not]
  · rfl
  · simp only [not_or, not_not, not_le]
    exact ⟨ht, by omega, hn, hp⟩

/-- What `commit` asks beside a valid token. -/
theorem commit_apply {t : Token D} {training : Training} {n : Nat} {tx : World D}
    (hv : validate env t w = .ok () w) (hp : w.journal.phase = .posted) (hf : w.journal.firstPosted ≠ 0)
    (hn : n = w.journal.lastReceipt) (hr : 0 < training.receipt) (hlt : training.receipt < n)
    (hl : training.link = w.journal.target.link)
    (ht : trained training.lanes training.link.lanes = true) (hrel : releaseAll t w = .ok () tx) :
    commit env t training n w = .ok (t.revision + 1) ⟨{}, {
      epoch := t.epoch, root := t.root, revision := t.revision + 1, table := w.journal.target.table,
      training := some training, completionReceipt := n }, w.released⟩ := by
  unfold commit
  rw [bind_apply, hv]
  dsimp only
  rw [bind_apply, get_apply]
  dsimp only
  rw [bind_apply, failIf_of_not]
  · dsimp only
    rw [bind_apply, finish_apply hrel]
    rfl
  · simp only [not_or, not_not, not_le]
    exact ⟨hp, hf, by omega, hn, by omega, hlt, hl, by simp [ht]⟩

/-- What `finishRebuild` asks beside a valid token. -/
theorem finishRebuild_apply {t : Token D} {training : Option Training}
    {source cleared act branches last : Nat} {restore : Bool} {tx : World D}
    (hv : validate env t w = .ok () w)
    (hp : w.journal.phase = if restore = true then .restoring else .posted)
    (hf : w.journal.firstPosted ≠ 0) (hs : 0 < source) (hc : source < cleared)
    (hn : last = w.journal.lastReceipt) (hl : cleared ≤ last)
    (hg : rebuilt (if restore = true then w.journal.previous.table else w.journal.target.table)
      w.journal.previous training source cleared act branches last)
    (hrel : releaseAll t w = .ok () tx) :
    finishRebuild env t training source cleared act branches last restore w =
      .ok (t.revision + 1) ⟨{}, {
        epoch := t.epoch, root := t.root, revision := t.revision + 1,
        table := if restore = true then w.journal.previous.table else w.journal.target.table,
        training := training, completionReceipt := last }, w.released⟩ := by
  unfold finishRebuild
  rw [bind_apply, hv]
  dsimp only
  rw [bind_apply, get_apply]
  dsimp only
  rw [bind_apply, failIf_of_not]
  · dsimp only
    rw [bind_apply, failIf_of_not (not_not_intro hg)]
    dsimp only
    rw [bind_apply, finish_apply hrel]
    rfl
  · simp only [not_or, not_not, not_le, not_lt]
    exact ⟨hp, hf, by omega, hc, hn, hl⟩

/-- The head is one of the lost receiver's, its image is the one that was on, and the display owner has
gone past its points. -/
structure HeadFits (w : World D) (displayId : Nat) (image : Image) (corePoint windowPoint : Nat)
    (entry : Entry) : Prop where
  found : w.journal.previous.table.find displayId = some entry
  head : image.head = entry.allocation.head
  window : image.window = entry.window
  core : image.corePoint < corePoint
  point : image.windowPoint < windowPoint
  handle : w.ids.handle entry.handle.slot = .ok entry.handle
  shown : imageAt w.ids entry.handle.slot = some image
  running : w.journal.stoppedHeads &&& (1 <<< image.head) = 0

/-- What `disconnectedHead` asks beside a valid token. -/
theorem disconnectedHead_apply {t : Token D} {displayId : Nat} {image : Image}
    {corePoint windowPoint source last : Nat} {entry : Entry} {tx : World D}
    (hv : validate env t w = .ok () w) (hp : w.journal.phase = .disconnected)
    (hm : 0 < w.journal.missingReceipt) (hs : w.journal.missingReceipt < source) (hl : source < last)
    (hn : last = w.journal.lastReceipt) (he : w.ids.epoch = t.epoch)
    (hf : HeadFits w displayId image corePoint windowPoint entry)
    (hrel : releaseAll t w = .ok () tx) :
    ∃ b w', disconnectedHead env t displayId image corePoint windowPoint source last w = .ok b w' := by
  unfold disconnectedHead
  rw [bind_apply, hv]
  dsimp only
  rw [bind_apply, get_apply]
  dsimp only
  rw [bind_apply, failIf_of_not (by
    simp only [not_or, not_not, not_le]
    exact ⟨hp, by omega, hs, hl, hn, he⟩)]
  dsimp only
  rw [bind_apply, hf.found]
  simp only [need, pure_apply]
  rw [bind_apply, failIf_of_not (by
    simp only [not_or, not_not, not_le]
    exact ⟨hf.head, hf.window, hf.core, hf.point⟩)]
  dsimp only
  rw [bind_apply, hf.handle]
  simp only [lift_ok_apply]
  rw [bind_apply, failIf_of_not (by simp)]
  dsimp only
  rw [bind_apply, hf.shown]
  simp only [pure_apply]
  rw [bind_apply, failIf_of_not (by simp)]
  dsimp only
  rw [bind_apply, failIf_of_not (by simp [hf.running])]
  dsimp only
  split
  · exact ⟨false, _, rfl⟩
  · rw [bind_apply, finish_apply hrel]
    exact ⟨true, _, rfl⟩

end Transaction
end Mst
end NvidiaGsp
