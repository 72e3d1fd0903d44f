import NvidiaGsp.Power.OwnerSpec

/-!
# Power.PollSpec

What a poll does to the owner and its history: the control is sent once, and only an acknowledged
reply changes who holds the page and which boost is accepted.
-/

namespace NvidiaGsp
namespace Power

open Call

variable {o o' : Owner} {w : World} {a : Answers} {now : Nat} {operation : Operation} {status : Word}

theorem polled_same (h : o'.completed = w.owner.completed) :
    w.polled now o' = { w with owner := o', exposed := w.exposed || w.owner.attaching } := by
  unfold World.polled
  rw [if_neg (by rw [h]; exact fun hc => hc.2 hc.1)]

theorem polled_done (h : o'.completed = true) (hc : w.owner.completed = false) :
    w.polled now o' = w.answered now o' := by
  unfold World.polled
  rw [if_pos ⟨h, by simp [hc]⟩]

/-- The two halves of a poll count once. -/
theorem polled_polled (hc : w.owner.completed = false) (ho : o.completed = false)
    (hop : o.operation = w.owner.operation) (hat : o.attaching = w.owner.attaching) (o' : Owner) :
    (w.polled now o).polled now o' = w.polled now o' := by
  have h₁ : w.polled now o = { w with owner := o, exposed := w.exposed || w.owner.attaching } :=
    polled_same (ho.trans hc.symm)
  by_cases hd : o'.completed = true
  · rw [polled_done hd hc, polled_done hd (by rw [h₁]; exact ho), h₁]
    unfold World.answered
    dsimp only
    rw [hop]
    cases hw : w.owner.operation with
    | none => simp [Owner.attaching, hw]
    | some operation =>
      cases operation <;> simp [Owner.attaching, hw, Operation.attaches]
  · have hd : o'.completed = false := by simpa using hd
    rw [polled_same (hd.trans hc.symm), polled_same (by rw [hd, h₁]; exact ho.symm), h₁]
    dsimp only
    rw [hat, Bool.or_assoc, Bool.or_self]

/-! ## Nothing is answered -/

/-- A control that has been sent stays out. -/
theorem Inv.turned {phase : Phase} (h : Inv w) (hstarted : w.owner.started = true)
    (hactive : w.owner.active ≠ none) (hs : Still w.owner o) :
    Inv (w.polled now { o with active := some phase }) := by
  rw [polled_same (show ({ o with active := some phase } : Owner).completed = _ from hs.completed)]
  have hi := h.apart hs.toApart hs.performance
  have hso := hi.sound
  have hat : ({ o with active := some phase } : Owner).attaching = o.attaching := by
    have hsome : o.active.isSome = true := by
      rw [hs.active]
      exact Option.isSome_iff_ne_none.mpr hactive
    simp [Owner.attaching, hsome]
  have hexp : (w.exposed || w.owner.attaching) = w.exposed := by
    cases ha : w.owner.attaching with
    | false => exact Bool.or_false _
    | true => rw [h.exposed, h.sound.sent ha hstarted]; rfl
  refine ⟨⟨hso.storage, fun hn => (by cases hn), fun _ => hso.busy (hs.active.trans_ne hactive),
    hso.retained, hso.attached, fun hp => ?_, fun ht hst => ?_, fun ht => ?_, hso.held, hso.boost⟩,
    ?_, ?_, hi.requests, hi.accepted⟩
  · rcases hso.published hp with h₁ | ⟨h₁, -⟩
    · exact .inl h₁
    · exact .inr ⟨hat.trans h₁, .inl (hs.started.trans hstarted)⟩
  · exact hso.sent (hat ▸ ht) hst
  · exact hso.attaching (hat ▸ ht)
  · show (w.exposed || w.owner.attaching) = _
    rw [hexp]
    exact hi.exposed
  · have ho := h.outstanding
    rw [if_pos (Option.isSome_iff_ne_none.mpr hactive)] at ho
    exact ho

/-- An owner that is not answered and stands as it did. -/
theorem Inv.unturned (h : Inv w) (hstarted : w.owner.started = true)
    (hactive : w.owner.active ≠ none) (hs : Still w.owner o) : Inv (w.polled now o) := by
  obtain ⟨phase, hphase⟩ := Option.ne_none_iff_exists'.mp hactive
  have ho : { o with active := some phase } = o := by rw [← hphase, ← hs.active]
  rw [← ho]
  exact h.turned hstarted hactive hs

/-! ## The control is sent -/

/-- The owner whose page counts as published. -/
def Owner.publish (o : Owner) : Owner :=
  { o with possiblyAttached := true, backing := { o.backing with retained := true } }

theorem expose_attach (ha : operation.attaches = true) : o.expose operation = o.publish := by
  cases operation <;> first | rfl | cases ha

theorem expose_other (ha : operation.attaches = false) : o.expose operation = o := by
  cases operation <;> first | rfl | cases ha

theorem Storage.Ok.retain {s : Storage} (h : s.Ok) (hh : s.Held) :
    Storage.Ok { s with retained := true } where
  empty := fun hn => by simp [hh.1] at hn
  memory := h.memory
  prepared := fun _ => hh

/-- A page that is no longer the firmware's. -/
theorem Storage.Ok.unretain {s : Storage} (h : s.Ok) : Storage.Ok { s with retained := false } where
  empty := fun hn => by rw [h.empty hn]
  memory := h.memory
  prepared := h.prepared

theorem Inv.exposing {phase : Phase} {started : Bool} (h : Inv w) (hactive : w.owner.active ≠ none)
    (hop : w.owner.operation = some operation) (hc : w.owner.completed = false)
    (hout : started = true ∨ phase ≠ .idle) :
    Inv (w.polled now { w.owner.expose operation with active := some phase, started := started }) := by
  have hso := h.sound
  have hattaching : w.owner.attaching = operation.attaches := by
    unfold Owner.attaching
    rw [Option.isSome_iff_ne_none.mpr hactive, hc, hop]
    rfl
  have hbusy : w.outstanding = 1 := by
    rw [h.outstanding, if_pos (Option.isSome_iff_ne_none.mpr hactive)]
  cases ha : operation.attaches with
  | false =>
    rw [expose_other ha, polled_same (show ({ w.owner with
      active := some phase
      started := started } : Owner).completed = _ from rfl), hattaching, ha, Bool.or_false]
    have hnot : w.owner.attaching ≠ true := by rw [hattaching, ha]; decide
    have hnot' : ({ w.owner with active := some phase, started := started } : Owner).attaching ≠
        true := by
      simp [Owner.attaching, hop, ha]
    refine ⟨⟨hso.storage, fun hn => (by cases hn), fun _ => hso.busy hactive, hso.retained,
      hso.attached, fun hp => ?_, fun hn => absurd hn hnot', fun hn => absurd hn hnot', hso.held,
      hso.boost⟩, h.exposed, hbusy, h.requests, h.accepted⟩
    rcases hso.published hp with h₁ | ⟨h₁, -⟩
    · exact .inl h₁
    · exact absurd h₁ hnot
  | true =>
    rw [expose_attach ha, polled_same (show ({ w.owner.publish with
      active := some phase
      started := started } : Owner).completed = _ from rfl), hattaching, ha, Bool.or_true]
    obtain ⟨hheld, hat⟩ := hso.attaching (hattaching.trans ha)
    have hnew : ({ w.owner.publish with active := some phase, started := started } : Owner).attaching =
        true := by
      simp [Owner.attaching, Owner.publish, hop, ha, hc]
    refine ⟨⟨hso.storage.retain hheld, fun hn => (by cases hn), fun _ => hso.busy hactive, rfl,
      fun _ => rfl, fun _ => .inr ⟨hnew, ?_⟩, fun _ _ => rfl, fun _ => ⟨hheld, hat⟩, fun _ => hheld,
      hso.boost⟩, rfl, hbusy, h.requests, h.accepted⟩
    rcases hout with hs | hp
    · exact .inl hs
    · exact .inr fun hn => hp (Option.some.inj hn)

/-- What a sent control looks like. -/
structure Sent (o o' : Owner) : Prop where
  active : o'.active ≠ none
  started : o'.started = true
  completed : o'.completed = false
  operation : o'.operation = o.operation
  attaching : o'.attaching = o.attaching

theorem send_spec (h : Inv w) (hactive : w.owner.active ≠ none)
    (hop : w.owner.operation = some operation) (hc : w.owner.completed = false) :
    Spec (send a operation) w.owner (fun _ o' => Inv (w.polled now o') ∧ Sent w.owner o')
      fun _ o' => Inv (w.polled now o') := by
  refine .get_bind ?_
  split
  · rename_i hs
    exact ⟨h.unturned hs hactive (.refl _), hactive, hs, hc, rfl, rfl⟩
  · rename_i hs
    have hs : w.owner.started = false := by simpa using hs
    have hex : (w.owner.expose operation).active = w.owner.active := by cases operation <;> rfl
    have hst : (w.owner.expose operation).started = false := by cases operation <;> exact hs
    obtain ⟨phase, hphase⟩ := Option.ne_none_iff_exists'.mp hactive
    refine .modify_bind ?_
    refine .seq (Q := fun _ o' => o' = { w.owner.expose operation with active := some .busy })
      (F := fun _ o' => Inv (w.polled now o')) ?_ (fun _ o₁ h₁ => ?_) fun _ _ h => h
    · refine .get_bind ?_
      refine .failIf_bind (fun hne => ?_) fun _ => ?_
      · have he : { w.owner.expose operation with active := some phase, started := false } =
            w.owner.expose operation := by rw [← hphase, ← hex, ← hst]
        rw [← he]
        refine h.exposing hactive hop hc (.inr fun hp => hne ?_)
        rw [hex, hphase, hp]
      · rename_i hidle
        refine .modify_bind (g := fun _ => { w.owner.expose operation with
          active := some (if a.exchange = true then Phase.busy else Phase.failed) }) ?_
        by_cases hx : a.exchange = false
        · unfold Spec
          rw [failIf_of hx]
          have he : { w.owner.expose operation with active := some .failed, started := false } =
              { w.owner.expose operation with active := some .failed } := by rw [← hst]
          simp only [hx, Bool.false_eq_true, if_false]
          rw [← he]
          exact h.exposing hactive hop hc (.inr (by decide))
        · unfold Spec
          rw [failIf_of_not hx]
          simp [hx]
    · subst h₁
      refine ⟨h.exposing hactive hop hc (.inl rfl), fun hn => (by cases hn), rfl, ?_, ?_, ?_⟩
      · show (w.owner.expose operation).completed = _
        cases operation <;> exact hc
      · show (w.owner.expose operation).operation = _
        cases operation <;> rfl
      · have hsome := Option.isSome_iff_ne_none.mpr hactive
        cases operation <;> simp [Owner.attaching, Owner.expose, hsome]

/-! ## The reply -/

/-- What an answered request leaves of the policy. -/
structure Completed (p p' : Policy) (request : Request) (status : Word) (now : Nat) : Prop where
  pending : p.pending = some request
  free : p'.pending = none
  accepted : status = 0 → p'.acceptedLevel = request.level ∧
    p'.acceptedUntil = later now (request.seconds * nsPerS)
  rejected : status ≠ 0 → p'.acceptedLevel = p.acceptedLevel ∧
    p'.acceptedUntil = p.acceptedUntil ∧ p.lastNow ≤ p'.lastNow

theorem complete_spec {p : Policy} {request : Request} :
    Spec (complete request status now) p (fun _ p' => Completed p p' request status now)
      fun _ p' => p' = p := by
  refine .get_bind ?_
  refine .need_bind (fun _ => rfl) fun pending hp => ?_
  refine .failIf_bind (fun _ => rfl) fun hstale => ?_
  refine .failIf_bind (fun _ => rfl) fun hclock => ?_
  rw [Decidable.not_not.mp hstale] at hp
  show Completed p (if _ then _ else _) request status now
  split
  · rename_i hs
    exact ⟨hp, rfl, fun h => absurd h hs, fun _ => ⟨rfl, rfl, by dsimp only; omega⟩⟩
  · rename_i hs
    exact ⟨hp, rfl, fun _ => ⟨rfl, rfl⟩, fun h => absurd h hs⟩

theorem Accepted.completed {p p' : Policy} {request : Request} {last : Option (Nat × Nat)}
    (h : Accepted p last) (hc : Completed p p' request status now) :
    Accepted p' (if status = 0 then
      some (request.level, later now (request.seconds * nsPerS)) else last) := by
  split
  · rename_i hs
    exact .inl (hc.accepted hs)
  · rename_i hs
    obtain ⟨hl, hu, hn⟩ := hc.rejected hs
    cases last with
    | none => exact hl.trans h
    | some boost =>
      rcases h with ⟨h₁, h₂⟩ | ⟨h₁, h₂⟩
      · exact .inl ⟨hl.trans h₁, hu.trans h₂⟩
      · exact .inr ⟨hl.trans h₁, Nat.le_trans h₂ hn⟩

/-- Whether the firmware holds the page behind the reply. -/
def Operation.keeps (o : Owner) (status : Word) : Operation → Bool
  | .attach _ => status = 0
  | .detach => if status = 0 then false else o.possiblyAttached
  | _ => o.possiblyAttached

/-- The owner behind the reply, with or without the page. -/
structure Settled (o o' : Owner) (held : Bool) : Prop where
  active : o'.active = o.active
  operation : o'.operation = o.operation
  lastStatus : o'.lastStatus = o.lastStatus
  storage : o'.backing.Ok
  retained : o'.backing.retained = held
  possiblyAttached : o'.possiblyAttached = held
  attached : o'.attached = held
  page : held = true → o'.backing.Held
  request : ∀ r, o'.performanceRequest = some r → o.performanceRequest = some r

theorem Settled.sound {held : Bool} (h : Sound o) (hactive : o.active ≠ none)
    (hs : Settled o o' held) : Sound { o' with completed := true } where
  storage := hs.storage
  idle := fun hn => absurd (hs.active.symm.trans hn) hactive
  busy := fun _ => by
    show o'.operation ≠ none
    rw [hs.operation]
    exact h.busy hactive
  retained := hs.retained.trans hs.possiblyAttached.symm
  attached := fun hat => hs.possiblyAttached.trans (hs.attached.symm.trans hat)
  published := fun hp => .inl (hs.attached.trans (hs.possiblyAttached.symm.trans hp))
  sent := fun hn => by simp [Owner.attaching] at hn
  attaching := fun hn => by simp [Owner.attaching] at hn
  held := fun hp => hs.page (hs.possiblyAttached.symm.trans hp)
  boost := fun level seconds hop r hr =>
    h.boost level seconds (hs.operation.symm.trans hop) r (hs.request r hr)

/-- Behind a reply that leaves the page where it is. -/
theorem Settled.kept (h : Sound o) (hnot : o.attaching = false) (hop : o'.operation = o.operation)
    (hactive : o'.active = o.active) (hstatus : o'.lastStatus = o.lastStatus)
    (hbacking : o'.backing = o.backing) (hposs : o'.possiblyAttached = o.possiblyAttached)
    (hat : o'.attached = o.attached)
    (hr : ∀ r, o'.performanceRequest = some r → o.performanceRequest = some r) :
    Settled o o' o.possiblyAttached := by
  refine ⟨hactive, hop, hstatus, hbacking ▸ h.storage, ?_, hposs, ?_, fun hp => ?_, hr⟩
  · rw [hbacking, h.retained]
  · rw [hat]
    cases hp : o.possiblyAttached with
    | true =>
      rcases h.published hp with h₁ | ⟨h₁, -⟩
      · exact h₁
      · simp [hnot] at h₁
    | false =>
      cases ha : o.attached with
      | true => exact (h.attached ha).symm.trans hp
      | false => rfl
  · rw [hbacking]
    exact h.held hp

theorem settle_spec (h : Sound o) (hactive : o.active ≠ none) (hc : o.completed = false)
    (hstarted : o.started = true) (hop : o.operation = some operation) :
    Spec (settle a operation status now) o
      (fun _ o' => Settled o o' (operation.keeps o status) ∧
        (operation.boosts = false → o'.performance = o.performance) ∧
        (operation.boosts = true → ∃ request, o.performanceRequest = some request ∧
          Completed o.performance o'.performance request status now))
      fun _ o' => Still o o' := by
  have hattaching : o.attaching = operation.attaches := by
    unfold Owner.attaching
    rw [Option.isSome_iff_ne_none.mpr hactive, hc, hop]
    rfl
  refine .get_bind ?_
  cases operation with
  | attach page =>
    obtain ⟨hheld, hat⟩ := h.attaching hattaching
    have hp := h.sent hattaching hstarted
    dsimp only
    split
    · rename_i hs
      have hk : Operation.keeps o status (.attach page) = true := decide_eq_true hs
      rw [hk]
      exact ⟨⟨rfl, rfl, rfl, h.storage, h.retained.trans hp, hp, rfl, fun _ => hheld,
        fun _ hr => hr⟩, fun _ => rfl, fun hn => (by cases hn)⟩
    · rename_i hs
      have hk : Operation.keeps o status (.attach page) = false := decide_eq_false hs
      rw [hk]
      have hok : Storage.Ok { o.backing with retained := false } := h.storage.unretain
      exact ⟨⟨rfl, rfl, rfl, close_ok hok, close_unretained rfl, rfl, hat, fun hn => (by cases hn),
        fun _ hr => hr⟩, fun _ => rfl, fun hn => (by cases hn)⟩
  | detach =>
    dsimp only
    split
    · rename_i hs
      have hk : Operation.keeps o status .detach = false := if_pos hs
      rw [hk]
      have hok : Storage.Ok { o.backing with retained := false } := h.storage.unretain
      refine .modify_bind (g := fun _ => { o with
        attached := false
        possiblyAttached := false
        activeMask := 0
        snapshot := {}
        backing := { o.backing with retained := false } }) ?_
      refine .seq (Q := fun _ o₂ => Settled o o₂ false ∧ o₂.performance = o.performance)
        (F := fun _ _ => False) ?_ (fun closed o₂ h₂ => ?_) fun _ _ h => h.elim
      · exact ⟨⟨rfl, rfl, rfl, close_ok hok, close_unretained rfl, rfl, rfl, fun hn => (by cases hn),
          fun _ hr => hr⟩, rfl⟩
      · obtain ⟨⟨h₁, h₂, h₃, h₄, h₅, h₆, h₇, h₈, h₉⟩, hp⟩ := h₂
        cases closed with
        | true => exact ⟨⟨h₁, h₂, h₃, h₄, h₅, h₆, h₇, h₈, h₉⟩, fun _ => hp, fun hn => (by cases hn)⟩
        | false => exact ⟨⟨h₁, h₂, h₃, h₄, h₅, h₆, h₇, h₈, h₉⟩, fun _ => hp, fun hn => (by cases hn)⟩
    · rename_i hs
      have hk : Operation.keeps o status .detach = o.possiblyAttached := if_neg hs
      rw [hk]
      exact ⟨.kept h hattaching rfl rfl rfl rfl rfl rfl fun _ hr => hr, fun _ => rfl,
        fun hn => (by cases hn)⟩
  | poll mask interval =>
    dsimp only
    split
    · refine .modify_bind (g := fun _ => { o with activeMask := mask }) ?_
      refine .failIf_bind (fun _ => .of_eq rfl rfl rfl rfl rfl rfl rfl (fun _ => rfl) rfl) fun _ => ?_
      exact ⟨.kept h hattaching rfl rfl rfl rfl rfl rfl fun _ hr => hr, fun _ => rfl,
        fun hn => (by cases hn)⟩
    · exact ⟨.kept h hattaching rfl rfl rfl rfl rfl rfl fun _ hr => hr, fun _ => rfl,
        fun hn => (by cases hn)⟩
  | boost level seconds =>
    refine .need_bind (fun _ => .refl o) fun request hr => ?_
    refine .seq (Q := fun _ o₁ => o₁ = { o with performance := o₁.performance } ∧
        Completed o.performance o₁.performance request status now)
      (F := fun _ o₁ => o₁ = o) ?_ (fun _ o₁ h₁ => ?_) fun _ _ h => h ▸ .refl o
    · refine .zoom ?_
      exact complete_spec.mono (fun _ _ h => ⟨rfl, h⟩) fun _ _ h => by rw [h]
    · obtain ⟨he, hcomp⟩ := h₁
      refine ⟨?_, fun hn => (by cases hn), fun _ => ⟨request, hr, hcomp⟩⟩
      rw [he]
      exact .kept h hattaching rfl rfl rfl rfl rfl rfl fun _ hr => (by cases hr)
  | timer =>
    have hk (t : Timer) : Settled o { o with timer := t } o.possiblyAttached :=
      .kept h hattaching rfl rfl rfl rfl rfl rfl fun _ hr => hr
    refine .modify (g := fun _ => if status = 0 then _ else _) ?_
    split
    · exact ⟨hk _, fun _ => rfl, fun hn => (by cases hn)⟩
    · exact ⟨hk _, fun _ => rfl, fun hn => (by cases hn)⟩

/-- The history behind an acknowledged reply. -/
theorem Inv.answered (h : Inv w) (hstarted : w.owner.started = true)
    (hactive : w.owner.active ≠ none) (hc : w.owner.completed = false)
    (hop : w.owner.operation = some operation)
    (hs : Settled { w.owner with active := some .idle, lastStatus := some status } o
      (operation.keeps w.owner status))
    (hsame : operation.boosts = false → o.performance = w.owner.performance)
    (hboost : operation.boosts = true → ∃ request, w.owner.performanceRequest = some request ∧
      Completed w.owner.performance o.performance request status now) :
    Inv (w.polled now { o with completed := true }) := by
  have hsound : Sound { o with completed := true } := by
    have hl : Still w.owner { w.owner with lastStatus := some status } :=
      .of_eq rfl rfl rfl rfl rfl rfl rfl (fun _ => rfl) rfl
    have hi : Inv (w.polled now { w.owner with active := some .idle, lastStatus := some status }) :=
      h.turned hstarted hactive hl
    rw [polled_same (show ({ w.owner with
      active := some .idle
      lastStatus := some status } : Owner).completed = _ from rfl)] at hi
    exact hs.sound hi.sound (by simp)
  obtain ⟨o', ho⟩ : ∃ o', o' = { o with completed := true } := ⟨_, rfl⟩
  have hdone : o'.completed = true := by rw [ho]
  have hstatus : o'.lastStatus = some status := by rw [ho]; exact hs.lastStatus
  have hposs : o'.possiblyAttached = operation.keeps w.owner status := by
    rw [ho]
    exact hs.possiblyAttached
  have hperf : o'.performance = o.performance := by rw [ho]
  have hout : w.outstanding = if o'.active.isSome then 1 else 0 := by
    rw [h.outstanding, ho, if_pos (Option.isSome_iff_ne_none.mpr hactive)]
    simp only [hs.active, Option.isSome_some, if_true]
  have hreq (hp : o.performance = w.owner.performance) :
      w.requests = if o'.performance.pending.isSome then 1 else 0 := by
    rw [h.requests, hperf, hp]
  have hacc (hp : o.performance = w.owner.performance) : Accepted o'.performance w.lastBoost := by
    rw [hperf, hp]
    exact h.accepted
  rw [← ho] at hsound ⊢
  rw [polled_done hdone hc]
  unfold World.answered
  rw [hop]
  cases operation with
  | attach page =>
    refine ⟨hsound, ?_, hout, hreq (hsame rfl), hacc (hsame rfl)⟩
    show decide (o'.lastStatus = some 0) = o'.possiblyAttached
    rw [hposs, hstatus]
    simp [Operation.keeps]
  | detach =>
    refine ⟨hsound, ?_, hout, hreq (hsame rfl), hacc (hsame rfl)⟩
    show (if o'.lastStatus = some 0 then false else w.exposed) = o'.possiblyAttached
    rw [hposs, hstatus, h.exposed]
    simp [Operation.keeps]
  | boost level seconds =>
    obtain ⟨request, hr, hcomp⟩ := hboost rfl
    obtain ⟨rfl, rfl⟩ := h.sound.boost level seconds hop request hr
    refine ⟨hsound, h.exposed.trans hposs.symm, hout, ?_, ?_⟩
    · show w.requests - 1 = if o'.performance.pending.isSome then 1 else 0
      rw [h.requests, hperf, hcomp.pending, hcomp.free]
      rfl
    · show Accepted o'.performance (if o'.lastStatus = some 0 then _ else _)
      rw [hstatus, hperf]
      simpa using h.accepted.completed hcomp
  | poll mask interval =>
    exact ⟨hsound, h.exposed.trans hposs.symm, hout, hreq (hsame rfl), hacc (hsame rfl)⟩
  | timer => exact ⟨hsound, h.exposed.trans hposs.symm, hout, hreq (hsame rfl), hacc (hsame rfl)⟩

/-- A call behind the acknowledgement that stays apart is apart from the start. -/
theorem Still.unturn {phase : Phase}
    (h : Still { o with active := some phase, lastStatus := some status } o') :
    Still o { o' with active := o.active } where
  active := rfl
  operation := h.operation
  started := h.started
  completed := h.completed
  attached := h.attached
  possiblyAttached := h.possiblyAttached
  retained := h.retained
  storage := h.storage
  held := fun hh _ => h.held hh (.inr (by simp))
  request := fun _ => h.request (by simp)
  performance := h.performance

theorem respond_spec {decoded completed : Bool} (h : Inv w) (hstarted : w.owner.started = true)
    (hactive : w.owner.active ≠ none) (hc : w.owner.completed = false)
    (hop : w.owner.operation = some operation) :
    Spec (respond a operation decoded completed status now) w.owner
      (fun _ o' => Inv (w.polled now o')) fun _ o' => Inv (w.polled now o') := by
  refine .failIf_bind (fun _ => h.unturned hstarted hactive (.refl _)) fun _ => ?_
  refine .modify_bind ?_
  refine .failIf_bind (fun _ => h.turned hstarted hactive (.refl _)) fun hdone => ?_
  have hdone : completed = true := by simpa using hdone
  subst hdone
  refine .modify_bind ?_
  have hl : Still w.owner { w.owner with lastStatus := some status } :=
    .of_eq rfl rfl rfl rfl rfl rfl rfl (fun _ => rfl) rfl
  have hi : Inv (w.polled now { w.owner with active := some .idle, lastStatus := some status }) :=
    h.turned hstarted hactive hl
  rw [polled_same (show ({ w.owner with
    active := some .idle
    lastStatus := some status } : Owner).completed = _ from rfl)] at hi
  refine .seq (settle_spec hi.sound (by simp) hc hstarted hop) (fun _ o' h' => ?_) fun _ o' h' => ?_
  · exact h.answered hstarted hactive hc hop h'.1 h'.2.1 h'.2.2
  · have hidle : o'.active = some .idle := h'.active
    have he : { { o' with active := w.owner.active } with active := some Phase.idle } = o' := by
      rw [← hidle]
    rw [← he]
    exact h.turned hstarted hactive (Still.unturn (o := w.owner) h')

theorem receive_spec (h : Inv w) (hstarted : w.owner.started = true)
    (hactive : w.owner.active ≠ none) (hc : w.owner.completed = false)
    (hop : w.owner.operation = some operation) :
    Spec (receive a operation now) w.owner
      (fun _ o' => Inv (w.polled now o')) fun _ o' => Inv (w.polled now o') := by
  have hself : Inv (w.polled now w.owner) := h.unturned hstarted hactive (.refl _)
  refine .get_bind ?_
  refine .failIf_bind (fun _ => hself) fun _ => ?_
  cases a.arrival with
  | failed => exact h.turned hstarted hactive (.refl _)
  | pending => exact hself
  | nothing => exact hself
  | notification => exact hself
  | response decoded completed status =>
    refine .failIf_bind (fun _ => hself) fun _ => ?_
    exact .seq (respond_spec h hstarted hactive hc hop) (fun _ _ h => h) fun _ _ h => h

theorem poll_spec (h : Inv w) :
    Spec (poll a now) w.owner (fun _ o' => Inv (w.polled now o'))
      fun _ o' => Inv (w.polled now o') := by
  refine .get_bind ?_
  have hself (hat : w.owner.attaching = false) : Inv (w.polled now w.owner) := by
    rw [polled_same rfl, hat, Bool.or_false]
    exact h
  have hnot (hn : w.owner.active = none ∨ w.owner.operation = none ∨ w.owner.completed = true) :
      w.owner.attaching = false := by
    rcases hn with hn | hn | hn <;> simp [Owner.attaching, hn]
  refine .failIf_bind (fun hn => hself (hnot (.inl hn))) fun hactive => ?_
  refine .need_bind (fun hn => hself (hnot (.inr (.inl hn)))) fun operation hop => ?_
  split
  · rename_i hc
    exact hself (hnot (.inr (.inr hc)))
  · rename_i hc
    have hc : w.owner.completed = false := by simpa using hc
    refine .seq (send_spec h hactive hop hc) (fun _ o₁ h₁ => ?_) fun _ _ h => h
    obtain ⟨hi, hs⟩ := h₁
    have hw : (w.polled now o₁).owner = o₁ := by rw [polled_same (hs.completed.trans hc.symm)]
    have hr : Spec (receive a operation now) (w.polled now o₁).owner
        (fun _ o' => Inv ((w.polled now o₁).polled now o'))
        fun _ o' => Inv ((w.polled now o₁).polled now o') :=
      receive_spec hi (hw.symm ▸ hs.started) (hw.symm ▸ hs.active) (hw.symm ▸ hs.completed)
        (hw.symm ▸ hs.operation.trans hop)
    rw [hw] at hr
    have hpp : ∀ o', (w.polled now o₁).polled now o' = w.polled now o' :=
      polled_polled hc hs.completed hs.operation hs.attaching
    exact hr.mono (fun _ _ h => hpp _ ▸ h) fun _ _ h => hpp _ ▸ h

end Power
end NvidiaGsp
