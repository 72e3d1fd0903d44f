import NvidiaGsp.Power.Owner

/-!
# Power.OwnerInv

The owner with its history, what holds of both between any two calls, and what the calls that touch
the page and the policy do to it.
-/

namespace NvidiaGsp
namespace Power

open Call

/-! ## The history -/

/-- The owner and what has happened: whether the firmware may hold the page, how many controls are
out, how many boost requests wait, and the last accepted boost with its expiry. -/
structure World where
  owner : Owner := {}
  exposed : Bool := false
  outstanding : Nat := 0
  requests : Nat := 0
  lastBoost : Option (Nat × Nat) := none

def Operation.attaches : Operation → Bool
  | .attach _ => true
  | _ => false

/-- An attach request is held that has not been answered. -/
def Owner.attaching (o : Owner) : Bool :=
  o.active.isSome && !o.completed && o.operation.any Operation.attaches

namespace World

/-- The reply to the control that was out has been acknowledged. A boost counts as accepted when
`poll` returns from an accepted reply to it. -/
def answered (w : World) (now : Nat) (o : Owner) : World :=
  match w.owner.operation with
  | some (.attach _) => { w with owner := o, exposed := o.lastStatus = some 0 }
  | some .detach =>
    { w with owner := o, exposed := if o.lastStatus = some 0 then false else w.exposed }
  | some (.boost level seconds) =>
    { w with
      owner := o
      requests := w.requests - 1
      lastBoost := if o.lastStatus = some 0 then some (level, later now (seconds * nsPerS))
        else w.lastBoost }
  | _ => { w with owner := o }

/-- After a poll the firmware may hold the page an attach request names. -/
def polled (w : World) (now : Nat) (o : Owner) : World :=
  if o.completed ∧ ¬ w.owner.completed then w.answered now o
  else { w with owner := o, exposed := w.exposed || w.owner.attaching }

end World

inductive Event where
  | demand (now : Nat) (mask : Mask)
  | observeActivity (now : Nat) (activity : Activity)
  | exchangeCommon (mask : Mask) (limit timing : Nat)
  | choose (a : Answers) (now : Nat) (activity : Activity)
  | begin (a : Answers) (operation : Operation) (now deadline : Nat)
  | poll (a : Answers) (now : Nat)
  | cancelUnstarted (a : Answers)
  | sample (a : Answers) (now : Nat)
  | handoff (a : Answers)
  | stop (a : Answers) (now : Nat)
  | stopForFirmwareUnload (a : Answers) (now : Nat)
  | deviceLost

/-- A call that neither starts nor ends a control. -/
def World.call {α : Type} (w : World) (x : Step α) : World :=
  { w with owner := (outcome x w.owner).2 }

def act (pollMask : Mask) (w : World) : Event → World
  | .demand now mask => w.call (demand pollMask now mask)
  | .observeActivity now activity => w.call (observeActivity now activity)
  | .exchangeCommon mask limit timing => w.call (exchangeCommon mask limit timing)
  | .choose a now activity =>
    match outcome (choose pollMask a now activity) w.owner with
    | (.ok (some operation), o) =>
      { w with owner := o, requests := if operation.boosts then w.requests + 1 else w.requests }
    | (_, o) => { w with owner := o }
  | .begin a operation now deadline =>
    match outcome («begin» a operation now deadline) w.owner with
    | (.ok _, o) => { w with owner := o, outstanding := w.outstanding + 1 }
    | (.error _, o) => { w with owner := o }
  | .poll a now => w.polled now (outcome (poll a now) w.owner).2
  | .cancelUnstarted a =>
    match outcome (cancelUnstarted a) w.owner with
    | (.ok _, o) =>
      { w with
        owner := o
        outstanding := w.outstanding - 1
        requests := if w.owner.operation.any Operation.boosts then w.requests - 1 else w.requests }
    | (.error _, o) => { w with owner := o }
  | .sample a now => w.call (sample a now)
  | .handoff a =>
    match outcome (handoff a) w.owner with
    | (.ok _, o) => { w with owner := o, outstanding := w.outstanding - 1 }
    | (.error _, o) => { w with owner := o }
  | .stop a now => w.call (stop a now)
  | .stopForFirmwareUnload a now => w.call (stopForFirmwareUnload a now)
  | .deviceLost => w.call deviceLost

def run (pollMask : Mask) (events : List Event) : World := events.foldl (act pollMask) {}

/-! ## The invariant -/

/-- The page's lease and reference are held. -/
def Storage.Held (s : Storage) : Prop :=
  s.opened = true ∧ s.memory = true ∧ s.prepared = true ∧ s.reference = true ∧ s.dma = true

structure Storage.Ok (s : Storage) : Prop where
  empty : s.opened = false → s = {}
  memory : s.opened = true → s.memory = true
  prepared : s.prepared = true → s.Held

/-- The level is that of the last accepted boost, or has lapsed. -/
def Accepted (p : Policy) : Option (Nat × Nat) → Prop
  | none => p.acceptedLevel = 0
  | some (level, expiry) => (p.acceptedLevel = level ∧ p.acceptedUntil = expiry) ∨
      (p.acceptedLevel = 0 ∧ expiry ≤ p.lastNow)

structure Sound (o : Owner) : Prop where
  storage : o.backing.Ok
  idle : o.active = none → o.operation = none ∧ o.started = false ∧ o.completed = false
  busy : o.active ≠ none → o.operation ≠ none
  retained : o.backing.retained = o.possiblyAttached
  attached : o.attached = true → o.possiblyAttached = true
  published : o.possiblyAttached = true → o.attached = true ∨
    (o.attaching = true ∧ (o.started = true ∨ o.active ≠ some .idle))
  sent : o.attaching = true → o.started = true → o.possiblyAttached = true
  attaching : o.attaching = true → o.backing.Held ∧ o.attached = false
  held : o.possiblyAttached = true → o.backing.Held
  boost : ∀ level seconds, o.operation = some (.boost level seconds) →
    ∀ r, o.performanceRequest = some r → r.level = level ∧ r.seconds = seconds

structure Inv (w : World) : Prop where
  sound : Sound w.owner
  exposed : w.exposed = w.owner.possiblyAttached
  outstanding : w.outstanding = if w.owner.active.isSome then 1 else 0
  requests : w.requests = if w.owner.performance.pending.isSome then 1 else 0
  accepted : Accepted w.owner.performance w.lastBoost

/-- What a call that leaves the controls, the page's publication and the policy alone may change. -/
structure Apart (o o' : Owner) : Prop where
  active : o'.active = o.active
  operation : o'.operation = o.operation
  started : o'.started = o.started
  completed : o'.completed = o.completed
  attached : o'.attached = o.attached
  possiblyAttached : o'.possiblyAttached = o.possiblyAttached
  retained : o'.backing.retained = o.backing.retained
  storage : o.backing.Ok → o'.backing.Ok
  held : o.backing.Held → o.possiblyAttached = true ∨ o.active ≠ none → o'.backing.Held
  request : o.active ≠ none → o'.performanceRequest = o.performanceRequest

variable {o o' : Owner} {w : World} {a : Answers}

theorem Apart.refl (o : Owner) : Apart o o := 
  ⟨rfl, rfl, rfl, rfl, rfl, rfl, rfl, id, fun h _ => h, fun _ => rfl⟩

theorem Apart.of_eq (hactive : o'.active = o.active) (hop : o'.operation = o.operation)
    (hstarted : o'.started = o.started) (hcompleted : o'.completed = o.completed)
    (hattached : o'.attached = o.attached) (hposs : o'.possiblyAttached = o.possiblyAttached)
    (hbacking : o'.backing = o.backing)
    (hrequest : o.active ≠ none → o'.performanceRequest = o.performanceRequest) : Apart o o' :=
  ⟨hactive, hop, hstarted, hcompleted, hattached, hposs, by rw [hbacking], fun h => hbacking ▸ h,
    fun h _ => hbacking ▸ h, hrequest⟩

theorem Apart.trans {o₁ o₂ o₃ : Owner} (h : Apart o₁ o₂) (h' : Apart o₂ o₃) : Apart o₁ o₃ where
  active := h'.active.trans h.active
  operation := h'.operation.trans h.operation
  started := h'.started.trans h.started
  completed := h'.completed.trans h.completed
  attached := h'.attached.trans h.attached
  possiblyAttached := h'.possiblyAttached.trans h.possiblyAttached
  retained := h'.retained.trans h.retained
  storage := fun hs => h'.storage (h.storage hs)
  held := fun hs hp => h'.held (h.held hs hp) (by rwa [h.possiblyAttached, h.active])
  request := fun hn => (h'.request (h.active ▸ hn)).trans (h.request hn)

theorem Apart.attaching (h : Apart o o') : o'.attaching = o.attaching := by
  unfold Owner.attaching
  rw [h.active, h.completed, h.operation]

theorem attaching_active (h : o.attaching = true) : o.active ≠ none := by
  intro hn
  simp [Owner.attaching, hn] at h

theorem Sound.apart (h : Sound o) (ha : Apart o o') : Sound o' where
  storage := ha.storage h.storage
  idle := fun hn => by
    rw [ha.operation, ha.started, ha.completed]
    exact h.idle (ha.active ▸ hn)
  busy := fun hn => by
    rw [ha.operation]
    exact h.busy (ha.active ▸ hn)
  retained := by rw [ha.retained, ha.possiblyAttached, h.retained]
  attached := fun hat => by
    rw [ha.possiblyAttached]
    exact h.attached (ha.attached ▸ hat)
  published := fun hp => by
    rw [ha.attached, ha.attaching, ha.started, ha.active]
    exact h.published (ha.possiblyAttached ▸ hp)
  sent := fun hat hst => by
    rw [ha.attaching] at hat
    rw [ha.started] at hst
    rw [ha.possiblyAttached]
    exact h.sent hat hst
  attaching := fun hat => by
    rw [ha.attaching] at hat
    rw [ha.attached]
    obtain ⟨h₁, h₂⟩ := h.attaching hat
    exact ⟨ha.held h₁ (.inr (attaching_active hat)), h₂⟩
  held := fun hp => by
    rw [ha.possiblyAttached] at hp
    exact ha.held (h.held hp) (.inl hp)
  boost := fun level seconds hop r hr => by
    rw [ha.operation] at hop
    have hactive : o.active ≠ none := fun hn => by simp [(h.idle hn).1] at hop
    exact h.boost level seconds hop r ((ha.request hactive).symm.trans hr)

/-- A call that is apart from all the invariant reads keeps it. -/
theorem Inv.apart (h : Inv w) (ha : Apart w.owner o') (hp : o'.performance = w.owner.performance) :
    Inv { w with owner := o' } where
  sound := h.sound.apart ha
  exposed := h.exposed.trans ha.possiblyAttached.symm
  outstanding := by
    rw [h.outstanding]
    simp only [ha.active]
  requests := by
    rw [h.requests]
    simp only [hp]
  accepted := by
    simp only [hp]
    exact h.accepted

/-! ## The page -/

theorem Storage.Ok.zero : Storage.Ok {} :=
  ⟨fun _ => rfl, fun h => (by cases h), fun h => (by cases h)⟩

/-- An open page whose preparation is taken back. -/
theorem Storage.Ok.unprepared {s : Storage} (ho : s.opened = true) (hm : s.memory = true)
    (hp : s.prepared = false) : s.Ok where
  empty := fun h => by simp [ho] at h
  memory := fun _ => hm
  prepared := fun h => by simp [hp] at h

theorem close_ok {s : Storage} (h : s.Ok) : (s.close a).2.Ok := by
  unfold Storage.close
  by_cases ho : s.opened = true
  · have hm := h.memory ho
    by_cases hr : s.retained = true
    · simpa [ho, hr] using h
    · simp only [ho, hr, hm, not_true_eq_false, if_false, Bool.false_eq_true]
      split
      · exact .unprepared rfl rfl rfl
      · split
        · exact .unprepared rfl rfl rfl
        · split
          · exact .unprepared rfl rfl rfl
          · split
            · exact .unprepared rfl rfl rfl
            · exact .zero
  · simpa [ho] using h

theorem close_unretained {s : Storage} (h : s.retained = false) : (s.close a).2.retained = false := by
  unfold Storage.close
  split
  · exact h
  · rw [if_neg (by simp [h])]
    dsimp only
    repeat' split
    all_goals first | exact h | rfl

/-- With a working memory API a page that is not retained closes. -/
theorem close_working {s : Storage} (h : s.Ok) (hr : s.retained = false) (ha : a.Working) :
    s.close a = (true, {}) := by
  obtain ⟨h₁, h₂, h₃, h₄⟩ := ha
  unfold Storage.close
  by_cases ho : s.opened = true
  · simp [ho, hr, h.memory ho, h₁, h₂, h₃, h₄]
  · rw [Bool.not_eq_true] at ho
    simp [h.empty ho]

theorem prepare_ok {s : Storage} (h : s.Ok) : (s.prepare a).2.Ok := by
  unfold Storage.prepare
  split
  · exact h
  · split
    · exact h
    all_goals first | exact .unprepared rfl rfl rfl | skip
    exact ⟨fun h => (by cases h), fun _ => rfl, fun _ => ⟨rfl, rfl, rfl, rfl, rfl⟩⟩

theorem prepare_retained {s : Storage} (h : s.retained = false) :
    (s.prepare a).2.retained = false := by
  unfold Storage.prepare
  split
  · exact h
  · split
    · exact h
    all_goals rfl

end Power
end NvidiaGsp
