import NvidiaGsp.Virtual.Range
import NvidiaGsp.Vm.Accounts

/-!
# Virtual.RangeSpec

How a creation ends. The firmware's rejection gives `Refused`; the host's reservation gives an
address where there is room, and stops the session where there is none. `host_create_alike` is the
exact condition for the host to end as the firmware does.
-/

namespace NvidiaGsp
namespace Virtual

open Call

section

variable {D E : Type} {port : Gsp.Port D} {vm : Vm.Port E} {here : Nat} {w : World D E}

/-! ## Calls on the parts -/

theorem onServing_ok {α : Type} {x : Gsp.Serving D α} {a : α} {o : Gsp.Owner D}
    (h : x w.serving = .ok a o) : onServing x w = .ok a { w with serving := o } := zoom_ok h

theorem onNames_ok {α : Type} {x : Names.Op α} {a : α} {n : Names.World}
    (h : x w.names = .ok a n) : onNames x w = .ok a { w with names := n } := zoom_ok h

theorem onHost_ok {α : Type} {x : Vm.VmCall E α} {a : α} {v : Vm.World E}
    (h : x w.host = .ok a v) : onHost x w = .ok a { w with host := v } := zoom_ok h

theorem onHost_error {α : Type} {x : Vm.VmCall E α} {e : Vm.Error} {v : Vm.World E}
    (h : x w.host = .error e v) : onHost x w = .error (.host e) { w with host := v } := zoom_error h

/-! ## Names -/

theorem retired_invalid {c : Names.Children} {n n' s : Names.World}
    (h : Names.retireChildren here c n = .ok () n') : Names.validateChildren here c n' ≠ .ok () s := by
  intro hv
  obtain ⟨-, p, hf, hp, rfl⟩ := Names.retireChildren_ok h
  obtain ⟨-, -, q, hq, hl⟩ := Names.validateChildren_ok.1 hv
  cases p with
  | fixed i =>
    cases q with
    | fixed j =>
      obtain rfl : i = j := Fin.ext (hf.2.symm.trans hq.2)
      simp [Names.World.dropChild, Names.World.childEntry, Names.World.setChild] at hl
    | resident a => exact hf.1 hq.1
  | resident a =>
    cases q with
    | fixed j => exact hq.1 hf.1
    | resident b =>
      have hnone := hq.2.1
      simp [Names.World.dropChild, Names.World.setStorage, Names.World.setResident] at hnone

/-- A new child range is valid. -/
theorem reserved_valid {parent : Names.Lease} {count : Nat} {c : Names.Children}
    {n n' : Names.World} (h : Names.reserveChildren parent count n = .ok c n') :
    Names.validateChildren here c n' = .ok () n' := by
  obtain ⟨hv, -, -, i, -, rfl, rfl⟩ := Names.reserveChildren_ok h
  obtain ⟨-, he, hi⟩ := Names.validate_ok.1 hv
  apply Names.validateChildren_ok.2
  have hne : i.val ≠ Names.residentSlot := by
    have := i.isLt
    simp only [Names.maxChildRanges, Names.residentSlot] at *
    omega
  refine ⟨rfl, Names.validate_ok.2 ⟨rfl, he, hi⟩, .fixed i, ⟨hne, rfl⟩, ?_⟩
  simp [Names.World.childEntry, Names.World.setChild, Names.World.advance]

theorem reserved_resident_valid {parent : Names.Lease} {count storage : Nat} {c : Names.Children}
    {n n' : Names.World} (h : Names.reserveResidentChildren here parent count storage n = .ok c n') :
    Names.validateChildren here c n' = .ok () n' := by
  obtain ⟨hv, -, -, -, -, rfl, rfl⟩ := Names.reserveResidentChildren_ok h
  obtain ⟨-, he, hi⟩ := Names.validate_ok.1 hv
  apply Names.validateChildren_ok.2
  refine ⟨rfl, Names.validate_ok.2 ⟨rfl, he, hi⟩, .resident storage, ⟨rfl, ?_⟩, ?_⟩
  · simp [Names.World.setStorage, Names.World.setResident, Names.World.advance]
  · simp [Names.World.childEntry, Names.World.setStorage, Names.World.setResident,
      Names.World.advance]

/-! ## States -/

/-- A range that waits for its creation, as `init` leaves it. -/
structure Created (here : Nat) (w : World D E) : Prop where
  state : w.range.state = .creating
  epoch : w.range.plan.space.epoch = w.serving.world.session.epoch
  stamp : w.range.plan = w.range.stamp
  valid : w.range.plan.validate = .ok ()
  live : w.range.namespaceLive = true
  names : Names.validateChildren here w.range.reservation w.names = .ok () w.names
  address : w.range.address = 0

/-- The range ended without an address and without names; the session and the host go on. -/
structure Refused (here : Nat) (w w' : World D E) : Prop where
  ready : w'.range.state = .ready
  address : w'.range.address = 0
  live : w'.range.namespaceLive = false
  names : ∀ n, Names.validateChildren here w.range.reservation w'.names ≠ .ok () n
  session : w'.serving.world.session.state = .active
  host : w'.host.owner = w.host.owner

/-- The host has room for the request. -/
def World.Room (w : World D E) : Prop :=
  w.host.owner.Room w.range.plan.bytes w.range.plan.alignment w.range.plan.fixedAddress

/-- The range got an address that the host holds for it. -/
structure Placed (w w' : World D E) : Prop where
  ready : w'.range.state = .ready
  gap : w.host.owner.Gap w.range.plan.bytes w.range.plan.alignment w.range.plan.fixedAddress
    w'.range.address
  reserved : Vm.Reserved w.range.hostRange w.range.plan.bytes w'.range.address w.host.owner
    w'.host.owner
  session : w'.serving.world.session.state = .active
  host : w'.host.owner.Usable

/-- Both ways to manage a space end alike: with an address where there is room, else refused. -/
structure Alike (here : Nat) (w w' : World D E) : Prop where
  placed : w.Room → Placed w w'
  refused : ¬ w.Room → Refused here w w'

/-- An exchange that works: it passes its guard, has nothing for the range, and goes on. -/
def Working (port : Gsp.Port D) (limit : Nat) (o : Gsp.Owner D) : Prop :=
  ∃ o₁ o₂, Gsp.Exchange.guard port limit o = .ok () o₁ ∧ o₁.exchange.pending = none ∧
    Gsp.Exchange.poll port limit o₁ = .ok none o₂ ∧ o₂.exchange.inLockdown = false ∧
    o₂.world.session.state = .active

/-- The session behind a call that only looks at its clock. -/
theorem guard_session {t : Gsp.World D} {limit : Nat} (ht : t.session.state = .active) :
    Spec (Gsp.Session.guard port limit) t
      (fun _ t' => t'.session.epoch = t.session.epoch ∧ t'.session.state = .active)
      fun _ _ => True := by
  have hlive : t.session.state ≠ .failed := by simp [ht]
  apply (Gsp.Session.check_spec hlive).mono _ fun _ _ _ => trivial
  intro _ t' h
  obtain ⟨now, hs⟩ := h.session
  rw [hs]
  exact ⟨rfl, ht⟩

theorem init_spec {token : Gsp.Handoff} {space : Space} {parent : Names.Lease} {config : Config}
    {deadline request : Nat} {storage : Option Nat} {hostRange : Vm.RangeId} {t : Gsp.World D}
    {n : Names.World} (host : Vm.World E) :
    Spec (init port here token space parent config deadline request storage hostRange) (t, n)
      (fun v s => Created here (⟨v.1, ⟨v.2.1, s.1, []⟩, s.2, host⟩ : World D E) ∧
        v.1.hostRange = hostRange ∧ v.1.plan.space = space)
      fun _ _ => True := by
  unfold init
  apply Spec.get_bind
  apply Spec.failIf_bind fun _ => trivial
  intro hcond
  simp only [not_or, ne_eq, not_not] at hcond
  obtain ⟨-, hactive, -, hepoch, -, -⟩ := hcond
  apply Spec.bind
  apply Spec.zoom
  apply (guard_session hactive).mono _ fun _ _ h => h
  rintro _ t₁ ⟨hepoch₁, hactive₁⟩
  apply Spec.bind
  apply Spec.zoom
  apply Spec.intro _ fun _ _ _ => trivial
  intro c n₁ hc
  have hvalid : Names.validateChildren here c n₁ = .ok () n₁ := by
    cases storage with
    | none => exact reserved_valid hc
    | some resident => exact reserved_resident_valid hc
  apply Spec.cleaning
  unfold build
  apply Spec.bind
  apply Spec.zoom
  apply Spec.intro _ fun _ _ _ => trivial
  intro object _ hobject
  obtain ⟨-, rfl⟩ := lift_ok_iff.1 hobject
  apply Spec.bind
  apply Spec.zoom
  apply Spec.intro _ fun _ _ _ => trivial
  intro _ _ hlift
  obtain ⟨hplan, rfl⟩ := lift_ok_iff.1 hlift
  apply Spec.bind
  apply Spec.zoom
  unfold Gsp.Exchange.init
  apply Spec.get_bind
  apply Spec.failIf_bind fun _ => trivial
  intro _
  apply Spec.seq (guard_session hactive₁) _ fun _ _ h => h
  intro _ t₂ ⟨hepoch₂, _⟩
  refine ⟨⟨rfl, ?_, rfl, hplan, rfl, hvalid, rfl⟩, rfl, rfl⟩
  show space.epoch = t₂.session.epoch
  rw [hepoch, hepoch₂, hepoch₁]

theorem stable_created (h : Created here w) : stable here w = .ok () w := by
  have hok : ¬ (w.range.plan.space.epoch ≠ w.serving.world.session.epoch ∨
      w.range.plan ≠ w.range.stamp) := not_or.mpr ⟨not_not.mpr h.epoch, not_not.mpr h.stamp⟩
  unfold stable
  rw [bind_apply, get_apply]
  dsimp only
  rw [bind_apply, failIf_of_not hok]
  dsimp only
  rw [if_pos h.live]
  exact onNames_ok h.names

theorem retainNames_spec (w : World D E) :
    Spec (retainNames here) w (fun _ w' => w'.range = w.range) fun _ _ => False := by
  unfold retainNames
  apply Spec.get_bind
  dsimp only
  split
  · apply Spec.bind
    apply Spec.catching
    unfold outcome onNames zoom
    cases Names.retainChildren here w.range.reservation w.names <;> rfl
  · rfl

theorem stopSession_spec (w : World D E) :
    Spec stopSession w (fun _ w' => w'.range.state = w.range.state) fun _ _ => False := by
  unfold stopSession Spec
  dsimp only
  cases (Gsp.Exchange.fail .Handler : Gsp.Serving D Unit) w.serving <;> rfl

/-- Whatever the names and the exchange answer, the range is failed. -/
theorem fail_spec {α : Type} (reason : Error) (w : World D E) :
    Spec (fail here reason : RangeCall D E α) w (fun _ _ => False)
      fun e w' => e = reason ∧ w'.range.state = .failed := by
  unfold fail
  apply Spec.bind
  unfold update
  apply Spec.seq (retainNames_spec _) _ fun _ _ hn => hn.elim
  intro _ w₁ h₁
  apply Spec.seq (stopSession_spec _) _ fun _ _ hn => hn.elim
  intro _ w₂ h₂
  exact ⟨rfl, h₂.trans (congrArg Owner.state h₁)⟩

/-- Until the host is asked, a creation in its space only serves the exchange. -/
theorem advance_created (hhost : w.range.plan.space.host = true)
    (hworks : Working port w.range.deadline w.serving) :
    ∃ o, o.world.session.state = .active ∧
      advance port vm here w =
        (do advanceHost vm here; pure none : RangeCall D E (Option Gsp.Dispatch))
          { w with serving := o } := by
  obtain ⟨o₁, o₂, hguard, hpending, hpoll, hlockdown, hactive⟩ := hworks
  refine ⟨o₂, hactive, ?_⟩
  have hg : (onServing (Gsp.Exchange.guard port w.range.deadline) : RangeCall D E Unit) w =
      .ok () { w with serving := o₁ } := onServing_ok hguard
  have hp : (onServing (Gsp.Exchange.poll port w.range.deadline) : RangeCall D E _)
      { w with serving := o₁ } = .ok none { w with serving := o₂ } :=
    onServing_ok (w := { w with serving := o₁ }) hpoll
  unfold advance
  rw [bind_apply, get_apply]
  dsimp only
  rw [bind_apply, hg]
  dsimp only
  rw [bind_apply, get_apply]
  dsimp only
  rw [bind_apply, failIf_of_not (by simp [hpending])]
  dsimp only
  rw [if_pos hhost, bind_apply, hp]
  dsimp only
  rw [bind_apply, get_apply]
  dsimp only
  rw [if_neg (by simp [hlockdown])]

theorem poll_created (h : Created here w) :
    poll port vm here w =
      match advance port vm here w with
      | .ok d w' => .ok d w'
      | .error e w' => if e = .exchange .Pending then .error e w' else fail here e w' := by
  unfold poll
  rw [bind_apply, stable_created h]
  dsimp only
  rw [bind_apply, get_apply]
  dsimp only
  rw [bind_apply, failIf_of_not (by simp [h.state])]
  dsimp only
  rw [bind_apply]
  unfold catching outcome
  cases advance port vm here w with
  | ok d w' => rfl
  | error e w' =>
    dsimp only
    split <;> rfl
theorem advanceHost_created {o : Gsp.Owner D} (h : Created here w) :
    advanceHost vm here { w with serving := o } =
      (do
        let address ← onHost (Vm.reserve vm w.range.hostRange w.range.plan.bytes
          w.range.plan.alignment w.range.plan.fixedAddress)
        update fun r => { r with address, state := .ready } : RangeCall D E Unit)
        { w with serving := o } := by
  unfold advanceHost
  rw [bind_apply, get_apply]
  dsimp only
  rw [h.state]

theorem retire_of_valid {c : Names.Children} {n : Names.World}
    (h : Names.validateChildren here c n = .ok () n) :
    ∃ n', Names.retireChildren here c n = .ok () n' := by
  obtain ⟨-, hv, p, hf, hl⟩ := Names.validateChildren_ok.1 h
  have hlookup : Names.lookupChildren here c n = .ok p n :=
    Names.lookupChildren_ok.2 ⟨rfl, Names.validate_live hv, hf, by rw [hl]⟩
  unfold Names.retireChildren Names.removeChildren
  rw [bind_apply, h]
  dsimp only
  rw [bind_apply, hlookup]
  cases p with
  | fixed i => exact ⟨_, rfl⟩
  | resident a => exact ⟨_, rfl⟩

/-! ## The two ends -/

/-- The firmware answered the request with a rejection. -/
structure Rejecting (port : Gsp.Port D) (w : World D E) (o : Gsp.Owner D) : Prop where
  submitted : w.range.submitted = true
  answer : ∃ o₁ o₂ d status, Gsp.Exchange.guard port w.range.deadline w.serving = .ok () o₁ ∧
    o₁.exchange.pending = none ∧
    Gsp.Exchange.poll port w.range.deadline o₁ = .ok (some d) o₂ ∧ d.response = true ∧
    allocated w.range.plan d.record = .ok (.rejected status) ∧
    Gsp.Exchange.complete port d.ticket o₂ = .ok () o
  session : o.world.session.state = .active

/-- A creation that the firmware rejects. -/
theorem rejected_refused {o : Gsp.Owner D} (h : Created here w)
    (hfirmware : w.range.plan.space.host = false) (hr : Rejecting port w o) :
    ∃ w', poll port vm here w = .ok none w' ∧ Refused here w w' := by
  obtain ⟨o₁, o₂, d, status, hguard, hpending, hpoll, hresponse, hallocated, hcomplete⟩ := hr.answer
  obtain ⟨n, hretire⟩ := retire_of_valid h.names
  have hg : (onServing (Gsp.Exchange.guard port w.range.deadline) : RangeCall D E Unit) w =
      .ok () { w with serving := o₁ } := onServing_ok hguard
  have hp : (onServing (Gsp.Exchange.poll port w.range.deadline) : RangeCall D E _)
      { w with serving := o₁ } = .ok (some d) { w with serving := o₂ } :=
    onServing_ok (w := { w with serving := o₁ }) hpoll
  have hc : (onServing (Gsp.Exchange.complete port d.ticket) : RangeCall D E _)
      { w with serving := o₂ } = .ok () { w with serving := o } :=
    onServing_ok (w := { w with serving := o₂ }) hcomplete
  have hd : (onServing (lift (w.range.decode d.record)) : RangeCall D E Reply)
      { w with serving := o₂ } = .ok (.rejected status) { w with serving := o₂ } := by
    apply onServing_ok (w := { w with serving := o₂ })
    unfold Owner.decode
    rw [h.state]
    dsimp only
    rw [hallocated]
    rfl
  have hsettle : settle port here d { w with serving := o₂ } =
      .ok none { w with
        range := { w.range with
          rejected := some status, namespaceLive := false, state := .ready, submitted := false }
        serving := o
        names := n } := by
    unfold settle
    rw [bind_apply, get_apply]
    dsimp only
    rw [bind_apply, hd]
    dsimp only
    rw [bind_apply, hc]
    simp [bind_apply, update, h.state, failIf_of_not, retireNames, onNames, zoom, hretire]
    rfl
  have hadvance : advance port vm here w = settle port here d { w with serving := o₂ } := by
    unfold advance
    rw [bind_apply, get_apply]
    dsimp only
    rw [bind_apply, hg]
    dsimp only
    rw [bind_apply, get_apply]
    dsimp only
    rw [bind_apply, failIf_of_not (by simp [hpending])]
    dsimp only
    rw [if_neg (by simp [hfirmware])]
    unfold advanceFirmware submit
    simp [bind_apply, hr.submitted, hp, hresponse]
  rw [poll_created h, hadvance, hsettle]
  exact ⟨_, rfl, rfl, h.address, rfl, fun _ => retired_invalid hretire, hr.session, rfl⟩

/-- In the host's space a creation ends placed, or failed: where the host has no room, or no serial
number for the range. -/
theorem host_create (h : Created here w) (hhost : w.range.plan.space.host = true)
    (hworks : Working port w.range.deadline w.serving) (hhealthy : w.host.Healthy vm)
    (hfresh : ∀ r ∈ w.host.owner.ranges, r.id ≠ w.range.hostRange) :
    Spec (poll port vm here) w
      (fun d w' => d = none ∧ w.host.owner.serial ≠ Vm.maxU64 ∧ Placed w w')
      (fun _ w' => (w.host.owner.serial = Vm.maxU64 ∨ ¬ w.Room) ∧ w'.range.state = .failed) := by
  have hserve : ∃ o, o.world.session.state = .active ∧ advance port vm here w =
      (do advanceHost vm here; pure none : RangeCall D E (Option Gsp.Dispatch))
        { w with serving := o } := advance_created hhost hworks
  obtain ⟨o, hactive, hadvance⟩ := hserve
  have hb := w.range.plan.validate_bounded h.valid
  have hpage : w.range.plan.bytes % 4096 = 0 := by
    have hmask := hb.bytes.2
    rwa [show (4095 : Nat) = 2 ^ 12 - 1 from rfl, Nat.and_two_pow_sub_one_eq_mod] at hmask
  have hreserve := Vm.reserve_spec hhealthy hfresh ⟨hb.low, hb.high, hb.power⟩ ⟨hb.bytes.1, hpage⟩
    hb.fixed
  unfold Spec
  rw [poll_created h, hadvance, bind_apply, advanceHost_created h]
  cases hr : Vm.reserve vm w.range.hostRange w.range.plan.bytes w.range.plan.alignment
    w.range.plan.fixedAddress w.host with
  | ok a host =>
    obtain ⟨hserial, hgap, -, hreserved, -, -⟩ := hreserve.ok hr
    have hzoom : (onHost (Vm.reserve vm w.range.hostRange w.range.plan.bytes w.range.plan.alignment
        w.range.plan.fixedAddress) : RangeCall D E Nat) { w with serving := o } =
        .ok a { w with serving := o, host := host } := onHost_ok (w := { w with serving := o }) hr
    rw [bind_apply, hzoom]
    exact ⟨rfl, hserial, rfl, hgap, hreserved, hactive,
      hreserved.usable hhealthy.usable hgap hfresh⟩
  | error e host =>
    obtain ⟨hcause, -⟩ := hreserve.error hr
    have hzoom : (onHost (Vm.reserve vm w.range.hostRange w.range.plan.bytes w.range.plan.alignment
        w.range.plan.fixedAddress) : RangeCall D E Nat) { w with serving := o } =
        .error (.host e) { w with serving := o, host := host } :=
      onHost_error (w := { w with serving := o }) hr
    rw [bind_apply, hzoom]
    dsimp only
    rw [if_neg (by simp)]
    exact (fail_spec (.host e) _).mono (fun _ _ hn => hn.elim) fun _ _ hf => ⟨hcause, hf.2⟩
/-- The host's creation ends as the firmware's does exactly where the host has room for the range
and a serial number left. -/
theorem host_create_alike (h : Created here w) (hhost : w.range.plan.space.host = true)
    (hworks : Working port w.range.deadline w.serving) (hhealthy : w.host.Healthy vm)
    (hfresh : ∀ r ∈ w.host.owner.ranges, r.id ≠ w.range.hostRange) :
    Alike here w (outcome (poll port vm here) w).2 ↔
      w.Room ∧ w.host.owner.serial ≠ Vm.maxU64 := by
  apply Spec.outcome (P := fun _ w' => Alike here w w' ↔ w.Room ∧ w.host.owner.serial ≠ Vm.maxU64)
  apply (host_create h hhost hworks hhealthy hfresh).mono
  · rintro _ w' ⟨-, hserial, hplaced⟩
    have hroom : w.Room := ⟨_, hplaced.gap⟩
    exact ⟨fun _ => ⟨hroom, hserial⟩, fun _ => ⟨fun _ => hplaced, fun hno => absurd hroom hno⟩⟩
  · rintro _ w' ⟨hcause, hfailed⟩
    constructor
    · intro halike
      exfalso
      by_cases hroom : w.Room
      · have := (halike.placed hroom).ready
        rw [hfailed] at this
        cases this
      · have := (halike.refused hroom).ready
        rw [hfailed] at this
        cases this
    · rintro ⟨hroom, hserial⟩
      rcases hcause with hmax | hno
      · exact absurd hmax hserial
      · exact absurd hroom hno

end

/-! ## A range behind another one -/

def calmLease : Names.Lease := ⟨1, 0, 0xc1d00000, 0x10000000, 2⟩

/-- The ledger with one client. -/
def calmNames : Names.World := (Names.step 8 ⟨{ epoch := 1 }, fun _ => {}⟩ (.reserve 2)).2

/-- An attached host space that holds one range of two pages, at 4 GiB. -/
def calmHost : Vm.World Vm.Calm :=
  (exec (Vm.step Vm.calmPort) (Vm.initial (fun _ => {}) {})
    [.prepare 1 0 (1 <<< 48), .bindSubmitted, .bindConfirmed, .reserve 7 8192 4096 0]).2

def calmPlan (fixed : Nat) : Allocation where
  space := ⟨1, 0xc1d00000, 0x10000000, 0x10000001, 4096, 0x800000000000, true⟩
  object := 0x10000002
  bytes := 8192
  fixedAddress := fixed

/-- A second range of two pages, wanted at `fixed`. -/
def calmWorld (fixed : Nat) : World Unit Vm.Calm where
  range := {
    plan := calmPlan fixed
    stamp := calmPlan fixed
    reservation := ⟨calmLease, 0, 0x10000002, 1⟩
    request := 0x300000
    deadline := 5
    hostRange := 9 }
  serving := ⟨{ inLockdown := false }, Gsp.Exchange.connected Gsp.Session.idlePort, []⟩
  names := (Names.step 8 calmNames (.reserveChildren calmLease 1)).2
  host := calmHost

theorem calm_created {fixed : Nat} (h : (calmPlan fixed).validate = .ok ()) :
    Created 8 (calmWorld fixed) := by
  refine ⟨rfl, ?_, rfl, h, rfl, ?_, rfl⟩
  · show 1 = (Gsp.Exchange.connected Gsp.Session.idlePort).session.epoch
    rfl
  · have hreserve : Names.reserveChildren calmLease 1 calmNames =
        .ok ⟨calmLease, 0, 0x10000002, 1⟩ (calmWorld fixed).names := by rfl
    exact reserved_valid hreserve

theorem calm_working {fixed : Nat} : Working Gsp.Session.idlePort 5 (calmWorld fixed).serving := by
  refine ⟨_, _, rfl, rfl, rfl, rfl, rfl⟩

deriving instance DecidableEq for Vm.Range

/-- What its calls leave the attached host space with. -/
theorem calm_state : calmHost.owner.ranges = [⟨7, 1, 0x100000000, 8192⟩] ∧
    (calmHost.owner.base = 0 ∧ calmHost.owner.bytes = 1 <<< 48) ∧ calmHost.owner.work.isNone = true ∧
    (calmHost.owner.prepared = true ∧ calmHost.owner.epoch ≠ 0 ∧ calmHost.owner.failure = none ∧
      calmHost.owner.attached = true) ∧
    (Vm.calmPort.io.generation calmHost.env).1 = calmHost.owner.epoch := by decide +kernel

theorem calm_ranges : calmHost.owner.ranges = [⟨7, 1, 0x100000000, 8192⟩] := calm_state.1

theorem calm_usable : calmHost.owner.Usable := by
  obtain ⟨-, hwindow, hidle, ⟨hprepared, hepoch, hfailure, hattached⟩, -⟩ := calm_state
  have hlisted : calmHost.owner.Listed := by
    refine ⟨?_, ?_, ?_, ?_, ?_⟩
    all_goals simp [calm_ranges, hwindow]
    decide
  exact ⟨hprepared, hepoch, hfailure, hattached, Option.isNone_iff_eq_none.mp hidle, hlisted⟩

theorem calm_healthy : calmHost.Healthy Vm.calmPort := ⟨calm_usable, calm_state.2.2.2.2⟩

theorem calm_fresh (fixed : Nat) :
    ∀ r ∈ (calmWorld fixed).host.owner.ranges, r.id ≠ (calmWorld fixed).range.hostRange := by
  intro r hr
  have hmem : r ∈ calmHost.owner.ranges := hr
  rw [calm_ranges, List.mem_singleton] at hmem
  rw [hmem]
  show (7 : Nat) ≠ 9
  decide

/-- Behind the first range there is room. -/
theorem host_create_alike_free : (calmWorld 0).Room ∧
    Alike 8 (calmWorld 0) (outcome (poll Gsp.Session.idlePort Vm.calmPort 8) (calmWorld 0)).2 := by
  have hvalid : (calmPlan 0).validate = .ok () := by decide
  have hroom : (calmWorld 0).Room := by
    refine ⟨0x100002000, ?_, by decide, by decide, ?_, ?_⟩
    · show max calmHost.owner.base 0x100000000 ≤ 0x100002000
      decide +kernel
    · decide +kernel
    · intro r hr
      have hmem : r ∈ calmHost.owner.ranges := hr
      rw [calm_ranges, List.mem_singleton] at hmem
      rw [hmem]
      decide
  exact ⟨hroom, (host_create_alike (calm_created hvalid) rfl calm_working calm_healthy
    (calm_fresh 0)).mpr ⟨hroom, by decide +kernel⟩⟩

/-- A request at the address of the first range passes its checks, and stops the session. -/
theorem conflict_stops_session :
    let w := calmWorld 0x100000000
    let w' := (outcome (poll Gsp.Session.idlePort Vm.calmPort 8) w).2
    Created 8 w ∧ w.range.plan.space.host = true ∧
      Working Gsp.Session.idlePort w.range.deadline w.serving ∧ w.host.Healthy Vm.calmPort ∧
      (∀ r ∈ w.host.owner.ranges, r.id ≠ w.range.hostRange) ∧
      ¬ Alike 8 w w' ∧ w'.range.state = .failed ∧ w'.serving.world.session.state = .failed := by
  have hvalid : (calmPlan 0x100000000).validate = .ok () := by decide
  have hfailed : (outcome (poll Gsp.Session.idlePort Vm.calmPort 8)
      (calmWorld 0x100000000)).2.range.state = .failed := by decide +kernel
  refine ⟨calm_created hvalid, rfl, calm_working, calm_healthy, calm_fresh _, ?_, hfailed,
    by decide +kernel⟩
  intro halike
  have hready : (outcome (poll Gsp.Session.idlePort Vm.calmPort 8)
      (calmWorld 0x100000000)).2.range.state = .ready := by
    by_cases hroom : (calmWorld 0x100000000).Room
    · exact (halike.placed hroom).ready
    · exact (halike.refused hroom).ready
  rw [hfailed] at hready
  cases hready

end Virtual
end NvidiaGsp
