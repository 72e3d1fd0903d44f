import NvidiaGsp.Vm.RoomRuns

/-!
# Vm.RangeRuns

The callers' ranges over whole runs. A `Range` is memory of the caller: `reserve` refuses one in use
and fills it in its last steps, `releaseRange` clears it. Every listed range is what its caller's
memory says (`Callers.Sound`), so a range that is not in use is not listed, and then the answer of a
reservation follows from the window and the list (`reserve_run`).
-/

namespace NvidiaGsp
namespace Vm

open Call

variable {E : Type} {port : Port E}

/-- A caller's `Range`, but for its links and its bindings, which stand in the owner's lists. -/
structure Slot where
  selfAddress : Bool := false
  owner : Bool := false
  serial : Nat := 0
  address : Nat := 0
  bytes : Nat := 0
  deriving DecidableEq

namespace Slot

def inUse (slot : Slot) : Bool := slot.selfAddress || slot.owner

/-- The range `reserve` has written. -/
def of (r : Range) : Slot := ⟨true, true, r.serial, r.address, r.bytes⟩

/-- The fields are written in order, and the third asks for a serial. -/
def begun (slot : Slot) : Slot := { slot with selfAddress := true, owner := true }

end Slot

/-- The owner's world and the callers' ranges. -/
structure Callers (E : Type) where
  world : World E
  slots : RangeId → Slot

namespace Callers

def initial (heap : TableId → Table) (env : E) : Callers E := ⟨Vm.initial heap env, fun _ => {}⟩

def reserve (port : Port E) (s : Callers E) (id : RangeId) (bytes alignment fixed : Nat) :
    Except Error Answer × Callers E :=
  if (s.slots id).inUse then
    match stable port s.world with
    | .ok _ w => (.error .Busy, { s with world := w })
    | .error e w => (.error e, { s with world := w })
  else
    match Vm.reserve port id bytes alignment fixed s.world with
    | .ok a w =>
      (.ok (.address a), ⟨w, Function.update s.slots id (.of ⟨id, w.owner.serial, a, bytes⟩)⟩)
    | .error e w =>
      (.error e, ⟨w, if e = .Exhausted then Function.update s.slots id (s.slots id).begun else s.slots⟩)

def releaseRange (port : Port E) (s : Callers E) (id : RangeId) : Except Error Answer × Callers E :=
  match Vm.releaseRange port id s.world with
  | .ok _ w => (.ok .done, ⟨w, Function.update s.slots id {}⟩)
  | .error e w => (.error e, { s with world := w })

def step (port : Port E) (s : Callers E) : Op E → Except Error Answer × Callers E
  | .reserve id bytes alignment fixed => s.reserve port id bytes alignment fixed
  | .releaseRange id => s.releaseRange port id
  | op => ((Vm.step port s.world op).1, { s with world := (Vm.step port s.world op).2 })

/-- Every listed range is in its caller's memory. -/
structure Sound (s : Callers E) : Prop where
  owner : s.world.owner.Sound
  slots : ∀ r ∈ s.world.owner.ranges, s.slots r.id = .of r

variable {s : Callers E} {id : RangeId} {bytes alignment fixed : Nat}

theorem Sound.unlisted (h : s.Sound) (hfree : (s.slots id).inUse = false) :
    ∀ r ∈ s.world.owner.ranges, r.id ≠ id := by
  rintro r hr rfl
  rw [h.slots r hr] at hfree
  cases hfree

theorem Sound.same (h : s.Sound) {w : World E} (hw : w.owner = s.world.owner) :
    Sound { s with world := w } :=
  ⟨hw ▸ h.owner, fun r hr => h.slots r (hw ▸ hr)⟩

/-- What a reservation did: it failed before it wrote, it failed for want of a serial, or it wrote
the range. -/
inductive Did (s : Callers E) (id : RangeId) (bytes : Nat) : Except Error Answer → Callers E → Prop
  | refused {e : Error} {w : World E} (hw : w.owner = s.world.owner) (he : e ≠ .Exhausted) :
    Did s id bytes (.error e) { s with world := w }
  | exhausted {w : World E} (hfree : (s.slots id).inUse = false) (hw : w.owner = s.world.owner)
    (hmax : s.world.owner.serial = maxU64) :
    Did s id bytes (.error .Exhausted) ⟨w, Function.update s.slots id (s.slots id).begun⟩
  | written {a : Nat} {w : World E} (hfree : (s.slots id).inUse = false) (hsound : w.owner.Sound)
    (hgrown : Grown ⟨id, w.owner.serial, a, bytes⟩ s.world.owner.ranges w.owner.ranges) :
    Did s id bytes (.ok (.address a))
      ⟨w, Function.update s.slots id (.of ⟨id, w.owner.serial, a, bytes⟩)⟩

theorem reserve_did (h : s.Sound) : Did s id bytes (s.reserve port id bytes alignment fixed).1
    (s.reserve port id bytes alignment fixed).2 := by
  unfold Callers.reserve
  split
  · have hstable : Spec (stable port) s.world _ _ := stable_live
    split
    · rename_i hok
      exact .refused (hstable.ok hok).1 (by decide)
    · rename_i herr
      exact .refused (hstable.error herr).1 (hstable.error herr).2
  · rename_i hfree
    rw [Bool.not_eq_true] at hfree
    have hspec : Spec (Vm.reserve port id bytes alignment fixed) s.world _ _ := reserve_sound h.owner
    split
    · rename_i hok
      exact .written hfree (hspec.ok hok).1 (hspec.ok hok).2
    · rename_i e w herr
      obtain ⟨hw, hmax⟩ := hspec.error herr
      by_cases he : e = .Exhausted
      · subst he
        exact .exhausted hfree hw (hmax rfl)
      · rw [if_neg he]
        exact .refused hw he

theorem Did.error {out : Except Error Answer} {s' : Callers E} {e : Error}
    (hd : Did s id bytes out s') (he : out = .error e) :
    s'.world.owner = s.world.owner ∧ (s'.slots = s.slots ∨ e = .Exhausted ∧
      s.world.owner.serial = maxU64 ∧ s'.slots = Function.update s.slots id (s.slots id).begun) := by
  cases hd with
  | refused hw _ => exact ⟨hw, .inl rfl⟩
  | exhausted _ hw hmax =>
    cases he
    exact ⟨hw, .inr ⟨rfl, hmax, rfl⟩⟩
  | written => cases he

theorem Did.ok {out : Except Error Answer} {s' : Callers E} {a : Nat} (hd : Did s id bytes out s')
    (ha : out = .ok (.address a)) :
    Grown ⟨id, s'.world.owner.serial, a, bytes⟩ s.world.owner.ranges s'.world.owner.ranges ∧
      s'.slots = Function.update s.slots id (.of ⟨id, s'.world.owner.serial, a, bytes⟩) := by
  cases hd with
  | refused => cases ha
  | exhausted => cases ha
  | written _ _ hgrown =>
    cases ha
    exact ⟨hgrown, rfl⟩

/-- A reservation answers with an address. -/
theorem Did.address {out : Except Error Answer} {s' : Callers E} {answer : Answer}
    (hd : Did s id bytes out s') (ha : out = .ok answer) : ∃ a, answer = .address a := by
  cases hd with
  | refused => cases ha
  | exhausted => cases ha
  | written =>
    cases ha
    exact ⟨_, rfl⟩

theorem Did.sound {out : Except Error Answer} {s' : Callers E} (h : s.Sound)
    (hd : Did s id bytes out s') : s'.Sound := by
  cases hd with
  | refused hw he => exact h.same hw
  | exhausted hfree hw hmax =>
    refine ⟨hw ▸ h.owner, fun r hr => ?_⟩
    have hr : r ∈ s.world.owner.ranges := hw ▸ hr
    exact (Function.update_of_ne (h.unlisted hfree r hr) _ _).trans (h.slots r hr)
  | written hfree hsound hgrown =>
    refine ⟨hsound, fun r hr => ?_⟩
    rcases hgrown.mem hr with rfl | hr
    · exact Function.update_self ..
    · exact (Function.update_of_ne (h.unlisted hfree r hr) _ _).trans (h.slots r hr)

theorem releaseRange_sound (h : s.Sound) : (s.releaseRange port id).2.Sound := by
  have hspec : Spec (Vm.releaseRange port id) s.world _ _ := Vm.releaseRange_sound h.owner
  unfold Callers.releaseRange
  split
  · rename_i hok
    obtain ⟨hsound, hranges⟩ := hspec.ok hok
    refine ⟨hsound, fun r hr => ?_⟩
    rw [hranges] at hr
    obtain ⟨hr, hid⟩ := List.mem_filter.mp hr
    exact (Function.update_of_ne (by simpa using hid) _ _).trans (h.slots r hr)
  · rename_i herr
    exact h.same (hspec.error herr)

theorem Sound.call (h : s.Sound) {op : Op E}
    (hop : ∀ id bytes alignment fixed, op ≠ .reserve id bytes alignment fixed) :
    Sound { s with world := (Vm.step port s.world op).2 } := by
  have hkept : s.world.owner.Kept (Vm.step port s.world op).2.owner :=
    Spec.outcome (P := fun _ (w' : World E) => s.world.owner.Kept w'.owner)
      (call_kept h.owner hop)
  exact ⟨hkept.sound, fun r hr => h.slots r (hkept.ranges hr)⟩

/-- What one call keeps. -/
theorem step_sound (h : s.Sound) (op : Op E) : (s.step port op).2.Sound := by
  cases op with
  | reserve id bytes alignment fixed => exact (reserve_did h).sound h
  | releaseRange id => exact releaseRange_sound h
  | _ => exact h.call fun _ _ _ _ heq => by cases heq

end Callers

section

variable {heap₀ : TableId → Table} {env : E} {s : Callers E} {id : RangeId} {bytes alignment fixed a : Nat}
  {h : List (Event (Callers E) (Op E) (Except Error Answer))}

/-- The ranges of every reachable owner are in order, and its callers have them. -/
theorem sound_run (hr : Run (Callers.step port) (.initial heap₀ env) h s) : s.Sound := by
  apply hr.invariant (P := fun _ s => s.Sound)
  · exact ⟨sound_empty, fun _ hr => by cases hr⟩
  · intro h s op out s' hs hstep
    have hsound : (s.step port op).2.Sound := Callers.step_sound hs op
    rwa [hstep] at hsound

/-- A reservation with a free range succeeds when the owner's does. -/
theorem reserve_answer (hfree : (s.slots id).inUse = false) :
    (s.reserve port id bytes alignment fixed).1 = .ok (.address a) ↔
      ∃ w', reserve port id bytes alignment fixed s.world = .ok a w' := by
  unfold Callers.reserve
  rw [if_neg (by rw [hfree]; decide)]
  cases reserve port id bytes alignment fixed s.world <;> simp

/-- An error of `reserve` or `releaseRange` leaves the owner as it is, and the callers' ranges too
where a serial is left. -/
theorem refused_same (hs : s.Sound) {op : Op E} {e : Error}
    (hop : (∃ id, op = .releaseRange id) ∨ ∃ id bytes alignment fixed, op = .reserve id bytes alignment fixed)
    (he : (s.step port op).1 = .error e) : (s.step port op).2.world.owner = s.world.owner ∧
      ((s.step port op).2.slots = s.slots ∨ e = .Exhausted ∧ s.world.owner.serial = maxU64 ∧
        ∃ id bytes alignment fixed, op = .reserve id bytes alignment fixed ∧
          (s.step port op).2.slots = Function.update s.slots id (s.slots id).begun) := by
  rcases hop with ⟨id, rfl⟩ | ⟨id, bytes, alignment, fixed, rfl⟩
  · have hspec : Spec (releaseRange port id) s.world _ _ := releaseRange_sound hs.owner
    simp only [Callers.step, Callers.releaseRange] at he ⊢
    cases hx : releaseRange port id s.world with
    | ok a w =>
      rw [hx] at he
      cases he
    | error e w => exact ⟨hspec.error hx, .inl rfl⟩
  · obtain ⟨howner, hslots | ⟨hexhausted, hmax, hslots⟩⟩ := (Callers.reserve_did hs).error he
    · exact ⟨howner, .inl hslots⟩
    · exact ⟨howner, .inr ⟨hexhausted, hmax, id, bytes, alignment, fixed, rfl, hslots⟩⟩

/-- In every reachable state the ranges are sorted and apart and in their callers' memory. An error of
`reserve` or `releaseRange` leaves the owner as it is, and the caller's range too unless the serials
are used up; a success adds the range it wrote. An owner that is attached and idle answers a request
by the least address where it fits, or by the fixed one, as long as its device serves. -/
theorem reserve_run (hr : Run (Callers.step port) (.initial heap₀ env) h s) :
    s.world.owner.ranges.Pairwise Before ∧
    (∀ r ∈ s.world.owner.ranges, s.slots r.id = .of r) ∧
    (∀ op e, ((∃ id, op = .releaseRange id) ∨ ∃ id bytes alignment fixed,
        op = .reserve id bytes alignment fixed) → (s.step port op).1 = .error e →
      (s.step port op).2.world.owner = s.world.owner ∧
      ((s.step port op).2.slots = s.slots ∨ e = .Exhausted ∧ s.world.owner.serial = maxU64 ∧
        ∃ id bytes alignment fixed, op = .reserve id bytes alignment fixed ∧
          (s.step port op).2.slots = Function.update s.slots id (s.slots id).begun)) ∧
    (∀ id bytes alignment fixed a s', s.step port (.reserve id bytes alignment fixed) =
        (.ok (.address a), s') →
      Grown ⟨id, s'.world.owner.serial, a, bytes⟩ s.world.owner.ranges s'.world.owner.ranges ∧
      s'.slots = Function.update s.slots id (.of ⟨id, s'.world.owner.serial, a, bytes⟩)) ∧
    (s.world.owner.failure = none → s.world.owner.attached = true → s.world.owner.work = none →
      ∀ id bytes alignment, (s.slots id).inUse = false → Aligns alignment →
        0 < bytes ∧ bytes % 4096 = 0 →
      (∀ a, (s.step port (.reserve id bytes alignment 0)).1 = .ok (.address a) ↔
        s.world.Serving port ∧ IsLeast (fun x => max s.world.owner.base 0x100000000 ≤ x ∧
          s.world.owner.Fits bytes alignment x) a) ∧
      ((∃ e, (s.step port (.reserve id bytes alignment 0)).1 = .error e) ↔
        (s.world.Serving port → ¬ ∃ x, max s.world.owner.base 0x100000000 ≤ x ∧
          s.world.owner.Fits bytes alignment x)) ∧
      ∀ fixed, fixed ≠ 0 → ∀ a,
        (s.step port (.reserve id bytes alignment fixed)).1 = .ok (.address a) ↔
          s.world.Serving port ∧ a = fixed ∧ s.world.owner.Fits bytes alignment fixed) := by
  have hs := sound_run hr
  refine ⟨hs.owner.listed.sorted, hs.slots, fun op e => refused_same hs, ?_, ?_⟩
  · intro id bytes alignment fixed a s' hok
    have hdid : Callers.Did s id bytes (s.step port (.reserve id bytes alignment fixed)).1
        (s.step port (.reserve id bytes alignment fixed)).2 := Callers.reserve_did hs
    rw [hok] at hdid
    exact hdid.ok rfl
  · intro hf hattached hidle id bytes alignment hfree ha hbytes
    have hid := hs.unlisted hfree
    have hp := (hs.owner.live hattached).1
    have hfirst (a : Nat) : (s.step port (.reserve id bytes alignment 0)).1 = .ok (.address a) ↔
        s.world.Serving port ∧ IsLeast (fun x => max s.world.owner.base 0x100000000 ≤ x ∧
          s.world.owner.Fits bytes alignment x) a := by
      refine (reserve_answer hfree).trans ?_
      rw [reserve_least hs.owner hf hattached hidle hid ha hbytes]
      simp only [hs.owner.gap_iff hp ha hbytes]
      rfl
    refine ⟨hfirst, ?_, fun fixed hfixed a => ?_⟩
    · constructor
      · -- Where one address fits there is a least one, and the call returns it.
        rintro ⟨e, he⟩ hserving hroom
        classical
        have hleast : IsLeast (fun x => max s.world.owner.base 0x100000000 ≤ x ∧
            s.world.owner.Fits bytes alignment x) (Nat.find hroom) :=
          ⟨Nat.find_spec hroom, fun x hx => Nat.find_min' hroom hx⟩
        have hok := (hfirst _).mpr ⟨hserving, hleast⟩
        rw [he] at hok
        cases hok
      · intro hno
        have hdid : Callers.Did s id bytes (s.step port (.reserve id bytes alignment 0)).1 _ :=
          Callers.reserve_did hs
        cases hstep : (s.step port (.reserve id bytes alignment 0)).1 with
        | error e => exact ⟨e, rfl⟩
        | ok answer =>
          obtain ⟨a, rfl⟩ := hdid.address hstep
          obtain ⟨hserving, hleast⟩ := (hfirst a).mp hstep
          exact absurd ⟨a, hleast.1⟩ (hno hserving)
    · refine (reserve_answer hfree).trans ?_
      rw [reserve_least hs.owner hf hattached hidle hid ha hbytes]
      simp only [hs.owner.gap_iff hp ha hbytes, if_pos hfixed]
      apply and_congr_right
      intro _
      constructor
      · rintro ⟨⟨rfl, hfits⟩, -⟩
        exact ⟨rfl, hfits⟩
      · rintro ⟨rfl, hfits⟩
        exact ⟨⟨rfl, hfits⟩, fun x hx => hx.1.ge⟩

end

/-! ## A device that moves on -/

/-- The calm device, reset after three looks at its generation. -/
def expiringPort : Port Calm := { calmPort with
  io := { calmPort.io with
    generation := fun e => (if e.low < 3 then 1 else 2, { e with low := e.low + 1 }) } }

def expiringRun : List (Event (Callers Calm) (Op Calm) (Except Error Answer)) × Callers Calm :=
  exec (Callers.step expiringPort) (.initial (fun _ => {}) {})
    [.prepare 1 0 (1 <<< 48), .bindSubmitted, .bindConfirmed]

/-- Every address is free, and the request fails: the device is on another generation. -/
theorem reserve_expired :
    Run (Callers.step expiringPort) (.initial (fun _ => {}) {}) expiringRun.1 expiringRun.2 ∧
    expiringRun.2.world.owner.failure = none ∧ expiringRun.2.world.owner.attached = true ∧
    expiringRun.2.world.owner.work.isNone = true ∧ (expiringRun.2.slots 7).inUse = false ∧
    max expiringRun.2.world.owner.base 0x100000000 ≤ 0x100000000 ∧
    expiringRun.2.world.owner.Fits 4096 4096 0x100000000 ∧
    (expiringRun.2.step expiringPort (.reserve 7 4096 4096 0)).1 = .error .Stale := by
  have hrun : expiringRun.2.world.owner.failure = none ∧ expiringRun.2.world.owner.attached = true ∧
      expiringRun.2.world.owner.work.isNone = true ∧ (expiringRun.2.slots 7).inUse = false ∧
      max expiringRun.2.world.owner.base 0x100000000 ≤ 0x100000000 ∧
      (expiringRun.2.step expiringPort (.reserve 7 4096 4096 0)).1 = .error .Stale ∧
      expiringRun.2.world.owner.base ≤ 0x100000000 ∧ 0x100000000 + 4096 ≤
        expiringRun.2.world.owner.base + expiringRun.2.world.owner.bytes ∧
      expiringRun.2.world.owner.ranges.isEmpty = true := by
    decide +kernel
  obtain ⟨hfailure, hattached, hwork, hfree, hbase, hstale, hlow, hhigh, hempty⟩ := hrun
  refine ⟨Run.of_exec _ _ _, hfailure, hattached, hwork, hfree, hbase,
    ⟨by decide, ⟨hlow, hhigh⟩, fun r hr => ?_⟩, hstale⟩
  rw [List.isEmpty_iff.mp hempty] at hr
  cases hr

/-- The calm device with its space attached and one range of two pages reserved. -/
def attachedRun : List (Event (Callers Calm) (Op Calm) (Except Error Answer)) × Callers Calm :=
  exec (Callers.step calmPort) (.initial (fun _ => {}) {})
    [.prepare 1 0 (1 <<< 48), .bindSubmitted, .bindConfirmed, .reserve 7 8192 4096 0]

/-- The next request is answered behind the first range; one for the place of that range fails, and its
caller's range stays free. -/
theorem reserve_run_attached :
    ((attachedRun.2.step calmPort (.reserve 8 4096 8192 0)).1 = .ok (.address 0x100002000) ↔
      attachedRun.2.world.Serving calmPort ∧
      IsLeast (fun x => max attachedRun.2.world.owner.base 0x100000000 ≤ x ∧
        attachedRun.2.world.owner.Fits 4096 8192 x) 0x100002000) ∧
    (attachedRun.2.step calmPort (.reserve 8 4096 8192 0)).1 = .ok (.address 0x100002000) ∧
    (attachedRun.2.step calmPort (.reserve 9 4096 4096 0x100001000)).1 = .error .Busy ∧
    (attachedRun.2.step calmPort (.reserve 9 4096 4096 0x100001000)).2.slots = attachedRun.2.slots := by
  have hrun : Run (Callers.step calmPort) (.initial (fun _ => {}) {}) attachedRun.1 attachedRun.2 :=
    Run.of_exec _ _ _
  have hstate : attachedRun.2.world.owner.failure = none ∧ attachedRun.2.world.owner.attached = true ∧
      attachedRun.2.world.owner.work.isNone = true ∧ (attachedRun.2.slots 8).inUse = false ∧
      (attachedRun.2.step calmPort (.reserve 8 4096 8192 0)).1 = .ok (.address 0x100002000) ∧
      (attachedRun.2.step calmPort (.reserve 9 4096 4096 0x100001000)).1 = .error .Busy := by
    decide +kernel
  obtain ⟨hfailure, hattached, hwork, hfree, hnext, hbusy⟩ := hstate
  obtain ⟨-, -, hrefused, -, hlast⟩ := reserve_run hrun
  obtain ⟨-, hslots | ⟨he, -⟩⟩ := hrefused _ _ (.inr ⟨_, _, _, _, rfl⟩) hbusy
  · exact ⟨(hlast hfailure hattached (Option.isNone_iff_eq_none.mp hwork) 8 4096 8192 hfree
      ⟨by decide, by decide, by decide⟩ (by decide)).1 _, hnext, hbusy, hslots⟩
  · cases he

end Vm
end NvidiaGsp
