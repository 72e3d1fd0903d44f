import NvidiaGsp.Lib.Counts
import NvidiaGsp.Mst.RegistryInv

/-!
# Mst.RegistrySync

The recapture of one root. All of `synchronize`'s checks come before its first write; after them it
writes the header, reclaims the unallocated slots the capture no longer names, admits the capture's
keys one by one and retires the rest. Each of these passes keeps the invariant, keeps every slot
that has a display ID (`Reg.Retains`), and the capacity check makes the `unreachable` statement of
the admission loop unreachable (`admitAll_total`).
-/

namespace NvidiaGsp
namespace Mst
namespace Registry

open Call

/-! ## The checks -/

theorem survey_ok {r : Reg} {mask : Nat} {l : List (Fin slotCount)} {n : Nat}
    (h : survey r mask l = .ok n) :
    (∀ i ∈ l, (r.slots i).pending = .none ∧ (r.slots i).displayId &&& mask = 0) ∧
      n = l.countP fun i => decide ((r.slots i).state = .vacant) := by
  induction l generalizing n with
  | nil =>
    simp only [survey] at h
    cases h
    simp
  | cons i rest ih =>
    simp only [survey] at h
    split at h
    · cases h
    · rename_i hp
      split at h
      · cases h
      · rename_i hm
        cases hs : survey r mask rest with
        | error e => rw [hs] at h; cases h
        | ok m =>
          rw [hs] at h
          cases h
          obtain ⟨hall, hcount⟩ := ih hs
          refine ⟨?_, ?_⟩
          · intro j hj
            rcases List.mem_cons.mp hj with rfl | hj
            · exact ⟨not_not.mp hp, not_not.mp hm⟩
            · exact hall j hj
          · simp only [List.countP_cons, hcount, decide_eq_true_eq]

theorem planReclaim_ok {r : Reg} {root : Nat} {keys : List Key} {l : List (Fin slotCount)} {n : Nat}
    (h : planReclaim r root keys l = .ok n) :
    n = l.countP fun i => (r.slots i).reclaimable root keys := by
  induction l generalizing n with
  | nil =>
    simp only [planReclaim] at h
    cases h
    rfl
  | cons i rest ih =>
    simp only [planReclaim] at h
    split at h
    · cases h
    · cases hs : planReclaim r root keys rest with
      | error e => rw [hs] at h; cases h
      | ok m =>
        rw [hs] at h
        cases h
        simp only [List.countP_cons, ih hs]

theorem key_root {graph : Graph} {n : Nat} {k : Key} (h : key graph n = .ok k) :
    k.root = graph.root := by
  unfold key at h
  split at h
  · cases h
  · dsimp only at h
    split at h
    · cases h
    · split at h
      · cases h
      · split at h
        · cases h
        · cases h
        · split at h
          · cases h
          · cases h
            rfl

theorem planKeys_ok {r : Reg} {graph : Graph} {sor link n needed : Nat} {keys : List Key}
    (h : planKeys r graph sor link n = .ok (keys, needed)) :
    keys.Nodup ∧ (∀ k ∈ keys, k.root = graph.root) ∧
      needed = keys.countP fun k => (r.find k).isNone := by
  induction n generalizing keys needed with
  | zero =>
    simp only [planKeys] at h
    cases h
    simp
  | succ n ih =>
    simp only [planKeys] at h
    split at h
    · cases h
    · rename_i keys₀ needed₀ h₀
      obtain ⟨hnd, hroot, hcount⟩ := ih h₀
      split at h
      · cases h
      · rename_i k hk
        split at h
        · cases h
        · rename_i hmem
          have hnd' : (keys₀ ++ [k]).Nodup := by
            refine List.Nodup.append hnd (by simp) ?_
            intro x hx hx'
            rw [List.mem_singleton] at hx'
            exact hmem (hx' ▸ hx)
          have hroot' : ∀ x ∈ keys₀ ++ [k], x.root = graph.root := by
            intro x hx
            rcases List.mem_append.mp hx with hx | hx
            · exact hroot x hx
            · rw [List.mem_singleton] at hx
              rw [hx]
              exact key_root hk
          split at h
          · rename_i i hf
            split at h
            · cases h
            · cases h
              exact ⟨hnd', hroot', by simp [hf, hcount]⟩
          · rename_i hf
            cases h
            exact ⟨hnd', hroot', by simp [hf, hcount]⟩

theorem survey_reachable (r : Reg) (mask : Nat) (l : List (Fin slotCount)) :
    survey r mask l ≠ .error .Unreachable := by
  induction l with
  | nil => simp [survey]
  | cons i rest ih =>
    simp only [survey]
    split
    · simp
    · split
      · simp
      · cases hs : survey r mask rest with
        | error e => exact fun h => ih (by rw [hs]; exact h)
        | ok m => simp [Except.map]

theorem planReclaim_reachable (r : Reg) (root : Nat) (keys : List Key) (l : List (Fin slotCount)) :
    planReclaim r root keys l ≠ .error .Unreachable := by
  induction l with
  | nil => simp [planReclaim]
  | cons i rest ih =>
    simp only [planReclaim]
    split
    · simp
    · cases hs : planReclaim r root keys rest with
      | error e => exact fun h => ih (by rw [hs]; exact h)
      | ok m => simp [Except.map]

theorem rootFor_reachable (r : Reg) (graph : Graph) : rootFor r graph ≠ .error .Unreachable := by
  unfold rootFor
  split
  · split <;> simp
  · split <;> simp

theorem key_reachable (graph : Graph) (n : Nat) : key graph n ≠ .error .Unreachable := by
  unfold key
  split
  · simp
  · dsimp only
    split
    · simp
    · split
      · simp
      · split
        · simp
        · simp
        · split <;> simp

theorem planKeys_reachable (r : Reg) (graph : Graph) (sor link n : Nat) :
    planKeys r graph sor link n ≠ .error .Unreachable := by
  induction n with
  | zero => simp [planKeys]
  | succ n ih =>
    simp only [planKeys]
    split
    · rename_i e he
      exact fun h => ih (by rw [he]; exact h)
    · split
      · rename_i e he
        exact fun h => key_reachable graph n (by rw [he]; cases h; rfl)
      · split
        · simp
        · split
          · split <;> simp
          · simp

/-! ## Finding a key -/

theorem Slot.has_iff {s : Slot} {k : Key} : s.has k = true ↔ s.Occupied ∧ s.key = k := by
  simp [Slot.has, Slot.Occupied]

theorem find_some {r : Reg} {k : Key} {i : Fin slotCount} (h : r.find k = some i) :
    (r.slots i).Occupied ∧ (r.slots i).key = k := Slot.has_iff.1 (by simpa using List.find?_some h)

theorem find_none {r : Reg} {k : Key} :
    r.find k = none ↔ ∀ i, (r.slots i).Occupied → (r.slots i).key ≠ k := by
  simp only [Reg.find, List.find?_eq_none, List.mem_finRange, true_implies, Slot.has_iff, not_and]

theorem firstVacant_some {r : Reg} {i : Fin slotCount} (h : r.firstVacant = some i) :
    (r.slots i).state = .vacant := by simpa using List.find?_some h

/-- How many slots are vacant. -/
def Reg.vacants (r : Reg) : Nat :=
  (List.finRange slotCount).countP fun i => decide ((r.slots i).state = .vacant)

/-- How many of the keys the registry does not hold. -/
def Reg.missing (r : Reg) (keys : List Key) : Nat := keys.countP fun k => (r.find k).isNone

theorem firstVacant_of_pos {r : Reg} (h : 0 < r.vacants) : ∃ i, r.firstVacant = some i := by
  obtain ⟨i, hi, hv⟩ := Counts.exists_of_countP_pos h
  rw [← Option.isSome_iff_exists, Reg.firstVacant, List.find?_isSome]
  exact ⟨i, hi, by simpa using hv⟩

/-- Two registries that hold the same keys miss the same keys. -/
theorem isNone_find_congr {r r' : Reg} {k : Key}
    (h : (∃ i, (r.slots i).Occupied ∧ (r.slots i).key = k) ↔
      ∃ i, (r'.slots i).Occupied ∧ (r'.slots i).key = k) :
    (r'.find k).isNone = (r.find k).isNone := by
  rw [Bool.eq_iff_iff, Option.isNone_iff_eq_none, Option.isNone_iff_eq_none, find_none, find_none]
  constructor
  · intro hn i ho hk
    obtain ⟨j, ho', hk'⟩ := h.mp ⟨i, ho, hk⟩
    exact hn j ho' hk'
  · intro hn i ho hk
    obtain ⟨j, ho', hk'⟩ := h.mpr ⟨i, ho, hk⟩
    exact hn j ho' hk'

/-! ## What a recapture keeps -/

/-- Everything a slot with a display ID owes to its owner. -/
structure Slot.Keeps (s s' : Slot) : Prop where
  serial : s'.serial = s.serial
  key : s'.key = s.key
  displayId : s'.displayId = s.displayId
  pending : s'.pending = s.pending
  published : s'.published = s.published
  image : s'.image = s.image
  streamLease : s'.streamLease = s.streamLease
  routeHold : s'.routeHold = s.routeHold

theorem Slot.Keeps.refl (s : Slot) : s.Keeps s := ⟨rfl, rfl, rfl, rfl, rfl, rfl, rfl, rfl⟩

theorem Slot.Keeps.trans {a b c : Slot} (h : a.Keeps b) (h' : b.Keeps c) : a.Keeps c :=
  ⟨h'.1.trans h.1, h'.2.trans h.2, h'.3.trans h.3, h'.4.trans h.4, h'.5.trans h.5,
    h'.6.trans h.6, h'.7.trans h.7, h'.8.trans h.8⟩

/-- From `r` to `r'`, slots with a display ID are kept; an occupied slot was so under the same
serial, or carries a new one. -/
structure Reg.Retains (r r' : Reg) : Prop where
  epoch : r.epoch ≠ 0 → r'.epoch = r.epoch
  mono : r.nextSerial ≤ r'.nextSerial
  owned : ∀ i, (r.slots i).displayId ≠ 0 → (r.slots i).Keeps (r'.slots i)
  owner : ∀ i, (r'.slots i).displayId ≠ 0 → (r.slots i).Keeps (r'.slots i)
  occupancy : ∀ i, (r'.slots i).Occupied →
    (r.slots i).Occupied ∧ (r'.slots i).serial = (r.slots i).serial ∨
      r.nextSerial < (r'.slots i).serial

theorem Reg.Retains.trans {a b c : Reg} (h : a.Retains b) (h' : b.Retains c) : a.Retains c where
  epoch := by
    intro he
    have hab := h.epoch he
    rw [h'.epoch (by rw [hab]; exact he), hab]
  mono := h.mono.trans h'.mono
  owned := by
    intro i hd
    have hab := h.owned i hd
    exact hab.trans (h'.owned i (by rw [hab.displayId]; exact hd))
  owner := by
    intro i hd
    have hbc := h'.owner i hd
    exact (h.owner i (by rw [← hbc.displayId]; exact hd)).trans hbc
  occupancy := by
    intro i ho
    rcases h'.occupancy i ho with ⟨hob, hs⟩ | hnew
    · rw [hs]
      exact h.occupancy i hob
    · exact .inr (lt_of_le_of_lt h.mono hnew)

/-- No slot waits for RM. -/
def Reg.Quiet (r : Reg) : Prop := ∀ i, (r.slots i).pending = .none

/-- The recapture got from `r` to `r'` and may go on. -/
structure Reg.Recaptures (r r' : Reg) : Prop where
  inv : Inv r'
  quiet : r'.Quiet
  retains : r.Retains r'

/-- A pass that rewrites slots in place or vacates those without an ID. -/
theorem Reg.Retains.of_pass {r r' : Reg} (he : r.epoch ≠ 0 → r'.epoch = r.epoch)
    (hn : r'.nextSerial = r.nextSerial)
    (hs : ∀ i, (r.slots i).displayId = 0 ∧ r'.slots i = {} ∨
      (r.slots i).Keeps (r'.slots i) ∧ ((r'.slots i).Occupied → (r.slots i).Occupied)) :
    r.Retains r' where
  epoch := he
  mono := by rw [hn]
  owned := by
    intro i hd
    rcases hs i with ⟨hz, -⟩ | ⟨hk, -⟩
    · exact absurd hz hd
    · exact hk
  owner := by
    intro i hd
    rcases hs i with ⟨-, hv⟩ | ⟨hk, -⟩
    · rw [hv] at hd
      exact absurd rfl hd
    · exact hk
  occupancy := by
    intro i ho
    rcases hs i with ⟨-, hv⟩ | ⟨hk, hocc⟩
    · rw [hv] at ho
      exact absurd rfl ho
    · exact .inl ⟨hocc ho, hk.serial⟩

theorem Slot.Keeps.stays {s s' : Slot} (h : s.Keeps s') (ho : s'.Occupied → s.Occupied) :
    s.Stays s' := ⟨h.serial, h.key, h.displayId, h.routeHold, ho⟩

/-- One pass of the recapture over the slots. -/
theorem Reg.Recaptures.pass {r₀ r r' : Reg} (h : r₀.Recaptures r) (he : r'.epoch = r.epoch)
    (hn : r'.nextSerial = r.nextSerial)
    (hok : ∀ i, (r'.slots i).Ok r'.physicalMask)
    (hs : ∀ i, (r.slots i).displayId = 0 ∧ r'.slots i = {} ∨
      (r.slots i).Keeps (r'.slots i) ∧ ((r'.slots i).Occupied → (r.slots i).Occupied)) :
    r₀.Recaptures r' where
  inv := h.inv.of_slots hn hok fun i => (hs i).imp And.right fun hk => hk.1.stays hk.2
  quiet := by
    intro i
    rcases hs i with ⟨-, hv⟩ | ⟨hk, -⟩
    · rw [hv]
    · rw [hk.pending]
      exact h.quiet i
  retains := h.retains.trans (.of_pass (fun _ => he) hn hs)

/-! ## The passes -/

/-- The header: epoch, physical mask and root record. -/
def Reg.header (r : Reg) (graph : Graph) (mask : Nat) (root : Fin rootCount) : Reg :=
  Reg.setRoot { r with epoch := graph.epoch, physicalMask := r.physicalMask ||| mask } root
    ⟨graph.root, graph.generation, graph.completionReceipt⟩

theorem Slot.Ok.mask_or {s : Slot} {mask m : Nat} (h : s.Ok mask) (hm : s.displayId &&& m = 0) :
    s.Ok (mask ||| m) :=
  ⟨h.vacant, h.zero, h.bare, h.freeing, h.allocating, h.single,
    by rw [Nat.and_or_distrib_left, h.masked, hm, Nat.or_zero]⟩

theorem recaptures_header {r : Reg} (hi : Inv r) {graph : Graph} {mask : Nat}
    (he : r.epoch ≠ 0 → graph.epoch = r.epoch)
    (hs : ∀ i, (r.slots i).pending = .none ∧ (r.slots i).displayId &&& mask = 0)
    (root : Fin rootCount) : r.Recaptures (r.header graph mask root) where
  inv := hi.of_slots rfl (fun i => (hi.ok i).mask_or (hs i).2) fun _ =>
    .inr ⟨rfl, rfl, rfl, rfl, id⟩
  quiet := fun i => (hs i).1
  retains := .of_pass he rfl fun _ => .inr ⟨Slot.Keeps.refl _, id⟩

theorem Slot.reclaimable_iff {s : Slot} {root : Nat} {keys : List Key} :
    s.reclaimable root keys = true ↔
      s.Occupied ∧ s.key.root = root ∧ s.displayId = 0 ∧ s.key ∉ keys := by
  simp [Slot.reclaimable, Slot.Occupied, and_assoc]

theorem Reg.Recaptures.reclaim {r₀ r : Reg} (h : r₀.Recaptures r) (root : Nat) (keys : List Key) :
    r₀.Recaptures (r.reclaim root keys) := by
  refine h.pass rfl rfl (fun i => ?_) fun i => ?_
  · simp only [Reg.reclaim]
    split
    · exact Slot.ok_default _
    · exact h.inv.ok i
  · simp only [Reg.reclaim]
    split
    · rename_i hr
      exact .inl ⟨(Slot.reclaimable_iff.1 hr).2.2.1, rfl⟩
    · exact .inr ⟨Slot.Keeps.refl _, id⟩

theorem Slot.recaptured_keeps (s : Slot) (graph : Graph) (index : Nat) :
    s.Keeps (s.recaptured graph index) := by
  cases hs : s.state <;> constructor <;> simp [Slot.recaptured, hs] <;> split <;> simp

theorem Slot.recaptured_state (s : Slot) (graph : Graph) (index : Nat) :
    (s.recaptured graph index).state = match s.state with
      | .vacant => .vacant
      | .reserved => .reserved
      | .allocated => .allocated
      | .verified => .allocated
      | .unavailable => .reserved
      | .retiring => if s.displayId = 0 then .reserved else .allocated := by
  cases hs : s.state <;> simp [Slot.recaptured, hs]
  split <;> simp

theorem Slot.Ok.recaptured {s : Slot} {mask : Nat} (h : s.Ok mask) (ho : s.Occupied)
    (hp : s.pending = .none) (graph : Graph) (index : Nat) :
    (s.recaptured graph index).Ok mask := by
  have hk := s.recaptured_keeps graph index
  have hstate := s.recaptured_state graph index
  have href : (s.recaptured graph index).Referenced ↔ s.Referenced := by
    simp only [Slot.Referenced, hk.published, hk.image, hk.streamLease, hk.routeHold]
  obtain ⟨hv, hz, hb, hf, ha, hs, hm⟩ := h
  refine ⟨?_, ?_, ?_, ?_, ?_, ?_, ?_⟩
  · intro hvac
    rw [hstate] at hvac
    unfold Slot.Occupied at ho
    split at hvac <;> first | contradiction | (split at hvac <;> contradiction)
  · rw [hk.displayId, hstate]
    unfold Slot.Occupied at ho
    cases hst : s.state <;> simp_all
  · rw [hk.displayId, href]
    exact hb
  · rw [hk.pending, hp]
    simp
  · rw [hk.pending, hp]
    simp
  · rw [hk.displayId]
    exact hs
  · rw [hk.displayId]
    exact hm

theorem Slot.Ok.swept {s : Slot} {mask : Nat} (h : s.Ok mask) (graph : Graph) :
    (s.swept graph).Ok mask := by
  unfold Slot.swept
  split
  · split
    · exact Slot.ok_default _
    · rename_i hd
      obtain ⟨hv, hz, hb, hf, ha, hs, hm⟩ := h
      refine ⟨by simp, by simp [hd], hb, fun hp => ⟨rfl, (hf hp).2⟩, ?_, hs, hm⟩
      intro hp
      exact absurd (hz.mpr (.inr (.inl (ha hp)))) hd
  · exact h

theorem Reg.Recaptures.sweep {r₀ r : Reg} (h : r₀.Recaptures r) (graph : Graph) :
    r₀.Recaptures (r.sweep graph) := by
  refine h.pass rfl rfl (fun i => (h.inv.ok i).swept graph) fun i => ?_
  simp only [Reg.sweep, Slot.swept]
  split
  · rename_i hc
    split
    · rename_i hd
      exact .inl ⟨hd, rfl⟩
    · exact .inr ⟨⟨rfl, rfl, rfl, rfl, rfl, rfl, rfl, rfl⟩, fun _ => hc.1⟩
  · exact .inr ⟨Slot.Keeps.refl _, id⟩

/-! ## The admission loop -/

/-- The new occupancy the admission of a missing key writes. -/
def Reg.newSlot (r : Reg) (graph : Graph) (sor link index : Nat) (k : Key) : Slot :=
  { serial := r.nextSerial + 1, key := k, state := .reserved, generation := graph.generation,
    sourceReceipt := graph.completionReceipt, sink := index, sor := sor, link := link }

/-- The registry after the admission of a missing key into slot `i`. -/
def Reg.admitted (r : Reg) (graph : Graph) (sor link index : Nat) (k : Key) (i : Fin slotCount) :
    Reg :=
  Reg.setSlot { r with nextSerial := r.nextSerial + 1 } i (r.newSlot graph sor link index k)

theorem admit_found {r : Reg} {graph : Graph} {sor link index : Nat} {k : Key} {i : Fin slotCount}
    (h : r.find k = some i) : admitKey graph sor link index k r =
      .ok () (r.setSlot i ((r.slots i).recaptured graph index)) := by
  simp only [admitKey, bind_apply, get_apply, h, update_apply]

theorem admit_new {r : Reg} {graph : Graph} {sor link index : Nat} {k : Key} {i : Fin slotCount}
    (h : r.find k = none) (hv : r.firstVacant = some i) : admitKey graph sor link index k r =
      .ok () (r.admitted graph sor link index k i) := by
  have hneed : (need (some i) .Unreachable : Op (Fin slotCount)) r = .ok i r := rfl
  simp only [admitKey, bind_apply, get_apply, h, hv, hneed, modify_apply, update_apply]
  simp [Reg.setSlot, Slot.recaptured, Reg.admitted, Reg.newSlot]

theorem Reg.Recaptures.found {r₀ r : Reg} (h : r₀.Recaptures r) {k : Key} {i : Fin slotCount}
    (hf : r.find k = some i) (graph : Graph) (index : Nat) :
    r₀.Recaptures (r.setSlot i ((r.slots i).recaptured graph index)) := by
  have ho := (find_some hf).1
  refine h.pass rfl rfl (fun j => ?_) fun j => .inr ?_
  · by_cases hj : j = i
    · subst hj
      rw [Reg.setSlot_same]
      exact (h.inv.ok j).recaptured ho (h.quiet j) graph index
    · rw [r.setSlot_other _ hj]
      exact h.inv.ok j
  · by_cases hj : j = i
    · subst hj
      rw [Reg.setSlot_same]
      exact ⟨Slot.recaptured_keeps _ _ _, fun _ => ho⟩
    · rw [r.setSlot_other _ hj]
      exact ⟨Slot.Keeps.refl _, id⟩

theorem Reg.Recaptures.new {r₀ r : Reg} (h : r₀.Recaptures r) {k : Key} {i : Fin slotCount}
    (hf : r.find k = none) (hv : r.firstVacant = some i) (graph : Graph) (sor link index : Nat) :
    r₀.Recaptures (r.admitted graph sor link index k i) := by
  have hvac := firstVacant_some hv
  have hnew : ¬ (r.slots i).Occupied := fun ho => ho hvac
  have hd : (r.slots i).displayId = 0 := (h.inv.ok i).zero.mpr (.inl hvac)
  have hinv : Inv { r with nextSerial := r.nextSerial + 1 } :=
    { h.inv with serial := fun j ho => ⟨(h.inv.serial j ho).1, Nat.le_succ_of_le (h.inv.serial j ho).2⟩ }
  refine ⟨hinv.setSlot ⟨?_, ?_, ?_, ?_, ?_, ?_⟩, ?_, h.retains.trans ⟨fun _ => rfl, Nat.le_succ _, ?_, ?_, ?_⟩⟩
  · exact ⟨by simp [Reg.newSlot], by simp [Reg.newSlot], by simp [Reg.newSlot, Slot.Referenced],
      by simp [Reg.newSlot], by simp [Reg.newSlot], by simp [Reg.newSlot], by simp [Reg.newSlot]⟩
  · intro _
    simp [Reg.newSlot]
  · intro _ j _ hoj he
    have hle := (h.inv.serial j hoj).2
    rw [he] at hle
    exact absurd hle (Nat.not_succ_le_self _)
  · exact fun _ j _ hoj => find_none.1 hf j hoj
  · simp [Reg.newSlot]
  · simp [Reg.newSlot]
  · intro j
    by_cases hj : j = i
    · subst hj
      simp [Reg.admitted, Reg.newSlot]
    · rw [Reg.admitted, Reg.setSlot_other _ _ hj]
      exact h.quiet j
  · intro j hdj
    have hj : j ≠ i := fun hj => hdj (hj ▸ hd)
    rw [Reg.admitted, Reg.setSlot_other _ _ hj]
    exact Slot.Keeps.refl _
  · intro j hdj
    by_cases hj : j = i
    · subst hj
      simp [Reg.admitted, Reg.newSlot] at hdj
    · rw [Reg.admitted, Reg.setSlot_other _ _ hj]
      exact Slot.Keeps.refl _
  · intro j ho
    by_cases hj : j = i
    · subst hj
      exact .inr (by simp [Reg.admitted, Reg.newSlot])
    · rw [Reg.admitted, Reg.setSlot_other _ _ hj] at ho ⊢
      exact .inl ⟨ho, rfl⟩

/-- Writing an occupied slot under its key, or a new one under a missing key, leaves the other
keys as found or as missing as they were. -/
theorem missing_congr {r r' : Reg} {keys : List Key} (h : ∀ k ∈ keys,
    ((∃ i, (r.slots i).Occupied ∧ (r.slots i).key = k) ↔
      ∃ i, (r'.slots i).Occupied ∧ (r'.slots i).key = k)) : r'.missing keys = r.missing keys :=
  Counts.countP_congr fun k hk => isNone_find_congr (h k hk)

/-- The capacity the loop needs: a vacant slot for each key it still misses. -/
theorem admitAll_total {r₀ r : Reg} (h : r₀.Recaptures r) {keys : List Key} (hnd : keys.Nodup)
    (hcap : r.missing keys ≤ r.vacants) (graph : Graph) (sor link index : Nat) :
    ∃ r', admitAll graph sor link index keys r = .ok () r' ∧ r₀.Recaptures r' := by
  induction keys generalizing r index with
  | nil => exact ⟨r, rfl, h⟩
  | cons k rest ih =>
    rw [List.nodup_cons] at hnd
    simp only [admitAll, bind_apply]
    cases hf : r.find k with
    | some i =>
      have ho := (find_some hf).1
      have hocc : ∀ j, ((r.setSlot i ((r.slots i).recaptured graph index)).slots j).Occupied ↔
          (r.slots j).Occupied := by
        intro j
        by_cases hj : j = i
        · subst hj
          rw [Reg.setSlot_same]
          refine ⟨fun _ => ho, fun _ hv => ?_⟩
          rw [Slot.recaptured_state] at hv
          unfold Slot.Occupied at ho
          split at hv <;> first | contradiction | (split at hv <;> contradiction)
        · rw [r.setSlot_other _ hj]
      have hkey : ∀ j, ((r.setSlot i ((r.slots i).recaptured graph index)).slots j).key =
          (r.slots j).key := by
        intro j
        by_cases hj : j = i
        · subst hj
          rw [Reg.setSlot_same, (Slot.recaptured_keeps _ _ _).key]
        · rw [r.setSlot_other _ hj]
      rw [admit_found hf]
      refine ih (h.found hf graph index) hnd.2 ?_ (index + 1)
      have hmiss : r.missing (k :: rest) = r.missing rest := by simp [Reg.missing, hf]
      have hvac : (r.setSlot i ((r.slots i).recaptured graph index)).vacants = r.vacants :=
        Counts.countP_congr fun j _ => by
          rw [decide_eq_decide, ← not_iff_not]
          exact hocc j
      rw [missing_congr (r := r), hvac, ← hmiss]
      · exact hcap
      · intro k' _
        simp only [hocc, hkey]
    | none =>
      have hmiss : r.missing (k :: rest) = r.missing rest + 1 := by simp [Reg.missing, hf]
      obtain ⟨i, hv⟩ := firstVacant_of_pos (r := r) (by omega)
      have hvi := firstVacant_some hv
      rw [admit_new hf hv]
      refine ih (h.new hf hv graph sor link index) hnd.2 ?_ (index + 1)
      have hvac : r.vacants = (r.admitted graph sor link index k i).vacants + 1 := by
        refine Counts.countP_turn_off (List.nodup_finRange _) (List.mem_finRange i) (by simpa using hvi)
          (by simp [Reg.admitted, Reg.newSlot]) fun j _ hj => ?_
        rw [Reg.admitted, Reg.setSlot_other _ _ hj]
      rw [missing_congr (r := r)]
      · omega
      · intro k' hk'
        have hne : k ≠ k' := fun he => hnd.1 (he ▸ hk')
        constructor
        · rintro ⟨j, ho, hk⟩
          have hj : j ≠ i := fun hj => ho (hj ▸ hvi)
          exact ⟨j, by rw [Reg.admitted, Reg.setSlot_other _ _ hj]; exact ⟨ho, hk⟩⟩
        · rintro ⟨j, ho, hk⟩
          by_cases hj : j = i
          · subst hj
            rw [Reg.admitted, Reg.setSlot_same] at hk
            exact absurd hk hne
          · rw [Reg.admitted, Reg.setSlot_other _ _ hj] at ho hk
            exact ⟨j, ho, hk⟩

/-! ## The whole recapture -/

theorem Reg.vacants_reclaim (r : Reg) (root : Nat) (keys : List Key) :
    (r.reclaim root keys).vacants =
      r.vacants + (List.finRange slotCount).countP fun i => (r.slots i).reclaimable root keys := by
  refine Counts.countP_disjoint fun i _ => ?_
  by_cases hr : (r.slots i).reclaimable root keys = true
  · have ho := (Slot.reclaimable_iff.1 hr).1
    unfold Slot.Occupied at ho
    simp [Reg.reclaim, hr, ho]
  · simp [Reg.reclaim, hr]

/-- A reclaimed slot is under none of the capture's keys. -/
theorem Reg.missing_reclaim (r : Reg) (root : Nat) (keys : List Key) :
    (r.reclaim root keys).missing keys = r.missing keys := by
  refine missing_congr fun k hk => ?_
  constructor
  · rintro ⟨i, ho, hkey⟩
    have hr : (r.slots i).reclaimable root keys = false := by
      rw [← Bool.not_eq_true]
      intro h
      exact (Slot.reclaimable_iff.1 h).2.2.2 (hkey ▸ hk)
    exact ⟨i, by simp only [Reg.reclaim, hr]; exact ⟨ho, hkey⟩⟩
  · rintro ⟨i, ho, hkey⟩
    simp only [Reg.reclaim] at ho hkey
    split at ho
    · exact absurd rfl ho
    · rename_i hr
      rw [if_neg hr] at hkey
      exact ⟨i, ho, hkey⟩

/-- The recapture fails before its first write, or completes; its `unreachable` is not reached. -/
theorem synchronize_cases {r : Reg} (hi : Inv r) (graph : Graph) (sor link mask : Nat) :
    (∃ e, e ≠ .Unreachable ∧ synchronize graph sor link mask r = .error e r) ∨
      ∃ r', synchronize graph sor link mask r = .ok () r' ∧ r.Recaptures r' := by
  simp only [synchronize, bind_apply, get_apply]
  by_cases hbad : badGraph r graph sor link mask
  · exact .inl ⟨.Stale, by simp, by rw [failIf_of hbad]⟩
  rw [failIf_of_not hbad]
  cases hroot : rootFor r graph with
  | error e => exact .inl ⟨e, fun h => rootFor_reachable r graph (h ▸ hroot), rfl⟩
  | ok root =>
  cases hsurvey : survey r mask (List.finRange slotCount) with
  | error e => exact .inl ⟨e, fun h => survey_reachable r mask _ (h ▸ hsurvey), rfl⟩
  | ok vacant =>
  cases hkeys : planKeys r graph sor link graph.sinkCount with
  | error e => exact .inl ⟨e, fun h => planKeys_reachable r graph sor link _ (h ▸ hkeys), rfl⟩
  | ok plan =>
  obtain ⟨keys, needed⟩ := plan
  cases hreclaim : planReclaim r graph.root keys (List.finRange slotCount) with
  | error e =>
    refine .inl ⟨e, fun h => planReclaim_reachable r _ keys _ (h ▸ hreclaim), ?_⟩
    simp only [lift_ok_apply, hreclaim, lift_error_apply]
  | ok reclaimed =>
  by_cases hcap : needed > vacant + reclaimed ∨ needed > maxU64 - r.nextSerial
  · exact .inl ⟨.Capacity, by simp, by simp only [lift_ok_apply, hreclaim]; rw [failIf_of hcap]⟩
  -- The checks have passed: every further statement is a write.
  obtain ⟨hslots, hvacant⟩ := survey_ok hsurvey
  obtain ⟨hnd, -, hneeded⟩ := planKeys_ok hkeys
  have hcount := planReclaim_ok hreclaim
  have hepoch : r.epoch ≠ 0 → graph.epoch = r.epoch := by
    intro he
    by_contra hne
    exact hbad (by simp [badGraph, he, Ne.symm hne])
  have h₁ := recaptures_header hi hepoch (fun i => hslots i (List.mem_finRange i)) root
  have h₂ := h₁.reclaim graph.root keys
  have hroom : ((r.header graph mask root).reclaim graph.root keys).missing keys ≤
      ((r.header graph mask root).reclaim graph.root keys).vacants := by
    rw [Reg.vacants_reclaim, Reg.missing_reclaim]
    have hm : (r.header graph mask root).missing keys = needed := hneeded.symm
    have hv : (r.header graph mask root).vacants = vacant := hvacant.symm
    have hc : (List.finRange slotCount).countP
        (fun i => ((r.header graph mask root).slots i).reclaimable graph.root keys) = reclaimed :=
      hcount.symm
    omega
  obtain ⟨r₃, hadmit, h₃⟩ := admitAll_total h₂ hnd hroom graph sor link 0
  refine .inr ⟨r₃.sweep graph, ?_, h₃.sweep graph⟩
  simp only [lift_ok_apply, hreclaim, modify_apply]
  rw [failIf_of_not hcap]
  have hadmit' := hadmit
  simp only [Reg.header] at hadmit'
  simp only [hadmit']

end Registry
end Mst
end NvidiaGsp
