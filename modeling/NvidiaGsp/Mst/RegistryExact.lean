import NvidiaGsp.Mst.RegistryRuns

/-!
# Mst.RegistryExact

What a recapture leaves in every slot. `Admitted` is the admission loop seen from one slot: kept as
it was, written again under its key, or taken by a key the registry missed. The last pass tells a
missing key by its generation; that works because every slot of a root is at most as young as the
root's record (`Dated`), in every run. `synchronize_run` puts the passes together.
-/

namespace NvidiaGsp
namespace Mst
namespace Registry

open Call

/-! ## The admission loop, slot by slot -/

/-- The slot that the admission of key `n` of the capture writes. -/
def fresh (graph : Graph) (sor link serial n : Nat) (k : Key) : Slot :=
  { serial, key := k, state := .reserved, generation := graph.generation,
    sourceReceipt := graph.completionReceipt, sink := n, sor, link }

/-- What the admission of `keys`, the first of them for sink `index`, makes of slot `i`. -/
inductive Admitted (r : Reg) (graph : Graph) (sor link index : Nat) (keys : List Key)
    (i : Fin slotCount) : Slot → Prop where
  | same (h : (r.slots i).Occupied → (r.slots i).key ∉ keys) :
      Admitted r graph sor link index keys i (r.slots i)
  | again {n : Nat} (ho : (r.slots i).Occupied) (hk : keys[n]? = some (r.slots i).key) :
      Admitted r graph sor link index keys i ((r.slots i).recaptured graph (index + n))
  | new {n serial : Nat} {k : Key} (hv : ¬ (r.slots i).Occupied) (hk : keys[n]? = some k)
      (hf : r.find k = none) : Admitted r graph sor link index keys i (fresh graph sor link serial (index + n) k)

/-- The slot holds key `k` for sink `n` of the capture. -/
structure Slot.Holds (s : Slot) (graph : Graph) (n : Nat) (k : Key) : Prop where
  occupied : s.Occupied
  key : s.key = k
  generation : s.generation = graph.generation
  receipt : s.sourceReceipt = graph.completionReceipt
  sink : s.sink = n

theorem Slot.recaptured_written (s : Slot) (graph : Graph) (index : Nat) :
    (s.recaptured graph index).generation = graph.generation ∧
      (s.recaptured graph index).sourceReceipt = graph.completionReceipt ∧
      (s.recaptured graph index).sink = index := by
  cases hs : s.state <;> simp [Slot.recaptured, hs]
  split <;> simp

theorem Slot.recaptured_occupied {s : Slot} (h : s.Occupied) (graph : Graph) (index : Nat) :
    (s.recaptured graph index).Occupied := by
  unfold Slot.Occupied at *
  rw [Slot.recaptured_state]
  cases hs : s.state with
  | vacant => exact absurd hs h
  | retiring =>
    dsimp only
    split <;> simp
  | _ => simp

theorem Slot.recaptured_holds {s : Slot} (h : s.Occupied) (graph : Graph) (index : Nat) :
    (s.recaptured graph index).Holds graph index s.key := by
  obtain ⟨hg, hr, hs⟩ := s.recaptured_written graph index
  exact ⟨s.recaptured_occupied h graph index, (s.recaptured_keeps graph index).key, hg, hr, hs⟩

theorem fresh_holds (graph : Graph) (sor link serial n : Nat) (k : Key) :
    (fresh graph sor link serial n k).Holds graph n k :=
  ⟨by simp [fresh, Slot.Occupied], rfl, rfl, rfl, rfl⟩

section

variable {r r' : Reg} {graph : Graph} {sor link mask index : Nat} {keys rest : List Key} {k : Key}
  {i j : Fin slotCount} {s : Slot}

/-- The loop goes on behind a key that was found in slot `j`. -/
theorem Admitted.found (hf : r.find k = some j) (hk : k ∉ rest)
    (hkeys : ∀ a b, (r.slots a).Occupied → (r.slots b).Occupied → (r.slots a).key = (r.slots b).key → a = b)
    (h : Admitted (r.setSlot j ((r.slots j).recaptured graph index)) graph sor link (index + 1) rest i s) :
    Admitted r graph sor link index (k :: rest) i s := by
  obtain ⟨hoj, hkj⟩ := find_some hf
  have hw := (r.slots j).recaptured_holds hoj graph index
  by_cases hij : i = j
  · subst hij
    generalize hr : r.setSlot i ((r.slots i).recaptured graph index) = r₁ at h
    have hslot : r₁.slots i = (r.slots i).recaptured graph index := by rw [← hr, Reg.setSlot_same]
    cases h with
    | same _ =>
      rw [hslot]
      exact .again (n := 0) hoj (by simp [hkj])
    | again _ hn =>
      rw [hslot, hw.key, hkj] at hn
      exact absurd (List.mem_of_getElem? hn) hk
    | new hv =>
      rw [hslot] at hv
      exact absurd hw.occupied hv
  · have hslot : (r.setSlot j ((r.slots j).recaptured graph index)).slots i = r.slots i :=
      r.setSlot_other _ hij
    generalize hr : r.setSlot j ((r.slots j).recaptured graph index) = r₁ at h hslot
    cases h with
    | same hnot =>
      rw [hslot] at hnot ⊢
      refine .same fun ho hmem => ?_
      rcases List.mem_cons.mp hmem with heq | hmem
      · exact hij (hkeys i j ho hoj (heq.trans hkj.symm))
      · exact hnot ho hmem
    | @again n ho hn =>
      rw [hslot] at ho hn ⊢
      rw [Nat.add_assoc, Nat.add_comm 1]
      exact .again (n := n + 1) ho hn
    | @new n serial k' hv hn hnone =>
      rw [hslot] at hv
      rw [Nat.add_assoc, Nat.add_comm 1]
      refine .new (n := n + 1) hv hn ?_
      rw [find_none] at hnone ⊢
      intro a ha hka
      by_cases haj : a = j
      · subst haj
        apply hnone a
        · rw [← hr, Reg.setSlot_same]
          exact hw.occupied
        · rw [← hr, Reg.setSlot_same, hw.key]
          exact hka
      · have ha' : r₁.slots a = r.slots a := by rw [← hr, r.setSlot_other _ haj]
        exact hnone a (ha' ▸ ha) (ha' ▸ hka)

/-- The loop goes on behind a key that was given the vacant slot `j`. -/
theorem Admitted.fresh (hf : r.find k = none) (hv : (r.slots j).state = .vacant) (hk : k ∉ rest)
    (h : Admitted (r.admitted graph sor link index k j) graph sor link (index + 1) rest i s) :
    Admitted r graph sor link index (k :: rest) i s := by
  by_cases hij : i = j
  · subst hij
    have hslot : (r.admitted graph sor link index k i).slots i =
        Registry.fresh graph sor link (r.nextSerial + 1) index k := by
      simp [Reg.admitted, Reg.newSlot, Registry.fresh]
    generalize r.admitted graph sor link index k i = r₁ at h hslot
    have hvac : ¬ (r.slots i).Occupied := fun ho => ho hv
    cases h with
    | same _ =>
      rw [hslot]
      exact .new (n := 0) hvac rfl hf
    | again _ hn =>
      rw [hslot] at hn
      exact absurd (List.mem_of_getElem? hn) hk
    | new hnot =>
      rw [hslot] at hnot
      exact absurd (fresh_holds _ _ _ _ _ _).occupied hnot
  · have hslot (a : Fin slotCount) (ha : a ≠ j) : (r.admitted graph sor link index k j).slots a = r.slots a := by
      rw [Reg.admitted, Reg.setSlot_other _ _ ha]
    generalize r.admitted graph sor link index k j = r₁ at h hslot
    have hi := hslot i hij
    cases h with
    | same hnot =>
      rw [hi] at hnot ⊢
      refine .same fun ho hmem => ?_
      rcases List.mem_cons.mp hmem with heq | hmem
      · exact find_none.1 hf i ho heq
      · exact hnot ho hmem
    | @again n ho hn =>
      rw [hi] at ho hn ⊢
      rw [Nat.add_assoc, Nat.add_comm 1]
      exact .again (n := n + 1) ho hn
    | @new n serial k' hnot hn hnone =>
      rw [hi] at hnot
      rw [Nat.add_assoc, Nat.add_comm 1]
      refine .new (n := n + 1) hnot hn ?_
      rw [find_none] at hnone ⊢
      intro a ha hka
      have haj : a ≠ j := fun haj => ha (haj ▸ hv)
      exact hnone a (hslot a haj ▸ ha) (hslot a haj ▸ hka)

/-- A key that is admitted stays where it is. -/
theorem Admitted.stays (hk : k ∉ keys) (hh : (r.slots i).Holds graph index k) {m : Nat}
    (h : Admitted r graph sor link m keys i s) : s.Holds graph index k := by
  cases h with
  | same => exact hh
  | again _ hn =>
    rw [hh.key] at hn
    exact absurd (List.mem_of_getElem? hn) hk
  | new hv => exact absurd hh.occupied hv

theorem admitAll_slots {r₀ : Reg} (hrec : r₀.Recaptures r) (hnd : keys.Nodup)
    (h : admitAll graph sor link index keys r = .ok () r') :
    (∀ i, Admitted r graph sor link index keys i (r'.slots i)) ∧
      (∀ n k, keys[n]? = some k → ∃ i, (r'.slots i).Holds graph (index + n) k) ∧ r'.roots = r.roots := by
  induction keys generalizing r index with
  | nil =>
    cases h
    exact ⟨fun _ => .same fun _ => List.not_mem_nil, nofun, rfl⟩
  | cons k rest ih =>
    obtain ⟨hk, hrest⟩ := List.nodup_cons.mp hnd
    simp only [admitAll, bind_ok_iff] at h
    obtain ⟨_, r₁, h₁, h₂⟩ := h
    have hnext {m : Nat} {r₁ : Reg} {j : Fin slotCount} (hj : (r₁.slots j).Holds graph m k)
        (hs : Admitted r₁ graph sor link (m + 1) rest j (r'.slots j))
        (hall : ∀ n k, rest[n]? = some k → ∃ i, (r'.slots i).Holds graph (m + 1 + n) k) (n : Nat) (k' : Key)
        (hn : (k :: rest)[n]? = some k') : ∃ i, (r'.slots i).Holds graph (m + n) k' := by
      cases n with
      | zero =>
        cases hn
        exact ⟨j, hs.stays hk hj⟩
      | succ n =>
        obtain ⟨i, hi⟩ := hall n k' hn
        exact ⟨i, by rwa [Nat.add_assoc, Nat.add_comm 1] at hi⟩
    cases hf : r.find k with
    | some j =>
      rw [admit_found hf] at h₁
      cases h₁
      have hoj := (find_some hf).1
      obtain ⟨hslots, hall, hroots⟩ := ih (hrec.found hf graph index) hrest h₂
      refine ⟨fun i => (hslots i).found hf hk hrec.inv.keys, hnext ?_ (hslots j) hall, hroots⟩
      rw [Reg.setSlot_same, ← (find_some hf).2]
      exact (r.slots j).recaptured_holds hoj graph index
    | none =>
      cases hv : r.firstVacant with
      | none =>
        simp [admitKey, bind_apply, hf, hv, need] at h₁
      | some j =>
        rw [admit_new hf hv] at h₁
        cases h₁
        obtain ⟨hslots, hall, hroots⟩ := ih (hrec.new hf hv graph sor link index) hrest h₂
        refine ⟨fun i => (hslots i).fresh hf (firstVacant_some hv) hk, hnext ?_ (hslots j) hall, hroots⟩
        rw [Reg.admitted, Reg.setSlot_same]
        exact fresh_holds graph sor link (r.nextSerial + 1) index k

end

/-! ## The keys of a capture -/

theorem planKeys_keys {r : Reg} {graph : Graph} {sor link n needed : Nat} {keys : List Key}
    (h : planKeys r graph sor link n = .ok (keys, needed)) :
    keys.length = n ∧ ∀ m k, keys[m]? = some k → key graph m = .ok k := by
  induction n generalizing keys needed with
  | zero =>
    cases h
    exact ⟨rfl, nofun⟩
  | succ n ih =>
    simp only [planKeys] at h
    split at h
    · cases h
    rename_i keys₀ needed₀ h₀
    obtain ⟨hlen, hget⟩ := ih h₀
    have hpush {k : Key} (hk : key graph n = .ok k) : (keys₀ ++ [k]).length = n + 1 ∧
        ∀ m k', (keys₀ ++ [k])[m]? = some k' → key graph m = .ok k' := by
      refine ⟨by simp [hlen], fun m k' hm => ?_⟩
      by_cases hlt : m < keys₀.length
      · rw [List.getElem?_append_left hlt] at hm
        exact hget m k' hm
      · have hin := (List.getElem?_eq_some_iff.mp hm).1
        have heq : m = n := by
          rw [List.length_append, List.length_singleton] at hin
          omega
        rw [List.getElem?_append_right (by omega), heq, hlen, Nat.sub_self] at hm
        cases hm
        rw [heq]
        exact hk
    split at h
    · cases h
    rename_i k hk
    split at h
    · cases h
    split at h
    · split at h
      · cases h
      · cases h
        exact hpush hk
    · cases h
      exact hpush hk

/-! ## The age of the slots -/

/-- Each root has one record, and no slot of a root is younger than its record. -/
structure Dated (r : Reg) : Prop where
  roots : ∀ i j, (r.roots i).id ≠ 0 → (r.roots i).id = (r.roots j).id → i = j
  slots : ∀ i, (r.slots i).Occupied → (r.slots i).key.root ≠ 0 ∧
    ∃ j, (r.roots j).id = (r.slots i).key.root ∧ (r.slots i).generation ≤ (r.roots j).generation

theorem dated_empty : Dated {} := ⟨fun _ _ h => absurd rfl h, fun _ h => absurd rfl h⟩

/-- A pass that keeps the roots and the age of every slot that stays. -/
theorem Dated.of_slots {r r' : Reg} (h : Dated r) (hroots : r'.roots = r.roots)
    (hs : ∀ i, (r'.slots i).Occupied → (r.slots i).Occupied ∧ (r'.slots i).key = (r.slots i).key ∧
      (r'.slots i).generation = (r.slots i).generation) : Dated r' := by
  refine ⟨by rw [hroots]; exact h.roots, fun i ho => ?_⟩
  obtain ⟨ho', hkey, hgen⟩ := hs i ho
  rw [hroots, hkey, hgen]
  exact h.slots i ho'

theorem Change.dated {r : Reg} {v : Handle} {i : Fin slotCount} {req : Request} {a : Answer} {s : Slot}
    (hc : Change r v i req a s) :
    s = {} ∨ s.key = (r.slots i).key ∧ s.generation = (r.slots i).generation := by
  cases hc with
  | retireBare => exact .inl rfl
  | freed => exact .inl rfl
  | _ => exact .inr ⟨rfl, rfl⟩

/-- The record that a recapture writes: the root's own, older than the capture, or an unused one. -/
theorem rootFor_ok {r : Reg} {graph : Graph} {root : Fin rootCount} (h : rootFor r graph = .ok root) :
    ((r.roots root).id = graph.root ∧ (r.roots root).generation < graph.generation) ∨
      ((r.roots root).id = 0 ∧ ∀ j, (r.roots j).id ≠ graph.root) := by
  unfold rootFor at h
  split at h
  · rename_i i hi
    have hid := List.find?_some hi
    split at h
    · cases h
    · rename_i hnot
      cases h
      exact .inl ⟨by simpa using hid, by omega⟩
  · rename_i hnone
    split at h
    · rename_i i hi
      cases h
      have hid := List.find?_some hi
      rw [List.find?_eq_none] at hnone
      exact .inr ⟨by simpa using hid, fun j hj => hnone j (List.mem_finRange j) (by simpa using hj)⟩
    · cases h

/-! ## The whole recapture -/

theorem synchronize_ok {r r' : Reg} {graph : Graph} {sor link mask : Nat}
    (h : synchronize graph sor link mask r = .ok () r') : ∃ root keys needed r₃,
      ¬ badGraph r graph sor link mask ∧ rootFor r graph = .ok root ∧
      (∀ i, (r.slots i).pending = .none ∧ (r.slots i).displayId &&& mask = 0) ∧
      planKeys r graph sor link graph.sinkCount = .ok (keys, needed) ∧
      admitAll graph sor link 0 keys ((r.header graph mask root).reclaim graph.root keys) = .ok () r₃ ∧
      r' = r₃.sweep graph := by
  simp only [synchronize, bind_ok_iff, get_apply, failIf_ok_iff, lift_ok_iff, modify_apply] at h
  obtain ⟨_, _, h₀, _, _, ⟨hbad, rfl⟩, root, _, ⟨hroot, rfl⟩, _, _, ⟨hsurvey, rfl⟩, ⟨keys, needed⟩, _,
    ⟨hkeys, rfl⟩, h⟩ := h
  cases h₀
  obtain ⟨_, _, ⟨-, rfl⟩, _, _, ⟨-, rfl⟩, _, _, h₁, _, _, h₂, _, _, h₃, _, r₃, hadmit, h₄⟩ := h
  cases h₁
  cases h₂
  cases h₃
  cases h₄
  exact ⟨root, keys, needed, r₃, hbad, hroot, fun i => (survey_ok hsurvey).1 i (List.mem_finRange i), hkeys,
    hadmit, rfl⟩

/-- What a recapture leaves: `keys` are the keys of the graph's sinks. -/
structure Reconciled (r : Reg) (graph : Graph) (keys : List Key) (r' : Reg) : Prop where
  listed : keys.length = graph.sinkCount ∧ ∀ n k, keys[n]? = some k → Registry.key graph n = .ok k
  held : ∀ n k, keys[n]? = some k →
    ∃ i, (r'.slots i).Holds graph n k ∧ ∀ j, (r'.slots j).has k = true → j = i
  kept : ∀ i, (r.slots i).Occupied → (r.slots i).key ∈ keys →
    (r.slots i).Keeps (r'.slots i) ∧ (r'.slots i).Occupied
  vacated : ∀ i, (r.slots i).Occupied → (r.slots i).key.root = graph.root → (r.slots i).key ∉ keys →
    (r.slots i).displayId = 0 → r'.find (r.slots i).key = none ∧
      ((r'.slots i).state = .vacant ∨ ∃ n k, (r'.slots i).Holds graph n k ∧ r.find k = none)
  retiring : ∀ i, (r.slots i).Occupied → (r.slots i).key.root = graph.root → (r.slots i).key ∉ keys →
    (r.slots i).displayId ≠ 0 → r'.slots i = { r.slots i with state := .retiring }
  others : ∀ i, (r.slots i).Occupied → (r.slots i).key.root ≠ graph.root → r'.slots i = r.slots i
  spare : ∀ i, (r.slots i).state = .vacant →
    (r'.slots i).state = .vacant ∨ ∃ n k, (r'.slots i).Holds graph n k ∧ r.find k = none

section

variable {r r₃ : Reg} {graph : Graph} {sor link mask : Nat} {keys : List Key} {root : Fin rootCount}
  {i : Fin slotCount}

theorem Reg.sweep_slots (r : Reg) (graph : Graph) (i : Fin slotCount) :
    (r.sweep graph).slots i = (r.slots i).swept graph := rfl

theorem Slot.swept_young {s : Slot} (h : s.generation = graph.generation) : s.swept graph = s := by
  unfold Slot.swept
  rw [if_neg]
  exact fun hn => hn.2.2 h

theorem Slot.swept_other {s : Slot} (h : s.key.root ≠ graph.root) : s.swept graph = s := by
  unfold Slot.swept
  rw [if_neg]
  exact fun hn => h hn.2.1

theorem reclaim_other (mask : Nat) (root : Fin rootCount)
    (h : (r.slots i).reclaimable graph.root keys = false) :
    ((r.header graph mask root).reclaim graph.root keys).slots i = r.slots i := by
  have hslot : (r.header graph mask root).slots i = r.slots i := rfl
  simp only [Reg.reclaim]
  rw [hslot, h]
  rfl

theorem reclaim_vacated (mask : Nat) (root : Fin rootCount)
    (h : (r.slots i).reclaimable graph.root keys = true) :
    ((r.header graph mask root).reclaim graph.root keys).slots i = {} := by
  have hslot : (r.header graph mask root).slots i = r.slots i := rfl
  simp only [Reg.reclaim]
  rw [hslot, if_pos h]

theorem not_reclaimable (h : ¬ ((r.slots i).Occupied ∧ (r.slots i).key.root = graph.root ∧
    (r.slots i).displayId = 0 ∧ (r.slots i).key ∉ keys)) : (r.slots i).reclaimable graph.root keys = false := by
  rw [← Bool.not_eq_true]
  exact fun hn => h (Slot.reclaimable_iff.1 hn)

/-- A key of the capture that the reclaimed registry misses was missing before. -/
theorem find_reclaim {k : Key} (hk : k ∈ keys)
    (h : ((r.header graph mask root).reclaim graph.root keys).find k = none) : r.find k = none := by
  rw [find_none] at h ⊢
  intro i ho hik
  have hsame : ((r.header graph mask root).reclaim graph.root keys).slots i = r.slots i :=
    reclaim_other _ _ (not_reclaimable fun hn => hn.2.2.2 (hik ▸ hk))
  exact h i (hsame ▸ ho) (hsame ▸ hik)

/-- A slot that is vacant when the loop starts ends vacant, or under a key that was missing. -/
theorem admitted_vacant {s : Slot}
    (hv : ((r.header graph mask root).reclaim graph.root keys).slots i = {})
    (h : Admitted ((r.header graph mask root).reclaim graph.root keys) graph sor link 0 keys i s) :
    (s.swept graph).state = .vacant ∨ ∃ n k, (s.swept graph).Holds graph n k ∧ r.find k = none := by
  generalize hr : (r.header graph mask root).reclaim graph.root keys = r₂ at *
  cases h with
  | same =>
    rw [hv]
    exact .inl rfl
  | again ho =>
    rw [hv] at ho
    exact absurd rfl ho
  | @new n serial k _ hn hf =>
    have hh := fresh_holds graph sor link serial (0 + n) k
    have hnone : r.find k = none := find_reclaim (List.mem_of_getElem? hn) (hr ▸ hf)
    refine .inr ⟨0 + n, k, ?_, hnone⟩
    rw [Slot.swept_young hh.generation]
    exact hh

/-- What a slot that is occupied after the loop was before it. -/
theorem admitted_key {s : Slot} (ho : s.Occupied)
    (h : Admitted ((r.header graph mask root).reclaim graph.root keys) graph sor link 0 keys i s) :
    s.key ∈ keys ∨ s = r.slots i ∧ (r.slots i).reclaimable graph.root keys = false := by
  cases hrec : (r.slots i).reclaimable graph.root keys with
  | true =>
    have hv := reclaim_vacated mask root hrec
    generalize (r.header graph mask root).reclaim graph.root keys = r₂ at *
    cases h with
    | same =>
      rw [hv] at ho
      exact absurd rfl ho
    | again ho' =>
      rw [hv] at ho'
      exact absurd rfl ho'
    | new _ hn => exact .inl (List.mem_of_getElem? hn)
  | false =>
    have hsame := reclaim_other mask root hrec
    generalize (r.header graph mask root).reclaim graph.root keys = r₂ at *
    cases h with
    | same => exact .inr ⟨hsame, rfl⟩
    | again _ hn =>
      rw [(Slot.recaptured_keeps _ _ _).key]
      exact .inl (List.mem_of_getElem? hn)
    | new _ hn => exact .inl (List.mem_of_getElem? hn)

theorem Slot.swept_occupied {s : Slot} (h : (s.swept graph).Occupied) :
    s.Occupied ∧ (s.swept graph).key = s.key ∧ (s.swept graph).generation = s.generation := by
  unfold Slot.swept at *
  split at h
  · rename_i hc
    split at h
    · exact absurd rfl h
    · rename_i hd
      rw [if_pos hc, if_neg hd]
      exact ⟨hc.1, rfl, rfl⟩
  · rename_i hc
    rw [if_neg hc]
    exact ⟨h, rfl, rfl⟩

/-- An occupied slot whose key the capture does not name passes the loop unchanged. -/
theorem admitted_other {s : Slot} (ho : (r.slots i).Occupied) (hk : (r.slots i).key ∉ keys)
    (hrec : (r.slots i).reclaimable graph.root keys = false)
    (h : Admitted ((r.header graph mask root).reclaim graph.root keys) graph sor link 0 keys i s) :
    s = r.slots i := by
  have hsame := reclaim_other mask root hrec
  generalize (r.header graph mask root).reclaim graph.root keys = r₂ at *
  cases h with
  | same => exact hsame
  | again _ hn =>
    rw [hsame] at hn
    exact absurd (List.mem_of_getElem? hn) hk
  | new hv =>
    rw [hsame] at hv
    exact absurd ho hv

/-- A slot of the root is older than the capture. -/
theorem Dated.older (hd : Dated r) (hroot : rootFor r graph = .ok root) (ho : (r.slots i).Occupied)
    (hkr : (r.slots i).key.root = graph.root) : (r.slots i).generation < graph.generation := by
  obtain ⟨hz, j, hj, hle⟩ := hd.slots i ho
  rcases rootFor_ok hroot with ⟨hid, hlt⟩ | ⟨-, hnone⟩
  · have hne : (r.roots j).id ≠ 0 := by rwa [hj]
    obtain rfl : j = root := hd.roots j root hne (hj.trans (hkr.trans hid.symm))
    omega
  · exact absurd (hj.trans hkr) (hnone j)

theorem reconciled (hi : Inv r) (hd : Dated r) (hroot : rootFor r graph = .ok root)
    (hkeys : ∀ n k, keys[n]? = some k → key graph n = .ok k) (hlen : keys.length = graph.sinkCount)
    (hslots : ∀ i, Admitted ((r.header graph mask root).reclaim graph.root keys) graph sor link 0 keys i
      (r₃.slots i))
    (hall : ∀ n k, keys[n]? = some k → ∃ i, (r₃.slots i).Holds graph (0 + n) k)
    (hi' : Inv (r₃.sweep graph)) : Reconciled r graph keys (r₃.sweep graph) := by
  have hroots {k : Key} (hk : k ∈ keys) : k.root = graph.root := by
    obtain ⟨n, hn⟩ := List.mem_iff_getElem?.mp hk
    exact key_root (hkeys n k hn)
  have hheld (n : Nat) (k : Key) (hn : keys[n]? = some k) :
      ∃ i, ((r₃.sweep graph).slots i).Holds graph n k := by
    obtain ⟨i, hh⟩ := hall n k hn
    rw [Nat.zero_add] at hh
    exact ⟨i, by rwa [Reg.sweep_slots, Slot.swept_young hh.generation]⟩
  refine ⟨⟨hlen, hkeys⟩, fun n k hn => ?_, fun i ho hk => ?_, fun i ho hkr hk hz => ?_,
    fun i ho hkr hk hz => ?_, fun i ho hkr => ?_, fun i hv => ?_⟩
  · obtain ⟨i, hh⟩ := hheld n k hn
    refine ⟨i, hh, fun j hj => ?_⟩
    obtain ⟨hoj, hkj⟩ := Slot.has_iff.1 hj
    exact hi'.keys j i hoj hh.occupied (hkj.trans hh.key.symm)
  · have hsame := reclaim_other mask root
      (not_reclaimable fun hn : (r.slots i).Occupied ∧ (r.slots i).key.root = graph.root ∧
        (r.slots i).displayId = 0 ∧ (r.slots i).key ∉ keys => hn.2.2.2 hk)
    have hs := hslots i
    obtain ⟨n, hs⟩ : ∃ n, r₃.slots i = (r.slots i).recaptured graph n := by
      generalize (r.header graph mask root).reclaim graph.root keys = r₂ at *
      generalize r₃.slots i = s at *
      cases hs with
      | same hnot =>
        rw [hsame] at hnot
        exact absurd hk (hnot ho)
      | again =>
        rw [hsame]
        exact ⟨_, rfl⟩
      | new hv =>
        rw [hsame] at hv
        exact absurd ho hv
    have hh := (r.slots i).recaptured_holds ho graph n
    rw [Reg.sweep_slots, hs, Slot.swept_young hh.generation]
    exact ⟨(r.slots i).recaptured_keeps graph n, hh.occupied⟩
  · have hrec := Slot.reclaimable_iff.2 ⟨ho, hkr, hz, hk⟩
    refine ⟨find_none.2 fun j hoj hkj => ?_, admitted_vacant (reclaim_vacated _ _ hrec) (hslots i)⟩
    obtain ⟨hoj', hkey, -⟩ := Slot.swept_occupied hoj
    have hkj' : (r₃.slots j).key = (r.slots i).key := hkey.symm.trans hkj
    rcases admitted_key hoj' (hslots j) with hin | ⟨heq, hnot⟩
    · exact hk (hkj' ▸ hin)
    · rw [heq] at hoj' hkj'
      obtain rfl := hi.keys j i hoj' ho hkj'
      rw [hrec] at hnot
      cases hnot
  · have hrec : (r.slots i).reclaimable graph.root keys = false :=
      not_reclaimable fun hn => hz hn.2.2.1
    have hgen := Nat.ne_of_lt (hd.older hroot ho hkr)
    rw [Reg.sweep_slots, admitted_other ho hk hrec (hslots i)]
    unfold Slot.swept
    rw [if_pos ⟨ho, hkr, hgen⟩, if_neg hz]
  · have hk : (r.slots i).key ∉ keys := fun hk => hkr (hroots hk)
    have hrec : (r.slots i).reclaimable graph.root keys = false :=
      not_reclaimable fun hn => hkr hn.2.1
    rw [Reg.sweep_slots, admitted_other ho hk hrec (hslots i), Slot.swept_other hkr]
  · have hrec : (r.slots i).reclaimable graph.root keys = false :=
      not_reclaimable fun hn => hn.1 hv
    have hempty : ((r.header graph mask root).reclaim graph.root keys).slots i = {} := by
      rw [reclaim_other _ _ hrec, (hi.ok i).vacant hv]
    exact admitted_vacant hempty (hslots i)

end

/-- The records and the slots after a recapture. -/
theorem Dated.synchronized {r r' : Reg} {graph : Graph} {root : Fin rootCount} (hd : Dated r)
    (hroot : rootFor r graph = .ok root) (hz : graph.root ≠ 0)
    (hroots : r'.roots = Function.update r.roots root ⟨graph.root, graph.generation, graph.completionReceipt⟩)
    (hin : ∀ i, (r'.slots i).Occupied →
      (∃ n k, (r'.slots i).Holds graph n k ∧ k.root = graph.root) ∨ (r.slots i).Occupied ∧
        (r'.slots i).key = (r.slots i).key ∧ (r'.slots i).generation = (r.slots i).generation) : Dated r' := by
  have hroot' := rootFor_ok hroot
  have hother {j : Fin rootCount} (hj : j ≠ root) : r'.roots j = r.roots j := by
    rw [hroots, Function.update_of_ne hj]
  have hown : r'.roots root = ⟨graph.root, graph.generation, graph.completionReceipt⟩ := by
    rw [hroots, Function.update_self]
  have hno {j : Fin rootCount} (hj : j ≠ root) : (r.roots j).id ≠ graph.root := by
    rcases hroot' with ⟨hid, -⟩ | ⟨-, hnone⟩
    · intro heq
      exact hj (hd.roots j root (heq ▸ hz) (heq.trans hid.symm))
    · exact hnone j
  refine ⟨fun i j hi hij => ?_, fun i ho => ?_⟩
  · by_cases hir : i = root <;> by_cases hjr : j = root
    · rw [hir, hjr]
    · rw [hir, hown, hother hjr] at hij
      exact absurd hij.symm (hno hjr)
    · rw [hjr, hown, hother hir] at hij
      exact absurd hij (hno hir)
    · rw [hother hir, hother hjr] at hij
      rw [hother hir] at hi
      exact hd.roots i j hi hij
  · rcases hin i ho with ⟨n, k, hh, hkr⟩ | ⟨ho', hkey, hgen⟩
    · rw [hh.key, hkr, hh.generation]
      exact ⟨hz, root, by rw [hown], by rw [hown]⟩
    · rw [hkey, hgen]
      by_cases hkr : (r.slots i).key.root = graph.root
      · have hlt := hd.older hroot ho' hkr
        refine ⟨hkr ▸ hz, root, by rw [hown]; exact hkr.symm, ?_⟩
        rw [hown]
        exact Nat.le_of_lt hlt
      · obtain ⟨hne, j, hj, hle⟩ := hd.slots i ho'
        have hjr : j ≠ root := by
          rintro rfl
          rcases hroot' with ⟨hid, -⟩ | ⟨hid, -⟩
          · exact hkr (hj.symm.trans hid)
          · exact hne (hj.symm.trans hid)
        exact ⟨hne, j, by rw [hother hjr]; exact hj, by rw [hother hjr]; exact hle⟩

/-- A recapture that returns reconciles the slots with the graph, and keeps them dated. -/
theorem synchronize_reconciled {r r' : Reg} {graph : Graph} {sor link mask : Nat} (hi : Inv r) (hd : Dated r)
    (h : synchronize graph sor link mask r = .ok () r') : (∃ keys, Reconciled r graph keys r') ∧ Dated r' := by
  have hi' : Inv r' := by
    rcases synchronize_cases hi graph sor link mask with ⟨e, -, he⟩ | ⟨r₁, hok, hrec⟩
    · rw [h] at he
      cases he
    · rw [h] at hok
      cases hok
      exact hrec.inv
  obtain ⟨root, keys, needed, r₃, hbad, hroot, hslots, hkeys, hadmit, rfl⟩ := synchronize_ok h
  obtain ⟨hlen, hget⟩ := planKeys_keys hkeys
  obtain ⟨hnd, hkroot, -⟩ := planKeys_ok hkeys
  have hepoch : r.epoch ≠ 0 → graph.epoch = r.epoch := by
    intro he
    by_contra hne
    exact hbad (by simp [badGraph, he, Ne.symm hne])
  have hz : graph.root ≠ 0 := by
    intro hz
    exact hbad (by simp [badGraph, notSingleBit, hz])
  have h₂ := (recaptures_header hi hepoch hslots root).reclaim graph.root keys
  obtain ⟨hall, hheld, hroots⟩ := admitAll_slots h₂ hnd hadmit
  have hrec := reconciled hi hd hroot hget hlen hall hheld hi'
  refine ⟨⟨keys, hrec⟩, hd.synchronized hroot hz hroots fun i ho => ?_⟩
  obtain ⟨ho₃, hkey, hgen⟩ := Slot.swept_occupied ho
  rcases admitted_key ho₃ (hall i) with hin | ⟨heq, -⟩
  · obtain ⟨n, hn⟩ := List.mem_iff_getElem?.mp hin
    obtain ⟨j, hh, honly⟩ := hrec.held n _ hn
    obtain rfl := honly i (Slot.has_iff.2 ⟨ho, hkey⟩)
    exact .inl ⟨n, _, hh, hkroot _ hin⟩
  · rw [Reg.sweep_slots, hkey, hgen]
    rw [heq] at ho₃ ⊢
    exact .inr ⟨ho₃, rfl, rfl⟩

/-! ## Runs -/

theorem Effect.dated {r r' : Reg} {req : Request} {a : Answer} (he : Effect r req a r')
    (hreq : ∀ graph sor link mask, req ≠ .synchronize graph sor link mask) (hd : Dated r) : Dated r' := by
  have hleases (handles : List Handle) (lease : Option StreamLease) : Dated (r.setLeases handles lease) := by
    refine hd.of_slots (r.setLeases_roots handles lease) fun i ho => ?_
    have hslot := r.setLeases_slots handles lease i
    split at hslot
    · rw [hslot] at ho ⊢
      exact ⟨ho, rfl, rfl⟩
    · rw [hslot] at ho ⊢
      exact ⟨ho, rfl, rfl⟩
  cases he with
  | failed => exact hd
  | @onSlot _ _ v i s hr hc =>
    refine hd.of_slots rfl fun j ho => ?_
    by_cases hj : j = i
    · subst hj
      rw [Reg.setSlot_same] at ho ⊢
      rcases hc.dated with rfl | ⟨hkey, hgen⟩
      · exact absurd rfl ho
      · exact ⟨hr.2.2.2.2.2, hkey, hgen⟩
    · rw [r.setSlot_other s hj] at ho ⊢
      exact ⟨ho, rfl, rfl⟩
  | hold => exact hleases _ _
  | release => exact hleases _ _
  | synchronize => exact absurd rfl (hreq _ _ _ _)

theorem dated_run {h : List Step} {r : Reg} (hr : Run step {} h r) : Inv r ∧ Dated r := by
  apply hr.invariant (P := fun _ r => Inv r ∧ Dated r)
  · exact ⟨inv_empty, dated_empty⟩
  · rintro h r req a r' ⟨hi, hd⟩ hstep
    have he := step_effect hi hstep
    refine ⟨he.inv hi, ?_⟩
    cases req with
    | synchronize graph sor link mask =>
      simp only [step, perform, answer] at hstep
      cases hs : synchronize graph sor link mask r with
      | ok u r₁ =>
        rw [hs] at hstep
        cases hstep
        exact (synchronize_reconciled hi hd hs).2
      | error e r₁ =>
        rw [hs] at hstep
        cases hstep
        rw [he.unchanged rfl]
        exact hd
    | _ => exact he.dated (fun _ _ _ _ h => by cases h) hd

/-- In every reachable registry a recapture fails and changes nothing, without having reached its
`unreachable`, or it reconciles the slots with the sinks of the graph. -/
theorem synchronize_run {h : List Step} {r : Reg} (hr : Run step {} h r) (graph : Graph)
    (sor link mask : Nat) :
    (∃ e, e ≠ .Unreachable ∧ synchronize graph sor link mask r = .error e r) ∨
      ∃ r' keys, synchronize graph sor link mask r = .ok () r' ∧ Reconciled r graph keys r' := by
  obtain ⟨hi, hd⟩ := dated_run hr
  rcases synchronize_cases hi graph sor link mask with ⟨e, hne, he⟩ | ⟨r', hok, -⟩
  · exact .inl ⟨e, hne, he⟩
  · obtain ⟨⟨keys, hrec⟩, -⟩ := synchronize_reconciled hi hd hok
    exact .inr ⟨r', keys, hok, hrec⟩

/-- The registry with one allocated ID, recaptured under the same key. -/
theorem synchronize_run_again : ∃ r' keys,
    synchronize (oneSink 2 9) 0 0 1 (exec step {} (lifeOfOneId.take 3)).2 = .ok () r' ∧
      Reconciled (exec step {} (lifeOfOneId.take 3)).2 (oneSink 2 9) keys r' := by
  have hrun : Run step {} (exec step {} (lifeOfOneId.take 3)).1 (exec step {} (lifeOfOneId.take 3)).2 :=
    Run.of_exec _ _ _
  rcases synchronize_run hrun (oneSink 2 9) 0 0 1 with ⟨e, -, he⟩ | h
  · have hout : (step (exec step {} (lifeOfOneId.take 3)).2 (.synchronize (oneSink 2 9) 0 0 1)).1 = .done := by
      decide +kernel
    simp only [step, perform, answer] at hout
    rw [he] at hout
    cases hout
  · exact h

end Registry
end Mst
end NvidiaGsp
