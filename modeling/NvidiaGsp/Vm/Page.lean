import NvidiaGsp.Lib.Radix

/-!
# Vm.Page

The page-table entries of an externally owned GPU address space (`gsp_host_page.zig`): five levels
of tables, the field of an address each level reads, the key a table is indexed by, and the words of
directories and pages. Addresses and words are natural numbers; every shift stays inside 64 bits.

A table is known by its level and its `stem`, the address above the field it reads. `stem_split`
puts a field below a stem; the key, the slot and the words are injective.
-/

namespace NvidiaGsp
namespace Vm

open Radix

/-- The errors of the address space, its codec and its invalidation. -/
inductive Error where
  | Address | Alignment | Kind | Level | Bounds
  | State | Stale | Deadline | Register | Io
  | Busy | Memory | Retained | Descriptor | Exhausted
  deriving DecidableEq, Repr

def pageBytes : Nat := 4096
def vaLimit : Nat := 1 <<< 49
def systemLimit : Nat := 1 <<< 47
def videoLimit : Nat := 1 <<< 37

inductive Level where
  | root | pd2 | pd1 | dual | leaf
  deriving DecidableEq, Repr

def Level.toNat : Level → Nat
  | .root => 0
  | .pd2 => 1
  | .pd1 => 2
  | .dual => 3
  | .leaf => 4

/-- The level above; the root has none. -/
def Level.parent : Level → Level
  | .root => .root
  | .pd2 => .root
  | .pd1 => .pd2
  | .dual => .pd1
  | .leaf => .dual

inductive Aperture where
  | video | systemCoherent
  deriving DecidableEq, Repr

structure Policy where
  aperture : Aperture
  kind : Nat := 0
  cached : Bool := false
  readOnly : Bool := false
  privileged : Bool := false
  atomic : Bool := false
  deriving DecidableEq, Repr

def shift : Level → Nat
  | .root => 47
  | .pd2 => 38
  | .pd1 => 29
  | .dual => 21
  | .leaf => 12

def count : Level → Nat
  | .root => 4
  | .dual => 256
  | _ => 512

def stride (level : Level) : Nat := if level = .dual then 16 else 8

def extent (address length : Nat) : Except Error Unit :=
  if length = 0 ∨ address ≥ vaLimit ∨ length > vaLimit - address then .error .Bounds
  else if (address ||| length) &&& (pageBytes - 1) ≠ 0 then .error .Alignment
  else .ok ()

def index (level : Level) (address : Nat) : Except Error Nat :=
  if address ≥ vaLimit then .error .Address
  else .ok (address >>> shift level &&& (count level - 1))

def byteOffset (level : Level) (address : Nat) : Except Error Nat :=
  (index level address).map (· * stride level)

def tableKey (level : Level) (address : Nat) : Except Error Nat :=
  if address ≥ vaLimit then .error .Address
  else if level = .root then .ok 0
  else .ok ((address >>> shift level.parent) <<< 3 ||| level.toNat)

def physical (address : Nat) (aperture : Aperture) : Except Error Unit :=
  let limit := if aperture = .video then videoLimit else systemLimit
  if address ≥ limit ∨ aperture = .systemCoherent ∧ address = 0 then .error .Address
  else if address &&& (pageBytes - 1) ≠ 0 then .error .Alignment
  else .ok ()

/-- The word of a child table: coherent system memory, volatile, not a leaf. -/
def directory (address : Nat) : Except Error Nat :=
  (physical address .systemCoherent).map fun _ => address >>> 4 ||| 0x0c

def page (address : Nat) (policy : Policy) : Except Error Nat :=
  match physical address policy.aperture with
  | .error e => .error e
  | .ok _ =>
    if policy.kind > 6 then .error .Kind
    else .ok (address >>> 4 ||| 1 ||| (if policy.aperture = .systemCoherent then 4 else 0) |||
      (if policy.cached then 0 else 8) ||| (if policy.readOnly then 0x40 else 0) |||
      (if policy.privileged then 0x20 else 0) ||| (if policy.atomic then 0 else 0x80) |||
      policy.kind <<< 56)

/-- The word of a table that holds the entry of an address; the small-page word of a dual entry is
the second of its two. -/
def slotAt (level : Level) (address : Nat) : Except Error Nat :=
  (byteOffset level address).map fun offset => offset / 8 + if level = .dual then 1 else 0

/-! ## Fields and stems -/

/-- The address above the field a level reads. -/
def stem (level : Level) (address : Nat) : Nat :=
  if level = .root then 0 else address >>> shift level.parent

/-- The field a level reads. -/
def field (level : Level) (address : Nat) : Nat := address >>> shift level % count level

/-- The slot of a field. -/
def slotOf (level : Level) (n : Nat) : Nat := if level = .dual then 2 * n + 1 else n

section

variable {level : Level} {address n : Nat}

theorem field_lt : field level address < count level := by
  refine Nat.mod_lt _ ?_
  cases level <;> decide

theorem slotOf_lt (h : n < count level) : slotOf level n < 512 := by
  cases level <;> simp [slotOf, count] at * <;> omega

theorem slotOf_inj {m : Nat} (h : slotOf level n = slotOf level m) : n = m := by
  unfold slotOf at h
  split at h <;> omega

/-- The stem of the next level: one more field. -/
theorem stem_split (h : address < vaLimit) :
    address >>> shift level = stem level address * count level + field level address := by
  cases level with
  | root =>
    have hlt : address >>> 47 < 4 := by
      rw [Nat.shiftRight_eq_div_pow]
      unfold vaLimit at h
      omega
    simp [stem, field, shift, count, Nat.mod_eq_of_lt hlt]
  | pd2 => exact shift_split address 38 9
  | pd1 => exact shift_split address 29 9
  | dual => exact shift_split address 21 8
  | leaf => exact shift_split address 12 9

theorem stem_child (h : address < vaLimit) (hroot : level ≠ .root) :
    stem level address = stem level.parent address * count level.parent +
      field level.parent address := by
  rw [← stem_split h]
  simp [stem, hroot]

/-- Equal stems agree in every field above, and in the stems there. -/
theorem stem_parent {address' : Nat} (h : address < vaLimit) (h' : address' < vaLimit)
    (hroot : level ≠ .root) (heq : stem level address = stem level address') :
    stem level.parent address = stem level.parent address' ∧
      field level.parent address = field level.parent address' := by
  rw [stem_child h hroot, stem_child h' hroot] at heq
  have hf : field level.parent address < count level.parent := field_lt
  have hf' : field level.parent address' < count level.parent := field_lt
  have hdiv := congrArg (· / count level.parent) heq
  have hmod := congrArg (· % count level.parent) heq
  simp only [Nat.mul_comm _ (count level.parent), Nat.mul_add_div (Nat.zero_lt_of_lt hf),
    Nat.mul_add_mod, Nat.div_eq_of_lt hf, Nat.div_eq_of_lt hf', Nat.mod_eq_of_lt hf,
    Nat.mod_eq_of_lt hf', Nat.add_zero] at hdiv hmod
  exact ⟨hdiv, hmod⟩

theorem index_ok : index level address = .ok n ↔ address < vaLimit ∧ n = field level address := by
  have hmask : address >>> shift level &&& (count level - 1) = field level address := by
    cases level with
    | root => exact and_mask _ 2
    | pd2 => exact and_mask _ 9
    | pd1 => exact and_mask _ 9
    | dual => exact and_mask _ 8
    | leaf => exact and_mask _ 9
  unfold index
  rw [hmask]
  split
  · simp only [reduceCtorEq, false_iff, not_and]
    omega
  · simp only [Except.ok.injEq]
    constructor
    · rintro rfl
      exact ⟨by omega, rfl⟩
    · exact fun h => h.2.symm

theorem slotAt_ok : slotAt level address = .ok n ↔
    address < vaLimit ∧ n = slotOf level (field level address) := by
  have hslot (m : Nat) : m * stride level / 8 + (if level = .dual then 1 else 0) =
      slotOf level m := by
    unfold stride slotOf
    split <;> omega
  unfold slotAt byteOffset
  cases hi : index level address with
  | error e =>
    simp only [Except.map, reduceCtorEq, false_iff, not_and]
    intro hlt
    rw [index_ok.2 ⟨hlt, rfl⟩] at hi
    cases hi
  | ok m =>
    obtain ⟨hlt, rfl⟩ := index_ok.1 hi
    simp only [Except.map, hslot, Except.ok.injEq]
    exact ⟨fun h => ⟨hlt, h.symm⟩, fun h => h.2.symm⟩

/-! ## Keys -/

theorem tableKey_ok : tableKey level address = .ok n ↔
    address < vaLimit ∧ n = stem level address <<< 3 ||| level.toNat := by
  unfold tableKey
  split
  · simp only [reduceCtorEq, false_iff, not_and]
    omega
  · split
    · rename_i h hroot
      subst hroot
      simp only [Except.ok.injEq, stem, if_pos, Level.toNat]
      exact ⟨fun hn => ⟨by omega, hn.symm⟩, fun hn => hn.2.symm⟩
    · rename_i h hroot
      simp only [Except.ok.injEq, stem, if_neg hroot]
      exact ⟨fun hn => ⟨by omega, hn.symm⟩, fun hn => hn.2.symm⟩

/-- Distinct levels or stems have distinct keys. -/
theorem tableKey_inj {level' : Level} {address' : Nat} (h : tableKey level address = .ok n)
    (h' : tableKey level' address' = .ok n) :
    level = level' ∧ stem level address = stem level' address' := by
  obtain ⟨-, hn⟩ := tableKey_ok.1 h
  obtain ⟨-, hn'⟩ := tableKey_ok.1 h'
  have hlt (l : Level) : l.toNat < 2 ^ 3 := by cases l <;> decide
  obtain ⟨hstem, hlevel⟩ := shiftLeft_or_inj (hlt _) (hlt _) (hn.symm.trans hn')
  refine ⟨?_, hstem⟩
  revert hlevel
  cases level <;> cases level' <;> simp [Level.toNat]

end

/-! ## Words -/

theorem extent_ok {address length : Nat} {u : Unit} : extent address length = .ok u ↔
    0 < length ∧ address + length ≤ vaLimit ∧ address % 4096 = 0 ∧ length % 4096 = 0 := by
  have hmask : (address ||| length) &&& (pageBytes - 1) = 0 ↔
      address % 4096 = 0 ∧ length % 4096 = 0 := or_and_mask_eq_zero (k := 12)
  unfold extent
  split
  · simp only [reduceCtorEq, false_iff]
    omega
  · split
    · rename_i h
      simp only [reduceCtorEq, false_iff]
      rw [Ne, hmask] at h
      omega
    · rename_i h
      rw [Ne, hmask] at h
      simp only [true_iff]
      omega

theorem physical_ok {address : Nat} {aperture : Aperture} {u : Unit}
    (h : physical address aperture = .ok u) :
    address % 4096 = 0 ∧ address < systemLimit ∧ (aperture = .systemCoherent → address ≠ 0) := by
  unfold physical at h
  dsimp only at h
  generalize hl : (if aperture = .video then videoLimit else systemLimit) = limit at h
  have hle : limit ≤ systemLimit := by
    rw [← hl]
    split <;> decide
  have hmod : address &&& (pageBytes - 1) = address % 4096 := and_mask address 12
  rw [hmod] at h
  split at h
  · cases h
  · split at h
    · cases h
    · rename_i hlim hmask
      exact ⟨by omega, by omega, fun ha hz => hlim (.inr ⟨ha, hz⟩)⟩

/-- The table a directory word points at. -/
def pdeAddress (word : Nat) : Nat := word >>> 8 <<< 12

theorem directory_ok {address word : Nat} (h : directory address = .ok word) :
    address % 4096 = 0 ∧ pdeAddress word = address ∧ word ≠ 0 := by
  unfold directory at h
  cases hp : physical address .systemCoherent with
  | error e =>
    rw [hp] at h
    cases h
  | ok u =>
    rw [hp] at h
    cases h
    obtain ⟨halign, -, -⟩ := physical_ok hp
    obtain ⟨k, rfl⟩ : ∃ k, address = k * 4096 := ⟨address / 4096, by omega⟩
    have hshift : (k * 4096) >>> 4 ||| 0x0c = k * 2 ^ 8 + 0x0c := by
      rw [← shiftLeft_or (show 0x0c < 2 ^ 8 by decide), Nat.shiftLeft_eq, Nat.shiftRight_eq_div_pow]
      congr 1
      omega
    refine ⟨halign, ?_, or_ne_zero_right (by decide)⟩
    show ((k * 4096) >>> 4 ||| 0x0c) >>> 8 <<< 12 = k * 4096
    rw [hshift, Nat.shiftLeft_eq, Nat.shiftRight_eq_div_pow]
    omega

theorem directory_inj {address address' word : Nat} (h : directory address = .ok word)
    (h' : directory address' = .ok word) : address = address' :=
  (directory_ok h).2.1.symm.trans (directory_ok h').2.1

theorem page_ne_zero {address word : Nat} {policy : Policy} (h : page address policy = .ok word) :
    word ≠ 0 := by
  unfold page at h
  split at h
  · cases h
  · split at h
    · cases h
    · cases h
      have hone : address >>> 4 ||| 1 ≠ 0 := or_ne_zero_right (by decide)
      exact or_ne_zero_left (or_ne_zero_left (or_ne_zero_left (or_ne_zero_left (or_ne_zero_left
        (or_ne_zero_left hone)))))

end Vm
end NvidiaGsp
