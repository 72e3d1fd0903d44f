import NvidiaGsp.Lib.Memory

/-!
# Display.Context

The decoder of a display instance image: the bucket hash, one DMA-context descriptor, and the
lookup of a handle on a channel, which visits every bucket once, starting at its hash.
-/

namespace NvidiaGsp
namespace DisplayContext

open Bytes

def instanceBytes : Nat := 65536
def hashBytes : Nat := 8192
/-- The buckets of the hash table. -/
abbrev slots : Nat := 1024
def descriptorBytes : Nat := 20

inductive Error where
  | target | bounds | reserved | missing | duplicate | context
  deriving DecidableEq, Repr

inductive Target where
  | vram | pci | pciCoherent
  deriving DecidableEq, Repr

inductive Layout where
  | pitch | blockLinear
  deriving DecidableEq, Repr

structure Descriptor where
  address : Nat
  finish : Nat
  target : Target
  layout : Layout
  writable : Bool
  smallPage : Bool
  deriving DecidableEq, Repr

structure Resolved where
  entry : Nat
  offset : Nat
  descriptor : Descriptor
  deriving DecidableEq, Repr

/-- The bucket a handle hashes to, before it is narrowed to ten bits. -/
def hashWord (client : BitVec 14) (handle : Word) (channel : BitVec 7) : Word :=
  let c : Word := client.setWidth 32
  let ch : Word := channel.setWidth 32
  (handle &&& 0x3ff) ^^^ ((handle >>> 10) &&& 0x3ff) ^^^ ((handle >>> 20) &&& 0x3ff) ^^^
    (((c &&& 0xff) <<< 2) ||| (handle >>> 30)) ^^^
    (((ch &&& 15) <<< 6) ||| ((c >>> 8) &&& 63)) ^^^ ((ch >>> 4) &&& 7)

def hash (client : BitVec 14) (handle : Word) (channel : BitVec 7) : Fin slots :=
  Fin.ofNat slots (hashWord client handle channel).toNat

/-- The target a descriptor's low two bits name; the enumeration has no zero. -/
def targetOf (flags : Word) : Option Target :=
  match (flags &&& 3).toNat with
  | 1 => some .vram
  | 2 => some .pci
  | 3 => some .pciCoherent
  | _ => none

def decode (data : List Byte) : Except Error Descriptor :=
  let flags := word data 0
  if data.length ≠ descriptorBytes then .error .bounds
  else if flags &&& ~~~0x100047#32 ≠ 0 ∨ word data 8 &&& ~~~127#32 ≠ 0 ∨
      word data 16 &&& ~~~127#32 ≠ 0 then .error .reserved
  else
    match targetOf flags with
    | none => .error .target
    | some target =>
      let base := ((word data 4).toNat + (word data 8).toNat * 2 ^ 32) * 256
      -- the programmed limit is inclusive and drops eight address bits
      let finish := ((word data 12).toNat + (word data 16).toNat * 2 ^ 32 + 1) * 256
      if finish ≤ base then .error .bounds
      else .ok {
        address := base, finish := finish, target := target,
        layout := if flags &&& 0x100000 ≠ 0 then .blockLinear else .pitch,
        writable := flags &&& 4 ≠ 0, smallPage := flags &&& 64 ≠ 0 }

/-- A bucket holds this handle of this client on this channel. -/
def Hit (data : List Byte) (client : BitVec 14) (handle : Word) (channel : BitVec 7)
    (slot : Nat) : Prop :=
  let ctx := word data (slot * 8 + 4)
  (ctx >>> 14) &&& 0x7ff ≠ 0 ∧ word data (slot * 8) = handle ∧
    ctx &&& 0x3fff = client.setWidth 32 ∧ ctx >>> 25 = channel.setWidth 32

instance {data : List Byte} {client : BitVec 14} {handle : Word} {channel : BitVec 7} {slot : Nat} :
    Decidable (Hit data client handle channel slot) := by
  unfold Hit
  infer_instance

/-- What a bucket with this handle resolves to. -/
def resolve (data : List Byte) (slot : Nat) : Except Error Resolved :=
  let ctx := word data (slot * 8 + 4)
  let offset := ((ctx >>> 14) &&& 0x7ff).toNat * 32
  if offset < hashBytes ∨ offset > instanceBytes - descriptorBytes then .error .bounds
  else
    match decode ((data.drop offset).take descriptorBytes) with
    | .error e => .error e
    | .ok descriptor => .ok { entry := slot, offset := offset, descriptor := descriptor }

/-- One pass of the lookup's loop. -/
def visit (data : List Byte) (client : BitVec 14) (handle : Word) (channel : BitVec 7)
    (found : Option Resolved) (slot : Nat) : Except Error (Option Resolved) :=
  if Hit data client handle channel slot then
    if found.isSome then .error .duplicate
    else
      match resolve data slot with
      | .error e => .error e
      | .ok r => .ok (some r)
  else .ok found

/-- The buckets in the order the lookup visits them. -/
def order (start : Nat) : List Nat :=
  (List.range slots).map fun step => (start + step) &&& (slots - 1)

def lookup (data : List Byte) (client : BitVec 14) (handle : Word) (channel : BitVec 7) :
    Except Error Resolved :=
  if data.length ≠ instanceBytes ∨ handle = 0 then .error .context
  else
    match (order (hash client handle channel)).foldlM (visit data client handle channel) none with
    | .error e => .error e
    | .ok none => .error .missing
    | .ok (some r) => .ok r

/-! ## What a lookup finds -/

/-- The narrowing to ten bits loses nothing. -/
theorem hashWord_lt (client : BitVec 14) (handle : Word) (channel : BitVec 7) :
    (hashWord client handle channel).toNat < slots := by
  have hand (x m : Nat) (hm : m < 2 ^ 10) : x &&& m < 2 ^ 10 :=
    Nat.lt_of_le_of_lt Nat.and_le_right hm
  have hshift (x m k : Nat) (hm : m * 2 ^ k < 2 ^ 10) : (x &&& m) <<< k % 2 ^ 32 < 2 ^ 10 := by
    refine Nat.lt_of_le_of_lt (Nat.mod_le _ _) (Nat.lt_of_le_of_lt ?_ hm)
    rw [Nat.shiftLeft_eq]
    exact Nat.mul_le_mul_right _ Nat.and_le_right
  have hhandle : handle.toNat >>> 30 < 2 ^ 10 := by
    have := handle.isLt
    rw [Nat.shiftRight_eq_div_pow]
    omega
  simp only [hashWord, BitVec.toNat_xor, BitVec.toNat_or, BitVec.toNat_and, BitVec.toNat_shiftLeft]
  change _ < 2 ^ 10
  refine Nat.xor_lt_two_pow (Nat.xor_lt_two_pow (Nat.xor_lt_two_pow (Nat.xor_lt_two_pow
    (Nat.xor_lt_two_pow ?_ ?_) ?_) (Nat.or_lt_two_pow ?_ ?_)) (Nat.or_lt_two_pow ?_ ?_)) ?_
  · exact hand _ _ (by decide)
  · exact hand _ _ (by decide)
  · exact hand _ _ (by decide)
  · exact hshift _ _ _ (by decide)
  · exact hhandle
  · exact hshift _ _ _ (by decide)
  · exact hand _ _ (by decide)
  · exact hand _ _ (by decide)

theorem mem_order (start : Nat) {slot : Nat} (h : slot < slots) : slot ∈ order start := by
  refine List.mem_map.mpr ⟨(slot + slots - start % slots) % slots, by simp [Nat.mod_lt], ?_⟩
  rw [show slots - 1 = 2 ^ 10 - 1 from rfl, Nat.and_two_pow_sub_one_eq_mod]
  simp only [slots] at *
  omega

theorem lt_of_mem_order {start slot : Nat} (h : slot ∈ order start) : slot < slots := by
  obtain ⟨step, -, rfl⟩ := List.mem_map.mp h
  exact Nat.and_lt_two_pow _ (n := 10) (by decide)

theorem nodup_order (start : Nat) : (order start).Nodup := by
  refine List.Nodup.map_on (fun a ha b hb hab => ?_) List.nodup_range
  rw [show slots - 1 = 2 ^ 10 - 1 from rfl, Nat.and_two_pow_sub_one_eq_mod,
    Nat.and_two_pow_sub_one_eq_mod] at hab
  simp only [List.mem_range, slots] at ha hb
  omega

section

variable {data : List Byte} {client : BitVec 14} {handle : Word} {channel : BitVec 7}

theorem visit_none {l : List Nat} (h : ∀ slot ∈ l, ¬ Hit data client handle channel slot)
    (found : Option Resolved) : l.foldlM (visit data client handle channel) found = .ok found := by
  induction l with
  | nil => rfl
  | cons slot rest ih =>
    have hslot : visit data client handle channel found slot = .ok found :=
      if_neg (h slot (by simp))
    rw [List.foldlM_cons, hslot]
    exact ih fun s hs => h s (by simp [hs])

/-- A handle no bucket holds is missing. -/
theorem lookup_missing (hlen : data.length = instanceBytes) (hh : handle ≠ 0)
    (h : ∀ slot < slots, ¬ Hit data client handle channel slot) :
    lookup data client handle channel = .error .missing := by
  unfold lookup
  rw [if_neg (not_or.mpr ⟨not_not.mpr hlen, hh⟩),
    visit_none fun slot hs => h slot (lt_of_mem_order hs)]

theorem visit_one {before after : List Nat} {slot : Nat} {r : Resolved}
    (hit : Hit data client handle channel slot) (hr : resolve data slot = .ok r)
    (hb : ∀ s ∈ before, ¬ Hit data client handle channel s)
    (ha : ∀ s ∈ after, ¬ Hit data client handle channel s) :
    (before ++ slot :: after).foldlM (visit data client handle channel) none = .ok (some r) := by
  have hvisit : visit data client handle channel none slot = .ok (some r) := by
    simp [visit, hit, hr]
  have hrest : (slot :: after).foldlM (visit data client handle channel) none = .ok (some r) := by
    rw [List.foldlM_cons, hvisit]
    exact visit_none ha (some r)
  rw [List.foldlM_append, visit_none hb]
  exact hrest

/-- A handle exactly one bucket holds is what that bucket resolves to. -/
theorem lookup_found (hlen : data.length = instanceBytes) (hh : handle ≠ 0) {slot : Nat}
    {r : Resolved} (hs : slot < slots) (hit : Hit data client handle channel slot)
    (hother : ∀ s < slots, Hit data client handle channel s → s = slot)
    (hr : resolve data slot = .ok r) : lookup data client handle channel = .ok r := by
  obtain ⟨before, after, heq⟩ :=
    List.append_of_mem (mem_order (hash client handle channel) hs)
  have hnd := nodup_order (hash client handle channel)
  have hmem (s : Nat) (h : s ∈ before ∨ s ∈ after) : ¬ Hit data client handle channel s := by
    intro hs'
    have hmem : s ∈ order (hash client handle channel) := by
      rw [heq]
      rcases h with h | h <;> simp [h]
    have hlt : s < slots := lt_of_mem_order hmem
    obtain rfl := hother s hlt hs'
    rw [heq, List.perm_middle.nodup_iff, List.nodup_cons] at hnd
    exact hnd.1 (by simpa using h)
  unfold lookup
  rw [if_neg (not_or.mpr ⟨not_not.mpr hlen, hh⟩), heq,
    visit_one hit hr (fun s h => hmem s (.inl h)) fun s h => hmem s (.inr h)]

end

end DisplayContext
end NvidiaGsp
