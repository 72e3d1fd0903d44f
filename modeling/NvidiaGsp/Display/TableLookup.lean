import NvidiaGsp.Display.TableCopy

/-!
# Display.TableLookup

The decoder on the device's memory: where the device shows exactly the live entries, a lookup finds
each of them with its own range and target, and nothing else.
-/

namespace NvidiaGsp
namespace DisplayTable

open Call Bytes Memory
open DisplayContext (slots lookup Hit resolve decode)

variable {w : World} {t : Table} {d : Descriptor} {i : Fin capacity} {b : Fin slots}
  {client handle : Word} {channel : BitVec 7}

/-! ## A bucket's second word -/

theorem contextWord_toNat {ch : Word} (h : ch.toNat ≤ 8) : (contextWord client ch i).toNat =
    (ch.toNat * 2 ^ 11 + (256 + i)) * 2 ^ 14 + client.toNat % 2 ^ 14 := by
  have hi := i.isLt
  have hoff : (BitVec.ofNat 32 (slotOffset i) <<< 9).toNat = (256 + i) * 2 ^ 14 := by
    simp only [BitVec.toNat_shiftLeft, BitVec.toNat_ofNat, slotOffset, ramhtBytes, descriptorBytes,
      Nat.shiftLeft_eq, capacity] at *
    omega
  have hch : (ch <<< 25).toNat = ch.toNat <<< 25 := by
    rw [BitVec.toNat_shiftLeft, Nat.shiftLeft_eq]
    omega
  have hand : (client &&& 0x3fff).toNat = client.toNat % 2 ^ 14 :=
    (BitVec.toNat_and ..).trans (Nat.and_two_pow_sub_one_eq_mod _ 14)
  rw [contextWord, BitVec.toNat_or, BitVec.toNat_or, hoff, hch, hand,
    ← Nat.shiftLeft_add_eq_or_of_lt (by simp only [capacity] at hi; omega), Nat.shiftLeft_eq,
    show ch.toNat * 2 ^ 25 + (256 + i) * 2 ^ 14 = (ch.toNat * 2 ^ 11 + (256 + i)) <<< 14 by
      rw [Nat.shiftLeft_eq]; omega,
    ← Nat.shiftLeft_add_eq_or_of_lt (Nat.mod_lt _ (by decide)), Nat.shiftLeft_eq]

theorem object_toNat {x : Word} : ((x >>> 14) &&& 0x7ff).toNat = x.toNat / 2 ^ 14 % 2 ^ 11 := by
  rw [BitVec.toNat_and, BitVec.toNat_ushiftRight, Nat.shiftRight_eq_div_pow]
  exact Nat.and_two_pow_sub_one_eq_mod _ 11

theorem object_contextWord {ch : Word} (h : ch.toNat ≤ 8) :
    ((contextWord client ch i >>> 14) &&& 0x7ff).toNat = 256 + i := by
  have hi := i.isLt
  rw [object_toNat, contextWord_toNat h]
  simp only [capacity] at hi
  omega

theorem client_contextWord {ch : Word} (h : ch.toNat ≤ 8) :
    contextWord client ch i &&& 0x3fff = (client.setWidth 14).setWidth 32 := by
  apply BitVec.eq_of_toNat_eq
  rw [BitVec.toNat_and, contextWord_toNat h, BitVec.toNat_setWidth, BitVec.toNat_setWidth]
  refine (Nat.and_two_pow_sub_one_eq_mod _ 14).trans ?_
  omega

theorem channel_contextWord {ch : Word} (h : ch.toNat ≤ 8) : contextWord client ch i >>> 25 = ch := by
  have hi := i.isLt
  apply BitVec.eq_of_toNat_eq
  rw [BitVec.toNat_ushiftRight, contextWord_toNat h, Nat.shiftRight_eq_div_pow]
  simp only [capacity] at hi
  omega

/-! ## Reading the device -/

/-- The device's instance memory as the decoder takes it. -/
def instanceOf (device : Memory) : List Byte := peek device 0 DisplayContext.instanceBytes

variable {device : Memory}

theorem length_instanceOf : (instanceOf device).length = DisplayContext.instanceBytes := length_peek

theorem word_instanceOf {o : Nat} (h : o + 4 ≤ DisplayContext.instanceBytes) :
    word (instanceOf device) o = wordAt device o := by
  rw [instanceOf, word_peek h, Nat.zero_add]

theorem slot_lt (b : Fin slots) : b * 8 + 8 ≤ DisplayContext.instanceBytes := by
  have := b.isLt
  simp only [DisplayContext.instanceBytes, slots] at *
  omega

theorem not_hit_blank (h : Bucket device b 0 0) :
    ¬ Hit (instanceOf device) (client.setWidth 14) handle channel b := by
  have := slot_lt b
  intro hit
  apply hit.1
  rw [word_instanceOf (by omega), h.2]
  rfl

theorem hit_iff (h : Bucket device b d.handle (contextWord client d.channel i))
    (hd : d.channel.toNat ≤ 8) :
    Hit (instanceOf device) (client.setWidth 14) handle channel b ↔
      d.handle = handle ∧ d.channel = channel.setWidth 32 := by
  have := slot_lt b
  have hobject : (contextWord client d.channel i >>> 14) &&& 0x7ff ≠ 0 := by
    intro h0
    have := congrArg BitVec.toNat h0
    rw [object_contextWord hd] at this
    simp at this
  have h₁ : word (instanceOf device) (b * 8) = d.handle := (word_instanceOf (by omega)).trans h.1
  have h₂ : word (instanceOf device) (b * 8 + 4) = contextWord client d.channel i :=
    (word_instanceOf (by omega)).trans h.2
  unfold Hit
  simp only [h₁, h₂, client_contextWord hd, channel_contextWord hd]
  exact ⟨fun h => ⟨h.2.1, h.2.2.2⟩, fun h => ⟨hobject, h.1, trivial, h.2⟩⟩

theorem word_slot {k : Nat} (hk : k + 4 ≤ DisplayContext.descriptorBytes) :
    word (((instanceOf device).drop (slotOffset i)).take DisplayContext.descriptorBytes) k =
      wordAt device (slotOffset i + k) := by
  have h₁ := slot_inside i
  rw [← word_instanceOf (by
    simp only [DisplayContext.descriptorBytes, DisplayContext.instanceBytes, imageBytes, ramhtBytes,
      capacity, descriptorBytes] at *
    omega)]
  exact word_congr fun j hj => by
    rw [getD_part (by omega), Nat.add_assoc]

/-- What a descriptor says, in the decoder's terms. -/
def hardware (d : Descriptor) : DisplayContext.Descriptor where
  address := d.physical
  finish := d.physical + d.bytes
  target := if d.target = .vram then .vram else .pciCoherent
  layout := .pitch
  writable := true
  smallPage := d.pageSize = .small

theorem decode_words {data : List Byte} (hlen : data.length = DisplayContext.descriptorBytes)
    (h₀ : word data 0 = (descriptor d).getD 0 0) (h₁ : (word data 4).toNat = d.physical / 256)
    (h₂ : word data 8 = 0) (h₃ : (word data 12).toNat = (d.physical + d.bytes - 1) / 256)
    (h₄ : word data 16 = 0) (hp : d.physical / 256 * 256 = d.physical)
    (hb : ((d.physical + d.bytes - 1) / 256 + 1) * 256 = d.physical + d.bytes)
    (hpos : 0 < d.bytes) : decode data = .ok (hardware d) := by
  have hflags : word data 0 = (if d.target = .vram then 5 else 7) |||
      (if d.pageSize = .small then 0x40 else 0) := h₀
  unfold decode
  rw [if_neg (not_not.mpr hlen), h₂, h₄, h₁, h₃, hflags]
  cases ht : d.target <;> cases hs : d.pageSize <;>
    simp [hardware, ht, hs, hp, hb, DisplayContext.targetOf] <;> omega

theorem decode_slot (h : Slot device i d) (hv : validate d = .ok ()) :
    decode (((instanceOf device).drop (slotOffset i)).take DisplayContext.descriptorBytes) =
      .ok (hardware d) := by
  obtain ⟨-, -, hp, hb, hb', hsum⟩ := validate_ok hv
  have hlen : (((instanceOf device).drop (slotOffset i)).take
      DisplayContext.descriptorBytes).length = DisplayContext.descriptorBytes := by
    have := slot_inside i
    rw [List.length_take, List.length_drop, length_instanceOf]
    simp only [DisplayContext.descriptorBytes, DisplayContext.instanceBytes, imageBytes, ramhtBytes,
      capacity, descriptorBytes] at *
    omega
  have hword (k : Nat) (hk : k < 5) :
      word (((instanceOf device).drop (slotOffset i)).take DisplayContext.descriptorBytes) (4 * k) =
        (descriptor d).getD k 0 := by
    rw [word_slot (by simp only [DisplayContext.descriptorBytes]; omega), h k (by omega)]
  generalize ((instanceOf device).drop (slotOffset i)).take DisplayContext.descriptorBytes = data
    at hlen hword ⊢
  have hstart : d.physical / 256 / 2 ^ 32 = 0 := by omega
  have hlimit : (d.physical + d.bytes - 1) / 256 / 2 ^ 32 = 0 := by omega
  have h₁ : (word data 4).toNat = d.physical / 256 := by
    rw [show word data 4 = BitVec.ofNat 32 (d.physical / 256) from hword 1 (by omega),
      BitVec.toNat_ofNat]
    omega
  have h₂ : word data 8 = 0 := by
    rw [show word data 8 = BitVec.ofNat 32 (d.physical / 256 / 2 ^ 32) from hword 2 (by omega), hstart]
    rfl
  have h₃ : (word data 12).toNat = (d.physical + d.bytes - 1) / 256 := by
    rw [show word data 12 = BitVec.ofNat 32 ((d.physical + d.bytes - 1) / 256) from
      hword 3 (by omega), BitVec.toNat_ofNat]
    omega
  have h₄ : word data 16 = 0 := by
    rw [show word data 16 = BitVec.ofNat 32 ((d.physical + d.bytes - 1) / 256 / 2 ^ 32) from
      hword 4 (by omega), hlimit]
    rfl
  exact decode_words hlen (hword 0 (by omega)) h₁ h₂ h₃ h₄ (by omega) (by omega) hb

theorem resolve_slot (hb : Bucket device b d.handle (contextWord client d.channel i))
    (hs : Slot device i d) (hv : validate d = .ok ()) :
    resolve (instanceOf device) b = .ok ⟨b, slotOffset i, hardware d⟩ := by
  have hlt := slot_lt b
  have hin := slot_inside i
  have hobject : ((word (instanceOf device) (b * 8 + 4) >>> 14) &&& 0x7ff).toNat * 32 =
      slotOffset i := by
    rw [word_instanceOf (by omega), hb.2, object_contextWord (validate_ok hv).1]
    simp only [slotOffset, ramhtBytes, descriptorBytes]
    omega
  unfold resolve
  simp only [hobject, decode_slot hs hv]
  refine if_neg ?_
  simp only [DisplayContext.hashBytes, DisplayContext.instanceBytes, DisplayContext.descriptorBytes,
    slotOffset, imageBytes, ramhtBytes, descriptorBytes, capacity] at *
  omega

/-! ## Lookups -/

/-- A live entry is found, exactly. -/
theorem lookup_live (h : Inv w) (hi : w.table.entries i = some d)
    (hl : w.live d.channel d.handle = true) :
    ∃ b : Fin slots, lookup (instanceOf w.device) (w.table.client.setWidth 14) d.handle
      (d.channel.setWidth 7) = .ok ⟨b, slotOffset i, hardware d⟩ := by
  have hv := h.books.sound i d hi
  obtain ⟨hch, hh, -⟩ := validate_ok hv
  have hwide : (d.channel.setWidth 7).setWidth 32 = d.channel := by
    apply BitVec.eq_of_toNat_eq
    rw [BitVec.toNat_setWidth, BitVec.toNat_setWidth]
    omega
  obtain ⟨b, hb⟩ := h.books.found i (by simp [hi])
  obtain ⟨hbucket, hslot⟩ := h.known.shown b i d hb hi hl
  refine ⟨b, DisplayContext.lookup_found length_instanceOf hh b.isLt
    ((hit_iff hbucket hch).mpr ⟨rfl, hwide.symm⟩) (fun s hs hit => ?_) (resolve_slot hbucket hslot hv)⟩
  -- another bucket with this handle would hold another entry of the same handle
  have hother : ¬ ∀ j e, w.table.buckets ⟨s, hs⟩ = some j → w.table.entries j = some e →
      w.live e.channel e.handle = false :=
    fun hoff => not_hit_blank (b := ⟨s, hs⟩) (h.known.blank ⟨s, hs⟩ hoff) hit
  push Not at hother
  obtain ⟨j, e, hj, he, hle⟩ := hother
  rw [ne_eq, Bool.not_eq_false] at hle
  obtain ⟨hbucket', -⟩ := h.known.shown _ j e hj he hle
  have hkey := (hit_iff (b := ⟨s, hs⟩) hbucket' (validate_ok (h.books.sound j e he)).1).mp hit
  obtain rfl := h.books.apart j i e d he hi hkey.1
  have := h.books.single _ _ _ hj hb
  rw [← this]

/-- A handle that is not live is missing. -/
theorem lookup_dead (h : Inv w) (hh : handle ≠ 0)
    (hl : w.live (channel.setWidth 32) handle = false) :
    lookup (instanceOf w.device) (w.table.client.setWidth 14) handle channel = .error .missing := by
  refine DisplayContext.lookup_missing length_instanceOf hh fun s hs hit => ?_
  have hother : ¬ ∀ j e, w.table.buckets ⟨s, hs⟩ = some j → w.table.entries j = some e →
      w.live e.channel e.handle = false :=
    fun hoff => not_hit_blank (b := ⟨s, hs⟩) (h.known.blank ⟨s, hs⟩ hoff) hit
  push Not at hother
  obtain ⟨j, e, hj, he, hle⟩ := hother
  rw [ne_eq, Bool.not_eq_false] at hle
  obtain ⟨hbucket', -⟩ := h.known.shown _ j e hj he hle
  obtain ⟨rfl, hch⟩ :=
    (hit_iff (b := ⟨s, hs⟩) hbucket' (validate_ok (h.books.sound j e he)).1).mp hit
  rw [← hch, hle] at hl
  cases hl

/-- A published handle is live. -/
theorem published_live {ch : Word} (h : Inv w) (hp : w.table.published ch handle = true) :
    ∃ i d, w.table.entries i = some d ∧ d.channel = ch ∧ d.handle = handle ∧
      w.live d.channel d.handle = true := by
  unfold Table.published at hp
  cases hidx : w.table.indexOf ch handle with
  | none => simp [hidx] at hp
  | some i =>
    simp only [hidx, Bool.and_eq_true, Bool.not_eq_true', bne_iff_ne, decide_eq_true_eq] at hp
    obtain ⟨⟨-, h0⟩, ⟨hrem, -⟩, hle⟩ := hp
    obtain ⟨d, hd, hkey⟩ := indexOf_some hidx
    refine ⟨i, d, hd, hkey.1, hkey.2, h.known.uploaded h0 i d hd fun c hc hci => ?_⟩
    subst hci
    cases hr : c.remove with
    | true => simp [hc, hr] at hrem
    | false =>
      have := h.dated.adding c hc hr
      omega

end DisplayTable
end NvidiaGsp
