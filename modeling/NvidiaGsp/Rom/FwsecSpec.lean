import NvidiaGsp.Rom.Fwsec

/-!
# Rom.FwsecSpec

What the pieces of the catalog's parser promise: none of them traps on a ROM of at most 1 MB, and the
ranges they return lie where the format puts them.
-/

namespace NvidiaGsp
namespace Fwsec

open Parse

/-! ## Ranges -/

def Range.Inside (r : Range) (len : Nat) : Prop := r.offset + r.bytes ≤ len

def Range.Holds (r : Range) (i : Nat) : Prop := r.offset ≤ i ∧ i < r.offset + r.bytes

/-- Every byte of one lies in the other. -/
def Range.Within (r s : Range) : Prop := ∀ i, r.Holds i → s.Holds i

/-- No byte in common. -/
def Range.Disjoint (r s : Range) : Prop := ∀ i, ¬ (r.Holds i ∧ s.Holds i)

theorem Range.Disjoint.symm {r s : Range} (h : r.Disjoint s) : s.Disjoint r :=
  fun i hi => h i ⟨hi.2, hi.1⟩

theorem Range.Disjoint.within {r s t : Range} (h : r.Disjoint s) (ht : t.Within r) : t.Disjoint s :=
  fun i hi => h i ⟨ht i hi.1, hi.2⟩

theorem Range.within_of {r s : Range} (h : s.offset ≤ r.offset)
    (h' : r.offset + r.bytes ≤ s.offset + s.bytes) : r.Within s := by
  intro i hi
  unfold Range.Holds at *
  omega

theorem Range.within_of_empty {r s : Range} (h : r.bytes = 0) : r.Within s := by
  intro i hi
  unfold Range.Holds at hi
  omega

theorem Range.disjoint_of {r s : Range} (h : r.offset + r.bytes ≤ s.offset) : r.Disjoint s := by
  intro i hi
  unfold Range.Holds at hi
  omega

/-- A ROM whose places fit a word. -/
def Small (rom : Slice) : Prop := rom.len ≤ maxRomBytes

variable {rom desc : Slice} {entry : Entry}

theorem span_safe {offset length : Nat} : Safe (span rom offset length)
    fun s => s = rom.sub offset length ∧ offset + length ≤ rom.len := by
  refine Safe.reject_bind fun h => Safe.checked (by omega) ⟨rfl, by omega⟩

theorem range_safe (hrom : Small rom) {offset length : Nat} : Safe (range rom offset length)
    fun r => r = ⟨offset, length⟩ ∧ r.Inside rom.len := by
  unfold Small maxRomBytes at hrom
  refine Safe.seq span_safe fun s hs => ?_
  exact Safe.cast_bind (by omega) (Safe.cast_bind (by omega) (Safe.pure ⟨rfl, hs.2⟩))

theorem slice_safe {r : Range} : Safe (r.slice rom) fun s => s.len = r.bytes :=
  span_safe.mono fun s hs => by rw [hs.1]; rfl

theorem disjoint_safe (hrom : Small rom) {r s : Range} (hr : r.Inside rom.len) (hs : s.Inside rom.len) :
    Safe (disjoint r s) fun _ => r.Disjoint s := by
  unfold Range.Inside at hr hs
  unfold Small maxRomBytes at hrom
  unfold disjoint
  split
  · refine Safe.pure fun i hi => ?_
    unfold Range.Holds at hi
    omega
  · refine Safe.fits_bind (by omega) ?_
    split
    · refine Safe.fits_bind (by omega) (Safe.mono Safe.reject fun _ h i hi => ?_)
      unfold Range.Holds at hi
      omega
    · refine Safe.pure fun i hi => ?_
      unfold Range.Holds at hi
      omega

theorem aligned_safe {value : Nat} :
    Safe (aligned value) fun up => value ≤ up ∧ up ≤ maxRomBytes + 255 := by
  unfold aligned
  refine Safe.reject_bind fun h => Safe.fits_bind ?_ (Safe.pure ?_)
  · unfold maxRomBytes at h
    omega
  · omega

/-! ## The interface -/

theorem dmemRange_safe (hrom : Small rom) (hdata : entry.data.Inside rom.len) {offset length : Nat}
    (ho : offset < 2 ^ 32) (hl : length < 2 ^ 32) : Safe (dmemRange rom entry offset length)
      fun r => r.bytes = length ∧ r.Inside rom.len ∧ r.Within entry.data := by
  unfold Small maxRomBytes at hrom
  unfold Range.Inside at hdata
  unfold dmemRange
  refine Safe.fits_bind (by omega) (Safe.reject_bind fun hb => Safe.fits_bind (by omega) ?_)
  refine Safe.minus_bind (by omega) ((range_safe hrom).mono fun r hr => ?_)
  obtain ⟨rfl, hin⟩ := hr
  exact ⟨rfl, hin, Range.within_of (by dsimp only; omega) (by dsimp only; omega)⟩

/-- The ranges of an interface, found or not yet. -/
structure Placed (rom : Slice) (entry : Entry) (result : Interface) : Prop where
  table : result.table.Inside rom.len ∧ result.table.Within entry.data
  mapper : result.mapper.Inside rom.len ∧ result.mapper.Within entry.data
  input : result.commandInput.Inside rom.len ∧ result.commandInput.Within entry.data

theorem parseMapper_safe (hrom : Small rom) (hdata : entry.data.Inside rom.len) {result : Interface}
    (h : Placed rom entry result) {pointer : Nat} (hp : pointer < 2 ^ 32) :
    Safe (parseMapper rom entry result pointer) (Placed rom entry) := by
  unfold parseMapper
  refine (dmemRange_safe hrom hdata hp (by omega)).seq fun fixed hfixed => ?_
  refine Safe.seq slice_safe fun mapper hlen => ?_
  rw [hfixed.1] at hlen
  refine Safe.u32At_bind (by omega) (Safe.u16At_bind (by omega) (Safe.u16At_bind (by omega) ?_))
  have hdeclared := mapper.u16_lt 6
  have hinput := mapper.u32_lt 8
  have hbytes := mapper.u32_lt 12
  refine Safe.reject_bind fun _ => Safe.reject_bind fun _ => ?_
  refine (dmemRange_safe hrom hdata hp (by omega)).seq fun whole hwhole => ?_
  refine Safe.u32At_bind (by omega) (Safe.u32At_bind (by omega) ?_)
  refine (dmemRange_safe hrom hdata hinput hbytes).seq fun input hin => ?_
  refine Safe.u32At_bind (by omega) (Safe.u32At_bind (by omega) (Safe.u32At_bind (by omega)
    (Safe.u32At_bind (by omega) (Safe.u32At_bind (by omega) (Safe.u32At_bind (by omega)
    (Safe.u32At_bind (by omega) (Safe.u32At_bind (by omega) (Safe.u32At_bind (by omega)
    (Safe.u32At_bind (by omega) (Safe.pure ?_))))))))))
  exact ⟨h.table, hwhole.2, hin.2⟩

theorem interfaceEntry_safe (hrom : Small rom) (hdata : entry.data.Inside rom.len) {table : Slice}
    {state : Bool × Interface} (h : Placed rom entry state.2) {index : Nat}
    (hi : 4 + index * 8 + 8 ≤ table.len) :
    Safe (interfaceEntry rom entry table state index) fun s => Placed rom entry s.2 := by
  unfold interfaceEntry
  refine Safe.part_bind hi (Safe.u32At_bind (by simp) ?_)
  split
  · exact Safe.pure h
  · refine Safe.reject_bind fun _ => Safe.u32At_bind (by simp) ?_
    exact (parseMapper_safe hrom hdata h (Slice.u32_lt _ _)).seq fun result hr => Safe.pure hr

/-- An interface whose parts lie in data memory, apart from each other. -/
structure InterfaceSound (rom : Slice) (data : Range) (i : Interface) : Prop where
  inside : i.table.Inside rom.len ∧ i.mapper.Inside rom.len ∧ i.commandInput.Inside rom.len
  within : i.table.Within data ∧ i.mapper.Within data ∧ i.commandInput.Within data
  apart : i.table.Disjoint i.mapper ∧ i.commandInput.Disjoint i.table ∧
    i.commandInput.Disjoint i.mapper

theorem parseInterface_safe (hrom : Small rom) (hdata : entry.data.Inside rom.len)
    (hi : entry.interfaceOffset < 2 ^ 32) :
    Safe (parseInterface rom entry) (InterfaceSound rom entry.data) := by
  unfold parseInterface
  refine (dmemRange_safe hrom hdata hi (by omega)).seq fun head hhead => ?_
  refine Safe.seq slice_safe fun header hlen => ?_
  rw [hhead.1] at hlen
  refine Safe.byteAt_bind (by omega) (Safe.reject_bind fun _ => Safe.byteAt_bind (by omega)
    (Safe.byteAt_bind (by omega) (Safe.reject_bind fun _ => Safe.byteAt_bind (by omega)
    (Safe.reject_bind fun hcount => ?_))))
  refine (dmemRange_safe hrom hdata hi (by omega)).seq fun range hrange => ?_
  refine Safe.seq slice_safe fun table htable => ?_
  rw [hrange.1] at htable
  have hstart : Placed rom entry { table := range } :=
    ⟨hrange.2, ⟨Nat.zero_le _, Range.within_of_empty rfl⟩, Nat.zero_le _, Range.within_of_empty rfl⟩
  refine (Safe.foldlM (P := fun _ s => Placed rom entry s.2) hstart fun k hk s hs => ?_).seq
    fun state hstate => ?_
  · rw [List.length_range] at hk
    rw [List.getElem_range]
    exact interfaceEntry_safe hrom hdata hs (by omega)
  · refine Safe.reject_bind fun _ => ?_
    refine (disjoint_safe hrom hstate.table.1 hstate.mapper.1).seq fun _ htm => ?_
    refine (disjoint_safe hrom hstate.input.1 hstate.table.1).seq fun _ hit => ?_
    refine (disjoint_safe hrom hstate.input.1 hstate.mapper.1).seq fun _ him => Safe.pure ?_
    exact ⟨⟨hstate.table.1, hstate.mapper.1, hstate.input.1⟩,
      ⟨hstate.table.2, hstate.mapper.2, hstate.input.2⟩, htm, hit, him⟩

/-! ## Descriptors -/

/-- Where a descriptor puts code, data, signatures and the slot for one of them. -/
structure Laid (rom : Slice) (e : Entry) : Prop where
  inside : e.descriptor.Inside rom.len ∧ e.image.Inside rom.len ∧ e.code.Inside rom.len ∧
    e.data.Inside rom.len ∧ e.signatures.Inside rom.len ∧ e.signatureSlot.Inside rom.len
  within : e.code.Within e.image ∧ e.data.Within e.image ∧ e.signatureSlot.Within e.data
  apart : e.code.Disjoint e.data ∧ e.descriptor.Disjoint e.image
  version : e.descriptorVersion = 2 ∨ e.descriptorVersion = 3
  interface : e.interfaceOffset < 2 ^ 32
  signed : e.descriptorVersion = 3 → e.signatures.bytes = e.signatureCount * signatureBytes ∧
    popCount e.signatureVersions = e.signatureCount ∧ e.signatureVersions < 2 ^ 16

/-- What is known of an entry before its version's part is read. -/
structure Blank (rom : Slice) (offset size : Nat) (e : Entry) : Prop where
  descriptor : e.descriptor = ⟨offset, size⟩
  inside : offset + size ≤ rom.len
  signatures : e.signatures = {}
  slot : e.signatureSlot = {}
  stored : e.storedBytes < 2 ^ 32

theorem descriptorV2_safe (hrom : Small rom) {offset size : Nat} (hdesc : desc.len = size)
    (hsize : 60 ≤ size) (h : Blank rom offset size entry) (hv : entry.descriptorVersion = 2) :
    Safe (descriptorV2 rom desc (offset + size) entry) (Laid rom) := by
  have hlen := hrom
  have hin := h.inside
  unfold Small maxRomBytes at hlen
  have hinterface := desc.u32_lt 16
  have himem := desc.u32_lt 20
  have hcode := desc.u32_lt 24
  have hsecure := desc.u32_lt 32
  have hdata := desc.u32_lt 40
  have hdmem := desc.u32_lt 44
  have hbytes := desc.u32_lt 48
  unfold descriptorV2
  refine Safe.u32At_bind (by omega) (Safe.u32At_bind (by omega) (Safe.u32At_bind (by omega)
    (Safe.u32At_bind (by omega) (Safe.u32At_bind (by omega) (Safe.u32At_bind (by omega)
    (Safe.u32At_bind (by omega) (Safe.u32At_bind (by omega) (Safe.u32At_bind (by omega)
    (Safe.u32At_bind (by omega) (Safe.u32At_bind (by omega) ?_))))))))))
  refine Safe.reject_bind fun hne => Safe.minus_bind (by omega) ?_
  refine Safe.seq aligned_safe fun secureUp hup => Safe.minus_bind (by omega) ?_
  unfold maxRomBytes at hup
  refine Safe.fits_bind (by omega) (Safe.reject_bind fun hpa => Safe.cast_bind (by omega) ?_)
  refine Safe.seq aligned_safe fun codeUp _ => Safe.fits_bind (by omega) (Safe.reject_bind fun _ => ?_)
  refine Safe.seq aligned_safe fun dataUp _ => Safe.fits_bind (by omega) (Safe.reject_bind fun _ => ?_)
  refine Safe.fits_bind (by omega) (Safe.reject_bind fun _ => ?_)
  refine (range_safe hrom).seq fun code hc => Safe.fits_bind (by omega) ?_
  refine (range_safe hrom).seq fun data hd => ?_
  refine (disjoint_safe hrom hc.2 hd.2).seq fun _ happart => Safe.fits_bind (by omega) ?_
  refine (range_safe hrom).seq fun image hi => Safe.pure ?_
  have hslot : entry.signatureSlot.Inside rom.len := by
    rw [h.slot]
    exact Nat.zero_le _
  have hsignatures : entry.signatures.Inside rom.len := by
    rw [h.signatures]
    exact Nat.zero_le _
  have hdescriptor : entry.descriptor.Inside rom.len := by
    rw [h.descriptor]
    exact h.inside
  obtain ⟨rfl, hci⟩ := hc
  obtain ⟨rfl, hdi⟩ := hd
  obtain ⟨rfl, hii⟩ := hi
  refine ⟨⟨hdescriptor, hii, hci, hdi, hsignatures, hslot⟩, ⟨?_, ?_, ?_⟩, ⟨happart, ?_⟩, .inl hv,
    hinterface, fun h3 => absurd (hv.symm.trans h3) (by decide)⟩
  · exact Range.within_of (Nat.le_refl _) (by dsimp only; omega)
  · exact Range.within_of (by dsimp only; omega) (by dsimp only; omega)
  · exact Range.within_of_empty (by rw [h.slot])
  · refine Range.disjoint_of (Nat.le_of_eq ?_)
    rw [h.descriptor]

theorem descriptorV3_safe (hrom : Small rom) {offset size : Nat} (hdesc : desc.len = size)
    (hsize : 44 ≤ size) (h : Blank rom offset size entry) (hv : entry.descriptorVersion = 3) :
    Safe (descriptorV3 rom desc offset size (offset + size) entry) (Laid rom) := by
  have hlen := hrom
  have hin := h.inside
  unfold Small maxRomBytes at hlen
  have hinterface := desc.u32_lt 12
  have hcode := desc.u32_lt 20
  have hbytes := desc.u32_lt 32
  have hpkc := desc.u32_lt 8
  have hcount := desc.get_lt 39
  have hversions := desc.u16_lt 40
  unfold descriptorV3
  refine Safe.u32At_bind (by omega) (Safe.u32At_bind (by omega) (Safe.u32At_bind (by omega)
    (Safe.u32At_bind (by omega) (Safe.u32At_bind (by omega) (Safe.u32At_bind (by omega)
    (Safe.u16At_bind (by omega) (Safe.byteAt_bind (by omega) (Safe.byteAt_bind (by omega)
    (Safe.u16At_bind (by omega) (Safe.u16At_bind (by omega) ?_))))))))))
  refine Safe.reject_bind fun hne => Safe.seq aligned_safe fun up _ => ?_
  refine (range_safe hrom).seq fun image hi => Safe.fits_bind (by omega) (Safe.reject_bind fun hfit => ?_)
  refine (range_safe hrom).seq fun code hc => Safe.fits_bind (by omega) ?_
  refine (range_safe hrom).seq fun data hd => Safe.u32At_bind (by omega) ?_
  obtain ⟨rfl, hii⟩ := hi
  obtain ⟨rfl, hci⟩ := hc
  obtain ⟨rfl, hdi⟩ := hd
  dsimp only at hfit
  refine Safe.fits_bind (by unfold signatureBytes; omega) (Safe.reject_bind fun hslot => ?_)
  refine Safe.fits_bind (by dsimp only; omega) ((range_safe hrom).seq fun slot hs => ?_)
  refine Safe.fits_bind (by omega) (Safe.minus_bind (by omega) ((range_safe hrom).seq fun signatures hsig => ?_))
  refine Safe.fits_bind (by unfold signatureBytes; omega) (Safe.reject_bind fun hsigned => Safe.pure ?_)
  obtain ⟨rfl, hsi⟩ := hs
  obtain ⟨rfl, hgi⟩ := hsig
  dsimp only at hsigned
  have hdescriptor : entry.descriptor.Inside rom.len := by
    rw [h.descriptor]
    exact h.inside
  refine ⟨⟨hdescriptor, hii, hci, hdi, hgi, hsi⟩, ⟨?_, ?_, ?_⟩, ⟨?_, ?_⟩, .inr hv, hinterface, fun _ =>
    ⟨?_, ?_, hversions⟩⟩
  · exact Range.within_of (Nat.le_refl _) (by dsimp only; omega)
  · exact Range.within_of (by dsimp only; omega) (by dsimp only; omega)
  · exact Range.within_of (by dsimp only; omega) (by dsimp only; omega)
  · exact Range.disjoint_of (Nat.le_refl _)
  · refine Range.disjoint_of (Nat.le_of_eq ?_)
    rw [h.descriptor]
  · dsimp only
    omega
  · dsimp only
    omega

/-- All that a catalog promises of one entry. -/
structure EntrySound (rom : Slice) (e : Entry) : Prop extends Laid rom e where
  parts : InterfaceSound rom e.data e.interface
  slot : e.signatureSlot.Disjoint e.interface.table ∧ e.signatureSlot.Disjoint e.interface.mapper ∧
    e.signatureSlot.Disjoint e.interface.commandInput

theorem Range.disjoint_of_empty {r s : Range} (h : r.bytes = 0) : r.Disjoint s := by
  intro i hi
  unfold Range.Holds at hi
  omega

theorem slotApart_safe (hrom : Small rom) {i : Interface} (hslot : entry.signatureSlot.Inside rom.len)
    (hi : InterfaceSound rom entry.data i) : Safe (slotApart entry i) fun _ =>
      entry.signatureSlot.Disjoint i.table ∧ entry.signatureSlot.Disjoint i.mapper ∧
        entry.signatureSlot.Disjoint i.commandInput := by
  unfold slotApart
  split
  · refine (disjoint_safe hrom hslot hi.inside.1).seq fun _ ht => ?_
    refine (disjoint_safe hrom hslot hi.inside.2.1).seq fun _ hm => ?_
    exact (disjoint_safe hrom hslot hi.inside.2.2).mono fun _ hc => ⟨ht, hm, hc⟩
  · rename_i hempty
    have hzero : entry.signatureSlot.bytes = 0 := not_not.mp hempty
    exact Safe.pure ⟨Range.disjoint_of_empty hzero, Range.disjoint_of_empty hzero,
      Range.disjoint_of_empty hzero⟩

theorem descriptor_safe (hrom : Small rom) {offset : Nat} :
    Safe (descriptor rom offset) (EntrySound rom) := by
  have hlen := hrom
  unfold Small maxRomBytes at hlen
  unfold descriptor
  refine Safe.seq span_safe fun first hfirst => ?_
  obtain ⟨rfl, -⟩ := hfirst
  refine Safe.u32At_bind (by simp) (Safe.reject_bind fun _ => Safe.reject_bind fun _ => ?_)
  refine Safe.need_bind fun minimum hmin => Safe.reject_bind fun hsize => ?_
  refine Safe.seq span_safe fun desc hdesc => (range_safe hrom).seq fun range hrange => ?_
  obtain ⟨rfl, hin⟩ := hdesc
  obtain ⟨rfl, -⟩ := hrange
  generalize hw : (rom.sub offset 4).u32 0 = word at *
  have hminimum : (word / 256 % 256 = 2 ∧ minimum = 60) ∨ (word / 256 % 256 = 3 ∧ minimum = 44) := by
    unfold minimumBytes at hmin
    split at hmin
    · simp_all
    · split at hmin <;> simp_all
  refine Safe.u32At_bind (by simp only [Slice.sub_len]; omega) (Safe.reject_bind fun _ =>
    Safe.fits_bind (by omega) ?_)
  have hstored := (rom.sub offset (word / 65536)).u32_lt 4
  refine Safe.seq (Q := Laid rom) ?_ fun e he => ?_
  · unfold lay
    split
    · rename_i hv
      have hversion : word / 256 % 256 = 2 := hv
      exact descriptorV2_safe hrom rfl (by omega) ⟨rfl, hin, rfl, rfl, hstored⟩ hv
    · rename_i hv
      have hversion : ¬ word / 256 % 256 = 2 := hv
      exact descriptorV3_safe hrom rfl (by omega) ⟨rfl, hin, rfl, rfl, hstored⟩ (by dsimp only; omega)
  · obtain ⟨-, -, -, hdata, -, hslot⟩ := he.inside
    refine (parseInterface_safe hrom hdata he.interface).seq fun i hi => ?_
    refine (slotApart_safe hrom hslot hi).seq fun _ happart => Safe.pure ?_
    exact ⟨⟨he.inside, he.within, he.apart, he.version, he.interface, he.signed⟩, hi, happart⟩

end Fwsec
end NvidiaGsp
