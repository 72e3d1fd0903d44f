import NvidiaGsp.Rom.ImagesSpec

/-!
# Rom.VbiosSpec

The tables of the selected image. `Booked` follows the catalog of ranges: what it holds, and how many
ranges it can hold at that point, so that it is never full.
-/

namespace NvidiaGsp
namespace Vbios

open Parse

variable {rom image table : Slice} {ranges : Ranges}

/-! ## Ranges -/

def Range.Holds (r : Range) (i : Nat) : Prop := r.start ≤ i ∧ i < r.stop

/-- No byte in common. -/
def Range.Disjoint (r s : Range) : Prop := ∀ i, ¬ (r.Holds i ∧ s.Holds i)

/-- Ranges of the image, apart from each other, at most `n` of them. -/
structure Booked (image : Slice) (n : Nat) (ranges : Ranges) : Prop where
  inside : ∀ r ∈ ranges, r.stop ≤ image.len
  apart : List.Pairwise Range.Disjoint ranges
  count : ranges.length ≤ n

theorem Booked.mono {n m : Nat} (h : Booked image n ranges) (hle : n ≤ m) : Booked image m ranges :=
  ⟨h.inside, h.apart, Nat.le_trans h.count hle⟩

theorem add_safe {n start length : Nat} (h : Booked image n ranges) (hn : n < maxRanges)
    (hin : start + length ≤ image.len) (hsmall : image.len ≤ maxRomBytes) :
    Safe (ranges.add start length) (Booked image (n + 1)) Fine := by
  have hcount := h.count
  unfold maxRomBytes at hsmall
  unfold Ranges.add
  rw [reject_of_not (by omega)]
  refine Safe.fits_bind (by omega) (Safe.reject_bind_of (by decide) fun hfree =>
    Safe.pure ⟨?_, ?_, by simpa using hcount⟩)
  · simp only [List.mem_append, List.mem_singleton]
    rintro r (hr | rfl)
    · exact h.inside r hr
    · exact hin
  · refine List.pairwise_append.mpr ⟨h.apart, List.pairwise_singleton .., fun r hr s hs i hi => ?_⟩
    rw [List.mem_singleton.mp hs] at hi
    refine hfree ⟨r, hr, ?_⟩
    unfold Range.Holds at hi
    dsimp only at hi
    omega

/-! ## BIT -/

theorem indexOf_some {bytes : Slice} {pattern : List Nat} {i : Nat} (hp : pattern ≠ [])
    (h : indexOf bytes pattern = some i) : i + pattern.length ≤ bytes.len := by
  have hmem := List.mem_of_find?_eq_some h
  have hpos := List.length_pos_iff.mpr hp
  rw [List.mem_range] at hmem
  omega

/-- What the loop over the BIT keeps; the version text is booked once. -/
structure BitOk (rom image : Slice) (base : Result) (s : BitState) : Prop where
  booked : Booked image (if 0x69 ∈ s.ids then 6 else 5) s.ranges
  fresh : Fresh s.result
  offset : s.result.imageOffset = base.imageOffset
  images : s.result.imageCount = base.imageCount

theorem pointerOf_safe {entry : Slice} {stride : Nat} (hs : 6 ≤ stride) (hlen : entry.len = stride) :
    Safe (pointerOf entry stride) (fun p => p < 2 ^ 32) Fine := by
  unfold pointerOf
  split
  · exact Safe.checked (by omega) (entry.u32_lt 4)
  · exact Safe.checked (by omega) (by have := entry.u16_lt 4; omega)

theorem bitEntry_safe {offset size stride index : Nat} {base : Result} {s : BitState}
    (h : BitOk rom image base s) (hsmall : image.len ≤ maxRomBytes) (hrom : rom.len ≤ maxRomBytes)
    (hoffset : base.imageOffset ≤ maxRomBytes) (hplace : offset ≤ 0xffff) (htable : table.len ≤ 4096)
    (hin : size + stride * index + stride ≤ table.len) (hstride : 6 ≤ stride) :
    Safe (bitEntry rom image table offset size stride s index) (BitOk rom image base) Fine := by
  have hsame := h.offset
  have hf := h.fresh
  have hlen := hsmall
  unfold maxRomBytes at hrom hoffset hlen
  unfold bitEntry
  refine Safe.part_bind hin ?_
  generalize hentry : table.sub (size + stride * index) stride = entry
  have hentryLen : entry.len = stride := by
    rw [← hentry]
    rfl
  refine Safe.byteAt_bind (by omega) (Safe.reject_bind_of (by decide) fun hnew => Safe.u16At_bind (by omega) ?_)
  have hlength := entry.u16_lt 2
  generalize entry.u16 2 = length at *
  generalize entry.get 0 = id at *
  refine (pointerOf_safe hstride hentryLen).seq fun pointer hpointer => Safe.reject_bind_of (by decide) fun _ => ?_
  have hkept : id ≠ 0x69 → Booked image (if 0x69 ∈ id :: s.ids then 6 else 5) s.ranges := by
    intro hne
    have hiff : 0x69 ∈ id :: s.ids ↔ 0x69 ∈ s.ids := by
      rw [List.mem_cons]
      exact ⟨fun h => h.resolve_left (Ne.symm hne), Or.inr⟩
    simpa only [hiff] using h.booked
  split
  · rename_i hid
    have hkeep := hkept (by omega)
    refine Safe.byteAt_bind (by omega) (Safe.cast_bind (by omega) (Safe.cast_bind (by omega) ?_))
    split
    · refine Safe.reject_bind_of (by decide) fun _ => Safe.seq span_safe fun _ hspan => ?_
      refine Safe.fits_bind (by omega) (Safe.fits_bind (by omega) (Safe.fits_bind (by omega)
        (Safe.reject_bind_of (by decide) fun _ => Safe.pure ?_)))
      exact ⟨hkeep, ⟨hf.ports, hf.primary, hf.secondary⟩, h.offset, h.images⟩
    · exact Safe.pure ⟨hkeep, ⟨hf.ports, hf.primary, hf.secondary⟩, h.offset, h.images⟩
  · split
    · refine Safe.pure ⟨h.booked.mono ?_ |>.mono (Nat.le_refl _), ⟨hf.ports, hf.primary, hf.secondary⟩, h.offset, h.images⟩
      by_cases hid : 0x69 ∈ s.ids
      · simp [hid]
      · simp only [if_neg hid]
        split <;> omega
    · refine Safe.reject_bind_of (by decide) fun _ => Safe.seq span_safe fun data hdata => ?_
      obtain ⟨rfl, hinside⟩ := hdata
      refine Safe.fits_bind (by omega) (Safe.fits_bind (by omega) (Safe.reject_bind_of (by decide) fun _ => ?_))
      split
      · rename_i hid
        have hbooked : Booked image 5 s.ranges := by
          have := h.booked
          rwa [if_neg (hid ▸ hnew)] at this
        refine Safe.byteAt_bind (by omega) (Safe.reject_bind_of (by decide) fun _ =>
          Safe.reject_bind_of (by decide) fun hdata => ?_)
        refine (add_safe hbooked (by decide) hinside hsmall).seq fun ranges hr => ?_
        refine Safe.part_bind (by omega) (Safe.pure ⟨?_, ⟨hf.ports, hf.primary, hf.secondary⟩, h.offset, h.images⟩)
        rw [if_pos (by simp [hid])]
        exact hr
      · rename_i hid
        exact Safe.pure ⟨hkept hid, ⟨hf.ports, hf.primary, hf.secondary⟩, h.offset, h.images⟩

theorem parseBit_safe {result : Result} (h : Booked image 4 ranges) (hsmall : image.len ≤ maxRomBytes)
    (hrom : rom.len ≤ maxRomBytes) (hoffset : result.imageOffset ≤ maxRomBytes) (hf : Fresh result) :
    Safe (parseBit rom image ranges result) (fun s => Booked image 6 s.1 ∧ Fresh s.2 ∧
      s.2.imageCount = result.imageCount) Fine := by
  unfold parseBit
  refine Safe.need_bind_of (by decide) fun offset hfound => ?_
  have hin := indexOf_some (by decide) hfound
  refine Safe.part_bind (by omega) (Safe.reject_bind_of (by decide) fun hplace =>
    Safe.seq span_safe fun header hheader => ?_)
  obtain ⟨rfl, -⟩ := hheader
  refine Safe.u16At_bind (by simp) (Safe.reject_bind_of (by decide) fun _ => Safe.byteAt_bind (by simp)
    (Safe.byteAt_bind (by simp) (Safe.byteAt_bind (by simp) (Safe.reject_bind_of (by decide) fun hlimits => ?_))))
  generalize Slice.get _ 8 = size at *
  generalize Slice.get _ 9 = stride at *
  generalize Slice.get _ 10 = count at *
  have htotal : stride * count ≤ 32 * 64 := Nat.mul_le_mul (by omega) (by omega)
  refine Safe.fits_bind (by omega) (Safe.seq span_safe fun table htable => ?_)
  obtain ⟨rfl, hinside⟩ := htable
  refine Safe.part_bind (by simp only [Slice.sub_len]; omega) (Safe.reject_bind_of (by decide) fun _ => ?_)
  refine (add_safe h (by decide) hinside hsmall).seq fun booked hbooked => ?_
  refine Safe.cast_bind (by omega) (Safe.cast_bind (by omega) ?_)
  refine (Safe.foldlM (P := fun _ s => BitOk rom image result s) ?_ fun k hk s hs => ?_).seq fun s hs =>
    Safe.pure ⟨hs.booked.mono (by split <;> omega), hs.fresh, hs.images⟩
  · exact ⟨by simpa using hbooked, ⟨hf.ports, hf.primary, hf.secondary⟩, rfl, rfl⟩
  · rw [List.length_range] at hk
    rw [List.getElem_range]
    refine bitEntry_safe hs hsmall hrom hoffset (by omega) (by simp only [Slice.sub_len]; omega) ?_ (by omega)
    have hstep : stride * (k + 1) ≤ stride * count := Nat.mul_le_mul_left _ hk
    rw [Nat.mul_succ] at hstep
    simp only [Slice.sub_len]
    omega

/-! ## Small tables -/

/-- Records for all the entries. -/
structure Small (t : SmallTable) : Prop where
  count : t.count ≤ 16
  records : t.count * t.stride ≤ t.records.len

theorem optionalTable_safe {offset headerMin strideMin n : Nat} (h : Booked image n ranges)
    (hn : n < maxRanges) (hsmall : image.len ≤ maxRomBytes) :
    Safe (optionalTable image offset headerMin strideMin ranges) (fun s => Booked image (n + 1) s.2 ∧
      ∀ t, s.1 = some t → Small t ∧ offset + headerMin ≤ image.len) Fine := by
  unfold optionalTable smallTable
  split
  · exact Safe.pure ⟨h.mono (by omega), by simp⟩
  · refine Safe.seq (Q := fun s => Booked image (n + 1) s.2 ∧ Small s.1 ∧
      offset + headerMin ≤ image.len) ?_ fun s hs => Safe.pure ⟨hs.1, fun t ht => ?_⟩
    · refine Safe.reject_bind_of (by decide) fun _ => Safe.seq span_safe fun header hheader => ?_
      obtain ⟨rfl, -⟩ := hheader
      refine Safe.byteAt_bind (by simp) (Safe.byteAt_bind (by simp) (Safe.byteAt_bind (by simp)
        (Safe.byteAt_bind (by simp) (Safe.reject_bind_of (by decide) fun hlimits => ?_))))
      generalize Slice.get _ 1 = size at *
      generalize Slice.get _ 2 = count at *
      generalize Slice.get _ 3 = stride at *
      have htotal : count * stride ≤ 16 * 16 := Nat.mul_le_mul (by omega) (by omega)
      refine Safe.fits_bind (by omega) (Safe.seq span_safe fun bytes hbytes => ?_)
      obtain ⟨rfl, hinside⟩ := hbytes
      refine (add_safe h hn hinside hsmall).seq fun booked hbooked => ?_
      refine Safe.part_bind (by simp only [Slice.sub_len]; omega) (Safe.pure ⟨hbooked, ⟨?_, ?_⟩, by omega⟩)
      · dsimp only
        omega
      · simp only [Slice.sub_len]
        omega
    · rw [← Option.some.inj ht]
      exact hs.2

theorem entriesOf_safe {α : Type} {read : Nat → Slice → Parse Error α} {t : SmallTable} (h : Small t)
    (hread : ∀ i bytes, Safe (read i bytes) (fun _ => True) Fine) :
    Safe (entriesOf read t) (fun found => found.length = t.count) Fine := by
  have hcount := h.count
  have hrecords := h.records
  unfold entriesOf
  refine (Safe.foldlM (P := fun k found => found.length = k) rfl fun k hk found hfound => ?_).mono
    fun found hf => by rwa [List.length_range] at hf
  rw [List.length_range] at hk
  rw [List.getElem_range]
  have hstep : (k + 1) * t.stride ≤ t.count * t.stride := Nat.mul_le_mul_right _ hk
  rw [Nat.succ_mul] at hstep
  refine Safe.checked_bind (by unfold topologyEntries; omega) (Safe.cast_bind (by omega)
    (Safe.part_bind (by omega) ((hread k _).seq fun value _ => Safe.pure ?_)))
  simp [hfound]

/-! ## Ports -/

/-- The entries a result has copied from the small tables. -/
structure Topology (ccb connectors : Option SmallTable) (r : Result) : Prop where
  communications : ∀ t, ccb = some t → r.communications.length = t.count
  connectors : ∀ t, connectors = some t → r.connectors.length = t.count
  primary : ∀ i, r.primaryCcb = some i → i < r.communications.length
  secondary : ∀ i, r.secondaryCcb = some i → i < r.communications.length

/-- A port names a communication entry that exists and a connector that is not skipped, if any. -/
structure PortOk (r : Result) (p : Port) : Prop where
  ccb : p.ccb ≠ 0xf → p.ccb < r.communications.length
  connector : p.connector ≠ 0xf → ∃ c, r.connectors[p.connector]? = some c ∧ c.kind ≠ 0xff

/-- The entries change in their masks only. -/
structure Grown (r r' : Result) : Prop where
  communications : r'.communications.length = r.communications.length
  connectors : r'.connectors.map (·.kind) = r.connectors.map (·.kind)
  ports : r'.ports = r.ports
  images : r'.imageCount = r.imageCount
  primary : r'.primaryCcb = r.primaryCcb
  secondary : r'.secondaryCcb = r.secondaryCcb

theorem Grown.length {r r' : Result} (h : Grown r r') : r'.connectors.length = r.connectors.length := by
  have := congrArg List.length h.connectors
  simpa using this

theorem Grown.port {r r' : Result} (h : Grown r r') {p : Port} (hp : PortOk r p) : PortOk r' p where
  ccb hne := by
    rw [h.communications]
    exact hp.ccb hne
  connector hne := by
    obtain ⟨c, hc, hk⟩ := hp.connector hne
    have hkinds := congrArg (fun l => l[p.connector]?) h.connectors
    simp only [List.getElem?_map, hc, Option.map_some] at hkinds
    obtain ⟨c', hc', hsame⟩ := Option.map_eq_some_iff.mp hkinds
    exact ⟨c', hc', hsame ▸ hk⟩

theorem Grown.topology {ccb connectors : Option SmallTable} {r r' : Result} (h : Grown r r')
    (ht : Topology ccb connectors r) : Topology ccb connectors r' where
  communications t hs := by
    rw [h.communications]
    exact ht.communications t hs
  connectors t hs := by
    rw [h.length]
    exact ht.connectors t hs
  primary i hs := by
    rw [h.communications]
    exact ht.primary i (h.primary ▸ hs)
  secondary i hs := by
    rw [h.communications]
    exact ht.secondary i (h.secondary ▸ hs)

/-- The fields of an entry that the references need. -/
structure Fielded (index : Nat) (p : Port) : Prop where
  index : p.index = index
  ccb : p.ccb < 16
  connector : p.connector < 16
  bus : p.bus < 16

theorem portOf_fielded {dcbVersion index path config : Nat} :
    Fielded index (portOf dcbVersion index path config) :=
  ⟨rfl, Nat.mod_lt _ (by decide), Nat.mod_lt _ (by decide), Nat.mod_lt _ (by decide)⟩

theorem joinCcb_safe {ccb connectors : Option SmallTable} {r : Result} {p : Port} {index : Nat}
    (h : Topology ccb connectors r) (hp : Fielded index p) (hi : index < 32) :
    Safe (joinCcb ccb r p) (fun s => Grown r s.2 ∧ Fielded index s.1 ∧
      (s.1.ccb ≠ 0xf → s.1.ccb < r.communications.length)) Fine := by
  have hindex := hp.index
  have hconnector := hp.connector
  unfold joinCcb
  split
  · rename_i hnone
    exact Safe.pure ⟨⟨rfl, rfl, rfl, rfl, rfl, rfl⟩, hp, fun hne => absurd hnone hne⟩
  · refine Safe.need_bind_of (by decide) fun comms hcomms => Safe.reject_bind_of (by decide) fun hlt => ?_
    have hlen := h.communications comms hcomms
    refine (elementAt_safe (by omega)).seq fun c _ => Safe.cast_bind (by omega) ?_
    refine Safe.seq (Q := fun _ => True) ?_ fun c _ => Safe.pure ?_
    · unfold markConnector
      split
      · exact Safe.pure trivial
      · exact Safe.cast_bind (by omega) (Safe.pure trivial)
    · exact ⟨⟨by simp, rfl, rfl, rfl, rfl, rfl⟩, ⟨hp.index, hp.ccb, hp.connector, hp.bus⟩,
        fun _ => by dsimp only; omega⟩

theorem joinConnector_safe {ccb connectors : Option SmallTable} {r : Result} {p : Port} {index : Nat}
    (h : Topology ccb connectors r) (hp : Fielded index p) (hi : index < 32)
    (hccb : p.ccb ≠ 0xf → p.ccb < r.communications.length) :
    Safe (joinConnector connectors r p) (fun s => Grown r s.2 ∧ PortOk s.2 s.1) Fine := by
  have hindex := hp.index
  have hbus := hp.bus
  have hccbLt := hp.ccb
  unfold joinConnector
  split
  · rename_i hnone
    exact Safe.pure ⟨⟨rfl, rfl, rfl, rfl, rfl, rfl⟩, hccb, fun hne => absurd hnone hne⟩
  · refine Safe.need_bind_of (by decide) fun physical hphysical => Safe.reject_bind_of (by decide) fun hlt => ?_
    have hlen := h.connectors physical hphysical
    refine (elementAt_safe (by omega)).seq fun c hc => Safe.reject_bind_of (by decide) fun hkind => ?_
    refine Safe.cast_bind (by omega) (Safe.cast_bind (by omega) (Safe.cast_bind (by omega)
      (Safe.pure ⟨⟨rfl, ?_, rfl, rfl, rfl, rfl⟩, hccb, fun _ => ?_⟩)))
    · rw [List.map_set]
      refine List.ext_getElem? fun j => ?_
      rw [List.getElem?_set, List.getElem?_map]
      split
      · rename_i heq
        subst heq
        rw [hc, List.length_map, if_pos (by omega)]
        rfl
      · rfl
    · refine ⟨_, List.getElem?_set_self (by omega), hkind⟩

theorem ports_safe {ccb connectors : Option SmallTable} {dcbVersion size : Nat} (indices : List Nat)
    {r : Result} (h : Topology ccb connectors r) (hports : ∀ p ∈ r.ports, PortOk r p)
    (hcount : r.ports.length + indices.length ≤ maxPorts)
    (hin : ∀ i ∈ indices, i < 32 ∧ size + i * 8 + 8 ≤ table.len) :
    Safe (ports table dcbVersion size 8 ccb connectors indices r) (fun r' =>
      (∀ p ∈ r'.ports, PortOk r' p) ∧ r'.imageCount = r.imageCount) Fine := by
  induction indices generalizing r with
  | nil => exact Safe.pure ⟨hports, rfl⟩
  | cons i rest ih =>
    obtain ⟨hi, hentry⟩ := hin i (by simp)
    have hrest : ∀ j ∈ rest, j < 32 ∧ size + j * 8 + 8 ≤ table.len := fun j hj => hin j (by simp [hj])
    rw [List.length_cons] at hcount
    unfold ports
    refine Safe.part_bind hentry (Safe.u32At_bind (by simp) (Safe.u32At_bind (by simp) ?_))
    split
    · exact Safe.pure ⟨hports, rfl⟩
    · split
      · exact ih h hports (by omega) hrest
      · refine Safe.reject_bind_of (by decide) fun _ => Safe.cast_bind (by omega) ?_
        refine (joinCcb_safe h portOf_fielded hi).seq fun joined hjoined => ?_
        obtain ⟨hgrown, hfielded, hccb⟩ := hjoined
        have htop := hgrown.topology h
        refine (joinConnector_safe htop hfielded hi (by rwa [hgrown.communications])).seq fun wired hwired => ?_
        obtain ⟨hgrown', hport⟩ := hwired
        refine Safe.checked_bind ?_ ?_
        · rw [hgrown'.ports, hgrown.ports]
          omega
        · refine (ih ?_ ?_ ?_ hrest).mono fun r' hr' => ⟨hr'.1, ?_⟩
          · have := hgrown'.topology htop
            exact ⟨this.communications, this.connectors, this.primary, this.secondary⟩
          · intro p hp
            have hok : PortOk wired.2 p := by
              rcases List.mem_append.mp hp with hp | hp
              · rw [hgrown'.ports, hgrown.ports] at hp
                exact hgrown'.port (hgrown.port (hports p hp))
              · rw [List.mem_singleton.mp hp]
                exact hport
            exact ⟨hok.ccb, hok.connector⟩
          · rw [List.length_append, hgrown'.ports, hgrown.ports, List.length_singleton]
            omega
          · rw [hr'.2, hgrown'.images, hgrown.images]

end Vbios
end NvidiaGsp
