import NvidiaGsp.Rom.Tables

/-!
# Rom.TablesSpec

The readers of the small tables never trap, and what they return fits the image they have read.
-/

namespace NvidiaGsp
namespace Vbios

open Parse

/-- Errors other than a full catalog of ranges. -/
abbrev Fine (e : Error) : Prop := e ≠ .RangesLimit

variable {image bytes : Slice}

theorem span_safe {offset length : Nat} : Safe (span image offset length)
    (fun s => s = image.sub offset length ∧ offset + length ≤ image.len) Fine := by
  refine Safe.reject_bind_of (by decide) fun h => Safe.checked (by omega) ⟨rfl, by omega⟩

theorem elementAt_safe {α : Type} {xs : List α} {i : Nat} {a : α} (h : i < xs.length) :
    Safe (elementAt xs i a) (fun x => xs[i]? = some x) Fine := by
  refine Safe.checked h ?_
  rw [List.getD_eq_getElem?_getD, List.getElem?_eq_getElem h]
  rfl

theorem byteIf_safe {c : Prop} [Decidable c] {i : Nat} (h : c → i < bytes.len) :
    Safe (byteIf c bytes i) (fun o => ∀ b, o = some b → b < 256) Fine := by
  unfold byteIf
  split
  · rename_i hc
    refine Safe.byteAt_bind (h hc) (Safe.pure ?_)
    rintro b hb
    rw [← Option.some.inj hb]
    exact bytes.get_lt i
  · exact Safe.pure (by simp)

theorem and_lt {a b n : Nat} (h : b < n) : a &&& b < n := Nat.lt_of_le_of_lt Nat.and_le_right h

/-! ## Topology -/

theorem communication_safe {index : Nat} :
    Safe (communication index bytes) (fun _ => True) Fine := by
  unfold communication
  refine Safe.reject_bind_of (by decide) fun h => Safe.u32At_bind (by omega) ?_
  have hraw := bytes.u32_lt 0
  refine Safe.cast_bind (and_lt (by decide)) (Safe.cast_bind (and_lt (by decide)) (Safe.cast_bind ?_
    (Safe.cast_bind (by omega) (Safe.pure trivial))))
  rw [Nat.shiftRight_eq_div_pow]
  omega

theorem connector_safe {index : Nat} : Safe (connector index bytes) (fun _ => True) Fine := by
  unfold connector
  refine Safe.reject_bind_of (by decide) fun h => ?_
  refine (Safe.foldlM (P := fun _ _ => True) trivial fun k hk raw _ => ?_).seq fun raw _ => ?_
  · rw [List.length_range] at hk
    rw [List.getElem_range]
    exact Safe.byteAt_bind (by omega) (Safe.cast_bind (by omega) (Safe.pure trivial))
  · refine Safe.cast_bind (by omega) (Safe.byteAt_bind (by omega) (Safe.byteAt_bind (by omega) ?_))
    split
    · exact Safe.byteAt_bind (by omega) (Safe.byteAt_bind (by omega) (Safe.pure trivial))
    · exact Safe.pure trivial

/-! ## Internal GPIO -/

namespace Gpio

theorem decode_safe {version : Nat} : Safe (decode version bytes) (fun _ => True) Fine := by
  unfold decode
  refine Safe.reject_bind_of (by decide) fun hversion => Safe.reject_bind_of (by decide) fun hstride => ?_
  have hlen : 4 ≤ bytes.len ∧ (version = 0x41 → 5 ≤ bytes.len) := by
    unfold supportedStride at hstride
    split at hstride <;> simp at hstride <;> omega
  refine Safe.u32At_bind (by omega) ((byteIf_safe fun hm => ?_).seq fun extra hextra => ?_)
  · simp only [beq_iff_eq] at hm
    have := hlen.2 hm
    omega
  refine (byteIf_safe fun h6 => by omega).seq fun ext _ => ?_
  have hlow : extra.getD 0 < 256 := by
    cases extra with
    | none => decide
    | some b => exact hextra b rfl
  refine Safe.cast_bind (and_lt (by split <;> decide)) (Safe.cast_bind (and_lt (by decide))
    (Safe.cast_bind ?_ (Safe.cast_bind ?_ (Safe.pure trivial))))
  · split
    · exact and_lt (by decide)
    · exact and_lt (by decide)
  · split
    · rw [Nat.shiftRight_eq_div_pow]
      omega
    · exact and_lt (by decide)

/-- The rows of a catalog are there, each as long as its entries. -/
structure Copied (c : Catalog) : Prop where
  count : c.count < 256
  rows : c.raw.length = c.count
  width : ∀ row ∈ c.raw, row.len = c.entryBytes

theorem entry_safe {c : Catalog} (h : Copied c) {index : Nat} :
    Safe (c.entry index) (fun _ => True) Fine := by
  unfold Catalog.entry
  refine Safe.reject_bind_of (by decide) fun hi => Safe.reject_bind_of (by decide) fun _ => ?_
  refine (elementAt_safe (by have := h.rows; omega)).seq fun row hrow => ?_
  have hlen := h.width row (List.mem_of_getElem? hrow)
  exact Safe.part_bind (by omega) decode_safe

theorem note_safe {signal : Hpd} {index : Nat} {item : Entry} (hh : signal.hits ≤ index)
    (hi : index < 256) : Safe (signal.note index item) (fun s => s.hits ≤ index + 1) Fine := by
  unfold Hpd.note
  split
  · exact Safe.pure (by omega)
  · refine Safe.fits_bind (by omega) ?_
    split
    · exact Safe.pure (by dsimp only; omega)
    · refine Safe.cast_bind (by omega) ?_
      split
      · exact Safe.pure (by dsimp only; omega)
      · exact Safe.pure (by dsimp only; omega)

theorem input_safe {c : Catalog} (h : Copied c) {function : Nat} :
    Safe (c.input function) (fun _ => True) Fine := by
  unfold Catalog.input
  refine (Safe.foldlM (P := fun k s => s.hits ≤ k) (Nat.le_refl _) fun k hk s hs => ?_).mono
    fun _ _ => trivial
  have hcount := h.count
  rw [List.length_range] at hk
  rw [List.getElem_range]
  exact (entry_safe h).seq fun item _ => note_safe hs (by omega)

theorem parse_safe {offset : Nat} : Safe (parse image offset)
    (fun c => Copied c ∧ offset + c.byteLength ≤ image.len) Fine := by
  unfold parse
  refine Safe.seq span_safe fun header hheader => ?_
  obtain ⟨rfl, -⟩ := hheader
  refine Safe.byteAt_bind (by simp) (Safe.reject_bind_of (by decide) fun _ => Safe.byteAt_bind (by simp)
    (Safe.byteAt_bind (by simp) (Safe.byteAt_bind (by simp) (Safe.reject_bind_of (by decide) fun hlimits => ?_))))
  have hsize := (image.sub offset 4).get_lt 1
  have hcount := (image.sub offset 4).get_lt 2
  generalize (image.sub offset 4).get 0 = version at *
  generalize (image.sub offset 4).get 1 = size at *
  generalize (image.sub offset 4).get 2 = count at *
  generalize (image.sub offset 4).get 3 = stride at *
  have hstride : stride ≤ 6 := by
    have hsupported : supportedStride version stride = true := by
      cases h : supportedStride version stride <;> simp_all
    unfold supportedStride at hsupported
    split at hsupported <;> simp at hsupported <;> omega
  have htotal : count * stride ≤ 255 * 6 := Nat.mul_le_mul (by omega) hstride
  refine Safe.fits_bind (by omega) (Safe.seq span_safe fun bytes hbytes => ?_)
  obtain ⟨rfl, hin⟩ := hbytes
  refine Safe.u16At_bind (by simp only [Slice.sub_len]; omega) (Safe.cast_bind (by omega) ?_)
  refine (Safe.foldlM (P := fun k rows => rows.length = k ∧ ∀ row ∈ rows, row.len = stride)
    ⟨rfl, by simp⟩ fun k hk rows hrows => ?_).seq fun raw hraw => ?_
  · rw [List.length_range] at hk
    rw [List.getElem_range]
    refine Safe.checked_bind ⟨by unfold maxEntries; omega, hstride⟩ (Safe.part_bind ?_ (Safe.pure ?_))
    · have : (k + 1) * stride ≤ count * stride := Nat.mul_le_mul_right _ hk
      rw [Nat.succ_mul] at this
      simp only [Slice.sub_len]
      omega
    · refine ⟨by simp [hrows.1], fun row hrow => ?_⟩
      rcases List.mem_append.mp hrow with h | h
      · exact hrows.2 row h
      · rw [List.mem_singleton.mp h]
        rfl
  · rw [List.length_range] at hraw
    refine (Safe.foldlM (P := fun _ _ => True) trivial fun k _ found _ => ?_).seq fun hpd _ =>
      Safe.pure ⟨⟨hcount, hraw.1, hraw.2⟩, hin⟩
    exact (input_safe ⟨hcount, hraw.1, hraw.2⟩).seq fun signal _ => Safe.pure trivial

end Gpio

/-! ## External GPIO -/

namespace Xpio

theorem header_safe {offset minSize stride : Nat} (hs : stride ≤ 4) :
    Safe (header image offset minSize stride) (fun h => h.length = h.size + h.count * stride ∧
      offset + h.length ≤ image.len ∧ minSize ≤ h.size ∧ h.count < 256) Fine := by
  unfold header
  refine Safe.reject_bind_of (by decide) fun h => Safe.part_bind (by omega) ?_
  generalize hb : image.sub offset (image.len - offset) = bytes
  have hlen : bytes.len = image.len - offset := by
    rw [← hb]
    rfl
  refine Safe.byteAt_bind (by omega) (Safe.reject_bind_of (by decide) fun _ => Safe.byteAt_bind (by omega)
    (Safe.byteAt_bind (by omega) (Safe.reject_bind_of (by decide) fun hsize => Safe.byteAt_bind (by omega) ?_)))
  have hcount := bytes.get_lt 2
  have htotal : bytes.get 2 * stride ≤ 255 * 4 := Nat.mul_le_mul (by omega) hs
  refine Safe.fits_bind (by omega) (Safe.reject_bind_of (by decide) fun hfit => Safe.pure ?_)
  exact ⟨rfl, by dsimp only; omega, by dsimp only; omega, hcount⟩

/-- The tables lie in the image, at most one for each pointer. -/
structure Read (image : Slice) (n : Nat) (c : Catalog) : Prop where
  tables : c.tables.length ≤ n
  inside : ∀ t ∈ c.tables, t.range.offset + t.range.bytes ≤ image.len
  master : c.master.offset + c.master.bytes ≤ image.len

theorem specific_safe {offset masterSize : Nat} {result : Catalog} {index : Nat}
    (h : Read image index result) (hi : index < maxTables)
    (hin : offset + masterSize + index * 2 + 2 ≤ image.len) (hsmall : image.len ≤ 1024 * 1024) :
    Safe (specific image offset masterSize result index) (Read image (index + 1)) Fine := by
  have htables := h.tables
  unfold maxTables at hi
  unfold specific
  refine Safe.fits_bind (by omega) (Safe.part_bind hin (Safe.u16At_bind (by simp) ?_))
  split
  · exact Safe.pure ⟨by omega, h.inside, h.master⟩
  · refine (header_safe (by omega)).seq fun head hhead => Safe.reject_bind_of (by decide) fun hfit => ?_
    obtain ⟨hlength, hinside, hmin, hcount⟩ := hhead
    unfold maxEntries at hfit
    refine Safe.part_bind hinside (Safe.checked_bind (by unfold maxTables; omega)
      (Safe.cast_bind (by omega) ?_))
    refine Safe.byteAt_bind (by simp only [Slice.sub_len]; omega) (Safe.byteAt_bind
      (by simp only [Slice.sub_len]; omega) (Safe.byteAt_bind (by simp only [Slice.sub_len]; omega) ?_))
    refine (Safe.foldlM (P := fun _ _ => True) trivial fun k hk rows _ => ?_).seq fun raw _ =>
      Safe.fits_bind (by omega) (Safe.pure ?_)
    · rw [List.length_range] at hk
      rw [List.getElem_range]
      refine Safe.checked_bind (by unfold maxEntries; omega) (Safe.part_bind ?_ (Safe.pure trivial))
      simp only [Slice.sub_len]
      omega
    · refine ⟨by simpa using htables, fun t ht => ?_, h.master⟩
      rcases List.mem_append.mp ht with ht | ht
      · exact h.inside t ht
      · rw [List.mem_singleton.mp ht]
        exact hinside

theorem parse_safe {offset : Nat} (hsmall : image.len ≤ 1024 * 1024) :
    Safe (parse image offset) (Read image maxTables) Fine := by
  unfold parse
  refine (header_safe (by omega)).seq fun master hmaster => Safe.reject_bind_of (by decide) fun hcount => ?_
  obtain ⟨hlength, hinside, -, -⟩ := hmaster
  refine (Safe.foldlM (P := fun k c => Read image k c) ⟨Nat.le_refl _, by simp, hinside⟩
    fun k hk c hc => ?_).mono fun c hc => ?_
  · rw [List.length_range] at hk
    rw [List.getElem_range]
    exact specific_safe hc (by omega) (by omega) hsmall
  · rw [List.length_range] at hc
    exact ⟨by have := hc.tables; omega, hc.inside, hc.master⟩

end Xpio

end Vbios
end NvidiaGsp
