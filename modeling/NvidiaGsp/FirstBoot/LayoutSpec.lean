import NvidiaGsp.FirstBoot.Layout

/-!
# FirstBoot.LayoutSpec

Every layout fits: no step of `firstBoot` leaves the range of its words, its regions lie behind each
other in the prescrubbed top of the memory, and once the heap has a limit nothing can fail.
-/

namespace NvidiaGsp
namespace FirstBoot

open Parse Rounding

variable {chipId imageBytes bootBytes : Nat} {raw : Raw} {state : State} {l : Limits} {α : Type}
  {R : α → Prop} {E : Error → Prop}

theorem prescrubbed_eq : prescrubbedBytes = 268435456 := by
  unfold prescrubbedBytes
  rw [mb_eq]

theorem minHeap_eq : minHeapBytes = 92274688 := by
  unfold minHeapBytes
  rw [mb_eq]

/-- No subtraction of `firstBoot` goes below zero. -/
def Fitting (e : Error) : Prop := e ≠ .Bounds

instance {e : Error} : Decidable (Fitting e) := inferInstanceAs (Decidable (_ ≠ _))

/-! ## The snapshot -/

theorem get_bind {reg : Register} {f : Word → Parse Error α} (h : ∀ v, Safe (f v) R Fitting) :
    Safe (raw.get reg >>= f) R Fitting := by
  refine Safe.seq (Q := fun _ => True) ?_ fun v _ => h v
  refine Safe.reject_bind_of ?_ fun _ => Safe.reject_bind_of ?_ fun _ => Safe.pure trivial
  all_goals decide

theorem getIf_bind {wanted : Bool} {reg : Register} {f : Word → Parse Error α}
    (h : ∀ v, Safe (f v) R Fitting) : Safe (raw.getIf wanted reg >>= f) R Fitting := by
  cases wanted with
  | true => exact get_bind h
  | false => exact h 0

/-- What the snapshot says about the memory. -/
structure Observed (s : State) : Prop where
  least : mb ≤ s.fbBytes
  most : s.fbBytes ≤ 2 ^ 40
  whole : s.fbBytes % mb = 0
  vga : s.vgaValid = true → s.vgaBase < s.fbBytes
  moved : s.vgaRelocationNeeded = true ↔ s.vgaValid = true ∧ s.vgaBase < s.fbBytes - mb

theorem decode_safe : Safe (decode raw) Observed Fitting := by
  refine get_bind fun hwcfg => get_bind fun hwcfg2 => get_bind fun cpuctl => get_bind fun _ => ?_
  refine get_bind fun dmacmd => get_bind fun engine => Safe.reject_bind_of (by decide) fun _ => ?_
  refine getIf_bind fun riscvCpu => getIf_bind fun bcr => get_bind fun fbMb => ?_
  refine Safe.reject_bind_of (by decide) fun hfb => ?_
  refine get_bind fun lo => get_bind fun hi => Safe.reject_bind_of (by decide) fun _ => ?_
  refine get_bind fun _ => getIf_bind fun vga => Safe.reject_bind_of (by decide) fun hvga => ?_
  have hmb := mb_eq
  refine Safe.checked_bind (by omega) (Safe.pure ⟨?_, ?_, ?_, fun hv => ?_, ?_⟩)
  · show mb ≤ fbMb.toNat * mb
    omega
  · show fbMb.toNat * mb ≤ 2 ^ 40
    omega
  · exact Nat.mul_mod_left _ _
  · exact Nat.lt_of_not_le fun hle => hvga ⟨hv, hle⟩
  · exact decide_eq_true_iff

/-! ## The limits -/

theorem subtract_safe {a b : Nat} (h : b ≤ a) : Safe (subtract a b) (· = a - b) E := by
  unfold subtract
  rw [reject_of_not (by omega)]
  exact Safe.pure rfl

theorem up_safe {v a : Nat} (ha : 0 < a) (hv : v + (a - 1) < 2 ^ 64) :
    Safe (up v a) (fun r => v ≤ r ∧ r ≤ v + (a - 1) ∧ r % a = 0) E := by
  unfold up
  rw [reject_of_not (by omega)]
  exact Safe.pure (up_facts ha)

theorem metadata_up {n : Nat} (h : metadataBytes ≤ n ∧ n ≤ metadataBytes + (mb - 1) ∧ n % mb = 0) :
    n = mb := by
  rw [mb_eq] at *
  unfold metadataBytes at h
  omega

/-- What holds when the limit of the heap is known. -/
structure Limited (imageBytes bootBytes : Nat) (l : Limits) : Prop where
  observed : Observed l.state
  image : 0 < imageBytes ∧ imageBytes ≤ maxImageBytes
  booter : 0 < bootBytes ∧ bootBytes ≤ mb
  enough : prescrubbedBytes ≤ l.state.fbBytes
  vga : l.vgaBase < l.state.fbBytes ∧ l.state.fbBytes - mb ≤ l.vgaBase
  wpr : l.wprEnd ≤ l.vgaBase
  frts : l.frtsStart + mb = l.wprEnd
  boot : l.bootStart + bootBytes ≤ l.frtsStart ∧ l.bootStart % 0x1000 = 0
  firmware : l.imageStart + imageBytes ≤ l.bootStart ∧ l.imageStart % 0x10000 = 0
  metadata : l.metadataReservation = mb
  heap : l.heapLimit % mb = 0 ∧ minHeapBytes ≤ l.heapLimit
  room : l.state.fbBytes + 2 * mb + l.heapLimit ≤ l.imageStart + prescrubbedBytes

theorem vga_safe (h : Observed state) (henough : prescrubbedBytes ≤ state.fbBytes) :
    Safe state.vga (fun base => base < state.fbBytes ∧ state.fbBytes - mb ≤ base) Fitting := by
  have hmb := mb_eq
  have hpre := prescrubbed_eq
  unfold State.vga
  split
  · exact Safe.checked (by omega) (by omega)
  · rename_i hvalid
    split
    · exact Safe.checked (by omega) (by omega)
    · rename_i hmoved
      have hvga := h.vga (Decidable.not_not.mp hvalid)
      have hbase : ¬ state.vgaBase < state.fbBytes - mb := fun hlt =>
        hmoved (h.moved.mpr ⟨Decidable.not_not.mp hvalid, hlt⟩)
      exact Safe.pure (by omega)

theorem limit_safe : Safe (limit chipId raw imageBytes bootBytes) (Limited imageBytes bootBytes)
    Fitting := by
  have hmb := mb_eq
  have hpre := prescrubbed_eq
  have hmax : maxImageBytes = 67108864 := rfl
  refine Safe.reject_bind_of (by decide) fun _ => Safe.reject_bind_of (by decide) fun _ => ?_
  refine Safe.seq decode_safe fun state hs => ?_
  refine Safe.reject_bind_of (by decide) fun _ => Safe.reject_bind_of (by decide) fun _ => ?_
  refine Safe.reject_bind_of (by decide) fun hsize => ?_
  refine Safe.reject_bind_of (by decide) fun henough => ?_
  refine Safe.seq (vga_safe hs (by omega)) fun vgaBase hvga => ?_
  have hfb := hs.most
  have hwpr := down_le vgaBase 0x20000
  have hwpr' := @lt_down vgaBase 0x20000 (by decide)
  refine Safe.seq (subtract_safe (by omega)) fun frtsStart hfrts => ?_
  refine Safe.seq (subtract_safe (by omega)) fun bootEnd hbootEnd => ?_
  have hboot := down_le bootEnd 0x1000
  have hboot' := @lt_down bootEnd 0x1000 (by decide)
  refine Safe.seq (subtract_safe (by omega)) fun imageEnd himageEnd => ?_
  have himage := down_le imageEnd 0x10000
  have himage' := @lt_down imageEnd 0x10000 (by decide)
  refine Safe.seq (up_safe (by omega) (by unfold metadataBytes; omega)) fun metadata hmetadata => ?_
  have hmeta : metadata = mb := metadata_up hmetadata
  refine Safe.fits_bind (by omega) (Safe.checked_bind (by omega) ?_)
  refine Safe.seq (up_safe (by omega) (by omega)) fun posterior hposterior => ?_
  refine Safe.fits_bind (by omega) (Safe.reject_bind_of (by decide) fun haround => ?_)
  refine Safe.checked_bind (by omega) (Safe.checked_bind (by omega) ?_)
  refine Safe.reject_bind_of (by decide) fun hheap => ?_
  have hlimit := down_le (prescrubbedBytes - (metadata + mb) - posterior) mb
  refine Safe.pure {
    observed := hs
    image := by omega
    booter := by omega
    enough := ?_
    vga := hvga
    wpr := hwpr
    frts := ?_
    boot := ⟨?_, down_mod _ _⟩
    firmware := ⟨?_, down_mod _ _⟩
    metadata := hmeta
    heap := ⟨down_mod _ _, ?_⟩
    room := ?_ } <;> dsimp only <;> omega

/-! ## The placement -/

theorem requestedHeap_safe {fb heapLimit : Nat} (hfb : fb ≤ 2 ^ 40)
    (hlimit : heapLimit % mb = 0 ∧ minHeapBytes ≤ heapLimit) :
    Safe (requestedHeap fb heapLimit)
      (fun n => n % mb = 0 ∧ minHeapBytes ≤ n ∧ n ≤ heapLimit) fun _ => False := by
  have hmb := mb_eq
  have hmin := minHeap_eq
  refine Safe.seq (up_safe (by omega) (by omega)) fun fbUp hup => ?_
  refine Safe.fits_bind (by omega) ?_
  refine Safe.seq (up_safe (by omega) (by omega)) fun growing hgrowing => ?_
  refine Safe.fits_bind (by omega) (Safe.pure ⟨min_mod ?_ hlimit.1,
    Nat.le_min.mpr ⟨Nat.le_max_right _ _, hlimit.2⟩, Nat.min_le_right _ _⟩)
  have hgrowingMod := hgrowing.2.2
  have hminMod : minHeapBytes % mb = 0 := Nat.mul_mod_left _ _
  refine max_mod ?_ hminMod
  simp [Nat.add_mod, hgrowingMod]

def Plan.regions (p : Plan) : List Range :=
  [p.nonWprHeap, p.metadataReservation, p.heap, p.firmware, p.boot, p.frts, p.vga]

/-- A layout as the boot needs it. -/
structure LaidOut (imageBytes bootBytes : Nat) (p : Plan) : Prop where
  ordered : p.regions.Pairwise fun r s => r.stop ≤ s.offset
  wpr : p.wpr.offset = p.metadataReservation.offset ∧ p.wpr.stop = p.frts.stop
  inside : ∀ r ∈ p.wpr :: p.regions, p.fbBytes - prescrubbedBytes ≤ r.offset ∧ r.stop ≤ p.fbBytes
  reserved : p.reserved.offset = p.nonWprHeap.offset ∧ p.reserved.stop = p.fbBytes
  prescrubbed : p.prescrubbed = ⟨p.fbBytes - prescrubbedBytes, prescrubbedBytes⟩ ∧
    prescrubbedBytes ≤ p.fbBytes ∧ p.fbBytes ≤ 2 ^ 40
  heap : p.heap.offset % mb = 0 ∧ 88 * mb ≤ p.heap.bytes ∧ p.heap.bytes ≤ p.heapLimitBytes
  boot : p.boot.offset % 0x1000 = 0 ∧ p.boot.bytes = bootBytes
  firmware : p.firmware.offset % 0x10000 = 0 ∧ p.firmware.bytes = imageBytes

/-- Once the limit of the heap is known, every region finds its place. -/
theorem place_safe (h : Limited imageBytes bootBytes l) :
    Safe (place l imageBytes bootBytes) (LaidOut imageBytes bootBytes) fun _ => False := by
  have hmb := mb_eq
  have hpre := prescrubbed_eq
  have hmin := minHeap_eq
  have := h.image
  have := h.enough
  have := h.vga
  have := h.wpr
  have := h.frts
  have := h.boot
  have := h.firmware
  have := h.room
  have := h.heap
  have hwhole := h.observed.whole
  have hmost := h.observed.most
  refine Safe.seq (requestedHeap_safe hmost h.heap) fun n hn => ?_
  refine Safe.seq (subtract_safe (by omega)) fun heapEnd hheapEnd => ?_
  have hstart := down_le heapEnd mb
  have hstart' := @lt_down heapEnd mb (by omega)
  have hstartMod := down_mod heapEnd mb
  -- The heap may be as large as its limit and still begins behind the two reservations.
  have hlow : l.state.fbBytes - prescrubbedBytes + 2 * mb ≤ down heapEnd mb :=
    le_down (by rw [hmb] at *; omega) (by omega)
  dsimp only
  generalize down heapEnd mb = heapStart at *
  rw [h.metadata]
  refine Safe.seq (subtract_safe (by omega)) fun wprStart hwprStart => ?_
  refine Safe.seq (subtract_safe (by omega)) fun nonWprStart hnonWpr => ?_
  refine Safe.checked_bind (by omega) ?_
  rw [reject_of_not (by omega)]
  refine Safe.checked_bind (by omega) (Safe.checked_bind (by omega) ?_)
  refine Safe.checked_bind (by omega) (Safe.checked_bind (by omega) ?_)
  have hbytes := down_le (l.imageStart - heapStart) mb
  have hbytes' : n ≤ down (l.imageStart - heapStart) mb := le_down hn.1 (by omega)
  have hbytesMod := down_mod (l.imageStart - heapStart) mb
  have hexact : n = down (l.imageStart - heapStart) mb := eq_of_mod hn.1 hbytesMod hbytes' (by omega)
  rw [← hexact]
  refine Safe.pure {
    ordered := ?_
    wpr := ⟨rfl, ?_⟩
    inside := ?_
    reserved := ⟨rfl, ?_⟩
    prescrubbed := ⟨rfl, h.enough, hmost⟩
    heap := ⟨hstartMod, ?_, hn.2.2⟩
    boot := ⟨h.boot.2, rfl⟩
    firmware := ⟨h.firmware.2, rfl⟩ }
  · simp only [Plan.regions, Range.stop, List.pairwise_cons, List.forall_mem_cons, List.Pairwise.nil,
      List.not_mem_nil, false_imp_iff, implies_true, and_true]
    omega
  · simp only [Range.stop]
    omega
  · simp only [Plan.regions, Range.stop, List.forall_mem_cons, List.not_mem_nil, false_imp_iff,
      implies_true, and_true]
    omega
  · simp only [Range.stop]
    omega
  · exact hn.2.1

theorem firstBoot_safe : Safe (firstBoot chipId raw imageBytes bootBytes) (LaidOut imageBytes bootBytes)
    Fitting :=
  Safe.seq limit_safe fun l hl => by
    have hplace := place_safe hl
    cases hp : place l imageBytes bootBytes with
    | ok p => exact hplace.ok hp
    | error e =>
      rw [hp] at hplace
      cases e with
      | error _ => exact hplace.elim
      | trap _ => exact hplace.elim

/-- A layout with a heap is complete. -/
theorem place_returns (h : limit chipId raw imageBytes bootBytes = .ok l) :
    ∃ p, place l imageBytes bootBytes = .ok p := by
  have hplace := place_safe (limit_safe.ok h)
  cases hp : place l imageBytes bootBytes with
  | ok p => exact ⟨p, rfl⟩
  | error e =>
    rw [hp] at hplace
    cases e with
    | error _ => exact hplace.elim
    | trap _ => exact hplace.elim

end FirstBoot
end NvidiaGsp
