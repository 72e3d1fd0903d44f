import NvidiaGsp.Bar1.Capture
import NvidiaGsp.Bar1.WalkSpec

/-!
# Bar1.CaptureSpec

The ranges that a capture records are the translation of the surface, byte by byte and in order. The
invariant of the loop speaks of the bytes before the offset it has reached.
-/

namespace NvidiaGsp
namespace Bar1

open Bytes Call

variable {vram : Nat → Byte} {reader : Reader} {s : Surface} {h : Held} {ranges : List Span}
  {value : Span} {offset n : Nat} {translation : Nat → Option Nat}

/-! ## The ranges -/

/-- The bytes of a span, in order. -/
def Span.addresses (value : Span) : List Nat := (List.range value.bytes).map (value.address + ·)

def addressesOf (ranges : List Span) : List Nat := ranges.flatMap Span.addresses

def totalOf (ranges : List Span) : Nat := (ranges.map Span.bytes).sum

/-- A span that continues another has its bytes behind the other's. -/
theorem Span.addresses_continue {previous : Span} (h : previous.address + previous.bytes = value.address) :
    Span.addresses ⟨previous.address, previous.bytes + value.bytes⟩ =
      previous.addresses ++ value.addresses := by
  have hshift : (List.range value.bytes).map (fun i => previous.address + (previous.bytes + i)) =
      value.addresses := by
    refine List.map_congr_left fun i _ => ?_
    show previous.address + (previous.bytes + i) = value.address + i
    rw [← Nat.add_assoc, h]
  show (List.range (previous.bytes + value.bytes)).map _ = _
  rw [List.range_add, List.map_append, List.map_map]
  exact congrArg (previous.addresses ++ ·) hshift

theorem addressesOf_append (ranges : List Span) (value : Span) :
    addressesOf (ranges ++ [value]) = addressesOf ranges ++ value.addresses := by
  unfold addressesOf
  rw [List.flatMap_append, List.flatMap_singleton]

theorem totalOf_append (ranges : List Span) (value : Span) :
    totalOf (ranges ++ [value]) = totalOf ranges + value.bytes := by
  unfold totalOf
  rw [List.map_append, List.sum_append, List.map_singleton, List.sum_singleton]

/-- The ranges with one more: its bytes behind all others, and nothing lost. -/
structure Grown (ranges : List Span) (value : Span) (ranges' : List Span) : Prop where
  addresses : addressesOf ranges' = addressesOf ranges ++ value.addresses
  total : totalOf ranges' = totalOf ranges + value.bytes
  length : ranges.length ≤ maxRanges → ranges'.length ≤ maxRanges
  inside : ∀ limit, (∀ r ∈ ranges, r.address + r.bytes ≤ limit) → value.address + value.bytes ≤ limit →
    ∀ r ∈ ranges', r.address + r.bytes ≤ limit

theorem joined_grown {ranges' : List Span} (h : joined ranges value = some ranges') :
    Grown ranges value ranges' := by
  unfold joined at h
  split at h
  · cases h
  rename_i previous hlast
  split at h
  · rename_i hnext
    cases h
    obtain ⟨front, rfl⟩ := List.getLast?_eq_some_iff.mp hlast
    rw [List.dropLast_concat]
    refine ⟨?_, ?_, fun hlength => ?_, fun limit hbefore hvalue r hr => ?_⟩
    · rw [addressesOf_append, addressesOf_append, Span.addresses_continue hnext, List.append_assoc]
    · rw [totalOf_append, totalOf_append, Nat.add_assoc]
    · simpa using hlength
    · obtain hfront | hnew := List.mem_append.mp hr
      · exact hbefore r (List.mem_append_left _ hfront)
      · rw [List.mem_singleton.mp hnew]
        show previous.address + (previous.bytes + value.bytes) ≤ limit
        omega
  · cases h

theorem append_grown (h : ranges.length ≠ maxRanges) : Grown ranges value (ranges ++ [value]) := by
  refine ⟨addressesOf_append ranges value, totalOf_append ranges value, fun hlength => ?_,
    fun limit hbefore hvalue r hr => ?_⟩
  · rw [List.length_append, List.length_singleton]
    omega
  · obtain hfront | hnew := List.mem_append.mp hr
    · exact hbefore r hfront
    · rw [List.mem_singleton.mp hnew]
      exact hvalue

/-! ## The parts of the loop -/

/-- What every error of a capture satisfies; only its end is of interest. -/
def Failed (_ : Fault) (_ : Held) : Prop := True

theorem addRange_spec : Spec (addRange value) h
    (fun _ h' => Grown h.ranges value h'.ranges ∧ h'.control = h.control) Failed := by
  refine .failIf_bind (fun _ => trivial) fun _ => .get_bind ?_
  split
  · rename_i ranges hjoined
    exact ⟨joined_grown hjoined, rfl⟩
  · refine .failIf_bind (fun _ => trivial) fun hroom => ?_
    exact ⟨append_grown hroom, rfl⟩

/-- The pages and the reader's steps touch neither the ranges nor the control word. -/
def Kept (h h' : Held) : Prop := h'.ranges = h.ranges ∧ h'.control = h.control

theorem Kept.trans {a b c : Held} (hab : Kept a b) (hbc : Kept b c) : Kept a c :=
  ⟨hbc.1.trans hab.1, hbc.2.trans hab.2⟩

theorem observing_spec {α : Type} {x : Step α} {R : α → World → Prop} {E : Fault → World → Prop}
    (hx : Spec x h.world R E) : Spec (observing x) h (fun a h' => R a h'.world ∧ Kept h h') Failed := by
  unfold Spec observing at *
  cases hrun : x h.world with
  | ok a w =>
    rw [hrun] at hx
    exact ⟨hx, rfl, rfl⟩
  | error e w => exact trivial

/-- Any step of the reader. -/
theorem observing_kept {α : Type} (x : Step α) :
    Spec (observing x) h (fun _ h' => Kept h h') Failed :=
  (observing_spec (R := fun _ _ => True) (E := fun _ _ => True)
    (.intro (fun _ _ _ => trivial) fun _ _ _ => trivial)).mono (fun _ _ hk => hk.2) fun _ _ he => he

theorem back_kept : Spec (back s) h (fun _ h' => Kept h h') Failed := by
  refine .get_bind ?_
  split
  · exact .pure ⟨rfl, rfl⟩
  · exact .failIf_bind (fun _ => trivial) fun _ => .modify ⟨rfl, rfl⟩

theorem keepPage_kept {address : Nat} :
    Spec (keepPage vram reader s address) h (fun _ h' => Kept h h') Failed := by
  refine .get_bind (.failIf_bind (fun _ => trivial) fun _ => ?_)
  refine .seq back_kept (fun _ h₁ hback => ?_) fun _ _ he => he
  refine .seq (observing_kept _) (fun data h₂ hread => .modify_bind (.pure ?_)) fun _ _ he => he
  exact hback.trans (hread.trans ⟨rfl, rfl⟩)

theorem preserve_kept {entry : Entry} :
    Spec (preserve vram reader s entry) h (fun _ h' => Kept h h') Failed := by
  refine .failIf_bind (fun _ => trivial) fun _ => .get_bind ?_
  split
  · refine .seq (.pure (Q := fun _ h' => Kept h h') ⟨rfl, rfl⟩) (fun data h₁ hk => ?_) fun _ _ he => he
    exact .check (fun _ => trivial) fun _ => hk
  · refine .seq keepPage_kept (fun data h₁ hk => ?_) fun _ _ he => he
    exact .check (fun _ => trivial) fun _ => hk

theorem preserveAll_kept (entries : List Entry) :
    Spec (preserveAll vram reader s entries) h (fun _ h' => Kept h h') Failed := by
  induction entries generalizing h with
  | nil => exact .pure ⟨rfl, rfl⟩
  | cons entry rest ih =>
    refine .seq preserve_kept (fun _ h₁ hk => ?_) fun _ _ he => he
    exact ih.mono (fun _ _ hrest => hk.trans hrest) fun _ _ he => he

theorem settle_spec {report : Report} : Spec (settle report) h
    (fun _ h' => h'.ranges = h.ranges ∧ h'.control = some report.control ∧
      (h.control = none ∨ h.control = some report.control)) Failed := by
  refine .get_bind ?_
  split
  · rename_i control hcontrol
    refine .check (fun _ => trivial) fun hsame => ?_
    have hequal : control = report.control := Decidable.not_not.mp fun hne => hsame (.inl hne)
    rw [hcontrol, hequal]
    exact ⟨rfl, rfl, .inr rfl⟩
  · rename_i hcontrol
    exact ⟨rfl, rfl, .inl hcontrol⟩

/-! ## The loop -/

/-- What BAR1 shows for a byte of the surface. -/
def Surface.shown (s : Surface) (vram : Nat → Byte) (block : Word) (i : Nat) : Option Nat :=
  gmmu vram block (s.physicalAddress + i - s.bar.base)

/-- The bytes before an offset are recorded, in order. -/
def Recorded (vram : Nat → Byte) (s : Surface) (offset : Nat) (h : Held) : Prop :=
  ∃ control, h.control = some control ∧
    (addressesOf h.ranges).map some = (List.range offset).map (s.shown vram control.block)

/-- The invariant of the loop, at the offset it has reached. -/
structure Covers (vram : Nat → Byte) (s : Surface) (offset : Nat) (h : Held) : Prop where
  bounded : offset ≤ s.byteLength
  total : totalOf h.ranges = offset
  length : h.ranges.length ≤ maxRanges
  inside : ∀ r ∈ h.ranges, r.address + r.bytes ≤ s.framebufferBytes
  bytes : (h.control = none ∧ h.ranges = [] ∧ offset = 0) ∨ Recorded vram s offset h

/-- The bytes of a part, as BAR1 shows them. -/
theorem shown_part {q : Request} {block : Word} (hq : s.request offset = .ok q)
    (hbase : q.bar.base ≤ q.cpuPhysical) (hfound : Found q (gmmu vram block) value) :
    value.addresses.map some =
      (List.range value.bytes).map fun d => s.shown vram block (offset + d) := by
  unfold Surface.request at hq
  split at hq
  · cases hq
  · cases hq
    unfold Span.addresses
    rw [List.map_map]
    refine List.map_congr_left fun d hd => ?_
    have htranslates := hfound.translates d (List.mem_range.mp hd)
    have hoffset : s.physicalAddress + (offset + d) - s.bar.base =
        s.physicalAddress + offset - s.bar.base + d := by
      have hreached : s.bar.base ≤ s.physicalAddress + offset := hbase
      omega
    unfold Surface.shown
    rw [hoffset]
    exact htranslates.symm

theorem Surface.request_ok {q : Request} (hq : s.request offset = .ok q) :
    q.bytes = s.byteLength - offset ∧ q.framebufferBytes = s.framebufferBytes := by
  unfold Surface.request at hq
  split at hq
  · cases hq
  · cases hq
    exact ⟨rfl, rfl⟩

/-- The addresses so far and those of a part are the translation up to the part's end. -/
theorem recorded_grown {q : Request} {report : Report} {h' : Held} (hcovers : Covers vram s offset h)
    (hq : s.request offset = .ok q) (hresolved : Resolved vram q report)
    (hsettled : h.control = none ∨ h.control = some report.control)
    (hcontrol : h'.control = some report.control)
    (hgrown : addressesOf h'.ranges = addressesOf h.ranges ++ report.mapped.addresses) :
    Recorded vram s (offset + report.mapped.bytes) h' := by
  refine ⟨report.control, hcontrol, ?_⟩
  have hbefore : (addressesOf h.ranges).map some =
      (List.range offset).map (s.shown vram report.control.block) := by
    obtain ⟨_, hranges, hoffset⟩ | ⟨control, hsame, hbytes⟩ := hcovers.bytes
    · rw [hranges, hoffset]
      rfl
    · rw [hsame] at hsettled
      obtain hnone | hsome := hsettled
      · cases hnone
      · cases hsome
        exact hbytes
  rw [hgrown, List.map_append, hbefore, shown_part hq hresolved.reached hresolved.found, List.range_add,
    List.map_append, List.map_map]
  rfl

/-- One turn records at least one byte more. -/
theorem part_spec (hcovers : Covers vram s offset h) : Spec (part vram reader s offset) h
    (fun next h' => offset < next ∧ Covers vram s next h') Failed := by
  refine .lift_bind (fun _ _ => trivial) fun q hq => ?_
  refine .seq (observing_spec resolve_spec) (fun report h₁ hresolve => ?_) fun _ _ he => he
  obtain ⟨hresolved, hkept⟩ := hresolve
  refine .seq settle_spec (fun _ h₂ hsettle => ?_) fun _ _ he => he
  obtain ⟨hranges, hcontrol, hsettled⟩ := hsettle
  refine .seq addRange_spec (fun _ h₃ hadd => ?_) fun _ _ he => he
  obtain ⟨hgrown, hsame⟩ := hadd
  refine .seq (preserveAll_kept _) (fun _ h₄ hpreserved => .pure ?_) fun _ _ he => he
  rw [hranges, hkept.1] at hgrown
  rw [hkept.2] at hsettled
  obtain ⟨hbytes, hframebuffer⟩ := Surface.request_ok hq
  have hpositive := hresolved.found.positive
  have hwithin := hresolved.found.within
  have hinside := hresolved.found.inside
  refine ⟨by omega, ⟨?_, ?_, ?_, ?_, .inr ?_⟩⟩
  · have hbounded := hcovers.bounded
    omega
  · rw [hpreserved.1, hgrown.total, hcovers.total]
  · rw [hpreserved.1]
    exact hgrown.length hcovers.length
  · rw [hpreserved.1]
    exact hgrown.inside _ hcovers.inside (hframebuffer ▸ hinside)
  · refine recorded_grown hcovers hq hresolved hsettled (hpreserved.2.trans (hsame.trans hcontrol)) ?_
    rw [hpreserved.1, hgrown.addresses]

/-- The loop comes to its end when its fuel is what is left of the surface. -/
theorem parts_spec {fuel : Nat} (hfuel : s.byteLength ≤ offset + fuel)
    (hcovers : Covers vram s offset h) : Spec (parts vram reader s fuel offset) h
      (fun done h' => done = true ∧ Covers vram s s.byteLength h') Failed := by
  induction fuel generalizing offset h with
  | zero =>
    have hend : offset = s.byteLength := by
      have hbounded := hcovers.bounded
      omega
    subst hend
    exact .pure ⟨decide_eq_true (Nat.le_refl _), hcovers⟩
  | succ fuel ih =>
    unfold parts
    split
    · refine .seq (part_spec hcovers) (fun next h₁ hnext => ?_) fun _ _ he => he
      exact ih (by omega) hnext.2
    · have hend : offset = s.byteLength := by
        have hbounded := hcovers.bounded
        omega
      subst hend
      exact .pure ⟨rfl, hcovers⟩

/-- What a capture that came to its end has recorded. -/
structure Captured (vram : Nat → Byte) (s : Surface) (h : Held) : Prop where
  recorded : Recorded vram s s.byteLength h
  total : totalOf h.ranges = s.byteLength
  length : h.ranges.length ≤ maxRanges
  inside : ∀ r ∈ h.ranges, r.address + r.bytes ≤ s.framebufferBytes

theorem capture_spec {w : World} : Spec (capture vram reader s) { world := w }
    (fun done h => done = true ∧ Captured vram s h) Failed := by
  refine .failIf_bind (fun _ => trivial) fun hsize => ?_
  have hstart : Covers vram s 0 { world := w } :=
    ⟨Nat.zero_le _, rfl, Nat.zero_le _, (fun _ hr => nomatch hr), .inl ⟨rfl, rfl, rfl⟩⟩
  refine (parts_spec (Nat.le_add_left _ _) hstart).mono (fun done h hdone => ?_) fun _ _ he => he
  obtain ⟨hend, hcovers⟩ := hdone
  refine ⟨hend, ?_, hcovers.total, hcovers.length, hcovers.inside⟩
  obtain ⟨_, _, hzero⟩ | hrecorded := hcovers.bytes
  · exact absurd (.inl hzero) hsize
  · exact hrecorded

/-- For every content of the video memory: a walk that returns has translated its span as the memory
unit does and never finds its list of entries full, and a capture comes to its end, with ranges that
are the translation of the surface byte by byte. -/
theorem bar1_translates (vram : Nat → Byte) (reader : Reader) (q : Request) (s : Surface) (w : World) :
    Spec (resolve vram q reader) w (fun report _ => Resolved vram q report) (fun e _ => e ≠ .State) ∧
      Spec (capture vram reader s) { world := w } (fun done h => done = true ∧ Captured vram s h)
        fun _ _ => True :=
  ⟨resolve_spec, capture_spec⟩

end Bar1
end NvidiaGsp
