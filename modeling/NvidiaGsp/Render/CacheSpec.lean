import NvidiaGsp.Lib.Triples
import NvidiaGsp.Render.Cache

/-!
# Render.CacheSpec

What each call of the cache keeps. `Inv` ties the recorded draws of every resident slot to its bytes,
the mirror to the current slot, and the work of the graphics engine to the borrow.
-/

namespace NvidiaGsp
namespace Render

open Call

variable {Draw : Type} {r : Encoder Draw} {me : Nat} {o : Owner Draw} {m : Machine Draw}
  {staged : List Byte} {memory : Memory}

/-- The encodings of draws, one after another. -/
def encodings (r : Encoder Draw) : List Draw → Except Error (List Byte)
  | [] => .ok []
  | draw :: rest =>
    match r.packetUpload draw with
    | .error e => .error e
    | .ok first =>
      match encodings r rest with
      | .error e => .error e
      | .ok behind => .ok (first ++ behind)

/-- What the cache relies on: packets of one size, whole lists in a slot, a comparison of draws. -/
structure Laws (r : Encoder Draw) : Prop where
  capacity : r.packetBytes * r.batchCapacity ≤ r.packetCapacityBytes
  length : ∀ draw bytes, r.packetUpload draw = .ok bytes → bytes.length = r.packetBytes
  list : ∀ draws room bytes, r.packetUploadList draws room = .ok bytes → encodings r draws = .ok bytes
  agree : ∀ b draws, r.bindingMatches b draws = true → b.draw :: b.additional = draws

def Packet.draws (p : Packet Draw) : List Draw := p.draw.toList ++ p.additional

/-- The bytes of a slot are the encodings of the draws. -/
def Holds (r : Encoder Draw) (memory : Memory) (slot : Nat) (draws : List Draw) : Prop :=
  ∃ bytes, encodings r draws = .ok bytes ∧
    memory.peek (slot * r.packetCapacityBytes) bytes.length = bytes

/-- The graphics engine may still read the slot. -/
def Owner.Outstanding (o : Owner Draw) (slot : Nat) : Prop :=
  (o.packets slot).grSubmitted ≠ (o.packets slot).grCompleted

structure Inv (r : Encoder Draw) (m : Machine Draw) : Prop where
  resident : ∀ i < packetSlots, (m.owner.packets i).cePoint ≠ 0 →
    (m.owner.packets i).draw ≠ none ∧ (m.owner.packets i).additional.length < r.batchCapacity ∧
      Holds r m.memory i (m.owner.packets i).draws
  mirror : m.owner.packetPoint ≠ 0 → m.owner.uploading ≠ some .packet ∧
    m.owner.draw = (m.owner.packets m.owner.packetSlot).draw ∧
    m.owner.additional = (m.owner.packets m.owner.packetSlot).additional
  upload : m.owner.uploading = some .packet →
    (m.owner.packets m.owner.packetSlot).cePoint = 0 ∧ m.owner.packetPoint = 0 ∧
      m.owner.pendingDraw ≠ none ∧ m.owner.pendingAdditional.length < r.batchCapacity ∧
      encodings r (m.owner.pendingDraw.toList ++ m.owner.pendingAdditional) = .ok m.staged
  idle : m.owner.borrowed = true → m.owner.uploading = none
  outstanding : ∀ i < packetSlots, m.owner.Outstanding i →
    i = m.owner.packetSlot ∧ m.owner.submissionPoint ≠ 0
  submission : m.owner.submissionPoint ≠ 0 → m.owner.borrowed = true

/-! ## Encodings -/

theorem length_encodings (hl : Laws r) {draws : List Draw} {bytes : List Byte}
    (h : encodings r draws = .ok bytes) : bytes.length = r.packetBytes * draws.length := by
  induction draws generalizing bytes with
  | nil =>
    obtain rfl := Except.ok.inj h
    simp
  | cons draw rest ih =>
    unfold encodings at h
    split at h
    · cases h
    rename_i first hfirst
    split at h
    · cases h
    rename_i behind hbehind
    obtain rfl := Except.ok.inj h
    rw [List.length_append, hl.length draw first hfirst, ih hbehind, List.length_cons, Nat.mul_succ,
      Nat.add_comm]

theorem encodings_fit (hl : Laws r) {draws : List Draw} {bytes : List Byte}
    (h : encodings r draws = .ok bytes) (hlen : draws.length ≤ r.batchCapacity) :
    bytes.length ≤ r.packetCapacityBytes := by
  rw [length_encodings hl h]
  exact Nat.le_trans (Nat.mul_le_mul_left _ hlen) hl.capacity

/-- Draws with the same bytes one by one have the same bytes. -/
theorem sameBytes_ok {current draws : List Draw} (h : sameBytes r current draws = .ok true)
    (hlen : current.length = draws.length) {bytes : List Byte} (henc : encodings r current = .ok bytes) :
    encodings r draws = .ok bytes := by
  induction current generalizing draws bytes with
  | nil =>
    obtain rfl := List.length_eq_zero_iff.mp hlen.symm
    exact henc
  | cons c cs ih =>
    cases draws with
    | nil => simp at hlen
    | cons d ds =>
      cases hprevious : r.packetUpload c with
      | error e => simp [sameBytes, hprevious] at h
      | ok previous =>
        cases hcandidate : r.packetUpload d with
        | error e => simp [sameBytes, hprevious, hcandidate] at h
        | ok candidate =>
          simp only [sameBytes, hprevious, hcandidate] at h
          split at h
          · cases h
          rename_i heq
          obtain rfl : previous = candidate := not_not.mp heq
          cases hbehind : encodings r cs with
          | error e => simp [encodings, hprevious, hbehind] at henc
          | ok behind =>
            simp only [encodings, hprevious, hbehind] at henc
            simp only [encodings, hcandidate, ih h (Nat.succ.inj hlen) hbehind]
            exact henc

theorem draws_length {p : Packet Draw} (hd : p.draw ≠ none) :
    p.draws.length = p.additional.length + 1 := by
  unfold Packet.draws
  cases hp : p.draw with
  | none => exact absurd hp hd
  | some d => simp

/-! ## The copy engine -/

theorem slot_apart {i j cap n : Nat} (h : i ≠ j) (hn : n ≤ cap) :
    i * cap + n ≤ j * cap ∨ j * cap + cap ≤ i * cap := by
  rcases Nat.lt_or_gt_of_ne h with h | h
  · have := Nat.mul_le_mul_right cap (Nat.succ_le_of_lt h)
    rw [Nat.succ_mul] at this
    omega
  · have := Nat.mul_le_mul_right cap (Nat.succ_le_of_lt h)
    rw [Nat.succ_mul] at this
    omega

/-- A write into one slot leaves the bytes of another. -/
theorem Holds.poke_other (hl : Laws r) {i j : Nat} (hij : i ≠ j) {draws : List Draw} {bytes : List Byte}
    (hlen : draws.length ≤ r.batchCapacity) (hb : bytes.length ≤ r.packetCapacityBytes)
    (h : Holds r memory i draws) :
    Holds r (memory.poke (j * r.packetCapacityBytes) bytes) i draws := by
  obtain ⟨enc, henc, hpeek⟩ := h
  have hfit := encodings_fit hl henc hlen
  refine ⟨enc, henc, Memory.peek_eq rfl fun k hk => ?_⟩
  have happart := slot_apart hij hfit
  have hbyte : (memory.peek (i * r.packetCapacityBytes) enc.length).getD k 0 =
      memory (i * r.packetCapacityBytes + k) := Memory.getD_peek hk
  rw [hpeek] at hbyte
  rw [Memory.poke_outside (by omega), hbyte]

/-- The slot of the upload holds what was written into it. -/
theorem Holds.poke_same {j : Nat} {draws : List Draw} {bytes : List Byte}
    (henc : encodings r draws = .ok bytes) :
    Holds r (memory.poke (j * r.packetCapacityBytes) bytes) j draws :=
  ⟨bytes, henc, Memory.peek_eq rfl fun _ hk => Memory.poke_inside hk⟩

/-- A copy writes memory only. -/
theorem Machine.copy_eq (bytes : List Byte) :
    m.copy r bytes = ⟨m.owner, m.staged, (m.copy r bytes).memory⟩ := by
  unfold Machine.copy
  split <;> rfl

/-- A copy changes nothing unless packets are uploaded. -/
theorem Machine.copy_idle (h : m.owner.uploading ≠ some .packet) (bytes : List Byte) :
    m.copy r bytes = m := if_neg h

theorem Inv.copy (hl : Laws r) (hi : Inv r m) (bytes : List Byte) : Inv r (m.copy r bytes) := by
  by_cases hu : m.owner.uploading = some .packet
  · have hcopy : m.copy r bytes =
        { m with memory := m.memory.poke (m.owner.packetSlot * r.packetCapacityBytes)
                   (bytes.take r.packetCapacityBytes) } := by
      unfold Machine.copy Owner.uploadOffset
      rw [if_pos hu, if_pos hu]
    rw [hcopy]
    refine ⟨fun i hslot hce => ?_, hi.mirror, hi.upload, hi.idle, hi.outstanding, hi.submission⟩
    obtain ⟨hdraw, hlen, hholds⟩ := hi.resident i hslot hce
    have hne : i ≠ m.owner.packetSlot := by
      rintro rfl
      exact hce (hi.upload hu).1
    refine ⟨hdraw, hlen, hholds.poke_other hl hne ?_ (List.length_take_le _ _)⟩
    rw [draws_length hdraw]
    exact hlen
  · rwa [Machine.copy_idle hu]

/-- Once the staged bytes are copied, the slot of the upload holds them. -/
theorem Inv.copied (hl : Laws r) (hi : Inv r m) (hu : m.owner.uploading = some .packet) :
    Holds r (m.copy r m.staged).memory m.owner.packetSlot
      (m.owner.pendingDraw.toList ++ m.owner.pendingAdditional) := by
  obtain ⟨-, -, hdraw, hlen, henc⟩ := hi.upload hu
  have hcount : (m.owner.pendingDraw.toList ++ m.owner.pendingAdditional).length ≤ r.batchCapacity := by
    cases hd : m.owner.pendingDraw with
    | none => exact absurd hd hdraw
    | some d =>
      rw [Option.toList_some, List.singleton_append, List.length_cons]
      exact hlen
  have hfit := encodings_fit hl henc hcount
  unfold Machine.copy Owner.uploadOffset
  rw [if_pos hu, if_pos hu]
  dsimp only
  rw [List.take_of_length_le hfit]
  exact Holds.poke_same henc

/-! ## Reuse -/

/-- A call that only writes flags and counters. -/
structure Quiet (o o' : Owner Draw) : Prop where
  packets : o'.packets = o.packets
  packetSlot : o'.packetSlot = o.packetSlot
  packetPoint : o'.packetPoint = o.packetPoint
  submissionPoint : o'.submissionPoint = o.submissionPoint
  draw : o'.draw = o.draw
  additional : o'.additional = o.additional
  pendingDraw : o'.pendingDraw = o.pendingDraw
  pendingAdditional : o'.pendingAdditional = o.pendingAdditional
  uploading : o'.uploading = o.uploading
  borrowed : o'.borrowed = o.borrowed

theorem Inv.quiet {o' : Owner Draw} (hi : Inv r ⟨o, staged, memory⟩) (h : Quiet o o') :
    Inv r ⟨o', staged, memory⟩ := by
  obtain ⟨hpackets, hslot, hpoint, hsub, hdraw, hadd, hpd, hpa, hup, hborrow⟩ := h
  have houtstanding : ∀ i, o'.Outstanding i ↔ o.Outstanding i := by
    intro i
    unfold Owner.Outstanding
    rw [hpackets]
  refine ⟨?_, ?_, ?_, ?_, fun i hslot' ho => ?_, ?_⟩
  · dsimp only
    rw [hpackets]
    exact hi.resident
  · dsimp only
    rw [hpackets, hslot, hpoint, hdraw, hadd, hup]
    exact hi.mirror
  · dsimp only
    rw [hpackets, hslot, hpoint, hpd, hpa, hup]
    exact hi.upload
  · dsimp only
    rw [hup, hborrow]
    exact hi.idle
  · have := hi.outstanding i hslot' ((houtstanding i).mp ho)
    dsimp only at this ⊢
    rwa [hslot, hsub]
  · dsimp only
    rw [hsub, hborrow]
    exact hi.submission

/-- What a successful reuse leaves: the selected slot is free, and records and holds the draws. -/
structure Reused (r : Encoder Draw) (o o' : Owner Draw) (memory : Memory) (draws : List Draw) : Prop where
  slot : o'.packetSlot < packetSlots
  free : ¬ o.Outstanding o'.packetSlot
  resident : (o'.packets o'.packetSlot).cePoint ≠ 0
  recorded : (o'.packets o'.packetSlot).draws = draws
  holds : Holds r memory o'.packetSlot draws

theorem packetBinding_ok {ports : Ports} {slot : Nat} {b : Binding Draw}
    (h : packetBinding r ports o slot = .ok b) :
    (o.packets slot).cePoint ≠ 0 ∧ (o.packets slot).draw = some b.draw ∧
      (o.packets slot).additional = b.additional := by
  unfold packetBinding at h
  split at h
  · cases h
  dsimp only at h
  split at h
  · cases h
  rename_i draw hdraw
  split at h
  · cases h
  rename_i hcheck
  split at h
  · cases h
  obtain rfl := Except.ok.inj h
  exact ⟨fun hz => hcheck (.inl hz), hdraw, rfl⟩

/-- Recording draws with the bytes of a slot and selecting it keeps the invariant. -/
theorem Inv.rebind (hi : Inv r ⟨o, staged, memory⟩) {slot : Nat} {draw : Draw} {rest : List Draw}
    {rebound : Bool} (hslot : slot < packetSlots) (hce : (o.packets slot).cePoint ≠ 0)
    (hfree : ¬ o.Outstanding slot) (hborrow : o.borrowed = false) (hup : o.uploading = none)
    (hlen : rest.length < r.batchCapacity) (hholds : Holds r memory slot (draw :: rest)) :
    Inv r ⟨o.rebind slot draw rest rebound, staged, memory⟩ ∧
      Reused r o (o.rebind slot draw rest rebound) memory (draw :: rest) := by
  have hself : (o.rebind slot draw rest rebound).packets slot =
      { o.packets slot with draw := some draw, additional := rest } := Function.update_self ..
  have hother {i : Nat} (h : i ≠ slot) : (o.rebind slot draw rest rebound).packets i = o.packets i :=
    Function.update_of_ne h ..
  have hsubmission : o.submissionPoint = 0 := by
    by_contra h
    rw [hi.submission h] at hborrow
    cases hborrow
  refine ⟨⟨fun i hi' hce' => ?_, fun _ => ?_, fun h => ?_, fun h => ?_, fun i hi' ho => ?_, fun h => ?_⟩,
    ⟨hslot, hfree, ?_, ?_, hholds⟩⟩
  · by_cases h : i = slot
    · subst h
      dsimp only
      rw [hself]
      exact ⟨by simp, hlen, hholds⟩
    · dsimp only at hce' ⊢
      rw [hother h] at hce' ⊢
      exact hi.resident i hi' hce'
  · refine ⟨?_, rfl, rfl⟩
    show o.uploading ≠ _
    rw [hup]
    simp
  · have h : o.uploading = some .packet := h
    rw [hup] at h
    cases h
  · have h : o.borrowed = true := h
    rw [hborrow] at h
    cases h
  · have hold : o.Outstanding i := by
      unfold Owner.Outstanding at ho ⊢
      by_cases h : i = slot
      · subst h
        dsimp only at ho
        rwa [hself] at ho
      · dsimp only at ho
        rwa [hother h] at ho
    exact absurd hsubmission (hi.outstanding i hi' hold).2
  · exact absurd hsubmission h
  · show ((o.rebind slot draw rest rebound).packets slot).cePoint ≠ 0
    rw [hself]
    exact hce
  · show ((o.rebind slot draw rest rebound).packets slot).draws = _
    rw [hself]
    rfl

theorem reuseFrom_spec (hl : Laws r) (hi : Inv r ⟨o, staged, memory⟩) {ports : Ports} {draw : Draw}
    {rest : List Draw} (hborrow : o.borrowed = false) (hup : o.uploading = none)
    (hlen : rest.length < r.batchCapacity) (offsets : List Nat) :
    Spec (reuseFrom r ports draw rest offsets) o
      (fun b o' => Inv r ⟨o', staged, memory⟩ ∧ (b = true → Reused r o o' memory (draw :: rest)))
      (fun _ o' => o' = o) := by
  induction offsets with
  | nil => exact ⟨hi, by simp⟩
  | cons offset offsets ih =>
    unfold reuseFrom
    refine .get_bind ?_
    dsimp only
    split
    · exact ih
    rename_i hskip
    simp only [not_or, Decidable.not_not] at hskip
    obtain ⟨hce, -, hcount, hfree⟩ := hskip
    refine .lift_bind (fun e _ => rfl) fun current hcurrent => ?_
    obtain ⟨-, hdraw, hadd⟩ := packetBinding_ok hcurrent
    have hslot : (o.packetSlot + offset) % packetSlots < packetSlots := Nat.mod_lt _ (by decide)
    have hdraws : (o.packets ((o.packetSlot + offset) % packetSlots)).draws =
        current.draw :: current.additional := by
      unfold Packet.draws
      rw [hdraw, hadd]
      rfl
    refine .lift_bind (fun e _ => rfl) fun same hsame => ?_
    cases same with
    | false => exact ih
    | true =>
      refine hi.rebind hslot hce (not_not.mpr hfree) hborrow hup hlen ?_ |>.imp id fun h _ => h
      obtain ⟨-, -, bytes, henc, hpeek⟩ := hi.resident _ hslot hce
      dsimp only at henc
      rw [hdraws] at henc
      refine ⟨bytes, ?_, hpeek⟩
      by_cases hmatch : r.bindingMatches current (draw :: rest) = true
      · rw [← hl.agree current _ hmatch]
        exact henc
      · have hsame : sameBytes r (current.draw :: current.additional) (draw :: rest) = .ok true := by
          simpa [hmatch] using hsame
        refine sameBytes_ok hsame ?_ henc
        rw [List.length_cons, List.length_cons, ← hadd]
        exact hcount

/-- While the engine has the slot, the selection and the recorded draws stay. -/
def Keeps (o o' : Owner Draw) : Prop :=
  o.borrowed = true → o'.packetSlot = o.packetSlot ∧
    ∀ i, (o'.packets i).draws = (o.packets i).draws ∧ (o'.packets i).cePoint = (o.packets i).cePoint

theorem Quiet.refl (o : Owner Draw) : Quiet o o := by constructor <;> rfl

theorem Quiet.keeps {o' : Owner Draw} (h : Quiet o o') : Keeps o o' :=
  fun _ => ⟨h.packetSlot, fun i => by rw [h.packets]; exact ⟨rfl, rfl⟩⟩

theorem Keeps.free {o' : Owner Draw} (h : o.borrowed = false) : Keeps o o' := by
  intro hb
  rw [h] at hb
  cases hb

theorem reusePacketList_spec (hl : Laws r) (hi : Inv r ⟨o, staged, memory⟩) (ports : Ports)
    (draws : List Draw) :
    Spec (reusePacketList r me ports draws) o
      (fun b o' => Inv r ⟨o', staged, memory⟩ ∧ Keeps o o' ∧ (b = true → Reused r o o' memory draws))
      (fun _ o' => Quiet o o') := by
  unfold reusePacketList
  refine .get_bind ?_
  refine .failIf_bind (fun _ => .refl o) fun hopen => ?_
  simp only [not_or, Bool.not_eq_true, Decidable.not_not] at hopen
  obtain ⟨-, hborrow, hup⟩ := hopen
  have hquiet : Quiet o { o with lastReuseRebound := false, lastReuseResident := false } := by
    constructor <;> rfl
  have hi' := hi.quiet hquiet
  refine .bind ?_
  show Spec _ { o with lastReuseRebound := false, lastReuseResident := false } _ _
  split
  · exact hquiet
  · rename_i draw rest
    refine .failIf_bind (fun _ => hquiet) fun hlen => ?_
    split
    · exact ⟨hi', .free hborrow, by simp⟩
    · refine .lift_bind (fun _ _ => hquiet) fun ranges _ => ?_
      refine .lift_bind (fun _ _ => hquiet) fun _ _ => ?_
      refine (reuseFrom_spec hl hi' hborrow hup (by omega) _).mono (fun b o' h => ?_) fun _ o' h => ?_
      · obtain ⟨hinv, hreused⟩ := h
        refine ⟨hinv, .free hborrow, fun hb => ?_⟩
        obtain ⟨hslot, hfree, hres, hrec, hholds⟩ := hreused hb
        exact ⟨hslot, hfree, hres, hrec, hholds⟩
      · rw [h]
        exact hquiet

/-! ## Uploads -/

theorem Inv.resident_update (hi : Inv r ⟨o, staged, memory⟩) {slot i : Nat} {p : Packet Draw}
    (hp : p.cePoint ≠ 0 → p.draw ≠ none ∧ p.additional.length < r.batchCapacity ∧
      Holds r memory slot p.draws)
    (hslot : i < packetSlots) (hce : (Function.update o.packets slot p i).cePoint ≠ 0) :
    (Function.update o.packets slot p i).draw ≠ none ∧
      (Function.update o.packets slot p i).additional.length < r.batchCapacity ∧
      Holds r memory i (Function.update o.packets slot p i).draws := by
  by_cases h : i = slot
  · subst h
    rw [Function.update_self] at hce ⊢
    exact hp hce
  · rw [Function.update_of_ne h] at hce ⊢
    exact hi.resident i hslot hce

theorem beginUploadList_spec (hl : Laws r) (hi : Inv r ⟨o, staged, memory⟩) (ports : Ports)
    (kind : Kind) (draws : List Draw) (room : Nat) :
    Spec (beginUploadList r me ports kind draws room) o
      (fun bytes o' => Inv r ⟨o', bytes, memory⟩ ∧ Keeps o o' ∧
        (kind = .packet → o'.packetSlot < packetSlots ∧ ¬ o.Outstanding o'.packetSlot))
      (fun _ o' => Quiet o o') := by
  unfold beginUploadList
  refine .get_bind ?_
  refine .failIf_bind (fun _ => .refl o) fun hopen => ?_
  simp only [not_or, Bool.not_eq_true, Decidable.not_not] at hopen
  obtain ⟨hvalid, hborrow, hup⟩ := hopen
  have hquiet : Quiet o { o with lastReuseRebound := false, lastReuseResident := false } := by
    constructor <;> rfl
  have hidle : o.uploading ≠ some .packet := by
    rw [hup]
    simp
  have hsubmission : o.submissionPoint = 0 := by
    by_contra h
    rw [hi.submission h] at hborrow
    cases hborrow
  have hnone {i : Nat} (h : i < packetSlots) : ¬ o.Outstanding i := fun ho =>
    (hi.outstanding i h ho).2 hsubmission
  refine .bind ?_
  show Spec _ { o with lastReuseRebound := false, lastReuseResident := false } _ _
  refine .failIf_bind (fun _ => hquiet) fun hargs => ?_
  refine .need_bind (fun _ => hquiet) fun info _ => ?_
  refine .failIf_bind (fun _ => hquiet) fun _ => ?_
  refine .lift_bind (fun _ _ => hquiet) fun bytes _ => ?_
  refine .lift_bind (fun _ _ => hquiet) fun _ _ => ?_
  cases kind with
  | programs =>
    refine .failIf_bind (fun _ => hquiet) fun _ => ?_
    refine .lift_bind (fun _ _ => hquiet) fun written _ => ?_
    refine ⟨⟨hi.resident, fun h => ⟨by simp, (hi.mirror h).2⟩, fun h => by simp at h, fun h => ?_,
      hi.outstanding, hi.submission⟩, .free hborrow, fun h => by cases h⟩
    have h : o.borrowed = true := h
    rw [hborrow] at h
    cases h
  | packet =>
    refine .failIf_bind (fun _ => hquiet) fun _ => ?_
    refine .failIf_bind (fun _ => hquiet) fun _ => ?_
    refine .failIf_bind (fun _ => hquiet) fun _ => ?_
    refine .lift_bind (fun _ _ => hquiet) fun written hwritten => ?_
    have hnext : o.nextPacket < packetSlots := hvalid.2.2.2.2.2.2.2
    have henc := hl.list _ _ _ hwritten
    simp only [reduceCtorEq, false_and, true_and, false_or, not_or] at hargs
    obtain ⟨draw, rest, rfl⟩ : ∃ draw rest, draws = draw :: rest := by
      cases draws with
      | nil => simp at hargs
      | cons draw rest => exact ⟨draw, rest, rfl⟩
    refine ⟨⟨fun i hslot hce => ?_, fun h => absurd rfl h, fun _ => ⟨?_, rfl, by simp, ?_, henc⟩,
      fun h => ?_, fun i hslot ho => ?_, hi.submission⟩, .free hborrow, fun _ => ⟨hnext, hnone hnext⟩⟩
    · exact hi.resident_update (fun h => absurd rfl h) hslot hce
    · show (Function.update o.packets o.nextPacket {} o.nextPacket).cePoint = 0
      rw [Function.update_self]
    · rw [List.length_cons] at hargs
      show rest.length < _
      omega
    · have h : o.borrowed = true := h
      rw [hborrow] at h
      cases h
    · refine absurd ?_ (hnone hslot)
      unfold Owner.Outstanding at ho ⊢
      dsimp only at ho
      by_cases h : i = o.nextPacket
      · subst h
        rw [Function.update_self] at ho
        exact absurd rfl ho
      · rwa [Function.update_of_ne h] at ho

theorem completeUpload_spec (hl : Laws r) (hi : Inv r m) (kind : Kind) (point : Nat) :
    Spec (completeUpload r me kind point) m.owner
      (fun _ o' => Inv r ⟨o', m.staged, (m.copy r m.staged).memory⟩ ∧ Keeps m.owner o')
      (fun _ o' => Quiet m.owner o') := by
  unfold completeUpload
  refine .get_bind ?_
  refine .failIf_bind (fun _ => .refl m.owner) fun hopen => ?_
  simp only [not_or, Decidable.not_not] at hopen
  obtain ⟨-, hup, hpoint⟩ := hopen
  have hborrow : m.owner.borrowed = false := by
    by_contra h
    rw [hi.idle (by simpa using h)] at hup
    cases hup
  cases kind with
  | programs =>
    have hidle : m.copy r m.staged = m := m.copy_idle (by rw [hup]; simp) _
    rw [hidle]
    dsimp only
    refine .bind ?_
    refine .lift_bind (fun _ _ => by constructor <;> rfl) fun _ _ => ?_
    refine ⟨⟨hi.resident, fun h => ⟨by simp, (hi.mirror h).2⟩, fun h => by simp at h, fun _ => rfl,
      hi.outstanding, hi.submission⟩, .free hborrow⟩
  | packet =>
    have hcopied := hi.copied hl hup
    have hcopy := hi.copy hl m.staged
    rw [Machine.copy_eq] at hcopy
    obtain ⟨-, -, -, hlen, -⟩ := hi.upload hup
    refine .need_bind (fun _ => .refl m.owner) fun draw hdraw => ?_
    rw [hdraw] at hcopied
    refine ⟨⟨fun i hslot hce => ?_, fun _ => ⟨by simp, ?_, ?_⟩, fun h => by simp at h, fun _ => rfl,
      fun i hslot ho => ?_, hi.submission⟩, .free hborrow⟩
    · exact hcopy.resident_update (fun _ => ⟨by simp, hlen, hcopied⟩) hslot hce
    · dsimp only
      rw [Function.update_self]
    · dsimp only
      rw [Function.update_self]
    · have hsub : m.owner.submissionPoint = 0 := by
        by_contra h
        rw [hi.submission h] at hborrow
        cases hborrow
      unfold Owner.Outstanding at ho
      dsimp only at ho
      by_cases h : i = m.owner.packetSlot
      · subst h
        rw [Function.update_self] at ho
        exact absurd rfl ho
      · rw [Function.update_of_ne h] at ho
        exact absurd hsub (hi.outstanding i hslot ho).2

theorem cancelUpload_spec (hi : Inv r ⟨o, staged, memory⟩) :
    Spec (cancelUpload r me) o (fun _ o' => Inv r ⟨o', staged, memory⟩ ∧ Keeps o o')
      (fun _ o' => Quiet o o') := by
  unfold cancelUpload
  refine .get_bind ?_
  refine .failIf_bind (fun _ => .refl o) fun hopen => ?_
  simp only [not_or, Decidable.not_not] at hopen
  have hborrow : o.borrowed = false := by
    by_contra h
    exact hopen.2 (hi.idle (by simpa using h))
  exact ⟨⟨hi.resident, fun h => ⟨by simp, (hi.mirror h).2⟩, fun h => by simp at h, fun _ => rfl,
    hi.outstanding, hi.submission⟩, .free hborrow⟩

/-! ## The work of the graphics engine -/

/-- A call that writes the fence and the points of the current slot. -/
def Marks (f : Packet Draw → Packet Draw) : Prop :=
  ∀ p, (f p).draw = p.draw ∧ (f p).additional = p.additional ∧ (f p).cePoint = p.cePoint

theorem Marks.draws {f : Packet Draw → Packet Draw} (h : Marks f) (p : Packet Draw) :
    (f p).draws = p.draws := by
  unfold Packet.draws
  rw [(h p).1, (h p).2.1]

theorem setPacket_self (f : Packet Draw → Packet Draw) :
    (o.setPacket f).packets o.packetSlot = f (o.packets o.packetSlot) := Function.update_self ..

theorem setPacket_other (f : Packet Draw → Packet Draw) {i : Nat} (h : i ≠ o.packetSlot) :
    (o.setPacket f).packets i = o.packets i := Function.update_of_ne h ..

/-- The marks of a slot do not show in what it records. -/
theorem setPacket_marks {f : Packet Draw → Packet Draw} (hf : Marks f) (i : Nat) :
    ((o.setPacket f).packets i).draw = (o.packets i).draw ∧
      ((o.setPacket f).packets i).additional = (o.packets i).additional ∧
      ((o.setPacket f).packets i).cePoint = (o.packets i).cePoint := by
  by_cases h : i = o.packetSlot
  · subst h
    rw [setPacket_self]
    exact hf _
  · rw [setPacket_other f h]
    exact ⟨rfl, rfl, rfl⟩

theorem setPacket_keeps {f : Packet Draw → Packet Draw} (hf : Marks f) {o' : Owner Draw}
    (hpackets : o'.packets = (o.setPacket f).packets) (hslot : o'.packetSlot = o.packetSlot) :
    Keeps o o' := by
  intro _
  refine ⟨hslot, fun i => ?_⟩
  obtain ⟨hdraw, hadd, hce⟩ := setPacket_marks (o := o) hf i
  rw [hpackets]
  unfold Packet.draws
  rw [hdraw, hadd]
  exact ⟨rfl, hce⟩

theorem Inv.setPacket (hi : Inv r ⟨o, staged, memory⟩) {f : Packet Draw → Packet Draw} (hf : Marks f)
    {point : Nat} {borrowed : Bool} (hup : o.uploading = none)
    (hout : ∀ i < packetSlots, (o.setPacket f).Outstanding i → i = o.packetSlot ∧ point ≠ 0)
    (hsub : point ≠ 0 → borrowed = true) :
    Inv r ⟨{ o.setPacket f with submissionPoint := point, borrowed := borrowed }, staged, memory⟩ := by
  refine ⟨fun i hslot hce => ?_, fun h => ?_, fun h => ?_, fun _ => hup, hout, hsub⟩
  · obtain ⟨hdraw, hadd, hpoint⟩ := setPacket_marks (o := o) hf i
    dsimp only at hce ⊢
    rw [hpoint] at hce
    obtain ⟨hd, hlen, hholds⟩ := hi.resident i hslot hce
    unfold Packet.draws at hholds ⊢
    rw [hdraw, hadd]
    exact ⟨hd, hlen, hholds⟩
  · obtain ⟨hidle, hdraw, hadd⟩ := hi.mirror h
    obtain ⟨hdraw', hadd', -⟩ := setPacket_marks (o := o) hf o.packetSlot
    exact ⟨hidle, hdraw.trans hdraw'.symm, hadd.trans hadd'.symm⟩
  · have h : o.uploading = some .packet := h
    rw [hup] at h
    cases h

theorem binding_ok {ports : Ports} {b : Binding Draw} (hi : Inv r ⟨o, staged, memory⟩)
    (h : binding r me ports o = .ok b) :
    o.uploading = none ∧ o.packetSlot < packetSlots ∧ (o.packets o.packetSlot).cePoint ≠ 0 ∧
      (o.packets o.packetSlot).draw = o.draw ∧ (o.packets o.packetSlot).additional = o.additional ∧
      (o.packets o.packetSlot).draws = b.draw :: b.additional := by
  unfold binding at h
  split at h
  · cases h
  rename_i hcheck
  simp only [not_or, Decidable.not_not] at hcheck
  obtain ⟨hvalid, hup, -, hpoint⟩ := hcheck
  split at h
  · cases h
  rename_i current hcurrent
  dsimp only at h
  split at h
  · cases h
  rename_i draw hdraw
  split at h
  · cases h
  obtain rfl := Except.ok.inj h
  obtain ⟨hce, -, -⟩ := packetBinding_ok hcurrent
  obtain ⟨-, hmirror, hadd⟩ := hi.mirror hpoint
  refine ⟨hup, hvalid.2.2.2.2.2.2.1, hce, hmirror.symm, hadd.symm, ?_⟩
  unfold Packet.draws
  dsimp only at hmirror hadd ⊢
  rw [← hmirror, ← hadd, hdraw]
  rfl

/-- The binding shows a resident slot, whose recorded draws are the mirror. -/
structure Bound (r : Encoder Draw) (o : Owner Draw) (memory : Memory) (b : Binding Draw) : Prop where
  slot : o.packetSlot < packetSlots
  resident : (o.packets o.packetSlot).cePoint ≠ 0
  draw : (o.packets o.packetSlot).draw = o.draw
  additional : (o.packets o.packetSlot).additional = o.additional
  recorded : (o.packets o.packetSlot).draws = b.draw :: b.additional
  holds : Holds r memory o.packetSlot (b.draw :: b.additional)

theorem binding_bound {ports : Ports} {b : Binding Draw} (hi : Inv r ⟨o, staged, memory⟩)
    (h : binding r me ports o = .ok b) : Bound r o memory b := by
  obtain ⟨-, hslot, hce, hdraw, hadd, hdraws⟩ := binding_ok hi h
  exact ⟨hslot, hce, hdraw, hadd, hdraws, hdraws ▸ (hi.resident _ hslot hce).2.2⟩

theorem acquire_spec (hi : Inv r ⟨o, staged, memory⟩) (ports : Ports) :
    Spec (acquire r me ports) o
      (fun b o' => Inv r ⟨o', staged, memory⟩ ∧ Keeps o o' ∧ Bound r o memory b)
      (fun _ o' => Quiet o o') := by
  unfold acquire
  refine .get_bind ?_
  refine .failIf_bind (fun _ => .refl o) fun _ => ?_
  refine .lift_bind (fun _ _ => .refl o) fun b hb => ?_
  obtain ⟨hup, -⟩ := binding_ok hi hb
  have hf : Marks fun p : Packet Draw => { p with queueFence := {} } := fun _ => ⟨rfl, rfl, rfl⟩
  refine ⟨hi.setPacket hf hup (fun i hslot ho => hi.outstanding i hslot ?_) fun _ => rfl,
    setPacket_keeps hf rfl rfl, binding_bound hi hb⟩
  unfold Owner.Outstanding at ho ⊢
  by_cases h : i = o.packetSlot
  · subst h
    rwa [setPacket_self] at ho
  · rwa [setPacket_other _ h] at ho

theorem bindQueueFence_spec (hi : Inv r ⟨o, staged, memory⟩) (fence : Fence) :
    Spec (bindQueueFence fence) o (fun _ o' => Inv r ⟨o', staged, memory⟩ ∧ Keeps o o')
      (fun _ o' => Quiet o o') := by
  unfold bindQueueFence
  refine .get_bind ?_
  refine .failIf_bind (fun _ => .refl o) fun hopen => ?_
  simp only [not_or, Bool.not_eq_false] at hopen
  have hf : Marks fun p : Packet Draw => { p with queueFence := fence } := fun _ => ⟨rfl, rfl, rfl⟩
  refine ⟨hi.setPacket hf (hi.idle hopen.1) (fun i hslot ho => hi.outstanding i hslot ?_) hi.submission,
    setPacket_keeps hf rfl rfl⟩
  unfold Owner.Outstanding at ho ⊢
  by_cases h : i = o.packetSlot
  · subst h
    rwa [setPacket_self] at ho
  · rwa [setPacket_other _ h] at ho

theorem submitted_spec (hi : Inv r ⟨o, staged, memory⟩) (point : Nat) :
    Spec (submitted r me point) o (fun _ o' => Inv r ⟨o', staged, memory⟩ ∧ Keeps o o')
      (fun _ o' => Quiet o o') := by
  unfold submitted
  refine .get_bind ?_
  refine .failIf_bind (fun _ => .refl o) fun hopen => ?_
  refine .failIf_bind (fun _ => .refl o) fun _ => ?_
  simp only [not_or, Bool.not_eq_false, Decidable.not_not] at hopen
  obtain ⟨-, hborrow, hnone, hpoint⟩ := hopen
  have hf : Marks fun p : Packet Draw => { p with grSubmitted := point } := fun _ => ⟨rfl, rfl, rfl⟩
  refine ⟨hi.setPacket hf (hi.idle hborrow) (fun i hslot ho => ⟨?_, hpoint⟩) fun _ => hborrow,
    setPacket_keeps hf rfl rfl⟩
  by_contra h
  unfold Owner.Outstanding at ho
  rw [setPacket_other _ h] at ho
  exact (hi.outstanding i hslot ho).2 hnone

theorem completed_spec (hi : Inv r ⟨o, staged, memory⟩) (point : Nat) :
    Spec (completed r me point) o (fun _ o' => Inv r ⟨o', staged, memory⟩ ∧ Keeps o o')
      (fun _ o' => Quiet o o') := by
  unfold completed
  refine .get_bind ?_
  refine .failIf_bind (fun _ => .refl o) fun hopen => ?_
  refine .failIf_bind (fun _ => .refl o) fun hpoint => ?_
  simp only [not_or, Bool.not_eq_false, Decidable.not_not] at hopen hpoint
  obtain ⟨-, hborrow, -, -⟩ := hopen
  have hf : Marks fun p : Packet Draw => { p with grCompleted := point } := fun _ => ⟨rfl, rfl, rfl⟩
  have hnone : ∀ i < packetSlots, ¬ (o.setPacket fun p => { p with grCompleted := point }).Outstanding i := by
    intro i hslot ho
    unfold Owner.Outstanding at ho
    by_cases h : i = o.packetSlot
    · subst h
      rw [setPacket_self] at ho
      exact ho hpoint
    · rw [setPacket_other _ h] at ho
      exact h (hi.outstanding i hslot ho).1
  have hsub : (0 : Nat) ≠ 0 → o.borrowed = true := fun h => absurd rfl h
  have hinv := hi.setPacket hf (hi.idle hborrow) (fun i hslot ho => absurd ho (hnone i hslot)) hsub
  exact ⟨hinv.quiet (by constructor <;> rfl), setPacket_keeps hf rfl rfl⟩

theorem release_spec (hi : Inv r ⟨o, staged, memory⟩) :
    Spec (release r me) o (fun _ o' => Inv r ⟨o', staged, memory⟩ ∧ Keeps o o')
      (fun _ o' => Quiet o o') := by
  unfold release
  refine .get_bind ?_
  refine .failIf_bind (fun _ => .refl o) fun hopen => ?_
  simp only [not_or, Bool.not_eq_false, Decidable.not_not] at hopen
  exact ⟨⟨hi.resident, hi.mirror, hi.upload, fun h => (by cases h), hi.outstanding,
    fun h => absurd hopen.2.2 h⟩, fun _ => ⟨rfl, fun _ => ⟨rfl, rfl⟩⟩⟩

end Render
end NvidiaGsp
