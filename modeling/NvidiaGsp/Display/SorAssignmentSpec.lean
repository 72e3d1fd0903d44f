import NvidiaGsp.Display.SorAssignment

/-!
# Display.SorAssignmentSpec

Which replies assign an output: the loop over the four outputs accepts exactly the maps in which one
free output carries the requested display and every protected display stays where it was.
-/

namespace NvidiaGsp
namespace Display
namespace Sor

open Bytes

variable {request : Request} {params : List Byte} {result result' : Assignment} {index s : Fin 4}
  {l : List (Fin 4)} {record : Gsp.Record}

/-! ## Bits -/

theorem sorBit_eq (index : Fin 4) : sorBit index = BitVec.twoPow 8 index.val := by
  rw [BitVec.twoPow_eq]
  rfl

/-- An output's bit is set in a byte. -/
theorem and_sorBit {bits : Byte} : bits &&& sorBit index = 0 ↔ bits.getLsbD index.val = false := by
  rw [sorBit_eq, BitVec.and_twoPow]
  cases hb : bits.getLsbD index.val with
  | false => simp
  | true =>
    simp only [if_true, Bool.true_eq_false, iff_false]
    intro h
    have := congrArg (fun b : Byte => b.getLsbD index.val) h
    simp at this
    omega

theorem oneBit_twoPow {value : Word} (h : oneBit value = true) :
    ∃ k, k < 32 ∧ value = BitVec.twoPow 32 k := by
  simp only [oneBit, Bool.and_eq_true, bne_iff_ne, ne_eq, beq_iff_eq] at h
  obtain ⟨hne, hand⟩ := h
  have hpos : value.toNat ≠ 0 := fun h0 => hne (BitVec.eq_of_toNat_eq h0)
  have hnat : value.toNat &&& (value.toNat - 1) = 0 := by
    have hsub : (value - 1).toNat = value.toNat - 1 := by
      rw [BitVec.toNat_sub_of_le (by rw [BitVec.le_def]; show 1 ≤ _; omega)]
      rfl
    rw [← hsub, ← BitVec.toNat_and, hand]
    rfl
  obtain ⟨k, hk⟩ := (Nat.and_sub_one_eq_zero_iff_isPowerOfTwo hpos).mp hnat
  have hlt : 2 ^ k < 2 ^ 32 := by
    have := value.isLt
    omega
  refine ⟨k, (Nat.pow_lt_pow_iff_right (by omega)).mp hlt, BitVec.eq_of_toNat_eq ?_⟩
  rw [hk, BitVec.toNat_twoPow, Nat.mod_eq_of_lt hlt]

/-- A mask meets a single display only by containing it. -/
theorem oneBit_contained {value mask : Word} (h : oneBit value = true) :
    mask &&& value ≠ 0 ↔ mask &&& value = value := by
  have hne : value ≠ 0 := by
    rintro rfl
    exact absurd h (by decide)
  constructor
  · intro hm
    obtain ⟨k, -, rfl⟩ := oneBit_twoPow h
    rw [BitVec.and_twoPow] at hm ⊢
    split
    · rfl
    · exact absurd (if_neg ‹_›) hm
  · intro hm
    rw [hm]
    exact hne

/-! ## The exclusion byte -/

theorem getLsbD_protected {bits : Byte} {k : Nat} :
    (l.foldl (fun bits index => if request.protectedIds index ≠ 0 then bits ||| sorBit index
      else bits) bits).getLsbD k = true ↔
      bits.getLsbD k = true ∨ ∃ i ∈ l, i.val = k ∧ request.protectedIds i ≠ 0 := by
  induction l generalizing bits with
  | nil => simp
  | cons i rest ih =>
    rw [List.foldl_cons, ih]
    by_cases hp : request.protectedIds i ≠ 0
    · rw [if_pos hp, sorBit_eq, BitVec.getLsbD_or, BitVec.getLsbD_twoPow]
      simp only [Bool.or_eq_true, Bool.and_eq_true, decide_eq_true_eq, List.mem_cons,
        exists_eq_or_imp]
      have : i.val < 8 := by omega
      tauto
    · rw [if_neg hp]
      simp only [List.mem_cons, exists_eq_or_imp]
      tauto

/-- The byte excludes the outputs of protected displays, and all but a fixed one. -/
theorem excluded_bit {k : Nat} (hk : k < 8) : request.excluded.getLsbD k = true ↔
    (∃ i : Fin 4, i.val = k ∧ request.protectedIds i ≠ 0) ∨
      ∃ f, request.fixedSor = some f ∧ f.val ≠ k := by
  unfold Request.excluded
  rw [getLsbD_protected]
  simp only [List.mem_finRange, true_and]
  cases hf : request.fixedSor with
  | none => simp
  | some f =>
    simp only [Option.some.injEq, exists_eq_left']
    rw [BitVec.getLsbD_not, sorBit_eq, BitVec.getLsbD_twoPow]
    have : f.val < 8 := by omega
    simp only [hk, this, decide_true, Bool.true_and, Bool.not_eq_true', decide_eq_false_iff_not]
    exact or_comm

/-! ## One output -/

/-- What a reply may say of one output, whoever asked for a display. -/
structure Shown (request : Request) (params : List Byte) (index : Fin 4) : Prop where
  maps : word params (24 + index.val * 4) = mask params index
  kind : kind params index ≤ 3
  empty : mask params index = 0 ↔ Sor.kind params index = 0
  own : request.protectedIds index ≠ 0 →
    mask params index &&& request.protectedIds index ≠ 0 ∧ Sor.kind params index = 1
  others : ∀ other, other ≠ index → mask params index &&& request.protectedIds other = 0

/-- The output may carry the requested display. -/
def Free (request : Request) (params : List Byte) (reserved : Byte) (index : Fin 4) : Prop :=
  kind params index = 1 ∧ (request.excluded ||| reserved) &&& sorBit index = 0

def hits (request : Request) (params : List Byte) (index : Fin 4) : Prop :=
  mask params index &&& request.displayId ≠ 0

instance : Decidable (hits request params index) := by
  unfold hits
  infer_instance

/-- The result after some outputs, the assigned one among them or before. -/
def noted (params : List Byte) (result : Assignment) (l : List (Fin 4)) (sor : Word) : Assignment :=
  { result with
    sor := sor
    displays := fun i => if i ∈ l then mask params i else result.displays i
    kinds := fun i => if i ∈ l then kind params i else result.kinds i }

theorem noted_nil : noted params result [] result.sor = result := rfl

theorem noted_noted {sor sor' : Word} :
    noted params (noted params result [index] sor) l sor' = noted params result (index :: l) sor' := by
  unfold noted
  congr 1 <;>
  · funext i
    by_cases hi : i ∈ l
    · simp [hi]
    · by_cases hx : i = index
      · simp [hx]
      · simp [hi, hx]

theorem noted_update {sor : Word} : ({ result with
    sor := sor
    displays := Function.update result.displays index (mask params index)
    kinds := Function.update result.kinds index (kind params index) } : Assignment) =
      noted params result [index] sor := by
  unfold noted
  congr 1 <;>
  · funext i
    by_cases hx : i = index
    · subst hx
      simp
    · simp [hx]

theorem consider_ok_iff : consider request params result index = .ok result' ↔
    Shown request params index ∧
      if hits request params index then
        (result.sor = unassigned ∧ Free request params result.reserved index) ∧
          result' = noted params result [index] (BitVec.ofNat 32 index.val)
      else result' = noted params result [index] result.sor := by
  unfold consider
  dsimp only
  split
  · rename_i h
    simp only [reduceCtorEq, false_iff, not_and]
    intro hs
    have hk : ¬ kind params index > 3 := BitVec.not_lt.mpr hs.kind
    rcases h with h | h | h
    · exact absurd hs.maps h
    · exact absurd h hk
    · exact absurd hs.empty h
  rename_i hmap
  split
  · rename_i h
    simp only [reduceCtorEq, false_iff, not_and]
    intro hs
    obtain ⟨hmask, hkind⟩ := hs.own h.1
    rcases h.2 with h | h
    · exact absurd h hmask
    · exact absurd hkind h
  rename_i hown
  split
  · rename_i h
    simp only [reduceCtorEq, false_iff, not_and]
    intro hs
    obtain ⟨other, hne, hmask⟩ := h
    exact absurd (hs.others other hne) hmask
  rename_i hothers
  simp only [not_or, Decidable.not_not, ne_eq, not_and, not_exists] at hmap hown hothers
  have hshown : Shown request params index := {
    maps := hmap.1
    kind := BitVec.not_lt.mp hmap.2.1
    empty := hmap.2.2
    own := fun hp => hown hp
    others := hothers }
  rw [and_iff_right hshown]
  by_cases hhit : hits request params index
  · rw [if_pos (show mask params index &&& request.displayId ≠ 0 from hhit), if_pos hhit]
    split
    · rename_i h
      simp only [reduceCtorEq, false_iff, not_and]
      rintro ⟨hsor, hkind, hfree⟩
      rcases h with h | h | h
      · exact absurd hsor h
      · exact absurd hkind h
      · exact absurd hfree h
    · rename_i h
      simp only [not_or, Decidable.not_not, ne_eq] at h
      rw [and_iff_right ⟨h.1, h.2.1, h.2.2⟩, noted_update, Except.ok.injEq]
      exact eq_comm
  · rw [if_neg (show ¬ mask params index &&& request.displayId ≠ 0 from hhit), if_neg hhit,
      noted_update, Except.ok.injEq]
    exact eq_comm

/-! ## All outputs -/

theorem assigned_ne (index : Fin 4) : BitVec.ofNat 32 index.val ≠ unassigned := by
  revert index
  decide

/-- The loop accepts sound outputs of which at most one carries the display, and that one is free and
the first to be assigned. -/
theorem considerAll_ok_iff (hnd : l.Nodup) : considerAll request params l result = .ok result' ↔
    (∀ i ∈ l, Shown request params i) ∧
      (((∀ i ∈ l, ¬ hits request params i) ∧ result' = noted params result l result.sor) ∨
        (result.sor = unassigned ∧ ∃ s ∈ l, (∀ i ∈ l, hits request params i ↔ i = s) ∧
          Free request params result.reserved s ∧
          result' = noted params result l (BitVec.ofNat 32 s.val))) := by
  induction l generalizing result with
  | nil =>
    simp only [considerAll, List.not_mem_nil, false_imp_iff, implies_true, true_and, noted_nil,
      false_and, exists_false, and_false, or_false, Except.ok.injEq]
    exact eq_comm
  | cons i rest ih =>
    obtain ⟨hi, hrest⟩ := List.nodup_cons.mp hnd
    have hne : ∀ j ∈ rest, j ≠ i := fun j hj h => hi (h ▸ hj)
    have hstep : considerAll request params (i :: rest) result = .ok result' ↔
        ∃ r, consider request params result i = .ok r ∧
          considerAll request params rest r = .ok result' := by
      rw [considerAll]
      cases consider request params result i with
      | error e => simp
      | ok r => simp
    rw [hstep]
    simp only [consider_ok_iff, ih hrest]
    simp only [List.mem_cons, forall_eq_or_imp, exists_eq_or_imp]
    by_cases hhit : hits request params i
    · simp only [if_pos hhit]
      constructor
      · rintro ⟨r, ⟨hs, ⟨hsor, hfree⟩, rfl⟩, hall, ⟨hno, rfl⟩ | ⟨hbad, -⟩⟩
        · refine ⟨⟨hs, hall⟩, .inr ⟨hsor, .inl ⟨⟨by simp [hhit], fun j hj => ?_⟩, hfree, noted_noted⟩⟩⟩
          exact iff_of_false (hno j hj) (hne j hj)
        · exact absurd hbad (assigned_ne i)
      · rintro ⟨⟨hs, hall⟩, ⟨⟨hno, -⟩, -⟩ | ⟨hsor, hone⟩⟩
        · exact absurd hhit hno
        · rcases hone with ⟨⟨-, hothers⟩, hfree, rfl⟩ | ⟨s, hs', ⟨hi', -⟩, -⟩
          · refine ⟨_, ⟨hs, ⟨hsor, hfree⟩, rfl⟩, hall, .inl ⟨fun j hj => ?_, noted_noted.symm⟩⟩
            exact fun h => hne j hj ((hothers j hj).mp h)
          · exact absurd (hi'.mp hhit).symm (hne s hs')
    · simp only [if_neg hhit]
      constructor
      · rintro ⟨r, ⟨hs, rfl⟩, hall, ⟨hno, rfl⟩ | ⟨hsor, s, hs', hone, hfree, rfl⟩⟩
        · exact ⟨⟨hs, hall⟩, .inl ⟨⟨hhit, hno⟩, noted_noted⟩⟩
        · refine ⟨⟨hs, hall⟩, .inr ⟨hsor, .inr ⟨s, hs', ⟨?_, hone⟩, hfree, noted_noted⟩⟩⟩
          exact iff_of_false hhit (hne s hs').symm
      · rintro ⟨⟨hs, hall⟩, ⟨⟨-, hno⟩, rfl⟩ | ⟨hsor, hone⟩⟩
        · exact ⟨_, ⟨hs, rfl⟩, hall, .inl ⟨hno, noted_noted.symm⟩⟩
        · rcases hone with ⟨⟨hi', -⟩, -⟩ | ⟨s, hs', ⟨-, hothers⟩, hfree, rfl⟩
          · exact absurd (hi'.mpr trivial) hhit
          · exact ⟨_, ⟨hs, rfl⟩, hall, .inr ⟨hsor, s, hs', hothers, hfree, noted_noted.symm⟩⟩

/-! ## The reply -/

/-- The reply echoes the request: it is a success of the same control of the same object, and its
parameters repeat the inputs. -/
structure Echoes (request : Request) (record : Gsp.Record) : Prop where
  function : record.rpc.function = rpcFunction
  gfid : record.rpc.cpuRmGfid = 0
  result : record.rpc.result = 0
  header : answers request .assign record.payload
  status : word record.payload 12 = 0
  params : repeats request (record.payload.drop 24)

/-- The maps of a reply give the display to one output, and leave the protected ones in place. -/
structure Grants (request : Request) (params : List Byte) (s : Fin 4) : Prop where
  maps : ∀ i : Fin 4, word params (24 + i.val * 4) = mask params i
  kinds : ∀ i, kind params i ≤ 3 ∧ (kind params i = 0 ↔ mask params i = 0)
  only : ∀ i, mask params i &&& request.displayId = request.displayId ↔ i = s
  kind : kind params s = 1
  unprotected : request.protectedIds s = 0
  unreserved : (params.getD 72 0).getLsbD s.val = false
  fixed : ∀ f, request.fixedSor = some f → s = f
  kept : ∀ i, request.protectedIds i ≠ 0 →
    mask params i &&& request.protectedIds i = request.protectedIds i ∧ Sor.kind params i = 1 ∧
      ∀ j, j ≠ i → mask params j &&& request.protectedIds i = 0

/-- The assignment a reply tells. -/
def told (params : List Byte) (s : Fin 4) : Assignment where
  sor := BitVec.ofNat 32 s.val
  displays := mask params
  kinds := kind params
  reserved := params.getD 72 0
  flags := word params 76

theorem distinct_bits {ids : List Word} {seen : Word} (h : distinct ids seen = .ok ()) :
    ∀ id ∈ ids, id ≠ 0 → oneBit id = true := by
  induction ids generalizing seen with
  | nil => simp
  | cons first rest ih =>
    rw [distinct] at h
    by_cases hf : first ≠ 0
    · rw [if_pos hf] at h
      split at h
      · cases h
      · rename_i hbit
        simp only [not_or, Decidable.not_not] at hbit
        intro id hid hne
        rcases List.mem_cons.mp hid with rfl | hid
        · exact hbit.1
        · exact ih h id hid hne
    · rw [if_neg hf] at h
      intro id hid hne
      rcases List.mem_cons.mp hid with rfl | hid
      · exact absurd hne hf
      · exact ih h id hid hne

/-- Every display a valid request names is a single bit. -/
theorem validate_bits (h : request.validate = .ok ()) :
    oneBit request.displayId = true ∧
      ∀ i, request.protectedIds i ≠ 0 → oneBit (request.protectedIds i) = true := by
  unfold Request.validate at h
  split at h
  · cases h
  split at h
  · cases h
  rename_i hid
  split at h
  · cases h
  refine ⟨by simpa using hid, fun i hi => distinct_bits h _ ?_ hi⟩
  exact List.mem_map_of_mem (List.mem_finRange i)

theorem free_iff {reserved : Byte} : Free request params reserved s ↔
    kind params s = 1 ∧ request.protectedIds s = 0 ∧ reserved.getLsbD s.val = false ∧
      ∀ f, request.fixedSor = some f → s = f := by
  unfold Free
  rw [and_sorBit, BitVec.getLsbD_or, Bool.or_eq_false_iff, ← Bool.not_eq_true,
    excluded_bit (by omega)]
  simp only [not_or, not_exists, not_and, ne_eq, Decidable.not_not]
  constructor
  · rintro ⟨hkind, ⟨hp, hf⟩, hr⟩
    exact ⟨hkind, hp s rfl, hr, fun f hsome => (Fin.ext (hf f hsome)).symm⟩
  · rintro ⟨hkind, hp, hr, hf⟩
    refine ⟨hkind, ⟨fun i hi => ?_, fun f hsome => ?_⟩, hr⟩
    · rw [Fin.ext hi]
      exact hp
    · rw [hf f hsome]

/-- What the loop accepts is what a grant asks for. -/
theorem grants_iff (hv : request.validate = .ok ()) : Grants request params s ↔
    (∀ i, Shown request params i) ∧ (∀ i, hits request params i ↔ i = s) ∧
      Free request params (params.getD 72 0) s := by
  obtain ⟨hid, hprot⟩ := validate_bits hv
  have hhits : ∀ i, hits request params i ↔
      mask params i &&& request.displayId = request.displayId := fun i => oneBit_contained hid
  constructor
  · intro h
    refine ⟨fun i => ⟨h.maps i, (h.kinds i).1, (h.kinds i).2.symm, fun hp => ?_, fun j hj => ?_⟩,
      fun i => (hhits i).trans (h.only i), free_iff.2 ⟨h.kind, h.unprotected, h.unreserved, h.fixed⟩⟩
    · obtain ⟨hmask, hkind, -⟩ := h.kept i hp
      exact ⟨(oneBit_contained (hprot i hp)).mpr hmask, hkind⟩
    · by_cases hp : request.protectedIds j = 0
      · rw [hp]
        exact BitVec.and_zero
      · exact (h.kept j hp).2.2 i hj.symm
  · rintro ⟨hshown, honly, hfree⟩
    obtain ⟨hkind, hp, hr, hf⟩ := free_iff.1 hfree
    refine {
      maps := fun i => (hshown i).maps
      kinds := fun i => ⟨(hshown i).kind, (hshown i).empty.symm⟩
      only := fun i => (hhits i).symm.trans (honly i)
      kind := hkind
      unprotected := hp
      unreserved := hr
      fixed := hf
      kept := fun i hi => ⟨?_, ((hshown i).own hi).2, fun j hj => (hshown j).others i hj.symm⟩ }
    exact (oneBit_contained (hprot i hi)).mp ((hshown i).own hi).1

theorem decodeAssign_iff (hv : request.validate = .ok ()) {a : Assignment} :
    decodeAssign request params = .ok (.assigned a) ↔
      repeats request params ∧ ∃ s, Grants request params s ∧ a = told params s := by
  have hall : ∀ i : Fin 4, i ∈ List.finRange 4 := List.mem_finRange
  have hstart (r : Assignment) : considerAll request params (List.finRange 4) (fresh params) = .ok r ↔ _ :=
    considerAll_ok_iff (List.nodup_finRange 4)
  simp only [hall, true_imp_iff, true_and] at hstart
  unfold decodeAssign
  by_cases hr : repeats request params
  · rw [if_neg (not_not_intro hr), and_iff_right hr]
    simp only [grants_iff hv]
    constructor
    · intro h
      split at h
      · cases h
      · rename_i r hok
        split at h
        · cases h
        · rename_i hsor
          obtain ⟨hshown, ⟨-, rfl⟩ | ⟨-, s, honly, hfree, rfl⟩⟩ := (hstart _).mp hok
          · exact absurd rfl hsor
          · refine ⟨s, ⟨hshown, honly, hfree⟩, ?_⟩
            obtain rfl : _ = a := by simpa using h
            simp [noted, told, fresh]
    · rintro ⟨s, ⟨hshown, honly, hfree⟩, rfl⟩
      rw [(hstart _).mpr ⟨hshown, .inr ⟨rfl, s, honly, hfree, rfl⟩⟩]
      dsimp only
      have hsor : (noted params (fresh params) (List.finRange 4) (BitVec.ofNat 32 s.val)).sor ≠
          unassigned := assigned_ne s
      rw [if_neg hsor]
      simp [noted, told, fresh]
  · rw [if_pos hr]
    simp [hr]

/-- A valid request is assigned an output by exactly the replies that echo it and grant it one output,
which is the only one that carries the display; and the message sent excludes the outputs of the
protected displays, and all but a fixed one. -/
theorem assignment_admitted (hv : request.validate = .ok ()) (record : Gsp.Record) :
    (∀ a, decode request .assign record = .ok (.assigned a) ↔
      Echoes request record ∧ ∃ s, Grants request (record.payload.drop 24) s ∧
        (∀ s', Grants request (record.payload.drop 24) s' → s' = s) ∧
          a = told (record.payload.drop 24) s) ∧
    ∃ output, encode request .assign = .ok (output, maxBytes) ∧
      ∀ k, k < 8 → ((output.getD 32 0).getLsbD k = true ↔
        (∃ i : Fin 4, i.val = k ∧ request.protectedIds i ≠ 0) ∨
          ∃ f, request.fixedSor = some f ∧ f.val ≠ k) := by
  refine ⟨fun a => ?_, _, by unfold encode; rw [hv]; rfl, fun k hk => ?_⟩
  · have hunique : ∀ s s', Grants request (record.payload.drop 24) s →
        Grants request (record.payload.drop 24) s' → s' = s := fun s s' h h' =>
      (h.only s').mp ((h'.only s').mpr rfl)
    have hdecode : decode request .assign record = .ok (.assigned a) ↔
        Echoes request record ∧
          decodeAssign request (record.payload.drop 24) = .ok (.assigned a) := by
      unfold decode
      rw [hv]
      show (if _ then _ else _) = _ ↔ _
      constructor
      · intro h
        split at h
        · cases h
        rename_i hrpc
        split at h
        · cases h
        split at h
        · cases h
        rename_i hres
        split at h
        · cases h
        rename_i hans
        split at h
        · cases h
        rename_i hstatus
        simp only [not_or, Decidable.not_not, ne_eq] at hrpc hres hans hstatus
        refine ⟨⟨hrpc.1, hrpc.2, hres, hans, hstatus, ?_⟩, h⟩
        exact ((decodeAssign_iff hv).mp h).1
      · rintro ⟨he, h⟩
        rw [if_neg (by simp [he.function, he.gfid]), if_neg (by rw [he.result]; decide),
          if_neg (by simp [he.result]), if_neg (not_not_intro he.header), if_neg (by simp [he.status])]
        exact h
    rw [hdecode, decodeAssign_iff hv]
    constructor
    · rintro ⟨he, -, s, hs, ha⟩
      exact ⟨he, s, hs, fun s' => hunique s s' hs, ha⟩
    · rintro ⟨he, s, hs, -, ha⟩
      exact ⟨he, he.params, s, hs, ha⟩
  · have hput : ∀ header : List Byte, header.length = maxBytes →
        (blit (put header 28 request.displayId) 32 [request.excluded]).getD 32 0 =
          request.excluded := by
      intro header hlen
      have hlen' : (put header 28 request.displayId).length = maxBytes :=
        (length_put (by rw [hlen]; decide)).trans hlen
      rw [getD_blit (by rw [hlen']; simp [maxBytes]), if_pos (by simp)]
      rfl
    have hfields : Fields maxBytes [(0, request.object.client), (4, request.object.display),
        (8, command .assign), (16, BitVec.ofNat 32 (paramsSize .assign))] := by
      constructor
      · simp [maxBytes]
      · simp
    rw [hput _ ((length_putAll (by simpa using hfields)).trans (by simp))]
    exact excluded_bit hk

/-- Display 2 beside display 1, which owns the first output. -/
def secondDisplay : Request where
  object := { epoch := 1, client := 0xc1d00001, display := 0x730000 }
  displayId := 2
  protectedIds := fun index => if index = 0 then 1 else 0

/-- A reply that leaves display 1 on the first output and gives display 2 the second. -/
def secondReply : Gsp.Record where
  shape := Gsp.shapeFor 184
  queueSequence := 1
  rpc := { function := rpcFunction, result := 0 }
  payload := putAll (List.replicate maxBytes 0) [(0, 0xc1d00001), (4, 0x730000), (8, 0x731152),
    (16, 80), (28, 2), (32, 1), (48, 1), (52, 2), (64, 1), (68, 1), (72, 2), (76, 1)]

theorem secondDisplay_assigned : ∃ a, a.sor = 1 ∧
    decode secondDisplay .assign secondReply = .ok (.assigned a) := by
  have hv : secondDisplay.validate = .ok () := by decide
  refine ⟨told (secondReply.payload.drop 24) 1, rfl,
    ((assignment_admitted hv secondReply).1 _).mpr ⟨?_, 1, ?_, ?_, rfl⟩⟩
  · exact ⟨rfl, rfl, rfl, by decide +kernel, by decide +kernel, by decide +kernel⟩
  · exact {
      maps := by decide +kernel
      kinds := by decide +kernel
      only := by decide +kernel
      kind := by decide +kernel
      unprotected := rfl
      unreserved := by decide +kernel
      fixed := fun f h => nomatch h
      kept := by decide +kernel }
  · intro s' h
    exact ((h.only 1).mp (by decide +kernel)).symm

end Sor
end Display
end NvidiaGsp
