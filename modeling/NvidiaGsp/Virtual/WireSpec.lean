import NvidiaGsp.Virtual.WireChecked

/-!
# Virtual.WireSpec

What the readers of the answers accept. An allocation is granted by the exact request with some fields
filled in (`Granted`): the status, the attribute words under their documented normalisations, the
range, the address and its limit. A freed range and a mapping are echoed; a non-zero inner status
behind an intact header refuses. `replies_exact` says that these are all the answers, that no answer
makes the readers trap, and that a granted address serves the requests that follow.
-/

namespace NvidiaGsp
namespace Virtual

open Gsp Bytes Parse

variable {a : Allocation} {m : Mapping} {request : Encoded} {record : Record} {address : Nat}

/-! ## Bytes and long words -/

theorem ok_then {α β : Type} (x : α) (f : α → Except Error β) : (Except.ok x >>= f) = f x := rfl

theorem same_iff {skipped : Nat → Bool} {x y : List Byte} {n : Nat} :
    ¬ ((List.range n).any fun i => !skipped i && x.getD i 0 != y.getD i 0) = true ↔
      ∀ i < n, skipped i = false → x.getD i 0 = y.getD i 0 := by
  simp only [List.any_eq_true, List.mem_range, Bool.and_eq_true, Bool.not_eq_true', bne_iff_ne, not_exists,
    not_and, not_not]

theorem getD_drop (bytes : List Byte) (k i : Nat) : (bytes.drop k).getD i 0 = bytes.getD (k + i) 0 := by
  simp [List.getD_eq_getElem?_getD, List.getElem?_drop]

theorem word_drop (bytes : List Byte) (k i : Nat) : word (bytes.drop k) i = word bytes (k + i) :=
  word_congr fun j _ => by rw [getD_drop, Nat.add_assoc]

theorem long_drop (bytes : List Byte) (k i : Nat) : long (bytes.drop k) i = long bytes (k + i) := by
  unfold long
  rw [word_drop, word_drop, Nat.add_assoc]

theorem long_congr {x y : List Byte} {i : Nat} (h : ∀ j, i ≤ j → j < i + 8 → x.getD j 0 = y.getD j 0) :
    long x i = long y i := by
  unfold long
  rw [word_congr fun k hk => h (i + k) (by omega) (by omega),
    word_congr fun k hk => h (i + 4 + k) (by omega) (by omega)]

theorem long_of_words {bytes : List Byte} {i v : Nat} (hv : v < 2 ^ 64)
    (hlow : word bytes i = BitVec.ofNat 32 v) (hhigh : word bytes (i + 4) = BitVec.ofNat 32 (v / 2 ^ 32)) :
    long bytes i = v := by
  unfold long
  rw [hlow, hhigh, BitVec.toNat_ofNat, BitVec.toNat_ofNat]
  omega

/-! ## The receipt -/

/-- An answer to the request: the same function from the host, executed, with an intact header. -/
structure Answers (record : Record) (request : Encoded) (statusAt : Nat) (shortAllocate : Bool) : Prop where
  function : record.rpc.function = request.function
  guest : record.rpc.cpuRmGfid = 0
  result : record.rpc.result = 0
  length : record.payload.length = request.bytes.length ∨
    shortAllocate = true ∧ record.payload.length = 32
  header : ∀ i < min record.payload.length 32, ¬ (statusAt ≤ i ∧ i < statusAt + 4) →
    record.payload.getD i 0 = request.bytes.getD i 0

theorem receipt_ok {statusAt : Nat} {shortAllocate : Bool} {status : Word} :
    receipt record request statusAt shortAllocate = .ok status ↔
      Answers record request statusAt shortAllocate ∧ word record.payload statusAt = status := by
  unfold receipt
  dsimp only
  have hskip (i : Nat) : (decide (statusAt ≤ i) && decide (i < statusAt + 4)) = false ↔
      ¬ (statusAt ≤ i ∧ i < statusAt + 4) := by
    simp only [Bool.and_eq_false_iff, decide_eq_false_iff_not]
    omega
  have hlen : ¬ (record.payload.length ≠ request.bytes.length ∧
        ¬ (shortAllocate = true ∧ record.payload.length = 32)) ↔
      (record.payload.length = request.bytes.length ∨
        shortAllocate = true ∧ record.payload.length = 32) := by
    rw [not_and_or, not_not, not_not]
  rw [check_ok, check_ok, check_ok, check_ok, check_ok, same_iff, hlen]
  simp only [hskip, not_or, ne_eq, not_not, Except.ok.injEq]
  constructor
  · rintro ⟨⟨hfunction, hguest⟩, -, hresult, hlength, hheader, hstatus⟩
    exact ⟨⟨hfunction, hguest, hresult, hlength, hheader⟩, hstatus⟩
  · rintro ⟨⟨hfunction, hguest, hresult, hlength, hheader⟩, hstatus⟩
    refine ⟨⟨hfunction, hguest⟩, ?_, hresult, hlength, hheader, hstatus⟩
    rw [hresult]
    decide

/-- An answer that refuses the request. -/
structure Rejects (record : Record) (request : Encoded) (statusAt : Nat) (shortAllocate : Bool)
    (status : Word) : Prop where
  answers : Answers record request statusAt shortAllocate
  told : word record.payload statusAt = status
  nonzero : status ≠ 0

/-! ## The attributes and the range -/

abbrev physicalityMask : Word := 3 <<< 27
abbrev locationMask : Word := 3 <<< 25

/-- The documented normalisations: the location may become any, the address space contiguous, the
zero-bandwidth clear refused, and the kind of a plain image the generic one. -/
structure Normalised (before after : List Byte) : Prop where
  kept : word before 24 &&& ~~~(physicalityMask ||| locationMask) =
    word after 24 &&& ~~~(physicalityMask ||| locationMask)
  location : word after 24 &&& locationMask = word before 24 &&& locationMask ∨
    word after 24 &&& locationMask = locationMask
  physicality : word after 24 &&& physicalityMask = word before 24 &&& physicalityMask ∨
    word after 24 &&& physicalityMask = 2 <<< 27
  compression : word after 28 = word before 28 ∨
    word before 28 &&& 3 = 0 ∧ word after 28 = word before 28 ||| 1
  kind : word after 32 = word before 32 ∨ word before 32 = 0 ∧ word after 32 = 6 ∧
    word before 24 &&& (3 <<< 12) = 0 ∧
      (word before 4 = 0 ∨ word before 4 = 5 ∨ word before 4 = 6 ∨ word before 4 = 8)

theorem kept_or {p q : Prop} : ¬ (¬ p ∧ ¬ q) ↔ p ∨ q := by
  rw [not_and_or, not_not, not_not]

theorem allocationAttributes_ok {before after : List Byte} {u : Unit} :
    allocationAttributes before after true = .ok u ↔
      (before.length = 128 ∧ after.length = 128) ∧ Normalised before after := by
  unfold allocationAttributes
  rw [check_ok]
  dsimp only
  rw [check_ok, check_ok, check_ok, check_ok, check_ok]
  simp only [if_true, Bool.true_eq_false, false_and, not_false_eq_true, true_and, and_true, not_or, ne_eq,
    kept_or, not_not]
  constructor
  · rintro ⟨hlen, hkept, ⟨hlocation, hphysicality⟩, hcompression, hkind⟩
    exact ⟨hlen, hkept, hlocation, hphysicality, hcompression, hkind⟩
  · rintro ⟨hlen, hkept, hlocation, hphysicality, hcompression, hkind⟩
    exact ⟨hlen, hkept, ⟨hlocation, hphysicality⟩, hcompression, hkind⟩

theorem Normalised.refl {before after : List Byte}
    (h : ∀ i, 24 ≤ i → i < 36 → after.getD i 0 = before.getD i 0) : Normalised before after := by
  have hword (o : Nat) (hlow : 24 ≤ o) (hhigh : o ≤ 32) : word after o = word before o :=
    word_congr fun k hk => h (o + k) (by omega) (by omega)
  exact ⟨by rw [hword 24 (by omega) (by omega)], .inl (by rw [hword 24 (by omega) (by omega)]),
    .inl (by rw [hword 24 (by omega) (by omega)]), .inl (hword 28 (by omega) (by omega)),
    .inl (hword 32 (by omega) (by omega))⟩

/-- The range of an answer: left zero, or whole pages of the space around the allocation. -/
def Ranged (a : Allocation) (address lo hi : Nat) : Prop :=
  (lo = 0 ∧ hi = 0) ∨ (a.space.base ≤ lo ∧ lo ≤ address ∧ lo &&& 4095 = 0 ∧ hi &&& 4095 = 4095 ∧
    address + a.bytes ≤ hi + 1 ∧ hi < a.space.base + a.space.bytes ∧
    (a.fixedAddress ≠ 0 → lo = address ∧ hi + 1 = address + a.bytes))

/-! ## Allocations -/

theorem Allocation.Window.small (h : a.Window) :
    a.bytes < 2 ^ 64 ∧ a.alignment < 2 ^ 64 ∧ a.fixedAddress < 2 ^ 64 := by
  have hlimit : Vm.vaLimit = 2 ^ 49 := rfl
  have hbase := h.base
  have hbytes := h.bytes
  have halign := h.alignment
  refine ⟨by omega, by omega, ?_⟩
  by_cases hz : a.fixedAddress = 0
  · omega
  · have := (h.fixed hz).high
    omega

/-- What the reader takes from the request. -/
structure Requested (a : Allocation) (request : List Byte) : Prop where
  bytes : long request 96 = a.bytes
  alignment : long request 104 = a.alignment
  address : long request 112 = a.fixedAddress
  fixed : word request 40 &&& 0x10 ≠ 0 ↔ a.fixedAddress ≠ 0
  zeros : ∀ i, (16 ≤ i ∧ i < 20) ∨ (80 ≤ i ∧ i < 96) → request.getD i 0 = 0

theorem allocate_requested (h : allocate a = .ok request) : Requested a request.bytes := by
  obtain ⟨hvalid, image, -, rfl⟩ := allocate_ok.1 h
  obtain ⟨hbytes, halign, hfixed⟩ := (Allocation.validate_window hvalid).small
  have hfields : Fields (List.replicate 160 (0 : Byte)).length (allocationFields a image) := by
    rw [List.length_replicate]
    exact fields_allocation a image
  have hword {o : Nat} {v : Word} (hm : (o, v) ∈ allocationFields a image) :
      word (putAll (List.replicate 160 0) (allocationFields a image)) o = v := word_putAll hfields hm
  refine ⟨long_of_words hbytes (hword ?_) (hword ?_), long_of_words halign (hword ?_) (hword ?_),
    long_of_words hfixed (hword ?_) (hword ?_), ?_, fun i hi => ?_⟩
  iterate 6 simp [allocationFields, field, wide]
  · rw [hword (o := 40) (v := 0x88100 ||| (if a.fixedAddress ≠ 0 then 0x10 else 0) |||
      (if a.privileged then 0x08000000 else 0)) (by simp [allocationFields, field, wide])]
    by_cases hz : a.fixedAddress = 0 <;> cases a.privileged <;> simp [hz]
  · rw [getD_putAll_of_disjoint hfields]
    · rw [List.getD_eq_getElem?_getD, List.getElem?_replicate]
      split <;> rfl
    · intro f hf
      simp only [allocationFields, field, wide, List.cons_append, List.nil_append, List.mem_cons,
        List.not_mem_nil, or_false] at hf
      rcases hf with rfl | rfl | rfl | rfl | rfl | rfl | rfl | rfl | rfl | rfl | rfl | rfl | rfl | rfl |
        rfl | rfl | rfl | rfl <;> dsimp only <;> omega

/-- The places of an answer that the firmware fills in. -/
def granted (i : Nat) : Bool :=
  decide (16 ≤ i ∧ i < 20) || decide (56 ≤ i ∧ i < 68) || decide (80 ≤ i ∧ i < 96) ||
    decide (112 ≤ i ∧ i < 128)

/-- The request with an address. -/
structure Granted (a : Allocation) (request : Encoded) (record : Record) (address : Nat) : Prop where
  function : record.rpc.function = 103
  guest : record.rpc.cpuRmGfid = 0
  result : record.rpc.result = 0
  length : record.payload.length = 160
  status : word record.payload 16 = 0
  echo : ∀ i < 160, granted i = false → record.payload.getD i 0 = request.bytes.getD i 0
  attributes : Normalised (request.bytes.drop 32) (record.payload.drop 32)
  offset : long record.payload 112 = address
  limit : long record.payload 120 = a.bytes - 1
  fits : a.Fits address
  range : Ranged a address (long record.payload 80) (long record.payload 88)

theorem allocationParameters_ok {response : List Byte} (hw : a.Window) (hr : Requested a request.bytes)
    (hlen : request.bytes.length = 160) :
    allocationParameters a.space (request.bytes.drop 32) response = .ok address ↔
      response.length = 128 ∧ Normalised (request.bytes.drop 32) response ∧
      (∀ i < 128, Checked.filled i = false → response.getD i 0 = request.bytes.getD (32 + i) 0) ∧
      long response 80 = address ∧ long response 88 = a.bytes - 1 ∧
      (a.alignment ∣ address ∧ a.space.base ≤ address ∧
        address + a.bytes ≤ a.space.base + a.space.bytes ∧ (a.fixedAddress ≠ 0 → address = a.fixedAddress)) ∧
      Ranged a address (long response 48) (long response 56) := by
  have hbytes : long (request.bytes.drop 32) 64 = a.bytes := (long_drop _ _ _).trans hr.bytes
  have halign : long (request.bytes.drop 32) 72 = a.alignment := (long_drop _ _ _).trans hr.alignment
  have hwanted : long (request.bytes.drop 32) 80 = a.fixedAddress := (long_drop _ _ _).trans hr.address
  have hflags : decide (word (request.bytes.drop 32) 8 &&& 0x10 ≠ 0) = decide (a.fixedAddress ≠ 0) := by
    rw [word_drop]
    exact decide_eq_decide.mpr hr.fixed
  have hparameters : (request.bytes.drop 32).length = 128 := by rw [List.length_drop, hlen]
  have hpos := hw.bytes
  have hlow := hw.alignment.1
  have hpower := hw.power
  unfold allocationParameters
  constructor
  · intro h
    obtain ⟨_, hattributes, h⟩ := then_ok.1 h
    obtain ⟨⟨-, hresponse⟩, hnormal⟩ := allocationAttributes_ok.1 hattributes
    obtain ⟨hecho, h⟩ := check_ok.1 h
    have hecho := (@same_iff Checked.filled response (request.bytes.drop 32) response.length).mp hecho
    dsimp only at h
    rw [hbytes, halign, hwanted, hflags, check_ok, check_ok, check_ok] at h
    obtain ⟨hplace, hfixed, hrange, haddress⟩ := h
    cases haddress
    simp only [not_or, not_lt, ne_eq, not_not] at hplace
    obtain ⟨-, -, -, -, hlimit, hbase, hrest, hroom⟩ := hplace
    have hfixed : a.fixedAddress ≠ 0 → long response 80 = a.fixedAddress := by
      intro hne
      by_contra hn
      exact hfixed ⟨decide_eq_true hne, hn⟩
    refine ⟨hresponse, hnormal, fun i hi hs => ?_, rfl, hlimit,
      ⟨Nat.dvd_of_mod_eq_zero hrest, hbase, by omega, hfixed⟩, ?_⟩
    · rw [hecho i (by omega) hs, getD_drop]
    · by_cases hz : long response 48 = 0 ∧ long response 56 = 0
      · exact .inl hz
      · have hset : long response 48 ≠ 0 ∨ long response 56 ≠ 0 := by omega
        simp only [hset, true_and, not_or, not_lt, ne_eq, not_not, not_le, ge_iff_le] at hrange
        obtain ⟨hlo, hupper, hlopage, hhipage, hhi, hspan, hend, hexact⟩ := hrange
        refine .inr ⟨hlo, hupper, hlopage, hhipage, by omega, by omega, fun hne => ?_⟩
        have hboth : ¬ (long response 48 ≠ long response 80 ∨
            long response 56 - long response 80 ≠ a.bytes - 1) := fun hn => hexact ⟨decide_eq_true hne, hn⟩
        omega
  · rintro ⟨hresponse, hnormal, hecho, rfl, hlimit, ⟨hrest, hbase, hroom, hfixed⟩, hrange⟩
    refine then_ok.2 ⟨(), allocationAttributes_ok.2 ⟨⟨hparameters, hresponse⟩, hnormal⟩,
      check_ok.2 ⟨(@same_iff Checked.filled response (request.bytes.drop 32) response.length).mpr
        fun i hi hs => ?_, ?_⟩⟩
    · rw [hecho i (by omega) hs, getD_drop]
    · dsimp only
      rw [hbytes, halign, hwanted, hflags, check_ok, check_ok, check_ok]
      refine ⟨?_, ?_, ?_, rfl⟩
      · simp only [not_or, not_lt, ne_eq, not_not]
        exact ⟨by omega, hpos.2, hlow, hpower, hlimit, hbase, Nat.mod_eq_zero_of_dvd hrest, by omega⟩
      · rintro ⟨hne, hn⟩
        exact hn (hfixed (of_decide_eq_true hne))
      · rintro ⟨hset, hbad⟩
        rcases hrange with hz | ⟨hlo, hupper, hlopage, hhipage, hhi, hend, hexact⟩
        · omega
        · rcases hbad with hb | hb | hb | hb | hb | hb | hb | ⟨hne, hb⟩
          · omega
          · omega
          · exact hb hlopage
          · exact hb hhipage
          · omega
          · omega
          · omega
          · have := hexact (of_decide_eq_true hne)
            omega

theorem filled_of_granted {i : Nat} : Checked.filled i = false ↔ granted (32 + i) = false := by
  simp only [granted, Checked.filled, Bool.or_eq_false_iff, decide_eq_false_iff_not]
  omega

theorem allocated_ok (ha : allocate a = .ok request) :
    allocated a record = .ok (.ok address) ↔ Granted a request record address := by
  obtain ⟨hvalid, image, -, hrequest⟩ := allocate_ok.1 ha
  have hlen := allocate_length ha
  have hfunction : request.function = 103 := by rw [hrequest]
  have hparameters := @allocationParameters_ok a request address (record.payload.drop 32)
    (Allocation.validate_window hvalid) (allocate_requested ha) hlen
  have hdrop : (record.payload.drop 32).length = record.payload.length - 32 := List.length_drop
  simp only [long_drop, getD_drop, hdrop] at hparameters
  unfold allocated
  rw [ha, ok_then]
  constructor
  · intro h
    obtain ⟨status, hreceipt, h⟩ := then_ok.1 h
    obtain ⟨hanswers, hstatus⟩ := receipt_ok.1 hreceipt
    by_cases hs : status ≠ 0
    · rw [if_pos hs] at h
      cases h
    rw [if_neg hs] at h
    obtain ⟨hpayload, h⟩ := check_ok.1 h
    obtain ⟨address', hread, h⟩ := then_ok.1 h
    obtain ⟨_, hfits, h⟩ := then_ok.1 h
    cases h
    obtain ⟨-, hnormal, hecho, hoffset, hlimit, -, hrange⟩ := hparameters.mp hread
    have hpayload := not_not.mp hpayload
    refine ⟨hanswers.function.trans hfunction, hanswers.guest, hanswers.result, hpayload,
      hstatus.trans (not_not.mp hs), fun i hi hg => ?_, hnormal, hoffset, hlimit,
      Allocation.validateAddress_ok.1 hfits, hrange⟩
    rcases Nat.lt_or_ge i 32 with hlow | hhigh
    · refine hanswers.header i (by omega) fun hin => ?_
      simp [granted, hin.1, hin.2] at hg
    · obtain ⟨j, rfl⟩ := Nat.exists_eq_add_of_le hhigh
      exact hecho j (by omega) (filled_of_granted.2 hg)
  · rintro ⟨hfun, hguest, hresult, hpayload, hstatus, hecho, hnormal, hoffset, hlimit, hfits, hrange⟩
    have hanswers : Answers record request 16 true := by
      refine ⟨hfun.trans hfunction.symm, hguest, hresult, .inl (hpayload.trans hlen.symm), fun i hi hout => ?_⟩
      refine hecho i (by omega) ?_
      simp only [granted, Bool.or_eq_false_iff, decide_eq_false_iff_not]
      omega
    refine then_ok.2 ⟨0, receipt_ok.2 ⟨hanswers, hstatus⟩, ?_⟩
    rw [if_neg (by simp)]
    refine check_ok.2 ⟨not_not.mpr hpayload, then_ok.2 ⟨address, hparameters.mpr ⟨by omega, hnormal,
      fun i hi hs => hecho _ (by omega) (filled_of_granted.1 hs), hoffset, hlimit,
      ⟨hfits.aligned, hfits.low, hfits.high, hfits.fixed⟩, hrange⟩, then_ok.2 ⟨(),
      Allocation.validateAddress_ok.2 hfits, rfl⟩⟩⟩

theorem allocated_refused (ha : allocate a = .ok request) {status : Word} :
    allocated a record = .ok (.rejected status) ↔ Rejects record request 16 true status := by
  unfold allocated
  rw [ha, ok_then]
  constructor
  · intro h
    obtain ⟨status', hreceipt, h⟩ := then_ok.1 h
    obtain ⟨hanswers, hstatus⟩ := receipt_ok.1 hreceipt
    by_cases hs : status' ≠ 0
    · rw [if_pos hs] at h
      cases h
      exact ⟨hanswers, hstatus, hs⟩
    · rw [if_neg hs] at h
      obtain ⟨-, h⟩ := check_ok.1 h
      obtain ⟨_, -, h⟩ := then_ok.1 h
      obtain ⟨_, -, h⟩ := then_ok.1 h
      cases h
  · rintro ⟨hanswers, hstatus, hs⟩
    refine then_ok.2 ⟨status, receipt_ok.2 ⟨hanswers, hstatus⟩, ?_⟩
    rw [if_pos hs]

/-! ## Ranges given back -/

theorem freed_ok (ha : free a = .ok request) {x : Nat} : freed a record = .ok (.ok x) ↔
    x = 0 ∧ Answers record request 12 false ∧ word record.payload 12 = 0 := by
  unfold freed
  rw [ha, ok_then]
  constructor
  · intro h
    obtain ⟨status, hreceipt, h⟩ := then_ok.1 h
    obtain ⟨hanswers, hstatus⟩ := receipt_ok.1 hreceipt
    by_cases hs : status = 0
    · rw [if_pos hs] at h
      cases h
      exact ⟨rfl, hanswers, hstatus.trans hs⟩
    · rw [if_neg hs] at h
      cases h
  · rintro ⟨rfl, hanswers, hstatus⟩
    exact then_ok.2 ⟨0, receipt_ok.2 ⟨hanswers, hstatus⟩, rfl⟩

theorem freed_refused (ha : free a = .ok request) {status : Word} :
    freed a record = .ok (.rejected status) ↔ Rejects record request 12 false status := by
  unfold freed
  rw [ha, ok_then]
  constructor
  · intro h
    obtain ⟨status', hreceipt, h⟩ := then_ok.1 h
    obtain ⟨hanswers, hstatus⟩ := receipt_ok.1 hreceipt
    by_cases hs : status' = 0
    · rw [if_pos hs] at h
      cases h
    · rw [if_neg hs] at h
      cases h
      exact ⟨hanswers, hstatus, hs⟩
  · rintro ⟨hanswers, hstatus, hs⟩
    refine then_ok.2 ⟨status, receipt_ok.2 ⟨hanswers, hstatus⟩, ?_⟩
    rw [if_neg hs]
    rfl

/-! ## Mappings -/

/-- The request with the status, and the absolute address of a map. -/
structure Echoed (m : Mapping) (operation : MapOperation) (request : Encoded) (record : Record)
    (address : Nat) : Prop where
  answers : Answers record request operation.statusAt false
  status : word record.payload operation.statusAt = 0
  echo : ∀ i < operation.size, operation.skipped i = false →
    record.payload.getD i 0 = request.bytes.getD i 0
  place : address = m.address + m.virtualOffset
  told : operation = .map → long record.payload 40 = address

theorem mapped_ok {operation : MapOperation} (hm : mapping m operation = .ok request) :
    mapped m operation record = .ok (.ok address) ↔ Echoed m operation request record address := by
  have hlen := mapping_length hm
  unfold mapped
  rw [hm, ok_then]
  constructor
  · intro h
    obtain ⟨status, hreceipt, h⟩ := then_ok.1 h
    obtain ⟨hanswers, hstatus⟩ := receipt_ok.1 hreceipt
    have hpayload := Checked.receipt_length hreceipt
    by_cases hs : status ≠ 0
    · rw [if_pos hs] at h
      cases h
    rw [if_neg hs] at h
    obtain ⟨hecho, h⟩ := check_ok.1 h
    obtain ⟨htold, h⟩ := check_ok.1 h
    cases h
    refine ⟨hanswers, hstatus.trans (not_not.mp hs), fun i hi => same_iff.1 hecho i (by omega), rfl,
      fun hop => ?_⟩
    by_contra hn
    exact htold ⟨hop, hn⟩
  · rintro ⟨hanswers, hstatus, hecho, rfl, htold⟩
    have hreceipt : receipt record request operation.statusAt false = .ok 0 :=
      receipt_ok.2 ⟨hanswers, hstatus⟩
    have hpayload := Checked.receipt_length hreceipt
    refine then_ok.2 ⟨0, hreceipt, ?_⟩
    rw [if_neg (by simp)]
    exact check_ok.2 ⟨same_iff.2 fun i hi => hecho i (by omega),
      check_ok.2 ⟨fun hn => hn.2 (htold hn.1), rfl⟩⟩

theorem mapped_refused {operation : MapOperation} (hm : mapping m operation = .ok request) {status : Word} :
    mapped m operation record = .ok (.rejected status) ↔
      Rejects record request operation.statusAt false status := by
  unfold mapped
  rw [hm, ok_then]
  constructor
  · intro h
    obtain ⟨status', hreceipt, h⟩ := then_ok.1 h
    obtain ⟨hanswers, hstatus⟩ := receipt_ok.1 hreceipt
    by_cases hs : status' ≠ 0
    · rw [if_pos hs] at h
      cases h
      exact ⟨hanswers, hstatus, hs⟩
    · rw [if_neg hs] at h
      obtain ⟨-, h⟩ := check_ok.1 h
      obtain ⟨-, h⟩ := check_ok.1 h
      cases h
  · rintro ⟨hanswers, hstatus, hs⟩
    refine then_ok.2 ⟨status, receipt_ok.2 ⟨hanswers, hstatus⟩, ?_⟩
    rw [if_pos hs]

/-! ## Exact answers -/

theorem getD_putAll_zeros {n : Nat} {fields : List (Nat × Word)} (hf : Fields n fields) {i : Nat}
    (hi : ∀ f ∈ fields, i < f.1 ∨ f.1 + 4 ≤ i) : (putAll (List.replicate n 0) fields).getD i 0 = 0 := by
  rw [getD_putAll_of_disjoint (by rw [List.length_replicate]; exact hf) hi, List.getD_eq_getElem?_getD,
    List.getElem?_replicate]
  split <;> rfl

theorem word_zeros {bytes : List Byte} {o : Nat} (h : ∀ k < 4, bytes.getD (o + k) 0 = 0) :
    word bytes o = 0 := by
  have h₀ := h 0 (by omega)
  rw [Nat.add_zero] at h₀
  unfold word
  rw [h₀, h 1 (by omega), h 2 (by omega), h 3 (by omega)]
  rfl

theorem long_zeros {bytes : List Byte} {o : Nat} (h : ∀ k < 8, bytes.getD (o + k) 0 = 0) :
    long bytes o = 0 := by
  unfold long
  rw [word_zeros fun k hk => h k (by omega), word_zeros fun k hk => by
    rw [Nat.add_assoc]
    exact h (4 + k) (by omega)]
  rfl

theorem fields_wide {n o v : Nat} (h : o + 8 ≤ n) : Fields n (wide o v) := by
  constructor
  · simp only [wide, List.mem_cons, List.not_mem_nil, or_false]
    rintro f (rfl | rfl) <;> dsimp only <;> omega
  · simp [wide]

/-- A long word written over an answer. -/
theorem long_putAll_wide {bytes : List Byte} {o v : Nat} (hv : v < 2 ^ 64) (h : o + 8 ≤ bytes.length) :
    long (putAll bytes (wide o v)) o = v :=
  long_of_words hv (word_putAll (fields_wide h) (by simp [wide])) (word_putAll (fields_wide h) (by simp [wide]))

theorem getD_putAll_wide {bytes : List Byte} {o v i : Nat} (h : o + 8 ≤ bytes.length)
    (hi : i < o ∨ o + 8 ≤ i) : (putAll bytes (wide o v)).getD i 0 = bytes.getD i 0 := by
  refine getD_putAll_of_disjoint (fields_wide h) ?_
  simp only [wide, List.mem_cons, List.not_mem_nil, or_false]
  rintro f (rfl | rfl) <;> dsimp only <;> omega

theorem length_putAll_wide {bytes : List Byte} {o v : Nat} (h : o + 8 ≤ bytes.length) :
    (putAll bytes (wide o v)).length = bytes.length := length_putAll (fields_wide h)

/-- An executed call of the host. -/
structure Executed (record : Record) (function : Word) : Prop where
  function : record.rpc.function = function
  guest : record.rpc.cpuRmGfid = 0
  result : record.rpc.result = 0

theorem exact_granted (ha : allocate a = .ok request) (hf : a.Fits address) (hx : Executed record 103)
    (hp : record.payload = putAll (putAll request.bytes (wide 112 address)) (wide 120 (a.bytes - 1))) :
    Granted a request record address := by
  have hr := allocate_requested ha
  have hlen := allocate_length ha
  have hw := Allocation.validate_window (allocate_ok.1 ha).1
  have hlimit : Vm.vaLimit = 2 ^ 49 := rfl
  have hbase := hw.base
  have hhigh := hf.high
  have hsmall := hw.small.1
  have hfirst := @length_putAll_wide request.bytes 112 address (by omega)
  have hsame {i : Nat} (hi : i < 112 ∨ 128 ≤ i) : record.payload.getD i 0 = request.bytes.getD i 0 := by
    rw [hp, getD_putAll_wide (by omega) (by omega), getD_putAll_wide (by omega) (by omega)]
  have hoffset : long record.payload 112 = address := by
    rw [hp, long_congr fun j hlow hj => getD_putAll_wide (by omega) (by omega)]
    exact long_putAll_wide (by omega) (by omega)
  refine ⟨hx.function, hx.guest, hx.result, ?_, ?_, fun i hi hg => ?_, ?_, hoffset, ?_, hf, .inl ⟨?_, ?_⟩⟩
  · rw [hp, length_putAll_wide (by omega), hfirst, hlen]
  · refine word_zeros fun k hk => ?_
    rw [hsame (by omega), hr.zeros _ (by omega)]
  · simp only [granted, Bool.or_eq_false_iff, decide_eq_false_iff_not] at hg
    exact hsame (by omega)
  · refine Normalised.refl fun i hlow hi => ?_
    rw [getD_drop, getD_drop, hsame (by omega)]
  · rw [hp]
    exact long_putAll_wide (by omega) (by omega)
  · refine long_zeros fun k hk => ?_
    rw [hsame (by omega), hr.zeros _ (by omega)]
  · refine long_zeros fun k hk => ?_
    rw [hsame (by omega), hr.zeros _ (by omega)]

theorem exact_freed (ha : free a = .ok request) (hx : Executed record 10)
    (hp : record.payload = request.bytes) : freed a record = .ok (.ok 0) := by
  obtain ⟨-, hrequest⟩ := free_ok.1 ha
  refine (freed_ok ha).mpr ⟨rfl, ⟨by rw [hx.function, hrequest], hx.guest, hx.result, .inl (by rw [hp]),
    fun i _ _ => by rw [hp]⟩, ?_⟩
  rw [hp, hrequest]
  refine word_zeros fun k hk => getD_putAll_zeros (fields_free a) ?_
  simp only [field, List.cons_append, List.nil_append, List.mem_cons, List.not_mem_nil, or_false]
  rintro f (rfl | rfl) <;> dsimp only <;> omega

/-- What an exact answer to a mapping holds. -/
def answer (m : Mapping) (operation : MapOperation) (request : List Byte) : List Byte :=
  match operation with
  | .map => putAll request (wide 40 (m.address + m.virtualOffset))
  | .unmap => request

theorem exact_mapped {operation : MapOperation} (hm : mapping m operation = .ok request)
    (hx : Executed record operation.function) (hp : record.payload = answer m operation request.bytes) :
    mapped m operation record = .ok (.ok (m.address + m.virtualOffset)) := by
  obtain ⟨hvalid, hrequest⟩ := mapping_ok.1 hm
  have hlen := mapping_length hm
  have hend := (Mapping.validate_placed hvalid).end_le
  have hlimit : Vm.vaLimit = 2 ^ 49 := rfl
  have hfunction : request.function = operation.function := by rw [hrequest]
  -- The status words are beyond the fields of the request.
  have hzero {k : Nat} (hk : k < 4) : request.bytes.getD (operation.statusAt + k) 0 = 0 := by
    rw [hrequest]
    refine getD_putAll_zeros (fields_mapping m operation) ?_
    cases operation <;>
      simp only [mappingFields, field, wide, MapOperation.statusAt, List.cons_append, List.nil_append,
        List.mem_cons, List.not_mem_nil, or_false]
    · rintro f (rfl | rfl | rfl | rfl | rfl | rfl | rfl | rfl | rfl | rfl | rfl) <;> dsimp only <;> omega
    · rintro f (rfl | rfl | rfl | rfl | rfl | rfl) <;> dsimp only <;> omega
  have hsame {i : Nat} (hi : operation = .map → i < 40 ∨ 48 ≤ i) :
      record.payload.getD i 0 = request.bytes.getD i 0 := by
    rw [hp]
    cases operation with
    | map => exact getD_putAll_wide (by simp only [MapOperation.size] at hlen; omega) (hi rfl)
    | unmap => rfl
  have hpayload : record.payload.length = request.bytes.length := by
    rw [hp]
    cases operation with
    | map => exact length_putAll_wide (by simp only [MapOperation.size] at hlen; omega)
    | unmap => rfl
  refine (mapped_ok hm).mpr ⟨⟨hx.function.trans hfunction.symm, hx.guest, hx.result, .inl hpayload,
    fun i hi _ => hsame fun _ => by omega⟩, ?_, fun i hi hs => hsame fun hop => ?_, rfl, fun hop => ?_⟩
  · refine word_zeros fun k hk => ?_
    rw [hsame fun hop => by subst hop; simp only [MapOperation.statusAt]; omega, hzero hk]
  · subst hop
    simp only [MapOperation.skipped, Bool.or_eq_false_iff, decide_eq_false_iff_not, beq_self_eq_true,
      Bool.true_and] at hs
    omega
  · subst hop
    rw [hp]
    exact long_putAll_wide (by omega) (by simp only [MapOperation.size] at hlen; omega)

/-! ## What a granted address serves -/

/-- A mapping that lies in its range and in its memory. -/
structure Mapping.Within (m : Mapping) : Prop where
  kind : (m.allocation.blocklinear = true ∨ m.allocation.pteKind ≠ 0) → m.virtualKind = true
  memory : m.memory ≠ 0 ∧ m.memory ≠ m.allocation.space.client ∧ m.memory ≠ m.allocation.space.device ∧
    m.memory ≠ m.allocation.space.handle ∧ m.memory ≠ m.allocation.object
  bytes : 0 < m.bytes ∧
    (m.memoryBytes ||| m.memoryOffset ||| m.virtualOffset ||| m.bytes) &&& 4095 = 0
  inMemory : m.memoryOffset + m.bytes ≤ m.memoryBytes
  inRange : m.virtualOffset + m.bytes ≤ m.allocation.bytes

theorem Mapping.Within.validate (h : m.Within) (hv : m.allocation.validate = .ok ())
    (hf : m.allocation.Fits m.address) : m.validate = .ok () := by
  obtain ⟨hkind, ⟨hm₀, hm₁, hm₂, hm₃, hm₄⟩, ⟨hpos, hpages⟩, hmemory, hrange⟩ := h
  unfold Mapping.validate
  refine then_ok.2 ⟨(), hv, then_ok.2 ⟨(), Allocation.validateAddress_ok.2 hf, ?_⟩⟩
  refine check_ok.2 ⟨fun hn => ?_, check_ok.2 ⟨hm₀, check_ok.2 ⟨?_, check_ok.2 ⟨?_, rfl⟩⟩⟩⟩
  · rw [hkind hn.1] at hn
    cases hn.2
  · simp only [not_or]
    exact ⟨hm₁, hm₂, hm₃, hm₄⟩
  · simp only [not_or, not_lt, ne_eq, not_not]
    exact ⟨by omega, hpages, by omega, by omega, by omega, by omega⟩

/-- The readers trap on no answer; they accept the requests with the fields that the firmware fills in,
refuse on a non-zero inner status behind an intact header, and nothing else; the exact answers are
accepted, and a granted address serves the requests that follow. -/
theorem replies_exact :
    (∀ a record, Checked.allocated a record = total (allocated a record) ∧
      Checked.freed a record = total (freed a record)) ∧
    (∀ m operation record, Checked.mapped m operation record = total (mapped m operation record)) ∧
    (∀ a : Allocation, a.validate = .ok () →
      (∃ request, allocate a = .ok request ∧
        (∀ record address, allocated a record = .ok (.ok address) ↔ Granted a request record address) ∧
        (∀ record status, allocated a record = .ok (.rejected status) ↔
          Rejects record request 16 true status) ∧
        ∀ record address, a.Fits address → Executed record 103 →
          record.payload = putAll (putAll request.bytes (wide 112 address)) (wide 120 (a.bytes - 1)) →
          allocated a record = .ok (.ok address)) ∧
      (∃ request, free a = .ok request ∧
        (∀ record x, freed a record = .ok (.ok x) ↔
          x = 0 ∧ Answers record request 12 false ∧ word record.payload 12 = 0) ∧
        (∀ record status, freed a record = .ok (.rejected status) ↔
          Rejects record request 12 false status) ∧
        ∀ record, Executed record 10 → record.payload = request.bytes → freed a record = .ok (.ok 0)) ∧
      ∀ record (m : Mapping), m.allocation = a → allocated a record = .ok (.ok m.address) → m.Within →
        m.validate = .ok ()) ∧
    (∀ (m : Mapping) operation, m.validate = .ok () →
      ∃ request, mapping m operation = .ok request ∧
        (∀ record address, mapped m operation record = .ok (.ok address) ↔
          Echoed m operation request record address) ∧
        (∀ record status, mapped m operation record = .ok (.rejected status) ↔
          Rejects record request operation.statusAt false status) ∧
        ∀ record, Executed record operation.function →
          record.payload = answer m operation request.bytes →
          mapped m operation record = .ok (.ok (m.address + m.virtualOffset))) := by
  refine ⟨fun a record => ⟨Checked.allocated_eq a record, Checked.freed_eq a record⟩, Checked.mapped_eq,
    fun a hv => ⟨?_, ?_, ?_⟩, fun m operation hv => ?_⟩
  · obtain ⟨image, himage⟩ := (Allocation.validate_window hv).image
    have ha := allocate_ok.mpr ⟨hv, image, himage, rfl⟩
    exact ⟨_, ha, fun _ _ => allocated_ok ha, fun _ _ => allocated_refused ha,
      fun _ _ hf hx hp => (allocated_ok ha).mpr (exact_granted ha hf hx hp)⟩
  · have ha := free_ok.mpr ⟨hv, rfl⟩
    exact ⟨_, ha, fun _ _ => freed_ok ha, fun _ _ => freed_refused ha, fun _ => exact_freed ha⟩
  · rintro record m rfl hok hwithin
    obtain ⟨image, himage⟩ := (Allocation.validate_window hv).image
    have ha := allocate_ok.mpr ⟨hv, image, himage, rfl⟩
    exact hwithin.validate hv ((allocated_ok ha).mp hok).fits
  · have hm := (@mapping_ok m operation _).mpr ⟨hv, rfl⟩
    exact ⟨_, hm, fun _ _ => mapped_ok hm, fun _ _ => mapped_refused hm, fun _ => exact_mapped hm⟩

end Virtual
end NvidiaGsp
