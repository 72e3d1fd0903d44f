import NvidiaGsp.Lib.Parse
import NvidiaGsp.Virtual.Mapping

/-!
# Virtual.WireChecked

The same messages in the language that checks itself. Every subtraction, remainder and read of
`gsp_virtual_wire.zig` is a statement that may trap here; a chain of tests is cut where one stands.
The earlier tests rule every trap out, so these readers give what those of `Virtual.Wire` give, for
every answer (`Checked.allocated_eq`, `Checked.freed_eq`, `Checked.mapped_eq`).
-/

namespace NvidiaGsp
namespace Virtual

open Gsp Bytes Parse

/-- A result without traps. -/
def total {α : Type} : Except Error α → Parse Error α
  | .ok a => .ok a
  | .error e => .error (.error e)

theorem total_bind {α β : Type} (x : Except Error α) (f : α → Except Error β) :
    total (x >>= f) = total x >>= fun a => total (f a) := by
  cases x <;> rfl

theorem total_ite {α : Type} (c : Prop) [Decidable c] (x y : Except Error α) :
    total (if c then x else y) = if c then total x else total y := by
  split <;> rfl

/-- An `if` that ends a body with an error. -/
theorem total_check {α : Type} (c : Prop) [Decidable c] (e : Error) (x : Except Error α) :
    total (if c then .error e else x) = reject c e >>= fun _ => total x := by
  by_cases h : c
  · rw [if_pos h, reject_of h]
    rfl
  · rw [if_neg h, reject_of_not h]

/-- A chain of tests, cut in two. -/
theorem reject_or {α : Type} (c d : Prop) [Decidable c] [Decidable d] (e : Error)
    (f : Unit → Parse Error α) :
    (reject (c ∨ d) e >>= f) = reject c e >>= fun _ => reject d e >>= f := by
  by_cases hc : c
  · rw [reject_of hc, reject_of (Or.inl hc)]
  · rw [reject_of_not hc]
    by_cases hd : d
    · rw [reject_of hd, reject_of (Or.inr hd)]
    · rw [reject_of_not hd, reject_of_not (not_or.mpr ⟨hc, hd⟩)]

/-- What follows a test may rely on it. -/
theorem reject_congr {α : Type} {c : Prop} [Decidable c] {e : Error} {f g : Unit → Parse Error α}
    (h : ¬ c → f () = g ()) : (reject c e >>= f) = reject c e >>= g := by
  by_cases hc : c
  · rw [reject_of hc, reject_of hc]
  · rw [reject_of_not hc, reject_of_not hc, h hc]

namespace Checked

def sum (a b : Nat) : Parse Error Nat := fits 64 (a + b)

/-- `a % b`, which traps when `b` is zero. -/
def remainder (a b : Nat) : Parse Error Nat := checked (b ≠ 0) .overflow (a % b)

/-- `std.math.isPowerOfTwo`, which asserts that its argument is positive. -/
def powerOfTwo (a : Nat) : Parse Error Bool := checked (0 < a) .overflow (decide (a &&& (a - 1) = 0))

def wordAt (bytes : List Byte) (at_ : Nat) : Parse Error Word :=
  checked (at_ + 4 ≤ bytes.length) .bounds (word bytes at_)

def longAt (bytes : List Byte) (at_ : Nat) : Parse Error Nat :=
  checked (at_ + 8 ≤ bytes.length) .bounds (long bytes at_)

/-- The loop that compares two byte strings outside the places that are skipped. -/
def compare (skipped : Nat → Bool) (data request : List Byte) (e : Error) : List Nat → Parse Error Unit
  | [] => .ok ()
  | i :: rest =>
    if skipped i then compare skipped data request e rest
    else do
      let value ← checked (i < data.length) .bounds (data.getD i 0)
      let wanted ← checked (i < request.length) .bounds (request.getD i 0)
      reject (value ≠ wanted) e
      compare skipped data request e rest

theorem compare_eq {skipped : Nat → Bool} {data request : List Byte} {e : Error} {is : List Nat}
    (h : ∀ i ∈ is, skipped i = false → i < data.length ∧ i < request.length) :
    compare skipped data request e is =
      reject ((is.any fun i => !skipped i && data.getD i 0 != request.getD i 0) = true) e := by
  induction is with
  | nil => rfl
  | cons i is ih =>
    have hrest := ih fun j hj => h j (List.mem_cons_of_mem _ hj)
    unfold compare
    by_cases hs : skipped i = true
    · rw [if_pos hs, hrest]
      simp [hs]
    · have hs : skipped i = false := by simpa using hs
      obtain ⟨hdata, hrequest⟩ := h i List.mem_cons_self hs
      rw [if_neg (by simp [hs]), checked_of hdata, checked_of hrequest, hrest]
      by_cases hne : data.getD i 0 ≠ request.getD i 0
      · rw [reject_of hne]
        unfold reject
        rw [if_pos (by simp only [List.any_cons, hs, Bool.not_false, Bool.true_and, Bool.or_eq_true,
          bne_iff_ne]; exact .inl hne)]
      · rw [reject_of_not hne]
        have heq := not_not.mp hne
        simp only [List.any_cons, hs, heq, bne_self_eq_false, Bool.and_false, Bool.false_or]

/-! ## Requests -/

def validateAddress (a : Allocation) (address : Nat) : Parse Error Unit := do
  let s := a.space
  reject (a.alignment = 0 ∨ a.bytes > s.bytes ∨ address < s.base) .Bounds
  let rest ← remainder address a.alignment
  reject (rest ≠ 0) .Bounds
  let offset ← minus address s.base
  let room ← minus s.bytes a.bytes
  reject (offset > room ∨ (a.fixedAddress ≠ 0 ∧ address ≠ a.fixedAddress)) .Bounds
  .ok ()

theorem validateAddress_eq (a : Allocation) (address : Nat) :
    validateAddress a address = total (a.validateAddress address) := by
  unfold validateAddress Allocation.validateAddress
  dsimp only
  simp only [total_check, reject_or]
  refine reject_congr fun halign => reject_congr fun hbytes => reject_congr fun hlow => ?_
  rw [remainder, checked_of halign]
  refine reject_congr fun _ => ?_
  rw [minus_of (not_lt.mp hlow), minus_of (not_lt.mp hbytes)]
  rfl

def validate (a : Allocation) : Parse Error Unit := do
  let _ ← total (layout a.blocklinear a.pteKind)
  let s := a.space
  reject (s.epoch = 0 ∨ s.client = 0 ∨ s.device = 0 ∨ s.handle = 0 ∨ a.object = 0) .Handle
  reject (s.client = s.device ∨ s.client = s.handle ∨ s.device = s.handle) .Handle
  reject (a.object = s.client ∨ a.object = s.device ∨ a.object = s.handle) .Handle
  reject (s.base = 0 ∨ (s.base ||| s.bytes) &&& 4095 ≠ 0 ∨ s.bytes < 4096 ∨ s.base ≥ Vm.vaLimit) .Bounds
  let room ← minus Vm.vaLimit s.base
  reject (s.bytes > room ∨ a.bytes = 0 ∨ a.bytes &&& 4095 ≠ 0 ∨ a.bytes > s.bytes ∨
    a.alignment < 4096 ∨ a.alignment > s.bytes) .Bounds
  let power ← powerOfTwo a.alignment
  reject (power = false) .Bounds
  if a.fixedAddress ≠ 0 then validateAddress a a.fixedAddress else .ok ()

theorem validate_eq (a : Allocation) : validate a = total a.validate := by
  unfold validate Allocation.validate
  rw [total_bind]
  refine congrArg _ (funext fun _ => ?_)
  dsimp only
  simp only [total_check, reject_or]
  -- The names and the window.
  iterate 14 refine reject_congr fun _ => ?_
  refine reject_congr fun hlimit => ?_
  rw [minus_of (Nat.le_of_lt (not_le.mp hlimit))]
  iterate 4 refine reject_congr fun _ => ?_
  refine reject_congr fun hlow => reject_congr fun _ => ?_
  rw [powerOfTwo, checked_of (by omega)]
  simp only [decide_eq_false_iff_not, total_ite, validateAddress_eq]
  rfl

end Checked

/-! ## What the checks of a request give -/

theorem check_ok {α : Type} {c : Prop} [Decidable c] {e : Error} {x : Except Error α} {a : α} :
    (if c then .error e else x) = .ok a ↔ ¬ c ∧ x = .ok a := by
  split <;> simp_all

theorem then_ok {α β : Type} {x : Except Error α} {f : α → Except Error β} {b : β} :
    (x >>= f) = .ok b ↔ ∃ a, x = .ok a ∧ f a = .ok b := by
  cases x with
  | ok a => exact ⟨fun h => ⟨a, rfl, h⟩, fun ⟨_, ha, h⟩ => by cases ha; exact h⟩
  | error e => exact ⟨nofun, fun ⟨_, ha, _⟩ => nomatch ha⟩

/-- An address for the range: aligned, inside the space, and the one asked for. -/
structure Allocation.Fits (a : Allocation) (address : Nat) : Prop where
  room : a.alignment ≠ 0 ∧ a.bytes ≤ a.space.bytes
  aligned : a.alignment ∣ address
  low : a.space.base ≤ address
  high : address + a.bytes ≤ a.space.base + a.space.bytes
  fixed : a.fixedAddress ≠ 0 → address = a.fixedAddress

theorem Allocation.validateAddress_ok {a : Allocation} {address : Nat} {u : Unit} :
    a.validateAddress address = .ok u ↔ a.Fits address := by
  unfold Allocation.validateAddress
  dsimp only
  rw [check_ok]
  simp only [not_or, not_lt, not_and, ne_eq, not_not, and_true]
  constructor
  · rintro ⟨halign, hbytes, hlow, hrest, hhigh, hfixed⟩
    exact ⟨⟨halign, hbytes⟩, Nat.dvd_of_mod_eq_zero hrest, hlow, by omega, hfixed⟩
  · rintro ⟨⟨halign, hbytes⟩, hrest, hlow, hhigh, hfixed⟩
    exact ⟨halign, hbytes, hlow, Nat.mod_eq_zero_of_dvd hrest, by omega, hfixed⟩

/-- The window of a request that passed its checks. -/
structure Allocation.Window (a : Allocation) : Prop where
  base : 0 < a.space.base ∧ a.space.base + a.space.bytes ≤ Vm.vaLimit
  bytes : 0 < a.bytes ∧ a.bytes ≤ a.space.bytes
  alignment : 4096 ≤ a.alignment ∧ a.alignment ≤ a.space.bytes
  power : a.alignment &&& (a.alignment - 1) = 0
  fixed : a.fixedAddress ≠ 0 → a.Fits a.fixedAddress
  image : ∃ image, layout a.blocklinear a.pteKind = .ok image

theorem Allocation.validate_window {a : Allocation} {u : Unit} (h : a.validate = .ok u) : a.Window := by
  unfold Allocation.validate at h
  obtain ⟨image, himage, h⟩ := then_ok.1 h
  dsimp only at h
  simp only [check_ok, not_or, not_le, not_lt, ne_eq, not_not] at h
  obtain ⟨-, -, -, ⟨hbase, -, -, hlimit, hspace, hpos, -, hbytes, hlow, hhigh, hpower⟩, hfixed⟩ := h
  refine ⟨⟨by omega, by omega⟩, ⟨by omega, hbytes⟩, ⟨hlow, hhigh⟩, hpower, fun hne => ?_, image, himage⟩
  rw [if_pos hne] at hfixed
  exact Allocation.validateAddress_ok.1 hfixed

/-- The place of a mapping that passed its checks. -/
structure Mapping.Placed (m : Mapping) : Prop where
  window : m.allocation.Window
  fits : m.allocation.Fits m.address
  inside : m.virtualOffset + m.bytes ≤ m.allocation.bytes
  memory : m.memoryOffset + m.bytes ≤ m.memoryBytes

theorem Mapping.validate_placed {m : Mapping} {u : Unit} (h : m.validate = .ok u) : m.Placed := by
  unfold Mapping.validate at h
  obtain ⟨_, hvalid, h⟩ := then_ok.1 h
  obtain ⟨_, hfits, h⟩ := then_ok.1 h
  dsimp only at h
  simp only [check_ok, not_or, not_lt, ne_eq, not_not, and_true] at h
  obtain ⟨-, -, -, -, -, hmemory, hoffset, hbytes, hvirtual⟩ := h
  exact ⟨Allocation.validate_window hvalid, Allocation.validateAddress_ok.1 hfits, by omega, by omega⟩

theorem Mapping.Placed.end_le {m : Mapping} (h : m.Placed) :
    m.address + m.virtualOffset + m.bytes ≤ Vm.vaLimit := by
  have := h.window.base.2
  have := h.fits.high
  have := h.inside
  omega

/-! ## The words of the requests -/

theorem fields_allocation (a : Allocation) (image : Layout) : Fields 160 (allocationFields a image) := by
  constructor <;> simp [allocationFields, field, wide]

theorem fields_mapping (m : Mapping) (operation : MapOperation) :
    Fields operation.size (mappingFields m operation) := by
  cases operation <;> constructor <;> simp [mappingFields, field, wide, MapOperation.size]

theorem fields_free (a : Allocation) : Fields 16 (field 0 a.space.client ++ field 8 a.object) := by
  constructor <;> simp [field]

theorem allocate_ok {a : Allocation} {request : Encoded} : allocate a = .ok request ↔
    a.validate = .ok () ∧ ∃ image, layout a.blocklinear a.pteKind = .ok image ∧
      request = ⟨103, putAll (List.replicate 160 0) (allocationFields a image)⟩ := by
  unfold allocate
  rw [then_ok]
  constructor
  · rintro ⟨⟨⟩, hvalid, h⟩
    obtain ⟨image, himage, h⟩ := then_ok.1 h
    cases h
    exact ⟨hvalid, image, himage, rfl⟩
  · rintro ⟨hvalid, image, himage, rfl⟩
    exact ⟨(), hvalid, then_ok.2 ⟨image, himage, rfl⟩⟩

theorem allocate_length {a : Allocation} {request : Encoded} (h : allocate a = .ok request) :
    request.bytes.length = 160 := by
  obtain ⟨-, image, -, rfl⟩ := allocate_ok.1 h
  have hzeros : (List.replicate 160 (0 : Byte)).length = 160 := List.length_replicate
  exact (length_putAll (by rw [hzeros]; exact fields_allocation a image)).trans hzeros

theorem free_ok {a : Allocation} {request : Encoded} : free a = .ok request ↔
    a.validate = .ok () ∧
      request = ⟨10, putAll (List.replicate 16 0) (field 0 a.space.client ++ field 8 a.object)⟩ := by
  unfold free
  rw [then_ok]
  constructor
  · rintro ⟨⟨⟩, hvalid, h⟩
    cases h
    exact ⟨hvalid, rfl⟩
  · rintro ⟨hvalid, rfl⟩
    exact ⟨(), hvalid, rfl⟩

theorem free_length {a : Allocation} {request : Encoded} (h : free a = .ok request) :
    request.bytes.length = 16 := by
  obtain ⟨-, rfl⟩ := free_ok.1 h
  have hzeros : (List.replicate 16 (0 : Byte)).length = 16 := List.length_replicate
  exact (length_putAll (by rw [hzeros]; exact fields_free a)).trans hzeros

theorem mapping_ok {m : Mapping} {operation : MapOperation} {request : Encoded} :
    mapping m operation = .ok request ↔ m.validate = .ok () ∧
      request = ⟨operation.function,
        putAll (List.replicate operation.size 0) (mappingFields m operation)⟩ := by
  unfold mapping
  rw [then_ok]
  constructor
  · rintro ⟨⟨⟩, hvalid, h⟩
    cases h
    exact ⟨hvalid, rfl⟩
  · rintro ⟨hvalid, rfl⟩
    exact ⟨(), hvalid, rfl⟩

theorem mapping_length {m : Mapping} {operation : MapOperation} {request : Encoded}
    (h : mapping m operation = .ok request) : request.bytes.length = operation.size := by
  obtain ⟨-, rfl⟩ := mapping_ok.1 h
  have hzeros : (List.replicate operation.size (0 : Byte)).length = operation.size :=
    List.length_replicate
  exact (length_putAll (by rw [hzeros]; exact fields_mapping m operation)).trans hzeros

/-! ## Answers -/

namespace Checked

def validateMapping (m : Mapping) : Parse Error Unit := do
  validate m.allocation
  validateAddress m.allocation m.address
  let s := m.allocation.space
  reject ((m.allocation.blocklinear = true ∨ m.allocation.pteKind ≠ 0) ∧ m.virtualKind = false) .Profile
  reject (m.memory = 0) .Handle
  reject (m.memory = s.client ∨ m.memory = s.device ∨ m.memory = s.handle ∨
    m.memory = m.allocation.object) .Handle
  reject (m.bytes = 0 ∨ (m.memoryBytes ||| m.memoryOffset ||| m.virtualOffset ||| m.bytes) &&& 4095 ≠ 0 ∨
    m.bytes > m.memoryBytes) .Bounds
  let room ← minus m.memoryBytes m.bytes
  reject (m.memoryOffset > room ∨ m.bytes > m.allocation.bytes) .Bounds
  let rest ← minus m.allocation.bytes m.bytes
  reject (m.virtualOffset > rest) .Bounds
  .ok ()

theorem validateMapping_eq (m : Mapping) : validateMapping m = total m.validate := by
  unfold validateMapping Mapping.validate
  rw [total_bind, validate_eq]
  refine congrArg _ (funext fun _ => ?_)
  rw [total_bind, validateAddress_eq]
  refine congrArg _ (funext fun _ => ?_)
  dsimp only
  simp only [total_check, reject_or]
  iterate 8 refine reject_congr fun _ => ?_
  refine reject_congr fun hmemory => ?_
  rw [minus_of (not_lt.mp hmemory)]
  refine reject_congr fun _ => reject_congr fun hbytes => ?_
  rw [minus_of (not_lt.mp hbytes)]
  rfl

def allocate (a : Allocation) : Parse Error Encoded := do
  validate a
  let image ← total (layout a.blocklinear a.pteKind)
  .ok ⟨103, putAll (List.replicate 160 0) (allocationFields a image)⟩

def free (a : Allocation) : Parse Error Encoded := do
  validate a
  .ok ⟨10, putAll (List.replicate 16 0) (field 0 a.space.client ++ field 8 a.object)⟩

def mapping (m : Mapping) (operation : MapOperation) : Parse Error Encoded := do
  validateMapping m
  -- Only the request that unmaps holds the absolute address.
  let _ ← if operation = .unmap then sum m.address m.virtualOffset else .ok 0
  .ok ⟨operation.function, putAll (List.replicate operation.size 0) (mappingFields m operation)⟩

theorem allocate_eq (a : Allocation) : allocate a = total (Virtual.allocate a) := by
  unfold allocate Virtual.allocate
  simp only [total_bind, validate_eq]
  rfl

theorem free_eq (a : Allocation) : free a = total (Virtual.free a) := by
  unfold free Virtual.free
  simp only [total_bind, validate_eq]
  rfl

theorem mapping_eq (m : Mapping) (operation : MapOperation) :
    mapping m operation = total (Virtual.mapping m operation) := by
  unfold mapping Virtual.mapping
  rw [total_bind, validateMapping_eq]
  cases hv : m.validate with
  | error e => rfl
  | ok u =>
    have hend := (Mapping.validate_placed hv).end_le
    have hlimit : Vm.vaLimit = 2 ^ 49 := rfl
    cases operation with
    | map => rfl
    | unmap =>
      change (if MapOperation.unmap = .unmap then sum m.address m.virtualOffset else .ok 0) >>= _ = _
      rw [if_pos rfl, sum, fits_of (by omega)]
      rfl

def receipt (record : Record) (request : Encoded) (statusAt : Nat) (shortAllocate : Bool) :
    Parse Error Word := do
  let data := record.payload
  reject (record.rpc.function ≠ request.function ∨ record.rpc.cpuRmGfid ≠ 0) .Unexpected
  reject (record.rpc.result = pendingResult) .Payload
  reject (record.rpc.result ≠ 0) .FirmwareResult
  reject (data.length ≠ request.bytes.length ∧ ¬ (shortAllocate = true ∧ data.length = 32)) .Payload
  compare (fun i => decide (statusAt ≤ i) && decide (i < statusAt + 4)) data request.bytes .Unexpected
    (List.range (min data.length 32))
  wordAt data statusAt

theorem receipt_eq {record : Record} {request : Encoded} {statusAt : Nat} {shortAllocate : Bool}
    (hstatus : statusAt + 4 ≤ request.bytes.length)
    (hshort : shortAllocate = true → 32 ≤ request.bytes.length ∧ statusAt + 4 ≤ 32) :
    receipt record request statusAt shortAllocate =
      total (Virtual.receipt record request statusAt shortAllocate) := by
  unfold receipt Virtual.receipt
  dsimp only
  simp only [total_check]
  refine reject_congr fun _ => reject_congr fun _ => reject_congr fun _ => reject_congr fun hlen => ?_
  have hlen : record.payload.length = request.bytes.length ∨
      shortAllocate = true ∧ record.payload.length = 32 := by
    by_cases heq : record.payload.length = request.bytes.length
    · exact .inl heq
    · exact .inr (not_not.mp fun hn => hlen ⟨heq, hn⟩)
  rw [compare_eq]
  · refine reject_congr fun _ => ?_
    rw [wordAt, checked]
    rw [if_pos]
    · rfl
    · rcases hlen with hlen | ⟨hs, hlen⟩
      · omega
      · have := hshort hs
        omega
  · intro i hi _
    have hi := List.mem_range.mp hi
    rcases hlen with hlen | ⟨hs, hlen⟩
    · omega
    · have := hshort hs
      omega

def allocationAttributes (request response : List Byte) (isVirtual : Bool) : Parse Error Unit := do
  reject (request.length ≠ 128 ∨ response.length ≠ 128) .Payload
  let _ ← wordAt request 24
  let _ ← wordAt response 24
  let _ ← wordAt request 28
  let _ ← wordAt response 28
  let _ ← wordAt request 32
  let _ ← wordAt response 32
  let _ ← wordAt request 4
  -- The rest compares words.
  total (Virtual.allocationAttributes request response isVirtual)

theorem allocationAttributes_eq (request response : List Byte) (isVirtual : Bool) :
    allocationAttributes request response isVirtual =
      total (Virtual.allocationAttributes request response isVirtual) := by
  by_cases h : request.length ≠ 128 ∨ response.length ≠ 128
  · unfold allocationAttributes Virtual.allocationAttributes
    rw [reject_of h, if_pos h]
    rfl
  · unfold allocationAttributes
    rw [reject_of_not h]
    simp only [not_or, not_not] at h
    obtain ⟨hrequest, hresponse⟩ := h
    simp only [wordAt]
    iterate 7 rw [checked_of (by omega)]

/-- The places of the parameters that an answer fills in. -/
def filled (i : Nat) : Bool :=
  decide (24 ≤ i ∧ i < 36) || decide (48 ≤ i ∧ i < 64) || decide (80 ≤ i ∧ i < 96)

def checkRange (space : Space) (fixed : Bool) (bytes address lo hi : Nat) : Parse Error Unit := do
  reject (lo < space.base ∨ lo > address ∨ lo &&& 4095 ≠ 0 ∨ hi &&& 4095 ≠ 4095 ∨ hi < address) .Bounds
  let span ← minus hi address
  let last ← minus bytes 1
  reject (span < last) .Bounds
  let high ← minus hi space.base
  reject (high ≥ space.bytes ∨ fixed = true ∧ (lo ≠ address ∨ span ≠ last)) .Bounds
  .ok ()

def allocationParameters (space : Space) (request response : List Byte) : Parse Error Nat := do
  allocationAttributes request response true
  compare filled response request .Payload (List.range response.length)
  let bytes ← longAt request 64
  let alignment ← longAt request 72
  let address ← longAt response 80
  reject (bytes = 0 ∨ bytes > space.bytes ∨ alignment < 4096) .Bounds
  let power ← powerOfTwo alignment
  reject (power = false) .Bounds
  let limit ← longAt response 88
  let last ← minus bytes 1
  reject (limit ≠ last ∨ address < space.base) .Bounds
  let rest ← remainder address alignment
  reject (rest ≠ 0) .Bounds
  let offset ← minus address space.base
  let room ← minus space.bytes bytes
  reject (offset > room) .Bounds
  let flags ← wordAt request 8
  let fixed : Bool := flags &&& 0x10 ≠ 0
  let wanted ← longAt request 80
  reject (fixed = true ∧ address ≠ wanted) .Bounds
  let lo ← longAt response 48
  let hi ← longAt response 56
  if lo ≠ 0 ∨ hi ≠ 0 then
    checkRange space fixed bytes address lo hi
    .ok address
  else .ok address

theorem checkRange_eq {space : Space} {fixed : Bool} {bytes address lo hi : Nat} (hb : bytes ≠ 0)
    (hlow : space.base ≤ address) : checkRange space fixed bytes address lo hi =
      reject (lo < space.base ∨ lo > address ∨ lo &&& 4095 ≠ 0 ∨ hi &&& 4095 ≠ 4095 ∨ hi < address ∨
        hi - address < bytes - 1 ∨ hi - space.base ≥ space.bytes ∨
        fixed = true ∧ (lo ≠ address ∨ hi - address ≠ bytes - 1)) .Bounds := by
  have hlast (c : Prop) [Decidable c] (e : Error) : reject c e = reject c e >>= fun _ => .ok () := by
    unfold reject
    split <;> rfl
  rw [hlast]
  unfold checkRange
  simp only [reject_or]
  refine reject_congr fun _ => reject_congr fun _ => reject_congr fun _ => reject_congr fun _ =>
    reject_congr fun hhi => ?_
  rw [minus_of (not_lt.mp hhi), minus_of (Nat.one_le_iff_ne_zero.mpr hb)]
  refine reject_congr fun _ => ?_
  rw [minus_of (hlow.trans (not_lt.mp hhi))]

theorem allocationParameters_eq (space : Space) (request response : List Byte) :
    allocationParameters space request response =
      total (Virtual.allocationParameters space request response) := by
  unfold allocationParameters Virtual.allocationParameters
  rw [total_bind, allocationAttributes_eq]
  cases hattributes : Virtual.allocationAttributes request response true with
  | error e => rfl
  | ok u =>
    have hlen : request.length = 128 ∧ response.length = 128 := by
      unfold Virtual.allocationAttributes at hattributes
      have := (check_ok.1 hattributes).1
      simpa using this
    change compare filled response request .Payload (List.range response.length) >>= _ = total _
    rw [total_check, compare_eq fun i hi _ => by
      have := List.mem_range.mp hi
      omega]
    refine reject_congr fun _ => ?_
    dsimp only
    simp only [total_check, longAt, wordAt]
    rw [checked_of (by omega), checked_of (by omega), checked_of (by omega)]
    simp only [reject_or]
    refine reject_congr fun hzero => reject_congr fun hbytes => reject_congr fun halign => ?_
    rw [powerOfTwo, checked_of (by omega)]
    simp only [decide_eq_false_iff_not]
    refine reject_congr fun _ => ?_
    rw [checked_of (by omega), minus_of (Nat.one_le_iff_ne_zero.mpr hzero)]
    refine reject_congr fun _ => reject_congr fun hlow => ?_
    rw [remainder, checked_of (by omega)]
    refine reject_congr fun _ => ?_
    rw [minus_of (not_lt.mp hlow), minus_of (not_lt.mp hbytes)]
    refine reject_congr fun _ => ?_
    rw [checked_of (by omega), checked_of (by omega)]
    refine reject_congr fun _ => ?_
    rw [checked_of (by omega), checked_of (by omega), checkRange_eq hzero (not_lt.mp hlow)]
    by_cases hset : long response 48 ≠ 0 ∨ long response 56 ≠ 0
    · rw [if_pos hset]
      simp only [hset, true_and]
      rfl
    · rw [if_neg hset, reject_of_not fun h => hset h.1]
      rfl

def allocated (a : Allocation) (record : Record) : Parse Error Reply := do
  let request ← allocate a
  let status ← receipt record request 16 true
  if status ≠ 0 then .ok (.rejected status)
  else
    reject (record.payload.length ≠ 160) .Payload
    let parameters ← checked (32 ≤ request.bytes.length) .bounds (request.bytes.drop 32)
    let answer ← checked (32 ≤ record.payload.length) .bounds (record.payload.drop 32)
    let address ← allocationParameters a.space parameters answer
    validateAddress a address
    .ok (.ok address)

def freed (a : Allocation) (record : Record) : Parse Error Reply := do
  let request ← free a
  let status ← receipt record request 12 false
  if status = 0 then .ok (.ok 0) else .ok (.rejected status)

def mapped (m : Mapping) (operation : MapOperation) (record : Record) : Parse Error Reply := do
  let request ← mapping m operation
  let status ← receipt record request operation.statusAt false
  if status ≠ 0 then .ok (.rejected status)
  else
    compare operation.skipped record.payload request.bytes .Payload (List.range record.payload.length)
    let address ← sum m.address m.virtualOffset
    if operation = .map then
      let told ← longAt record.payload 40
      reject (told ≠ address) .Bounds
      .ok (.ok address)
    else .ok (.ok address)

theorem allocated_eq (a : Allocation) (record : Record) :
    allocated a record = total (Virtual.allocated a record) := by
  unfold allocated Virtual.allocated
  rw [allocate_eq]
  cases hrequest : Virtual.allocate a with
  | error e => rfl
  | ok request =>
    have hlen := allocate_length hrequest
    change receipt record request 16 true >>= _ =
      total (Virtual.receipt record request 16 true >>= _)
    rw [total_bind, receipt_eq (by omega) fun _ => by omega]
    refine congrArg _ (funext fun status => ?_)
    by_cases hs : status ≠ 0
    · rw [if_pos hs, if_pos hs]
      rfl
    · rw [if_neg hs, if_neg hs, total_check]
      refine reject_congr fun hpayload => ?_
      rw [checked_of (by omega), checked_of (by omega), allocationParameters_eq, total_bind]
      refine congrArg _ (funext fun address => ?_)
      rw [total_bind, validateAddress_eq]
      rfl

theorem freed_eq (a : Allocation) (record : Record) :
    freed a record = total (Virtual.freed a record) := by
  unfold freed Virtual.freed
  rw [free_eq]
  cases hrequest : Virtual.free a with
  | error e => rfl
  | ok request =>
    have hlen := free_length hrequest
    change receipt record request 12 false >>= _ =
      total (Virtual.receipt record request 12 false >>= _)
    rw [total_bind, receipt_eq (by omega) fun h : false = true => absurd h Bool.false_ne_true]
    refine congrArg _ (funext fun status => ?_)
    rw [total_ite]
    rfl

/-- The payload of an answer that passes the receipt check is as long as the request. -/
theorem receipt_length {record : Record} {request : Encoded} {statusAt : Nat} {status : Word}
    (h : Virtual.receipt record request statusAt false = .ok status) :
    record.payload.length = request.bytes.length := by
  unfold Virtual.receipt at h
  simp only [check_ok, Bool.false_eq_true, false_and, not_false_eq_true, and_true, not_not] at h
  exact h.2.2.2.1

theorem mapped_eq (m : Mapping) (operation : MapOperation) (record : Record) :
    mapped m operation record = total (Virtual.mapped m operation record) := by
  unfold mapped Virtual.mapped
  rw [mapping_eq]
  cases hrequest : Virtual.mapping m operation with
  | error e => rfl
  | ok request =>
    have hlen := mapping_length hrequest
    have hend := (Mapping.validate_placed (mapping_ok.1 hrequest).1).end_le
    have hlimit : Vm.vaLimit = 2 ^ 49 := rfl
    have hstatus : operation.statusAt + 4 ≤ operation.size := by cases operation <;> decide
    change receipt record request operation.statusAt false >>= _ =
      total (Virtual.receipt record request operation.statusAt false >>= _)
    rw [total_bind, receipt_eq (by omega) fun h : false = true => absurd h Bool.false_ne_true]
    cases hreceipt : Virtual.receipt record request operation.statusAt false with
    | error e => rfl
    | ok status =>
      have hpayload := receipt_length hreceipt
      change (if status ≠ 0 then _ else _) = total (if status ≠ 0 then _ else _)
      by_cases hs : status ≠ 0
      · rw [if_pos hs, if_pos hs]
        rfl
      · rw [if_neg hs, if_neg hs, total_check, compare_eq fun i hi _ => by
          have := List.mem_range.mp hi
          omega]
        refine reject_congr fun _ => ?_
        dsimp only
        rw [sum, fits_of (by omega), total_check]
        cases operation with
        | map =>
          rw [if_pos rfl, longAt, checked_of (by simp only [MapOperation.size] at hlen; omega)]
          simp only [true_and]
          rfl
        | unmap =>
          rw [if_neg (by decide), reject_of_not (by simp)]
          rfl

end Checked
end Virtual
end NvidiaGsp
