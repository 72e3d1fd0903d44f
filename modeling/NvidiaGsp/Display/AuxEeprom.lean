import NvidiaGsp.Display.AuxEdidSpec

/-!
# Display.AuxEeprom

A DDC EEPROM behind I2C over AUX: a segment pointer that a STOP resets, and a byte offset that counts up.
It reads its commands from the request's bytes, and may put a request off, take a write and answer it
later, or acknowledge a read of any length. A sink that is not put off too often gives its block to the
reader (`edid_read`).
-/

namespace NvidiaGsp
namespace Aux

open Bytes

/-! ## The sink -/

structure Sink where
  eeprom : Nat → Byte
  segment : Nat := 0
  offset : Nat := 0
  /-- A write that was taken but not answered, by its address. -/
  pending : Option (Nat × Nat) := none

inductive Choice where
  | defer
  | i2cDefer
  | busy (status retryMs : Nat)
  | serve (count : Nat)
  deriving DecidableEq

def Sink.write (s : Sink) (address value : Nat) : Sink :=
  if address = 0x30 then { s with segment := value, pending := none }
  else { s with offset := value, pending := none }

def Sink.settle (s : Sink) : Sink :=
  match s.pending with
  | some (address, value) => s.write address value
  | none => s

def Sink.stop (s : Sink) : Sink := { s with segment := 0, pending := none }

/-- The bytes at the offset; a segment has 256. -/
def Sink.data (s : Sink) (count : Nat) : List Byte :=
  (List.range count).map fun i => s.eeprom (256 * s.segment + (s.offset + i) % 256)

def Sink.skip (s : Sink) (count : Nat) : Sink := { s with offset := (s.offset + count) % 256 }

def respond (request : List Byte) (kind count : Nat) (data : List Byte) : List Byte :=
  put (put (blit request 20 data) 36 (BitVec.ofNat 32 count)) 40 (BitVec.ofNat 32 kind)

def Sink.serve (s : Sink) (request : List Byte) : Choice → Sink × Answer
  | .defer => (s, ⟨0, respond request 2 0 []⟩)
  | .i2cDefer =>
    (if get request 12 = 4 then
        { s with pending := some (get request 16, (request.getD 20 0).toNat) }
      else s, ⟨0, respond request 8 0 []⟩)
  | .busy status retryMs => (s, ⟨status, put request 44 (BitVec.ofNat 32 retryMs)⟩)
  | .serve n =>
    if get request 12 = 4 then
      (s.write (get request 16) (request.getD 20 0).toNat, ⟨0, respond request 0 1 []⟩)
    else if get request 12 = 6 then (s.settle, ⟨0, respond request 0 1 []⟩)
    else if get request 12 = 0 then (s.stop, ⟨0, respond request 0 0 []⟩)
    else
      let count := min (max n 1) (get request 36 + 1)
      let after := s.skip count
      (if get request 12 = 1 then after.stop else after, ⟨0, respond request 0 count (s.data count)⟩)

/-! ## The wire between them -/

variable {request : List Byte} {op : Operation} {displayId : Nat} {r : Reader} {l l' : Link} {s : Sink}
  {opened : Bool} {now : Nat} {reply : Reply} {answer : Answer}

theorem getD_toNat (bytes : List Byte) (i : Nat) : (bytes.getD i 0).toNat = get bytes i % 256 := by
  have h₀ := (bytes.getD i 0).isLt
  have h₁ := (bytes.getD (i + 1) 0).isLt
  have h₂ := (bytes.getD (i + 2) 0).isLt
  have h₃ := (bytes.getD (i + 3) 0).isLt
  unfold get word ofLe32
  rw [BitVec.toNat_ofNat]
  omega

/-- The words of a request. -/
structure Framed (displayId : Nat) (op : Operation) (request : List Byte) : Prop where
  length : request.length = 48
  zero : get request 0 = 0
  id : get request 4 = displayId
  only : get request 8 = op.only
  cmd : get request 12 = op.cmd
  address : get request 16 = op.address
  value : get request 20 = op.value
  count : get request 36 = op.length - 1

theorem cmd_lt (op : Operation) : op.cmd < 2 ^ 32 := by
  cases op <;> simp only [Operation.cmd] <;> first | decide | (split <;> decide)

theorem address_lt (op : Operation) : op.address < 2 ^ 32 := by
  cases op <;> simp only [Operation.address] <;> decide

theorem only_lt (op : Operation) : op.only < 2 ^ 32 := by
  cases op <;> simp only [Operation.only] <;> decide

theorem get_putAll {bytes : List Byte} {fields : List (Nat × Word)} {i v : Nat}
    (hf : Fields bytes.length fields) (hm : (i, BitVec.ofNat 32 v) ∈ fields) (hv : v < 2 ^ 32) :
    get (putAll bytes fields) i = v := by
  unfold get
  rw [word_putAll hf hm, BitVec.toNat_ofNat, Nat.mod_eq_of_lt hv]

theorem encode_framed (hid : displayId < 2 ^ 32) (hvalue : op.value < 256) (hlength : op.length ≤ 16)
    (h : encode displayId op = .ok request) : Framed displayId op request := by
  unfold encode at h
  split at h
  · cases h
  · rw [← Except.ok.inj h]
    have hf : Fields (List.replicate 48 (0 : Byte)).length
        [(4, BitVec.ofNat 32 displayId), (8, BitVec.ofNat 32 op.only), (12, BitVec.ofNat 32 op.cmd),
          (16, BitVec.ofNat 32 op.address), (20, BitVec.ofNat 32 op.value),
          (36, BitVec.ofNat 32 (op.length - 1))] := by
      simp [Fields]
    refine ⟨by rw [length_putAll hf, List.length_replicate], ?_, get_putAll hf (by simp) hid,
      get_putAll hf (by simp) (only_lt op), get_putAll hf (by simp) (cmd_lt op),
      get_putAll hf (by simp) (address_lt op), get_putAll hf (by simp) (by omega),
      get_putAll hf (by simp) (by omega)⟩
    unfold get
    rw [word_congr (b := List.replicate 48 0) (j := 0) fun k hk =>
      getD_putAll_of_disjoint hf fun f hmem => by
        simp only [List.mem_cons, List.not_mem_nil, or_false] at hmem
        rcases hmem with rfl | rfl | rfl | rfl | rfl | rfl <;> simp <;> omega]
    decide

theorem respond_length {kind count : Nat} {data : List Byte} (hl : request.length = 48)
    (hd : data.length ≤ 16) : (respond request kind count data).length = 48 := by
  have h₁ : (blit request 20 data).length = 48 := by rw [length_blit (by omega), hl]
  have h₂ : (put (blit request 20 data) 36 (BitVec.ofNat 32 count)).length = 48 := by
    rw [length_put (by omega), h₁]
  unfold respond
  rw [length_put (by omega), h₂]

theorem respond_get {kind count i : Nat} {data : List Byte} (hl : request.length = 48)
    (hd : data.length ≤ 16) (hi : i + 4 ≤ 20) : get (respond request kind count data) i = get request i := by
  have h₁ : (blit request 20 data).length = 48 := by rw [length_blit (by omega), hl]
  have h₂ : (put (blit request 20 data) 36 (BitVec.ofNat 32 count)).length = 48 := by
    rw [length_put (by omega), h₁]
  unfold respond get
  rw [word_put_of_disjoint (by omega) (by omega), word_put_of_disjoint (by omega) (by omega),
    word_blit_of_disjoint (by omega) (by omega)]

theorem respond_kind {kind count : Nat} {data : List Byte} (hl : request.length = 48)
    (hd : data.length ≤ 16) (hk : kind < 2 ^ 32) (hc : count < 2 ^ 32) :
    get (respond request kind count data) 40 = kind ∧ get (respond request kind count data) 36 = count := by
  have h₁ : (blit request 20 data).length = 48 := by rw [length_blit (by omega), hl]
  have h₂ : (put (blit request 20 data) 36 (BitVec.ofNat 32 count)).length = 48 := by
    rw [length_put (by omega), h₁]
  unfold respond get
  rw [word_put_same (by omega), word_put_of_disjoint (by omega) (by omega), word_put_same (by omega),
    BitVec.toNat_ofNat, BitVec.toNat_ofNat, Nat.mod_eq_of_lt hk, Nat.mod_eq_of_lt hc]
  exact ⟨rfl, rfl⟩

theorem respond_data {kind count : Nat} {data : List Byte} (hl : request.length = 48)
    (hd : data.length ≤ 16) : ((respond request kind count data).drop 20).take data.length = data := by
  have h₁ : (blit request 20 data).length = 48 := by rw [length_blit (by omega), hl]
  have h₂ : (put (blit request 20 data) 36 (BitVec.ofNat 32 count)).length = 48 := by
    rw [length_put (by omega), h₁]
  have h₂' : (blit (blit request 20 data) 36 (le32 (BitVec.ofNat 32 count))).length = 48 := h₂
  have h₃ : ∀ v : Word, (le32 v).length = 4 := fun _ => rfl
  have hget : ∀ i < data.length, (respond request kind count data).getD (20 + i) 0 = data.getD i 0 := by
    intro i hi
    unfold respond put
    rw [getD_blit (by rw [h₃, h₂']; decide), if_neg (by rw [h₃]; omega),
      getD_blit (by rw [h₃, h₁]; decide), if_neg (by rw [h₃]; omega), getD_blit (by omega),
      if_pos (by omega), Nat.add_sub_cancel_left]
  have hlen : (respond request kind count data).length = 48 := respond_length hl hd
  refine List.ext_getElem (by simp [hlen]; omega) fun i h₁ h₂ => ?_
  have heq := hget i h₂
  rw [List.getD_eq_getElem?_getD, List.getD_eq_getElem?_getD, List.getElem?_eq_getElem (by omega),
    List.getElem?_eq_getElem h₂] at heq
  simpa using heq

theorem Framed.echo {kind count : Nat} {data : List Byte} (hf : Framed displayId op request)
    (hd : data.length ≤ 16) (honly : op.only < 256) : ¬ (get (respond request kind count data) 0 ≠ 0 ∨
      get (respond request kind count data) 4 ≠ displayId ∨
      ((respond request kind count data).getD 8 0).toNat ≠ op.only ∨
      get (respond request kind count data) 12 ≠ op.cmd ∨
      get (respond request kind count data) 16 ≠ op.address) := by
  rw [getD_toNat, respond_get hf.length hd (by decide), respond_get hf.length hd (by decide),
    respond_get hf.length hd (by decide), respond_get hf.length hd (by decide),
    respond_get hf.length hd (by decide), hf.zero, hf.id, hf.only, hf.cmd, hf.address,
    Nat.mod_eq_of_lt honly]
  simp

theorem only_le (op : Operation) : op.only < 256 := by
  cases op <;> simp only [Operation.only] <;> decide

/-- A request that is put off is read as such. -/
theorem decode_defer {kind : Nat} {reason : ReplyType} (hf : Framed displayId op request)
    (hk : ReplyType.ofWord kind = some reason) (hack : reason ≠ .ack) (hlt : kind < 2 ^ 32) :
    decode displayId op 0 (respond request kind 0 []) = .ok { kind := reason } := by
  have hlen : (respond request kind 0 []).length = 48 := respond_length hf.length (Nat.zero_le _)
  have hkind : get (respond request kind 0 []) 40 = kind :=
    (respond_kind hf.length (Nat.zero_le _) hlt (by decide)).1
  unfold decode
  rw [if_neg (not_not.mpr hlen), if_neg (hf.echo (Nat.zero_le _) (only_le op)), if_neg (not_not.mpr rfl),
    hkind, hk]
  exact if_pos hack

/-- Only a read carries bytes. -/
def Operation.carried (op : Operation) (data : List Byte) : List Byte :=
  match op with
  | .read _ _ => data
  | _ => []

theorem decode_ack {count : Nat} {data : List Byte} (hf : Framed displayId op request)
    (hcount : count ≤ op.length) (hd : data.length = count ∨ data = []) (hle : count ≤ 16) :
    decode displayId op 0 (respond request 0 count data) = .ok
      { kind := .ack, count, data := op.carried (((respond request 0 count data).drop 20).take count) } := by
  have hd' : data.length ≤ 16 := by
    rcases hd with h | h
    · omega
    · rw [h]
      exact Nat.zero_le _
  have hlen : (respond request 0 count data).length = 48 := respond_length hf.length hd'
  obtain ⟨hkind, hcount'⟩ := respond_kind hf.length hd' (by decide : 0 < 2 ^ 32) (by omega : count < 2 ^ 32)
  unfold decode
  rw [if_neg (not_not.mpr hlen), if_neg (hf.echo hd' (only_le op)), if_neg (not_not.mpr rfl), hkind]
  show (if ReplyType.ack ≠ ReplyType.ack then _ else _) = _
  rw [if_neg (not_not.mpr rfl), hcount', if_neg (Nat.not_lt.mpr hcount)]
  cases op <;> rfl

theorem decode_busy {status retryMs : Nat} (hf : Framed displayId op request) (hs : status = 3 ∨ status = 0x66) :
    decode displayId op status (put request 44 (BitVec.ofNat 32 retryMs)) =
      .ok { status, retryMs := retryMs % 2 ^ 32 } := by
  have hl := hf.length
  have hlen : (put request 44 (BitVec.ofNat 32 retryMs)).length = 48 := by rw [length_put (by omega), hl]
  have hget (i : Nat) (hi : i + 4 ≤ 44) : get (put request 44 (BitVec.ofNat 32 retryMs)) i = get request i := by
    unfold get
    rw [word_put_of_disjoint (by omega) (by omega)]
  have hretry : get (put request 44 (BitVec.ofNat 32 retryMs)) 44 = retryMs % 2 ^ 32 := by
    unfold get
    rw [word_put_same (by omega), BitVec.toNat_ofNat]
  unfold decode
  rw [if_neg (not_not.mpr hlen), getD_toNat, hget 0 (by decide), hget 4 (by decide), hget 8 (by decide),
    hget 12 (by decide), hget 16 (by decide), hf.zero, hf.id, hf.only, hf.cmd, hf.address,
    Nat.mod_eq_of_lt (only_le op), if_neg (by simp), if_pos (by omega), if_pos hs, hretry]

/-! ## Runs of the two -/

structure World where
  link : Link
  sink : Sink

/-- One request, as its bytes reach the sink, and its reply. -/
def World.step (displayId : Nat) (w : World) (choice : Choice) (now : Nat) : Except Error Unit × World :=
  match w.link.reader.query with
  | .error e => (.error e, w)
  | .ok op =>
    match encode displayId op with
    | .error e => (.error e, w)
    | .ok request =>
      let (sink, answer) := w.sink.serve request choice
      let (out, link) := w.link.step displayId (answer, now)
      (out, ⟨link, sink⟩)

/-- A run of `n` requests; it stays at its end, and stops at an error. -/
def World.run (displayId : Nat) (choices : Nat → Choice) (clock : Nat → Nat) (w : World) :
    Nat → Except Error World
  | 0 => .ok w
  | n + 1 =>
    match w.run displayId choices clock n with
    | .error e => .error e
    | .ok w =>
      if w.link.ended then .ok w
      else match w.step displayId (choices n) (clock n) with
      | (.error e, _) => .error e
      | (.ok (), w') => .ok w'

/-- The requests put off and the errors since the last one that was served. -/
def deferred (choices : Nat → Choice) : Nat → Nat
  | 0 => 0
  | n + 1 =>
    match choices n with
    | .defer | .i2cDefer => deferred choices n + 1
    | .busy _ _ => deferred choices n
    | .serve _ => 0

def erred (choices : Nat → Choice) : Nat → Nat
  | 0 => 0
  | n + 1 =>
    match choices n with
    | .defer | .i2cDefer => erred choices n
    | .busy _ _ => erred choices n + 1
    | .serve _ => 0

/-- Up to seven requests are put off and up to two fail, with a status that allows a retry, before one
is served. -/
structure Patient (choices : Nat → Choice) : Prop where
  deferred : ∀ n, deferred choices n ≤ 7
  erred : ∀ n, erred choices n ≤ 2
  status : ∀ n status retryMs, choices n = .busy status retryMs → status = 3 ∨ status = 0x66

/-- The sink is where the reader takes it to be. -/
structure Aligned (eeprom : Nat → Byte) (block : Nat) (w : World) : Prop where
  own : w.link.reader.block = block
  small : block < 32
  rom : w.sink.eeprom = eeprom
  cursor : w.link.reader.cursor < 128
  length : w.link.reader.bytes.length = 128
  taken : ∀ i < w.link.reader.cursor, w.link.reader.bytes.getD i 0 = eeprom (128 * block + i)
  /-- A selection may start at the offset where the sink is in its first segment. -/
  forced : block < 2 ∨ selection block w.link.reader.forceZero = .segment
  at_ : match w.link.reader.state with
    | .segment => w.link.reader.statusQuery = true → w.sink.pending = some (0x30, block / 2)
    | .offset => w.sink.segment = block / 2 ∧ (w.link.reader.statusQuery = true →
        w.sink.pending = some (0x50, block % 2 * 128 + w.link.reader.cursor))
    | .read => w.sink.segment = block / 2 ∧ w.sink.offset = block % 2 * 128 + w.link.reader.cursor ∧
        w.link.reader.statusQuery = false
    | _ => False

/-- The reader's counters are those of the answers. -/
structure Counted (choices : Nat → Choice) (n : Nat) (r : Reader) : Prop where
  deferred : r.deferRetries = deferred choices n
  erred : r.rmRetries = erred choices n

theorem step_of {request : List Byte} {answer : Answer} (hq : l.reader.query = .ok op) (hns : op ≠ .stop)
    (he : encode displayId op = .ok request)
    (hd : decode displayId op answer.status answer.bytes = .ok reply) :
    l.step displayId (answer, now) =
      ((l.reader.consume reply now (!closes op reply)).1,
        ⟨(l.reader.consume reply now (!closes op reply)).2, !closes op reply⟩) := by
  unfold Link.step Link.take
  rw [hq]
  dsimp only
  rw [if_neg fun h => hns h.1, he]
  dsimp only
  rw [hd]

/-- The states of a reader that has neither failed nor ended. -/
def Reader.reading (r : Reader) : Prop := r.state = .segment ∨ r.state = .offset ∨ r.state = .read

theorem consume_busy {status retryMs : Nat} (opened : Bool) (hr : r.reading) (hs : status = 3 ∨ status = 0x66)
    (hn : r.rmRetries < 2) (hms : retryMs < 2 ^ 32) (hc : now + 2 ^ 52 ≤ 2 ^ 64) :
    ∃ retryAtNs, r.consume { status, retryMs } now opened = (.ok (), { r with
      rmRetries := r.rmRetries + 1, retryAtNs, retries := r.retries + 1 }) := by
  refine ⟨now + max 500000 (retryMs * 1000000), ?_⟩
  unfold Reader.consume Reader.delay
  dsimp only
  rw [if_neg, if_pos (by omega), if_pos ⟨hs, hn⟩, if_neg (by omega)]
  rcases hr with h | h | h <;> rw [h] <;> decide

theorem consume_defer (hr : r.reading) (hk : reply.kind = .deferReply ∨ reply.kind = .i2cDefer)
    (hz : reply.status = 0) (hn : r.deferRetries < 7) (hc : now + 500000 < 2 ^ 64) :
    r.consume reply now opened = (.ok (), { r with
      deferRetries := r.deferRetries + 1, retryAtNs := now + 500000, retries := r.retries + 1
      statusQuery := r.statusQuery ||
        decide (reply.kind = .i2cDefer ∧ (r.state = .segment ∨ r.state = .offset)) }) := by
  unfold Reader.consume Reader.delay
  rw [if_neg, if_neg (not_not.mpr hz), if_pos (by rcases hk with h | h <;> simp [h]), if_pos hn,
    if_neg (by omega)]
  rcases hr with h | h | h <;> rw [h] <;> decide

theorem consume_ack (hr : r.reading) (hk : reply.kind = .ack) (hz : reply.status = 0) (hn : reply.count ≠ 0) :
    r.consume reply now opened = r.fresh.advance reply := by
  unfold Reader.consume
  rw [if_neg, if_neg (not_not.mpr hz), if_neg (by simp [hk, hn]), if_neg (by simp [hk, hn])]
  · rfl
  · rcases hr with h | h | h <;> rw [h] <;> decide

theorem encode_read {query : Operation} (hid : displayId ≠ 0 ∧ displayId &&& (displayId - 1) = 0)
    (hr : query.refused = false) : ∃ request, encode displayId query = .ok request := by
  unfold encode
  rw [if_neg (by simp [hid.1, hid.2, hr])]
  exact ⟨_, rfl⟩

variable {eeprom : Nat → Byte} {block n : Nat} {w : World} {choices : Nat → Choice} {choice : Choice}
  {r' : Reader} {sink : Sink}

theorem Aligned.reading (ha : Aligned eeprom block w) : w.link.reader.reading := by
  have hat := ha.at_
  cases hs : w.link.reader.state with
  | segment => exact .inl hs
  | offset => exact .inr (.inl hs)
  | read => exact .inr (.inr hs)
  | _ =>
    rw [hs] at hat
    exact hat.elim

/-- The request of a reader in step with its sink can be sent, and its write is a byte. -/
theorem Aligned.query (ha : Aligned eeprom block w) : ∃ op, w.link.reader.query = .ok op ∧ op ≠ .stop ∧
    op.refused = false ∧ op.value < 256 ∧ op.length ≤ 16 ∧ 1 ≤ op.length := by
  have hcursor := ha.cursor
  have hsmall := ha.small
  unfold Reader.query
  rcases ha.reading with hs | hs | hs <;> rw [hs] <;> dsimp only
  · cases w.link.reader.statusQuery with
    | true => exact ⟨_, rfl, (by intro h; cases h), rfl, Nat.zero_lt_succ _, Nat.le_of_ble_eq_true rfl, Nat.le_refl _⟩
    | false =>
      refine ⟨_, rfl, (by intro h; cases h), ?_, ?_, by simp [Operation.length], by simp [Operation.length]⟩
      · simp only [Operation.refused, ha.own, Bool.false_eq_true, if_false, decide_eq_false_iff_not]
        omega
      · simp only [Operation.value, ha.own, Bool.false_eq_true, if_false]
        omega
  · cases w.link.reader.statusQuery with
    | true => exact ⟨_, rfl, (by intro h; cases h), rfl, Nat.zero_lt_succ _, Nat.le_of_ble_eq_true rfl, Nat.le_refl _⟩
    | false =>
      refine ⟨_, rfl, (by intro h; cases h), rfl, ?_, by simp [Operation.length], by simp [Operation.length]⟩
      simp only [Operation.value, Bool.false_eq_true, if_false]
      omega
  · refine ⟨_, rfl, (by intro h; cases h), ?_, Nat.zero_lt_succ _, ?_, ?_⟩
    · simp only [Operation.refused, decide_eq_false_iff_not]
      omega
    · simp only [Operation.length]
      omega
    · simp only [Operation.length]
      omega

theorem world_step (hq : w.link.reader.query = .ok op) (hns : op ≠ .stop)
    (he : encode displayId op = .ok request) (hserve : w.sink.serve request choice = (sink, answer))
    (hd : decode displayId op answer.status answer.bytes = .ok reply)
    (hc : w.link.reader.consume reply now (!closes op reply) = (.ok (), r')) :
    w.step displayId choice now = (.ok (), ⟨⟨r', !closes op reply⟩, sink⟩) := by
  unfold World.step
  rw [hq]
  dsimp only
  rw [he]
  dsimp only
  rw [hserve]
  dsimp only
  rw [step_of hq hns he hd, hc]

/-- A retry by a request that was put off or failed: only the counters and a pending write differ. -/
theorem aligned_retry {opened : Bool} (ha : Aligned eeprom block w)
    (hkeep : r'.block = w.link.reader.block ∧ r'.state = w.link.reader.state ∧
      r'.cursor = w.link.reader.cursor ∧ r'.bytes = w.link.reader.bytes ∧
      r'.forceZero = w.link.reader.forceZero)
    (hsink : sink.eeprom = w.sink.eeprom ∧ sink.segment = w.sink.segment ∧ sink.offset = w.sink.offset)
    (hpending : match w.link.reader.state with
      | .segment => r'.statusQuery = true → sink.pending = some (0x30, block / 2)
      | .offset => r'.statusQuery = true →
          sink.pending = some (0x50, block % 2 * 128 + w.link.reader.cursor)
      | _ => r'.statusQuery = w.link.reader.statusQuery) :
    Aligned eeprom block ⟨⟨r', opened⟩, sink⟩ := by
  obtain ⟨hblock, hstate, hcursor, hbytes, hforce⟩ := hkeep
  obtain ⟨hrom, hsegment, hoffset⟩ := hsink
  refine ⟨hblock.trans ha.own, ha.small, hrom.trans ha.rom, hcursor ▸ ha.cursor, hbytes ▸ ha.length, ?_,
    ?_, ?_⟩
  · show ∀ i < r'.cursor, r'.bytes.getD i 0 = _
    rw [hcursor, hbytes]
    exact ha.taken
  · show block < 2 ∨ selection block r'.forceZero = _
    rw [hforce]
    exact ha.forced
  · have hat := ha.at_
    dsimp only
    rw [hstate]
    rcases ha.reading with hs | hs | hs <;> rw [hs] at hat hpending ⊢ <;> dsimp only at hat hpending ⊢
    · exact hpending
    · rw [hsegment, hcursor]
      exact ⟨hat.1, hpending⟩
    · rw [hsegment, hoffset, hcursor, hpending]
      exact hat

/-- The sink and the reader after a request was put off or failed. -/
theorem serve_delayed (ha : Aligned eeprom block w) (hp : Patient choices) (hc : Counted choices n w.link.reader)
    (hclock : now + 2 ^ 52 ≤ 2 ^ 64) (hid : displayId < 2 ^ 32)
    (hone : displayId ≠ 0 ∧ displayId &&& (displayId - 1) = 0)
    (hchoice : ∀ count, choices n ≠ .serve count) : ∃ w', w.step displayId (choices n) now = (.ok (), w') ∧
      Counted choices (n + 1) w'.link.reader ∧ Aligned eeprom block w' := by
  obtain ⟨op, hq, hns, hrefused, hvalue, hlength, -⟩ := ha.query
  obtain ⟨request, he⟩ := encode_read hone hrefused
  have hf := encode_framed hid hvalue hlength he
  have hdeferred := hp.deferred (n + 1)
  have herred := hp.erred (n + 1)
  have hd := hc.deferred
  have hb := hc.erred
  have hat := ha.at_
  simp only [deferred, erred] at hdeferred herred
  cases hch : choices n with
  | serve count => exact absurd hch (hchoice count)
  | busy status retryMs =>
    rw [hch] at hdeferred herred
    dsimp only at hdeferred herred
    have hstatus := hp.status n status retryMs hch
    obtain ⟨retryAtNs, hconsume⟩ := consume_busy (!closes op { status, retryMs := retryMs % 2 ^ 32 })
      ha.reading hstatus (by omega : w.link.reader.rmRetries < 2) (Nat.mod_lt retryMs (by decide)) hclock
    refine ⟨_, world_step hq hns he rfl (decode_busy hf hstatus) hconsume, ⟨?_, ?_⟩,
      aligned_retry ha ⟨rfl, rfl, rfl, rfl, rfl⟩ ⟨rfl, rfl, rfl⟩ ?_⟩
    · simp only [deferred, hch]
      exact hd
    · simp only [erred, hch]
      exact congrArg (· + 1) hb
    · rcases ha.reading with hs | hs | hs <;> rw [hs] at hat ⊢ <;> dsimp only at hat ⊢
      · exact hat
      · exact hat.2
  | defer =>
    rw [hch] at hdeferred herred
    dsimp only at hdeferred herred
    let reply : Reply := { kind := .deferReply }
    have hconsume : w.link.reader.consume reply now (!closes op reply) = (.ok (), _) :=
      consume_defer ha.reading (.inl rfl) rfl (by omega) (by omega)
    refine ⟨_, world_step hq hns he rfl (decode_defer hf rfl nofun (by decide)) hconsume, ⟨?_, ?_⟩,
      aligned_retry ha ⟨rfl, rfl, rfl, rfl, rfl⟩ ⟨rfl, rfl, rfl⟩ ?_⟩
    · simp only [deferred, hch]
      exact congrArg (· + 1) hd
    · simp only [erred, hch]
      exact hb
    · rcases ha.reading with hs | hs | hs <;> rw [hs] at hat ⊢ <;> dsimp only at hat ⊢
      · simpa [reply] using hat
      · simpa [reply] using hat.2
      · simp [reply]
  | i2cDefer =>
    rw [hch] at hdeferred herred
    dsimp only at hdeferred herred
    let reply : Reply := { kind := .i2cDefer }
    have hconsume : w.link.reader.consume reply now (!closes op reply) = (.ok (), _) :=
      consume_defer ha.reading (.inr rfl) rfl (by omega) (by omega)
    refine ⟨_, world_step hq hns he rfl (decode_defer hf rfl nofun (by decide)) hconsume, ⟨?_, ?_⟩,
      aligned_retry ha ⟨rfl, rfl, rfl, rfl, rfl⟩ ?_ ?_⟩
    · simp only [deferred, hch]
      exact congrArg (· + 1) hd
    · simp only [erred, hch]
      exact hb
    · split <;> exact ⟨rfl, rfl, rfl⟩
    · have hown := ha.own
      have hsmall := ha.small
      have hcursor := ha.cursor
      rw [hf.cmd, hf.address, getD_toNat, hf.value, Nat.mod_eq_of_lt hvalue]
      unfold Reader.query at hq
      rcases ha.reading with hs | hs | hs <;> rw [hs] at hat hq ⊢ <;> dsimp only at hat hq ⊢
      · intro _
        cases hquery : w.link.reader.statusQuery with
        | true =>
          rw [hquery] at hq
          cases hq
          exact hat hquery
        | false =>
          rw [hquery] at hq
          cases hq
          rw [← hown]
          rfl
      · intro _
        cases hquery : w.link.reader.statusQuery with
        | true =>
          rw [hquery] at hq
          cases hq
          exact hat.2 hquery
        | false =>
          rw [hquery] at hq
          cases hq
          rw [← hown]
          rfl
      · simp

/-- The block was read whole. -/
structure Read (eeprom : Nat → Byte) (block : Nat) (r : Reader) : Prop where
  state : r.state = .complete
  bytes : ∀ i < 128, r.bytes.getD i 0 = eeprom (128 * block + i)

/-- A write that is served, or was taken before its status was asked for, selects the segment. -/
theorem serve_segment {count : Nat} (ha : Aligned eeprom block w) (hs : w.link.reader.state = .segment)
    (hq : w.link.reader.query = .ok op) (hf : Framed displayId op request) (hvalue : op.value < 256) :
    ∃ sink, w.sink.serve request (.serve count) = (sink, ⟨0, respond request 0 1 []⟩) ∧
      sink.eeprom = w.sink.eeprom ∧ sink.segment = block / 2 ∧ op.length = 1 := by
  have hat := ha.at_
  unfold Reader.query at hq
  rw [hs] at hat hq
  dsimp only at hat hq
  unfold Sink.serve
  dsimp only
  rw [hf.cmd, hf.address, getD_toNat, hf.value, Nat.mod_eq_of_lt hvalue]
  cases hquery : w.link.reader.statusQuery with
  | true =>
    rw [hquery] at hq
    cases hq
    refine ⟨_, rfl, ?_⟩
    unfold Sink.settle
    rw [hat hquery]
    exact ⟨rfl, rfl, rfl⟩
  | false =>
    rw [hquery] at hq
    cases hq
    exact ⟨_, rfl, rfl, congrArg (· / 2) ha.own, rfl⟩

theorem serve_offset {count : Nat} (ha : Aligned eeprom block w) (hs : w.link.reader.state = .offset)
    (hq : w.link.reader.query = .ok op) (hf : Framed displayId op request) (hvalue : op.value < 256) :
    ∃ sink, w.sink.serve request (.serve count) = (sink, ⟨0, respond request 0 1 []⟩) ∧
      sink.eeprom = w.sink.eeprom ∧ sink.segment = w.sink.segment ∧
      sink.offset = block % 2 * 128 + w.link.reader.cursor ∧ op.length = 1 := by
  have hat := ha.at_
  unfold Reader.query at hq
  rw [hs] at hat hq
  dsimp only at hat hq
  unfold Sink.serve
  dsimp only
  rw [hf.cmd, hf.address, getD_toNat, hf.value, Nat.mod_eq_of_lt hvalue]
  cases hquery : w.link.reader.statusQuery with
  | true =>
    rw [hquery] at hq
    cases hq
    refine ⟨_, rfl, ?_⟩
    unfold Sink.settle
    rw [hat.2 hquery]
    exact ⟨rfl, rfl, rfl, rfl⟩
  | false =>
    rw [hquery] at hq
    cases hq
    exact ⟨_, rfl, rfl, rfl, congrArg (· % 2 * 128 + _) ha.own, rfl⟩

/-- A served selection moves the reader on. -/
theorem serve_select {count : Nat} (ha : Aligned eeprom block w) (hid : displayId < 2 ^ 32)
    (hone : displayId ≠ 0 ∧ displayId &&& (displayId - 1) = 0)
    (hs : w.link.reader.state = .segment ∨ w.link.reader.state = .offset) :
    ∃ w', w.step displayId (.serve count) now = (.ok (), w') ∧ w'.link.reader.deferRetries = 0 ∧
      w'.link.reader.rmRetries = 0 ∧ Aligned eeprom block w' := by
  obtain ⟨op, hq, hns, hrefused, hvalue, hlength, hpos⟩ := ha.query
  obtain ⟨request, he⟩ := encode_read hone hrefused
  have hf := encode_framed hid hvalue hlength he
  have hat := ha.at_
  rcases hs with hs | hs
  · obtain ⟨sink, hserve, hrom, hsegment, hlen⟩ := serve_segment ha hs hq hf hvalue
    have hd := decode_ack hf (by omega : 1 ≤ op.length) (.inr rfl) (by decide)
    have hadvance : ∀ reply, w.link.reader.fresh.advance reply =
        (.ok (), { w.link.reader.fresh with state := .offset }) := fun reply => by
      unfold Reader.advance
      rw [show w.link.reader.fresh.state = .segment from hs]
    refine ⟨_, world_step hq hns he hserve hd ((consume_ack ha.reading rfl rfl Nat.one_ne_zero).trans
      (hadvance _)), rfl, rfl, ha.own, ha.small, hrom.trans ha.rom, ha.cursor, ha.length, ha.taken,
      ha.forced, hsegment, nofun⟩
  · obtain ⟨sink, hserve, hrom, hsegment, hoffset, hlen⟩ := serve_offset ha hs hq hf hvalue
    have hd := decode_ack hf (by omega : 1 ≤ op.length) (.inr rfl) (by decide)
    have hadvance : ∀ reply, w.link.reader.fresh.advance reply =
        (.ok (), { w.link.reader.fresh with state := .read }) := fun reply => by
      unfold Reader.advance
      rw [show w.link.reader.fresh.state = .offset from hs]
    rw [hs] at hat
    refine ⟨_, world_step hq hns he hserve hd ((consume_ack ha.reading rfl rfl Nat.one_ne_zero).trans
      (hadvance _)), rfl, rfl, ha.own, ha.small, hrom.trans ha.rom, ha.cursor, ha.length, ha.taken,
      ha.forced, hsegment.trans hat.1, hoffset, rfl⟩

theorem Sink.length_data (s : Sink) (count : Nat) : (s.data count).length = count := by
  unfold Sink.data
  rw [List.length_map, List.length_range]

theorem Sink.getD_data {s : Sink} {count i : Nat} (h : i < count) :
    (s.data count).getD i 0 = s.eeprom (256 * s.segment + (s.offset + i) % 256) := by
  unfold Sink.data
  rw [List.getD_eq_getElem?_getD, List.getElem?_map, List.getElem?_range h]
  rfl

/-- A served read answers `k` bytes of the sink, and they come back decoded. -/
theorem serve_decodes {count length k : Nat} {last : Bool} (hf : Framed displayId (.read length last) request)
    (hk : min (max count 1) (get request 36 + 1) = k) (hbounds : 1 ≤ k ∧ k ≤ length ∧ k ≤ 16) :
    s.serve request (.serve count) =
        (if last then (s.skip k).stop else s.skip k, ⟨0, respond request 0 k (s.data k)⟩) ∧
      decode displayId (.read length last) 0 (respond request 0 k (s.data k)) =
        .ok { kind := .ack, count := k, data := s.data k } := by
  have hdata := s.length_data k
  refine ⟨?_, ?_⟩
  · unfold Sink.serve
    dsimp only
    rw [hk, hf.cmd]
    cases last <;> rfl
  · have hle : (s.data k).length ≤ 16 := by omega
    have hall : ((respond request 0 k (s.data k)).drop 20).take (s.data k).length = s.data k :=
      respond_data hf.length hle
    rw [hdata] at hall
    rw [decode_ack hf hbounds.2.1 (.inl hdata) hbounds.2.2, hall]
    rfl

/-- A served read of any length takes its bytes; after a short last one the selection starts again. -/
theorem serve_read {count : Nat} (ha : Aligned eeprom block w) (hid : displayId < 2 ^ 32)
    (hone : displayId ≠ 0 ∧ displayId &&& (displayId - 1) = 0) (hs : w.link.reader.state = .read) :
    ∃ w', w.step displayId (.serve count) now = (.ok (), w') ∧ w'.link.reader.deferRetries = 0 ∧
      w'.link.reader.rmRetries = 0 ∧ (Aligned eeprom block w' ∨ Read eeprom block w'.link.reader) := by
  obtain ⟨op, hq, hns, hrefused, hvalue, hlength, hpos⟩ := ha.query
  obtain ⟨request, he⟩ := encode_read hone hrefused
  have hf := encode_framed hid hvalue hlength he
  have hat := ha.at_
  have hcursor := ha.cursor
  have hbytes := ha.length
  have hsmall := ha.small
  have hq' := hq
  rw [query_of_read hs] at hq'
  rw [hs] at hat
  obtain ⟨hsegment, hoffset, hstatus⟩ := hat
  have hop := Except.ok.inj hq'
  generalize hc : w.link.reader.cursor = c at *
  generalize hk : min (max count 1) (get request 36 + 1) = k
  rw [hf.count] at hk
  have hlen : op.length = min 16 (128 - c) := by rw [← hop]; rfl
  have hkbounds : 1 ≤ k ∧ k ≤ op.length ∧ k ≤ 16 := by omega
  have hdata := w.sink.length_data k
  let last := decide (c ≥ 112)
  let reply : Reply := { kind := .ack, count := k, data := w.sink.data k }
  have hread : Framed displayId (.read (min 16 (128 - c)) last) request := hop ▸ hf
  have hasked : min (max count 1) (get request 36 + 1) = k := by rw [hf.count, hk]
  have hserved := serve_decodes (s := w.sink) hread hasked (hlen ▸ hkbounds)
  rw [hop] at hserved
  obtain ⟨hserve, hdecode⟩ := hserved
  have hconsume : w.link.reader.consume reply now (!closes op reply) = w.link.reader.fresh.advance reply :=
    consume_ack ha.reading rfl rfl (Nat.one_le_iff_ne_zero.mp hkbounds.1)
  let r' : Reader := { w.link.reader.fresh with
    bytes := blit w.link.reader.bytes c (w.sink.data k), cursor := c + k
    state := if c + k = 128 then .complete
      else if c ≥ 112 then selection w.link.reader.block w.link.reader.forceZero else .read }
  have hadvance : w.link.reader.fresh.advance reply = (.ok (), r') := by
    unfold Reader.advance
    rw [show w.link.reader.fresh.state = .read from hs]
    dsimp only
    rw [show w.link.reader.fresh.cursor = c from hc, if_neg]
    · rfl
    · show ¬ (k > 128 - c ∨ k > 16)
      omega
  have hnew : ∀ i < c + k, (blit w.link.reader.bytes c (w.sink.data k)).getD i 0 =
      eeprom (128 * block + i) := by
    intro i hi
    rw [getD_blit (by rw [hdata]; omega), hdata]
    split
    · rw [Sink.getD_data (by omega), ha.rom, hsegment, hoffset]
      exact congrArg eeprom (by omega)
    · exact ha.taken i (by omega)
  have hlen' : (blit w.link.reader.bytes c (w.sink.data k)).length = 128 := by
    rw [length_blit (by rw [hdata]; omega), hbytes]
  refine ⟨_, world_step hq hns he hserve hdecode (hconsume.trans hadvance), rfl, rfl, ?_⟩
  by_cases hfull : c + k = 128
  · exact .inr ⟨if_pos hfull, fun i hi => hnew i (by omega)⟩
  · refine .inl ⟨ha.own, ha.small, ?_, ?_, hlen', hnew, ha.forced, ?_⟩
    · show (if last then (w.sink.skip k).stop else w.sink.skip k).eeprom = eeprom
      split <;> exact ha.rom
    · show c + k < 128
      omega
    · by_cases hge : c ≥ 112
      · have hlast : last = true := decide_eq_true hge
        have hstate : r'.state = selection block w.link.reader.forceZero :=
          ((if_neg hfull).trans (if_pos hge)).trans (by rw [ha.own])
        rcases selection_cases block w.link.reader.forceZero with hsel | hsel
        · rw [hsel] at hstate
          dsimp only
          rw [hstate]
          exact fun h => absurd (show false = true from h) Bool.false_ne_true
        · rw [hsel] at hstate
          have hlow : block < 2 := ha.forced.resolve_right fun h => by
            rw [hsel] at h
            cases h
          dsimp only
          rw [hstate]
          refine ⟨?_, fun h => absurd (show false = true from h) Bool.false_ne_true⟩
          show (if last then (w.sink.skip k).stop else w.sink.skip k).segment = block / 2
          rw [if_pos hlast]
          show 0 = block / 2
          omega
      · have hlast : ¬ last = true := fun h => hge (of_decide_eq_true h)
        have hstate : r'.state = .read := (if_neg hfull).trans (if_neg hge)
        dsimp only
        rw [hstate]
        show (if last then (w.sink.skip k).stop else w.sink.skip k).segment = block / 2 ∧
          (if last then (w.sink.skip k).stop else w.sink.skip k).offset = block % 2 * 128 + (c + k) ∧ _
        rw [if_neg hlast]
        refine ⟨hsegment, ?_, rfl⟩
        show (w.sink.offset + k) % 256 = _
        omega

/-! ## The block is read -/

/-- The addressed display, and a clock from which a delay can be counted. -/
structure Driven (displayId : Nat) (clock : Nat → Nat) : Prop where
  id : displayId < 2 ^ 32
  one : displayId ≠ 0 ∧ displayId &&& (displayId - 1) = 0
  clock : ∀ n, clock n + 2 ^ 52 ≤ 2 ^ 64

theorem aligned_step {clock : Nat → Nat} (ha : Aligned eeprom block w) (hp : Patient choices)
    (hc : Counted choices n w.link.reader) (hd : Driven displayId clock) :
    ∃ w', w.step displayId (choices n) (clock n) = (.ok (), w') ∧
      ((Aligned eeprom block w' ∧ Counted choices (n + 1) w'.link.reader) ∨
        Read eeprom block w'.link.reader) := by
  by_cases hserve : ∃ count, choices n = .serve count
  · obtain ⟨count, hch⟩ := hserve
    have hcounted {r : Reader} (h₁ : r.deferRetries = 0) (h₂ : r.rmRetries = 0) :
        Counted choices (n + 1) r := by
      refine ⟨?_, ?_⟩
      · simp only [deferred, hch]
        exact h₁
      · simp only [erred, hch]
        exact h₂
    rw [hch]
    rcases ha.reading with hs | hs | hs
    · obtain ⟨w', hstep, h₁, h₂, ha'⟩ := serve_select ha hd.id hd.one (.inl hs)
      exact ⟨w', hstep, .inl ⟨ha', hcounted h₁ h₂⟩⟩
    · obtain ⟨w', hstep, h₁, h₂, ha'⟩ := serve_select ha hd.id hd.one (.inr hs)
      exact ⟨w', hstep, .inl ⟨ha', hcounted h₁ h₂⟩⟩
    · obtain ⟨w', hstep, h₁, h₂, hend⟩ := serve_read ha hd.id hd.one hs
      exact ⟨w', hstep, hend.imp_left fun ha' => ⟨ha', hcounted h₁ h₂⟩⟩
  · obtain ⟨w', hstep, hc', ha'⟩ := serve_delayed ha hp hc (hd.clock n) hd.id hd.one fun count h =>
      hserve ⟨count, h⟩
    exact ⟨w', hstep, .inl ⟨ha', hc'⟩⟩

/-- A request of the two is one of the link alone. -/
theorem world_link {w' : World} (h : w.step displayId choice now = (.ok (), w')) :
    ∃ a, w.link.step displayId a = (.ok (), w'.link) := by
  unfold World.step at h
  split at h
  · cases h
  · split at h
    · cases h
    · dsimp only at h
      obtain ⟨hout, hworld⟩ := Prod.mk.inj h
      rw [← hworld]
      exact ⟨_, Prod.ext hout rfl⟩

/-- After any number of requests the block is read, or the two are in step and fewer requests are
left. -/
theorem aligned_run {clock : Nat → Nat} {w₀ : World} (ha : Aligned eeprom block w₀) (hp : Patient choices)
    (hc : Counted choices 0 w₀.link.reader) (hd : Driven displayId clock) (ht : Tidy [] w₀.link) (n : Nat) :
    ∃ w got, w₀.run displayId choices clock n = .ok w ∧ Tidy got w.link ∧
      (Read eeprom block w.link.reader ∨ (Aligned eeprom block w ∧ Counted choices n w.link.reader ∧
        w.link.left + n ≤ w₀.link.left)) := by
  induction n with
  | zero => exact ⟨w₀, [], rfl, ht, .inr ⟨ha, hc, Nat.le_refl _⟩⟩
  | succ n ih =>
    obtain ⟨w, got, hrun, htidy, hread | ⟨haligned, hcounted, hleft⟩⟩ := ih
    · refine ⟨w, got, ?_, htidy, .inl hread⟩
      rw [World.run, hrun]
      exact if_pos (decide_eq_true (.inl hread.state))
    · have hopen : w.link.ended = false := by
        unfold Link.ended
        rw [decide_eq_false_iff_not]
        rcases haligned.reading with hs | hs | hs <;> rw [hs] <;> simp
      obtain ⟨w', hstep, hnext⟩ := aligned_step haligned hp hcounted hd
      obtain ⟨a, hlink⟩ := world_link hstep
      obtain ⟨htidy', hlt⟩ := tidy_step htidy hopen hlink
      refine ⟨w', _, ?_, htidy', ?_⟩
      · rw [World.run, hrun]
        dsimp only
        rw [hopen, if_neg Bool.false_ne_true, hstep]
      · rcases hnext with ⟨ha', hc'⟩ | hread
        · exact .inr ⟨ha', hc', by omega⟩
        · exact .inl hread

theorem selection_forced (block : Nat) (forceZero : Bool) :
    block < 2 ∨ selection block forceZero = .segment := by
  unfold selection
  by_cases h : block < 2
  · exact .inl h
  · exact .inr (if_pos (.inl (Nat.not_lt.mp h)))

theorem aligned_init {forceZero : Bool} {sink : Sink} (h : Reader.init block forceZero = .ok r)
    (hzero : selection block forceZero = .offset → sink.segment = 0) :
    Aligned sink.eeprom block ⟨⟨r, false⟩, sink⟩ ∧ Counted choices 0 r := by
  unfold Reader.init at h
  split at h
  · cases h
  · rename_i hsmall
    cases h
    have hforced := selection_forced block forceZero
    refine ⟨⟨rfl, Nat.not_le.mp hsmall, rfl, Nat.zero_lt_succ _, List.length_replicate, nofun, hforced, ?_⟩,
      rfl, rfl⟩
    dsimp only
    rcases selection_cases block forceZero with hsel | hsel
    · rw [hsel]
      nofun
    · have hlow : block < 2 := hforced.resolve_right fun hs => by
        rw [hsel] at hs
        cases hs
      have hsegment := hzero hsel
      rw [hsel]
      exact ⟨by omega, nofun⟩

/-- A request that a reader sends stays in its block. -/
structure Inside (r : Reader) : Prop where
  offset : ∀ v, r.query = .ok (.offset v) → v ≤ 255
  read : ∀ count last, r.query = .ok (.read count last) → 1 ≤ count ∧ r.cursor + count ≤ 128

theorem Tidy.inside {got : List Byte} (h : Tidy got l) : Inside l.reader := by
  refine ⟨fun v hq => ?_, fun count last hq => ?_⟩
  · unfold Reader.query at hq
    split at hq
    · split at hq <;> cases hq
    · rename_i hs
      have := (h.reading (.inr (.inl hs))).1
      split at hq
      · cases hq
      · cases hq
        omega
    · cases hq
    · cases hq
    · cases hq
    · cases hq
  · obtain ⟨hs, rfl, -⟩ := query_read hq
    have := (h.reading (.inr (.inr hs))).1
    omega

theorem Read.bytes_eq (h : Read eeprom block r) (hl : r.bytes.length = 128) :
    r.bytes = (List.range 128).map fun i => eeprom (128 * block + i) := by
  refine List.ext_getElem (by simp [hl]) fun i h₁ h₂ => ?_
  have heq := h.bytes i (by omega)
  rw [List.getD_eq_getElem?_getD, List.getElem?_eq_getElem h₁] at heq
  simpa using heq

/-- The sink gives its block to the reader, however it splits the reads. -/
theorem edid_read {forceZero : Bool} {clock : Nat → Nat} {sink : Sink}
    (h : Reader.init block forceZero = .ok r) (hd : Driven displayId clock) (hp : Patient choices)
    (hzero : selection block forceZero = .offset → sink.segment = 0) :
    ∃ n w, World.run displayId choices clock ⟨⟨r, false⟩, sink⟩ n = .ok w ∧
      w.link.reader.state = .complete ∧ w.link.opened = false ∧
      w.link.reader.bytes = (List.range 128).map fun i => sink.eeprom (128 * block + i) := by
  obtain ⟨ht, hleft⟩ := tidy_init h
  obtain ⟨ha, hc⟩ := aligned_init h hzero
  obtain ⟨w, got, hrun, htidy, hread | ⟨-, -, hlong⟩⟩ := aligned_run ha hp hc hd ht 3870
  · exact ⟨3870, w, hrun, hread.state, (htidy.complete hread.state).1, hread.bytes_eq htidy.length⟩
  · change w.link.left + 3870 ≤ Link.left ⟨r, false⟩ at hlong
    omega

/-- The read of a block. A sink puts its requests off up to seven times and fails them up to twice
before one is served, with the two statuses that allow a retry (any other aborts the read); the clock
leaves room for every delay, and where the selection starts at the offset the sink is in its first
segment. From such a sink the reader gets the block. From any answers the run ends, it sends no request
outside of the block, it is complete with all the bytes that were read and rejected without any, and at
both ends the transaction is closed. -/
theorem edid_exact {forceZero : Bool} (h : Reader.init block forceZero = .ok r) :
    (∀ displayId clock choices (sink : Sink), Driven displayId clock → Patient choices →
      (selection block forceZero = .offset → sink.segment = 0) →
      ∃ n w, World.run displayId choices clock ⟨⟨r, false⟩, sink⟩ n = .ok w ∧
        w.link.reader.state = .complete ∧ w.link.opened = false ∧
        w.link.reader.bytes = (List.range 128).map fun i => sink.eeprom (128 * block + i)) ∧
    ∀ displayId (answers : Nat → Answer × Nat) n l got,
      Link.run displayId answers ⟨r, false⟩ n = .ok (l, got) → Inside l.reader ∧
        (l.reader.state = .complete → l.opened = false ∧ got.length = 128 ∧ l.reader.bytes = got) ∧
        (l.reader.state = .rejected → l.opened = false) ∧ (3870 ≤ n → l.ended = true) := by
  refine ⟨fun displayId clock choices sink hd hp hzero => edid_read h hd hp hzero,
    fun displayId answers n l got hrun => ?_⟩
  obtain ⟨ht, hleft⟩ := tidy_init h
  obtain ⟨htidy, hend⟩ := tidy_run ht n l got hrun
  refine ⟨htidy.inside, htidy.complete, htidy.rejected, fun hn => hend.resolve_right fun hlong => ?_⟩
  omega

/-- A sink that puts a request off twice and fails it once before it serves three bytes of it. -/
def putOff (n : Nat) : Choice :=
  if n % 4 = 0 then .i2cDefer else if n % 4 = 1 then .defer
  else if n % 4 = 2 then .busy (if n % 8 = 2 then 3 else 0x66) 5 else .serve 3

theorem putOff_patient : Patient putOff := by
  have hserved (k : Nat) : deferred putOff (4 * k) = 0 ∧ erred putOff (4 * k) = 0 := by
    cases k with
    | zero => exact ⟨rfl, rfl⟩
    | succ k =>
      have hserve : putOff (4 * k + 3) = .serve 3 := by
        unfold putOff
        rw [if_neg (by omega), if_neg (by omega), if_neg (by omega)]
      rw [show 4 * (k + 1) = 4 * k + 3 + 1 by omega, deferred, erred, hserve]
      exact ⟨rfl, rfl⟩
  -- A request adds at most one to a counter.
  have hnext (n : Nat) : deferred putOff (n + 1) ≤ deferred putOff n + 1 ∧
      erred putOff (n + 1) ≤ erred putOff n + (if n % 4 = 2 then 1 else 0) := by
    unfold putOff
    rw [deferred, erred]
    split_ifs <;> simp
  have hbounds (n : Nat) : deferred putOff n ≤ 3 ∧ erred putOff n ≤ 1 := by
    obtain ⟨k, r, hr, rfl⟩ : ∃ k r, r < 4 ∧ n = 4 * k + r :=
      ⟨n / 4, n % 4, Nat.mod_lt _ (by decide), by omega⟩
    obtain ⟨h₀, h₀'⟩ := hserved k
    obtain ⟨h₁, h₁'⟩ := hnext (4 * k)
    obtain ⟨h₂, h₂'⟩ : deferred putOff (4 * k + 2) ≤ _ ∧ erred putOff (4 * k + 2) ≤ _ := hnext (4 * k + 1)
    obtain ⟨h₃, h₃'⟩ : deferred putOff (4 * k + 3) ≤ _ ∧ erred putOff (4 * k + 3) ≤ _ := hnext (4 * k + 2)
    rw [if_neg (by omega)] at h₁' h₂'
    rw [if_pos (by omega)] at h₃'
    have : r = 0 ∨ r = 1 ∨ r = 2 ∨ r = 3 := by omega
    rcases this with rfl | rfl | rfl | rfl
    · rw [Nat.add_zero, h₀, h₀']
      decide
    all_goals omega
  refine ⟨fun n => ?_, fun n => ?_, fun n status retryMs h => ?_⟩
  · exact (hbounds n).1.trans (by decide)
  · exact (hbounds n).2.trans (by decide)
  · unfold putOff at h
    split_ifs at h <;> cases h
    · exact .inl rfl
    · exact .inr rfl

/-- The blocks of an EEPROM in two segments, as a sink gives them that puts every request off. -/
theorem edid_exact_two :
    (∃ n w, World.run 1 putOff (fun n => min (500000 * n) (2 ^ 40))
      ⟨⟨{ block := 1, forceZero := false, state := .offset }, false⟩, { eeprom := fun i => BitVec.ofNat 8 (i / 128) }⟩
        n = .ok w ∧ w.link.reader.state = .complete ∧ w.link.opened = false ∧
      w.link.reader.bytes = List.replicate 128 1) ∧
    (∃ n w, World.run 1 putOff (fun n => min (500000 * n) (2 ^ 40))
      ⟨⟨{ block := 5, forceZero := false, state := .segment }, false⟩, { eeprom := fun i => BitVec.ofNat 8 (i / 128) }⟩
        n = .ok w ∧ w.link.reader.state = .complete ∧ w.link.opened = false ∧
      w.link.reader.bytes = List.replicate 128 5) ∧
    ∀ displayId (answers : Nat → Answer × Nat) n l got, Link.run displayId answers
      ⟨{ block := 5, forceZero := false, state := .segment }, false⟩ n = .ok (l, got) → Inside l.reader ∧
        (l.reader.state = .complete → l.opened = false ∧ got.length = 128 ∧ l.reader.bytes = got) ∧
        (l.reader.state = .rejected → l.opened = false) ∧ (3870 ≤ n → l.ended = true) := by
  have hdriven : Driven 1 fun n => min (500000 * n) (2 ^ 40) := by
    refine ⟨by decide, by decide, fun n => ?_⟩
    have := Nat.min_le_right (500000 * n) (2 ^ 40)
    omega
  have hfirst := edid_exact (show Reader.init 1 false = .ok _ from rfl)
  have hsecond := edid_exact (show Reader.init 5 false = .ok _ from rfl)
  refine ⟨?_, ?_, hsecond.2⟩
  · obtain ⟨n, w, hrun, hs, ho, hb⟩ := hfirst.1 1 (fun n => min (500000 * n) (2 ^ 40)) putOff
      { eeprom := fun i => BitVec.ofNat 8 (i / 128) } hdriven putOff_patient fun _ => rfl
    exact ⟨n, w, hrun, hs, ho, hb.trans (by decide)⟩
  · obtain ⟨n, w, hrun, hs, ho, hb⟩ := hsecond.1 1 (fun n => min (500000 * n) (2 ^ 40)) putOff
      { eeprom := fun i => BitVec.ofNat 8 (i / 128) } hdriven putOff_patient fun _ => rfl
    exact ⟨n, w, hrun, hs, ho, hb.trans (by decide)⟩

end Aux
end NvidiaGsp
