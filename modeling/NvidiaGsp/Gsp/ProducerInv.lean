import NvidiaGsp.Gsp.Producer

/-!
# Gsp.ProducerInv

What an honest producer keeps, seen from the absolute slot `a` the session has read up to: the two
cursor words, the order of the counters, and in every slot from `a` to the last stored one the bytes
of the stream. A step of the producer keeps it (`Serves.act`), and so does a session that publishes a
read cursor further on (`Serves.acknowledge`).
-/

namespace NvidiaGsp
namespace Gsp

open Bytes Cyclic Memory

/-- The producer has stored, from slot `a` on, what it should. -/
structure Serves (f : Firmware) (a : Nat) (d : Device) : Prop where
  ready : d.ready = true
  read : wordAt (d.mem f.readAt.queue) f.readAt.offset = BitVec.ofNat 32 (a % f.layout.slots)
  cursor : wordAt d.status 16 = BitVec.ofNat 32 (d.published % f.layout.slots)
  behind : a ≤ d.published
  ahead : d.published ≤ d.stored
  room : d.stored < a + f.layout.slots
  sized : Sized d.records
  fits : d.stored ≤ slotsOf d.records
  data : ∀ k, a ≤ k → k < d.stored → ∀ j < elementBytes,
    d.status (Device.slotOffset f k + j) = (stream 0 d.records).getD (k * elementBytes + j) 0

/-- The producer only ever adds. -/
structure Grows (d d' : Device) : Prop where
  records : d.records <+: d'.records
  published : d.published ≤ d'.published

theorem Grows.refl (d : Device) : Grows d d := ⟨List.prefix_rfl, Nat.le_refl _⟩

theorem Grows.trans {d d' d'' : Device} (h : Grows d d') (h' : Grows d' d'') : Grows d d'' :=
  ⟨h.records.trans h'.records, Nat.le_trans h.published h'.published⟩

section

variable {f : Firmware} {a : Nat} {d : Device}

/-- The read cursor stands between the header and the slots. -/
theorem Firmware.apart (f : Firmware) (h : f.readAt.queue = .status) :
    ringHeaderBytes ≤ f.readAt.offset ∧ f.readAt.offset + 4 ≤ f.layout.entriesOffset := by
  unfold Firmware.readAt at h ⊢
  split at h
  · cases h
  · rename_i hs
    rw [if_neg hs]
    exact ⟨f.valid.rxLow, f.valid.entriesLow⟩

/-- The two read cursors are in different queues. -/
theorem Firmware.commandAt_cases (f : Firmware) :
    (f.commandAt = ⟨.status, f.layout.rxOffset⟩ ∧ f.readAt = ⟨.command, f.command.rxOffset⟩) ∨
    (f.commandAt = ⟨.command, f.command.rxOffset⟩ ∧ f.readAt = ⟨.status, f.layout.rxOffset⟩) := by
  unfold Firmware.commandAt Firmware.readAt
  split <;> simp

theorem Firmware.slots_lt (f : Firmware) (k : Nat) : k % f.layout.slots < 2 ^ 32 := by
  have h := f.valid.slots_bounds
  have := Nat.mod_lt k (show 0 < f.layout.slots by omega)
  omega

theorem toNat_cursor (f : Firmware) (k : Nat) :
    (BitVec.ofNat 32 (k % f.layout.slots)).toNat = k % f.layout.slots := by
  rw [BitVec.toNat_ofNat, Nat.mod_eq_of_lt (f.slots_lt k)]

/-- Slots lie behind the header and the cursors. -/
theorem slotOffset_low (f : Firmware) (k : Nat) : ringHeaderBytes + 4 ≤ Device.slotOffset f k := by
  have h₁ := f.valid.rxLow
  have h₂ := f.valid.entriesLow
  unfold Device.slotOffset
  omega

/-- Two slots of the window are apart. -/
theorem slotOffset_apart (f : Firmware) {k l : Nat} (h : k < l) (hl : l < k + f.layout.slots)
    {j : Nat} (hj : j < elementBytes) : Device.slotOffset f k + j < Device.slotOffset f l ∨
      Device.slotOffset f l + elementBytes ≤ Device.slotOffset f k + j := by
  have hne : k % f.layout.slots ≠ l % f.layout.slots := by
    intro heq
    have hdist := distance_mod (n := f.layout.slots) (by omega) (Nat.le_of_lt h) hl
    rw [heq, distance_self] at hdist
    omega
  unfold Device.slotOffset
  simp only [elementBytes] at *
  omega

theorem length_slotBytes (hs : Sized d.records) {k : Nat} (hk : k < slotsOf d.records) :
    (d.slotBytes k).length = elementBytes := by
  have hlen := length_stream (n := 0) hs
  unfold Device.slotBytes
  rw [List.length_take, List.length_drop, hlen]
  simp only [elementBytes]
  omega

/-! ## Writes to the status queue -/

theorem mem_same {d' : Device} (hc : d'.command = d.command) (hs : d'.status = d.status)
    (queue : Queue) : d'.mem queue = d.mem queue := by
  cases queue with
  | command => exact hc
  | status => exact hs

/-- A write to the status queue that spares the read cursor. -/
theorem read_poke_status {d' : Device} {offset : Nat} {bytes : List Byte}
    (hc : d'.command = d.command) (hs : d'.status = poke d.status offset bytes)
    (h : f.readAt.queue = .status →
      f.readAt.offset + 4 ≤ offset ∨ offset + bytes.length ≤ f.readAt.offset) :
    wordAt (d'.mem f.readAt.queue) f.readAt.offset =
      wordAt (d.mem f.readAt.queue) f.readAt.offset := by
  cases hq : f.readAt.queue with
  | command => exact congrArg (wordAt · _) hc
  | status =>
    have hpoke := wordAt_poke_other (m := d.status) (h hq)
    rw [← hs] at hpoke
    exact hpoke

/-! ## Steps of the producer -/

theorem Serves.append {r : Produced} (h : Serves f a d)
    (hr : r.payload.length ≤ maxPayloadBytes) :
    Serves f a { d with records := d.records ++ [r] } := by
  refine ⟨h.ready, ?_, h.cursor, h.behind, h.ahead, h.room, ?_, ?_, ?_⟩
  · rw [← h.read]
    exact congrArg (wordAt · _) (mem_same rfl rfl _)
  · intro s hs
    rcases List.mem_append.mp hs with hs | hs
    · exact h.sized s hs
    · rw [List.mem_singleton.mp hs]
      exact hr
  · have := h.fits
    show d.stored ≤ slotsOf (d.records ++ [r])
    rw [slotsOf_append]
    omega
  · intro k hak hk j hj
    have hfits := h.fits
    show d.status _ = (stream 0 (d.records ++ [r])).getD _ 0
    rw [getD_stream_append h.sized, h.data k hak hk j hj]
    simp only [elementBytes] at *
    omega

/-- The producer sees the room there is. -/
theorem Serves.free (h : Serves f a d) :
    distance f.layout.slots (d.readCursor f) (d.stored % f.layout.slots) = d.stored - a := by
  unfold Device.readCursor
  have hroom := h.room
  have hb := f.valid.slots_bounds
  have hbehind := h.behind
  have hahead := h.ahead
  rw [h.read, toNat_cursor, distance_mod (by omega) (by omega) (by omega)]

theorem Serves.store (h : Serves f a d) (hmore : d.stored < slotsOf d.records)
    (hfree : distance f.layout.slots (d.readCursor f) (d.stored % f.layout.slots) + 1 <
      f.layout.slots) :
    Serves f a { d.write .status (Device.slotOffset f d.stored) (d.slotBytes d.stored) with
      stored := d.stored + 1 } := by
  rw [h.free] at hfree
  have hlen := length_slotBytes h.sized hmore
  have hlow := slotOffset_low f d.stored
  have hbehind := h.behind
  have hahead := h.ahead
  have hheader : ringHeaderBytes = 32 := rfl
  refine ⟨h.ready, ?_, ?_, hbehind, ?_, ?_, h.sized, hmore, ?_⟩
  · rw [← h.read]
    refine read_poke_status rfl rfl fun hq => .inl ?_
    have := (f.apart hq).2
    unfold Device.slotOffset
    omega
  · exact (wordAt_poke_other (.inl (by omega))).trans h.cursor
  · show d.published ≤ d.stored + 1
    omega
  · show d.stored + 1 < _
    omega
  · intro k hak hk j hj
    show poke d.status _ _ _ = (stream 0 d.records).getD _ 0
    rcases Nat.lt_succ_iff_lt_or_eq.mp hk with hlt | heq
    · have hapart := slotOffset_apart f hlt (by omega) hj
      rw [poke_outside (by rw [hlen]; exact hapart), h.data k hak hlt j hj]
    · rw [heq, poke_inside (by rw [hlen]; exact hj), Device.slotBytes, getD_part hj]

theorem Serves.publish (h : Serves f a d) (count : Nat) :
    Serves f a { d.write .status 16 (le32 (BitVec.ofNat 32
      (min d.stored (d.published + count) % f.layout.slots))) with
      published := min d.stored (d.published + count) } := by
  have hahead := h.ahead
  have hbehind := h.behind
  have hheader : ringHeaderBytes = 32 := rfl
  refine ⟨h.ready, ?_, ?_, ?_, ?_, h.room, h.sized, h.fits, ?_⟩
  · rw [← h.read]
    refine read_poke_status rfl rfl fun hq => .inr ?_
    have := (f.apart hq).1
    rw [length_le32]
    omega
  · exact wordAt_poke_same
  · show a ≤ min _ _
    omega
  · show min _ _ ≤ d.stored
    omega
  · intro k hak hk j hj
    have hlow := slotOffset_low f k
    show poke d.status _ _ _ = _
    rw [poke_outside (by rw [length_le32]; omega)]
    exact h.data k hak hk j hj

/-- The other cursor disturbs nothing. -/
theorem Serves.consume (h : Serves f a d) (cursor : Word) :
    Serves f a (d.write f.commandAt.queue f.commandAt.offset (le32 cursor)) := by
  have hheader : ringHeaderBytes = 32 := rfl
  rcases f.commandAt_cases with ⟨hat, hread⟩ | ⟨hat, hread⟩
  · have hlow := f.valid.rxLow
    have hhigh := f.valid.entriesLow
    rw [hat]
    dsimp only
    refine ⟨h.ready, ?_, (wordAt_poke_other (.inl (by omega))).trans h.cursor, h.behind, h.ahead,
      h.room, h.sized, h.fits, fun k hak hk j hj => ?_⟩
    · rw [← h.read]
      exact read_poke_status rfl rfl fun hq => by rw [hread] at hq; cases hq
    · have hslot : f.layout.entriesOffset ≤ Device.slotOffset f k := Nat.le_add_right _ _
      show poke d.status f.layout.rxOffset _ _ = _
      rw [poke_outside (by rw [length_le32]; omega)]
      exact h.data k hak hk j hj
  · rw [hat]
    refine ⟨h.ready, ?_, h.cursor, h.behind, h.ahead, h.room, h.sized, h.fits, h.data⟩
    have hr := h.read
    rw [hread] at hr ⊢
    exact hr

/-- One step of the producer keeps what it serves, and adds. -/
theorem Serves.act (h : Serves f a d) (x : Act) : Serves f a (d.act f x) ∧ Grows d (d.act f x) := by
  cases x with
  | construct header =>
    unfold Device.act
    dsimp only
    rw [if_pos (.inl h.ready)]
    exact ⟨h, .refl d⟩
  | consume cursor =>
    refine ⟨h.consume cursor, ?_⟩
    unfold Device.act Device.write
    dsimp only
    split <;> exact ⟨List.prefix_rfl, Nat.le_refl _⟩
  | append r =>
    unfold Device.act
    dsimp only
    split
    · exact ⟨h.append ‹_›, List.prefix_append _ _, Nat.le_refl _⟩
    · exact ⟨h, .refl d⟩
  | store =>
    unfold Device.act
    dsimp only
    split
    · rename_i hc
      exact ⟨h.store hc.2.1 hc.2.2, List.prefix_rfl, Nat.le_refl _⟩
    · exact ⟨h, .refl d⟩
  | publish count =>
    have hahead := h.ahead
    unfold Device.act
    dsimp only
    rw [if_pos h.ready]
    refine ⟨h.publish count, List.prefix_rfl, ?_⟩
    show d.published ≤ min _ _
    omega

theorem Serves.acts (h : Serves f a d) (xs : List Act) :
    Serves f a (xs.foldl (Device.act f) d) ∧ Grows d (xs.foldl (Device.act f) d) := by
  induction xs generalizing d with
  | nil => exact ⟨h, .refl d⟩
  | cons x xs ih =>
    obtain ⟨h₁, g₁⟩ := h.act x
    obtain ⟨h₂, g₂⟩ := ih h₁
    exact ⟨h₂, g₁.trans g₂⟩

theorem Serves.advance (script : Script) (h : Serves f a d) :
    Serves f a (d.advance f script) ∧ Grows d (d.advance f script) := by
  obtain ⟨h₁, g₁⟩ := h.acts (script.acts d.tick)
  refine ⟨⟨h₁.ready, ?_, h₁.cursor, h₁.behind, h₁.ahead, h₁.room, h₁.sized, h₁.fits, h₁.data⟩,
    g₁.records, g₁.published⟩
  rw [← h₁.read]
  exact congrArg (wordAt · _) (mem_same rfl rfl _)

/-- Whatever clocks and epochs the session asks for, the producer goes on serving. -/
theorem Serves.quiet {script : Script} {d' : Device} (h : Serves f a d)
    (hq : Session.Quiet (Device.port f script) d d') : Serves f a d' ∧ Grows d d' := by
  induction hq with
  | refl => exact ⟨h, .refl d⟩
  | generation _ ih =>
    obtain ⟨h', g⟩ := ih.1.advance script
    exact ⟨h', ih.2.trans g⟩
  | nowNs _ ih =>
    obtain ⟨h', g⟩ := ih.1.advance script
    exact ⟨h', ih.2.trans g⟩
  | notification hn _ ih =>
    obtain ⟨h', g⟩ := ih.1.advance script
    unfold Device.port at hn
    obtain ⟨gen, -, rfl⟩ := Option.map_eq_some_iff.mp hn
    exact ⟨h', ih.2.trans g⟩

/-! ## Before the session connects -/

/-- The header of a ring, but for its write cursor. -/
structure Announces (layout : Layout) (m : Memory) : Prop where
  version : wordAt m 0 = 0
  size : (wordAt m 4).toNat = queueBytes
  entry : (wordAt m 8).toNat = elementBytes
  layout : layout =
    ⟨(wordAt m 24).toNat, (wordAt m 28).toNat, (wordAt m 12).toNat, (wordAt m 20).toNat⟩

theorem Announces.congr {layout : Layout} {m m' : Memory} (h : Announces layout m)
    (hm : ∀ o, o + 4 ≤ ringHeaderBytes → o ≤ 12 ∨ 20 ≤ o → wordAt m' o = wordAt m o) :
    Announces layout m' := by
  have hbytes : ringHeaderBytes = 32 := rfl
  refine ⟨?_, ?_, ?_, ?_⟩
  · rw [hm 0 (by omega) (by omega), h.version]
  · rw [hm 4 (by omega) (by omega), h.size]
  · rw [hm 8 (by omega) (by omega), h.entry]
  · rw [hm 24 (by omega) (by omega), hm 28 (by omega) (by omega), hm 12 (by omega) (by omega),
      hm 20 (by omega) (by omega)]
    exact h.layout

/-- A write that spares the header, or writes its cursor. -/
theorem Announces.poke {layout : Layout} {m : Memory} {offset : Nat} {bytes : List Byte}
    (h : Announces layout m)
    (hout : ringHeaderBytes ≤ offset ∨ offset = 16 ∧ bytes.length = 4) :
    Announces layout (poke m offset bytes) := by
  refine h.congr fun o ho hcursor => wordAt_poke_other ?_
  rcases hout with hout | ⟨rfl, hlen⟩ <;> omega

/-- An accepted header announces its layout. -/
theorem announces_inspect {m : Memory} {header : RingHeader}
    (h : Ring.inspect (peek m 0 ringHeaderBytes) = .ok header) : Announces header.layout m ∧
      header.write = (wordAt m 16).toNat := by
  have hbytes : ringHeaderBytes = 32 := rfl
  have hword (o : Nat) (ho : o + 4 ≤ ringHeaderBytes) :
      word (peek m 0 ringHeaderBytes) o = wordAt m o := by rw [word_peek ho, Nat.zero_add]
  obtain ⟨-, -, h₀, h₄, h₈, rfl, -, -⟩ := Ring.inspect_eq_ok.1 h
  simp only [Ring.headerOf, hword _ (show 0 + 4 ≤ ringHeaderBytes by omega),
    hword _ (show 4 + 4 ≤ ringHeaderBytes by omega), hword _ (show 8 + 4 ≤ ringHeaderBytes by omega),
    hword _ (show 12 + 4 ≤ ringHeaderBytes by omega), hword _ (show 16 + 4 ≤ ringHeaderBytes by omega),
    hword _ (show 20 + 4 ≤ ringHeaderBytes by omega), hword _ (show 24 + 4 ≤ ringHeaderBytes by omega),
    hword _ (show 28 + 4 ≤ ringHeaderBytes by omega)] at h₀ h₄ h₈ ⊢
  exact ⟨⟨h₀, h₄, h₈, rfl⟩, trivial⟩

/-- A memory announces one layout. -/
theorem Announces.unique {layout layout' : Layout} {m : Memory} (h : Announces layout m)
    (h' : Announces layout' m) : layout = layout' := h.layout.trans h'.layout.symm

/-- The device a session may connect to: the command ring stands, nothing is acknowledged, and the
status ring is not complete or serves from its start. -/
structure Waits (f : Firmware) (d : Device) : Prop where
  command : Announces f.command d.command
  read : wordAt (d.mem f.readAt.queue) f.readAt.offset = 0
  sized : Sized d.records
  status : (d.ready = false ∧ d.stored = 0 ∧ d.published = 0 ∧
      ∀ header, Ring.inspect (peek d.status 0 ringHeaderBytes) ≠ .ok header) ∨
    (Serves f 0 d ∧ Announces f.layout d.status)

theorem peek_poke_high {m : Memory} {offset : Nat} {bytes : List Byte} (h : ringHeaderBytes ≤ offset) :
    peek (poke m offset bytes) 0 ringHeaderBytes = peek m 0 ringHeaderBytes := by
  refine peek_eq length_peek fun i hi => ?_
  rw [poke_outside (by omega), getD_peek hi]

theorem peek_poke_header {m : Memory} {header : List Byte} (h : header.length = ringHeaderBytes) :
    peek (poke m 0 header) 0 ringHeaderBytes = header :=
  peek_eq h fun _ hi => poke_inside (by omega)

theorem Waits.of_serves (hs : Serves f 0 d) (hcommand : Announces f.command d.command)
    (hstatus : Announces f.layout d.status) : Waits f d := by
  refine ⟨hcommand, ?_, hs.sized, .inr ⟨hs, hstatus⟩⟩
  rw [hs.read, Nat.zero_mod]
  rfl

/-- No step touches the header of the command ring. -/
theorem announces_command (h : Announces f.command d.command) (x : Act) :
    Announces f.command (d.act f x).command := by
  cases x with
  | consume cursor =>
    show Announces f.command (d.write f.commandAt.queue f.commandAt.offset (le32 cursor)).command
    rcases f.commandAt_cases with ⟨hat, -⟩ | ⟨hat, -⟩ <;> rw [hat]
    · exact h
    · exact h.poke (.inl f.commandValid.rxLow)
  | construct header =>
    unfold Device.act
    dsimp only
    repeat' split
    all_goals exact h
  | append r =>
    unfold Device.act
    dsimp only
    split <;> exact h
  | store =>
    unfold Device.act
    dsimp only
    split <;> exact h
  | publish count =>
    unfold Device.act
    dsimp only
    split <;> exact h

/-- The complete header stays, but for its cursor. -/
theorem announces_status (h : Announces f.layout d.status) (hready : d.ready = true) (x : Act) :
    Announces f.layout (d.act f x).status := by
  have hbytes : ringHeaderBytes = 32 := rfl
  cases x with
  | construct header =>
    unfold Device.act
    dsimp only
    rw [if_pos (.inl hready)]
    exact h
  | consume cursor =>
    show Announces f.layout (d.write f.commandAt.queue f.commandAt.offset (le32 cursor)).status
    rcases f.commandAt_cases with ⟨hat, -⟩ | ⟨hat, -⟩ <;> rw [hat]
    · exact h.poke (.inl f.valid.rxLow)
    · exact h
  | append r =>
    unfold Device.act
    dsimp only
    split <;> exact h
  | store =>
    have hlow := slotOffset_low f d.stored
    unfold Device.act
    dsimp only
    split
    · exact h.poke (.inl (by omega))
    · exact h
  | publish count =>
    unfold Device.act
    dsimp only
    rw [if_pos hready]
    exact h.poke (.inr ⟨rfl, length_le32 _⟩)

/-- The complete header starts the service. -/
theorem Waits.constructed {header : List Byte} (h : Waits f d) (hstored : d.stored = 0)
    (hpublished : d.published = 0) (hlen : header.length = ringHeaderBytes)
    (hown : Ring.inspect header = .ok ⟨f.layout, 0⟩) :
    Waits f { d.write .status 0 header with ready := true } := by
  have hslots := f.valid.slots_bounds
  have hstatus : Ring.inspect (peek (poke d.status 0 header) 0 ringHeaderBytes) =
      .ok ⟨f.layout, 0⟩ := by rw [peek_poke_header hlen, hown]
  obtain ⟨hannounces, hcursor⟩ := announces_inspect hstatus
  refine .of_serves ⟨rfl, ?_, ?_, Nat.zero_le _, ?_, ?_, h.sized, ?_, ?_⟩ h.command hannounces
  · rw [Nat.zero_mod]
    refine Eq.trans ?_ h.read
    exact read_poke_status rfl rfl fun hq => .inr (by have := (f.apart hq).1; omega)
  · show wordAt (poke d.status 0 header) 16 = BitVec.ofNat 32 (d.published % _)
    rw [hpublished, Nat.zero_mod]
    exact BitVec.eq_of_toNat_eq hcursor.symm
  · show d.published ≤ d.stored
    omega
  · show d.stored < _
    omega
  · show d.stored ≤ _
    omega
  · intro k _ hk
    have hk : k < d.stored := hk
    omega

/-- One step of the firmware. -/
theorem Waits.act (h : Waits f d) (x : Act) : Waits f (d.act f x) := by
  rcases h.status with ⟨hready, hstored, hpublished, hrefused⟩ | ⟨hs, hannounces⟩
  swap
  · exact .of_serves (hs.act x).1 (announces_command h.command x) (announces_status hannounces hs.ready x)
  cases x with
  | construct header =>
    unfold Device.act
    dsimp only
    split
    · exact h
    rename_i hopen
    obtain ⟨-, hlen⟩ := not_or.mp hopen
    have hlen := Decidable.not_not.mp hlen
    split
    · rename_i hfails
      refine ⟨h.command, ?_, h.sized, .inl ⟨hready, hstored, hpublished, fun own hown => ?_⟩⟩
      · rw [← h.read]
        exact read_poke_status rfl rfl fun hq => .inr (by have := (f.apart hq).1; omega)
      · have hown : Ring.inspect (peek (poke d.status 0 header) 0 ringHeaderBytes) = .ok own := hown
        rw [peek_poke_header hlen, hfails] at hown
        cases hown
    · rename_i own hown
      split
      · subst own
        exact h.constructed hstored hpublished hlen hown
      · exact h
  | consume cursor =>
    have hcommand := announces_command h.command (.consume cursor)
    have hread := h.read
    unfold Device.act at hcommand ⊢
    rcases f.commandAt_cases with ⟨hat, hreadAt⟩ | ⟨hat, hreadAt⟩ <;> rw [hat] at hcommand ⊢
    · refine ⟨hcommand, by rw [hreadAt] at hread ⊢; exact hread, h.sized,
        .inl ⟨hready, hstored, hpublished, fun own hown => hrefused own ?_⟩⟩
      have hown : Ring.inspect (peek (poke d.status f.layout.rxOffset (le32 cursor)) 0
          ringHeaderBytes) = .ok own := hown
      rwa [peek_poke_high f.valid.rxLow] at hown
    · exact ⟨hcommand, by rw [hreadAt] at hread ⊢; exact hread, h.sized,
        .inl ⟨hready, hstored, hpublished, hrefused⟩⟩
  | append r =>
    unfold Device.act
    dsimp only
    split
    · rename_i hr
      refine ⟨h.command, ?_, ?_, .inl ⟨hready, hstored, hpublished, hrefused⟩⟩
      · rw [← h.read]
        exact congrArg (wordAt · _) (mem_same rfl rfl _)
      · intro s hs
        rcases List.mem_append.mp hs with hs | hs
        · exact h.sized s hs
        · rw [List.mem_singleton.mp hs]
          exact hr
    · exact h
  | store =>
    unfold Device.act
    dsimp only
    rw [if_neg (by simp [hready])]
    exact h
  | publish count =>
    unfold Device.act
    dsimp only
    rw [if_neg (by simp [hready])]
    exact h

theorem Waits.acts (h : Waits f d) (xs : List Act) : Waits f (xs.foldl (Device.act f) d) := by
  induction xs generalizing d with
  | nil => exact h
  | cons x xs ih => exact ih (h.act x)

theorem Waits.advance (script : Script) (h : Waits f d) : Waits f (d.advance f script) := by
  have h' := h.acts (script.acts d.tick)
  rcases h'.status with ⟨hready, hstored, hpublished, hrefused⟩ | ⟨hs, hannounces⟩
  · refine ⟨h'.command, ?_, h'.sized, .inl ⟨hready, hstored, hpublished, hrefused⟩⟩
    rw [← h'.read]
    exact congrArg (wordAt · _) (mem_same rfl rfl _)
  · refine .of_serves ⟨hs.ready, ?_, hs.cursor, hs.behind, hs.ahead, hs.room, hs.sized, hs.fits, hs.data⟩
      h'.command hannounces
    rw [← hs.read]
    exact congrArg (wordAt · _) (mem_same rfl rfl _)

/-- What a preload writes: records and cursors of the command ring. -/
theorem Waits.preload {offset : Nat} {bytes : List Byte} (h : Waits f d)
    (hout : f.command.entriesOffset ≤ offset ∨ offset = 16 ∧ bytes.length = 4) :
    Waits f (d.write .command offset bytes) := by
  have hbytes : ringHeaderBytes = 32 := rfl
  have hlow := f.commandValid.rxLow
  have hhigh := f.commandValid.entriesLow
  have hcommand : Announces f.command (d.write .command offset bytes).command :=
    h.command.poke (hout.imp_left fun _ => by omega)
  have hread : wordAt ((d.write .command offset bytes).mem f.readAt.queue) f.readAt.offset = 0 := by
    have hr := h.read
    rcases f.commandAt_cases with ⟨-, hat⟩ | ⟨-, hat⟩ <;> rw [hat] at hr ⊢
    · refine (wordAt_poke_other ?_).trans hr
      dsimp only
      omega
    · exact hr
  refine ⟨hcommand, hread, h.sized, h.status.imp_right fun hready => ?_⟩
  obtain ⟨hs, hannounces⟩ := hready
  refine ⟨⟨hs.ready, ?_, hs.cursor, hs.behind, hs.ahead, hs.room, hs.sized, hs.fits, hs.data⟩,
    hannounces⟩
  rw [hread, Nat.zero_mod]
  rfl

/-! ## The session's read cursor -/

theorem Serves.acknowledge (h : Serves f a d) (a' : Nat) (hle : a ≤ a') (hpub : a' ≤ d.published) :
    Serves f a' (d.write f.readAt.queue f.readAt.offset
      (le32 (BitVec.ofNat 32 (a' % f.layout.slots)))) := by
  have hroom := h.room
  have hahead := h.ahead
  have hheader : ringHeaderBytes = 32 := rfl
  cases hq : f.readAt.queue with
  | command =>
    refine ⟨h.ready, ?_, h.cursor, hpub, hahead, ?_, h.sized, h.fits, fun k hk => h.data k (by omega)⟩
    · rw [hq]
      exact wordAt_poke_same
    · show d.stored < _
      omega
  | status =>
    obtain ⟨hlow, hhigh⟩ := f.apart hq
    refine ⟨h.ready, ?_, ?_, hpub, hahead, ?_, h.sized, h.fits, fun k hk hlt j hj => ?_⟩
    · rw [hq]
      exact wordAt_poke_same
    · exact (wordAt_poke_other (.inl (by omega))).trans h.cursor
    · show d.stored < _
      omega
    · have hslot : f.layout.entriesOffset ≤ Device.slotOffset f k := Nat.le_add_right _ _
      show poke d.status _ _ _ = _
      rw [poke_outside (by rw [length_le32]; omega)]
      exact h.data k (by omega) hlt j hj

end

end Gsp
end NvidiaGsp
