import NvidiaGsp.Mst.Carrier

/-!
# Mst.CarrierSpec

Packets in pieces. A branch takes a packet with its last piece and not before (`receive_partial`), the
root reads the length of a packet in its first piece (`announced_piece`), and both ends put together
what the other one took apart (`Coming`).
-/

namespace NvidiaGsp
namespace Mst
namespace Carrier

open Wire (packet sealed receive finalHop packetBytes decode decodeHeader Sent)

variable {α : Type} {h : Wire.Header} {part body : List Byte} {s : Wire.Sender}

/-! ## Padded lists -/

theorem takeD_append {a b : List α} {n : Nat} (x : α) (h : a.length ≤ n) :
    (a ++ b).takeD n x = a ++ b.takeD (n - a.length) x := by
  induction a generalizing n with
  | nil => rfl
  | cons y a ih =>
    cases n with
    | zero => cases h
    | succ n =>
      rw [List.length_cons] at h ⊢
      simp [ih (Nat.le_of_succ_le_succ h)]

theorem takeD_add (l : List α) (m n : Nat) (x : α) :
    l.takeD m x ++ (l.drop m).takeD n x = l.takeD (m + n) x := by
  induction m generalizing l with
  | zero => simp
  | succ m ih =>
    rw [Nat.succ_add]
    cases l with
    | nil => simp
    | cons y l => simp [ih]

/-! ## Pieces of a packet -/

theorem size_le (hf : h.Fit) : h.size ≤ 10 := by
  have hd := hf.bounds.1
  unfold Wire.Header.size
  omega

theorem decodeHeader_leading (hf : h.Fit) {bytes rest : List Byte} (hb : bytes = sealed h ++ rest) :
    decodeHeader bytes = .ok h := hb ▸ Wire.decodeHeader_sealed hf rest

/-- A packet is not taken before its end. -/
theorem receive_partial {a : Assembly} {n : Nat} (hf : h.Fit) (hpart : part.length + 1 = h.payloadBytes)
    (hn : h.size ≤ n) (hlt : n < (packet h part).length) : receive a ((packet h part).take n) = none := by
  have hlen := Wire.packet_length hpart
  have hsize : ({ h with remaining := 0 } : Wire.Header).size = h.size := rfl
  have htake : (packet h part).take n = sealed h ++ (part ++ [Wire.bodyCrc part]).take (n - h.size) := by
    unfold packet
    rw [List.take_append, Wire.sealed_length, List.take_of_length_le (by rw [Wire.sealed_length]; exact hn)]
  have hfinal : finalHop ((packet h part).take n) =
      sealed { h with remaining := 0 } ++ (part ++ [Wire.bodyCrc part]).take (n - h.size) := by
    rw [htake]
    unfold finalHop
    rw [Wire.readHeader_sealed hf, List.drop_append_of_le_length (by rw [Wire.sealed_length]),
      List.drop_of_length_le (by rw [Wire.sealed_length]), List.nil_append]
  have hshort : (finalHop ((packet h part).take n)).length < h.size + h.payloadBytes := by
    rw [hfinal, List.length_append, Wire.sealed_length, hsize, List.length_take]
    rw [hlen] at hlt
    omega
  unfold receive decode
  rw [decodeHeader_leading hf.final hfinal]
  dsimp only
  rw [if_pos (hsize.symm ▸ hshort)]

/-- The first piece of a packet gives its length. -/
theorem announced_piece (hf : h.Fit) (hpart : part.length + 1 = h.payloadBytes) (behind : List Byte) :
    Work.announced ((packet h part ++ behind).takeD 16 0) = .ok (packet h part).length := by
  have hprefix : (packet h part ++ behind).takeD 16 0 =
      sealed h ++ (part ++ [Wire.bodyCrc part] ++ behind).takeD (16 - h.size) 0 := by
    have hsize := size_le hf
    unfold packet
    rw [List.append_assoc (sealed h), takeD_append 0 (by rw [Wire.sealed_length]; omega), Wire.sealed_length]
  unfold Work.announced
  rw [decodeHeader_leading hf hprefix, Wire.packet_length hpart]

theorem receive_some {a a' : Assembly} {p : List Byte} (hr : receive a p = some a') :
    ∃ f, decode (finalHop p) = .ok f ∧ a.consume ⟨f.header.toHeader, f.body⟩ = .ok a' := by
  unfold receive at hr
  cases hd : decode (finalHop p) with
  | error e =>
    rw [hd] at hr
    cases hr
  | ok f =>
    rw [hd] at hr
    dsimp only at hr
    cases hc : a.consume ⟨f.header.toHeader, f.body⟩ with
    | error e =>
      rw [hc] at hr
      cases hr
    | ok a'' =>
      rw [hc] at hr
      cases hr
      exact ⟨f, rfl, hc⟩

/-! ## A message in packets -/

/-- The packets of a message from an offset on, each well formed and taken by the assembly of the bytes
before it. -/
inductive Coming (s : Wire.Sender) (body : List Byte) : Nat → List (List Byte) → Prop where
  | done : Coming s body body.length []
  | more {o o' : Nat} {h : Wire.Header} {part : List Byte} {rest : List (List Byte)} (ho : o < body.length) (hf : h.Fit)
      (hpart : part.length + 1 = h.payloadBytes)
      (hr : receive (s.progress body o) (packet h part) = some (s.progress body o')) (hrest : Coming s body o' rest) :
      Coming s body o (packet h part :: rest)

/-- What a sender does. -/
theorem next_cases {r : Option (List Byte) × Wire.Sender} (hn : s.next body packetBytes = .ok r) :
    s.route.valid = true ∧ 0 < body.length ∧ body.length ≤ messageBytes ∧
      (s.offset = body.length ∧ r = (none, s) ∨
        s.offset < body.length ∧ r = (some (packet (s.label body (s.count body))
          ((body.drop s.offset).take (s.count body))), { s with offset := s.offset + s.count body })) := by
  have hfields : s.route.valid = true ∧ 0 < body.length ∧ body.length ≤ messageBytes ∧ s.offset ≤ body.length := by
    unfold Wire.Sender.next at hn
    split at hn
    · cases hn
    rename_i hbad
    simp only [not_or, Bool.not_eq_false] at hbad
    exact ⟨hbad.1, Nat.pos_of_ne_zero hbad.2.1, Nat.le_of_not_gt hbad.2.2.1, Nat.le_of_not_gt hbad.2.2.2⟩
  obtain ⟨hv, hpos, hlen, hle⟩ := hfields
  refine ⟨hv, hpos, hlen, ?_⟩
  rcases Nat.lt_or_eq_of_le hle with hlt | heq
  · obtain ⟨-, -, -, hnext⟩ := Wire.next_packet hv hlen hlt (Nat.le_refl packetBytes)
    rw [hnext] at hn
    exact .inr ⟨hlt, (Except.ok.inj hn).symm⟩
  · refine .inl ⟨heq, ?_⟩
    unfold Wire.Sender.next at hn
    dsimp only at hn
    rw [if_neg (by rw [hv]; simp only [Bool.true_eq_false, false_or]; omega), if_pos heq] at hn
    exact (Except.ok.inj hn).symm

/-- A sender's next packet brings the assembly on. -/
theorem next_more {p : List Byte} {s' : Wire.Sender} (hn : s.next body packetBytes = .ok (some p, s')) :
    ∃ h part, p = packet h part ∧ h.Fit ∧ part.length + 1 = h.payloadBytes ∧ s.offset < body.length ∧
      s' = { s with offset := s.offset + s.count body } ∧
      receive (s.progress body s.offset) p = some (s.progress body s'.offset) := by
  obtain ⟨hv, hpos, hlen, hcases⟩ := next_cases hn
  rcases hcases with ⟨-, heq⟩ | ⟨hlt, heq⟩
  · cases heq
  · cases heq
    obtain ⟨hcount, hfits, hf, -⟩ := Wire.next_packet hv hlen hlt (Nat.le_refl packetBytes)
    refine ⟨_, _, rfl, hf, ?_, hlt, rfl, Wire.receive_packet hf hcount hfits hlen⟩
    rw [List.length_take, List.length_drop, Nat.min_eq_left (by omega)]
    rfl

/-- The place of a sender does not matter, the offsets of its packets do. -/
theorem Coming.offset {o x : Nat} {packets : List (List Byte)} (hc : Coming { s with offset := x } body o packets) :
    Coming s body o packets := by
  induction hc with
  | done => exact .done
  | more ho hf hpart hr _ ih => exact .more ho hf hpart hr ih

theorem coming_of_sent {packets : List (List Byte)} (hs : Sent body packetBytes s packets) :
    Coming s body s.offset packets := by
  induction hs with
  | done hn =>
    obtain ⟨-, -, -, ⟨heq, -⟩ | ⟨-, heq⟩⟩ := next_cases hn
    · rw [heq]
      exact .done
    · cases heq
  | more hn _ ih =>
    obtain ⟨h, part, rfl, hf, hpart, hlt, rfl, hr⟩ := next_more hn
    exact .more hlt hf hpart hr ih.offset

theorem Coming.nonempty {o : Nat} {packets : List (List Byte)} (hc : Coming s body o packets) (ho : o < body.length) :
    ∃ p rest, packets = p :: rest := by
  cases hc with
  | done => omega
  | more => exact ⟨_, _, rfl⟩

theorem Coming.end {o : Nat} (hc : Coming s body o []) : o = body.length := by
  cases hc
  rfl

/-- A request goes out in one packet. -/
theorem next_whole (hv : s.route.valid = true) (ho : s.offset = 0) (hpos : 0 < body.length) (hlen : body.length ≤ 24) :
    s.count body = body.length := by
  have hsize := Wire.label_size hv body 0
  unfold Wire.Sender.count
  rw [ho]
  simp only [packetBytes]
  omega

end Carrier
end Mst
end NvidiaGsp
