import NvidiaGsp.Mst.Link
import NvidiaGsp.Mst.TransactionRuns

/-!
# Mst.Removal

Removing a stream moves the later ones up. The table model (`remove`), the plan that replaces the
stream, the records for the source (`Work.stream`) and the receiver check (`Work.slot`) compute the
moved slots each on their own; `removal_agrees` says they agree.
-/

namespace NvidiaGsp
namespace Mst
namespace Link

open Payload
open Registry (notSingleBit)

variable {links : Links} {epoch root : Nat} {link : Payload.Link}

/-! ## What the check of a table guarantees -/

theorem ok_of_check {α : Type} {c : Prop} [Decidable c] {e : Error} {x : Except Error α} {a : α}
    (h : (if c then .error e else x) = .ok a) : x = .ok a := by
  split at h
  · cases h
  · exact h

theorem blanking_slots {timing : Timing} {perSlot pbn slots pclk : Nat} {d : Demand}
    (h : blanking link timing perSlot pbn slots pclk = .ok d) : d.slots = slots := by
  unfold blanking at h
  cases ok_of_check (ok_of_check h)
  rfl

theorem demand_slots_pos {timing : Timing} {d : Demand} (h : demand links link timing = .ok d) :
    1 ≤ d.slots := by
  unfold demand at h
  split at h
  · cases h
  split at h
  · cases h
  dsimp only at h
  split at h
  · cases h
  rename_i hbound
  simp only [not_or] at hbound
  split at h
  · cases h
  · rw [blanking_slots h]
    omega

/-- The streams lie one behind the other from slot `s + 1` on. -/
def Laid (s : Nat) : List Entry → Prop
  | [] => True
  | e :: es => e.allocation.start = s + 1 ∧ 1 ≤ e.allocation.demand.slots ∧
      Laid (s + e.allocation.demand.slots) es

/-- What the check says of one stream alone. -/
structure Sound (links : Links) (link : Payload.Link) (e : Entry) : Prop where
  payloadId : e.allocation.payloadId = e.allocation.head + 1
  demand : demand links link e.timing = .ok e.allocation.demand
  id : e.allocation.displayId ≠ 0

/-- What the check of an entry says. -/
structure Admitted (links : Links) (epoch root : Nat) (link : Payload.Link) (t t' : Tally)
    (e : Entry) : Prop where
  formed : ¬ e.malformed epoch root t
  demand : demand links link e.timing = .ok e.allocation.demand
  start : e.allocation.start = t.slots + 1
  routed : ¬ e.misrouted
  path : checkPath [] (e.path.toList.take e.pathCount) = .ok ()
  tally : t' = { slots := t.slots + e.allocation.demand.slots
                 pbn := t.pbn + e.allocation.demand.pbn
                 ids := t.ids ||| e.allocation.displayId
                 heads := t.heads ||| (1 <<< e.allocation.head)
                 windows := t.windows ||| (1 <<< e.window) }

theorem checkEntry_ok_iff {t t' : Tally} {e : Entry} :
    checkEntry links epoch root link t e = .ok t' ↔ Admitted links epoch root link t t' e := by
  constructor
  · intro h
    unfold checkEntry at h
    split at h
    · cases h
    rename_i hformed
    split at h
    · cases h
    rename_i wanted hdemand
    split at h
    · cases h
    rename_i hstart
    simp only [not_or, Decidable.not_not] at hstart
    split at h
    · cases h
    rename_i hrouted
    split at h
    · cases h
    rename_i hpath
    cases h
    exact ⟨hformed, hstart.1 ▸ hdemand, hstart.2, hrouted, hpath, rfl⟩
  · rintro ⟨hformed, hdemand, hstart, hrouted, hpath, rfl⟩
    unfold checkEntry
    rw [if_neg hformed, hdemand]
    dsimp only
    rw [if_neg (by simp [hstart]), if_neg hrouted, hpath]

theorem checkEntries_cons {t t' : Tally} {e : Entry} {es : List Entry}
    (h : checkEntries links epoch root link t (e :: es) = .ok t') :
    ∃ t₁, Admitted links epoch root link t t₁ e ∧
      checkEntries links epoch root link t₁ es = .ok t' := by
  unfold checkEntries at h
  split at h
  · cases h
  · exact ⟨_, checkEntry_ok_iff.1 ‹_›, h⟩

theorem Admitted.sound {t t' : Tally} {e : Entry} (h : Admitted links epoch root link t t' e) :
    Sound links link e := by
  have hf := h.formed
  simp only [Entry.malformed, notSingleBit, not_or, Decidable.not_not] at hf
  exact ⟨hf.2.2.2.1, h.demand, hf.1.1⟩

theorem and_or_eq_zero {a b x : Nat} : (a ||| b) &&& x = 0 ↔ a &&& x = 0 ∧ b &&& x = 0 := by
  rw [Nat.and_or_distrib_right, Nat.or_eq_zero_iff]

/-- The masks of a tally are free for a stream. -/
def Free (t : Tally) (e : Entry) : Prop :=
  t.ids &&& e.allocation.displayId = 0 ∧ t.heads &&& (1 <<< e.allocation.head) = 0

theorem Admitted.free {t t' : Tally} {e : Entry} (h : Admitted links epoch root link t t' e) :
    Free t e := by
  have hf := h.formed
  simp only [Entry.malformed, not_or, Decidable.not_not] at hf
  exact ⟨hf.2.2.2.2.2.2.2.2.2.2.1, hf.2.2.2.2.2.2.2.2.2.2.2.1⟩

theorem checkEntries_free {t t' : Tally} {es : List Entry}
    (h : checkEntries links epoch root link t es = .ok t') : ∀ e ∈ es, Free t e := by
  induction es generalizing t with
  | nil => simp
  | cons x es ih =>
    obtain ⟨t₁, hx, hrest⟩ := checkEntries_cons h
    intro e he
    rcases List.mem_cons.mp he with rfl | he
    · exact hx.free
    · have hlater := ih hrest e he
      rw [hx.tally] at hlater
      exact ⟨(and_or_eq_zero.1 hlater.1).1, (and_or_eq_zero.1 hlater.2).1⟩

/-- A checked list of streams. -/
structure Checked (links : Links) (link : Payload.Link) (s : Nat) (es : List Entry) : Prop where
  laid : Laid s es
  sound : ∀ e ∈ es, Sound links link e
  ids : (es.map fun e => e.allocation.displayId).Nodup
  heads : (es.map fun e => e.allocation.head).Nodup

theorem checkEntries_checked {t t' : Tally} {es : List Entry}
    (h : checkEntries links epoch root link t es = .ok t') :
    Checked links link t.slots es ∧ t'.slots = t.slots + sumSlots es ∧ t'.pbn = t.pbn + sumPbn es := by
  induction es generalizing t with
  | nil =>
    cases h
    exact ⟨⟨trivial, by simp, by simp, by simp⟩, rfl, rfl⟩
  | cons x es ih =>
    obtain ⟨t₁, hx, hrest⟩ := checkEntries_cons h
    obtain ⟨hc, hslots, hpbn⟩ := ih hrest
    have hsound := hx.sound
    have hlater := checkEntries_free hrest
    rw [hx.tally] at hc hslots hpbn hlater
    refine ⟨⟨⟨hx.start, demand_slots_pos hsound.demand, hc.laid⟩, ?_, ?_, ?_⟩, ?_, ?_⟩
    · intro e he
      rcases List.mem_cons.mp he with rfl | he
      · exact hsound
      · exact hc.sound e he
    · rw [List.map_cons, List.nodup_cons]
      refine ⟨fun hmem => ?_, hc.ids⟩
      obtain ⟨e, he, heq⟩ := List.mem_map.mp hmem
      have hzero := (and_or_eq_zero.1 (hlater e he).1).2
      rw [heq, Nat.and_self] at hzero
      exact hsound.id hzero
    · rw [List.map_cons, List.nodup_cons]
      refine ⟨fun hmem => ?_, hc.heads⟩
      obtain ⟨e, he, heq⟩ := List.mem_map.mp hmem
      have hzero := (and_or_eq_zero.1 (hlater e he).2).2
      rw [heq, Nat.and_self, Nat.one_shiftLeft] at hzero
      exact absurd hzero (Nat.two_pow_pos _).ne'
    · rw [hslots, Nat.add_assoc]
      rfl
    · rw [hpbn, Nat.add_assoc]
      rfl

theorem validateTable_ok {table : Table} (h : validateTable links table epoch root link = .ok ()) :
    table.count ≤ maxStreams ∧ ∃ t, checkEntries links epoch root link {} table.used = .ok t ∧
      t.slots ≤ 63 := by
  unfold validateTable at h
  split at h
  · cases h
  rename_i hcount
  split at h
  · cases h
  rename_i t ht
  split at h
  · cases h
  rename_i hsum
  simp only [not_or, not_lt] at hsum
  exact ⟨by omega, t, ht, hsum.1⟩

theorem checked_of_valid {table : Table}
    (h : validateTable links table epoch root link = .ok ()) : Checked links link 0 table.used := by
  obtain ⟨-, t, ht, -⟩ := validateTable_ok h
  exact (checkEntries_checked ht).1

/-! ## The moved streams -/

/-- The stream, `q` slots further up. -/
def moved (q : Nat) (e : Entry) : Entry :=
  { e with allocation := { e.allocation with start := e.allocation.start - q } }

section

variable {d : Nat} {before after : List Entry} {old : Entry}

theorem Laid.tail {s : Nat} (h : Laid s (before ++ after)) : Laid (s + sumSlots before) after := by
  induction before generalizing s with
  | nil => exact h
  | cons e es ih =>
    have := ih h.2.2
    rwa [Nat.add_assoc] at this

theorem Laid.start_gt {s : Nat} {es : List Entry} (h : Laid s es) :
    ∀ e ∈ es, s < e.allocation.start := by
  induction es generalizing s with
  | nil => simp
  | cons x es ih =>
    intro e he
    rcases List.mem_cons.mp he with rfl | he
    · have := h.1
      omega
    · have := ih h.2.2 e he
      omega

theorem Laid.start_le {s : Nat} (h : Laid s (before ++ after)) :
    ∀ e ∈ before, e.allocation.start + e.allocation.demand.slots ≤ s + sumSlots before + 1 := by
  induction before generalizing s with
  | nil => simp
  | cons x es ih =>
    have hsum : sumSlots (x :: es) = x.allocation.demand.slots + sumSlots es := rfl
    intro e he
    rcases List.mem_cons.mp he with rfl | he
    · have := h.1
      omega
    · have := ih h.2.2 e he
      omega

theorem compact_moved {s q : Nat} {es : List Entry} (h : Laid (s + q) es)
    (hne : ∀ e ∈ es, e.allocation.displayId ≠ d) : compact d s es = es.map (moved q) := by
  induction es generalizing s with
  | nil => rfl
  | cons e es ih =>
    have hrest : Laid (s + e.allocation.demand.slots + q) es := by
      rw [Nat.add_right_comm]
      exact h.2.2
    have hstart : s + 1 = e.allocation.start - q := by
      have := h.1
      omega
    rw [compact, if_neg (hne e List.mem_cons_self), ih hrest fun x hx => hne x (List.mem_cons_of_mem _ hx),
      hstart]
    rfl

/-- The streams before the removed one stay, the later ones move up by its slots. -/
theorem compact_split {s : Nat} (h : Laid s (before ++ old :: after)) (hold : old.allocation.displayId = d)
    (hbefore : ∀ e ∈ before, e.allocation.displayId ≠ d)
    (hafter : ∀ e ∈ after, e.allocation.displayId ≠ d) :
    compact d s (before ++ old :: after) = before ++ after.map (moved old.allocation.demand.slots) := by
  induction before generalizing s with
  | nil =>
    rw [List.nil_append, compact, if_pos hold]
    exact compact_moved h.2.2 hafter
  | cons e es ih =>
    rw [List.cons_append, compact, if_neg (hbefore e List.mem_cons_self),
      ih h.2.2 fun x hx => hbefore x (List.mem_cons_of_mem _ hx), ← h.1]
    rfl

/-- The masks of a tally hold no more than those of another. -/
structure Below (u t : Tally) : Prop where
  ids : ∀ x, t.ids &&& x = 0 → u.ids &&& x = 0
  heads : ∀ x, t.heads &&& x = 0 → u.heads &&& x = 0
  windows : ∀ x, t.windows &&& x = 0 → u.windows &&& x = 0

theorem Below.malformed {u t : Tally} {e : Entry} (h : Below u t) (hf : ¬ e.malformed epoch root t) :
    ¬ e.malformed epoch root u := by
  simp only [Entry.malformed, not_or, Decidable.not_not] at hf ⊢
  obtain ⟨h1, h2, h3, h4, h5, h6, h7, h8, h9, h10, hids, hheads, hwindows⟩ := hf
  exact ⟨h1, h2, h3, h4, h5, h6, h7, h8, h9, h10, h.ids _ hids, h.heads _ hheads, h.windows _ hwindows⟩

/-- The streams that are left pass the check from their new start on. -/
theorem compact_checked {t t' u : Tally} {es : List Entry} (hb : Below u t)
    (h : checkEntries links epoch root link t es = .ok t') :
    ∃ u', checkEntries links epoch root link u (compact d u.slots es) = .ok u' := by
  induction es generalizing t u with
  | nil => exact ⟨u, rfl⟩
  | cons e es ih =>
    obtain ⟨t₁, he, hrest⟩ := checkEntries_cons h
    obtain ⟨-, -, -, -, -, htally⟩ := id he
    have hgrown (x m : Nat) (a b : Nat) (hab : ∀ x, a &&& x = 0 → b &&& x = 0)
        (hx : (a ||| m) &&& x = 0) : (b ||| m) &&& x = 0 := by
      rw [and_or_eq_zero] at hx ⊢
      exact ⟨hab x hx.1, hx.2⟩
    by_cases hd : e.allocation.displayId = d
    · rw [compact, if_pos hd]
      refine ih ?_ hrest
      rw [htally]
      exact ⟨fun x hx => hb.ids x (and_or_eq_zero.1 hx).1, fun x hx => hb.heads x (and_or_eq_zero.1 hx).1,
        fun x hx => hb.windows x (and_or_eq_zero.1 hx).1⟩
    · rw [compact, if_neg hd]
      have hnext : Admitted links epoch root link u
          { slots := u.slots + e.allocation.demand.slots
            pbn := u.pbn + e.allocation.demand.pbn
            ids := u.ids ||| e.allocation.displayId
            heads := u.heads ||| (1 <<< e.allocation.head)
            windows := u.windows ||| (1 <<< e.window) }
          { e with allocation := { e.allocation with start := u.slots + 1 } } :=
        ⟨hb.malformed he.formed, he.demand, rfl, he.routed, he.path, rfl⟩
      rw [checkEntries, checkEntry_ok_iff.2 hnext]
      refine ih ?_ hrest
      rw [htally]
      exact ⟨fun x => hgrown x _ _ _ hb.ids, fun x => hgrown x _ _ _ hb.heads,
        fun x => hgrown x _ _ _ hb.windows⟩

theorem sumSlots_compact (s : Nat) (es : List Entry) : sumSlots (compact d s es) ≤ sumSlots es := by
  induction es generalizing s with
  | nil => exact Nat.le_refl _
  | cons e es ih =>
    rw [compact]
    split
    · exact Nat.le_trans (ih s) (Nat.le_add_left _ _)
    · exact Nat.add_le_add_left (ih _) _

theorem compact_length (s : Nat) (es : List Entry) : (compact d s es).length ≤ es.length := by
  induction es generalizing s with
  | nil => exact Nat.le_refl _
  | cons e es ih =>
    rw [compact]
    split
    · exact Nat.le_trans (ih s) (Nat.le_succ _)
    · exact Nat.succ_le_succ (ih _)

end

theorem used_ofList {entries : List Entry} (h : entries.length ≤ maxStreams) (slots pbn : Nat) :
    (Table.ofList entries slots pbn).used = entries := by
  refine List.ext_getElem? fun i => ?_
  unfold Table.used Table.ofList
  dsimp only
  rcases Nat.lt_or_ge i entries.length with hi | hi
  · rw [List.getElem?_take_of_lt hi, List.getElem?_eq_getElem hi,
      List.getElem?_eq_getElem (by simpa using Nat.lt_of_lt_of_le hi h)]
    simp [List.getD_eq_getElem?_getD, List.getElem?_eq_getElem hi]
  · rw [List.getElem?_eq_none hi, List.getElem?_eq_none]
    rw [List.length_take]
    omega

theorem used_length {table : Table} (h : table.count ≤ maxStreams) : table.used.length = table.count := by
  unfold Table.used
  rw [List.length_take, Vector.length_toList]
  omega

/-- A valid table that contains the display gives up its stream. -/
theorem remove_ok {table : Table} {d : Nat} (h : validateTable links table epoch root link = .ok ())
    (hd : table.find d ≠ none) :
    ∃ r, remove links table epoch root link d = .ok r ∧ r.used = compact d 0 table.used ∧
      validateTable links r epoch root link = .ok () := by
  obtain ⟨hcount, t, ht, hslots⟩ := validateTable_ok h
  obtain ⟨-, hsum, -⟩ := checkEntries_checked ht
  have hlen : (compact d 0 table.used).length ≤ maxStreams :=
    Nat.le_trans (compact_length 0 _) (by rw [used_length hcount]; exact hcount)
  obtain ⟨u, hu⟩ := compact_checked (d := d) (u := {}) ⟨fun _ h => h, fun _ h => h, fun _ h => h⟩ ht
  obtain ⟨-, husum, hupbn⟩ := checkEntries_checked hu
  have hbound := sumSlots_compact (d := d) 0 table.used
  have hused := used_ofList hlen (sumSlots (compact d 0 table.used)) (sumPbn (compact d 0 table.used))
  have hresult : validateTable links (Table.ofList (compact d 0 table.used)
      (sumSlots (compact d 0 table.used)) (sumPbn (compact d 0 table.used))) epoch root link = .ok () := by
    have husum : u.slots = sumSlots (compact d 0 table.used) := husum.trans (Nat.zero_add _)
    have hupbn : u.pbn = sumPbn (compact d 0 table.used) := hupbn.trans (Nat.zero_add _)
    have hsum : t.slots = sumSlots table.used := hsum.trans (Nat.zero_add _)
    unfold validateTable
    rw [if_neg (by show ¬ (compact d 0 table.used).length > maxStreams; omega), hused, hu]
    dsimp only
    rw [if_neg]
    simp only [not_or, Decidable.not_not, not_lt]
    exact ⟨by omega, husum.symm, hupbn.symm⟩
  refine ⟨_, ?_, hused, hresult⟩
  unfold remove
  rw [h]
  show (check (table.find d = none) .Stale >>= fun _ => _) = _
  rw [check, if_neg hd]
  show (validateTable _ _ _ _ _ >>= fun _ => _) = _
  rw [hresult]
  rfl

/-! ## The plan -/

/-- The request of a stream. -/
structure Asks (e : Entry) (w : Wanted) : Prop where
  displayId : w.displayId = e.allocation.displayId
  payloadId : w.payloadId = e.allocation.head + 1
  head : w.head = e.allocation.head
  timing : w.timing = e.timing

theorem request_asks {graph : Graph} {keys : List PathEdge} {e : Entry} {w : Wanted}
    (h : request graph keys e = .ok w) : Asks e w := by
  unfold request at h
  split at h
  · cases h
  split at h
  · cases h
  · cases h
    exact ⟨rfl, rfl, rfl, rfl⟩

theorem requests_asks {graph : Graph} {keys : List PathEdge} {es : List Entry} {before ws : List Wanted}
    (h : requests graph keys before es = .ok ws) :
    ∃ more, ws = before ++ more ∧ List.Forall₂ Asks es more := by
  induction es generalizing before with
  | nil =>
    cases h
    exact ⟨[], (List.append_nil _).symm, .nil⟩
  | cons e es ih =>
    unfold requests at h
    split at h
    · cases h
    rename_i w hw
    obtain ⟨more, rfl, hmore⟩ := ih (ok_of_check h)
    exact ⟨w :: more, List.append_assoc .., .cons (request_asks hw) hmore⟩

theorem asks_snoc {es : List Entry} {last : Entry} {ws : List Wanted}
    (h : List.Forall₂ Asks (es ++ [last]) ws) :
    ∃ kept w, ws = kept ++ [w] ∧ List.Forall₂ Asks es kept ∧ Asks last w := by
  induction es generalizing ws with
  | nil =>
    cases h with
    | cons hw hnil =>
      cases hnil
      exact ⟨[], _, rfl, .nil, hw⟩
  | cons e es ih =>
    cases h with
    | cons hw hrest =>
      obtain ⟨kept, w, rfl, hkept, hlast⟩ := ih hrest
      exact ⟨_ :: kept, w, rfl, .cons hw hkept, hlast⟩

/-- What an allotment adds. -/
theorem allot_ok {paths : List Path} {s s' : Allotted} {w : Wanted}
    (h : allot links link paths s w = .ok s') :
    ∃ required, demand links link w.timing = .ok required ∧ s'.slots = s.slots + required.slots ∧
      s'.allocations = s.allocations ++ [⟨w.displayId, w.payloadId, w.head, s.slots + 1, required⟩] := by
  have h := ok_of_check (ok_of_check h)
  split at h
  · cases h
  rename_i required hrequired
  have h := ok_of_check h
  split at h
  · cases h
  · cases h
    exact ⟨required, hrequired, rfl, rfl⟩

theorem allotAll_cons {paths : List Path} {s s' : Allotted} {w : Wanted} {ws : List Wanted}
    (h : allotAll links link paths s (w :: ws) = .ok s') :
    ∃ s₁, allot links link paths s w = .ok s₁ ∧ allotAll links link paths s₁ ws = .ok s' := by
  unfold allotAll at h
  split at h
  · cases h
  · exact ⟨_, ‹_›, h⟩

/-- The entry with its allocation. -/
def placed (e : Entry) (a : Allocation) : Entry := { e with allocation := a }

/-- Checked streams are allotted what they had, one behind the other; the last one comes behind. -/
theorem allotAll_compact {paths : List Path} {d : Nat} {es : List Entry} {ws : List Wanted}
    {last : Entry} {w : Wanted} {s s' : Allotted} (hs : ∀ e ∈ es, Sound links link e)
    (hne : ∀ e ∈ es, e.allocation.displayId ≠ d) (hasks : List.Forall₂ Asks es ws) (hlast : Asks last w)
    (h : allotAll links link paths s (ws ++ [w]) = .ok s') :
    ∃ more a, s'.allocations = s.allocations ++ more ∧
      List.zipWith placed (es ++ [last]) more = compact d s.slots es ++ [placed last a] ∧
      a.displayId = last.allocation.displayId ∧ a.payloadId = last.allocation.head + 1 ∧
      a.head = last.allocation.head ∧ a.start = s.slots + sumSlots es + 1 := by
  induction hasks generalizing s with
  | nil =>
    obtain ⟨s₁, hs₁, hrest⟩ := allotAll_cons h
    cases hrest
    obtain ⟨required, -, -, halloc⟩ := allot_ok hs₁
    exact ⟨_, ⟨w.displayId, w.payloadId, w.head, s.slots + 1, required⟩, halloc, rfl, hlast.displayId,
      hlast.payloadId, hlast.head, rfl⟩
  | @cons e w' es ws hask _ ih =>
    obtain ⟨s₁, hs₁, hrest⟩ := allotAll_cons h
    obtain ⟨required, hdemand, hslots, halloc⟩ := allot_ok hs₁
    have hsound := hs e List.mem_cons_self
    -- The demand depends on link and timing only, so it is the one the stream had.
    obtain rfl : e.allocation.demand = required := by
      rw [hask.timing, hsound.demand] at hdemand
      exact Except.ok.inj hdemand
    obtain ⟨more, a, hmore, hzip, hid, hpayload, hhead, hstart⟩ :=
      ih (fun x hx => hs x (List.mem_cons_of_mem _ hx)) (fun x hx => hne x (List.mem_cons_of_mem _ hx)) hrest
    refine ⟨⟨w'.displayId, w'.payloadId, w'.head, s.slots + 1, e.allocation.demand⟩ :: more, a, ?_, ?_, hid,
      hpayload, hhead, ?_⟩
    · rw [hmore, halloc, List.append_assoc]
      rfl
    · rw [List.cons_append, List.zipWith_cons_cons, hzip, compact, if_neg (hne e List.mem_cons_self),
        ← hslots, List.cons_append, hask.displayId, hask.payloadId, hask.head, ← hsound.payloadId]
      rfl
    · rw [hstart, hslots, Nat.add_assoc s.slots]
      rfl

theorem compact_filter (d s : Nat) (es : List Entry) :
    compact d s (es.filter fun e => e.allocation.displayId != d) = compact d s es := by
  induction es generalizing s with
  | nil => rfl
  | cons e es ih =>
    by_cases hd : e.allocation.displayId = d
    · rw [List.filter_cons_of_neg (by simp [hd]), ih, compact, if_pos hd]
    · rw [List.filter_cons_of_pos (by simp [hd]), compact, if_neg hd, ih, compact, if_neg hd]

theorem bind_ok {α β : Type} {x : Except Error α} {f : α → Except Error β} {b : β}
    (h : x >>= f = .ok b) : ∃ a, x = .ok a ∧ f a = .ok b := by
  cases x with
  | ok a => exact ⟨a, rfl, h⟩
  | error e => cases h

/-- The target of a plan: the other streams moved up, and the replacement behind them. -/
theorem planInPlace_used {graph : Graph} {state : State} {captured : Table} {replacement : Entry}
    {target : Budget} (h : planInPlace links graph state captured link replacement = .ok target) :
    ∃ a, target.table.used =
        compact replacement.allocation.displayId 0 state.table.used ++ [placed replacement a] ∧
      a.displayId = replacement.allocation.displayId ∧ a.payloadId = replacement.allocation.head + 1 ∧
      a.head = replacement.allocation.head := by
  unfold planInPlace at h
  obtain ⟨-, -, h⟩ := bind_ok h
  obtain ⟨⟨⟩, hvalid, h⟩ := bind_ok h
  obtain ⟨-, -, h⟩ := bind_ok h
  obtain ⟨edges, -, h⟩ := bind_ok h
  obtain ⟨-, -, h⟩ := bind_ok h
  obtain ⟨-, -, h⟩ := bind_ok h
  obtain ⟨wanted, hwanted, h⟩ := bind_ok h
  obtain ⟨allotted, hallotted, h⟩ := bind_ok h
  obtain ⟨⟨⟩, htable, h⟩ := bind_ok h
  cases h
  have hchecked := checked_of_valid hvalid
  obtain ⟨ws, hws, hasks⟩ := requests_asks hwanted
  rw [List.nil_append] at hws
  subst hws
  -- The last request is the replacement's.
  unfold replaced at hasks
  obtain ⟨kept, w, rfl, hkept, hw⟩ := asks_snoc hasks
  have hall : allotAll links link (edges.map Prod.snd) {} (kept ++ [w]) = .ok allotted := by
    unfold plan at hallotted
    split at hallotted
    · cases hallotted
    · exact ok_of_check (ok_of_check hallotted)
  obtain ⟨more, a, hmore, hzip, hid, hpayload, hhead, -⟩ := allotAll_compact
    (d := replacement.allocation.displayId)
    (fun e he => hchecked.sound e (List.mem_of_mem_filter he))
    (fun e he => by simpa using (List.mem_filter.mp he).2) hkept hw hall
  have hmore : allotted.allocations = more := hmore
  rw [compact_filter] at hzip
  refine ⟨a, ?_, hid, hpayload, hhead⟩
  have hlen := (validateTable_ok htable).1
  rw [hmore] at hlen ⊢
  exact (used_ofList hlen _ _).trans hzip

/-! ## The records and the receiver check -/

/-- The table around the removed stream. -/
structure Around (table : Table) (d : Nat) (before : List Entry) (old : Entry) (after : List Entry) :
    Prop where
  used : table.used = before ++ old :: after
  find : table.find d = some old
  own : old.allocation.displayId = d
  ahead : ∀ e ∈ before, e.allocation.displayId ≠ d
  behind : ∀ e ∈ after, e.allocation.displayId ≠ d
  starts : (∀ e ∈ before, e.allocation.start ≤ old.allocation.start) ∧
    ∀ e ∈ after, old.allocation.start < e.allocation.start
  payloads : ∀ e, e ∈ before ∨ e ∈ after → e.allocation.payloadId ≠ old.allocation.payloadId

theorem around_of_find {table : Table} {d : Nat} (h : validateTable links table epoch root link = .ok ())
    (hd : table.find d ≠ none) : ∃ before old after, Around table d before old after := by
  have hchecked := checked_of_valid h
  obtain ⟨old, hfind⟩ := Option.ne_none_iff_exists'.mp hd
  have hfound := hfind
  unfold Table.find at hfound
  split at hfound
  · cases hfound
  obtain ⟨hold, before, after, hused, hbefore⟩ := List.find?_eq_some_iff_append.mp hfound
  have hold : old.allocation.displayId = d := by simpa using hold
  have hids := hchecked.ids
  have hheads := hchecked.heads
  have hlaid := hchecked.laid
  rw [hused, List.map_append, List.map_cons] at hids hheads
  rw [hused] at hlaid
  obtain ⟨-, hnodup, hapart⟩ := List.nodup_append.mp hids
  obtain ⟨-, hnodup', hapart'⟩ := List.nodup_append.mp hheads
  have hpayload : ∀ e ∈ table.used, e.allocation.payloadId = e.allocation.head + 1 :=
    fun e he => (hchecked.sound e he).payloadId
  rw [hused] at hpayload
  have hown := hpayload old (List.mem_append_right _ List.mem_cons_self)
  have htail := hlaid.tail
  refine ⟨before, old, after, hused, hfind, hold, fun e he => by simpa using hbefore e he, fun e he heq => ?_,
    ⟨fun e he => ?_, fun e he => ?_⟩, ?_⟩
  · exact (List.nodup_cons.mp hnodup).1 (List.mem_map.mpr ⟨e, he, heq.trans hold.symm⟩)
  · have := hlaid.start_le e he
    have := htail.1
    omega
  · have := htail.2.2.start_gt e he
    have := htail.1
    have := htail.2.1
    omega
  · rintro e (he | he) heq
    · have := hpayload e (List.mem_append_left _ he)
      exact hapart' _ (List.mem_map.mpr ⟨e, he, rfl⟩) _ List.mem_cons_self (by omega)
    · have := hpayload e (List.mem_append_right _ (List.mem_cons_of_mem _ he))
      exact (List.nodup_cons.mp hnodup').1 (List.mem_map.mpr ⟨e, he, by omega⟩)

theorem filter_head {es : List Entry} (h : (es.map fun e => e.allocation.head).Nodup) {e : Entry}
    (he : e ∈ es) : es.filter (fun x => x.allocation.head == e.allocation.head) = [e] := by
  induction es with
  | nil => cases he
  | cons x es ih =>
    rw [List.map_cons, List.nodup_cons] at h
    rcases List.mem_cons.mp he with rfl | he
    · rw [List.filter_cons_of_pos (by simp), List.filter_eq_nil_iff.mpr]
      intro y hy heq
      exact h.1 (List.mem_map.mpr ⟨y, hy, by simpa using heq⟩)
    · rw [List.filter_cons_of_neg, ih h.2 he]
      intro heq
      exact h.1 (List.mem_map.mpr ⟨e, he, by simpa using (beq_iff_eq.mp heq).symm⟩)

theorem onHead_eq {table : Table} (h : Checked links link 0 table.used) {e : Entry}
    (he : e ∈ table.used) : onHead table e.allocation.head = some e := by
  rw [onHead, filter_head h.heads he]
  rfl

/-- The stream of a head after the removal. -/
def shifted (old e : Entry) : Entry :=
  if e.allocation.start > old.allocation.start then moved old.allocation.demand.slots e else e

theorem Around.compact_eq {table : Table} {d : Nat} {before after : List Entry} {old : Entry}
    (ha : Around table d before old after) (hlaid : Laid 0 table.used) :
    compact d 0 table.used = before ++ after.map (moved old.allocation.demand.slots) := by
  rw [ha.used] at hlaid ⊢
  exact compact_split hlaid ha.own ha.ahead ha.behind

theorem Around.shifted_eq {table : Table} {d : Nat} {before after : List Entry} {old : Entry}
    (ha : Around table d before old after) (hlaid : Laid 0 table.used) :
    compact d 0 table.used = (before ++ after).map (shifted old) := by
  rw [ha.compact_eq hlaid, List.map_append]
  congr 1
  · symm
    refine (List.map_congr_left fun e he => ?_).trans (List.map_id before)
    have := ha.starts.1 e he
    rw [shifted, if_neg (by omega)]
    rfl
  · refine List.map_congr_left fun e he => ?_
    rw [shifted, if_pos (ha.starts.2 e he)]

section

variable {w : Work} {before after : List Entry} {old : Entry}

theorem stream_deleted (ha : Around w.before w.displayId before old after)
    (hc : Checked links link 0 w.before.used) {e : Entry} (he : e ∈ w.before.used)
    (hd : e.allocation.displayId = w.displayId) :
    w.stream e.allocation.head true = some (w.deletion e.allocation.head) := by
  have hprev : w.previousEntry = some old := ha.find
  unfold Work.stream
  rw [if_pos rfl, onHead_eq hc he, hprev]
  dsimp only
  rw [if_pos rfl, if_pos (hd.trans ha.own.symm)]

theorem stream_kept (ha : Around w.before w.displayId before old after)
    (hc : Checked links link 0 w.before.used) {e : Entry} (he : e ∈ w.before.used)
    (hd : e.allocation.displayId ≠ w.displayId) :
    w.stream e.allocation.head true = some (w.record e.allocation.head (shifted old e).allocation) := by
  have hprev : w.previousEntry = some old := ha.find
  unfold Work.stream
  rw [if_pos rfl, onHead_eq hc he, hprev]
  dsimp only
  rw [if_pos rfl, if_neg fun heq => hd (heq.trans ha.own)]
  unfold shifted
  split <;> rfl

theorem stream_absent {head : Nat} (h : ∀ e ∈ w.before.used, e.allocation.head ≠ head) :
    w.stream head true = none := by
  have hnone : onHead w.before head = none := by
    rw [onHead, List.filter_eq_nil_iff.mpr]
    · rfl
    · intro e he heq
      exact h e he (by simpa using heq)
  unfold Work.stream
  rw [if_pos rfl, hnone]

/-- The stream covers the time slot. -/
def Covers (offset : Nat) (e : Entry) : Prop :=
  offset ≥ e.allocation.start ∧ offset < e.allocation.start + e.allocation.demand.slots

instance (offset : Nat) (e : Entry) : Decidable (Covers offset e) :=
  inferInstanceAs (Decidable (_ ∧ _))

/-- The payload ID of the first stream that covers the slot, or 0. -/
def coverId (offset : Nat) (es : List Entry) : Nat :=
  match es.find? fun e => decide (Covers offset e) with
  | some e => e.allocation.payloadId
  | none => 0

theorem shifted_payloadId (old e : Entry) : (shifted old e).allocation.payloadId = e.allocation.payloadId := by
  unfold shifted
  split <;> rfl

theorem coverId_cons (offset : Nat) (e : Entry) (es : List Entry) :
    coverId offset (e :: es) =
      if Covers offset e then e.allocation.payloadId else coverId offset es := by
  unfold coverId
  rw [List.find?_cons]
  by_cases h : Covers offset e <;> simp [h]

theorem slotOf_verify (hs : w.stage = .removeVerify) (hprev : w.previousEntry = some old) (offset : Nat)
    (es : List Entry) :
    w.slotOf offset es = .ok (coverId offset
      ((es.filter fun e => e.allocation.payloadId != old.allocation.payloadId).map (shifted old))) := by
  induction es with
  | nil => rfl
  | cons e es ih =>
    unfold Work.slotOf
    dsimp only
    rw [if_pos hs, hprev]
    dsimp only
    by_cases hp : e.allocation.payloadId = old.allocation.payloadId
    · rw [if_pos hp, List.filter_cons_of_neg (by simp [hp]), ih]
    · rw [if_neg hp, List.filter_cons_of_pos (by simp [hp]), List.map_cons, coverId_cons, ih,
        shifted_payloadId]
      unfold shifted Covers moved
      split <;> split <;> rfl

theorem slot_verify (ha : Around w.before w.displayId before old after)
    (hs : w.stage = .removeVerify) (offset : Nat) :
    w.slot offset = .ok (coverId offset ((before ++ after).map (shifted old))) := by
  have hkeep {es : List Entry} (hne : ∀ e ∈ es, e.allocation.payloadId ≠ old.allocation.payloadId) :
      es.filter (fun e => e.allocation.payloadId != old.allocation.payloadId) = es :=
    List.filter_eq_self.mpr fun e he => by simpa using hne e he
  unfold Work.slot
  rw [if_neg (by rw [hs]; simp), if_neg (by rw [hs]; simp), slotOf_verify hs ha.find, ha.used,
    List.filter_append, List.filter_cons_of_neg (by simp), hkeep fun e he => ha.payloads e (.inl he),
    hkeep fun e he => ha.payloads e (.inr he)]

/-- The streams do not overlap: a slot shows the one stream that covers it. -/
theorem coverId_eq {s offset : Nat} {es : List Entry} (h : Laid s es) {e : Entry} (he : e ∈ es)
    (hcover : Covers offset e) : coverId offset es = e.allocation.payloadId := by
  induction es generalizing s with
  | nil => cases he
  | cons x es ih =>
    rw [coverId_cons]
    rcases List.mem_cons.mp he with rfl | he
    · rw [if_pos hcover]
    · rw [if_neg, ih h.2.2 he]
      intro hx
      have := h.1
      have := h.2.2.start_gt e he
      have := hcover.1
      have := hx.2
      omega

theorem coverId_none {offset : Nat} {es : List Entry} (h : ∀ e ∈ es, ¬ Covers offset e) :
    coverId offset es = 0 := by
  unfold coverId
  rw [List.find?_eq_none.mpr fun e he => by simpa using h e he]

end

/-- **The three computations of the moved slots agree.** For every valid table with a stream of the
display: the table model gives a valid table; every plan that replaces the stream has that table's
streams and the replacement behind them; the records tell the source to delete the stream, and of every
other head exactly what that table has; and the receiver has to show exactly that table's slots. -/
theorem removal_agrees {before : Table} {d : Nat}
    (hv : validateTable links before epoch root link = .ok ()) (hd : before.find d ≠ none) :
    ∃ r, remove links before epoch root link d = .ok r ∧
      validateTable links r epoch root link = .ok () ∧
      (∀ graph state captured link' replacement target, state.table = before →
        replacement.allocation.displayId = d →
        planInPlace links graph state captured link' replacement = .ok target →
        ∃ a, target.table.used = r.used ++ [{ replacement with allocation := a }] ∧
          a.displayId = d ∧ a.payloadId = replacement.allocation.head + 1 ∧
          a.head = replacement.allocation.head) ∧
      ∀ w : Work, w.before = before → w.displayId = d →
        (∀ e ∈ before.used, e.allocation.displayId = d →
          w.stream e.allocation.head true = some (w.deletion e.allocation.head)) ∧
        (∀ e ∈ before.used, e.allocation.displayId ≠ d →
          ∃ e' ∈ r.used, e'.allocation.head = e.allocation.head ∧
            w.stream e.allocation.head true = some (w.record e.allocation.head e'.allocation)) ∧
        (∀ head, (∀ e ∈ before.used, e.allocation.head ≠ head) → w.stream head true = none) ∧
        (w.stage = .removeVerify → ∀ offset,
          (∀ e ∈ r.used, Covers offset e → w.slot offset = .ok e.allocation.payloadId) ∧
          ((∀ e ∈ r.used, ¬ Covers offset e) → w.slot offset = .ok 0)) := by
  obtain ⟨r, hr, hused, hrvalid⟩ := remove_ok hv hd
  have hchecked := checked_of_valid hv
  have hrlaid := (checked_of_valid hrvalid).laid
  obtain ⟨pre, old, post, ha⟩ := around_of_find hv hd
  have hshift := ha.shifted_eq hchecked.laid
  refine ⟨r, hr, hrvalid, ?_, ?_⟩
  · rintro graph state captured link' replacement target rfl rfl hplan
    obtain ⟨a, htarget, hid, hpayload, hhead⟩ := planInPlace_used hplan
    refine ⟨a, ?_, hid, hpayload, hhead⟩
    rw [htarget, hused]
    rfl
  · rintro w rfl rfl
    refine ⟨fun e he hid => stream_deleted ha hchecked he hid, fun e he hid => ?_,
      fun head hnone => stream_absent hnone, fun hs offset => ⟨fun e he hcover => ?_, fun hnone => ?_⟩⟩
    · refine ⟨shifted old e, ?_, ?_, stream_kept ha hchecked he hid⟩
      · rw [hused, hshift]
        refine List.mem_map_of_mem ?_
        rw [ha.used] at he
        rcases List.mem_append.mp he with he | he
        · exact List.mem_append_left _ he
        · rcases List.mem_cons.mp he with rfl | he
          · exact absurd ha.own hid
          · exact List.mem_append_right _ he
      · unfold shifted
        split <;> rfl
    · rw [slot_verify ha hs, ← hshift, ← hused, coverId_eq hrlaid he hcover]
    · rw [slot_verify ha hs, ← hshift, ← hused, coverId_none hnone]

/-! ## The middle one of three streams -/

/-- A capture of root `1` with three sinks behind its branch. -/
def threeSinks : Graph where
  epoch := 1
  generation := 1
  root := 1
  branchCount := 1
  edgeCount := 3
  sinkCount := 3
  branches := fun _ => { descriptor := some (Vector.replicate 16 7) }
  edges := fun n =>
    { port := { number := 8 + n, connected := true }, resources := some ⟨2560, 500, none⟩ }
  sinks := fun n => { edge := n }
  coherent := true
  completionReceipt := 5

/-- A 1080p stream on a head. -/
def headStream (head start : Nat) : Entry where
  handle := ⟨1, head + 1, head⟩
  key := ⟨1, Vector.replicate 16 7, Vector.replicate 16 7, {}, 8 + head⟩
  window := head
  pathCount := 1
  path := (Vector.replicate maxPath {}).set 0 ⟨Vector.replicate 16 7, {}, 8 + head⟩ Transaction.maxPath_pos
  timing := ⟨⟨148500000, 1⟩, 1920, 2200, 8⟩
  allocation := ⟨2 <<< head, head + 1, head, start, ⟨532, 14, 560, 976, 6782, true⟩⟩

/-- Three streams, one on each sink. -/
def threeStreams : Table :=
  Table.ofList [headStream 0 1, headStream 1 15, headStream 2 29] 42 1596

def threeTraining : Training where
  link := ⟨20, 4⟩
  source := { rate := 20, increasedWatermark := false, mst := true }
  dpcd := Vector.replicate 16 0
  lanes := Vector.replicate 8 0
  receipt := 4

def threeState : State where
  epoch := 1
  root := 1
  revision := 3
  table := threeStreams
  training := some threeTraining
  completionReceipt := 5

/-- The work that checks the receiver while the middle stream goes. -/
def verifyWork : Work where
  before := threeStreams
  target := threeStreams
  displayId := 4
  sor := 0
  protocol := 8
  stage := .removeVerify

theorem removal_agrees_three :
    (∃ target, planInPlace Transaction.dpLinks threeSinks threeState threeStreams ⟨20, 4⟩
        (headStream 1 15) = .ok target ∧
      target.table.used.map (fun e => e.allocation.head) = [0, 2, 1]) ∧
    verifyWork.stream 1 true = some (verifyWork.deletion 1) ∧ verifyWork.slot 15 = .ok 3 ∧
    verifyWork.slot 29 = .ok 0 := by
  have hv : validateTable Transaction.dpLinks threeStreams 1 1 ⟨20, 4⟩ = .ok () := by decide +kernel
  obtain ⟨r, hr, -, hplan, hwork⟩ := removal_agrees (d := 4) hv (by decide +kernel)
  obtain ⟨hdelete, -, -, hslot⟩ := hwork verifyWork rfl rfl
  have hused : r.used = [headStream 0 1, headStream 2 15] := by
    have : remove Transaction.dpLinks threeStreams 1 1 ⟨20, 4⟩ 4 =
        .ok (Table.ofList [headStream 0 1, headStream 2 15] 28 1064) := by decide +kernel
    rw [this] at hr
    rw [← Except.ok.inj hr]
    decide +kernel
  refine ⟨?_, hdelete (headStream 1 15) (by decide +kernel) (by decide +kernel), ?_, ?_⟩
  · have hok : (planInPlace Transaction.dpLinks threeSinks threeState threeStreams ⟨20, 4⟩
        (headStream 1 15)).toOption.isSome = true := by decide +kernel
    cases htarget : planInPlace Transaction.dpLinks threeSinks threeState threeStreams ⟨20, 4⟩
        (headStream 1 15) with
    | error e =>
      rw [htarget] at hok
      cases hok
    | ok target =>
      obtain ⟨a, hentries, -, -, hhead⟩ :=
        hplan threeSinks threeState threeStreams ⟨20, 4⟩ (headStream 1 15) target rfl (by decide +kernel) htarget
      refine ⟨target, rfl, ?_⟩
      rw [hentries, hused, List.map_append, List.map_singleton, hhead]
      decide +kernel
  · refine (hslot rfl 15).1 (headStream 2 15) ?_ (by decide +kernel)
    rw [hused]
    simp
  · refine (hslot rfl 29).2 ?_
    rw [hused]
    decide +kernel

end Link
end Mst
end NvidiaGsp
