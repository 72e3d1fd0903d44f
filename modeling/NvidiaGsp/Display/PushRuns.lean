import NvidiaGsp.Display.Push
import NvidiaGsp.Lib.Triples

/-!
# Display.PushRuns

Every published frame is fetched exactly once. The invariant `Tracks` holds what the channel still
has to fetch: the rest of the last frame, or the jump to the beginning. A frame is only prepared when
the channel has nothing left, so a prepared word is never one it is about to read.
-/

namespace NvidiaGsp
namespace Display

open Call Radix

variable {C : Type} {commands : Commands C} {m m' : Machine} {rest : List Nat}

/-! ## Words -/

theorem Method.header_eq (x : Method) :
    x.header = x.values.length * 2 ^ 18 + x.offset ∧ x.offset < 2 ^ 18 ∧ x.values.length < 1024 := by
  have hadm := x.admitted
  have hlow : x.offset < 2 ^ 18 := by omega
  exact ⟨by rw [Method.header, shiftLeft_or hlow], hlow, by omega⟩

/-- A method header is no jump. -/
theorem Method.header_ne (x : Method) : x.header ≠ jumpZero := by
  obtain ⟨heq, hlow, hlen⟩ := x.header_eq
  rw [heq, jumpZero]
  omega

theorem Method.dataCount_header (x : Method) : dataCount x.header = x.values.length := by
  obtain ⟨heq, hlow, hlen⟩ := x.header_eq
  have hmask (a : Nat) : a &&& 0x3ff = a % 1024 := and_mask a 10
  rw [dataCount, hmask, Nat.shiftRight_eq_div_pow, heq]
  omega

/-- The words start with `left` data words, methods follow. -/
def Parses (left : Nat) (ws : List Nat) : Prop :=
  ∃ (data : List Nat) (methods : List Method), ws = data ++ methods.flatMap Method.words ∧ data.length = left

theorem Program.parses (p : Program) : Parses 0 p.words := ⟨[], p.methods, rfl, rfl⟩

theorem Parses.nil {left : Nat} (h : Parses left []) : left = 0 := by
  obtain ⟨data, methods, heq, rfl⟩ := h
  rw [(List.append_eq_nil_iff.mp heq.symm).1]
  rfl

/-- The word where a header is due. -/
theorem Parses.header {w : Nat} {ws : List Nat} (h : Parses 0 (w :: ws)) :
    w ≠ jumpZero ∧ Parses (dataCount w) ws := by
  obtain ⟨data, methods, heq, hlen⟩ := h
  obtain rfl := List.length_eq_zero_iff.mp hlen
  cases methods with
  | nil => simp at heq
  | cons x xs =>
    simp only [List.nil_append, List.flatMap_cons, Method.words, List.cons_append,
      List.cons.injEq] at heq
    obtain ⟨rfl, rfl⟩ := heq
    exact ⟨x.header_ne, x.values, xs, rfl, x.dataCount_header.symm⟩

theorem Parses.data {left w : Nat} {ws : List Nat} (h : Parses (left + 1) (w :: ws)) :
    Parses left ws := by
  obtain ⟨data, methods, heq, hlen⟩ := h
  cases data with
  | nil => simp at hlen
  | cons x xs =>
    simp only [List.cons_append, List.cons.injEq] at heq
    obtain ⟨-, rfl⟩ := heq
    exact ⟨xs, methods, rfl, by simpa using hlen⟩

theorem Stored.head {words : Nat → Nat} {start w : Nat} {ws : List Nat}
    (h : Stored words start (w :: ws)) : words start = w ∧ Stored words (start + 1) ws := by
  refine ⟨by simpa using h 0 (by simp), fun i hi => ?_⟩
  have := h (i + 1) (by simpa using hi)
  rw [← Nat.add_assoc, Nat.add_right_comm] at this
  simpa using this

theorem Stored.nil {words : Nat → Nat} {start : Nat} : Stored words start [] :=
  fun i hi => absurd hi (by simp)

/-! ## The channel -/

/-- What the channel still has to fetch: `rest` up to the end, or only the jump to the beginning. -/
inductive Stage (m : Machine) (rest : List Nat) : Prop where
  | plain (hend : m.get + rest.length = m.put) (hstored : Stored m.words m.get rest)
      (hparses : Parses m.left rest)
  | jumping (hrest : rest = []) (hleft : m.left = 0) (hget : m.get ≠ 0) (hput : m.put = 0)
      (hword : m.words m.get = jumpZero)

theorem Stage.fetch (h : Stage m rest) :
    ∃ rest', Stage m.fetch rest' ∧ m.fetch.fetched ++ rest' = m.fetched ++ rest ∧
      (m.get ≠ m.put → rest'.length < rest.length ∨ m.fetch.get = m.fetch.put) := by
  cases h with
  | plain hend hstored hparses =>
    unfold Machine.fetch
    by_cases hidle : m.get = m.put
    · rw [if_pos hidle]
      exact ⟨rest, .plain hend hstored hparses, rfl, fun hn => absurd hidle hn⟩
    · rw [if_neg hidle]
      cases rest with
      | nil => exact absurd hend hidle
      | cons w ws =>
        obtain ⟨hw, hnext⟩ := hstored.head
        have hend' : m.get + 1 + ws.length = m.put := by
          rw [List.length_cons] at hend
          omega
        have hparse : ¬ (m.left = 0 ∧ m.words m.get = jumpZero) ∧
            Parses (if m.left = 0 then dataCount (m.words m.get) else m.left - 1) ws := by
          rw [hw]
          cases hl : m.left with
          | zero =>
            rw [hl] at hparses
            exact ⟨fun hn => hparses.header.1 hn.2, by simpa using hparses.header.2⟩
          | succ l =>
            rw [hl] at hparses
            exact ⟨fun hn => absurd hn.1 (by simp), by simpa using hparses.data⟩
        dsimp only
        rw [if_neg hparse.1]
        refine ⟨ws, .plain hend' hnext hparse.2, ?_, fun _ => .inl (by simp)⟩
        rw [hw, List.append_assoc]
        rfl
  | jumping hrest hleft hget hput hword =>
    unfold Machine.fetch
    rw [if_neg (by rw [hput]; exact hget)]
    dsimp only
    rw [if_pos ⟨hleft, hword⟩]
    subst hrest
    refine ⟨[], .plain hput.symm Stored.nil ⟨[], [], rfl, hleft.symm⟩, rfl, fun _ => .inr hput.symm⟩

theorem Machine.fetch_idle (h : m.get = m.put) : m.fetch = m := by
  unfold Machine.fetch
  rw [if_pos h]

theorem Stage.idle (h : Stage m rest) (hi : m.get = m.put) : rest = [] ∧ m.left = 0 := by
  cases h with
  | plain hend _ hparses =>
    obtain rfl : rest = [] := List.length_eq_zero_iff.mp (by omega)
    exact ⟨rfl, hparses.nil⟩
  | jumping hrest hleft hget hput => exact ⟨hrest, hleft⟩

theorem Stage.of_eq (h : Stage m rest) (hw : m'.words = m.words) (hg : m'.get = m.get)
    (hp : m'.put = m.put) (hl : m'.left = m.left) : Stage m' rest := by
  cases h with
  | plain hend hstored hparses =>
    exact .plain (by rw [hg, hp, hend]) (by rw [hw, hg]; exact hstored) (by rw [hl]; exact hparses)
  | jumping hrest hleft hget hput hword =>
    exact .jumping hrest (hl.trans hleft) (by rw [hg]; exact hget) (hp.trans hput)
      (by rw [hw, hg]; exact hword)

/-- The channel catches up. -/
theorem Stage.catches_up (h : Stage m rest) :
    ∃ n, (Machine.fetch^[n] m).get = (Machine.fetch^[n] m).put ∧
      (Machine.fetch^[n] m).fetched = m.fetched ++ rest := by
  generalize hk : rest.length = k
  induction k using Nat.strong_induction_on generalizing m rest with
  | _ k ih =>
    by_cases hi : m.get = m.put
    · refine ⟨0, hi, ?_⟩
      rw [(h.idle hi).1, List.append_nil]
      rfl
    · obtain ⟨rest', h', heq, hless⟩ := h.fetch
      rcases hless hi with hless | hidle
      · obtain ⟨n, hn, hf⟩ := ih rest'.length (by omega) h' rfl
        exact ⟨n + 1, hn, hf.trans heq⟩
      · refine ⟨1, hidle, ?_⟩
        rw [(h'.idle hidle).1, List.append_nil] at heq
        exact heq

/-! ## What a call does -/

/-- The checks of `prepare` pass, and `p` is the program of the configuration. -/
structure Admits (commands : Commands C) (m : Machine) (config : C) (p : Program) : Prop where
  sound : m.ring.failed = false ∧ m.ring.put < 1023
  pending : m.ring.pending = none
  completed : m.ring.issued = m.ring.completed
  idle : m.get = m.ring.put
  fresh : commands.initializes config ≠ m.ring.initialized ∧ commands.kind config = m.ring.kind
  encode : commands.encode config = .ok p
  serial : m.ring.issued ≠ maxU64

def Ring.frame (r : Ring) (p : Program) : Ticket :=
  ⟨r.owner, r.epoch, r.channel, r.issued + 1, .frame, r.put, r.put + p.count⟩

def Ring.rewind (r : Ring) : Ticket :=
  ⟨r.owner, r.epoch, r.channel, r.issued + 1, .rewind, r.put, 0⟩

/-- A published ticket is the pending one, and its words are in place. -/
structure Publishes (m : Machine) (ticket : Ticket) : Prop where
  pending : m.ring.pending = some ticket
  unpublished : m.ring.published = false
  start : ticket.start = m.ring.put

def Machine.move (m : Machine) (ticket : Ticket) (issued : Nat) : Machine :=
  { m with
    put := ticket.put
    ring := { m.ring with published := true, put := ticket.put, issued } }

inductive Effect (commands : Commands C) (m : Machine) :
    Op C → Except Error Answer → Machine → Prop where
  | refused {op : Op C} {e : Error} : Effect commands m op (.error e) m
  | frame {intact : Bool} {config : C} (p : Program) (h : Admits commands m config p)
      (hfit : m.ring.put + p.count < 1023) :
      Effect commands m (.prepare intact config) (.ok (.ticket (m.ring.frame p)))
        { m with
          words := store m.words m.ring.put p.words
          ring := { m.ring with program := some p, pending := some (m.ring.frame p) } }
  | rewind {intact : Bool} {config : C} (p : Program) (h : Admits commands m config p)
      (hfull : 1023 ≤ m.ring.put + p.count) (hput : m.ring.put ≠ 0) :
      Effect commands m (.prepare intact config) (.ok (.ticket m.ring.rewind))
        { m with
          words := Function.update m.words m.ring.put jumpZero
          ring := { m.ring with program := none, pending := some m.ring.rewind } }
  | publishFrame {intact : Bool} {ticket : Ticket} {config : C} (p : Program)
      (h : Publishes m ticket) (hk : ticket.kind = .frame) (hp : commands.encode config = .ok p)
      (hend : ticket.put = ticket.start + p.count) (hstored : Stored m.words ticket.start p.words) :
      Effect commands m (.publish intact ticket config) (.ok .done) (m.move ticket ticket.point)
  | publishRewind {intact : Bool} {ticket : Ticket} {config : C} (h : Publishes m ticket)
      (hk : ticket.kind = .rewind) (hend : ticket.put = 0) (hword : m.words ticket.start = jumpZero) :
      Effect commands m (.publish intact ticket config) (.ok .done) (m.move ticket m.ring.issued)
  | waiting {intact : Bool} : Effect commands m (.rewound intact) (.ok (.rewound false)) m
  | rewound {intact : Bool} (ticket : Ticket) (hpub : m.ring.published = true)
      (hpend : m.ring.pending = some ticket) (hk : ticket.kind = .rewind) (hget : m.get = 0) :
      Effect commands m (.rewound intact) (.ok (.rewound true))
        { m with ring := { m.ring with pending := none, published := false } }
  | finished {intact : Bool} {point : Nat} (ticket : Ticket) (hpend : m.ring.pending = some ticket)
      (hk : ticket.kind = .frame) :
      Effect commands m (.finish intact point) (.ok .done)
        { m with ring := { m.ring with
          completed := point, initialized := true, pending := none, published := false
          program := none } }
  | fetched : Effect commands m .fetch (.ok .done) m.fetch

theorem valid_iff {r : Ring} {intact : Bool} (h : ¬ r.valid intact = false) :
    r.failed = false ∧ r.put < 1023 := by
  have h : r.valid intact = true := by simpa using h
  simp only [Ring.valid, Bool.and_eq_true, Bool.not_eq_true', decide_eq_true_eq] at h
  exact ⟨h.1.2, h.2⟩

theorem prepare_effect {intact : Bool} {config : C} :
    Spec (prepare commands intact m.get config) m
      (fun t m' => Effect commands m (.prepare intact config) (.ok (.ticket t)) m')
      (fun _ m' => m' = m) := by
  unfold prepare
  refine .get_bind (.failIf_bind (fun _ => rfl) fun hvalid => ?_)
  refine .failIf_bind (fun _ => rfl) fun hbusy => .failIf_bind (fun _ => rfl) fun hstate => ?_
  refine .lift_bind (fun _ _ => rfl) fun p hp => .failIf_bind (fun _ => rfl) fun hserial => ?_
  simp only [not_or, Decidable.not_not] at hbusy hstate
  have hadm : Admits commands m config p :=
    ⟨valid_iff hvalid, hbusy.1, hbusy.2.1, hbusy.2.2, ⟨hstate.1, hstate.2⟩, hp, hserial⟩
  dsimp only
  split
  · rename_i hfull
    exact .failIf_bind (fun _ => rfl) fun hput => .rewind p hadm hfull hput
  · rename_i hfit
    exact .frame p hadm (by omega)

theorem publish_effect {intact : Bool} {ticket : Ticket} {config : C} :
    Spec (publish commands intact ticket config) m
      (fun _ m' => Effect commands m (.publish intact ticket config) (.ok .done) m')
      (fun _ m' => m' = m) := by
  unfold publish
  refine .get_bind (.failIf_bind (fun _ => rfl) fun hmatch => ?_)
  have hmatch : m.matches commands intact ticket config = true := by simpa using hmatch
  unfold Machine.matches at hmatch
  dsimp only at hmatch
  split at hmatch
  · cases hmatch
  rename_i hcheck
  simp only [not_or, Decidable.not_not] at hcheck
  obtain ⟨-, hpub, hpend, -, -⟩ := hcheck
  have hpub : m.ring.published = false := by simpa using hpub
  split at hmatch
  · rename_i hk
    simp only [Bool.and_eq_true, decide_eq_true_eq] at hmatch
    obtain ⟨-, hstart, hend, hword⟩ := hmatch
    show Effect commands m _ _ { m with
      put := ticket.put
      ring := { m.ring with
        published := true
        put := ticket.put
        issued := if ticket.kind = TicketKind.frame then ticket.point else m.ring.issued } }
    rw [if_neg (by rw [hk]; simp)]
    exact .publishRewind ⟨hpend, hpub, hstart⟩ hk hend hword
  · rename_i hk
    split at hmatch
    · cases hmatch
    · rename_i p hp
      simp only [decide_eq_true_eq] at hmatch
      obtain ⟨-, hstart, hend, hstored⟩ := hmatch
      show Effect commands m _ _ { m with
        put := ticket.put
        ring := { m.ring with
          published := true
          put := ticket.put
          issued := if ticket.kind = TicketKind.frame then ticket.point else m.ring.issued } }
      rw [if_pos hk]
      exact .publishFrame p ⟨hpend, hpub, hstart⟩ hk hp hend hstored

theorem pending_any {P : Ticket → Prop} [DecidablePred P] {o : Option Ticket}
    (h : ¬ (o.any fun t => decide (P t)) = false) : ∃ t, o = some t ∧ P t := by
  cases o with
  | none => exact absurd rfl h
  | some t => exact ⟨t, rfl, by simpa using h⟩

theorem rewound_effect {intact : Bool} :
    Spec (rewound intact m.get) m
      (fun b m' => Effect commands m (.rewound intact) (.ok (.rewound b)) m')
      (fun _ m' => m' = m) := by
  unfold rewound
  refine .get_bind (.failIf_bind (fun _ => rfl) fun hcheck => ?_)
  simp only [not_or] at hcheck
  obtain ⟨-, hpub, hpend⟩ := hcheck
  obtain ⟨ticket, hpend, hk⟩ := pending_any hpend
  split
  · exact .pure .waiting
  · rename_i hget
    exact .rewound ticket (by simpa using hpub) hpend hk (Decidable.not_not.mp hget)

theorem finish_effect {intact : Bool} {point : Nat} :
    Spec (finish intact point) m
      (fun _ m' => Effect commands m (.finish intact point) (.ok .done) m')
      (fun _ m' => m' = m) := by
  unfold finish
  refine .get_bind (.failIf_bind (fun _ => rfl) fun hcheck => ?_)
  simp only [not_or] at hcheck
  obtain ⟨-, -, hpend, -⟩ := hcheck
  obtain ⟨ticket, hpend, hk, -⟩ := pending_any hpend
  exact .finished ticket hpend hk

theorem step_effect {op : Op C} {out : Except Error Answer} (h : step commands m op = (out, m')) :
    Effect commands m op out m' := by
  have hspec : Spec (call commands op) m (fun a m' => Effect commands m op (.ok a) m')
      (fun _ m' => m' = m) := by
    cases op with
    | prepare intact config =>
      exact .get_bind (.seq prepare_effect (fun _ _ h => h) fun _ _ h => h)
    | publish intact ticket config => exact .seq publish_effect (fun _ _ h => h) fun _ _ h => h
    | rewound intact => exact .get_bind (.seq rewound_effect (fun _ _ h => h) fun _ _ h => h)
    | finish intact point => exact .seq finish_effect (fun _ _ h => h) fun _ _ h => h
    | fetch => exact .fetched
  cases out with
  | ok a => exact hspec.ok (outcome_ok_iff.1 h)
  | error e =>
    rw [hspec.error (outcome_error_iff.1 h)]
    exact .refused

/-! ## The invariant -/

abbrev PushEvent (C : Type) := Event Machine (Op C) (Except Error Answer)

/-- The point and the words of a frame published by the event. -/
def frameOf (commands : Commands C) (e : PushEvent C) : Option (Nat × List Nat) :=
  match e.op, e.out with
  | .publish _ ticket config, .ok _ =>
    if ticket.kind = .frame then
      match commands.encode config with
      | .ok p => some (ticket.point, p.words)
      | .error _ => none
    else none
  | _, _ => none

/-- The words of the published frames, in order. -/
def frames (commands : Commands C) (h : List (PushEvent C)) : List Nat :=
  (h.filterMap (frameOf commands)).flatMap (·.2)

def points (commands : Commands C) (h : List (PushEvent C)) : List Nat :=
  (h.filterMap (frameOf commands)).map (·.1)

structure Tracks (commands : Commands C) (prior : Nat) (h : List (PushEvent C)) (m : Machine) :
    Prop where
  put : m.put = m.ring.put
  low : m.ring.put < 1023
  stage : ∃ rest, Stage m rest ∧ m.fetched ++ rest = frames commands h
  since : prior ≤ m.ring.issued
  serial : points commands h = List.range' (prior + 1) (m.ring.issued - prior)
  waiting : ∀ t, m.ring.pending = some t → m.ring.published = false →
    m.get = m.put ∧ t.point = m.ring.issued + 1 ∧ t.put < 1023 ∧ (t.kind = .rewind → t.start ≠ 0)
  moved : ∀ t, m.ring.pending = some t → m.ring.published = true → m.ring.put = t.put
  fresh : m.ring.pending = none → m.ring.published = false

variable {prior : Nat} {h : List (PushEvent C)}

theorem frames_snoc {e : PushEvent C} {x : Nat × List Nat} (he : frameOf commands e = some x) :
    frames commands (h ++ [e]) = frames commands h ++ x.2 ∧
      points commands (h ++ [e]) = points commands h ++ [x.1] := by
  simp [frames, points, he]

theorem frames_same {e : PushEvent C} (he : frameOf commands e = none) :
    frames commands (h ++ [e]) = frames commands h ∧
      points commands (h ++ [e]) = points commands h := by
  simp [frames, points, he]

@[simp] theorem Machine.fetch_ring (m : Machine) : m.fetch.ring = m.ring := by
  unfold Machine.fetch
  split
  · rfl
  · dsimp only
    split <;> rfl

@[simp] theorem Machine.fetch_put (m : Machine) : m.fetch.put = m.put := by
  unfold Machine.fetch
  split
  · rfl
  · dsimp only
    split <;> rfl

theorem Tracks.idle (ht : Tracks commands prior h m) (hi : m.get = m.put) :
    m.left = 0 ∧ m.fetched = frames commands h := by
  obtain ⟨rest, hstage, hframes⟩ := ht.stage
  obtain ⟨rfl, hleft⟩ := hstage.idle hi
  exact ⟨hleft, by simpa using hframes⟩

/-- A machine with nothing to fetch. -/
theorem Stage.of_idle (hi : m.get = m.put) (hl : m.left = 0) : Stage m [] :=
  .plain hi Stored.nil ⟨[], [], rfl, hl.symm⟩

theorem Tracks.step {op : Op C} {out : Except Error Answer} (ht : Tracks commands prior h m)
    (he : Effect commands m op out m') : Tracks commands prior (h ++ [⟨m, op, out, m'⟩]) m' := by
  have hsame (hn : frameOf commands ⟨m, op, out, m'⟩ = none) :
      frames commands (h ++ [⟨m, op, out, m'⟩]) = frames commands h ∧
        points commands (h ++ [⟨m, op, out, m'⟩]) = points commands h := frames_same hn
  have hsnoc (x : Nat × List Nat) (hx : frameOf commands ⟨m, op, out, m'⟩ = some x) :
      frames commands (h ++ [⟨m, op, out, m'⟩]) = frames commands h ++ x.2 ∧
        points commands (h ++ [⟨m, op, out, m'⟩]) = points commands h ++ [x.1] := frames_snoc hx
  cases he with
  | refused =>
    have hnone : frameOf commands ⟨m, op, .error ‹_›, m⟩ = none := by
      unfold frameOf
      split
      · simp_all
      · rfl
    obtain ⟨hf, hp⟩ := hsame hnone
    exact ⟨ht.put, ht.low, by rw [hf]; exact ht.stage, ht.since, by rw [hp]; exact ht.serial,
      ht.waiting, ht.moved, ht.fresh⟩
  | frame p hadm hfit =>
    obtain ⟨hf, hp⟩ := hsame rfl
    have hi : m.get = m.put := hadm.idle.trans ht.put.symm
    obtain ⟨hleft, hfetched⟩ := ht.idle hi
    refine ⟨ht.put, ht.low, ⟨[], .of_idle hi hleft, ?_⟩, ht.since, by rw [hp]; exact ht.serial, ?_, ?_, ?_⟩
    · rw [hf, List.append_nil]
      exact hfetched
    · rintro t ⟨⟩ _
      exact ⟨hi, rfl, hfit, fun hn => by cases hn⟩
    · intro t _ hpub
      exact absurd (ht.fresh hadm.pending) (by simpa using hpub)
    · rintro ⟨⟩
  | rewind p hadm hfull hput =>
    obtain ⟨hf, hp⟩ := hsame rfl
    have hi : m.get = m.put := hadm.idle.trans ht.put.symm
    obtain ⟨hleft, hfetched⟩ := ht.idle hi
    refine ⟨ht.put, ht.low, ⟨[], .of_idle hi hleft, ?_⟩, ht.since, by rw [hp]; exact ht.serial, ?_, ?_, ?_⟩
    · rw [hf, List.append_nil]
      exact hfetched
    · rintro t ⟨⟩ _
      exact ⟨hi, rfl, by simp [Ring.rewind], fun _ => hput⟩
    · intro t _ hpub
      exact absurd (ht.fresh hadm.pending) (by simpa using hpub)
    · rintro ⟨⟩
  | @publishFrame intact ticket config p hpub hk hp hend hstored =>
    obtain ⟨hi, hpoint, hlow, -⟩ := ht.waiting ticket hpub.pending hpub.unpublished
    obtain ⟨hleft, hfetched⟩ := ht.idle hi
    have hstart : m.get = ticket.start := by rw [hi, ht.put, hpub.start]
    obtain ⟨hf, hpts⟩ := hsnoc (ticket.point, p.words) (by simp [frameOf, hk, hp])
    refine ⟨rfl, hlow, ⟨p.words, .plain ?_ ?_ ?_, ?_⟩, ?_, ?_, ?_, ?_, ?_⟩
    · show m.get + p.words.length = ticket.put
      rw [hstart, hend, Program.count]
    · show Stored m.words m.get p.words
      rw [hstart]
      exact hstored
    · show Parses m.left p.words
      rw [hleft]
      exact p.parses
    · rw [hf]
      show m.fetched ++ p.words = _
      rw [hfetched]
    · show prior ≤ ticket.point
      have := ht.since
      omega
    · show points commands _ = List.range' (prior + 1) (ticket.point - prior)
      have := ht.since
      rw [hpts, ht.serial, hpoint, Nat.sub_add_comm ht.since, List.range'_1_concat,
        show prior + 1 + (m.ring.issued - prior) = m.ring.issued + 1 by omega]
    · intro t _ hn
      cases hn
    · intro t hpend _
      obtain rfl : ticket = t := Option.some.inj (hpub.pending.symm.trans hpend)
      rfl
    · intro hn
      exact absurd (hpub.pending.symm.trans hn) (by simp)
  | @publishRewind intact ticket config hpub hk hend hword =>
    obtain ⟨hi, hpoint, hlow, hne⟩ := ht.waiting ticket hpub.pending hpub.unpublished
    obtain ⟨hleft, hfetched⟩ := ht.idle hi
    have hstart : m.get = ticket.start := by rw [hi, ht.put, hpub.start]
    obtain ⟨hf, hpts⟩ := hsame (by simp [frameOf, hk])
    refine ⟨rfl, hlow, ⟨[], .jumping rfl hleft ?_ hend ?_, ?_⟩, ht.since, ?_, ?_, ?_, ?_⟩
    · show m.get ≠ 0
      rw [hstart]
      exact hne hk
    · show m.words m.get = jumpZero
      rw [hstart]
      exact hword
    · rw [hf, List.append_nil]
      exact hfetched
    · rw [hpts]
      exact ht.serial
    · intro t _ hn
      cases hn
    · intro t hpend _
      obtain rfl : ticket = t := Option.some.inj (hpub.pending.symm.trans hpend)
      rfl
    · intro hn
      exact absurd (hpub.pending.symm.trans hn) (by simp)
  | waiting =>
    obtain ⟨hf, hp⟩ := hsame rfl
    exact ⟨ht.put, ht.low, by rw [hf]; exact ht.stage, ht.since, by rw [hp]; exact ht.serial,
      ht.waiting, ht.moved, ht.fresh⟩
  | rewound ticket hpub hpend hk hget =>
    obtain ⟨hf, hp⟩ := hsame rfl
    obtain ⟨rest, hstage, hframes⟩ := ht.stage
    refine ⟨ht.put, ht.low, ⟨rest, hstage.of_eq rfl rfl rfl rfl, by rw [hf]; exact hframes⟩, ht.since,
      by rw [hp]; exact ht.serial, ?_, ?_, fun _ => rfl⟩
    · rintro t ⟨⟩
    · rintro t ⟨⟩
  | finished ticket hpend hk =>
    obtain ⟨hf, hp⟩ := hsame rfl
    obtain ⟨rest, hstage, hframes⟩ := ht.stage
    refine ⟨ht.put, ht.low, ⟨rest, hstage.of_eq rfl rfl rfl rfl, by rw [hf]; exact hframes⟩, ht.since,
      by rw [hp]; exact ht.serial, ?_, ?_, fun _ => rfl⟩
    · rintro t ⟨⟩
    · rintro t ⟨⟩
  | fetched =>
    obtain ⟨hf, hp⟩ := hsame rfl
    obtain ⟨rest, hstage, hframes⟩ := ht.stage
    obtain ⟨rest', hstage', heq, -⟩ := hstage.fetch
    refine ⟨by simpa using ht.put, by simpa using ht.low, ⟨rest', hstage', ?_⟩, by simpa using ht.since,
      by rw [hp, Machine.fetch_ring]; exact ht.serial, fun t hpend hpub => ?_,
      by simpa using ht.moved, by simpa using ht.fresh⟩
    · rw [hf, heq]
      exact hframes
    · rw [Machine.fetch_ring] at hpend hpub
      have hw := ht.waiting t hpend hpub
      rw [Machine.fetch_idle hw.1]
      exact hw

/-! ## Runs -/

section

variable {owner epoch channel : Nat} {kind : Kind} {words : Nat → Nat}

theorem tracks_run (hr : Run (step commands) (opened owner epoch channel kind prior words) h m) :
    Tracks commands prior h m := by
  refine hr.invariant (P := fun h m => Tracks commands prior h m) ?_
    fun _ _ _ _ _ ht hs => ht.step (step_effect hs)
  refine ⟨rfl, by simp [opened], ⟨[], .of_idle rfl rfl, rfl⟩, Nat.le_refl _, ?_, ?_, ?_, fun _ => rfl⟩
  · show [] = List.range' (prior + 1) (prior - prior)
    rw [Nat.sub_self]
    rfl
  · rintro t ⟨⟩
  · rintro t ⟨⟩

/-- A prepare writes no word the channel is about to read. -/
theorem Effect.apart {intact : Bool} {config : C} {out : Except Error Answer}
    (he : Effect commands m (.prepare intact config) out m') (ht : Tracks commands prior h m) {i : Nat}
    (hi : m'.words i ≠ m.words i) : ¬ m.StillFetches i := by
  have hidle : m.get = m.put := by
    cases he with
    | refused => exact absurd rfl hi
    | frame p hadm => exact hadm.idle.trans ht.put.symm
    | rewind p hadm => exact hadm.idle.trans ht.put.symm
  rintro ⟨n, -, hn⟩
  have hstay (n : Nat) : Machine.fetch^[n] m = m := by
    induction n with
    | zero => rfl
    | succ n ih => rw [Function.iterate_succ_apply, Machine.fetch_idle hidle, ih]
  rw [hstay n] at hn
  exact hn hidle

/-- What stays while a rewind is pending. -/
structure Held (t : Ticket) (r r' : Ring) : Prop where
  pending : r'.pending = some t
  same : r'.owner = r.owner ∧ r'.epoch = r.epoch ∧ r'.channel = r.channel ∧ r'.kind = r.kind ∧
    r'.issued = r.issued ∧ r'.completed = r.completed ∧ r'.initialized = r.initialized ∧
    r'.failed = r.failed

theorem Held.step {t : Ticket} {r : Ring} {op : Op C} {out : Except Error Answer}
    (hh : Held t r m.ring) (hk : t.kind = .rewind) (he : Effect commands m op out m')
    (hout : out ≠ .ok (.rewound true)) : Held t r m'.ring := by
  have hticket {t' : Ticket} (hp : m.ring.pending = some t') : t' = t :=
    Option.some.inj (hp.symm.trans hh.pending)
  cases he with
  | refused => exact hh
  | frame p hadm => exact absurd (hadm.pending.symm.trans hh.pending) (by simp)
  | rewind p hadm => exact absurd (hadm.pending.symm.trans hh.pending) (by simp)
  | publishFrame p hpub hk' =>
    rw [hticket hpub.pending, hk] at hk'
    cases hk'
  | publishRewind hpub => exact ⟨hh.pending, hh.same⟩
  | waiting => exact hh
  | rewound => exact absurd rfl hout
  | finished ticket hp hk' =>
    rw [hticket hp, hk] at hk'
    cases hk'
  | fetched =>
    rw [Machine.fetch_ring]
    exact hh

theorem held_run {t : Ticket} {m₁ : Machine} (hk : t.kind = .rewind) (h₁ : m₁.ring.pending = some t)
    (hr : Run (step commands) m₁ h m) (hnot : ∀ e ∈ h, e.out ≠ .ok (.rewound true)) :
    Held t m₁.ring m.ring := by
  refine hr.invariant (P := fun h m => (∀ e ∈ h, e.out ≠ .ok (.rewound true)) → Held t m₁.ring m.ring)
    (fun _ => ⟨h₁, rfl, rfl, rfl, rfl, rfl, rfl, rfl, rfl⟩) (fun h m op out m' ih hs hnot => ?_) hnot
  refine (ih fun e he => hnot e (List.mem_append_left _ he)).step hk (step_effect hs) ?_
  exact hnot ⟨m, op, out, m'⟩ (List.mem_append_right _ List.mem_cons_self)

/-- With its checks passed and room left, `prepare` gives a frame. -/
theorem prepare_frame {config : C} {p : Program} (hadm : Admits commands m config p)
    (hfit : m.ring.put + p.count < 1023) :
    (step commands m (.prepare true config)).1 = .ok (.ticket (m.ring.frame p)) := by
  have hvalid : m.ring.valid true = true := by
    simp [Ring.valid, hadm.sound.1, hadm.sound.2]
  have hprepare : Spec (prepare commands true m.get config) m (fun t _ => t = m.ring.frame p)
      (fun _ _ => False) := by
    unfold prepare
    refine .get_bind (.failIf_bind (fun hn => ?_) fun _ => .failIf_bind (fun hn => ?_) fun _ => ?_)
    · rw [hvalid] at hn
      cases hn
    · rcases hn with hn | hn | hn
      · exact hn hadm.pending
      · exact hn hadm.completed
      · exact hn hadm.idle
    refine .failIf_bind (fun hn => ?_) fun _ => .lift_bind (fun e he => ?_) fun p' hp => ?_
    · rcases hn with hn | hn
      · exact hadm.fresh.1 hn
      · exact hn hadm.fresh.2
    · rw [hadm.encode] at he
      cases he
    rw [hadm.encode] at hp
    cases hp
    refine .failIf_bind (fun hn => hadm.serial hn) fun _ => ?_
    dsimp only
    rw [if_neg (by omega)]
    rfl
  have hcall : Spec (call commands (.prepare true config)) m
      (fun a _ => a = .ticket (m.ring.frame p)) (fun _ _ => False) :=
    .get_bind (.seq hprepare (fun _ _ ht => congrArg Answer.ticket ht) fun _ _ hn => hn)
  unfold step outcome
  cases hx : call commands (.prepare true config) m with
  | ok a m' => rw [hcall.ok hx]
  | error e m' => exact (hcall.error hx).elim

/-- The frame that asked for a rewind is prepared at the beginning once the channel took it. -/
theorem again_run {h₁ h₂ h₃ : List (PushEvent C)} {e₁ e₂ : PushEvent C} {i₁ i₂ : Bool} {config : C}
    {t : Ticket}
    (hr : Run (step commands) (opened owner epoch channel kind prior words)
      (h₁ ++ e₁ :: (h₂ ++ e₂ :: h₃)) m)
    (hop₁ : e₁.op = .prepare i₁ config) (hout₁ : e₁.out = .ok (.ticket t)) (hk : t.kind = .rewind)
    (hop₂ : e₂.op = .rewound i₂) (hout₂ : e₂.out = .ok (.rewound true))
    (hnot : ∀ e ∈ h₂, e.out ≠ .ok (.rewound true)) :
    ∃ p t', commands.encode config = .ok p ∧ p.count < 1023 ∧
      (step commands e₂.post (.prepare true config)).1 = .ok (.ticket t') ∧ t'.kind = .frame ∧
      t'.start = 0 ∧ t'.put = p.count ∧ t'.point = t.point := by
  obtain ⟨hpre, hstep⟩ := hr.prior
  rw [List.append_cons] at hr
  obtain ⟨m₁, hr₁, hr₂⟩ := hr.split
  obtain rfl := hr₁.last
  obtain ⟨hrun₂, hstep₂⟩ := hr₂.prior
  have ht₁ := tracks_run hpre
  -- The rewind, and what it leaves.
  have he₁ := step_effect hstep
  obtain ⟨pre₁, op₁, out₁, post₁⟩ := e₁
  dsimp only at hop₁ hout₁ hrun₂ he₁ ht₁ hr₁
  subst hop₁ hout₁
  obtain ⟨p, hadm, rfl, hring⟩ : ∃ p, Admits commands pre₁ config p ∧ t = pre₁.ring.rewind ∧
      post₁.ring = { pre₁.ring with program := none, pending := some pre₁.ring.rewind } := by
    cases he₁ with
    | frame => cases hk
    | rewind p hadm => exact ⟨p, hadm, rfl, rfl⟩
  have hheld := held_run hk (by rw [hring]) hrun₂ hnot
  have ht₂ := tracks_run (hr₁.append hrun₂)
  have he₂ := step_effect hstep₂
  obtain ⟨pre₂, op₂, out₂, post₂⟩ := e₂
  dsimp only at hop₂ hout₂ hheld he₂ ht₂
  subst hop₂ hout₂
  have hcount : p.count < 1023 := Nat.lt_of_le_of_lt p.fits (by decide)
  cases he₂ with
  | rewound ticket hpub hpend hk' hget =>
    obtain rfl : ticket = pre₁.ring.rewind := Option.some.inj (hpend.symm.trans hheld.pending)
    have hput : pre₂.ring.put = 0 := ht₂.moved _ hpend hpub
    obtain ⟨-, -, -, hkind, hissued, hcompleted, hinit, hfailed⟩ := hheld.same
    rw [hring] at hkind hissued hcompleted hinit hfailed
    have hadm₂ : Admits commands { pre₂ with
        ring := { pre₂.ring with pending := none, published := false } } config p :=
      ⟨⟨hfailed.trans hadm.sound.1, ht₂.low⟩, rfl, hissued.trans (hadm.completed.trans hcompleted.symm),
        hget.trans hput.symm, ⟨fun hn => hadm.fresh.1 (hn.trans hinit), hadm.fresh.2.trans hkind.symm⟩,
        hadm.encode, fun hn => hadm.serial (hissued.symm.trans hn)⟩
    refine ⟨p, _, hadm.encode, hcount, prepare_frame hadm₂ ?_, rfl, hput, ?_, ?_⟩
    · show pre₂.ring.put + p.count < 1023
      rw [hput, Nat.zero_add]
      exact hcount
    · show pre₂.ring.put + p.count = p.count
      rw [hput, Nat.zero_add]
    · show pre₂.ring.issued + 1 = pre₁.ring.issued + 1
      rw [hissued]

/-- **Every published frame is fetched exactly once.** Whatever the order of the fetches and the
calls: the words fetched are the words of the published frames in order, all of them once the channel
caught up, which it does; a prepare never writes a word the channel is about to read; the end stays
below the last word; a rewind is only issued for a frame that does not fit before it, and when the
channel took it, that frame is prepared at the beginning with the same point; and the points go up by
one with every frame and not at all with a rewind. -/
theorem frames_run (hr : Run (step commands) (opened owner epoch channel kind prior words) h m) :
    (m.fetched <+: frames commands h ∧ (m.get = m.put → m.fetched = frames commands h) ∧
      ∃ n, (Machine.fetch^[n] m).get = (Machine.fetch^[n] m).put ∧
        (Machine.fetch^[n] m).fetched = frames commands h) ∧
    m.ring.put < 1023 ∧
    (∀ e ∈ h, ∀ intact config, e.op = .prepare intact config →
      (∀ i, e.post.words i ≠ e.pre.words i → ¬ e.pre.StillFetches i) ∧
      ∀ t, e.out = .ok (.ticket t) → t.kind = .rewind →
        ∃ p, commands.encode config = .ok p ∧ 1023 ≤ e.pre.ring.put + p.count) ∧
    (∀ h₁ e₁ h₂ e₂ h₃ i₁ i₂ config t, h = h₁ ++ e₁ :: (h₂ ++ e₂ :: h₃) →
      e₁.op = .prepare i₁ config → e₁.out = .ok (.ticket t) → t.kind = .rewind →
      e₂.op = .rewound i₂ → e₂.out = .ok (.rewound true) →
      (∀ e ∈ h₂, e.out ≠ .ok (.rewound true)) →
      ∃ p t', commands.encode config = .ok p ∧ p.count < 1023 ∧
        (step commands e₂.post (.prepare true config)).1 = .ok (.ticket t') ∧ t'.kind = .frame ∧
        t'.start = 0 ∧ t'.put = p.count ∧ t'.point = t.point) ∧
    points commands h = List.range' (prior + 1) (points commands h).length ∧
    m.ring.issued = prior + (points commands h).length := by
  have ht := tracks_run hr
  obtain ⟨rest, hstage, hframes⟩ := ht.stage
  have hlength : (points commands h).length = m.ring.issued - prior := by
    rw [ht.serial, List.length_range']
  refine ⟨⟨⟨rest, hframes⟩, fun hi => (ht.idle hi).2, ?_⟩, ht.low, ?_, ?_, ?_, ?_⟩
  · rw [← hframes]
    exact hstage.catches_up
  · intro e he intact config hop
    obtain ⟨h₁, h₂, rfl, hpre, hstep⟩ := hr.event he
    have heff := step_effect hstep
    rw [hop] at heff
    refine ⟨fun i hi => heff.apart (tracks_run hpre) hi, fun t hout hk => ?_⟩
    rw [hout] at heff
    generalize e.post = post at heff
    cases heff with
    | frame => cases hk
    | rewind p hadm hfull => exact ⟨p, hadm.encode, hfull⟩
  · rintro h₁ e₁ h₂ e₂ h₃ i₁ i₂ config t rfl hop₁ hout₁ hk hop₂ hout₂ hnot
    exact again_run hr hop₁ hout₁ hk hop₂ hout₂ hnot
  · rw [hlength]
    exact ht.serial
  · have := ht.since
    omega

end

/-! ## A channel with full frames -/

/-- A frame of the largest size; the first one initializes. -/
def fullProgram : Program where
  methods := [⟨0x200, List.replicate 255 jumpZero, by rw [List.length_replicate]; decide⟩]
  fits := by decide +kernel

def fullCommands : Commands Bool where
  initializes := id
  kind := fun _ => .core
  encode := fun _ => .ok fullProgram

/-- A frame from the ticket to its notifier. -/
def fullFrame (config : Bool) (point start : Nat) : List (Op Bool) :=
  [.prepare true config, .publish true ⟨1, 2, 3, point, .frame, start, start + 256⟩ config] ++
    List.replicate 256 .fetch ++ [.finish true point]

/-- Three frames, then the rewind for the fourth. -/
def fullRun : List (PushEvent Bool) × Machine :=
  exec (step fullCommands) (opened 1 2 3 .core 0 fun _ => 0)
    (fullFrame true 1 0 ++ fullFrame false 2 256 ++ fullFrame false 3 512 ++
      [.prepare true false, .publish true ⟨1, 2, 3, 4, .rewind, 768, 0⟩ false, .fetch, .rewound true])

/-- Every data word has the value of a jump, and still three frames are fetched as they are. -/
theorem frames_run_full :
    fullRun.2.fetched = fullProgram.words ++ (fullProgram.words ++ fullProgram.words) ∧
      fullRun.2.get = 0 ∧ fullRun.2.ring.issued = 3 ∧
      (step fullCommands fullRun.2 (.prepare true false)).1 =
        .ok (.ticket ⟨1, 2, 3, 4, .frame, 0, 256⟩) := by
  have hrun : Run (step fullCommands) (opened 1 2 3 .core 0 fun _ => 0) fullRun.1 fullRun.2 :=
    Run.of_exec _ _ _
  obtain ⟨⟨-, hfetched, -⟩, -⟩ := frames_run hrun
  have hend : frames fullCommands fullRun.1 =
        fullProgram.words ++ (fullProgram.words ++ fullProgram.words) ∧
      fullRun.2.get = fullRun.2.put ∧ fullRun.2.get = 0 ∧ fullRun.2.ring.issued = 3 ∧
      (step fullCommands fullRun.2 (.prepare true false)).1 =
        .ok (.ticket ⟨1, 2, 3, 4, .frame, 0, 256⟩) := by decide +kernel
  exact ⟨(hfetched hend.2.1).trans hend.1, hend.2.2⟩

end Display
end NvidiaGsp
