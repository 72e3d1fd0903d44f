import NvidiaGsp.Fifo.Push
import NvidiaGsp.Lib.Triples

/-!
# Fifo.PushSpec

What one call on the command page does. `Effect` lists what a call or a step of the engine can do;
`step_effect` says it is one of these. A prepared job is its ticket, its commands in a slot and the
entries that name them; the ledger keeps the jobs of a history in the order of their publication.
-/

namespace NvidiaGsp
namespace Fifo

open Call Radix

variable {T G : Type} {wire : Wire T G} {payload : List Nat → Nat} {m m' : Machine}

/-- What the ring relies on: the extent check keeps below its limit, and the commands of a job
release its point. -/
structure Laws (wire : Wire T G) (payload : List Nat → Nat) : Prop where
  extent : ∀ address bytes bits, wire.extent address bytes bits = .ok () → address + bytes ≤ 2 ^ bits
  transfer : ∀ objectClass t address point words,
    wire.encodeTransfer objectClass t address point = .ok words → payload words = point
  graphics : ∀ objectClass c address point words,
    wire.encodeGraphics objectClass c address point = .ok words → payload words = point
  completion : ∀ address point words, completion wire address point = .ok words → payload words = point

/-! ## Entries -/

/-- An entry of the ring names `count` words at `address`. -/
structure Names (gp : Nat × Nat) (address count : Nat) : Prop where
  level : isExternal gp = false
  address : entryAddress gp = address
  count : entryCount gp = count

theorem entryWords_names (hl : Laws wire payload) {address count : Nat} {gp : Nat × Nat}
    (h : entryWords wire address count = .ok gp) : Names gp address count := by
  unfold entryWords at h
  split at h
  · cases h
  rename_i hbound
  simp only [not_or] at hbound
  split at h
  · cases h
  rename_i hext
  cases h
  have hlow : address < 2 ^ 40 := by
    have := hl.extent _ _ _ hext
    omega
  have hpage : address >>> 32 < 256 := by
    rw [Nat.shiftRight_eq_div_pow]
    omega
  have hword : address >>> 32 ||| count <<< 10 = count * 2 ^ 10 + address >>> 32 := by
    rw [Nat.or_comm, shiftLeft_or (by omega)]
  have hlevel : (address >>> 32).testBit 9 = false := Nat.testBit_lt_two_pow (by omega)
  have hpagemask (a : Nat) : a &&& 0xff = a % 256 := and_mask a 8
  have hcountmask (a : Nat) : a &&& 0x1fffff = a % 2 ^ 21 := and_mask a 21
  have hhigh : (count * 2 ^ 10 + address >>> 32) % 256 = address >>> 32 := by omega
  refine ⟨?_, ?_, ?_⟩
  · simp [isExternal, Nat.testBit_or, Nat.testBit_shiftLeft, hlevel]
  · unfold entryAddress
    dsimp only
    rw [hword, hpagemask, hhigh, shiftLeft_or (Nat.mod_lt _ (by decide)),
      Nat.shiftRight_eq_div_pow]
    exact Nat.div_add_mod' _ _
  · unfold entryCount
    dsimp only
    rw [hword, hcountmask, Nat.shiftRight_eq_div_pow]
    omega

theorem entry_external {push : Push} {gp : Nat × Nat} (h : entry wire push = .ok gp) :
    isExternal gp = true := by
  unfold entry at h
  split at h
  · cases h
  split at h
  · cases h
  cases h
  have hlevel : (1 <<< 9 : Nat).testBit 9 = true := by decide
  simp only [isExternal, Nat.testBit_or, hlevel, Bool.or_true, Bool.true_or]

/-! ## Words of the page -/

def Kept (words : Nat → Nat) (offset : Nat) (values : List Nat) : Prop :=
  ∀ k v, values[k]? = some v → words (offset + k * 4) = v

def EntryAt (words : Nat → Nat) (index : Nat) (gp : Nat × Nat) : Prop :=
  words (index * 8) = gp.1 ∧ words (index * 8 + 4) = gp.2

theorem store_at (words : Nat → Nat) (offset : Nat) (values : List Nat) :
    Kept (store words offset values) offset values := by
  intro k v hk
  have hindex : (offset + k * 4 - offset) / 4 = k := by omega
  have haligned : (offset + k * 4 - offset) % 4 = 0 := by omega
  rw [store, if_pos ⟨by omega, haligned⟩, hindex, List.getD_eq_getElem?_getD, hk]
  rfl

theorem store_other {words : Nat → Nat} {offset o : Nat} {values : List Nat}
    (h : o < offset ∨ offset + values.length * 4 ≤ o) : store words offset values o = words o := by
  unfold store
  split
  · rename_i hin
    rw [List.getD_eq_default]
    omega
  · rfl

theorem storeEntry_at (words : Nat → Nat) (index : Nat) (gp : Nat × Nat) :
    EntryAt (storeEntry words index gp) index gp := by
  have h := store_at words (index * 8) [gp.1, gp.2]
  exact ⟨h 0 _ rfl, h 1 _ rfl⟩

theorem storeEntry_other {words : Nat → Nat} {index o : Nat} {gp : Nat × Nat}
    (h : o / 8 ≠ index) : storeEntry words index gp o = words o := by
  refine store_other ?_
  simp only [List.length_cons, List.length_nil]
  omega

theorem EntryAt.congr {words words' : Nat → Nat} {index : Nat} {gp : Nat × Nat}
    (h : EntryAt words index gp) (hsame : ∀ o, o / 8 = index → words' o = words o) :
    EntryAt words' index gp := by
  refine ⟨?_, ?_⟩
  · rw [hsame _ (by omega)]
    exact h.1
  · rw [hsame _ (by omega)]
    exact h.2

theorem Kept.congr {words words' : Nat → Nat} {offset : Nat} {values : List Nat}
    (h : Kept words offset values)
    (hsame : ∀ o, offset ≤ o → o < offset + values.length * 4 → words' o = words o) :
    Kept words' offset values := by
  intro k v hk
  obtain ⟨hlt, -⟩ := List.getElem?_eq_some_iff.mp hk
  rw [hsame _ (Nat.le_add_right _ _) (by omega)]
  exact h k v hk

/-- The entries of a batch, from `index` on. -/
def storeEntries (words : Nat → Nat) : Nat → List (Nat × Nat) → Nat → Nat
  | _, [] => words
  | index, gp :: gps => storeEntries (storeEntry words (index % ringEntries) gp) (index + 1) gps

theorem storeEntries_other {words : Nat → Nat} {index o : Nat} {gps : List (Nat × Nat)}
    (h : ∀ k < gps.length, o / 8 ≠ (index + k) % ringEntries) :
    storeEntries words index gps o = words o := by
  induction gps generalizing words index with
  | nil => rfl
  | cons gp gps ih =>
    rw [storeEntries, ih fun k hk => ?_]
    · exact storeEntry_other (h 0 (by simp))
    · have := h (k + 1) (by simpa using hk)
      rwa [Nat.add_assoc, Nat.add_comm 1]

theorem storeEntries_at (words : Nat → Nat) (index : Nat) {gps : List (Nat × Nat)}
    (hfew : gps.length ≤ ringEntries) {k : Nat} {gp : Nat × Nat} (hk : gps[k]? = some gp) :
    EntryAt (storeEntries words index gps) ((index + k) % ringEntries) gp := by
  have hr : ringEntries = 512 := rfl
  induction gps generalizing words index k with
  | nil => simp at hk
  | cons x gps ih =>
    rw [List.length_cons] at hfew
    cases k with
    | zero =>
      obtain rfl : x = gp := by simpa using hk
      refine (storeEntry_at words (index % ringEntries) x).congr fun o ho => ?_
      rw [storeEntries]
      refine storeEntries_other fun i hi => ?_
      rw [ho, hr]
      omega
    | succ k =>
      have := ih (storeEntry words (index % ringEntries) x) (index + 1) (by omega)
        (by simpa using hk)
      rwa [Nat.add_assoc, Nat.add_comm 1] at this

/-! ## Jobs -/

/-- A prepared job: its slot and commands, the entries of the caller and the one of the ring. -/
structure Job where
  ticket : Ticket
  slot : Nat
  commands : List Nat
  gps : List (Nat × Nat)
  tail : Nat × Nat

/-- One entry of a job, and what the engine executes for it. -/
structure Cell where
  gp : Nat × Nat
  item : Item

def Job.cells (j : Job) : List Cell :=
  j.gps.map (fun gp => ⟨gp, .external gp⟩) ++ [⟨j.tail, .internal j.commands⟩]

def Job.items (j : Job) : List Item := j.gps.map .external ++ [.internal j.commands]

theorem Job.cells_item (j : Job) : j.cells.map Cell.item = j.items := by
  simp [Job.cells, Job.items, Function.comp_def]

@[simp] theorem Job.cells_length (j : Job) : j.cells.length = j.gps.length + 1 := by
  simp [Job.cells]

theorem Job.cells_gp {j : Job} {k : Nat} {c : Cell} (h : j.cells[k]? = some c) :
    (k < j.gps.length ∧ j.gps[k]? = some c.gp ∧ c.item = .external c.gp) ∨
      (k = j.gps.length ∧ c.gp = j.tail ∧ c.item = .internal j.commands) := by
  unfold Job.cells at h
  by_cases hk : k < j.gps.length
  · rw [List.getElem?_append_left (by simpa using hk), List.getElem?_map] at h
    obtain ⟨gp, hgp, rfl⟩ := Option.map_eq_some_iff.mp h
    exact .inl ⟨hk, hgp, rfl⟩
  · rw [List.getElem?_append_right (by simpa using hk), List.length_map] at h
    obtain ⟨hlt, heq⟩ := List.getElem?_eq_some_iff.mp h
    rw [List.length_singleton] at hlt
    rw [List.getElem_singleton] at heq
    subst heq
    exact .inr ⟨by omega, rfl, rfl⟩

/-- The entries of the jobs, one after the other. -/
def cells (jobs : List Job) : List Cell := jobs.flatMap Job.cells

theorem cells_item (jobs : List Job) : (cells jobs).map Cell.item = jobs.flatMap Job.items := by
  rw [cells, List.map_flatMap]
  simp only [Job.cells_item]

/-- The job of a single call with these commands. -/
def single (wire : Wire T G) (r : Ring) (channel token : Nat) (commands : List Nat) : Option Job := do
  let tail ← (entryWords wire (r.address + r.pushOffset) commands.length).toOption
  some ⟨⟨r.owner, r.epoch, channel, token, r.issued + 1, (r.put + 1) % 512⟩, r.pushOffset, commands,
    [], tail⟩

/-- The job a prepare is asked for. -/
def drafted (wire : Wire T G) (r : Ring) : Op T G → Option Job
  | .prepare _ objectClass channel token transfer => do
    let commands ← (wire.encodeTransfer objectClass transfer (r.address + completionOffset)
      (r.issued + 1)).toOption
    single wire r channel token commands
  | .prepareGraphics _ objectClass channel token command => do
    let commands ← (wire.encodeGraphics objectClass command (r.address + completionOffset)
      (r.issued + 1)).toOption
    single wire r channel token commands
  | .prepareBatch _ channel token pushes => do
    let gps ← pushes.mapM fun push => (entry wire push).toOption
    let commands ← (completion wire (r.address + completionOffset) (r.issued + 1)).toOption
    let tail ← (entryWords wire (r.address + r.pushOffset) commands.length).toOption
    some ⟨⟨r.owner, r.epoch, channel, token, r.issued + 1, (r.put + pushes.length + 1) % 512⟩,
      r.pushOffset, commands, gps, tail⟩
  | _ => none

abbrev PushEvent (T G : Type) := Event Machine (Op T G) (Except Error Answer)

/-- The published jobs, and the prepared one. -/
structure Ledger where
  jobs : List Job := []
  draft : Option Job := none

def Ledger.advance (wire : Wire T G) (l : Ledger) (e : PushEvent T G) : Ledger :=
  match e.out with
  | .error _ => l
  | .ok _ =>
    match e.op with
    | .publish _ ticket =>
      { jobs := l.jobs ++ (l.draft.filter fun j => decide (j.ticket = ticket)).toList }
    | op =>
      match drafted wire e.pre.ring op with
      | some j => { l with draft := some j }
      | none => l

def ledger (wire : Wire T G) (h : List (PushEvent T G)) : Ledger :=
  h.foldl (Ledger.advance wire) {}

/-- The jobs published in a history, in order. -/
def published (wire : Wire T G) (h : List (PushEvent T G)) : List Job := (ledger wire h).jobs

@[simp] theorem ledger_snoc (h : List (PushEvent T G)) (e : PushEvent T G) :
    ledger wire (h ++ [e]) = (ledger wire h).advance wire e := by
  simp [ledger]

/-- The tickets of the successful publishes. -/
def tickets (h : List (PushEvent T G)) : List Ticket :=
  h.filterMap fun e =>
    match e.op, e.out with
    | .publish _ ticket, .ok _ => some ticket
    | _, _ => none

/-! ## What a call does -/

/-- The checks of a prepare pass. -/
structure Admits (payload : List Nat → Nat) (m : Machine) (j : Job) (batch : Bool) : Prop where
  pending : m.ring.pending = none
  released : m.ring.batchPoint = 0
  room : m.ring.issued - m.ring.completed < m.ring.capacity
  serial : m.ring.issued ≠ maxU32
  drained : batch = true → m.ring.issued = m.ring.completed
  alone : batch = false → j.gps = []
  few : j.gps.length ≤ batchCapacity
  external : ∀ gp ∈ j.gps, isExternal gp = true
  names : Names j.tail (m.ring.address + j.slot) j.commands.length
  slot : j.slot = m.ring.pushOffset
  fits : j.commands.length * 4 ≤ m.ring.slotBytes
  payload : payload j.commands = m.ring.issued + 1
  point : j.ticket.point = m.ring.issued + 1
  next : j.ticket.put = (m.ring.put + j.gps.length + 1) % ringEntries

def Machine.write (m : Machine) (j : Job) (batch : Bool) : Machine :=
  { m with
    words := storeEntry (store (storeEntries m.words m.ring.put j.gps) j.slot j.commands)
      ((m.ring.put + j.gps.length) % ringEntries) j.tail
    ring := { m.ring with
      pendingBatch := batch, batchEntries := j.gps.length, pending := some j.ticket } }

def Machine.move (m : Machine) (ticket : Ticket) : Machine :=
  { m with
    words := Function.update m.words putOffset ticket.put
    ring := { m.ring with
      published := true
      issued := ticket.point
      put := ticket.put
      batchPoint := if m.ring.pendingBatch then ticket.point else m.ring.batchPoint } }

def Machine.complete (m : Machine) (point : Nat) : Machine :=
  { m with ring := { m.ring with
      completed := point
      batchPoint :=
        if m.ring.batchPoint ≠ 0 ∧ point ≥ m.ring.batchPoint then 0 else m.ring.batchPoint } }

inductive Effect (wire : Wire T G) (payload : List Nat → Nat) (m : Machine) :
    Op T G → Except Error Answer → Machine → Prop where
  | refused {op : Op T G} {e : Error} : Effect wire payload m op (.error e) m
  | prepared {op : Op T G} (j : Job) (batch : Bool) (hd : drafted wire m.ring op = some j)
      (h : Admits payload m j batch) :
      Effect wire payload m op (.ok (.ticket j.ticket)) (m.write j batch)
  | published {intact : Bool} {ticket : Ticket} (hpend : m.ring.pending = some ticket)
      (hpub : m.ring.published = false) :
      Effect wire payload m (.publish intact ticket) (.ok .done) (m.move ticket)
  | aborted {intact : Bool} {ticket : Ticket} (hpend : m.ring.pending = some ticket)
      (hpub : m.ring.published = false) :
      Effect wire payload m (.abortUnpublished intact ticket) (.ok .done)
        { m with ring := { m.ring with pending := none } }
  | notified {intact : Bool} {ticket : Ticket} (hpend : m.ring.pending = some ticket)
      (hpub : m.ring.published = true) :
      Effect wire payload m (.notified intact ticket) (.ok .done)
        { m with ring := { m.ring with pending := none, published := false, pendingBatch := false } }
  | broken {intact : Bool}
      (h : m.words completionOffset < m.ring.completed ∨ m.words completionOffset > m.ring.issued) :
      Effect wire payload m (.poll intact) (.error .Completion)
        { m with ring := { m.ring with failed := true } }
  | polled {intact : Bool} (hlow : m.ring.completed ≤ m.words completionOffset)
      (hhigh : m.words completionOffset ≤ m.ring.issued) :
      Effect wire payload m (.poll intact) (.ok (.point (m.words completionOffset)))
        (m.complete (m.words completionOffset))
  | fetched : Effect wire payload m .fetch (.ok .done) m.fetch
  | loaded {i k : Nat} : Effect wire payload m (.load i k) (.ok .done) (m.load i k)
  | executed : Effect wire payload m .execute (.ok .done) (m.execute payload)

theorem nextPoint_spec {intact : Bool} :
    Spec (nextPoint intact) m
      (fun point m' => m' = m ∧ point = m.ring.issued + 1 ∧ m.ring.pending = none ∧
        m.ring.batchPoint = 0 ∧ m.ring.issued - m.ring.completed < m.ring.capacity ∧
        m.ring.issued ≠ maxU32)
      (fun _ m' => m' = m) := by
  unfold nextPoint
  refine .get_bind (.failIf_bind (fun _ => rfl) fun hvalid => .failIf_bind (fun _ => rfl) fun hbusy => ?_)
  refine .failIf_bind (fun _ => rfl) fun hserial => .pure ?_
  simp only [not_or, Decidable.not_not, not_le] at hbusy
  exact ⟨rfl, rfl, hbusy.1, hbusy.2.1, hbusy.2.2, hserial⟩

theorem prepareWords_effect (hl : Laws wire payload) (hput : m.ring.put < ringEntries)
    {channel token : Nat} {commands : List Nat} {op : Op T G}
    (hpend : m.ring.pending = none) (hbatch : m.ring.batchPoint = 0)
    (hroom : m.ring.issued - m.ring.completed < m.ring.capacity) (hserial : m.ring.issued ≠ maxU32)
    (hpay : payload commands = m.ring.issued + 1)
    (hd : drafted wire m.ring op = single wire m.ring channel token commands) :
    Spec (prepareWords wire channel token (m.ring.issued + 1) commands) m
      (fun t m' => Effect wire payload m op (.ok (.ticket t)) m') (fun _ m' => m' = m) := by
  unfold prepareWords
  refine .get_bind (.failIf_bind (fun _ => rfl) fun hfit => .lift_bind (fun _ _ => rfl) fun gp hgp => ?_)
  simp only [not_or, not_lt] at hfit
  have hmod : (m.ring.put + 0) % ringEntries = m.ring.put := Nat.mod_eq_of_lt hput
  have hsingle : single wire m.ring channel token commands =
      some ⟨⟨m.ring.owner, m.ring.epoch, channel, token, m.ring.issued + 1, (m.ring.put + 1) % 512⟩,
        m.ring.pushOffset, commands, [], gp⟩ := by
    unfold single
    rw [hgp]
    rfl
  have he : Effect wire payload m op _ _ := .prepared _ false (hd.trans hsingle)
    { pending := hpend
      released := hbatch
      room := hroom
      serial := hserial
      drained := fun hn => absurd hn (by simp)
      alone := fun _ => rfl
      few := by simp
      external := by simp
      names := entryWords_names hl hgp
      slot := rfl
      fits := by
        have := hfit.2
        dsimp only
        omega
      payload := hpay
      point := rfl
      next := rfl }
  unfold Machine.write at he
  rw [List.length_nil, hmod] at he
  exact he

theorem prepareJob_effect (hl : Laws wire payload) (hput : m.ring.put < ringEntries) {kind : Kind}
    {encode : Nat → Nat → Except Error (List Nat)} {intact : Bool} {channel token : Nat} {op : Op T G}
    (hpay : ∀ address point words, encode address point = .ok words → payload words = point)
    (hd : drafted wire m.ring op =
      (encode (m.ring.address + completionOffset) (m.ring.issued + 1)).toOption.bind
        (single wire m.ring channel token)) :
    Spec (prepareJob wire kind encode intact channel token) m
      (fun t m' => Effect wire payload m op (.ok (.ticket t)) m') (fun _ m' => m' = m) := by
  unfold prepareJob
  refine .get_bind (.failIf_bind (fun _ => rfl) fun _ => .seq nextPoint_spec ?_ fun _ _ h => h)
  rintro point m₁ ⟨rfl, rfl, hpend, hbatch, hroom, hserial⟩
  refine .lift_bind (fun _ _ => rfl) fun commands hc => ?_
  rw [hc] at hd
  exact prepareWords_effect hl hput hpend hbatch hroom hserial (hpay _ _ _ hc) hd

theorem validateEntries_ok {pushes : List Push} (h : validateEntries wire pushes = .ok ()) :
    ∀ push ∈ pushes, ∃ gp, entry wire push = .ok gp := by
  induction pushes with
  | nil => simp
  | cons x rest ih =>
    unfold validateEntries at h
    split at h
    · cases h
    rename_i gp hgp
    intro push hp
    rcases List.mem_cons.mp hp with rfl | hp
    · exact ⟨gp, hgp⟩
    · exact ih h push hp

/-- Validated pushes are all written. -/
theorem writeEntries_spec {pushes : List Push} (h : ∀ push ∈ pushes, ∃ gp, entry wire push = .ok gp)
    (index : Nat) :
    Spec (writeEntries wire index pushes) m
      (fun _ m' => ∃ gps, pushes.mapM (fun push => (entry wire push).toOption) = some gps ∧
        gps.length = pushes.length ∧ (∀ gp ∈ gps, isExternal gp = true) ∧
        m' = { m with words := storeEntries m.words index gps })
      (fun _ _ => False) := by
  induction pushes generalizing m index with
  | nil => exact .pure ⟨[], rfl, rfl, by simp, rfl⟩
  | cons push rest ih =>
    obtain ⟨gp, hgp⟩ := h push List.mem_cons_self
    unfold writeEntries
    refine .lift_bind (fun e he => ?_) fun gp' hgp' => ?_
    · rw [hgp] at he
      cases he
    obtain rfl : gp = gp' := Except.ok.inj (hgp.symm.trans hgp')
    have htail := ih (m := { m with words := storeEntry m.words (index % ringEntries) gp })
      (fun push hp => h push (List.mem_cons_of_mem _ hp)) (index + 1)
    refine htail.mono ?_ fun _ _ hn => hn
    rintro _ m₁ ⟨gps, hmap, hlen, hext, rfl⟩
    refine ⟨gp :: gps, ?_, by simp [hlen], ?_, rfl⟩
    · rw [List.mapM_cons, hgp, hmap]
      rfl
    · intro x hx
      rcases List.mem_cons.mp hx with rfl | hx
      · exact entry_external hgp
      · exact hext x hx

theorem validate_ok {pushes : List Push} (h : validate wire pushes = .ok ()) :
    pushes.length ≤ batchCapacity ∧ ∀ push ∈ pushes, ∃ gp, entry wire push = .ok gp := by
  unfold validate at h
  split at h
  · cases h
  split at h
  · cases h
  · exact ⟨by omega, validateEntries_ok h⟩

theorem completion_length {address point : Nat} {words : List Nat}
    (h : completion wire address point = .ok words) : words.length = 13 := by
  unfold completion at h
  split at h
  · cases h
  split at h
  · cases h
  · cases h
    rfl

theorem slotBytes_ge (r : Ring) : 256 ≤ r.slotBytes := by
  unfold Ring.slotBytes
  split <;> omega

theorem prepareBatch_effect (hl : Laws wire payload) {intact : Bool} {channel token : Nat}
    {pushes : List Push} :
    Spec (prepareBatch wire intact channel token pushes) m
      (fun t m' => Effect wire payload m (.prepareBatch intact channel token pushes)
        (.ok (.ticket t)) m')
      (fun _ m' => m' = m) := by
  unfold prepareBatch
  refine .seq nextPoint_spec ?_ fun _ _ h => h
  rintro point m₁ ⟨rfl, rfl, hpend, hbatch, hroom, hserial⟩
  refine .get_bind (.failIf_bind (fun _ => rfl) fun hidle => ?_)
  refine .lift_bind (fun _ _ => rfl) fun _ hv => .lift_bind (fun _ _ => rfl) fun commands hc => ?_
  refine .lift_bind (fun _ _ => rfl) fun tail ht => ?_
  obtain ⟨hfew, hentries⟩ := validate_ok hv
  refine .seq (writeEntries_spec hentries _) ?_ fun _ _ hn => hn.elim
  rintro _ m₂ ⟨gps, hmap, hlen, hext, rfl⟩
  have hidle : m₁.ring.idle intact = true := by simpa using hidle
  simp only [Ring.idle, Bool.and_eq_true, decide_eq_true_eq] at hidle
  have hd : drafted wire m₁.ring (.prepareBatch intact channel token pushes) =
      some ⟨⟨m₁.ring.owner, m₁.ring.epoch, channel, token, m₁.ring.issued + 1,
        (m₁.ring.put + pushes.length + 1) % 512⟩, m₁.ring.pushOffset, commands, gps, tail⟩ := by
    have hwords : (Except.ok commands : Except Error (List Nat)).toOption = some commands := rfl
    have hgp : (Except.ok tail : Except Error (Nat × Nat)).toOption = some tail := rfl
    simp only [drafted, hmap, hc, hwords, ht, hgp, Option.bind_eq_bind, Option.bind_some]
  have hticket : ((m₁.ring.put + pushes.length) % ringEntries + 1) % ringEntries =
      (m₁.ring.put + pushes.length + 1) % 512 := Nat.mod_add_mod _ _ _
  have he : Effect wire payload m₁ _ _ _ := .prepared _ true hd
    { pending := hpend
      released := hbatch
      room := hroom
      serial := hserial
      drained := fun _ => hidle.2
      alone := fun hn => absurd hn (by simp)
      few := by
        dsimp only
        omega
      external := hext
      names := entryWords_names hl ht
      slot := rfl
      fits := by
        have := slotBytes_ge m₁.ring
        have := completion_length hc
        dsimp only
        omega
      payload := hl.completion _ _ _ hc
      point := rfl
      next := by
        dsimp only
        rw [hlen]
        rfl }
  unfold Machine.write at he
  dsimp only at he
  rw [hlen] at he
  show Effect wire payload m₁ _ (.ok (.ticket ⟨_, _, _, _, _, _⟩)) _
  rw [hticket]
  exact he

theorem matches_true {r : Ring} {intact : Bool} {ticket : Ticket}
    (h : ¬ r.matches intact ticket = false) : r.pending = some ticket ∧ r.published = false := by
  have h : r.matches intact ticket = true := by simpa using h
  simp only [Ring.matches, Bool.and_eq_true, decide_eq_true_eq, Bool.not_eq_true'] at h
  exact ⟨h.1.2, h.2⟩

theorem publish_effect {intact : Bool} {ticket : Ticket} :
    Spec (publish intact ticket) m
      (fun _ m' => Effect wire payload m (.publish intact ticket) (.ok .done) m')
      (fun _ m' => m' = m) := by
  unfold publish
  refine .get_bind (.failIf_bind (fun _ => rfl) fun hmatch => ?_)
  exact .published (matches_true hmatch).1 (matches_true hmatch).2

theorem abortUnpublished_effect {intact : Bool} {ticket : Ticket} :
    Spec (abortUnpublished intact ticket) m
      (fun _ m' => Effect wire payload m (.abortUnpublished intact ticket) (.ok .done) m')
      (fun _ m' => m' = m) := by
  unfold abortUnpublished
  refine .get_bind (.failIf_bind (fun _ => rfl) fun hmatch => .failIf_bind (fun _ => rfl) fun _ => ?_)
  simp only [not_or] at hmatch
  exact .aborted (matches_true hmatch.1).1 (matches_true hmatch.1).2

theorem notified_effect {intact : Bool} {ticket : Ticket} :
    Spec (notified intact ticket) m
      (fun _ m' => Effect wire payload m (.notified intact ticket) (.ok .done) m')
      (fun _ m' => m' = m) := by
  unfold notified
  refine .get_bind (.failIf_bind (fun _ => rfl) fun hcheck => ?_)
  simp only [not_or, Decidable.not_not] at hcheck
  exact .notified hcheck.2.2 (by simpa using hcheck.2.1)

theorem poll_effect {intact : Bool} :
    Spec (poll intact) m
      (fun point m' => Effect wire payload m (.poll intact) (.ok (.point point)) m')
      (fun e m' => Effect wire payload m (.poll intact) (.error e) m') := by
  unfold poll
  refine .get_bind (.failIf_bind (fun _ => .refused) fun _ => ?_)
  dsimp only
  split
  · rename_i hout
    exact .broken hout
  · rename_i hin
    exact .polled (by omega) (by omega)

theorem step_effect (hl : Laws wire payload) (hput : m.ring.put < ringEntries) {op : Op T G}
    {out : Except Error Answer} (h : step wire payload m op = (out, m')) :
    Effect wire payload m op out m' := by
  have hspec : Spec (call wire payload op) m (fun a m' => Effect wire payload m op (.ok a) m')
      (fun e m' => Effect wire payload m op (.error e) m') := by
    have refused {op : Op T G} (e : Error) (m' : Machine) (hm : m' = m) :
        Effect wire payload m op (.error e) m' := hm ▸ .refused
    cases op with
    | prepare intact objectClass channel token transfer =>
      exact .seq (prepareJob_effect hl hput (hl.transfer objectClass transfer) rfl)
        (fun _ _ h => h) refused
    | prepareGraphics intact objectClass channel token command =>
      exact .seq (prepareJob_effect hl hput (hl.graphics objectClass command) rfl)
        (fun _ _ h => h) refused
    | prepareBatch intact channel token pushes =>
      exact .seq (prepareBatch_effect hl) (fun _ _ h => h) refused
    | publish intact ticket => exact .seq publish_effect (fun _ _ h => h) refused
    | abortUnpublished intact ticket =>
      exact .seq abortUnpublished_effect (fun _ _ h => h) refused
    | notified intact ticket => exact .seq notified_effect (fun _ _ h => h) refused
    | poll intact => exact .seq poll_effect (fun _ _ h => h) fun _ _ h => h
    | fetch => exact .fetched
    | load i k => exact .loaded
    | execute => exact .executed
  unfold step outcome at h
  cases hx : call wire payload op m with
  | ok a m₁ =>
    rw [hx] at h
    cases h
    exact hspec.ok hx
  | error e m₁ =>
    rw [hx] at h
    cases h
    exact hspec.error hx

end Fifo
end NvidiaGsp
