import NvidiaGsp.Fifo.PushInv
import NvidiaGsp.Lib.Runs

/-!
# Fifo.PushRuns

Every published job is executed once, as it was prepared. `Sourced` says where the jobs of the ledger
come from, `jobs_run` joins it with the invariant, and `release` is a batch behind single jobs.
-/

namespace NvidiaGsp
namespace Fifo

open Call Blocks

variable {T G : Type} {wire : Wire T G} {payload : List Nat → Nat} {m m' : Machine}

/-! ## Runs -/

/-- The calls that prepare a job. -/
def Op.prepares : Op T G → Bool
  | .prepare .. | .prepareGraphics .. | .prepareBatch .. => true
  | _ => false

/-- The steps of the engine. -/
def Op.engine : Op T G → Bool
  | .fetch | .load .. | .execute => true
  | _ => false

/-- The job was drafted by a prepare of the history. -/
def Prepared (wire : Wire T G) (h : List (PushEvent T G)) (j : Job) : Prop :=
  ∃ e ∈ h, e.op.prepares = true ∧ drafted wire e.pre.ring e.op = some j ∧ e.out = .ok (.ticket j.ticket)

theorem Prepared.snoc {h : List (PushEvent T G)} {e : PushEvent T G} {j : Job}
    (hp : Prepared wire h j) : Prepared wire (h ++ [e]) j := by
  obtain ⟨e', he', hrest⟩ := hp
  exact ⟨e', List.mem_append_left _ he', hrest⟩

theorem prepares_of_drafted {r : Ring} {op : Op T G} {j : Job} (h : drafted wire r op = some j) :
    op.prepares = true := by
  cases op <;> first | rfl | cases h

/-- Every job of the ledger comes from a prepare, and the published ones from a publish. -/
structure Sourced (wire : Wire T G) (h : List (PushEvent T G)) (l : Ledger) : Prop where
  ordered : l.jobs.map Job.ticket = tickets h
  jobs : ∀ j ∈ l.jobs, Prepared wire h j
  draft : ∀ j, l.draft = some j → Prepared wire h j

theorem tickets_snoc (h : List (PushEvent T G)) (e : PushEvent T G) :
    tickets (h ++ [e]) = tickets h ++ tickets [e] := by
  simp [tickets, List.filterMap_append]

theorem Sourced.step {h : List (PushEvent T G)} {l : Ledger} {op : Op T G}
    {out : Except Error Answer} (hs : Sourced wire h l) (ht : Tracks payload l m)
    (he : Effect wire payload m op out m') :
    Sourced wire (h ++ [⟨m, op, out, m'⟩]) (l.advance wire ⟨m, op, out, m'⟩) := by
  have hsame (htickets : tickets [(⟨m, op, out, m'⟩ : PushEvent T G)] = [])
      (hl : l.advance wire ⟨m, op, out, m'⟩ = l) :
      Sourced wire (h ++ [⟨m, op, out, m'⟩]) (l.advance wire ⟨m, op, out, m'⟩) := by
    rw [hl]
    refine ⟨?_, fun j hj => (hs.jobs j hj).snoc, fun j hj => (hs.draft j hj).snoc⟩
    rw [tickets_snoc, htickets, List.append_nil, hs.ordered]
  cases he with
  | refused => exact hsame (by cases op <;> rfl) rfl
  | prepared j batch hd h' =>
    have hl : l.advance wire ⟨m, op, .ok (.ticket j.ticket), m.write j batch⟩ =
        { l with draft := some j } := by
      cases op <;> first | cases hd | simp only [Ledger.advance, hd]
    rw [hl]
    refine ⟨?_, fun x hx => (hs.jobs x hx).snoc, fun x hx => ?_⟩
    · have hnone : tickets [(⟨m, op, .ok (.ticket j.ticket), m.write j batch⟩ : PushEvent T G)] = [] := by
        cases op <;> first | cases hd | rfl
      rw [tickets_snoc, hnone, List.append_nil, hs.ordered]
    · obtain rfl : j = x := Option.some.inj hx
      exact ⟨_, List.mem_append_right _ List.mem_cons_self, prepares_of_drafted hd, hd, rfl⟩
  | @published intact ticket hpend hpub =>
    obtain ⟨j, hj, hticket, -⟩ := ht.waiting ticket hpend hpub
    have hl : l.advance wire ⟨m, .publish intact ticket, .ok .done, m.move ticket⟩ =
        { jobs := l.jobs ++ [j] } := by
      simp [Ledger.advance, hj, hticket]
    rw [hl]
    refine ⟨?_, fun x hx => ?_, fun x hx => by cases hx⟩
    · rw [tickets_snoc, List.map_append, hs.ordered, List.map_singleton, hticket]
      rfl
    · rcases List.mem_append.mp hx with hx | hx
      · exact (hs.jobs x hx).snoc
      · obtain rfl := List.mem_singleton.mp hx
        exact (hs.draft x hj).snoc
  | aborted => exact hsame rfl rfl
  | notified => exact hsame rfl rfl
  | broken => exact hsame rfl rfl
  | polled => exact hsame rfl rfl
  | fetched => exact hsame rfl rfl
  | loaded => exact hsame rfl rfl
  | executed => exact hsame rfl rfl

section

variable {owner epoch address : Nat} {kind : Kind} {h : List (PushEvent T G)}

theorem tracks_run (hl : Laws wire payload)
    (hr : Run (step wire payload) (opened owner epoch address kind) h m) :
    Tracks payload (ledger wire h) m ∧ Sourced wire h (ledger wire h) := by
  refine hr.invariant (P := fun h m => Tracks payload (ledger wire h) m ∧ Sourced wire h (ledger wire h))
    ?_ fun h m op out m' ih hs => ?_
  · refine ⟨{
      issued := rfl
      fine := by
        intro i j hj
        cases hj
      put := rfl
      moved := rfl
      done := ⟨Nat.le_refl _, Nat.le_refl _⟩
      room := Nat.zero_le _
      serial := Nat.zero_le _
      singles := by
        intro _ i j _ hj
        cases hj
      batch := fun hn => absurd rfl hn
      kept := by
        intro i j _ hj
        cases hj
      placed := by
        intro n c _ hc
        cases hc
      executed := rfl
      reached := ⟨Nat.le_refl _, fun hn => absurd hn (Nat.lt_irrefl _)⟩
      fetched := Nat.le_refl _
      get := rfl
      queue := by
        intro i f hf
        cases hf
      waiting := by
        rintro t ⟨⟩
      fresh := fun _ => rfl }, rfl, ?_, ?_⟩
    · intro j hj
      cases hj
    · intro j hj
      cases hj
  · have he := step_effect hl ih.1.below hs
    rw [ledger_snoc]
    exact ⟨ih.1.step he, ih.2.step ih.1 he⟩

/-- Nothing is left to execute once the engine reached PUT with an empty queue. -/
theorem Tracks.idle {l : Ledger} (ht : Tracks payload l m) (hq : m.queue = [])
    (hput : m.get = m.words putOffset) : m.executed.length = (cells l.jobs).length := by
  have hr : ringEntries = 512 := rfl
  have hcap : batchCapacity = 510 := rfl
  have hget := ht.get
  have htotal := ht.total
  have hlow := start_mono (f := Job.cells) l.jobs ht.done.1
  have hreached := ht.reached.1
  have hfetched := ht.fetched
  have hroom : m.ring.issued ≤ m.ring.completed + 16 := by
    have := ht.room
    unfold Ring.capacity at this
    split at this <;> omega
  rw [hput, ht.moved, ht.put, hq, List.length_nil, hr] at hget
  rw [hq, List.length_nil] at hfetched
  split at htotal <;> omega

theorem Machine.fetch_ring (m : Machine) : m.fetch.ring = m.ring := by
  unfold Machine.fetch
  split <;> rfl

theorem Machine.load_ring (m : Machine) (i k : Nat) : (m.load i k).ring = m.ring := by
  unfold Machine.load
  split
  · rfl
  · split <;> rfl

theorem Machine.execute_ring (m : Machine) : (m.execute payload).ring = m.ring := by
  unfold Machine.execute
  split
  · rfl
  · split
    · rfl
    · split <;> rfl

/-- A failed ring refuses every call. -/
theorem failed_call {op : Op T G} (hf : m.ring.failed = true) (hop : op.engine = false) :
    Spec (call wire payload op) m (fun _ _ => False) (fun _ m' => m' = m) := by
  have hvalid (intact : Bool) : m.ring.valid intact = false := by
    rw [Ring.valid, hf]
    simp
  have hmatch (intact : Bool) (ticket : Ticket) : m.ring.matches intact ticket = false := by
    rw [Ring.matches, hvalid]
    rfl
  have hnext (intact : Bool) : Spec (nextPoint intact) m (fun _ _ => False) (fun _ m' => m' = m) := by
    unfold nextPoint
    exact .get_bind (.failIf_bind (fun _ => rfl) fun hn => absurd (hvalid intact) hn)
  cases op with
  | prepare intact objectClass channel token transfer =>
    exact .stop (.get_bind (.failIf_bind (fun _ => rfl) fun _ => .stop (hnext intact)))
  | prepareGraphics intact objectClass channel token command =>
    exact .stop (.get_bind (.failIf_bind (fun _ => rfl) fun _ => .stop (hnext intact)))
  | prepareBatch intact channel token pushes => exact .stop (.stop (hnext intact))
  | publish intact ticket =>
    refine .stop (.get_bind (.failIf_bind (fun _ => rfl) fun hn => ?_))
    exact absurd (hmatch intact ticket) hn
  | abortUnpublished intact ticket =>
    refine .stop (.get_bind (.failIf_bind (fun _ => rfl) fun hn => ?_))
    exact absurd (.inl (hmatch intact ticket)) hn
  | notified intact ticket =>
    refine .stop (.get_bind (.failIf_bind (fun _ => rfl) fun hn => ?_))
    exact absurd (.inl (hvalid intact)) hn
  | poll intact =>
    refine .stop (.get_bind (.failIf_bind (fun _ => rfl) fun hn => ?_))
    exact absurd (hvalid intact) hn
  | fetch => cases hop
  | load i k => cases hop
  | execute => cases hop

theorem failed_step {op : Op T G} {out : Except Error Answer} (hf : m.ring.failed = true)
    (hs : step wire payload m op = (out, m')) :
    m'.ring = m.ring ∧ (op.engine = false → ∃ e, out = .error e) := by
  cases hop : op.engine with
  | false =>
    have hspec : Spec (call wire payload op) m (fun _ _ => False) (fun _ m' => m' = m) :=
      failed_call hf hop
    unfold step outcome at hs
    cases hx : call wire payload op m with
    | ok a m₁ => exact (hspec.ok hx).elim
    | error e m₁ =>
      rw [hx] at hs
      cases hs
      rw [hspec.error hx]
      exact ⟨rfl, fun _ => ⟨e, rfl⟩⟩
  | true =>
    refine ⟨?_, fun hn => by cases hn⟩
    cases op with
    | fetch =>
      cases hs
      exact m.fetch_ring
    | load i k =>
      cases hs
      exact m.load_ring i k
    | execute =>
      cases hs
      exact m.execute_ring
    | _ => cases hop

theorem failed_run (hf : m.ring.failed = true) (hr : Run (step wire payload) m h m') :
    m'.ring = m.ring ∧ ∀ e ∈ h, e.op.engine = false → ∃ err, e.out = .error err := by
  refine hr.invariant
    (P := fun h m' => m'.ring = m.ring ∧ ∀ e ∈ h, e.op.engine = false → ∃ err, e.out = .error err)
    ⟨rfl, by simp⟩ fun h s op out s' ih hs => ?_
  obtain ⟨hring, hout⟩ := failed_step (ih.1 ▸ hf) hs
  refine ⟨hring.trans ih.1, fun e he => ?_⟩
  rcases List.mem_append.mp he with he | he
  · exact ih.2 e he
  · obtain rfl := List.mem_singleton.mp he
    exact hout

/-- A completion word outside of what was published fails the ring for good. -/
theorem poll_broken (hf : m.ring.failed = false)
    (hout : m.words completionOffset < m.ring.completed ∨ m.ring.issued < m.words completionOffset) :
    step wire payload m (.poll true) =
      (.error .Completion, { m with ring := { m.ring with failed := true } }) := by
  have hvalid : m.ring.valid true = true := by
    rw [Ring.valid, hf]
    rfl
  have hpoll : Spec (poll true) m (fun _ _ => False)
      (fun e m' => e = .Completion ∧ m' = { m with ring := { m.ring with failed := true } }) := by
    unfold poll
    refine .get_bind (.failIf_bind (fun hn => ?_) fun _ => ?_)
    · rw [hvalid] at hn
      cases hn
    · dsimp only
      rw [if_pos hout]
      exact ⟨rfl, rfl⟩
  have hcall : Spec (call wire payload (.poll true)) m (fun _ _ => False)
      (fun e m' => e = .Completion ∧ m' = { m with ring := { m.ring with failed := true } }) :=
    .stop hpoll
  unfold step outcome
  cases hx : call wire payload (.poll true) m with
  | ok a m₁ => exact (hcall.ok hx).elim
  | error e m₁ =>
    obtain ⟨rfl, rfl⟩ := hcall.error hx
    rfl

theorem Tracks.points {l : Ledger} (ht : Tracks payload l m) :
    l.jobs.map (fun j => j.ticket.point) = List.range' 1 m.ring.issued := by
  refine List.ext_getElem? fun i => ?_
  rw [List.getElem?_map]
  rcases Nat.lt_or_ge i m.ring.issued with hi | hi
  · have hj := List.getElem?_eq_getElem (ht.issued ▸ hi)
    rw [hj, List.getElem?_range' hi, Option.map_some, (ht.fine _ _ hj).point, Nat.one_mul,
      Nat.add_comm]
  · rw [List.getElem?_eq_none (by rw [ht.issued]; exact hi), List.getElem?_eq_none (by simpa using hi)]
    rfl

/-- **Every published job is executed exactly once.** Whatever the order of the calls and the steps of
the engine: what it executed are the items of the published jobs in order, as their prepares made
them, at least those of the completed jobs and all of them once it has nothing left; a prepare writes no
slot and no entry of a published job that is not completed; the completed point trails the issued one
by at most the capacity; PUT counts the published entries; the points go up by one from 1; and a
completion word outside of what was published fails the ring, which then refuses every call. -/
theorem jobs_run (hl : Laws wire payload)
    (hr : Run (step wire payload) (opened owner epoch address kind) h m) :
    ((published wire h).map Job.ticket = tickets h ∧ ∀ j ∈ published wire h, Prepared wire h j) ∧
    (m.executed <+: (published wire h).flatMap Job.items ∧
      ((published wire h).take m.ring.completed).flatMap Job.items <+: m.executed ∧
      (m.queue = [] → m.get = m.words putOffset →
        m.executed = (published wire h).flatMap Job.items)) ∧
    (∀ h₁ e h₂, h = h₁ ++ e :: h₂ → e.op.prepares = true →
      ∀ i j, (published wire h₁)[i]? = some j → e.pre.ring.completed < j.ticket.point →
        ∀ o, Owns (published wire h₁) e.pre.ring i j o → e.post.words o = e.pre.words o) ∧
    (m.ring.completed ≤ m.ring.issued ∧ m.ring.issued ≤ m.ring.completed + m.ring.capacity) ∧
    m.ring.put = ((published wire h).flatMap Job.items).length % ringEntries ∧
    ((published wire h).map (fun j => j.ticket.point) = List.range' 1 m.ring.issued ∧
      m.ring.issued ≤ maxU32) ∧
    (∀ m₀ : Machine, m₀.ring.failed = false →
      (m₀.words completionOffset < m₀.ring.completed ∨
        m₀.ring.issued < m₀.words completionOffset) →
      step wire payload m₀ (.poll true) =
        (.error .Completion, { m₀ with ring := { m₀.ring with failed := true } }) ∧
      ∀ h' m', Run (step wire payload) { m₀ with ring := { m₀.ring with failed := true } } h' m' →
        m'.ring = { m₀.ring with failed := true } ∧
          ∀ e ∈ h', e.op.engine = false → ∃ err, e.out = .error err) := by
  obtain ⟨ht, hs⟩ := tracks_run hl hr
  have hexec : m.executed = ((published wire h).flatMap Job.items).take m.executed.length := by
    rw [← cells_item, ← List.map_take]
    exact ht.executed
  have hexecuted : m.executed <+: (published wire h).flatMap Job.items :=
    hexec ▸ List.take_prefix _ _
  have hcompleted : start Job.cells (published wire h) m.ring.completed ≤ m.executed.length :=
    Nat.le_trans (start_mono _ ht.done.1) ht.reached.1
  refine ⟨⟨hs.ordered, hs.jobs⟩, ⟨hexecuted, ?_, fun hq hput => ?_⟩, ?_, ?_, ?_,
    ⟨ht.points, ht.serial⟩, ?_⟩
  · have hall : ((published wire h).take m.ring.completed).flatMap Job.items <+:
        (published wire h).flatMap Job.items := by
      conv => rhs; rw [← List.take_append_drop m.ring.completed (published wire h)]
      rw [List.flatMap_append]
      exact List.prefix_append _ _
    refine List.prefix_of_prefix_length_le hall hexecuted ?_
    rw [← cells_item, List.length_map]
    exact hcompleted
  · have hlen := ht.idle hq hput
    rw [hexec, hlen, ← cells_item]
    exact List.take_of_length_le (Nat.le_of_eq (List.length_map ..))
  · rintro h₁ e h₂ rfl hop i j hj hlive o ho
    obtain ⟨hpre, hstep⟩ := hr.prior
    obtain ⟨ht₁, -⟩ := tracks_run hl hpre
    have he := step_effect hl ht₁.below hstep
    have hi : e.pre.ring.completed ≤ i := by
      have := (ht₁.fine i j hj).point
      omega
    obtain ⟨pre, op, out, post⟩ := e
    dsimp only at hop he ht₁ hi ho ⊢
    cases he with
    | refused => rfl
    | prepared x batch hd h => exact h.keeps ht₁ hi hj ho
    | broken => cases hop
    | _ => cases hop
  · exact ⟨Nat.le_trans ht.done.1 ht.done.2, ht.room⟩
  · rw [ht.put, ← cells_item, List.length_map]
    rfl
  · intro m₀ hf hout
    exact ⟨poll_broken hf hout, fun h' m' hr' => failed_run rfl hr'⟩

end

/-! ## A batch behind single jobs -/

/-- Encoders that only release the point. -/
def releaseWire : Wire Unit Unit where
  encodeTransfer := fun _ _ address point =>
    .ok [1 <<< 29 ||| 5 <<< 16 ||| 0x17, address % 2 ^ 32, address >>> 32, point, 0, 1]
  encodeGraphics := fun _ _ address point =>
    .ok [1 <<< 29 ||| 5 <<< 16 ||| 0x17, address % 2 ^ 32, address >>> 32, point, 0, 1]
  extent := fun address bytes bits => if address + bytes ≤ 2 ^ bits then .ok () else .error .Bounds
  inc := fun method count => 1 <<< 29 ||| count <<< 16 ||| method / 4

/-- The payload stands before the last two words. -/
def releasePayload (words : List Nat) : Nat := words.reverse.getD 2 0

theorem release_laws : Laws releaseWire releasePayload where
  extent := by
    intro address bytes bits h
    by_contra hn
    simp only [releaseWire, if_neg hn] at h
    cases h
  transfer := by
    intro _ _ address point words h
    cases h
    rfl
  graphics := by
    intro _ _ address point words h
    cases h
    rfl
  completion := by
    intro address point words h
    unfold completion at h
    split at h
    · cases h
    split at h
    · cases h
    · cases h
      rfl

/-- A job of the caller from its prepare to its notifier. -/
def releaseJob (prepare : Op Unit Unit) (point put : Nat) : List (Op Unit Unit) :=
  [prepare, .publish true ⟨1, 2, 3, 4, point, put⟩, .notified true ⟨1, 2, 3, 4, point, put⟩]

/-- The engine takes one entry of the ring itself with `count` words. -/
def takeInternal (count : Nat) : List (Op Unit Unit) :=
  .fetch :: (List.range count).map (.load 0) ++ [.execute]

/-- Two single jobs, of which the engine lags behind one; then a batch of two pushes. -/
def releaseRun : List (PushEvent Unit Unit) × Machine :=
  exec (step releaseWire releasePayload) (opened 1 2 0x1000000 .copy)
    (releaseJob (.prepare true 0xc6b5 3 4 ()) 1 1 ++ releaseJob (.prepare true 0xc6b5 3 4 ()) 2 2 ++
      takeInternal 6 ++ takeInternal 6 ++ [.poll true] ++
      releaseJob (.prepareBatch true 3 4 [⟨0x2000, 64, true, false⟩, ⟨0x3000, 32, false, true⟩]) 3 5 ++
      [.fetch, .execute, .fetch, .execute] ++ takeInternal 13)

theorem jobs_run_release :
    releaseRun.2.executed = (published releaseWire releaseRun.1).flatMap Job.items ∧
      releaseRun.2.words completionOffset = 3 ∧ (published releaseWire releaseRun.1).length = 3 ∧
      releaseRun.2.ring.put = 5 := by
  have hrun : Run (step releaseWire releasePayload) (opened 1 2 0x1000000 .copy) releaseRun.1
      releaseRun.2 := Run.of_exec _ _ _
  obtain ⟨-, ⟨-, -, hall⟩, -⟩ := jobs_run release_laws hrun
  have hend : releaseRun.2.queue.length = 0 ∧ releaseRun.2.get = releaseRun.2.words putOffset ∧
      releaseRun.2.words completionOffset = 3 ∧ (published releaseWire releaseRun.1).length = 3 ∧
      releaseRun.2.ring.put = 5 := by decide +kernel
  exact ⟨hall (List.length_eq_zero_iff.mp hend.1) hend.2.1, hend.2.2⟩

end Fifo
end NvidiaGsp
