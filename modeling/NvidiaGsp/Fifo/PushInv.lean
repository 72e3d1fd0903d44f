import NvidiaGsp.Fifo.PushSpec
import NvidiaGsp.Lib.Blocks

/-!
# Fifo.PushInv

What holds between the calls on the command page. Written out entry by entry, the jobs of the ledger
are what the engine executes. The jobs behind `completed` fit between the engine and PUT, and their
slots differ, so a prepare finds its slot and its entries free.
-/

namespace NvidiaGsp
namespace Fifo

open Call Blocks

variable {T G : Type} {wire : Wire T G} {payload : List Nat → Nat} {m m' : Machine}

/-! ## What holds between the calls -/

def Ring.slotOf (r : Ring) (i : Nat) : Nat := pushBase + i % r.capacity * r.slotBytes

/-- The `i`th job of a ring. -/
structure Fine (payload : List Nat → Nat) (r : Ring) (i : Nat) (j : Job) : Prop where
  point : j.ticket.point = i + 1
  payload : payload j.commands = i + 1
  slot : j.slot = r.slotOf i
  fits : j.commands.length * 4 ≤ r.slotBytes
  few : j.gps.length ≤ batchCapacity
  external : ∀ gp ∈ j.gps, isExternal gp = true
  names : Names j.tail (r.address + j.slot) j.commands.length

/-- The prepared job lies behind the published ones. -/
structure Waits (payload : List Nat → Nat) (total : Nat) (m : Machine) (j : Job) : Prop where
  fine : Fine payload m.ring m.ring.issued j
  kept : Kept m.words j.slot j.commands
  placed : ∀ k c, j.cells[k]? = some c → EntryAt m.words ((total + k) % ringEntries) c.gp
  next : j.ticket.put = (total + j.cells.length) % ringEntries
  released : m.ring.batchPoint = 0
  room : m.ring.issued < m.ring.completed + m.ring.capacity
  serial : m.ring.issued < maxU32
  drained : m.ring.pendingBatch = true → m.ring.issued = m.ring.completed
  alone : m.ring.pendingBatch = false → j.gps = []

/-- A fetched entry, and the words read of it. -/
structure Reads (f : Fetched) (c : Cell) : Prop where
  gp : f.gp = c.gp
  seen : ∀ k v words, f.seen k = some v → c.item = .internal words → words[k]? = some v

structure Tracks (payload : List Nat → Nat) (l : Ledger) (m : Machine) : Prop where
  issued : l.jobs.length = m.ring.issued
  fine : ∀ i j, l.jobs[i]? = some j → Fine payload m.ring i j
  put : m.ring.put = (cells l.jobs).length % ringEntries
  moved : m.words putOffset = m.ring.put
  done : m.ring.completed ≤ m.words completionOffset ∧ m.words completionOffset ≤ m.ring.issued
  room : m.ring.issued ≤ m.ring.completed + m.ring.capacity
  serial : m.ring.issued ≤ maxU32
  singles : m.ring.batchPoint = 0 →
    ∀ i j, m.ring.completed ≤ i → l.jobs[i]? = some j → j.gps = []
  batch : m.ring.batchPoint ≠ 0 →
    m.ring.batchPoint = m.ring.issued ∧ m.ring.issued = m.ring.completed + 1
  kept : ∀ i j, m.ring.completed ≤ i → l.jobs[i]? = some j → Kept m.words j.slot j.commands
  placed : ∀ n c, start Job.cells l.jobs m.ring.completed ≤ n → (cells l.jobs)[n]? = some c →
    EntryAt m.words (n % ringEntries) c.gp
  executed : m.executed = ((cells l.jobs).take m.executed.length).map Cell.item
  reached : start Job.cells l.jobs (m.words completionOffset) ≤ m.executed.length ∧
    (m.words completionOffset < m.ring.issued →
      m.executed.length < start Job.cells l.jobs (m.words completionOffset + 1))
  fetched : m.executed.length + m.queue.length ≤ (cells l.jobs).length
  get : m.get = (m.executed.length + m.queue.length) % ringEntries
  queue : ∀ i f, m.queue[i]? = some f →
    ∃ c, (cells l.jobs)[m.executed.length + i]? = some c ∧ Reads f c
  waiting : ∀ t, m.ring.pending = some t → m.ring.published = false →
    ∃ j, l.draft = some j ∧ j.ticket = t ∧ Waits payload (cells l.jobs).length m j
  fresh : m.ring.pending = none → m.ring.published = false

theorem capacity_pos (r : Ring) : 0 < r.capacity := by
  unfold Ring.capacity
  split <;> decide

/-- The slots lie on the second page. -/
theorem slotOf_bound (r : Ring) (i : Nat) : 4096 ≤ r.slotOf i ∧ r.slotOf i + r.slotBytes ≤ 8192 := by
  have hlt := Nat.mod_lt i (capacity_pos r)
  unfold Ring.slotOf
  unfold Ring.capacity at hlt ⊢
  unfold Ring.slotBytes pushBase
  split at hlt <;> rename_i hk <;> simp only [hk, ↓reduceIte] <;> omega

/-- Two jobs closer than the capacity have different slots. -/
theorem slotOf_apart {r : Ring} {i k : Nat} (h : i < k) (hk : k < i + r.capacity) :
    r.slotOf i + r.slotBytes ≤ r.slotOf k ∨ r.slotOf k + r.slotBytes ≤ r.slotOf i := by
  have hne : i % r.capacity ≠ k % r.capacity := by
    intro heq
    have hdvd := (Nat.modEq_iff_dvd' (Nat.le_of_lt h)).mp heq
    have := Nat.le_of_dvd (by omega) hdvd
    omega
  unfold Ring.slotOf
  rcases Nat.lt_or_gt_of_ne hne with hlt | hlt
  · left
    have := Nat.mul_le_mul_right r.slotBytes (Nat.succ_le_of_lt hlt)
    rw [Nat.succ_mul] at this
    omega
  · right
    have := Nat.mul_le_mul_right r.slotBytes (Nat.succ_le_of_lt hlt)
    rw [Nat.succ_mul] at this
    omega

section

variable {l : Ledger}

theorem Fine.bound {r : Ring} {i : Nat} {j : Job} (h : Fine payload r i j) :
    4096 ≤ j.slot ∧ j.slot + j.commands.length * 4 ≤ 8192 := by
  have := slotOf_bound r i
  have := h.fits
  rw [h.slot]
  omega

theorem Tracks.below (ht : Tracks payload l m) : m.ring.put < ringEntries := by
  rw [ht.put]
  exact Nat.mod_lt _ (by decide)

/-- The entries behind `completed` are at most one for each job, or one batch. -/
theorem Tracks.span (ht : Tracks payload l m) {n : Nat} (hn : n ≤ m.ring.issued - m.ring.completed) :
    start Job.cells l.jobs (m.ring.completed + n) ≤
      start Job.cells l.jobs m.ring.completed +
        if m.ring.batchPoint = 0 then n else n * (batchCapacity + 1) := by
  induction n with
  | zero => simp
  | succ n ih =>
    have hlt : m.ring.completed + n < l.jobs.length := by
      rw [ht.issued]
      omega
    have hj := List.getElem?_eq_getElem hlt
    have hprev := ih (by omega)
    rw [← Nat.add_assoc, start_succ hj, Job.cells_length]
    have hfew := (ht.fine _ _ hj).few
    split
    · rename_i hb
      rw [if_pos hb] at hprev
      rw [ht.singles hb _ _ (Nat.le_add_right _ _) hj, List.length_nil]
      omega
    · rename_i hb
      rw [if_neg hb] at hprev
      rw [Nat.succ_mul]
      omega

/-- What PUT gained on `completed`. -/
theorem Tracks.total (ht : Tracks payload l m) :
    (cells l.jobs).length ≤ start Job.cells l.jobs m.ring.completed +
      if m.ring.batchPoint = 0 then m.ring.issued - m.ring.completed else batchCapacity + 1 := by
  have hle : m.ring.completed ≤ m.ring.issued := Nat.le_trans ht.done.1 ht.done.2
  have hspan := ht.span (Nat.le_refl _)
  rw [Nat.add_sub_cancel' hle, ← ht.issued, start_length, ht.issued] at hspan
  refine Nat.le_trans hspan (Nat.add_le_add_left ?_ _)
  split
  · exact Nat.le_refl _
  · rename_i hb
    have := (ht.batch hb).2
    rw [show m.ring.issued - m.ring.completed = 1 by omega, Nat.one_mul]

/-! ### What a prepare writes -/

/-- The words of the slot of a job and of its entries. -/
def Owns (jobs : List Job) (r : Ring) (i : Nat) (j : Job) (o : Nat) : Prop :=
  (j.slot ≤ o ∧ o < j.slot + r.slotBytes) ∨
    ∃ k < j.cells.length, o / 8 = (start Job.cells jobs i + k) % ringEntries

theorem write_other {j : Job} {batch : Bool} {o : Nat}
    (hentry : ∀ k ≤ j.gps.length, o / 8 ≠ (m.ring.put + k) % ringEntries)
    (hslot : o < j.slot ∨ j.slot + j.commands.length * 4 ≤ o) :
    (m.write j batch).words o = m.words o := by
  show storeEntry _ _ _ o = m.words o
  rw [storeEntry_other (hentry _ (Nat.le_refl _)), store_other hslot,
    storeEntries_other fun k hk => hentry k (Nat.le_of_lt hk)]

/-- A prepare writes on the first two pages only. -/
theorem write_high {j : Job} {batch : Bool} (h : Admits payload m j batch) {o : Nat}
    (ho : 8192 ≤ o) : (m.write j batch).words o = m.words o := by
  have hbound := slotOf_bound m.ring m.ring.issued
  have hfits := h.fits
  have hslot : j.slot = m.ring.slotOf m.ring.issued := h.slot
  refine write_other (fun k _ heq => ?_) (.inr (by omega))
  have : (m.ring.put + k) % ringEntries < 512 := Nat.mod_lt _ (by decide)
  omega

theorem write_kept {j : Job} {batch : Bool} (h : Admits payload m j batch) :
    Kept (m.write j batch).words j.slot j.commands := by
  have hbound := slotOf_bound m.ring m.ring.issued
  have hslot : j.slot = m.ring.slotOf m.ring.issued := h.slot
  refine (store_at _ j.slot j.commands).congr fun o hlow _ => storeEntry_other fun heq => ?_
  have : (m.ring.put + j.gps.length) % ringEntries < 512 := Nat.mod_lt _ (by decide)
  omega

theorem write_placed {j : Job} {batch : Bool} (h : Admits payload m j batch) {k : Nat} {c : Cell}
    (hk : j.cells[k]? = some c) :
    EntryAt (m.write j batch).words ((m.ring.put + k) % ringEntries) c.gp := by
  have hr : ringEntries = 512 := rfl
  have hcap : batchCapacity = 510 := rfl
  have hfew := h.few
  have hbound := slotOf_bound m.ring m.ring.issued
  have hslot : j.slot = m.ring.slotOf m.ring.issued := h.slot
  rcases Job.cells_gp hk with ⟨hlt, hgp, -⟩ | ⟨rfl, hgp, -⟩
  · have hat := storeEntries_at m.words m.ring.put (by omega) hgp
    refine hat.congr fun o ho => ?_
    show storeEntry _ _ _ o = _
    rw [storeEntry_other (by rw [ho, hr]; omega), store_other (by rw [hr] at ho; omega)]
  · rw [hgp]
    exact storeEntry_at _ _ _

theorem Tracks.put_add (ht : Tracks payload l m) (k : Nat) :
    (m.ring.put + k) % ringEntries = ((cells l.jobs).length + k) % ringEntries := by
  rw [ht.put, Nat.mod_add_mod]

/-- A prepare leaves the slots and the entries of the jobs behind `completed` alone. -/
theorem Admits.keeps {j : Job} {batch : Bool} (h : Admits payload m j batch)
    (ht : Tracks payload l m) {i o : Nat} {x : Job} (hi : m.ring.completed ≤ i)
    (hx : l.jobs[i]? = some x) (ho : Owns l.jobs m.ring i x o) :
    (m.write j batch).words o = m.words o := by
  have hr : ringEntries = 512 := rfl
  have hslot : j.slot = m.ring.slotOf m.ring.issued := h.slot
  have hbound := slotOf_bound m.ring m.ring.issued
  have hxslot := (ht.fine _ _ hx).slot
  have hxbound := slotOf_bound m.ring i
  have hfits := h.fits
  have hroom := h.room
  have hlt : i < m.ring.issued := by
    rw [← ht.issued]
    exact (List.getElem?_eq_some_iff.mp hx).1
  -- A batch finds no live job at all.
  have hgps : j.gps = [] := by
    cases batch with
    | false => exact h.alone rfl
    | true =>
      have := h.drained rfl
      omega
  have hcap : m.ring.capacity ≤ 16 := by
    unfold Ring.capacity
    split <;> omega
  rcases ho with ⟨hlow, hhigh⟩ | ⟨k, hk, heq⟩
  · refine write_other (fun k _ heq => ?_) ?_
    · rw [hr] at heq
      omega
    · have hapart := slotOf_apart (r := m.ring) hlt (by omega)
      omega
  · have htotal := ht.total
    rw [if_pos h.released] at htotal
    have hlast : start Job.cells l.jobs i + k < (cells l.jobs).length := by
      have hle := start_le (f := Job.cells) l.jobs (i + 1)
      rw [start_succ hx] at hle
      show _ < (l.jobs.flatMap Job.cells).length
      omega
    have hfirst := start_mono (f := Job.cells) l.jobs hi
    refine write_other (fun k' hk' => ?_) ?_
    · rw [hgps, List.length_nil] at hk'
      rw [heq, ht.put_add, hr]
      omega
    · rw [hr] at heq
      omega

theorem Fine.congr {r r' : Ring} {i : Nat} {j : Job} (h : Fine payload r i j) (hk : r'.kind = r.kind)
    (ha : r'.address = r.address) : Fine payload r' i j := by
  have hbytes : r'.slotBytes = r.slotBytes := by rw [Ring.slotBytes, Ring.slotBytes, hk]
  have hslot : r'.slotOf i = r.slotOf i := by
    rw [Ring.slotOf, Ring.slotOf, hbytes, Ring.capacity, Ring.capacity, hk]
  exact ⟨h.point, h.payload, h.slot.trans hslot.symm, hbytes ▸ h.fits, h.few, h.external, ha ▸ h.names⟩

/-- An entry behind the first `d` jobs lies in a later job. -/
theorem live_cell {jobs : List Job} {d n : Nat} {c : Cell} (hn : start Job.cells jobs d ≤ n)
    (h : (cells jobs)[n]? = some c) :
    ∃ i k j, d ≤ i ∧ jobs[i]? = some j ∧ n = start Job.cells jobs i + k ∧ j.cells[k]? = some c := by
  obtain ⟨i, k, j, hj, rfl, hcell⟩ := locate h
  obtain ⟨hk, -⟩ := List.getElem?_eq_some_iff.mp hcell
  refine ⟨i, k, j, ?_, hj, rfl, hcell⟩
  by_contra hlt
  have hle := start_mono (f := Job.cells) jobs (show i + 1 ≤ d by omega)
  rw [start_succ hj] at hle
  omega

theorem Tracks.prepared {j : Job} {batch : Bool} (ht : Tracks payload l m)
    (h : Admits payload m j batch) :
    Tracks payload { l with draft := some j } (m.write j batch) := by
  have hcompletion : (m.write j batch).words completionOffset = m.words completionOffset :=
    write_high h (by decide)
  refine {
    issued := ht.issued
    fine := fun i x hx => (ht.fine i x hx).congr rfl rfl
    put := ht.put
    moved := (write_high h (by decide)).trans ht.moved
    done := by rw [hcompletion]; exact ht.done
    room := ht.room
    serial := ht.serial
    singles := ht.singles
    batch := ht.batch
    kept := fun i x hi hx => ?_
    placed := fun n c hn hc => ?_
    executed := ht.executed
    reached := by rw [hcompletion]; exact ht.reached
    fetched := ht.fetched
    get := ht.get
    queue := ht.queue
    waiting := fun t hp hpub => ?_
    fresh := fun hn => ?_ }
  · refine (ht.kept i x hi hx).congr fun o hlow hhigh => h.keeps ht hi hx (.inl ⟨hlow, ?_⟩)
    have := (ht.fine _ _ hx).fits
    omega
  · obtain ⟨i, k, x, hi, hx, rfl, hcell⟩ := live_cell hn hc
    obtain ⟨hk, -⟩ := List.getElem?_eq_some_iff.mp hcell
    exact (ht.placed _ c hn hc).congr fun o ho => h.keeps ht hi hx (.inr ⟨k, hk, ho⟩)
  · obtain rfl : j.ticket = t := Option.some.inj hp
    refine ⟨j, rfl, rfl, ⟨⟨h.point, h.payload, h.slot, h.fits, h.few, h.external, h.names⟩,
      write_kept h, fun k c hk => ?_, ?_, h.released, ?_, ?_, h.drained, h.alone⟩⟩
    · rw [← ht.put_add k]
      exact write_placed h hk
    · rw [h.next, Job.cells_length, ← ht.put_add, Nat.add_assoc]
    · show m.ring.issued < m.ring.completed + m.ring.capacity
      have := h.room
      omega
    · show m.ring.issued < maxU32
      have := h.serial
      have := ht.serial
      omega
  · cases hn

/-! ### One step -/

theorem Kept.update {words : Nat → Nat} {slot o v : Nat} {values : List Nat}
    (h : Kept words slot values) (hlow : slot + values.length * 4 ≤ 8192) (ho : 8192 ≤ o) :
    Kept (Function.update words o v) slot values :=
  h.congr fun _ _ _ => Function.update_of_ne (by omega) _ _

theorem EntryAt.update {words : Nat → Nat} {n o v : Nat} {gp : Nat × Nat}
    (h : EntryAt words (n % ringEntries) gp) (ho : 8192 ≤ o) :
    EntryAt (Function.update words o v) (n % ringEntries) gp := by
  refine h.congr fun a ha => Function.update_of_ne ?_ _ _
  have : n % ringEntries < 512 := Nat.mod_lt _ (by decide)
  omega

theorem getElem?_snoc {α : Type} {xs : List α} {x y : α} {i : Nat} (h : (xs ++ [x])[i]? = some y) :
    xs[i]? = some y ∨ (i = xs.length ∧ y = x) := by
  rcases Nat.lt_or_ge i xs.length with hi | hi
  · rw [List.getElem?_append_left hi] at h
    exact .inl h
  · rw [List.getElem?_append_right hi] at h
    obtain ⟨hlt, heq⟩ := List.getElem?_eq_some_iff.mp h
    rw [List.length_singleton] at hlt
    rw [List.getElem_singleton] at heq
    exact .inr ⟨by omega, heq.symm⟩

theorem Tracks.published {ticket : Ticket} {j : Job} (ht : Tracks payload l m)
    (hpend : m.ring.pending = some ticket) (hticket : j.ticket = ticket) (hw : Waits payload (cells l.jobs).length m j) :
    Tracks payload { l with jobs := l.jobs ++ [j] } (m.move ticket) := by
  have hpoint : ticket.point = m.ring.issued + 1 := hticket ▸ hw.fine.point
  have hcells : cells (l.jobs ++ [j]) = cells l.jobs ++ j.cells := by simp [cells]
  have hlen : (cells (l.jobs ++ [j])).length = (cells l.jobs).length + j.cells.length := by
    rw [hcells, List.length_append]
  have hcompletion : (m.move ticket).words completionOffset = m.words completionOffset := by
    show Function.update m.words putOffset ticket.put completionOffset = _
    exact Function.update_of_ne (by decide) _ _
  have hstart {d : Nat} (hd : d ≤ m.ring.issued) :
      start Job.cells (l.jobs ++ [j]) d = start Job.cells l.jobs d :=
    start_append (by rw [ht.issued]; exact hd)
  have hold {n : Nat} (hn : n < (cells l.jobs).length) :
      (cells (l.jobs ++ [j]))[n]? = (cells l.jobs)[n]? := by
    rw [hcells, List.getElem?_append_left hn]
  have hle : m.ring.completed ≤ m.ring.issued := Nat.le_trans ht.done.1 ht.done.2
  have hput : ticket.put = (cells (l.jobs ++ [j])).length % ringEntries := by
    rw [← hticket, hw.next, hlen]
  have hexec := ht.fetched
  refine {
    issued := ?_
    fine := fun i x hx => ?_
    put := hput
    moved := by
      show Function.update m.words putOffset ticket.put putOffset = ticket.put
      exact Function.update_self _ _ _
    done := ?_
    room := ?_
    serial := ?_
    singles := fun hb i x hi hx => ?_
    batch := fun hb => ?_
    kept := fun i x hi hx => ?_
    placed := fun n c hn hc => ?_
    executed := ?_
    reached := ?_
    fetched := ?_
    get := ht.get
    queue := fun i f hf => ?_
    waiting := fun t _ hpub => ?_
    fresh := fun hn => ?_ }
  · show (l.jobs ++ [j]).length = ticket.point
    rw [List.length_append, List.length_singleton, ht.issued, hpoint]
  · rcases getElem?_snoc hx with hx | ⟨rfl, rfl⟩
    · exact (ht.fine i x hx).congr rfl rfl
    · exact (ht.issued ▸ hw.fine).congr rfl rfl
  · rw [hcompletion]
    show m.ring.completed ≤ _ ∧ _ ≤ ticket.point
    have := ht.done
    omega
  · show ticket.point ≤ m.ring.completed + m.ring.capacity
    have := hw.room
    omega
  · show ticket.point ≤ maxU32
    have := hw.serial
    omega
  · have hb : (if m.ring.pendingBatch then ticket.point else m.ring.batchPoint) = 0 := hb
    split at hb
    · omega
    · rename_i hbatch
      rcases getElem?_snoc hx with hx | ⟨-, rfl⟩
      · exact ht.singles hb i x hi hx
      · exact hw.alone (by simpa using hbatch)
  · have hb : (if m.ring.pendingBatch then ticket.point else m.ring.batchPoint) ≠ 0 := hb
    show (if m.ring.pendingBatch then ticket.point else m.ring.batchPoint) = ticket.point ∧
      ticket.point = m.ring.completed + 1
    split at hb
    · rename_i hbatch
      rw [if_pos hbatch]
      have := hw.drained hbatch
      omega
    · exact absurd hw.released hb
  · have hkept : Kept m.words x.slot x.commands ∧ x.slot + x.commands.length * 4 ≤ 8192 := by
      rcases getElem?_snoc hx with hx | ⟨-, rfl⟩
      · exact ⟨ht.kept i x hi hx, (ht.fine i x hx).bound.2⟩
      · exact ⟨hw.kept, hw.fine.bound.2⟩
    exact hkept.1.update hkept.2 (by decide)
  · have hc : (cells (l.jobs ++ [j]))[n]? = some c := hc
    have hn : start Job.cells (l.jobs ++ [j]) m.ring.completed ≤ n := hn
    refine EntryAt.update ?_ (by decide)
    rcases Nat.lt_or_ge n (cells l.jobs).length with hlt | hge
    · rw [hold hlt] at hc
      rw [hstart hle] at hn
      exact ht.placed n c hn hc
    · rw [hcells, List.getElem?_append_right hge] at hc
      have := hw.placed _ c hc
      rwa [Nat.add_sub_cancel' hge] at this
  · show m.executed = ((cells (l.jobs ++ [j])).take m.executed.length).map Cell.item
    rw [hcells, List.take_append_of_le_length (by omega)]
    exact ht.executed
  · rw [hcompletion]
    show start Job.cells (l.jobs ++ [j]) _ ≤ m.executed.length ∧
      (_ < ticket.point → m.executed.length < start Job.cells (l.jobs ++ [j]) _)
    rw [hstart ht.done.2]
    refine ⟨ht.reached.1, fun _ => ?_⟩
    rcases Nat.lt_or_ge (m.words completionOffset) m.ring.issued with hlt | hge
    · rw [hstart hlt]
      exact ht.reached.2 hlt
    · have hall : start Job.cells (l.jobs ++ [j]) (m.words completionOffset + 1) =
          (cells (l.jobs ++ [j])).length := by
        have hword : m.words completionOffset + 1 = (l.jobs ++ [j]).length := by
          have := ht.done
          rw [List.length_append, List.length_singleton, ht.issued]
          omega
        rw [hword, start_length]
        rfl
      rw [hall, hlen, Job.cells_length]
      omega
  · show m.executed.length + m.queue.length ≤ (cells (l.jobs ++ [j])).length
    omega
  · obtain ⟨c, hc, hreads⟩ := ht.queue i f hf
    obtain ⟨hlt, -⟩ := List.getElem?_eq_some_iff.mp hc
    exact ⟨c, (hold hlt).trans hc, hreads⟩
  · cases hpub
  · exact absurd (hpend.symm.trans hn) (by simp)

theorem Tracks.polled (ht : Tracks payload l m) (hlow : m.ring.completed ≤ m.words completionOffset)
    (hhigh : m.words completionOffset ≤ m.ring.issued) :
    Tracks payload l (m.complete (m.words completionOffset)) := by
  have hroom := ht.room
  have hstart := start_mono (f := Job.cells) l.jobs hlow
  refine { ht with
    fine := fun i x hx => (ht.fine i x hx).congr rfl rfl
    done := ⟨Nat.le_refl _, hhigh⟩
    room := ?_
    singles := fun hb i x hi hx => ?_
    batch := fun hb => ?_
    kept := fun i x hi hx => ht.kept i x (Nat.le_trans hlow hi) hx
    placed := fun n c hn hc => ht.placed n c (Nat.le_trans hstart hn) hc
    waiting := fun t hp hpub => ?_ }
  · show m.ring.issued ≤ m.words completionOffset + m.ring.capacity
    omega
  · by_cases hzero : m.ring.batchPoint = 0
    · exact ht.singles hzero i x (Nat.le_trans hlow hi) hx
    · -- The batch is through, and it was the last job.
      have hb : (if m.ring.batchPoint ≠ 0 ∧ m.words completionOffset ≥ m.ring.batchPoint then 0
        else m.ring.batchPoint) = 0 := hb
      have hi : m.words completionOffset ≤ i := hi
      obtain ⟨hlt, -⟩ := List.getElem?_eq_some_iff.mp hx
      rw [ht.issued] at hlt
      have := ht.batch hzero
      split at hb
      · omega
      · exact absurd hb hzero
  · have hb : (if m.ring.batchPoint ≠ 0 ∧ m.words completionOffset ≥ m.ring.batchPoint then 0
      else m.ring.batchPoint) ≠ 0 := hb
    show (if m.ring.batchPoint ≠ 0 ∧ m.words completionOffset ≥ m.ring.batchPoint then 0
      else m.ring.batchPoint) = m.ring.issued ∧ m.ring.issued = m.words completionOffset + 1
    split at hb
    · exact absurd rfl hb
    · rename_i hbelow
      have := ht.batch hb
      rw [if_neg hbelow]
      omega
  · obtain ⟨j, hj, hticket, hw⟩ := ht.waiting t hp hpub
    refine ⟨j, hj, hticket, hw.fine.congr rfl rfl, hw.kept, hw.placed, hw.next, ?_, ?_, hw.serial, ?_,
      hw.alone⟩
    · show (if m.ring.batchPoint ≠ 0 ∧ m.words completionOffset ≥ m.ring.batchPoint then 0
        else m.ring.batchPoint) = 0
      rw [if_neg fun hn => hn.1 hw.released]
      exact hw.released
    · show m.ring.issued < m.words completionOffset + m.ring.capacity
      have := hw.room
      omega
    · intro hbatch
      have := hw.drained hbatch
      show m.ring.issued = m.words completionOffset
      omega

theorem Waits.congr {total : Nat} {j : Job} (h : Waits payload total m j) (hr : m'.ring = m.ring)
    (hw : ∀ o < 8192, m'.words o = m.words o) : Waits payload total m' j where
  fine := hr ▸ h.fine
  kept := h.kept.congr fun _ _ ho => hw _ (Nat.lt_of_lt_of_le ho h.fine.bound.2)
  placed := fun k c hk => (h.placed k c hk).congr fun o ho => hw _ (by
    have : (total + k) % ringEntries < 512 := Nat.mod_lt _ (by decide)
    omega)
  next := h.next
  released := hr ▸ h.released
  room := hr ▸ h.room
  serial := hr ▸ h.serial
  drained := hr ▸ h.drained
  alone := hr ▸ h.alone

/-- The engine fetches the next published entry. -/
theorem Tracks.fetched_step (ht : Tracks payload l m) : Tracks payload l m.fetch := by
  have hr : ringEntries = 512 := rfl
  unfold Machine.fetch
  split
  · exact ht
  rename_i hne
  rw [ht.moved, ht.put, ht.get] at hne
  have hle := ht.fetched
  have hlt : m.executed.length + m.queue.length < (cells l.jobs).length := by
    rcases Nat.lt_or_eq_of_le hle with hlt | heq
    · exact hlt
    · rw [heq] at hne
      exact absurd rfl hne
  have hcell := List.getElem?_eq_getElem hlt
  have hlive : start Job.cells l.jobs m.ring.completed ≤ m.executed.length + m.queue.length := by
    have := start_mono (f := Job.cells) l.jobs ht.done.1
    have := ht.reached.1
    omega
  have hat := ht.placed _ _ hlive hcell
  rw [← ht.get] at hat
  refine { ht with
    fetched := ?_
    get := ?_
    queue := fun i f hf => ?_
    waiting := fun t hp hpub => ?_ }
  · dsimp only
    rw [List.length_append, List.length_singleton]
    omega
  · dsimp only
    rw [List.length_append, List.length_singleton, ht.get, hr]
    omega
  · rcases getElem?_snoc hf with hf | ⟨rfl, rfl⟩
    · exact ht.queue i f hf
    · refine ⟨_, hcell, ?_, ?_⟩
      · exact Prod.ext hat.1 hat.2
      · intro k v words hseen
        cases hseen
  · obtain ⟨j, hj, hticket, hw⟩ := ht.waiting t hp hpub
    exact ⟨j, hj, hticket, hw.congr rfl fun _ _ => rfl⟩

/-- The cells of the jobs tell entries of the callers from those of the ring. -/
theorem Tracks.level (ht : Tracks payload l m) {i k : Nat} {j : Job} {c : Cell}
    (hj : l.jobs[i]? = some j) (hk : j.cells[k]? = some c) :
    (k < j.gps.length ∧ isExternal c.gp = true ∧ c.item = .external c.gp) ∨
      (k = j.gps.length ∧ Names c.gp (m.ring.address + j.slot) j.commands.length ∧
        c.item = .internal j.commands) := by
  have hf := ht.fine _ _ hj
  rcases Job.cells_gp hk with ⟨hlt, hgp, hitem⟩ | ⟨rfl, hgp, hitem⟩
  · exact .inl ⟨hlt, hf.external _ (List.mem_of_getElem? hgp), hitem⟩
  · exact .inr ⟨rfl, hgp ▸ hf.names, hitem⟩

/-- What the engine reads of an entry is what was prepared. -/
theorem Tracks.loaded (ht : Tracks payload l m) (i k : Nat) : Tracks payload l (m.load i k) := by
  unfold Machine.load
  split
  · exact ht
  rename_i f hf
  split
  · exact ht
  rename_i hin
  simp only [not_or, not_le] at hin
  obtain ⟨hlevel, hcount⟩ := hin
  obtain ⟨c, hc, hreads⟩ := ht.queue i f hf
  have hlive : start Job.cells l.jobs m.ring.completed ≤ m.executed.length + i := by
    have := start_mono (f := Job.cells) l.jobs ht.done.1
    have := ht.reached.1
    omega
  obtain ⟨d, n, j, hd, hj, heq, hcell⟩ := live_cell hlive hc
  have hitem : Names f.gp (m.ring.address + j.slot) j.commands.length ∧ c.item = .internal j.commands := by
    rw [hreads.gp] at hlevel ⊢
    rcases ht.level hj hcell with ⟨-, hext, -⟩ | ⟨-, hnames, hitem⟩
    · exact absurd hext hlevel
    · exact ⟨hnames, hitem⟩
  have hkept := ht.kept d j hd hj
  refine { ht with
    fetched := by rw [List.length_set]; exact ht.fetched
    get := by
      dsimp only
      rw [List.length_set]
      exact ht.get
    queue := fun i' f' hf' => ?_
    waiting := fun t hp hpub => ?_ }
  · have hf' : (m.queue.set i { f with
        seen := Function.update f.seen k
          (some (m.words (entryAddress f.gp - m.ring.address + k * 4))) })[i']? = some f' := hf'
    by_cases hi : i = i'
    · subst hi
      obtain ⟨hlt, -⟩ := List.getElem?_eq_some_iff.mp hf
      rw [List.getElem?_set_self hlt] at hf'
      obtain rfl := Option.some.inj hf'
      refine ⟨c, hc, hreads.gp, fun k' v words hseen hwords => ?_⟩
      have hseen : Function.update f.seen k
        (some (m.words (entryAddress f.gp - m.ring.address + k * 4))) k' = some v := hseen
      by_cases hk : k' = k
      · subst hk
        rw [hitem.2] at hwords
        cases hwords
        have hword := List.getElem?_eq_getElem (hitem.1.count ▸ hcount)
        have hat := hkept _ _ hword
        rw [Function.update_self, hitem.1.address, Nat.add_sub_cancel_left, hat] at hseen
        exact hword.trans hseen
      · rw [Function.update_of_ne hk] at hseen
        exact hreads.seen k' v words hseen hwords
    · rw [List.getElem?_set_ne hi] at hf'
      exact ht.queue i' f' hf'
  · obtain ⟨j, hj, hticket, hw⟩ := ht.waiting t hp hpub
    exact ⟨j, hj, hticket, hw.congr rfl fun _ _ => rfl⟩

/-- The next entry to execute belongs to the job behind the completion word. -/
theorem Tracks.current (ht : Tracks payload l m) {c : Cell}
    (hc : (cells l.jobs)[m.executed.length]? = some c) :
    ∃ k j, l.jobs[m.words completionOffset]? = some j ∧ m.words completionOffset < m.ring.issued ∧
      m.executed.length = start Job.cells l.jobs (m.words completionOffset) + k ∧
      j.cells[k]? = some c := by
  obtain ⟨i, k, j, hi, hj, heq, hcell⟩ := live_cell ht.reached.1 hc
  obtain ⟨hlt, -⟩ := List.getElem?_eq_some_iff.mp hj
  rw [ht.issued] at hlt
  have hbelow := ht.reached.2 (by omega)
  obtain rfl : i = m.words completionOffset := by
    by_contra hne
    have := start_mono (f := Job.cells) l.jobs (show m.words completionOffset + 1 ≤ i by omega)
    omega
  exact ⟨k, j, hj, hlt, heq, hcell⟩

theorem take_next {jobs : List Job} {n : Nat} {c : Cell} {done : List Item}
    (hdone : done = ((cells jobs).take n).map Cell.item) (hc : (cells jobs)[n]? = some c) :
    done ++ [c.item] = ((cells jobs).take (n + 1)).map Cell.item := by
  rw [List.take_add_one, hc, List.map_append, hdone]
  rfl

theorem Tracks.executed_step (ht : Tracks payload l m) : Tracks payload l (m.execute payload) := by
  unfold Machine.execute
  split
  · exact ht
  rename_i f rest hq
  obtain ⟨c, hc, hreads⟩ := ht.queue 0 f (by rw [hq]; rfl)
  rw [Nat.add_zero] at hc
  obtain ⟨k, j, hj, hissued, heq, hcell⟩ := ht.current hc
  have hf := ht.fine _ _ hj
  have hsucc := start_succ (f := Job.cells) hj
  rw [Job.cells_length] at hsucc
  have hfetched := ht.fetched
  have hget := ht.get
  rw [hq, List.length_cons] at hfetched hget
  have hshift : m.executed.length + (rest.length + 1) = m.executed.length + 1 + rest.length := by omega
  have hqueue : ∀ i f', rest[i]? = some f' →
      ∃ c, (cells l.jobs)[m.executed.length + 1 + i]? = some c ∧ Reads f' c := by
    intro i f' hf'
    have := ht.queue (i + 1) f' (by rw [hq]; exact hf')
    rwa [← Nat.add_assoc, Nat.add_right_comm] at this
  have hnext := take_next ht.executed hc
  split
  · rename_i hext
    -- An entry of a caller: its job goes on.
    obtain ⟨hlt, hitem⟩ : k < j.gps.length ∧ c.item = .external f.gp := by
      rw [hreads.gp] at hext ⊢
      rcases ht.level hj hcell with ⟨hlt, -, hitem⟩ | ⟨-, hnames, -⟩
      · exact ⟨hlt, hitem⟩
      · rw [hnames.level] at hext
        cases hext
    rw [hitem] at hnext
    refine { ht with
      executed := ?_
      reached := ?_
      fetched := ?_
      get := ?_
      queue := ?_
      waiting := fun t hp hpub => ?_ }
    · dsimp only
      rw [List.length_append]
      exact hnext
    · dsimp only
      rw [List.length_append, List.length_singleton]
      exact ⟨by omega, fun _ => by omega⟩
    · dsimp only
      rw [List.length_append, List.length_singleton]
      omega
    · dsimp only
      rw [List.length_append, List.length_singleton, hget, hshift]
    · dsimp only
      rw [List.length_append, List.length_singleton]
      exact hqueue
    · obtain ⟨j, hj, hticket, hw⟩ := ht.waiting t hp hpub
      exact ⟨j, hj, hticket, hw.congr rfl fun _ _ => rfl⟩
  · rename_i hint
    split
    · rename_i hall
      -- The commands of the ring end their job.
      obtain ⟨hk, hnames, hitem⟩ : k = j.gps.length ∧
          Names f.gp (m.ring.address + j.slot) j.commands.length ∧ c.item = .internal j.commands := by
        rw [hreads.gp] at hint ⊢
        rcases ht.level hj hcell with ⟨-, hext, -⟩ | h
        · exact absurd hext hint
        · exact h
      have hwords : (List.range (entryCount f.gp)).map (fun k => (f.seen k).getD 0) = j.commands := by
        rw [hnames.count] at hall ⊢
        refine List.ext_getElem? fun i => ?_
        rcases Nat.lt_or_ge i j.commands.length with hi | hi
        · have hsome := List.all_eq_true.mp hall i (List.mem_range.mpr hi)
          obtain ⟨v, hv⟩ := Option.isSome_iff_exists.mp hsome
          rw [List.getElem?_map, List.getElem?_range hi, hreads.seen i v _ hv hitem]
          show some ((f.seen i).getD 0) = some v
          rw [hv]
          rfl
        · rw [List.getElem?_eq_none (by simpa using hi), List.getElem?_eq_none hi]
      rw [hwords]
      dsimp only
      rw [hf.payload]
      rw [hitem] at hnext
      have hcompletion : Function.update m.words completionOffset (m.words completionOffset + 1)
          completionOffset = m.words completionOffset + 1 := Function.update_self _ _ _
      refine { ht with
        moved := ?_
        done := ?_
        kept := fun i x hi hx => (ht.kept i x hi hx).update (ht.fine i x hx).bound.2 (by decide)
        placed := fun n c hn hc => (ht.placed n c hn hc).update (by decide)
        executed := ?_
        reached := ?_
        fetched := ?_
        get := ?_
        queue := ?_
        waiting := fun t hp hpub => ?_ }
      · dsimp only
        rw [Function.update_of_ne (by decide)]
        exact ht.moved
      · dsimp only
        rw [hcompletion]
        have := ht.done.1
        omega
      · dsimp only
        rw [List.length_append]
        exact hnext
      · dsimp only
        rw [hcompletion, List.length_append, List.length_singleton]
        refine ⟨by omega, fun hlt => ?_⟩
        have hj' := List.getElem?_eq_getElem (show m.words completionOffset + 1 < l.jobs.length by
          rw [ht.issued]
          exact hlt)
        rw [start_succ hj', Job.cells_length]
        omega
      · dsimp only
        rw [List.length_append, List.length_singleton]
        omega
      · dsimp only
        rw [List.length_append, List.length_singleton, hget, hshift]
      · dsimp only
        rw [List.length_append, List.length_singleton]
        exact hqueue
      · obtain ⟨j, hj, hticket, hw⟩ := ht.waiting t hp hpub
        refine ⟨j, hj, hticket, hw.congr rfl fun o ho => Function.update_of_ne ?_ _ _⟩
        have : completionOffset = 8704 := rfl
        omega
    · exact ht

theorem Tracks.step {op : Op T G} {out : Except Error Answer} (ht : Tracks payload l m)
    (he : Effect wire payload m op out m') :
    Tracks payload (l.advance wire ⟨m, op, out, m'⟩) m' := by
  cases he with
  | refused => exact ht
  | prepared j batch hd h =>
    have hl : l.advance wire ⟨m, op, .ok (.ticket j.ticket), m.write j batch⟩ =
        { l with draft := some j } := by
      cases op <;> first | cases hd | simp only [Ledger.advance, hd]
    rw [hl]
    exact ht.prepared h
  | @published intact ticket hpend hpub =>
    obtain ⟨j, hj, hticket, hw⟩ := ht.waiting ticket hpend hpub
    have hl : l.advance wire ⟨m, .publish intact ticket, .ok .done, m.move ticket⟩ =
        { jobs := l.jobs ++ [j] } := by
      simp [Ledger.advance, hj, hticket]
    rw [hl]
    have := ht.published hpend hticket hw
    exact { this with
      waiting := by
        intro t _ hn
        cases hn }
  | aborted hpend hpub =>
    exact { ht with
      fine := fun i x hx => (ht.fine i x hx).congr rfl rfl
      waiting := by
        rintro t ⟨⟩
      fresh := fun _ => hpub }
  | notified hpend hpub =>
    exact { ht with
      fine := fun i x hx => (ht.fine i x hx).congr rfl rfl
      waiting := by
        rintro t ⟨⟩
      fresh := fun _ => rfl }
  | broken h =>
    have := ht.done
    omega
  | polled hlow hhigh => exact ht.polled hlow hhigh
  | fetched => exact ht.fetched_step
  | loaded => exact ht.loaded _ _
  | executed => exact ht.executed_step

end

end Fifo
end NvidiaGsp
