import NvidiaGsp.Display.AuxEdid

/-!
# Display.AuxEdidSpec

What one reply does to the reader (`consume_took`): a retry, a failure or a step of its state. From it
the invariant of all runs (`Tidy`): the bytes up to the cursor are those that were read, a complete
block has all of them, and the transaction is closed at both ends. Every step lowers `Link.left`, so a
run ends for any answers.
-/

namespace NvidiaGsp
namespace Aux

open Bytes

variable {r r' : Reader} {reply : Reply} {now delayNs displayId : Nat} {opened : Bool} {l l' : Link}
  {op : Operation} {answer : Answer} {input : List Byte} {got : List Byte}

theorem delay_ok (h : r.delay now delayNs = (.ok (), r')) :
    r' = { r with retryAtNs := now + delayNs, retries := r.retries + 1 } := by
  unfold Reader.delay at h
  split at h
  · cases h
  · cases h
    rfl

theorem fail_ok (h : r.fail opened = (.ok (), r')) : r.state ≠ .stop ∧ r' = r.abort opened := by
  unfold Reader.fail at h
  split at h
  · cases h
  · cases h
    exact ⟨‹_›, rfl⟩

/-- The reader with its retries forgotten. -/
def Reader.fresh (r : Reader) : Reader :=
  { r with rmRetries := 0, deferRetries := 0, retryAtNs := 0, statusQuery := false }

/-- The requests that may still be put off. -/
def Reader.patience (r : Reader) : Nat := (2 - r.rmRetries) + (7 - r.deferRetries)

/-- What a reply without an error does. -/
inductive Took (r : Reader) (reply : Reply) (opened : Bool) : Reader → Prop where
  | retry {r' : Reader} (hstate : r'.state = r.state) (hblock : r'.block = r.block)
      (hcursor : r'.cursor = r.cursor) (hbytes : r'.bytes = r.bytes)
      (hcount : r'.patience + 1 = r.patience)
      (hack : reply.kind = .ack → reply.status = 0 → reply.count = 0 ∧ r.state ≠ .stop ∧ r.state ≠ .read) :
      Took r reply opened r'
  | fail {r' : Reader} (hstop : r.state ≠ .stop) (hstate : r'.state = if opened then .stop else .rejected)
      (hbytes : r'.bytes = r.bytes) : Took r reply opened r'
  | ack {r' : Reader} (hstatus : reply.status = 0) (hkind : reply.kind = .ack)
      (hcount : r.state = .read → reply.count ≠ 0)
      (h : r.fresh.advance reply = (.ok (), r')) : Took r reply opened r'

theorem consume_took (h : r.consume reply now opened = (.ok (), r')) : Took r reply opened r' := by
  unfold Reader.consume at h
  split at h
  · cases h
  · split at h
    · rename_i hstatus
      split at h
      · rename_i hretry
        rw [delay_ok h]
        refine .retry rfl rfl rfl rfl ?_ fun _ hz => absurd hz hstatus
        show (2 - (r.rmRetries + 1)) + (7 - r.deferRetries) + 1 = (2 - r.rmRetries) + (7 - r.deferRetries)
        omega
      · obtain ⟨hstop, rfl⟩ := fail_ok h
        exact .fail hstop rfl rfl
    · rename_i hstatus
      split at h
      · rename_i hdefer
        split at h
        · rename_i hretry
          rw [delay_ok h]
          refine .retry rfl rfl rfl rfl ?_ fun hack _ => ?_
          · show (2 - r.rmRetries) + (7 - (r.deferRetries + 1)) + 1 = (2 - r.rmRetries) + (7 - r.deferRetries)
            omega
          · rcases hdefer with hk | hk | hk
            · rw [hack] at hk
              cases hk
            · rw [hack] at hk
              cases hk
            · exact ⟨hk.2.1, hk.2.2⟩
        · obtain ⟨hstop, rfl⟩ := fail_ok h
          exact .fail hstop rfl rfl
      · split at h
        · obtain ⟨hstop, rfl⟩ := fail_ok h
          exact .fail hstop rfl rfl
        · rename_i hack
          exact .ack (not_not.mp hstatus) (not_not.mp (not_or.mp hack).1)
            (fun hs hc => (not_or.mp hack).2 ⟨hc, hs⟩) h

/-! ## The wire -/

theorem decode_count (h : decode displayId op answer.status answer.bytes = .ok reply) :
    reply.count ≤ op.length ∧ ((∃ count last, op = .read count last ∧ count ≤ 16) →
      reply.data.length = reply.count) := by
  unfold decode at h
  split at h
  · cases h
  · rename_i hlen
    split at h
    · cases h
    · split at h
      · cases h
        exact ⟨Nat.zero_le _, fun _ => rfl⟩
      · split at h
        · cases h
        · split at h
          · cases h
            exact ⟨Nat.zero_le _, fun _ => rfl⟩
          · split at h
            · cases h
            · rename_i hcount
              cases h
              refine ⟨Nat.not_lt.mp hcount, fun ⟨count, last, hop, hle⟩ => ?_⟩
              subst hop
              simp only [Operation.length, Nat.not_lt] at hcount
              simp only [List.length_take, List.length_drop]
              omega

/-! ## Every run -/

/-- The bytes that an answer to the reader's request carries. -/
def Link.data (displayId : Nat) (l : Link) (answer : Answer) : List Byte :=
  match l.reader.query with
  | .ok (.read count last) =>
    match decode displayId (.read count last) answer.status answer.bytes with
    | .ok reply => reply.data
    | .error _ => []
  | _ => []

/-- A run of `n` requests, with the bytes read so far; it stays at its end, and stops at an error. -/
def Link.run (displayId : Nat) (answers : Nat → Answer × Nat) (l : Link) :
    Nat → Except Error (Link × List Byte)
  | 0 => .ok (l, [])
  | n + 1 =>
    match l.run displayId answers n with
    | .error e => .error e
    | .ok (l, got) =>
      if l.ended then .ok (l, got)
      else match l.step displayId (answers n) with
      | (.error e, _) => .error e
      | (.ok (), l') => .ok (l', got ++ l.data displayId (answers n).1)

/-- What holds after any replies. -/
structure Tidy (got : List Byte) (l : Link) : Prop where
  length : l.reader.bytes.length = 128
  reading : l.reader.state = .segment ∨ l.reader.state = .offset ∨ l.reader.state = .read →
    l.reader.cursor < 128 ∧ got.length = l.reader.cursor ∧ l.reader.bytes.take l.reader.cursor = got
  stopping : l.reader.state = .stop → l.opened = true
  complete : l.reader.state = .complete → l.opened = false ∧ got.length = 128 ∧ l.reader.bytes = got
  rejected : l.reader.state = .rejected → l.opened = false

/-- The steps that the selection still takes. -/
def State.phase : State → Nat
  | .segment => 2
  | .offset => 1
  | _ => 0

/-- The requests that are left at most. -/
def Link.left (l : Link) : Nat :=
  match l.reader.state with
  | .complete | .rejected => 0
  | .stop => l.reader.patience + 1
  | s => (3 * (128 - l.reader.cursor) + s.phase) * 10 + l.reader.patience

theorem patience_le (r : Reader) : r.patience ≤ 9 := by
  unfold Reader.patience
  omega

theorem selection_cases (block : Nat) (forceZero : Bool) :
    selection block forceZero = .segment ∨ selection block forceZero = .offset := by
  unfold selection
  split
  · exact .inl rfl
  · exact .inr rfl

/-- The reader's request and the reply of a step. -/
theorem step_ok {a : Answer × Nat} (h : l.step displayId a = (.ok (), l')) :
    ∃ op reply, l.reader.query = .ok op ∧ (op = .stop → l.opened = true) ∧
      decode displayId op a.1.status a.1.bytes = .ok reply ∧ l'.opened = !closes op reply ∧
      l.reader.consume reply a.2 l'.opened = (.ok (), l'.reader) := by
  unfold Link.step at h
  split at h
  · cases h
  · rename_i op hquery
    unfold Link.take at h
    split at h
    · cases h
    · rename_i hopen
      split at h
      · cases h
      · split at h
        · cases h
        · rename_i reply hdecode
          dsimp only at h
          obtain ⟨hout, hlink⟩ := Prod.mk.inj h
          subst hlink
          refine ⟨op, reply, hquery, fun hs => ?_, hdecode, rfl, Prod.ext hout rfl⟩
          cases ho : l.opened with
          | true => rfl
          | false => exact absurd ⟨hs, ho⟩ hopen

theorem query_read {count : Nat} {last : Bool} (h : r.query = .ok (.read count last)) :
    r.state = .read ∧ count = min 16 (128 - r.cursor) ∧ last = decide (r.cursor ≥ 112) := by
  unfold Reader.query at h
  split at h
  · split at h <;> cases h
  · split at h <;> cases h
  · rename_i hs
    cases h
    exact ⟨hs, rfl, rfl⟩
  · cases h
  · cases h
  · cases h

theorem query_of_read (h : r.state = .read) :
    r.query = .ok (.read (min 16 (128 - r.cursor)) (decide (r.cursor ≥ 112))) := by
  unfold Reader.query
  rw [h]

theorem data_of_read {reply : Reply} (hs : l.reader.state = .read)
    (h : decode displayId (.read (min 16 (128 - l.reader.cursor)) (decide (l.reader.cursor ≥ 112)))
      answer.status answer.bytes = .ok reply) : l.data displayId answer = reply.data := by
  unfold Link.data
  rw [query_of_read hs]
  dsimp only
  rw [h]

theorem data_of_not_read (hs : l.reader.state ≠ .read) : l.data displayId answer = [] := by
  unfold Link.data
  split
  · rename_i hquery
    exact absurd (query_read hquery).1 hs
  · rfl

/-- Only an acknowledged read carries bytes. -/
theorem decode_data (h : decode displayId op answer.status answer.bytes = .ok reply)
    (hack : reply.kind = .ack → reply.count = 0 ∨ reply.status ≠ 0) : reply.data = [] := by
  unfold decode at h
  split at h
  · cases h
  · split at h
    · cases h
    · split at h
      · cases h
        rfl
      · split at h
        · cases h
        · split at h
          · cases h
            rfl
          · rename_i hstatus _ kind _ hkind
            split at h
            · cases h
            · cases h
              rcases hack (not_not.mp hkind) with hc | hc
              · dsimp only at hc ⊢
                rw [hc]
                split <;> rfl
              · exact absurd rfl hc

theorem advance_segment (hs : r.state = .segment) (h : r.fresh.advance reply = (.ok (), r')) :
    r' = { r.fresh with state := .offset } := by
  unfold Reader.advance at h
  rw [show r.fresh.state = .segment from hs] at h
  cases h
  rfl

theorem advance_offset (hs : r.state = .offset) (h : r.fresh.advance reply = (.ok (), r')) :
    r' = { r.fresh with state := .read } := by
  unfold Reader.advance at h
  rw [show r.fresh.state = .offset from hs] at h
  cases h
  rfl

theorem advance_stop (hs : r.state = .stop) (h : r.fresh.advance reply = (.ok (), r')) :
    r' = { r.fresh with state := .rejected } := by
  unfold Reader.advance at h
  rw [show r.fresh.state = .stop from hs] at h
  cases h
  rfl

/-- The state after a read of `count` bytes. -/
def Reader.after (r : Reader) (count : Nat) : State :=
  if r.cursor + count = 128 then .complete
  else if r.cursor ≥ 112 then selection r.block r.forceZero else .read

theorem advance_read (hs : r.state = .read) (h : r.fresh.advance reply = (.ok (), r')) :
    reply.count ≤ 128 - r.cursor ∧ r' = { r.fresh with
      bytes := blit r.bytes r.cursor reply.data, cursor := r.cursor + reply.count
      state := r.after reply.count } := by
  unfold Reader.advance at h
  rw [show r.fresh.state = .read from hs] at h
  dsimp only at h
  split at h
  · cases h
  · rename_i hcount
    cases h
    exact ⟨Nat.not_lt.mp (not_or.mp hcount).1, rfl⟩

/-- A link that has not ended is reading or stopping. -/
theorem open_cases (h : l.ended = false) : (l.reader.state = .segment ∨ l.reader.state = .offset ∨
    l.reader.state = .read) ∨ l.reader.state = .stop := by
  unfold Link.ended at h
  rw [decide_eq_false_iff_not, not_or] at h
  cases hs : l.reader.state with
  | segment => exact .inl (.inl rfl)
  | offset => exact .inl (.inr (.inl rfl))
  | read => exact .inl (.inr (.inr rfl))
  | stop => exact .inr rfl
  | complete => exact absurd hs h.1
  | rejected => exact absurd hs h.2

theorem take_blit {bytes src : List Byte} {offset : Nat} (h : offset ≤ bytes.length) :
    (blit bytes offset src).take (offset + src.length) = bytes.take offset ++ src := by
  have hlen : (bytes.take offset ++ src).length = offset + src.length := by
    rw [List.length_append, List.length_take, Nat.min_eq_left h]
  unfold blit
  rw [← hlen, List.take_left]

/-- A retry or a failed request carries no bytes. -/
theorem retry_data (hdecode : decode displayId op answer.status answer.bytes = .ok reply)
    (hquery : l.reader.query = .ok op)
    (hack : reply.kind = .ack → reply.status = 0 → reply.count = 0) : l.data displayId answer = [] := by
  by_cases hs : l.reader.state = .read
  · rw [query_of_read hs] at hquery
    cases hquery
    rw [data_of_read hs hdecode]
    refine decode_data hdecode fun hk => ?_
    by_cases hz : reply.status = 0
    · exact .inl (hack hk hz)
    · exact .inr hz
  · exact data_of_not_read hs

/-- What a retry keeps. -/
theorem tidy_retry (ht : Tidy got l) (he : l.ended = false) (hstate : l'.reader.state = l.reader.state)
    (hcursor : l'.reader.cursor = l.reader.cursor) (hbytes : l'.reader.bytes = l.reader.bytes)
    (hopened : l.reader.state = .stop → l'.opened = true) : Tidy got l' := by
  have hnot : l'.ended = false := by
    unfold Link.ended at he ⊢
    rwa [hstate]
  refine ⟨hbytes ▸ ht.length, ?_, fun hs => hopened (hstate ▸ hs), fun hs => ?_, fun hs => ?_⟩
  · rw [hstate, hcursor, hbytes]
    exact ht.reading
  · simp [Link.ended, hs] at hnot
  · simp [Link.ended, hs] at hnot

theorem tidy_read {count : Nat} {data : List Byte} (ht : Tidy got l) (hs : l.reader.state = .read)
    (hdata : data.length = count) (hcount : count ≤ 128 - l.reader.cursor ∧ count ≤ 16)
    (hreader : l'.reader = { l.reader.fresh with
      bytes := blit l.reader.bytes l.reader.cursor data, cursor := l.reader.cursor + count
      state := l.reader.after count })
    (hopened : l.reader.cursor ≥ 112 → l'.opened = false) : Tidy (got ++ data) l' := by
  obtain ⟨hcursor, hgot, htake⟩ := ht.reading (.inr (.inr hs))
  have hlength := ht.length
  have hfit : l.reader.cursor + data.length ≤ l.reader.bytes.length := by omega
  have hbytes : (blit l.reader.bytes l.reader.cursor data).length = 128 := by
    rw [length_blit hfit, hlength]
  have hnew : (blit l.reader.bytes l.reader.cursor data).take (l.reader.cursor + count) = got ++ data := by
    rw [← hdata, take_blit (by omega), htake]
  have hsel := selection_cases l.reader.block l.reader.forceZero
  constructor
  · rw [hreader]
    exact hbytes
  · rw [hreader]
    intro hstate
    change l.reader.after count = .segment ∨ l.reader.after count = .offset ∨
      l.reader.after count = .read at hstate
    refine ⟨?_, ?_, hnew⟩
    · show l.reader.cursor + count < 128
      by_contra hge
      have hfull : l.reader.cursor + count = 128 := by omega
      unfold Reader.after at hstate
      rw [if_pos hfull] at hstate
      simp at hstate
    · rw [List.length_append, hgot, hdata]
  · intro hstate
    rw [hreader] at hstate
    change l.reader.after count = .stop at hstate
    unfold Reader.after at hstate
    split at hstate
    · cases hstate
    · split at hstate
      · rcases hsel with h | h <;> rw [h] at hstate <;> cases hstate
      · cases hstate
  · intro hstate
    have hafter : l.reader.after count = .complete := by
      rw [hreader] at hstate
      exact hstate
    have hfull : l.reader.cursor + count = 128 := by
      unfold Reader.after at hafter
      split at hafter
      · assumption
      · split at hafter
        · rcases hsel with h | h <;> rw [h] at hafter <;> cases hafter
        · cases hafter
    refine ⟨hopened (by omega), by rw [List.length_append, hgot, hdata, hfull], ?_⟩
    rw [hreader, ← hnew, hfull, ← hbytes, List.take_length]
  · intro hstate
    rw [hreader] at hstate
    change l.reader.after count = .rejected at hstate
    unfold Reader.after at hstate
    split at hstate
    · cases hstate
    · split at hstate
      · rcases hsel with h | h <;> rw [h] at hstate <;> cases hstate
      · cases hstate

theorem tidy_step {a : Answer × Nat} (ht : Tidy got l) (he : l.ended = false)
    (h : l.step displayId a = (.ok (), l')) : Tidy (got ++ l.data displayId a.1) l' ∧ l'.left < l.left := by
  obtain ⟨op, reply, hquery, hstop, hdecode, hopened, hconsume⟩ := step_ok h
  have hpatience := patience_le l'.reader
  cases consume_took hconsume with
  | retry hstate hblock hcursor hbytes hcount hack =>
    rw [retry_data hdecode hquery fun hk hz => (hack hk hz).1, List.append_nil]
    refine ⟨tidy_retry ht he hstate hcursor hbytes fun hs => ?_, ?_⟩
    · have hclosed : closes op reply = false := by
        unfold closes
        rw [decide_eq_false fun hz => (hack hz.2 hz.1).2.1 hs]
        rfl
      rw [hopened, hclosed]
      rfl
    · unfold Link.left
      rw [hstate, hcursor]
      rcases open_cases he with (hs | hs | hs) | hs <;> rw [hs] <;> dsimp only <;> omega
  | fail hns hstate hbytes =>
    have hreading := ht.reading ((open_cases he).resolve_right hns)
    cases ho : l'.opened with
    | true =>
      rw [ho, if_pos rfl] at hstate
      refine ⟨⟨hbytes ▸ ht.length, by rw [hstate]; simp, fun _ => ho, by rw [hstate]; nofun,
        by rw [hstate]; nofun⟩, ?_⟩
      unfold Link.left
      rw [hstate]
      rcases (open_cases he).resolve_right hns with hs | hs | hs <;> rw [hs] <;> dsimp only <;> omega
    | false =>
      rw [ho, if_neg Bool.false_ne_true] at hstate
      refine ⟨⟨hbytes ▸ ht.length, by rw [hstate]; simp, by rw [hstate]; nofun, by rw [hstate]; nofun,
        fun _ => ho⟩, ?_⟩
      unfold Link.left
      rw [hstate]
      rcases (open_cases he).resolve_right hns with hs | hs | hs <;> rw [hs] <;> dsimp only <;> omega
  | ack hstatus hkind hcount hadv =>
    have hfresh : l.reader.fresh.patience = 9 := rfl
    rcases open_cases he with (hs | hs | hs) | hs
    · have hreader := advance_segment hs hadv
      have hreading := ht.reading (.inl hs)
      rw [data_of_not_read (by rw [hs]; nofun), List.append_nil]
      refine ⟨⟨?_, ?_, ?_, ?_, ?_⟩, ?_⟩
      · rw [hreader]
        exact ht.length
      · rw [hreader]
        exact fun _ => hreading
      · rw [hreader]
        nofun
      · rw [hreader]
        nofun
      · rw [hreader]
        nofun
      · unfold Link.left
        rw [hreader, hs]
        show (3 * (128 - l.reader.cursor) + 1) * 10 + 9 < (3 * (128 - l.reader.cursor) + 2) * 10 + _
        omega
    · have hreader := advance_offset hs hadv
      have hreading := ht.reading (.inr (.inl hs))
      rw [data_of_not_read (by rw [hs]; nofun), List.append_nil]
      refine ⟨⟨?_, ?_, ?_, ?_, ?_⟩, ?_⟩
      · rw [hreader]
        exact ht.length
      · rw [hreader]
        exact fun _ => hreading
      · rw [hreader]
        nofun
      · rw [hreader]
        nofun
      · rw [hreader]
        nofun
      · unfold Link.left
        rw [hreader, hs]
        show (3 * (128 - l.reader.cursor) + 0) * 10 + 9 < (3 * (128 - l.reader.cursor) + 1) * 10 + _
        omega
    · obtain ⟨hle, hreader⟩ := advance_read hs hadv
      rw [query_of_read hs] at hquery
      cases hquery
      rw [data_of_read hs hdecode]
      obtain ⟨hlength, hdata⟩ := decode_count hdecode
      simp only [Operation.length] at hlength
      have hne := hcount hs
      have hreading := ht.reading (.inr (.inr hs))
      refine ⟨tidy_read ht hs (hdata ⟨_, _, rfl, by omega⟩) ⟨hle, by omega⟩ hreader fun hge => ?_, ?_⟩
      · rw [hopened]
        unfold closes
        simp [hstatus, hkind, hge]
      · have hphase : (l.reader.after reply.count).phase ≤ 2 := by
          cases l.reader.after reply.count <;> decide
        have hleft : l'.left ≤ (3 * (128 - (l.reader.cursor + reply.count)) + 2) * 10 + 9 := by
          unfold Link.left
          rw [hreader]
          dsimp only
          cases hafter : l.reader.after reply.count <;> dsimp only
          · show (3 * _ + 2) * 10 + 9 ≤ _
            omega
          · show (3 * _ + 1) * 10 + 9 ≤ _
            omega
          · show (3 * _ + 0) * 10 + 9 ≤ _
            omega
          · show 9 + 1 ≤ _
            omega
          · omega
          · omega
        have hbefore : l.left = (3 * (128 - l.reader.cursor) + 0) * 10 + l.reader.patience := by
          unfold Link.left
          rw [hs]
          rfl
        omega
    · have hreader := advance_stop hs hadv
      have hop : op = .stop := by
        unfold Reader.query at hquery
        rw [hs] at hquery
        cases hquery
        rfl
      have hclosed : l'.opened = false := by
        rw [hopened, hop]
        simp [closes, hstatus, hkind]
      rw [data_of_not_read (by rw [hs]; nofun), List.append_nil]
      refine ⟨⟨?_, ?_, ?_, ?_, fun _ => hclosed⟩, ?_⟩
      · rw [hreader]
        exact ht.length
      · rw [hreader]
        simp
      · rw [hreader]
        nofun
      · rw [hreader]
        nofun
      · unfold Link.left
        rw [hreader, hs]
        exact Nat.succ_pos _

theorem tidy_init {block : Nat} {forceZero : Bool} (h : Reader.init block forceZero = .ok r) :
    Tidy [] ⟨r, false⟩ ∧ Link.left ⟨r, false⟩ ≤ 3869 := by
  unfold Reader.init at h
  split at h
  · cases h
  · cases h
    have hsel := selection_cases block forceZero
    refine ⟨⟨List.length_replicate, fun _ => ⟨Nat.zero_lt_succ _, rfl, rfl⟩, fun hs => ?_, fun hs => ?_,
      fun _ => rfl⟩, ?_⟩
    · change selection block forceZero = .stop at hs
      rcases hsel with h | h <;> rw [h] at hs <;> cases hs
    · change selection block forceZero = .complete at hs
      rcases hsel with h | h <;> rw [h] at hs <;> cases hs
    · unfold Link.left
      dsimp only
      rcases hsel with h | h <;> rw [h] <;> exact Nat.le_of_ble_eq_true rfl

/-- A run that has not failed is tidy, and has ended when its requests are used up. -/
theorem tidy_run {answers : Nat → Answer × Nat} {l₀ : Link} (h₀ : Tidy [] l₀) (n : Nat) :
    ∀ l got, l₀.run displayId answers n = .ok (l, got) →
      Tidy got l ∧ (l.ended = true ∨ l.left + n ≤ l₀.left) := by
  induction n with
  | zero =>
    intro l got h
    cases h
    exact ⟨h₀, .inr (Nat.le_refl _)⟩
  | succ n ih =>
    intro l got h
    rw [Link.run] at h
    split at h
    · cases h
    · rename_i l₁ got₁ hrun
      obtain ⟨ht, hleft⟩ := ih l₁ got₁ hrun
      split at h
      · cases h
        exact ⟨ht, .inl ‹_›⟩
      · rename_i hopen
        split at h
        · cases h
        · rename_i l₂ hstep
          cases h
          have hnot : l₁.ended = false := by simpa using hopen
          obtain ⟨ht', hlt⟩ := tidy_step ht hnot hstep
          have := hleft.resolve_left hopen
          exact ⟨ht', .inr (by omega)⟩

end Aux
end NvidiaGsp
