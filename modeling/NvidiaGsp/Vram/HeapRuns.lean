import NvidiaGsp.Vram.HeapSpec

/-!
# Vram.HeapRuns

The allocator over whole runs: `heap_run` says what every run keeps and what every call answers.
-/

namespace NvidiaGsp
namespace Vram
namespace Heap

open Call Inventory Extent

variable {me : Nat} {views : Nat → View} {s s' : State} {nodes : List Nat}

abbrev History := List (Event State Op (Except Error Answer))

/-! ## Calls -/

def Op.request : Op → Option Request
  | .reserve view epoch range bytes alignment => some ⟨view, epoch, range, bytes, alignment, 0⟩
  | .reserveNonzero view epoch range bytes alignment => some ⟨view, epoch, range, bytes, alignment, 65536⟩
  | .release _ _ => none

def Op.range : Op → Nat
  | .reserve _ _ range _ _ | .reserveNonzero _ _ range _ _ | .release range _ => range

/-- What a reservation answers and leaves. -/
def Reserves (me : Nat) (views : Nat → View) (s : State) (nodes : List Nat) (q : Request) :
    Except Error Answer → State → Prop
  | .ok (.base b), s' => Admitted views s q ∧ Granted me views s nodes q b s'
  | .ok .done, _ => False
  | .error e, s' => s' = s ∧ (Admitted views s q → Refused views s nodes q e) ∧
      (¬ Admitted views s q → e = .Stale ∨ e = .Bounds)

/-- What a release answers and leaves. -/
def Releases (me : Nat) (views : Nat → View) (s : State) (nodes : List Nat) (a : Nat) (quiesced : Bool) :
    Except Error Answer → State → Prop
  | .ok .done, s' => quiesced = true ∧ ∃ before after, nodes = before ++ a :: after ∧
      s'.ranges a = {} ∧ s'.spans (before ++ after) = s.spans (before ++ after) ∧
      Book me views s' (before ++ after)
  | .ok (.base _), _ => False
  | .error e, s' => s' = s ∧ ((a ∉ nodes ∧ e = .Stale) ∨
      (a ∈ nodes ∧ quiesced = false ∧ e = .Retained))

def Answered (me : Nat) (views : Nat → View) (s : State) (nodes : List Nat) :
    Op → Except Error Answer → State → Prop
  | .reserve view epoch range bytes alignment =>
    Reserves me views s nodes ⟨view, epoch, range, bytes, alignment, 0⟩
  | .reserveNonzero view epoch range bytes alignment =>
    Reserves me views s nodes ⟨view, epoch, range, bytes, alignment, 65536⟩
  | .release range quiesced => Releases me views s nodes range quiesced

/-- Every call on a well-formed list answers by the list. -/
theorem step_spec (hme : me ≠ 0) (hb : Book me views s nodes) (op : Op) :
    Answered me views s nodes op (step me views s op).1 (step me views s op).2 := by
  refine Spec.outcome (P := Answered me views s nodes op) ?_
  cases op with
  | reserve view epoch range bytes alignment =>
    exact (reserveInner_spec hme hb ⟨view, epoch, range, bytes, alignment, 0⟩).seq
      (fun _ _ h => Spec.pure h) fun _ _ h => h
  | reserveNonzero view epoch range bytes alignment =>
    exact (reserveInner_spec hme hb ⟨view, epoch, range, bytes, alignment, 65536⟩).seq
      (fun _ _ h => Spec.pure h) fun _ _ h => h
  | release range quiesced =>
    refine (release_spec hb range quiesced).seq (fun _ s' h => Spec.pure ?_) fun _ _ h => h
    obtain ⟨hq, before, after, rfl, rfl⟩ := h
    exact ⟨hq, before, after, rfl, released_range .., hb.released_spans, hb.released⟩

/-! ## Runs -/

/-- The last successful call on the range granted its extent. -/
def Stamped (h : History) (s : State) (a : Nat) : Prop :=
  ∃ h₁ e h₂ q, h = h₁ ++ e :: h₂ ∧ e.op.request = some q ∧ q.range = a ∧
    e.out = .ok (.base (s.ranges a).span.base) ∧ (s.ranges a).span.bytes = q.bytes ∧
    q.alignment.val ∣ (s.ranges a).span.base ∧
    ∀ f ∈ h₂, f.op.range = a → ∃ err, f.out = .error err

theorem Stamped.extend {h : History} {a : Nat} {f : Event State Op (Except Error Answer)}
    (hs : Stamped h s a) (hspan : (s'.ranges a).span = (s.ranges a).span)
    (hf : f.op.range = a → ∃ err, f.out = .error err) : Stamped (h ++ [f]) s' a := by
  obtain ⟨h₁, e, h₂, q, rfl, hq, hrange, hout, hbytes, halign, hlater⟩ := hs
  refine ⟨h₁, e, h₂ ++ [f], q, by simp, hq, hrange, hspan ▸ hout, hspan ▸ hbytes, hspan ▸ halign, ?_⟩
  intro g hg hga
  rcases List.mem_append.mp hg with hg | hg
  · exact hlater g hg hga
  · obtain rfl := List.mem_singleton.mp hg
    exact hf hga

/-- The list after any run, with the history of its ranges. -/
def Kept (me : Nat) (views : Nat → View) (h : History) (s : State) (nodes : List Nat) : Prop :=
  Book me views s nodes ∧ ∀ a ∈ nodes, Stamped h s a

/-- A granted reservation adds its range to the list. -/
theorem granted_kept {h : History} {q : Request} {base : Nat} {op : Op} (hk : Kept me views h s nodes)
    (hop : op.request = some q) (hrange : op.range = q.range)
    (hg : Granted me views s nodes q base s') :
    ∃ nodes', Kept me views (h ++ [⟨s, op, .ok (.base base), s'⟩]) s' nodes' := by
  obtain ⟨before, after, rfl, hbook⟩ := hg.book
  obtain ⟨-, halign, -, -⟩ := firstFit_placed hg.fit
  refine ⟨_, hbook, fun a ha => ?_⟩
  by_cases hx : a = q.range
  · subst hx
    refine ⟨h, _, [], q, rfl, hop, rfl, ?_, ?_, ?_, by simp⟩
    · rw [hg.span]
    · rw [hg.span]
    · rw [hg.span]
      exact halign
  · have hold : a ∈ before ++ after := by
      rcases List.mem_append.mp ha with ha | ha
      · exact List.mem_append_left _ ha
      · exact List.mem_append_right _ ((List.mem_cons.mp ha).resolve_left hx)
    exact (hk.2 a hold).extend (hg.kept a hold) fun h => absurd (h.symm.trans hrange) hx

theorem reserves_kept {h : History} {q : Request} {op : Op} {out : Except Error Answer}
    (hk : Kept me views h s nodes) (hop : op.request = some q) (hrange : op.range = q.range)
    (hr : Reserves me views s nodes q out s') :
    ∃ nodes', Kept me views (h ++ [⟨s, op, out, s'⟩]) s' nodes' := by
  match out, hr with
  | .ok (.base _), hr => exact granted_kept hk hop hrange hr.2
  | .error e, hr =>
    obtain ⟨rfl, -⟩ := hr
    exact ⟨nodes, hk.1, fun a ha => (hk.2 a ha).extend rfl fun _ => ⟨e, rfl⟩⟩

theorem releases_kept {h : History} {x : Nat} {quiesced : Bool} {out : Except Error Answer}
    (hk : Kept me views h s nodes) (hr : Releases me views s nodes x quiesced out s') :
    ∃ nodes', Kept me views (h ++ [⟨s, .release x quiesced, out, s'⟩]) s' nodes' := by
  match out, hr with
  | .ok .done, hr =>
    obtain ⟨-, before, after, rfl, -, hspans, hbook⟩ := hr
    refine ⟨_, hbook, fun a ha => ?_⟩
    have hold : a ∈ before ++ x :: after := by
      rcases List.mem_append.mp ha with ha | ha
      · exact List.mem_append_left _ ha
      · exact List.mem_append_right _ (List.mem_cons_of_mem _ ha)
    exact (hk.2 a hold).extend (List.map_inj_left.mp hspans a ha) fun h =>
      absurd h.symm (hk.1.removed_ne ha)
  | .error e, hr =>
    obtain ⟨rfl, -⟩ := hr
    exact ⟨nodes, hk.1, fun a ha => (hk.2 a ha).extend rfl fun _ => ⟨e, rfl⟩⟩

/-- One call keeps the list. -/
theorem step_kept (hme : me ≠ 0) {h : History} {op : Op} {out : Except Error Answer}
    (hk : Kept me views h s nodes) (hs : step me views s op = (out, s')) :
    ∃ nodes', Kept me views (h ++ [⟨s, op, out, s'⟩]) s' nodes' := by
  have hspec := step_spec hme hk.1 op
  rw [hs] at hspec
  cases op with
  | reserve view epoch range bytes alignment => exact reserves_kept hk rfl rfl hspec
  | reserveNonzero view epoch range bytes alignment => exact reserves_kept hk rfl rfl hspec
  | release range quiesced => exact releases_kept hk hspec

/-- An owner that is not bound has an empty list. -/
theorem Book.empty (howner : s.owner = {}) (hranges : ∀ a, (s.ranges a).owner ≠ some me) :
    Book me views s [] where
  fresh := fun _ => howner
  bound := fun h => absurd (by rw [howner]) h
  first := by rw [howner]; rfl
  links := fun pre x post h => by simp at h
  live := fun a ha => by simp at ha
  owned := fun a ha => absurd ha (hranges a)
  sorted := List.Pairwise.nil
  bytes := by rw [howner]; rfl
  count := by rw [howner]; rfl
  placed := fun v _ span hspan => by simp [State.spans] at hspan

/-- Every run keeps the list of live ranges sorted, placed and counted, and every next call answers
by it: a reservation grants the first fit, and refuses for want of one, of a usable layout or of
addresses; a call that fails changes nothing. -/
theorem heap_run (hme : me ≠ 0) {s₀ : State} (howner : s₀.owner = {})
    (hranges : ∀ a, (s₀.ranges a).owner ≠ some me) {h : History}
    (hr : Run (step me views) s₀ h s) :
    ∃ nodes, Book me views s nodes ∧ (∀ a ∈ nodes, Stamped h s a) ∧
      ∀ op, Answered me views s nodes op (step me views s op).1 (step me views s op).2 := by
  have hinv : ∃ nodes, Kept me views h s nodes := by
    refine hr.invariant (P := fun h s => ∃ nodes, Kept me views h s nodes) ?_ ?_
    · exact ⟨[], Book.empty howner hranges, by simp⟩
    · rintro h s op out s' ⟨nodes, hk⟩ hs
      exact step_kept hme hk hs
  obtain ⟨nodes, hbook, hstamped⟩ := hinv
  exact ⟨nodes, hbook, hstamped, fun op => step_spec hme hbook op⟩

/-- One open region of a gigabyte with a retained span at its start. -/
def gigabyte (usable : Bool) : View where
  catalog := ⟨1, 2 ^ 30, usable, [{ base := 0, bytes := 2 ^ 30, iso := true, compressed := true }],
    [⟨0, 4096⟩]⟩
  published := true
  small := by cases usable <;> decide
  prepared := ⟨1, 2 ^ 30, usable, [{ base := 0, bytes := 2 ^ 30, iso := true, compressed := true }],
    [⟨0, 4096⟩], by cases usable <;> rfl⟩

/-- Reserve, and release without and with the work of the GPU done. -/
def gigabyteOps : List Op :=
  [.reserve 9 1 5 131072 65536, .reserveNonzero 9 1 6 65536 1048576, .release 5 false, .release 5 true]

theorem heap_run_gigabyte :
    ∃ nodes, Book 3 (fun _ => gigabyte true) (exec (step 3 fun _ => gigabyte true) {} gigabyteOps).2 nodes ∧
      (∀ a ∈ nodes, Stamped (exec (step 3 fun _ => gigabyte true) {} gigabyteOps).1
        (exec (step 3 fun _ => gigabyte true) {} gigabyteOps).2 a) ∧
      ∀ op, Answered 3 (fun _ => gigabyte true)
        (exec (step 3 fun _ => gigabyte true) {} gigabyteOps).2 nodes op
        (step 3 (fun _ => gigabyte true)
          (exec (step 3 fun _ => gigabyte true) {} gigabyteOps).2 op).1
        (step 3 (fun _ => gigabyte true)
          (exec (step 3 fun _ => gigabyte true) {} gigabyteOps).2 op).2 :=
  heap_run (by decide) rfl (fun _ => by simp) (.of_exec _ _ gigabyteOps)

/-- A published inventory whose layout changed refuses although an open region has room. -/
theorem reserve_unusable :
    (gigabyte false).published = true ∧
      (∃ r ∈ (gigabyte false).catalog.regions, Eligible r ∧
        Fits (gigabyte false) [] r 65536 65536 0 65536) ∧
      (step 3 (fun _ => gigabyte false) {} (.reserve 9 1 5 65536 65536)).1 = .error .Memory := by
  refine ⟨rfl, ⟨_, List.mem_cons_self, ⟨rfl, rfl, rfl, rfl⟩, ?_⟩, by rfl⟩
  refine ⟨by decide, by decide, by decide, fun held hheld => ?_, by simp⟩
  obtain rfl := List.mem_singleton.mp hheld
  decide

end Heap
end Vram
end NvidiaGsp
