import NvidiaGsp.Lib.Triples
import NvidiaGsp.Vram.HeapSearch

/-!
# Vram.HeapSpec

What one call of the allocator does to the list. A reservation puts its range between its neighbours,
a release takes one out, and both keep the book.
-/

namespace NvidiaGsp
namespace Vram
namespace Heap

open Call Inventory Extent

variable {me a : Nat} {views : Nat → View} {s s' : State} {nodes before after : List Nat}

/-! ## Pointer writes -/

@[simp] theorem setNext_next (ranges : Nat → Range) (address next : Option Nat) (x : Nat) :
    (setNext ranges address next x).next = if some x = address then next else (ranges x).next := by
  unfold setNext
  cases address with
  | none => rfl
  | some a =>
    by_cases h : x = a
    · subst h
      simp
    · simp [h]

@[simp] theorem setNext_previous (ranges : Nat → Range) (address next : Option Nat) (x : Nat) :
    (setNext ranges address next x).previous = (ranges x).previous := by
  unfold setNext
  cases address with
  | none => rfl
  | some a =>
    by_cases h : x = a
    · subst h
      simp
    · simp [h]

@[simp] theorem setPrevious_previous (ranges : Nat → Range) (address previous : Option Nat) (x : Nat) :
    (setPrevious ranges address previous x).previous =
      if some x = address then previous else (ranges x).previous := by
  unfold setPrevious
  cases address with
  | none => rfl
  | some a =>
    by_cases h : x = a
    · subst h
      simp
    · simp [h]

@[simp] theorem setPrevious_next (ranges : Nat → Range) (address previous : Option Nat) (x : Nat) :
    (setPrevious ranges address previous x).next = (ranges x).next := by
  unfold setPrevious
  cases address with
  | none => rfl
  | some a =>
    by_cases h : x = a
    · subst h
      simp
    · simp [h]

/-- Two ranges that differ in their pointers only. -/
structure Same (r r' : Range) : Prop where
  selfAddress : r'.selfAddress = r.selfAddress
  owner : r'.owner = r.owner
  span : r'.span = r.span
  stamp : r'.stamp = r.stamp

theorem setNext_same (ranges : Nat → Range) (address next : Option Nat) (x : Nat) :
    Same (ranges x) (setNext ranges address next x) := by
  unfold setNext
  cases address with
  | none => exact ⟨rfl, rfl, rfl, rfl⟩
  | some a =>
    by_cases h : x = a
    · subst h
      constructor <;> simp
    · constructor <;> simp [h]

theorem setPrevious_same (ranges : Nat → Range) (address previous : Option Nat) (x : Nat) :
    Same (ranges x) (setPrevious ranges address previous x) := by
  unfold setPrevious
  cases address with
  | none => exact ⟨rfl, rfl, rfl, rfl⟩
  | some a =>
    by_cases h : x = a
    · subst h
      constructor <;> simp
    · constructor <;> simp [h]

theorem Same.trans {r r' r'' : Range} (h : Same r r') (h' : Same r' r'') : Same r r'' :=
  ⟨h'.selfAddress.trans h.selfAddress, h'.owner.trans h.owner, h'.span.trans h.span,
    h'.stamp.trans h.stamp⟩

theorem spans_same {xs : List Nat} (h : ∀ a ∈ xs, Same (s.ranges a) (s'.ranges a)) :
    s'.spans xs = s.spans xs :=
  List.map_congr_left fun a ha => (h a ha).span

theorem Live.same {a : Nat} (h : Live me s a) (hs : Same (s.ranges a) (s'.ranges a)) :
    Live me s' a where
  self := hs.selfAddress.trans h.self
  owner := hs.owner.trans h.owner
  stamp := hs.span.trans (h.stamp.trans hs.stamp.symm)
  bytes := by
    rw [hs.span]
    exact h.bytes

/-! ## A reservation -/

/-- The arguments of a reservation; the two kinds differ in their minimum. -/
structure Request where
  view : Nat
  epoch : Nat
  range : Nat
  bytes : U64
  alignment : U64
  minimum : Nat

/-- The arguments are in order. -/
structure Admitted (views : Nat → View) (s : State) (q : Request) : Prop where
  owner : s.owner.selfAddress = 0 ∨ (s.owner.view = some q.view ∧ s.owner.epoch = q.epoch)
  range : s.ranges q.range = {}
  published : (views q.view).published = true
  epoch : q.epoch ≠ 0 ∧ (views q.view).catalog.epoch = q.epoch
  bytes : 0 < q.bytes.val ∧ q.bytes.val &&& 65535 = 0
  alignment : Alignment q.alignment.val

def Request.firstFit (views : Nat → View) (s : State) (nodes : List Nat) (q : Request) :
    Option Nat → Prop :=
  FirstFit (views q.view) (s.spans nodes) q.bytes.val q.alignment.val q.minimum
    (views q.view).catalog.regions

/-- What a failed reservation answers when its arguments are in order. -/
def Refused (views : Nat → View) (s : State) (nodes : List Nat) (q : Request) (e : Error) : Prop :=
  ((views q.view).catalog.firmwareLayoutUsable = false ∧ e = .Memory) ∨
    ((views q.view).catalog.firmwareLayoutUsable = true ∧
      ((q.firstFit views s nodes none ∧ e = .Memory) ∨
        ∃ b, q.firstFit views s nodes (some b) ∧ videoLimit < b + q.bytes.val ∧ e = .Bounds))

/-- A granted reservation: the range stands between its neighbours. -/
structure Granted (me : Nat) (views : Nat → View) (s : State) (nodes : List Nat) (q : Request)
    (base : Nat) (s' : State) : Prop where
  usable : (views q.view).catalog.firmwareLayoutUsable = true
  fit : q.firstFit views s nodes (some base)
  limit : base + q.bytes.val ≤ videoLimit
  span : (s'.ranges q.range).span = ⟨base, q.bytes.val⟩
  fresh : q.range ∉ nodes
  kept : ∀ a ∈ nodes, (s'.ranges a).span = (s.ranges a).span
  book : ∃ before after, nodes = before ++ after ∧ Book me views s' (before ++ q.range :: after)

theorem firstFit_placed {v : View} {live : List Span} {bytes alignment minimum b : Nat}
    (h : FirstFit v live bytes alignment minimum v.catalog.regions (some b)) :
    Placed v ⟨b, bytes⟩ ∧ alignment ∣ b ∧ minimum ≤ b ∧ ∀ span ∈ live, Apart ⟨b, bytes⟩ span := by
  obtain ⟨pre, region, post, heq, helig, -, hfits, -⟩ := h
  have hlow := hfits.low
  refine ⟨⟨region, heq ▸ List.mem_append_right _ List.mem_cons_self, helig, ?_, hfits.inside,
    hfits.retained⟩, hfits.aligned, ?_, hfits.live⟩
  · exact Nat.le_trans (Nat.le_max_left _ _) hlow
  · exact Nat.le_trans (Nat.le_max_right _ _) hlow

theorem Placed.stop_le {v : View} {span : Span} (h : Placed v span) :
    span.stop ≤ v.catalog.physicalBytes := by
  obtain ⟨r, hr, -, -, hstop, -⟩ := h
  exact Nat.le_trans hstop (v.regions_ok.inside r hr).2

/-- The new extent fits between its neighbours. -/
theorem sorted_insert {x : Span} (hb : Book me views s (before ++ after)) (hpos : 0 < x.bytes)
    (hbefore : ∀ a ∈ before, (s.ranges a).span.base ≤ x.base)
    (hafter : ∀ a, after.head? = some a → x.base < (s.ranges a).span.base)
    (hapart : ∀ span ∈ s.spans (before ++ after), Apart x span) :
    Sorted (s.spans before ++ x :: s.spans after) := by
  have hsorted := hb.sorted
  unfold Sorted State.spans at hsorted
  rw [List.map_append, List.pairwise_append] at hsorted
  obtain ⟨hsb, hsa, hcross⟩ := hsorted
  have hmem {a : Nat} (ha : a ∈ before ++ after) := hapart _ (mem_spans ha)
  have hfront : ∀ y ∈ s.spans before, y.stop ≤ x.base := by
    intro y hy
    obtain ⟨a, ha, rfl⟩ := List.mem_map.mp hy
    have := hbefore a ha
    rcases hmem (List.mem_append_left _ ha) with h | h
    · unfold stop at h
      omega
    · exact h
  have hback : ∀ y ∈ s.spans after, x.stop ≤ y.base := by
    intro y hy
    obtain ⟨a, ha, rfl⟩ := List.mem_map.mp hy
    have hbase : x.base < (s.ranges a).span.base := by
      cases after with
      | nil => cases ha
      | cons z zs =>
        have hz := hafter z rfl
        rcases List.mem_cons.mp ha with rfl | ha
        · exact hz
        · rw [List.map_cons, List.pairwise_cons] at hsa
          have := hsa.1 _ (List.mem_map.mpr ⟨a, ha, rfl⟩)
          unfold stop at this
          omega
    rcases hmem (List.mem_append_right _ ha) with h | h
    · exact h
    · unfold stop at h
      omega
  refine List.pairwise_append.mpr ⟨hsb, List.pairwise_cons.mpr ⟨hback, hsa⟩, fun y hy z hz => ?_⟩
  rcases List.mem_cons.mp hz with rfl | hz
  · exact hfront y hy
  · exact hcross y hy z hz

/-- A range as a reservation writes it. -/
def Request.fill (q : Request) (me base : Nat) (previous next : Option Nat) : Range where
  selfAddress := q.range
  owner := some me
  previous := previous
  next := next
  span := ⟨base, q.bytes⟩
  stamp := ⟨base, q.bytes⟩

/-- The state after a reservation at `base` between two neighbours. -/
def State.reserved (s : State) (me : Nat) (q : Request) (base : Nat) (previous next : Option Nat) :
    State where
  owner := { s.owner with
    selfAddress := me
    view := some q.view
    epoch := q.epoch
    first := if previous.isSome then s.owner.first else some q.range
    bytes := s.owner.bytes + q.bytes.val
    count := s.owner.count + 1 }
  ranges := setPrevious (setNext (Function.update s.ranges q.range (q.fill me base previous next))
    previous (some q.range)) next (some q.range)

theorem reserved_same {q : Request} {base a : Nat} {previous next : Option Nat} (h : a ≠ q.range) :
    Same (s.ranges a) ((s.reserved me q base previous next).ranges a) := by
  have hupdate : Same (s.ranges a)
      (Function.update s.ranges q.range (q.fill me base previous next) a) := by
    rw [Function.update_of_ne h]
    exact ⟨rfl, rfl, rfl, rfl⟩
  exact (hupdate.trans (setNext_same _ _ _ a)).trans (setPrevious_same _ _ _ a)

theorem reserved_range (s : State) (me : Nat) (q : Request) (base : Nat) (previous next : Option Nat) :
    Same (q.fill me base previous next) ((s.reserved me q base previous next).ranges q.range) := by
  have hupdate : Same (q.fill me base previous next)
      (Function.update s.ranges q.range (q.fill me base previous next) q.range) := by
    rw [Function.update_self]
    exact ⟨rfl, rfl, rfl, rfl⟩
  exact (hupdate.trans (setNext_same _ _ _ q.range)).trans (setPrevious_same _ _ _ q.range)

/-- A caller's unused range is in no list. -/
theorem Book.fresh_range (hb : Book me views s nodes) {a : Nat} (h : s.ranges a = {}) : a ∉ nodes := by
  intro ha
  have := (hb.live a ha).owner
  rw [h] at this
  cases this

/-- All live ranges lie in the view the owner is bound to. -/
theorem Book.placed_in (hb : Book me views s nodes) {view epoch : Nat}
    (h : s.owner.selfAddress = 0 ∨ (s.owner.view = some view ∧ s.owner.epoch = epoch)) :
    ∀ span ∈ s.spans nodes, Placed (views view) span := by
  rcases h with h | h
  · intro span hspan
    obtain ⟨a, ha, -⟩ := List.mem_map.mp hspan
    obtain ⟨hself, hepoch, -⟩ := hb.owner_of_mem ha
    rw [hb.fresh h] at hepoch
    exact absurd rfl hepoch
  · exact hb.placed view h.1

theorem Book.reserved (hme : me ≠ 0) (hb : Book me views s (before ++ after)) {q : Request} {base : Nat}
    (hq : Admitted views s q) (hplaced : Placed (views q.view) ⟨base, q.bytes.val⟩)
    (hsorted : Sorted (s.spans before ++ ⟨base, q.bytes.val⟩ :: s.spans after)) :
    Book me views (s.reserved me q base before.getLast? after.head?) (before ++ q.range :: after) := by
  have hfresh := hb.fresh_range hq.range
  have hne {a : Nat} (ha : a ∈ before ++ after) : a ≠ q.range := fun h => hfresh (h ▸ ha)
  have hnodup : (before ++ q.range :: after).Nodup := by
    obtain ⟨hnb, hna, hapart⟩ := List.nodup_append.mp hb.nodup
    refine List.nodup_append.mpr ⟨hnb, List.nodup_cons.mpr ⟨fun h => ?_, hna⟩, fun x hx y hy => ?_⟩
    · exact hfresh (List.mem_append_right _ h)
    · rcases List.mem_cons.mp hy with rfl | hy
      · exact hne (List.mem_append_left _ hx)
      · exact hapart x hx y hy
  have hspans {xs : List Nat} (h : ∀ a ∈ xs, a ∈ before ++ after) :
      (s.reserved me q base before.getLast? after.head?).spans xs = s.spans xs :=
    spans_same fun a ha => reserved_same (hne (h a ha))
  have hown : ((s.reserved me q base before.getLast? after.head?).ranges q.range).span =
      ⟨base, q.bytes.val⟩ := (reserved_range _ _ _ _ _ _).span
  have hall : (s.reserved me q base before.getLast? after.head?).spans (before ++ q.range :: after) =
      s.spans before ++ ⟨base, q.bytes.val⟩ :: s.spans after := by
    have hb' : _ = s.spans before := hspans fun a ha => List.mem_append_left _ ha
    have ha' : _ = s.spans after := hspans fun a ha => List.mem_append_right _ ha
    rw [← hb', ← ha', ← hown]
    simp [State.spans]
  refine {
    fresh := fun h => absurd h hme
    bound := fun _ => ⟨rfl, hq.epoch.1, q.view, rfl⟩
    first := ?_
    links := ?_
    live := fun a ha => ?_
    owned := fun a ha => ?_
    sorted := by rw [hall]; exact hsorted
    bytes := ?_
    count := ?_
    placed := fun v hv span hspan => ?_ }
  · show (if before.getLast?.isSome then s.owner.first else some q.range) = _
    cases before with
    | nil => rfl
    | cons x xs =>
      rw [if_pos (by simp), hb.first]
      rfl
  · refine hb.links.insert hnodup (fun x => ?_) (fun x => ?_)
    · show ((setPrevious _ _ _) x).previous = _
      rw [setPrevious_previous, setNext_previous]
      by_cases hx : x = q.range
      · have hhead : ¬ some x = after.head? := fun h =>
          hfresh (List.mem_append_right _ (List.mem_of_mem_head? (hx ▸ h.symm)))
        rw [if_neg hhead, if_pos hx, hx, Function.update_self]
        rfl
      · rw [if_neg hx, Function.update_of_ne hx]
    · show ((setPrevious _ _ _) x).next = _
      rw [setPrevious_next, setNext_next]
      by_cases hx : x = q.range
      · have hlast : ¬ some x = before.getLast? := fun h =>
          hfresh (List.mem_append_left _ (List.mem_of_getLast? (hx ▸ h.symm)))
        rw [if_neg hlast, if_pos hx, hx, Function.update_self]
        rfl
      · rw [if_neg hx, Function.update_of_ne hx]
  · by_cases hx : a = q.range
    · subst hx
      have hsame := reserved_range s me q base before.getLast? after.head?
      exact ⟨hsame.selfAddress, hsame.owner, hsame.span.trans hsame.stamp.symm,
        by rw [hsame.span]; exact hq.bytes.1⟩
    · refine (hb.live a ?_).same (reserved_same hx)
      rcases List.mem_append.mp ha with ha | ha
      · exact List.mem_append_left _ ha
      · exact List.mem_append_right _ ((List.mem_cons.mp ha).resolve_left hx)
  · by_cases hx : a = q.range
    · subst hx
      exact List.mem_append_right _ List.mem_cons_self
    · have hold := hb.owned a ((reserved_same hx).owner.symm.trans ha)
      rcases List.mem_append.mp hold with hold | hold
      · exact List.mem_append_left _ hold
      · exact List.mem_append_right _ (List.mem_cons_of_mem _ hold)
  · show s.owner.bytes + q.bytes.val = _
    have hsplit : s.spans (before ++ after) = s.spans before ++ s.spans after := List.map_append
    rw [hall, hb.bytes, hsplit, total_append, total_append, total_cons]
    dsimp only
    omega
  · show s.owner.count + 1 = _
    rw [hb.count, List.length_append, List.length_append, List.length_cons]
    omega
  · obtain rfl : q.view = v := Option.some.inj hv
    rw [hall] at hspan
    have hold := hb.placed_in hq.owner
    have hsplit : s.spans (before ++ after) = s.spans before ++ s.spans after := List.map_append
    rw [hsplit] at hold
    rcases List.mem_append.mp hspan with hspan | hspan
    · exact hold span (List.mem_append_left _ hspan)
    · rcases List.mem_cons.mp hspan with rfl | hspan
      · exact hplaced
      · exact hold span (List.mem_append_right _ hspan)

/-- The live ranges fit below the end of the inventory, so the counters of the owner do. -/
theorem total_le {v : View} {spans : List Span} (hs : Sorted spans)
    (hplaced : ∀ span ∈ spans, Placed v span) (hpos : ∀ span ∈ spans, 0 < span.bytes) :
    total spans ≤ maxU64 ∧ spans.length ≤ maxU64 := by
  have htotal : 0 + total spans ≤ v.catalog.physicalBytes :=
    hs.total_le (Nat.zero_le _) (fun _ _ => Nat.zero_le _) fun span h => (hplaced span h).stop_le
  have hlength := length_le_total hpos
  have hsmall := v.small
  unfold maxU64
  omega

theorem reserveInner_spec (hme : me ≠ 0) (hb : Book me views s nodes) (q : Request) :
    Spec (reserveInner me views q.view q.epoch q.range q.bytes q.alignment q.minimum) s
      (fun b s' => Admitted views s q ∧ Granted me views s nodes q b s')
      (fun e s' => s' = s ∧ (Admitted views s q → Refused views s nodes q e) ∧
        (¬ Admitted views s q → e = .Stale ∨ e = .Bounds)) := by
  unfold reserveInner
  refine .get_bind ?_
  refine .failIf_bind (fun h => ⟨rfl, fun hq => ?_, fun _ => .inl rfl⟩) fun hbound => ?_
  · rcases hq.owner with hz | ⟨hv, he⟩
    · exact absurd hz h.1
    · rcases h.2 with h | h | h
      · exact absurd (hb.bound ‹_ ∧ _›.1).1 h
      · exact absurd hv h
      · exact absurd he h
  refine .failIf_bind (fun h => ⟨rfl, fun hq => absurd hq.range h, fun _ => .inl rfl⟩) fun hrange => ?_
  refine .failIf_bind (fun h => ⟨rfl, fun hq => by simp [hq.published] at h, fun _ => .inl rfl⟩) fun hpub => ?_
  refine .failIf_bind (fun h => ⟨rfl, fun hq => ?_, fun _ => .inl rfl⟩) fun hepoch => ?_
  · rcases h with h | h
    · exact absurd h hq.epoch.1
    · exact absurd hq.epoch.2 h
  refine .failIf_bind (fun h => ⟨rfl, fun hq => ?_, fun _ => .inr rfl⟩) fun hargs => ?_
  · have hbytes := hq.bytes
    have halign := hq.alignment
    rcases h with h | h | h | h
    · omega
    · exact absurd hbytes.2 h
    · exact absurd halign.1 (by omega)
    · exact absurd halign.2.1 h
  simp only [Decidable.not_not, not_or, not_and, not_lt] at hrange hepoch hargs hbound
  have hq : Admitted views s q := {
    owner := by
      by_cases hz : s.owner.selfAddress = 0
      · exact .inl hz
      · exact .inr (hbound hz).2
    range := hrange
    published := by simpa using hpub
    epoch := hepoch
    bytes := ⟨by omega, hargs.2.1⟩
    alignment := ⟨hargs.2.2.1, hargs.2.2.2, q.alignment.isLt⟩ }
  refine .failIf_bind (fun h => ⟨rfl, fun _ => .inl ⟨h, rfl⟩, fun hn => absurd hq hn⟩) fun husable => ?_
  have husable : (views q.view).catalog.firmwareLayoutUsable = true := by simpa using husable
  obtain ⟨o, hfit, hchoose⟩ :=
    chooseIn_spec hb hq.published husable hq.alignment hq.bytes.1 fun _ h => h
  refine .lift_bind (fun e he => ⟨rfl, fun _ => .inr ⟨husable, ?_⟩, fun hn => absurd hq hn⟩) fun b hbase => ?_
  · cases o with
    | some b => rw [hchoose] at he; cases he
    | none =>
      rw [hchoose] at he
      cases he
      exact .inl ⟨hfit, rfl⟩
  have hfit : q.firstFit views s nodes (some b) := by
    cases o with
    | none => rw [hchoose] at hbase; cases hbase
    | some c =>
      rw [hchoose] at hbase
      cases hbase
      exact hfit
  have hpos := hq.bytes.1
  refine .failIf_bind (fun h =>
      ⟨rfl, fun _ => .inr ⟨husable, .inr ⟨b, hfit, by omega, rfl⟩⟩, fun hn => absurd hq hn⟩)
    fun hlimit => ?_
  obtain ⟨hplaced, -, -, hapart⟩ := firstFit_placed hfit
  have hlength : nodes.length < s.owner.count + 1 := by
    rw [hb.count]
    omega
  have hfront : ∀ a ∈ ([] : List Nat), (s.ranges a).span.base ≤ b := by simp
  obtain ⟨before, after, hnodes, hneighbours, hbefore, hafter⟩ :=
    neighbours_spec hb (List.nil_append nodes).symm hfront hlength
  rw [← hb.first, List.getLast?_nil] at hneighbours
  subst hnodes
  have hsorted := sorted_insert (x := ⟨b, q.bytes⟩) hb hpos hbefore hafter hapart
  have hbook := hb.reserved hme hq hplaced hsorted
  have hall : ∀ span ∈ (s.reserved me q b before.getLast? after.head?).spans
      (before ++ q.range :: after), Placed (views q.view) span ∧ 0 < span.bytes :=
    fun span h => ⟨hbook.placed q.view rfl span h, hbook.bytes_pos h⟩
  obtain ⟨htotal, hcount⟩ := total_le hbook.sorted (fun span h => (hall span h).1)
    fun span h => (hall span h).2
  rw [← hbook.bytes] at htotal
  rw [State.spans, List.length_map, ← hbook.count] at hcount
  refine .failIf_bind (fun h => absurd htotal (Nat.not_le.mpr h)) fun _ => ?_
  refine .failIf_bind (fun h => absurd hcount (Nat.not_le.mpr h)) fun _ => ?_
  rw [hneighbours]
  refine ⟨hq, husable, hfit, by omega, (reserved_range _ _ _ _ _ _).span, hb.fresh_range hq.range,
    fun a ha => ?_, before, after, rfl, hbook⟩
  exact (reserved_same fun h => hb.fresh_range hq.range (h ▸ ha)).span

/-! ## A release -/

/-- The state after a release of `a` between two neighbours. -/
def State.released (s : State) (a : Nat) (previous next : Option Nat) : State where
  owner := { s.owner with
    first := if previous.isSome then s.owner.first else next
    bytes := s.owner.bytes - (s.ranges a).span.bytes
    count := s.owner.count - 1 }
  ranges := Function.update (setPrevious (setNext s.ranges previous next) next previous) a {}

theorem released_other {x : Nat} {previous next : Option Nat} (h : x ≠ a) :
    (s.released a previous next).ranges x =
      setPrevious (setNext s.ranges previous next) next previous x := Function.update_of_ne h ..

theorem released_same {x : Nat} {previous next : Option Nat} (h : x ≠ a) :
    Same (s.ranges x) ((s.released a previous next).ranges x) := by
  rw [released_other h]
  exact (setNext_same _ _ _ x).trans (setPrevious_same _ _ _ x)

@[simp] theorem released_range (s : State) (a : Nat) (previous next : Option Nat) :
    (s.released a previous next).ranges a = {} := Function.update_self ..

theorem Book.removed_ne (hb : Book me views s (before ++ a :: after)) {x : Nat}
    (hx : x ∈ before ++ after) : x ≠ a := by
  obtain ⟨-, hna, hapart⟩ := List.nodup_append.mp hb.nodup
  rintro rfl
  rcases List.mem_append.mp hx with hx | hx
  · exact hapart x hx x List.mem_cons_self rfl
  · exact (List.nodup_cons.mp hna).1 hx

theorem Book.released_spans (hb : Book me views s (before ++ a :: after)) {previous next : Option Nat} :
    (s.released a previous next).spans (before ++ after) = s.spans (before ++ after) :=
  spans_same fun _ hx => released_same (hb.removed_ne hx)

theorem Book.released (hb : Book me views s (before ++ a :: after)) :
    Book me views (s.released a before.getLast? after.head?) (before ++ after) := by
  have ha : a ∈ before ++ a :: after := List.mem_append_right _ List.mem_cons_self
  obtain ⟨hself, hepoch, hview⟩ := hb.owner_of_mem ha
  have hback {x : Nat} (hx : x ∈ before ++ after) : x ∈ before ++ a :: after := by
    rcases List.mem_append.mp hx with hx | hx
    · exact List.mem_append_left _ hx
    · exact List.mem_append_right _ (List.mem_cons_of_mem _ hx)
  have hspans : (s.released a before.getLast? after.head?).spans (before ++ after) =
      s.spans (before ++ after) := hb.released_spans
  have hsub : (s.spans (before ++ after)).Sublist (s.spans (before ++ a :: after)) :=
    ((List.sublist_cons_self a after).append_left before).map _
  have htotal : total (s.spans (before ++ a :: after)) =
      (s.ranges a).span.bytes + total (s.spans (before ++ after)) := by
    simp only [State.spans, List.map_append, List.map_cons, total_append, total_cons]
    omega
  refine {
    fresh := fun h => ?_
    bound := fun h => hb.bound h
    first := ?_
    links := ?_
    live := fun x hx => (hb.live x (hback hx)).same (released_same (hb.removed_ne hx))
    owned := fun x hx => ?_
    sorted := by rw [hspans]; exact hb.sorted.sublist hsub
    bytes := ?_
    count := ?_
    placed := fun v hv span hspan => ?_ }
  · have hzero : s.owner.selfAddress = 0 := h
    rw [hb.fresh hzero] at hepoch
    exact absurd rfl hepoch
  · show (if before.getLast?.isSome then s.owner.first else after.head?) = _
    cases before with
    | nil => rfl
    | cons x xs =>
      rw [if_pos (by simp), hb.first]
      rfl
  · refine hb.links.remove hb.nodup (fun x hx => ?_) (fun x hx => ?_)
    · rw [released_other hx, setPrevious_previous, setNext_previous]
    · rw [released_other hx, setPrevious_next, setNext_next]
  · by_cases hxa : x = a
    · subst hxa
      rw [released_range] at hx
      cases hx
    · have hold := hb.owned x ((released_same hxa).owner.symm.trans hx)
      rcases List.mem_append.mp hold with hold | hold
      · exact List.mem_append_left _ hold
      · exact List.mem_append_right _ ((List.mem_cons.mp hold).resolve_left hxa)
  · show s.owner.bytes - (s.ranges a).span.bytes = _
    rw [hspans, hb.bytes, htotal]
    omega
  · show s.owner.count - 1 = _
    rw [hb.count, List.length_append, List.length_append, List.length_cons]
    omega
  · rw [hspans] at hspan
    exact hb.placed v hv span (hsub.subset hspan)

/-- A release takes a live range out, or fails. -/
theorem release_spec (hb : Book me views s nodes) (a : Nat) (quiesced : Bool) :
    Spec (release me a quiesced) s
      (fun _ s' => quiesced = true ∧ ∃ before after, nodes = before ++ a :: after ∧
        s' = s.released a before.getLast? after.head?)
      (fun e s' => s' = s ∧ ((a ∉ nodes ∧ e = .Stale) ∨
        (a ∈ nodes ∧ quiesced = false ∧ e = .Retained))) := by
  unfold release
  refine .get_bind ?_
  refine .lift_bind (fun e he => ⟨rfl, .inl ⟨fun ha => ?_, ?_⟩⟩) fun _ hok => ?_
  · rw [hb.validate_ok ha] at he
    cases he
  · unfold validate at he
    dsimp only at he
    split at he
    · exact (Except.error.inj he).symm
    · split at he
      · exact (Except.error.inj he).symm
      · cases he
  have ha := hb.mem_of_validate hok
  refine .failIf_bind (fun h => ⟨rfl, .inr ⟨ha, h, rfl⟩⟩) fun hq => ?_
  obtain ⟨before, after, rfl⟩ := List.append_of_mem ha
  obtain ⟨hprev, hnext⟩ := hb.links before a after rfl
  refine ⟨by simpa using hq, before, after, rfl, ?_⟩
  dsimp only at hprev hnext
  rw [hprev, hnext]
  rfl

end Heap
end Vram
end NvidiaGsp
