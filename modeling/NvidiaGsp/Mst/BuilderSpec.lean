import NvidiaGsp.Mst.Builder

/-!
# Mst.BuilderSpec

What the graph of a `Builder` looks like while it grows. `Shape` says how branches, edges and sinks
hang together, `Outline` is what a branch reported of its ports, and `before` lists the ports that the
builder should have asked for when it is at some branch. `At` ties the edges to that list.
-/

namespace NvidiaGsp
namespace Mst

theorem Route.child_ok {r r' : Route} {port : Nat} (h : r.child port = .ok r') :
    r.valid = true ∧ port ≤ 15 ∧ r.depth < 14 ∧
      r' = ⟨r.depth + 1, r.ports.setIfInBounds r.depth (BitVec.ofNat 8 port)⟩ := by
  unfold Route.child at h
  split at h
  · cases h
  rename_i hbad
  cases h
  simp only [not_or, Bool.not_eq_false, Nat.not_lt] at hbad
  obtain ⟨hvalid, hport, hdepth⟩ := hbad
  have hle : r.depth ≤ 14 := by
    unfold Route.valid at hvalid
    simp only [Bool.and_eq_true, decide_eq_true_eq] at hvalid
    exact hvalid.1
  exact ⟨hvalid, hport, by omega, rfl⟩

theorem Route.valid_iff {r : Route} :
    r.valid = true ↔ r.depth ≤ 14 ∧ ∀ i : Fin 14, (r.ports.get i).toNat ≤ 15 ∧ (i.val < r.depth ∨ r.ports.get i = 0) := by
  simp [Route.valid, List.all_eq_true]

theorem Route.valid_root : Route.valid {} = true := by
  rw [Route.valid_iff]
  refine ⟨Nat.zero_le _, fun i => ?_⟩
  have hget : (Vector.replicate 14 (0 : Byte)).get i = 0 := by
    show (Vector.replicate 14 (0 : Byte))[i.val] = 0
    rw [Vector.getElem_replicate]
  rw [hget]
  exact ⟨by decide, .inr rfl⟩

/-- A hop further leads to a valid route. -/
theorem Route.child_valid {r r' : Route} {port : Nat} (h : r.child port = .ok r') : r'.valid = true := by
  obtain ⟨hvalid, hport, hdepth, rfl⟩ := Route.child_ok h
  rw [Route.valid_iff] at hvalid ⊢
  refine ⟨hdepth, fun i => ?_⟩
  have hget : (r.ports.setIfInBounds r.depth (BitVec.ofNat 8 port)).get i =
      if r.depth = i.val then BitVec.ofNat 8 port else r.ports.get i := by
    show (r.ports.setIfInBounds r.depth (BitVec.ofNat 8 port))[i.val] = _
    rw [Vector.getElem_setIfInBounds]
    rfl
  rw [hget]
  split
  · rename_i he
    rw [BitVec.toNat_ofNat]
    exact ⟨by omega, .inl (by show i.val < r.depth + 1; omega)⟩
  · obtain ⟨hsmall, hin⟩ := hvalid.2 i
    exact ⟨hsmall, hin.imp_left fun hi => Nat.lt_succ_of_lt hi⟩

namespace Capture

open Builder (usable)

/-! ## The parts of a branch -/

/-- Where a branch is: fixed when it is found. -/
structure Place where
  route : Route
  path : List Nat
  parentEdge : Option Nat

def Branch.place (br : Branch) : Place := ⟨br.route, br.path, br.parentEdge⟩

/-- What a branch reported: its GUID, and the numbers of its ports with whether they are in use. -/
structure Outline where
  guid : Guid
  ports : List (Nat × Bool)

def outlineOf (d : Wire.Branch) : Outline := ⟨d.guid, d.ports.map fun p => (p.number, usable p)⟩

def Branch.outline (br : Branch) : Option Outline := br.descriptor.map outlineOf

/-- The numbers of the ports in use among the first `n`. -/
def Outline.names (o : Outline) (n : Nat) : List Nat := ((o.ports.take n).filter (·.2)).map (·.1)

structure Outline.Good (o : Outline) : Prop where
  guid : o.guid.isZero = false
  fits : o.ports.length ≤ 15
  number : ∀ p ∈ o.ports, p.1 ≤ 15
  nodup : (o.ports.map (·.1)).Nodup

def Graph.places (g : Graph) : List Place := g.branches.map Branch.place
def Graph.outlines (g : Graph) : List (Option Outline) := g.branches.map Branch.outline

/-- The ports in use among the first `n` of branch `i`. -/
def named (outlines : List (Option Outline)) (i n : Nat) : List (Nat × Nat) :=
  match outlines[i]? with
  | some (some o) => (o.names n).map fun number => (i, number)
  | _ => []

/-- The ports in use of the first `n` branches. -/
def before (outlines : List (Option Outline)) (n : Nat) : List (Nat × Nat) :=
  (List.range n).flatMap fun i => named outlines i 15

def Edge.name (e : Edge) : Nat × Nat := (e.branch, e.port.number)

/-- A branch of its own is at the end of the edge. -/
def Edge.forks (e : Edge) : Bool := e.resources.isSome && e.port.peer == .branch && e.port.messaging

/-- A sink is at the end of the edge, or what counts as one. -/
def Edge.ends (e : Edge) : Bool :=
  e.resources.isSome && !(e.port.peer == .branch && e.port.messaging) &&
    (e.port.peer == .sink || e.port.peer == .legacy || e.port.peer == .upstream || e.port.peer == .branch)

/-- The indices of the edges of a kind. -/
def indices (edges : List Edge) (kind : Edge → Bool) : List Nat :=
  (List.range edges.length).filter fun i => edges[i]?.any kind

section Lists

variable {outlines : List (Option Outline)} {edges : List Edge} {e : Edge} {kind : Edge → Bool}

theorem before_succ {n : Nat} : before outlines (n + 1) = before outlines n ++ named outlines n 15 := by
  rw [before, List.range_succ, List.flatMap_append, List.flatMap_singleton]
  rfl

theorem named_congr {l : List (Option Outline)} {i n : Nat} (h : outlines[i]? = l[i]?) :
    named outlines i n = named l i n := by
  rw [named, named, h]

theorem before_congr {l : List (Option Outline)} {n : Nat} (h : ∀ i < n, outlines[i]? = l[i]?) :
    before outlines n = before l n :=
  List.flatMap_congr fun i hi => named_congr (h i (List.mem_range.mp hi))

theorem named_zero {i : Nat} : named outlines i 0 = [] := by
  rw [named]
  split
  · rfl
  · rfl

theorem indices_snoc :
    indices (edges ++ [e]) kind = indices edges kind ++ if kind e = true then [edges.length] else [] := by
  unfold indices
  rw [List.length_append, List.length_singleton, List.range_succ, List.filter_append]
  congr 1
  · refine List.filter_congr fun i hi => ?_
    rw [List.getElem?_append_left (List.mem_range.mp hi)]
  · rw [List.filter_singleton, List.getElem?_concat_length, Option.any_some, cond_eq_ite]

theorem mem_indices {i : Nat} (h : i ∈ indices edges kind) : ∃ e, edges[i]? = some e ∧ kind e = true := by
  obtain ⟨-, hany⟩ := List.mem_filter.mp h
  exact (Option.any_eq_true _ _).mp hany

theorem map_modify_of {α β : Type} {l : List α} {i : Nat} {f : α → α} {k : α → β} (h : ∀ a, k (f a) = k a) :
    (l.modify i f).map k = l.map k := by
  apply List.ext_getElem?
  intro j
  rw [List.getElem?_map, List.getElem?_map, List.getElem?_modify]
  cases l[j]? with
  | none => rfl
  | some a =>
    simp only [Option.map_some]
    split
    · exact congrArg some (h a)
    · rfl

end Lists

/-! ## The shape of a graph -/

/-- The branch at index `i` hangs off an edge of an earlier one. -/
structure Placed (places : List Place) (edges : List Edge) (i : Nat) (p : Place) : Prop where
  valid : p.route.valid = true
  depth : p.path.length = p.route.depth
  shallow : p.route.depth ≤ i
  root : p.parentEdge = none → i = 0
  parent : ∀ e, p.parentEdge = some e → ∃ edge parent, edges[e]? = some edge ∧
    places[edge.branch]? = some parent ∧ edge.branch < i ∧
    parent.route.child edge.port.number = .ok p.route ∧ p.path = parent.path ++ [e]

structure Joined (branches : Nat) (e : Edge) : Prop where
  branch : e.branch < branches
  used : usable e.port = true
  number : e.port.number ≤ 15
  resources : ∀ r, e.resources = some r → r.port = e.port.number ∧ r.freePbn ≤ r.totalPbn

structure Shape (g : Graph) : Prop where
  placed : ∀ i p, g.places[i]? = some p → Placed g.places g.edges i p
  joined : ∀ e ∈ g.edges, Joined g.branches.length e
  hung : ∀ s ∈ g.sinks, ∃ e p, g.edges[s.edge]? = some e ∧ g.places[e.branch]? = some p ∧
    s.path = p.path ++ [s.edge]
  forks : g.branches.map (·.parentEdge) = none :: (indices g.edges Edge.forks).map some
  ends : g.sinks.map (·.edge) = indices g.edges Edge.ends
  branches : g.branches.length ≤ maxBranches
  edges : g.edges.length ≤ maxEdges
  sinks : g.sinks.length ≤ maxSinks

/-- The first `n` branches reported their ports, under GUIDs of their own. -/
structure Described (outlines : List (Option Outline)) (n : Nat) : Prop where
  good : ∀ i < n, ∃ o, outlines[i]? = some (some o) ∧ o.Good
  own : ∀ i j o o', i < n → j < n → outlines[i]? = some (some o) → outlines[j]? = some (some o') →
    o.guid = o'.guid → i = j

theorem Described.congr {outlines l : List (Option Outline)} {n : Nat} (hd : Described outlines n)
    (h : ∀ i < n, l[i]? = outlines[i]?) : Described l n where
  good i hi := by rw [h i hi]; exact hd.good i hi
  own i j o o' hi hj ho ho' := by
    rw [h i hi] at ho
    rw [h j hj] at ho'
    exact hd.own i j o o' hi hj ho ho'

theorem Described.le {outlines : List (Option Outline)} {m n : Nat} (hd : Described outlines n) (h : m ≤ n) :
    Described outlines m where
  good i hi := hd.good i (by omega)
  own i j o o' hi hj := hd.own i j o o' (by omega) (by omega)

/-- The edges are the ports in use of all branches before the one at hand, and of that one's first
`scanned` ports. -/
structure At (b : Builder) (described scanned : Nat) : Prop where
  shape : Shape b.graph
  current : b.branch < b.graph.branches.length
  described : Described b.graph.outlines described
  names : b.graph.edges.map Edge.name =
    before b.graph.outlines b.branch ++ named b.graph.outlines b.branch scanned
  first : b.verifyBranch = 0

/-- Nothing is left to ask of a sink. -/
structure Settled (host : Host) (s : Sink) : Prop where
  state : s.state ≠ .pending
  fits : s.bytes.length ≤ 128 * host.maxBlocks
  valid : s.state = .valid → host.parse s.bytes = .complete
  missing : s.state = .missing → s.bytes = []

end Capture
end Mst
end NvidiaGsp
