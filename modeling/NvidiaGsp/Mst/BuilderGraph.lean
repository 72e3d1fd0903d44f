import NvidiaGsp.Mst.BuilderRuns
import NvidiaGsp.Mst.Plan

/-!
# Mst.BuilderGraph

A captured graph as the registry and the payload plan read it (`gsp_mst_registry.zig`,
`gsp_mst_budget.zig`). What these two refuse in a graph does not occur in one that a `Builder` has
finished: every sink has a key and every edge a name, and no two have the same. The one thing a plan can
miss is the bandwidth of a port that refused the request for it.
-/

namespace NvidiaGsp
namespace Mst
namespace Capture

open Builder (usable)
open Payload (PathEdge captureEdge captureEdges)
open Registry (Key Reg key planKeys badGraph notSingleBit)

/-- The graph with its lists as functions of an index. -/
def Graph.view (g : Graph) : Mst.Graph where
  epoch := g.epoch
  generation := g.generation
  root := g.root
  branchCount := g.branches.length
  edgeCount := g.edges.length
  sinkCount := g.sinks.length
  branches i := match g.branches[i]? with
    | some br => ⟨br.route, br.descriptor.map (·.guid)⟩
    | none => {}
  edges i := match g.edges[i]? with
    | some e => ⟨e.branch, e.port.toPort, e.resources.map (·.toPathResources)⟩
    | none => {}
  sinks i := match g.sinks[i]? with
    | some s => ⟨s.edge⟩
    | none => {}
  coherent := g.coherent
  completionReceipt := g.completionReceipt

section

variable {host : Host} {b : Builder} {g : Graph} {i j n : Nat}

/-! ## Lookups -/

theorem view_branch {br : Branch} (h : g.branches[i]? = some br) :
    g.view.branches i = ⟨br.route, br.descriptor.map (·.guid)⟩ := by
  simp only [Graph.view, h]

theorem view_edge {e : Edge} (h : g.edges[i]? = some e) :
    g.view.edges i = ⟨e.branch, e.port.toPort, e.resources.map (·.toPathResources)⟩ := by
  simp only [Graph.view, h]

theorem view_sink {s : Sink} (h : g.sinks[i]? = some s) : g.view.sinks i = ⟨s.edge⟩ := by
  simp only [Graph.view, h]

/-- A branch of a whole graph, as a reader finds it. -/
theorem whole_branch (hw : Whole host b) (hi : i < b.graph.branches.length) : ∃ br d,
    b.graph.branches[i]? = some br ∧ br.descriptor = some d ∧ br.route.valid = true ∧ d.guid.isZero = false ∧
      b.graph.outlines[i]? = some (some (outlineOf d)) := by
  obtain ⟨o, ho, hgood⟩ := hw.described.good i hi
  obtain ⟨br, d, hbr, hd, rfl⟩ := outline_at ho
  have hplace : b.graph.places[i]? = some br.place := by
    rw [Graph.places, List.getElem?_map, hbr, Option.map_some]
  exact ⟨br, d, hbr, hd, (hw.shape.placed i _ hplace).valid, hgood.guid, ho⟩

/-- Two branches of one GUID are one. -/
theorem whole_own (hw : Whole host b) {br br' : Branch} {d d' : Wire.Branch}
    (hbr : b.graph.branches[i]? = some br) (hd : br.descriptor = some d)
    (hbr' : b.graph.branches[j]? = some br') (hd' : br'.descriptor = some d') (he : d.guid = d'.guid) : i = j :=
  hw.described.own i j _ _ (List.getElem?_eq_some_iff.mp hbr).1 (List.getElem?_eq_some_iff.mp hbr').1
    (outline_of hbr hd) (outline_of hbr' hd') he

/-! ## Names -/

theorem named_nodup {outlines : List (Option Outline)} (hd : Described outlines n) (hi : i < n) :
    (named outlines i 15).Nodup := by
  obtain ⟨o, ho, hgood⟩ := hd.good i hi
  rw [named, ho]
  dsimp only
  have hnames : (o.names 15).Nodup :=
    hgood.nodup.sublist (((List.filter_sublist).trans (List.take_sublist _ _)).map _)
  exact hnames.map fun a c h => (Prod.mk.inj h).2

theorem named_fst {outlines : List (Option Outline)} {m : Nat} {p : Nat × Nat} (h : p ∈ named outlines i m) :
    p.1 = i := by
  rw [named] at h
  split at h
  · obtain ⟨number, -, rfl⟩ := List.mem_map.mp h
    rfl
  · cases h

theorem before_nodup {outlines : List (Option Outline)} (hd : Described outlines n) :
    (before outlines n).Nodup := by
  induction n with
  | zero => exact List.nodup_nil
  | succ n ih =>
    rw [before_succ]
    refine List.Nodup.append (ih (hd.le (Nat.le_succ n))) (named_nodup hd (Nat.lt_succ_self n)) ?_
    intro p hp hp'
    obtain ⟨i, hi, hmem⟩ := List.mem_flatMap.mp hp
    have hfst := named_fst hmem
    have hlt := List.mem_range.mp hi
    rw [named_fst hp'] at hfst
    omega

/-- Two edges at one port are one. -/
theorem edge_unique (hw : Whole host b) {e e' : Edge} (he : b.graph.edges[i]? = some e)
    (he' : b.graph.edges[j]? = some e') (hn : e.name = e'.name) : i = j := by
  have hnodup : (b.graph.edges.map Edge.name).Nodup := hw.names ▸ before_nodup hw.described
  have hi : (b.graph.edges.map Edge.name)[i]? = some e.name := by rw [List.getElem?_map, he, Option.map_some]
  have hj : (b.graph.edges.map Edge.name)[j]? = some e'.name := by rw [List.getElem?_map, he', Option.map_some]
  exact (List.getElem?_inj (List.getElem?_eq_some_iff.mp hi).1 hnodup).mp (hi.trans (hn ▸ hj.symm))

/-- What names an edge: the branch and the port. -/
theorem capture_ok (hw : Whole host b) (hi : i < b.graph.edges.length) : ∃ e br d,
    b.graph.edges[i]? = some e ∧ b.graph.branches[e.branch]? = some br ∧ br.descriptor = some d ∧
      PathEdge.capture b.graph.view i = .ok ⟨d.guid, br.route, e.port.number⟩ := by
  have he := List.getElem?_eq_getElem hi
  have hj := hw.shape.joined _ (List.getElem_mem hi)
  obtain ⟨br, d, hbr, hd, hvalid, hzero, -⟩ := whole_branch hw hj.branch
  refine ⟨_, br, d, he, hbr, hd, ?_⟩
  have hinput : (b.graph.edges[i]).port.input = false := by
    have huse := hj.used
    unfold usable at huse
    rw [Bool.and_eq_true, Bool.not_eq_true'] at huse
    exact huse.1
  have hedges : ¬(i ≥ b.graph.view.edgeCount ∨ b.graph.view.edgeCount > maxEdges) := by
    have hmax := hw.shape.edges
    rintro (h | h)
    · exact absurd hi (Nat.not_lt.mpr h)
    · exact absurd hmax (Nat.not_le.mpr h)
  have hbranches : ¬((b.graph.edges[i]).branch ≥ b.graph.view.branchCount ∨
      b.graph.view.branchCount > maxBranches ∨ (b.graph.edges[i]).port.input = true) := by
    have hmax := hw.shape.branches
    rintro (h | h | h)
    · exact absurd hj.branch (Nat.not_lt.mpr h)
    · exact absurd hmax (Nat.not_le.mpr h)
    · rw [hinput] at h
      cases h
  unfold PathEdge.capture
  rw [if_neg hedges]
  dsimp only
  rw [view_edge he]
  dsimp only
  rw [if_neg hbranches, view_branch hbr]
  dsimp only
  rw [hd, Option.map_some]
  dsimp only
  rw [if_neg (by rw [hvalid, hzero]; decide)]

theorem capture_unique (hw : Whole host b) {name : PathEdge} (hi : i < b.graph.edges.length)
    (hj : j < b.graph.edges.length) (h : PathEdge.capture b.graph.view i = .ok name)
    (h' : PathEdge.capture b.graph.view j = .ok name) : i = j := by
  obtain ⟨e, br, d, he, hbr, hd, hok⟩ := capture_ok hw hi
  obtain ⟨e', br', d', he', hbr', hd', hok'⟩ := capture_ok hw hj
  have hname := Except.ok.inj ((hok.symm.trans h).trans (hok'.symm.trans h').symm)
  injection hname with hguid hroute hport
  have hbranch := whole_own hw hbr hd hbr' hd' hguid
  exact edge_unique hw he he' (Prod.ext hbranch hport)

/-- A sink has a key, and it says which edge the sink is at. -/
theorem key_ok (hw : Whole host b) (hi : i < b.graph.sinks.length) : ∃ s name k, b.graph.sinks[i]? = some s ∧
    PathEdge.capture b.graph.view s.edge = .ok name ∧ s.edge < b.graph.edges.length ∧
      key b.graph.view i = .ok k ∧ name = ⟨k.branchGuid, k.route, k.port⟩ := by
  have hs := List.getElem?_eq_getElem hi
  obtain ⟨e, p, he, -, -⟩ := hw.shape.hung _ (List.getElem_mem hi)
  have hlt := (List.getElem?_eq_some_iff.mp he).1
  have hj := hw.shape.joined e (List.mem_of_getElem? he)
  obtain ⟨e', br, d, he', hbr, hd, hname⟩ := capture_ok hw hlt
  rw [he] at he'
  cases he'
  have hroot : 0 < b.graph.branches.length := Nat.lt_of_le_of_lt (Nat.zero_le _) hj.branch
  obtain ⟨root, droot, hbroot, hdroot, -, hzroot, -⟩ := whole_branch hw hroot
  obtain ⟨br', d', hbr', hd', hvalid, hzero, -⟩ := whole_branch hw hj.branch
  rw [hbr] at hbr'
  cases hbr'
  rw [hd] at hd'
  cases hd'
  have huse := hj.used
  unfold usable at huse
  rw [Bool.and_eq_true, Bool.not_eq_true', Bool.or_eq_true] at huse
  refine ⟨_, _, ⟨b.graph.root, droot.guid, d.guid, br.route, e.port.number⟩, hs, hname, hlt, ?_, rfl⟩
  have hsinks : ¬i ≥ b.graph.view.sinkCount := Nat.not_le.mpr hi
  have hedges : ¬(b.graph.sinks[i]).edge ≥ b.graph.view.edgeCount := Nat.not_le.mpr hlt
  unfold key
  rw [if_neg hsinks, view_sink hs]
  dsimp only
  rw [if_neg hedges, view_edge he]
  dsimp only
  rw [if_neg, view_branch hbr, view_branch hbroot]
  · dsimp only
    rw [hd, hdroot, Option.map_some, Option.map_some]
    dsimp only
    rw [if_neg (by rw [hvalid, hzero, hzroot]; decide)]
    rfl
  · rintro (h | h | ⟨h, h'⟩)
    · exact absurd hj.branch (Nat.not_lt.mpr h)
    · rw [huse.1] at h
      cases h
    · rcases huse.2 with hc | hc
      · rw [hc] at h
        cases h
      · rw [hc] at h'
        cases h'

theorem key_unique (hw : Whole host b) {k : Key} (hi : i < b.graph.sinks.length) (hj : j < b.graph.sinks.length)
    (h : key b.graph.view i = .ok k) (h' : key b.graph.view j = .ok k) : i = j := by
  obtain ⟨s, name, k₁, hs, hname, hlt, hk, rfl⟩ := key_ok hw hi
  obtain ⟨s', name', k₂, hs', hname', hlt', hk', rfl⟩ := key_ok hw hj
  cases Except.ok.inj (hk.symm.trans h)
  cases Except.ok.inj (hk'.symm.trans h')
  have hedge := capture_unique hw hlt hlt' hname hname'
  have hnodup : (b.graph.sinks.map (·.edge)).Nodup := by
    rw [hw.shape.ends]
    exact List.nodup_range.filter _
  have hat : (b.graph.sinks.map (·.edge))[i]? = some s.edge := by rw [List.getElem?_map, hs, Option.map_some]
  have hat' : (b.graph.sinks.map (·.edge))[j]? = some s'.edge := by rw [List.getElem?_map, hs', Option.map_some]
  exact (List.getElem?_inj (List.getElem?_eq_some_iff.mp hat).1 hnodup).mp (hat.trans (hedge ▸ hat'.symm))

/-! ## The readers -/

/-- A recapture finds a key for every sink; it may only find one placed elsewhere. -/
theorem planKeys_ok (hw : Whole host b) (r : Reg) (sor link : Nat) (hn : n ≤ b.graph.sinks.length) :
    planKeys r b.graph.view sor link n = .error .Stale ∨ ∃ keys needed,
      planKeys r b.graph.view sor link n = .ok (keys, needed) ∧
        ∀ k ∈ keys, ∃ j < n, key b.graph.view j = .ok k := by
  induction n with
  | zero => exact .inr ⟨[], 0, rfl, nofun⟩
  | succ n ih =>
    rcases ih (by omega) with herr | ⟨keys, needed, hok, hkeys⟩
    · exact .inl (by rw [planKeys, herr])
    obtain ⟨s, name, k, -, -, -, hk, -⟩ := key_ok hw (i := n) (by omega)
    have hnew : k ∉ keys := fun hmem => by
      obtain ⟨j, hj, hkj⟩ := hkeys k hmem
      have he := key_unique hw (i := n) (j := j) (by omega) (by omega) hk hkj
      omega
    have hmore : ∀ k' ∈ keys ++ [k], ∃ j < n + 1, key b.graph.view j = .ok k' := fun k' hmem => by
      rcases List.mem_append.mp hmem with hmem | hmem
      · obtain ⟨j, hj, hkj⟩ := hkeys k' hmem
        exact ⟨j, by omega, hkj⟩
      · rw [List.mem_singleton.mp hmem]
        exact ⟨n, Nat.lt_succ_self n, hk⟩
    rw [planKeys, hok]
    dsimp only
    rw [hk]
    dsimp only
    rw [if_neg hnew]
    cases r.find k with
    | none => exact .inr ⟨_, _, rfl, hmore⟩
    | some slot =>
      dsimp only
      split
      · exact .inl rfl
      · exact .inr ⟨_, _, rfl, hmore⟩

/-- For a first plan every port must have told its bandwidth, and that is all. -/
theorem captureEdges_ok (hw : Whole host b) (hn : n ≤ b.graph.edges.length) :
    (∃ edges, captureEdges b.graph.view {} n = .ok edges ∧
        ∀ p ∈ edges, ∃ j < n, PathEdge.capture b.graph.view j = .ok p.1) ∧
      (∀ e ∈ b.graph.edges.take n, e.resources ≠ none) ∨
    captureEdges b.graph.view {} n = .error .Stale ∧ ∃ e ∈ b.graph.edges.take n, e.resources = none := by
  induction n with
  | zero => exact .inl ⟨⟨[], rfl, nofun⟩, by simp⟩
  | succ n ih =>
    have hlt : n < b.graph.edges.length := by omega
    obtain ⟨e, br, d, he, hbr, hd, hname⟩ := capture_ok hw hlt
    have htake : b.graph.edges.take (n + 1) = b.graph.edges.take n ++ [e] := by
      rw [List.take_add_one, he]
      rfl
    rw [captureEdges, htake]
    rcases ih (by omega) with ⟨⟨edges, hok, hedges⟩, hall⟩ | ⟨herr, a, ha, hnone⟩
    · rw [hok]
      dsimp only
      unfold captureEdge
      rw [view_edge he]
      dsimp only
      cases hr : e.resources with
      | none =>
        exact .inr ⟨rfl, e, List.mem_append_right _ (List.mem_singleton.mpr rfl), hr⟩
      | some resources =>
        rw [Option.map_some]
        dsimp only
        rw [hname]
        dsimp only
        have hnew : PathEdge.mk d.guid br.route e.port.number ∉ edges.map Prod.fst := fun hmem => by
          obtain ⟨p, hp, hfst⟩ := List.mem_map.mp hmem
          obtain ⟨j, hj, hname'⟩ := hedges p hp
          rw [hfst] at hname'
          have hsame := capture_unique hw hlt (by omega) hname hname'
          omega
        have howned : Payload.Table.owned {} ⟨d.guid, br.route, e.port.number⟩ = 0 := rfl
        have hfree := ((hw.shape.joined e (List.mem_of_getElem? he)).resources resources hr).2
        rw [if_neg hnew, howned, if_neg (by omega), if_neg (by omega)]
        refine .inl ⟨⟨_, rfl, fun p hp => ?_⟩, fun a ha => ?_⟩
        · rcases List.mem_append.mp hp with hp | hp
          · obtain ⟨j, hj, hnamej⟩ := hedges p hp
            exact ⟨j, by omega, hnamej⟩
          · rw [List.mem_singleton.mp hp]
            exact ⟨n, Nat.lt_succ_self n, hname⟩
        · rcases List.mem_append.mp ha with ha | ha
          · exact hall a ha
          · rw [List.mem_singleton.mp ha, hr]
            nofun
    · rw [herr]
      exact .inr ⟨rfl, a, List.mem_append_left _ ha, hnone⟩

end

/-- A finished graph is one the registry and the plan can use. No recapture refuses it as a graph, every
sink has a key of its own, so that a recapture fails only on a sink placed elsewhere, and a first plan
fails on its edges exactly when some port refused to tell its bandwidth. -/
theorem capture_graph {host : Host} {h : History} {b b₀ : Builder} {epoch generation root afterReceipt deadline : Nat}
    {seed : Guid} (hinit : Builder.init epoch generation root seed afterReceipt deadline = .ok b₀)
    (hblocks : 0 < host.maxBlocks) (hr : Run (Builder.step host) b₀ h b) (hread : ∀ e ∈ h, e.op.Read)
    (hc : b.graph.coherent = true) :
    (∀ (r : Reg) sor link mask, sor < 8 → link ≤ 1 → b.graph.root &&& mask ≠ 0 →
      (r.epoch = 0 ∨ r.epoch = b.graph.epoch) → ¬badGraph r b.graph.view sor link mask) ∧
    (∀ i < b.graph.sinks.length, ∃ k, key b.graph.view i = .ok k ∧
      ∀ j < b.graph.sinks.length, key b.graph.view j = .ok k → j = i) ∧
    (∀ (r : Reg) sor link e, planKeys r b.graph.view sor link b.graph.sinks.length = .error e → e = .Stale) ∧
    ((∃ edges, captureEdges b.graph.view {} b.graph.edges.length = .ok edges) ↔
      ∀ e ∈ b.graph.edges, e.resources ≠ none) := by
  have hi := run_inv hblocks (init_inv hinit) hr hread
  obtain ⟨hlive, hstage, hreceipt⟩ := hi.coherent hc
  obtain ⟨hp, -⟩ := hi.live hlive
  unfold Progress at hp
  rw [hstage] at hp
  have hw := hp.1
  obtain ⟨hepoch, hgeneration, hroot⟩ := hi.same
  obtain ⟨hepoch₀, hgeneration₀, hroot₀, hbit⟩ := hi.named
  refine ⟨fun r sor link mask hsor hlink hmask hsame hbad => ?_, fun i hlt => ?_, fun r sor link e he => ?_,
    ⟨fun hok => ?_, fun hall => ?_⟩⟩
  · have hbranches : 0 < b.graph.branches.length := by
      have hforks := congrArg List.length hw.shape.forks
      rw [List.length_map, List.length_cons] at hforks
      omega
    have hmaxBranches := hw.shape.branches
    have hmaxSinks := hw.shape.sinks
    have hmaxEdges := hw.shape.edges
    have hsingle : ¬notSingleBit b.graph.root := by
      rw [hroot]
      rintro (h | h)
      · exact hroot₀ h
      · exact h hbit
    rcases hbad with h | h | h | h | h | h | h | h | h | h | h | h | ⟨h, h'⟩
    · exact absurd (hc.symm.trans h) nofun
    · exact hepoch₀ (hepoch ▸ h)
    · exact hgeneration₀ (hgeneration ▸ h)
    · exact hsingle h
    · exact hreceipt h
    · exact absurd hbranches (Nat.not_lt.mpr (Nat.le_of_eq h))
    · exact absurd hmaxBranches (Nat.not_le.mpr h)
    · exact absurd hmaxSinks (Nat.not_le.mpr h)
    · exact absurd hmaxEdges (Nat.not_le.mpr h)
    · exact absurd hsor (Nat.not_lt.mpr h)
    · exact absurd hlink (Nat.not_le.mpr h)
    · exact hmask h
    · rcases hsame with hz | he
      · exact h hz
      · exact h' he
  · obtain ⟨s, name, k, -, -, -, hk, -⟩ := key_ok hw hlt
    exact ⟨k, hk, fun j hj hkj => key_unique hw hj hlt hkj hk⟩
  · rcases planKeys_ok hw r sor link (Nat.le_refl _) with herr | ⟨keys, needed, hok, -⟩
    · rw [herr] at he
      exact (Except.error.inj he).symm
    · rw [hok] at he
      cases he
  · rcases captureEdges_ok hw (Nat.le_refl _) with ⟨-, hall⟩ | ⟨herr, -⟩
    · rwa [List.take_length] at hall
    · obtain ⟨edges, hedges⟩ := hok
      rw [herr] at hedges
      cases hedges
  · rcases captureEdges_ok hw (Nat.le_refl _) with ⟨⟨edges, hok, -⟩, -⟩ | ⟨-, e, he, hnone⟩
    · exact ⟨edges, hok⟩
    · rw [List.take_length] at he
      exact absurd hnone (hall e he)

/-- The tree of two branches, where the port of the second one refused the request for its bandwidth. -/
def refusedReplies : List (Wire.Request × List Byte) :=
  treeReplies.take 7 ++ [(.enumPath 3, refusal 0x10), (.linkAddress, rootBytes), (.linkAddress, childBytes)]

theorem refused_captured : (treeRun refusedReplies).2.graph.coherent = true ∧
    (treeRun refusedReplies).2.graph.edges.map (fun e => e.resources.isSome) = [true, true, false] ∧
    (treeRun treeReplies).2.graph.edges.map (fun e => e.resources.isSome) = [true, true, true] := by
  decide +kernel

/-- The tree has two keys and a plan of its three edges; with the refusal it has no plan. -/
theorem capture_graph_tree :
    (∃ k k', key (treeRun treeReplies).2.graph.view 0 = .ok k ∧
      key (treeRun treeReplies).2.graph.view 1 = .ok k' ∧ k ≠ k') ∧
    (∀ r : Reg, r.epoch = 0 → ¬badGraph r (treeRun treeReplies).2.graph.view 0 0 1) ∧
    (∀ r e, planKeys r (treeRun treeReplies).2.graph.view 0 0 2 = .error e → e = .Stale) ∧
    (∃ edges, captureEdges (treeRun treeReplies).2.graph.view {} 3 = .ok edges) ∧
    ¬ ∃ edges, captureEdges (treeRun refusedReplies).2.graph.view {} 3 = .ok edges := by
  obtain ⟨hcoherent, -, hnames, hsinks, -⟩ := tree_captured
  obtain ⟨hcoherent', hrefused, hgranted⟩ := refused_captured
  have hr : Run (Builder.step treeHost) treeStart (treeRun treeReplies).1 (treeRun treeReplies).2 :=
    Run.of_exec _ _ _
  have hr' : Run (Builder.step treeHost) treeStart (treeRun refusedReplies).1
      (treeRun refusedReplies).2 := Run.of_exec _ _ _
  obtain ⟨hgood, hkeys, hplan, hcapture⟩ :=
    capture_graph tree_init (by decide) hr (tree_read treeReplies) hcoherent
  obtain ⟨-, -, -, hcapture'⟩ :=
    capture_graph tree_init (by decide) hr' (tree_read refusedReplies) hcoherent'
  have hsinkCount : (treeRun treeReplies).2.graph.sinks.length = 2 := by
    have hlength := congrArg List.length hsinks
    rwa [List.length_map] at hlength
  have hedgeCount : (treeRun treeReplies).2.graph.edges.length = 3 := by
    have hlength := congrArg List.length hnames
    rwa [List.length_map] at hlength
  have hedgeCount' : (treeRun refusedReplies).2.graph.edges.length = 3 := by
    have hlength := congrArg List.length hrefused
    rwa [List.length_map] at hlength
  have hroot : (treeRun treeReplies).2.graph.root &&& 1 ≠ 0 := by decide +kernel
  rw [hsinkCount] at hkeys hplan
  rw [hedgeCount] at hcapture
  rw [hedgeCount'] at hcapture'
  refine ⟨?_, fun r hepoch => hgood r 0 0 1 (by decide) (by decide) hroot (.inl hepoch),
    fun r e he => hplan r 0 0 e he, hcapture.mpr fun e he hnone => ?_, fun hok => ?_⟩
  · obtain ⟨k, hk, -⟩ := hkeys 0 (by decide)
    obtain ⟨k', hk', hown'⟩ := hkeys 1 (by decide)
    refine ⟨k, k', hk, hk', fun heq => ?_⟩
    exact absurd (hown' 0 (by decide) (heq ▸ hk)) (by decide)
  · have hsome : false ∈ [true, true, true] := by
      rw [← hgranted]
      exact List.mem_map.mpr ⟨e, he, by rw [hnone]; rfl⟩
    exact absurd hsome (by decide)
  · have hnone : false ∈ (treeRun refusedReplies).2.graph.edges.map fun e => e.resources.isSome := by
      rw [hrefused]
      decide
    obtain ⟨e, he, hn⟩ := List.mem_map.mp hnone
    have hsome := hcapture'.mp hok e he
    cases hres : e.resources with
    | none => exact hsome hres
    | some _ =>
      rw [hres] at hn
      cases hn

end Capture
end Mst
end NvidiaGsp
