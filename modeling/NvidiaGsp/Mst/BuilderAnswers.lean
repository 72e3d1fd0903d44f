import NvidiaGsp.Mst.BuilderSteps

/-!
# Mst.BuilderAnswers

The answers about a port and about a sink, and the second look at a branch; `accept_good` puts them
together.
-/

namespace NvidiaGsp
namespace Mst
namespace Capture

open Builder (usable)
open Wire (Reply)

section

variable {host : Host} {said : Wire.Branch → Nat → Prop} {b b' : Builder} {last limit : Nat} {g g' : Graph}
  {e : Edge}

/-! ## A port -/

theorem getElem?_snoc {α : Type} {l m : List α} {i : Nat} {a : α} (h : l[i]? = some a) :
    (l ++ m)[i]? = some a := by
  rw [List.getElem?_append_left (List.getElem?_eq_some_iff.mp h).1]
  exact h

theorem Placed.more {places places' : List Place} {edges edges' : List Edge} {i : Nat} {p : Place}
    (h : Placed places edges i p) : Placed (places ++ places') (edges ++ edges') i p where
  valid := h.valid
  depth := h.depth
  shallow := h.shallow
  root := h.root
  parent index hi := by
    obtain ⟨edge, parent, he, hp, hrest⟩ := h.parent index hi
    exact ⟨edge, parent, getElem?_snoc he, getElem?_snoc hp, hrest⟩

/-- One more edge, with the branch or the sink behind it. -/
theorem Shape.more (hs : Shape g) (kids : List Branch) (tails : List Sink) (he : Joined g.branches.length e) (hedges : g'.edges = g.edges ++ [e])
    (hbranches : g'.branches = g.branches ++ kids) (hsinks : g'.sinks = g.sinks ++ tails)
    (hkids : kids.map (·.parentEdge) = if e.forks = true then [some g.edges.length] else [])
    (htails : tails.map (·.edge) = if e.ends = true then [g.edges.length] else [])
    (hplaced : ∀ br ∈ kids, ∃ p, g.places[e.branch]? = some p ∧ p.route.child e.port.number = .ok br.route ∧
      br.path = p.path ++ [g.edges.length])
    (hhung : ∀ s ∈ tails, ∃ p, g.places[e.branch]? = some p ∧ s.path = p.path ++ [g.edges.length])
    (hb : g'.branches.length ≤ maxBranches) (hn : g'.edges.length ≤ maxEdges)
    (hm : g'.sinks.length ≤ maxSinks) : Shape g' := by
  have hplaces : g'.places = g.places ++ kids.map Branch.place := by
    rw [Graph.places, hbranches, List.map_append]
    rfl
  have hlast : g'.edges[g.edges.length]? = some e := by rw [hedges, List.getElem?_concat_length]
  refine ⟨fun i p hp => ?_, fun a ha => ?_, fun s hmem => ?_, ?_, ?_, hb, hn, hm⟩
  · rw [hplaces] at hp ⊢
    by_cases hi : i < g.places.length
    · rw [List.getElem?_append_left hi] at hp
      rw [hedges]
      exact (hs.placed i p hp).more
    · rw [List.getElem?_append_right (by omega), List.getElem?_map] at hp
      obtain ⟨br, hbr, rfl⟩ := Option.map_eq_some_iff.mp hp
      obtain ⟨parent, hparent, hchild, hpath⟩ := hplaced br (List.mem_of_getElem? hbr)
      have hup := hs.placed e.branch parent hparent
      have hedge : br.parentEdge = some g.edges.length := by
        have hmem : br.parentEdge ∈ kids.map (·.parentEdge) := List.mem_map_of_mem (List.mem_of_getElem? hbr)
        rw [hkids] at hmem
        split at hmem
        · exact List.mem_singleton.mp hmem
        · cases hmem
      have hlength : g.places.length = g.branches.length := List.length_map ..
      have hbelow := he.branch
      obtain ⟨-, -, -, hroute⟩ := Route.child_ok hchild
      refine ⟨Route.child_valid hchild, ?_, ?_, fun hnone => ?_, fun index hindex => ?_⟩
      · show br.path.length = br.route.depth
        rw [hpath, hroute, List.length_append, hup.depth]
        rfl
      · show br.route.depth ≤ i
        rw [hroute]
        show parent.route.depth + 1 ≤ i
        have hshallow := hup.shallow
        omega
      · rw [show br.place.parentEdge = br.parentEdge from rfl, hedge] at hnone
        cases hnone
      · rw [show br.place.parentEdge = br.parentEdge from rfl, hedge] at hindex
        cases hindex
        exact ⟨e, parent, hlast, getElem?_snoc hparent, by omega, hchild, hpath⟩
  · rw [hedges] at ha
    have hle : g.branches.length ≤ g'.branches.length := by rw [hbranches, List.length_append]; omega
    rcases List.mem_append.mp ha with ha | ha
    · have hj := hs.joined a ha
      exact ⟨Nat.lt_of_lt_of_le hj.branch hle, hj.used, hj.number, hj.resources⟩
    · rw [List.mem_singleton.mp ha]
      exact ⟨Nat.lt_of_lt_of_le he.branch hle, he.used, he.number, he.resources⟩
  · rw [hsinks] at hmem
    rcases List.mem_append.mp hmem with hold | hnew
    · obtain ⟨a, p, ha, hp, hpath⟩ := hs.hung s hold
      exact ⟨a, p, hedges ▸ getElem?_snoc ha, hplaces ▸ getElem?_snoc hp, hpath⟩
    · obtain ⟨p, hp, hpath⟩ := hhung s hnew
      have hedge : s.edge = g.edges.length := by
        have hin : s.edge ∈ tails.map (·.edge) := List.mem_map_of_mem hnew
        rw [htails] at hin
        split at hin
        · exact List.mem_singleton.mp hin
        · cases hin
      exact ⟨e, p, hedge ▸ hlast, hplaces ▸ getElem?_snoc hp, hedge ▸ hpath⟩
  · rw [hbranches, hedges, List.map_append, hs.forks, indices_snoc, hkids, List.map_append, List.cons_append]
    congr 2
    split <;> rfl
  · rw [hsinks, hedges, List.map_append, hs.ends, indices_snoc, htails]

theorem getElem?_outlines {kids : List Branch} {n : Nat} (hbranches : g'.branches = g.branches ++ kids) {i : Nat}
    (hi : i < n) (hn : n ≤ g.branches.length) : g'.outlines[i]? = g.outlines[i]? := by
  rw [Graph.outlines, hbranches, List.map_append, List.getElem?_append_left (by rw [List.length_map]; omega)]
  rfl

/-- The edge of the port at hand is there, and the port is done. -/
theorem at_more (kids : List Branch) {port : Wire.Port} {value : Option Wire.Path} {serial : Nat} {d : Wire.Branch} {br : Branch}
    (ha : At b (b.branch + 1) b.port) (hbr : b.graph.branches[b.branch]? = some br)
    (hd : br.descriptor = some d) (hport : d.ports[b.port]? = some port) (huse : usable port = true)
    (hedges : b'.graph.edges = b.graph.edges ++ [⟨b.branch, port, value, serial⟩])
    (hbranches : b'.graph.branches = b.graph.branches ++ kids) (hs : Shape b'.graph)
    (hbranch : b'.branch = b.branch) (hfirst : b'.verifyBranch = b.verifyBranch) :
    At b' (b.branch + 1) (b.port + 1) := by
  have hcurrent := ha.current
  have hsame (i : Nat) (hi : i < b.branch + 1) : b'.graph.outlines[i]? = b.graph.outlines[i]? :=
    getElem?_outlines hbranches hi hcurrent
  have ho := outline_of hbr hd
  refine ⟨hs, ?_, ha.described.congr hsame, ?_, hfirst.trans ha.first⟩
  · rw [hbranch, hbranches, List.length_append]
    omega
  · rw [hbranch, hedges, List.map_append, ha.names, before_congr fun i hi => hsame i (by omega),
      named_congr (hsame b.branch (by omega)), List.append_assoc]
    congr 1
    rw [named, named, ho]
    dsimp only
    rw [names_succ, outline_port, hport, List.map_append]
    congr 1
    simp [huse, Edge.name]

theorem at_port {n m port : Nat} (ha : At b n m) : At { b with port } n m :=
  ⟨ha.shape, ha.current, ha.described, ha.names, ha.first⟩

theorem acceptResources_good {value : Option Wire.Path} {serial : Nat} (hblocks : 0 < host.maxBlocks)
    (ha : At b (b.branch + 1) b.port) (hs : AllSettled host b) (hu : InUse b) (hd : Dated last b.graph)
    (hv : ∀ p, value = some p → p.freePbn ≤ p.totalPbn) (hserial : serial ≤ last)
    (hlimit : slack host b.branch b.port ≤ limit) :
    Good (b.acceptResources value serial) (Next host said last limit) := by
  obtain ⟨o, number, ho, hnumber⟩ := hu
  obtain ⟨branch, d, hbr, hdesc, rfl⟩ := outline_at ho
  rw [outline_port] at hnumber
  obtain ⟨port, hport, hpair⟩ := Option.map_eq_some_iff.mp hnumber
  have huse : usable port = true := (Prod.mk.inj hpair).2
  obtain ⟨o', ho', hgood⟩ := ha.described.good b.branch (by omega)
  rw [ho] at ho'
  cases ho'
  have hsmall : b.port < 15 := by
    have hlt := (List.getElem?_eq_some_iff.mp hport).1
    have hfits := hgood.fits
    rw [outlineOf, List.length_map] at hfits
    omega
  have hslack := slack_port host b.branch hsmall
  have hper : host.perPort = host.maxBlocks + 4 := rfl
  have hplace : b.graph.places[b.branch]? = some branch.place := by
    rw [Graph.places, List.getElem?_map, hbr, Option.map_some]
  have hedgeDates : ∀ a ∈ b.graph.edges ++ [⟨b.branch, port, value, serial⟩], a.receipt ≤ last := fun a hmem => by
    rcases List.mem_append.mp hmem with hmem | hmem
    · exact hd.1 a hmem
    · rw [List.mem_singleton.mp hmem]
      exact hserial
  unfold Builder.acceptResources
  rw [hbr]
  dsimp only
  rw [hdesc, Option.bind_some, hport]
  dsimp only
  split
  · exact fun h => by cases h
  rename_i hfull
  split
  · exact fun h => by cases h
  rename_i hother
  have hedges : b.graph.edges.length + 1 ≤ maxEdges := by
    have hle := ha.shape.edges
    omega
  have hjoined : Joined b.graph.branches.length ⟨b.branch, port, value, serial⟩ := by
    refine ⟨ha.current, huse, ?_, fun r hr => ⟨?_, hv r hr⟩⟩
    · refine hgood.number (port.number, true) ?_
      rw [← huse]
      exact List.mem_of_getElem? (i := b.port) (by rw [outline_port, hport, Option.map_some])
    · by_contra hne
      refine hother ?_
      rw [show value = some r from hr, Option.any_some]
      exact decide_eq_true hne
  -- The edge alone, when nothing is captured behind it.
  have halone (hforks : (Edge.mk b.branch port value serial).forks = false)
      (hends : (Edge.mk b.branch port value serial).ends = false) :
      Good (Builder.nextSink { b with graph := { b.graph with
        edges := b.graph.edges ++ [⟨b.branch, port, value, serial⟩] } }) (Next host said last limit) := by
    have hshape : Shape { b.graph with edges := b.graph.edges ++ [⟨b.branch, port, value, serial⟩] } :=
      ha.shape.more [] [] hjoined rfl (List.append_nil _).symm (List.append_nil _).symm
        (by rw [hforks]; rfl) (by rw [hends]; rfl) (fun _ h => by cases h) (fun _ h => by cases h) ha.shape.branches
        (by rw [List.length_append]; exact hedges) ha.shape.sinks
    exact nextSink_good (at_more (b := b) [] ha hbr hdesc hport huse rfl (List.append_nil _).symm hshape rfl rfl) hs
      ⟨hedgeDates, hd.2⟩ (by show slack host b.branch (b.port + 1) < limit; omega)
  split
  · rename_i hnone
    exact halone (by simp [Edge.forks, hnone]) (by simp [Edge.ends, hnone])
  rename_i hsome
  have hisSome : value.isSome = true := Option.isSome_iff_ne_none.mpr hsome
  split
  · exact fun h => by cases h
  split
  · rename_i hfork
    split
    · exact fun h => by cases h
    rename_i hroom
    split
    · exact fun h => by cases h
    rename_i route hroute
    have hshape : Shape { b.graph with
        edges := b.graph.edges ++ [⟨b.branch, port, value, serial⟩]
        branches := b.graph.branches ++ [{ route, expectedGuid := port.guid
                                           parentEdge := some b.graph.edges.length
                                           path := branch.path ++ [b.graph.edges.length] }] } := by
      refine ha.shape.more _ [] hjoined rfl rfl (List.append_nil _).symm ?_ ?_ ?_ (fun _ h => by cases h) ?_ ?_
        ha.shape.sinks
      · simp [Edge.forks, hisSome, hfork]
      · simp [Edge.ends, hfork]
      · intro br hmem
        rw [List.mem_singleton.mp hmem]
        exact ⟨branch.place, hplace, hroute, rfl⟩
      · have hle := ha.shape.branches
        rw [List.length_append]
        show b.graph.branches.length + 1 ≤ _
        omega
      · rw [List.length_append]
        exact hedges
    exact nextSink_good (at_more (b := b) _ ha hbr hdesc hport huse rfl rfl hshape rfl rfl) hs ⟨hedgeDates, hd.2⟩
      (by show slack host b.branch (b.port + 1) < limit; omega)
  rename_i hfork
  have hforks : (Edge.mk b.branch port value serial).forks = false := by
    simp only [Edge.forks, hisSome, Bool.true_and]
    by_contra hne
    rw [Bool.not_eq_false, Bool.and_eq_true, beq_iff_eq] at hne
    exact hfork hne
  have hkind : (port.peer == .branch && port.messaging) = false := by
    simpa only [Edge.forks, hisSome, Bool.true_and] using hforks
  split
  · rename_i hend
    split
    · exact fun h => by cases h
    rename_i hroom
    have hshape : Shape { b.graph with
        edges := b.graph.edges ++ [⟨b.branch, port, value, serial⟩]
        sinks := b.graph.sinks ++ [{ edge := b.graph.edges.length
                                     path := branch.path ++ [b.graph.edges.length] }] } := by
      refine ha.shape.more [] _ hjoined rfl (List.append_nil _).symm rfl ?_ ?_ (fun _ h => by cases h) ?_
        ha.shape.branches ?_ ?_
      · rw [hforks]
        rfl
      · have hends : (Edge.mk b.branch port value serial).ends = true := by
          simp only [Edge.ends, hisSome, hkind, Bool.not_false, Bool.true_and, Bool.or_eq_true, beq_iff_eq]
          tauto
        rw [hends]
        rfl
      · intro s hmem
        rw [List.mem_singleton.mp hmem]
        exact ⟨branch.place, hplace, rfl⟩
      · rw [List.length_append]
        exact hedges
      · have hle := ha.shape.sinks
        rw [List.length_append]
        show b.graph.sinks.length + 1 ≤ _
        omega
    refine ⟨⟨⟨at_more (b := b) [] ha hbr hdesc hport huse rfl (List.append_nil _).symm hshape rfl rfl, hsmall,
      ?_, ?_, Nat.zero_lt_one, hblocks, ?_⟩, rfl⟩, ?_, ⟨hedgeDates, ?_⟩⟩
    · dsimp only
      rw [List.length_append]
      rfl
    · dsimp only
      rw [List.take_left]
      exact hs
    · dsimp only
      rw [List.getElem?_concat_length]
      rintro s ⟨⟩
      rfl
    · show slack host b.branch (b.port + 1) + host.maxBlocks + 3 < limit
      omega
    · intro s hmem
      dsimp only at hmem
      rcases List.mem_append.mp hmem with hmem | hmem
      · exact hd.2 s hmem
      · rw [List.mem_singleton.mp hmem]
        exact Nat.zero_le _
  · rename_i hend
    refine halone hforks ?_
    simp only [Edge.ends, hisSome, hkind, Bool.not_false, Bool.true_and]
    by_contra hne
    simp only [Bool.not_eq_false, Bool.or_eq_true, beq_iff_eq] at hne
    exact hend (by tauto)

/-! ## A sink -/

theorem getElem?_modify_map {α : Type} {l : List α} {i j : Nat} {f : α → α} :
    (l.modify i f)[j]? = l[j]?.map fun a => if i = j then f a else a := by
  rw [List.getElem?_modify]
  rfl

theorem take_modify {α : Type} {l : List α} {i : Nat} {f : α → α} : (l.modify i f).take i = l.take i := by
  apply List.ext_getElem?
  intro j
  rw [List.getElem?_take, List.getElem?_take]
  split
  · rw [getElem?_modify_map]
    simp [show i ≠ j by omega]
  · rfl

/-- Only what a sink says is new. -/
theorem at_setSink {n m : Nat} {f : Sink → Sink} (ha : At b n m) (he : ∀ s, (f s).edge = s.edge)
    (hp : ∀ s, (f s).path = s.path) : At (b.setSink f) n m := by
  have hs := ha.shape
  refine ⟨⟨hs.placed, hs.joined, fun s hmem => ?_, hs.forks, ?_, hs.branches, hs.edges, ?_⟩, ha.current,
    ha.described, ha.names, ha.first⟩
  · obtain ⟨i, hi⟩ := List.getElem?_of_mem hmem
    have hget : (b.graph.sinks.modify b.sink f)[i]? = some s := hi
    rw [getElem?_modify_map] at hget
    obtain ⟨old, hold, rfl⟩ := Option.map_eq_some_iff.mp hget
    have hsame : (if b.sink = i then f old else old).edge = old.edge ∧
        (if b.sink = i then f old else old).path = old.path := by
      split
      · exact ⟨he old, hp old⟩
      · exact ⟨rfl, rfl⟩
    rw [hsame.1, hsame.2]
    exact hs.hung old (List.mem_of_getElem? hold)
  · exact (map_modify_of he).trans hs.ends
  · exact (List.length_modify ..).symm ▸ hs.sinks

theorem dated_setSink {f : Sink → Sink} (hd : Dated last b.graph)
    (hf : ∀ s, s.receipt ≤ last → (f s).receipt ≤ last) : Dated last (b.setSink f).graph := by
  refine ⟨hd.1, fun s hmem => ?_⟩
  obtain ⟨i, hi⟩ := List.getElem?_of_mem hmem
  have hget : (b.graph.sinks.modify b.sink f)[i]? = some s := hi
  rw [getElem?_modify_map] at hget
  obtain ⟨old, hold, rfl⟩ := Option.map_eq_some_iff.mp hget
  have hle := hd.2 old (List.mem_of_getElem? hold)
  split
  · exact hf old hle
  · exact hle

/-- The last sink is settled like the others. -/
theorem settle {s : Sink} {f : Sink → Sink} (hr : Reading host b) (hget : b.graph.sinks[b.sink]? = some s)
    (hf : Settled host (f s)) : AllSettled host (b.setSink f) := by
  intro a hmem
  obtain ⟨i, hi⟩ := List.getElem?_of_mem hmem
  have hmod : (b.graph.sinks.modify b.sink f)[i]? = some a := hi
  rw [getElem?_modify_map] at hmod
  obtain ⟨old, hold, rfl⟩ := Option.map_eq_some_iff.mp hmod
  have hlast := hr.last
  have hlt := (List.getElem?_eq_some_iff.mp hold).1
  split
  · rename_i he
    rw [← he, hget] at hold
    cases hold
    exact hf
  · rename_i hne
    exact hr.settled old (List.mem_of_getElem? (i := i) (by rw [List.getElem?_take, if_pos (by omega)]; exact hold))

/-- The last sink goes on with another block. -/
theorem reading_setSink {s : Sink} {f : Sink → Sink} {block blocks : Nat} (hr : Reading host b)
    (hget : b.graph.sinks[b.sink]? = some s) (he : ∀ s, (f s).edge = s.edge) (hp : ∀ s, (f s).path = s.path)
    (hf : (f s).bytes.length = 128 * block) (hblock : block < blocks) (hblocks : blocks ≤ host.maxBlocks) :
    Reading host { b.setSink f with block, blocks, stage := .edid } := by
  have hat := at_setSink hr.here he hp
  refine ⟨⟨hat.shape, hat.current, hat.described, hat.names, hat.first⟩, hr.port, ?_, fun a hmem => ?_, hblock,
    hblocks, fun a ha => ?_⟩
  · exact (List.length_modify ..).symm ▸ hr.last
  · have htake : a ∈ (b.graph.sinks.modify b.sink f).take b.sink := hmem
    rw [take_modify] at htake
    exact hr.settled a htake
  · have hmod : (b.graph.sinks.modify b.sink f)[b.sink]? = some a := ha
    rw [getElem?_modify_map, hget, Option.map_some, if_pos rfl] at hmod
    cases hmod
    exact hf

theorem Reading.stage (hr : Reading host b) (stage : Stage) : Reading host { b with stage } :=
  ⟨⟨hr.here.shape, hr.here.current, hr.here.described, hr.here.names, hr.here.first⟩, hr.port, hr.last, hr.settled,
    hr.block, hr.blocks, hr.read⟩

theorem progress_edid (hs : b.stage = .edid) (hr : Reading host b) : Progress host said b := by
  unfold Progress
  rw [hs]
  exact hr

theorem rank_edid (hs : b.stage = .edid) :
    rank host b = slack host b.branch (b.port + 1) + (host.maxBlocks + 2 - b.block) := by
  unfold rank
  rw [hs]

theorem progress_verify (hs : b.stage = .verify)
    (h : Whole host b ∧ b.verifyBranch < b.graph.branches.length ∧
      ∀ i < b.verifyBranch, ∀ br, b.graph.branches[i]? = some br → Verified said b br) : Progress host said b := by
  unfold Progress
  rw [hs]
  exact h

theorem rank_verify (hs : b.stage = .verify) : rank host b = b.graph.branches.length - b.verifyBranch := by
  unfold rank
  rw [hs]

theorem state_settled {s : Sink} {bytes : List Byte} (hfits : bytes.length ≤ 128 * host.maxBlocks) :
    Settled host { s with bytes, state := host.state bytes } where
  state := by
    show host.state bytes ≠ .pending
    unfold Host.state
    split <;> nofun
  fits := hfits
  valid h := by
    have hstate : host.state bytes = .valid := h
    unfold Host.state at hstate
    split at hstate
    · assumption
    all_goals cases hstate
  missing h := by
    have hstate : host.state bytes = .missing := h
    unfold Host.state at hstate
    split at hstate <;> cases hstate

theorem acceptBlock_good {sink : Sink} {data : Option (List Byte)} (hr : Reading host b)
    (hget : b.graph.sinks[b.sink]? = some sink) (hd : Dated last b.graph)
    (hdata : ∀ bytes, data = some bytes → bytes.length = 128) (hstage : b.stage = .edid)
    (hlimit : slack host b.branch (b.port + 1) + (host.maxBlocks + 2 - b.block) ≤ limit) :
    Good (b.acceptBlock host sink data) (Next host said last limit) := by
  have hblock := hr.block
  have hblocks := hr.blocks
  have hread := hr.read sink hget
  -- The last sink is done.
  have hdone {f : Sink → Sink} (he : ∀ s, (f s).edge = s.edge) (hp : ∀ s, (f s).path = s.path)
      (hreceipt : ∀ s, (f s).receipt = s.receipt) (hf : Settled host (f sink)) :
      Good (b.setSink f).nextSink (Next host said last limit) :=
    nextSink_good (at_port (at_setSink hr.here he hp)) (settle hr hget hf)
      (dated_setSink hd fun s hs => (hreceipt s).symm ▸ hs)
      (by show slack host b.branch (b.port + 1) < limit; omega)
  -- The first block is asked for once more.
  have hverify {f : Sink → Sink} {block blocks : Nat} (he : ∀ s, (f s).edge = s.edge)
      (hp : ∀ s, (f s).path = s.path) (hreceipt : ∀ s, (f s).receipt = s.receipt) (hf : Settled host (f sink)) :
      Next host said last limit { b.setSink f with block, blocks, stage := .edidVerify } := by
    have hat := at_setSink hr.here he hp
    refine ⟨⟨⟨hat.shape, hat.current, hat.described, hat.names, hat.first⟩, hr.port, ?_, settle hr hget hf⟩, ?_,
      dated_setSink hd fun s hs => (hreceipt s).symm ▸ hs⟩
    · exact (List.length_modify ..).symm ▸ hr.last
    · show slack host b.branch (b.port + 1) + 1 < limit
      omega
  unfold Builder.acceptBlock
  cases data with
  | none =>
    dsimp only
    split
    · rename_i hempty
      refine hdone (fun _ => rfl) (fun _ => rfl) (fun _ => rfl) ⟨nofun, ?_, nofun, fun _ => hempty⟩
      show sink.bytes.length ≤ _
      rw [hempty]
      exact Nat.zero_le _
    · exact hverify (fun _ => rfl) (fun _ => rfl) (fun _ => rfl)
        (state_settled (s := sink) (by rw [hread]; exact Nat.mul_le_mul_left _ (by omega)))
  | some bytes =>
    have hlength : (sink.bytes ++ bytes).length = 128 * (b.block + 1) := by
      rw [List.length_append, hread, hdata bytes rfl]
      omega
    have hfits : (sink.bytes ++ bytes).length ≤ 128 * host.maxBlocks := by
      rw [hlength]
      exact Nat.mul_le_mul_left _ (by omega)
    have hsettled := state_settled (s := sink) hfits
    dsimp only
    split
    · rename_i hzero
      split
      · exact hdone (fun _ => rfl) (fun _ => rfl) (fun _ => rfl) hsettled
      split
      · exact hdone (fun _ => rfl) (fun _ => rfl) (fun _ => rfl) ⟨nofun, hfits, nofun, nofun⟩
      rename_i hmany
      by_cases hone : 1 = ((sink.bytes ++ bytes).getD 126 0).toNat + 1
      · rw [if_pos hone]
        exact hverify (fun _ => rfl) (fun _ => rfl) (fun _ => rfl) hsettled
      · rw [if_neg hone]
        refine ⟨reading_setSink hr hget (fun _ => rfl) (fun _ => rfl) (by rw [hlength, hzero]) (by omega) (by omega),
          ?_, dated_setSink hd fun _ hs => hs⟩
        show slack host b.branch (b.port + 1) + (host.maxBlocks + 2 - 1) < limit
        omega
    · split
      · exact hverify (fun _ => rfl) (fun _ => rfl) (fun _ => rfl) hsettled
      · rename_i hmore
        have hnext := reading_setSink (f := fun s => { s with bytes := sink.bytes ++ bytes }) hr hget (fun _ => rfl)
          (fun _ => rfl) hlength (by omega) hblocks
        refine ⟨progress_edid hstage (hnext.stage b.stage), lt_of_eq_of_lt (rank_edid hstage) ?_,
          dated_setSink hd fun _ hs => hs⟩
        show slack host b.branch (b.port + 1) + (host.maxBlocks + 2 - (b.block + 1)) < limit
        omega

theorem settled_receipt {s : Sink} {receipt : Nat} (h : Settled host s) : Settled host { s with receipt } :=
  ⟨h.state, h.fits, h.valid, h.missing⟩

theorem acceptEdid_good {request : Wire.Request} {reply : Reply} {serial : Nat} (hd : Dated last b.graph)
    (hserial : serial ≤ last)
    (hstage : (b.stage = .edid ∧ Reading host b ∧
        slack host b.branch (b.port + 1) + (host.maxBlocks + 2 - b.block) ≤ limit) ∨
      (b.stage = .edidVerify ∧ At b (b.branch + 1) (b.port + 1) ∧ b.sink + 1 = b.graph.sinks.length ∧
        AllSettled host b ∧ slack host b.branch (b.port + 1) < limit)) :
    Good (b.acceptEdid host request reply serial) (Next host said last limit) := by
  have hlast : b.sink < b.graph.sinks.length := by
    rcases hstage with ⟨-, hr, -⟩ | ⟨-, -, hlast, -⟩
    · have h := hr.last
      omega
    · omega
  have hget : (b.setSink fun s => { s with receipt := serial }).graph.sinks[b.sink]? =
      some { b.graph.sinks[b.sink] with receipt := serial } := by
    show (b.graph.sinks.modify b.sink _)[b.sink]? = _
    rw [getElem?_modify_map, List.getElem?_eq_getElem hlast, Option.map_some, if_pos rfl]
  have hd' : Dated last (b.setSink fun s => { s with receipt := serial }).graph :=
    dated_setSink hd fun _ _ => hserial
  unfold Builder.acceptEdid
  dsimp only
  rw [show (b.setSink fun s => { s with receipt := serial }).sink = b.sink from rfl,
    show (b.setSink fun s => { s with receipt := serial }).stage = b.stage from rfl, hget]
  dsimp only
  rcases hstage with ⟨hs, hr, hlimit⟩ | ⟨hs, ha, -, hall, hlimit⟩
  · have hread : Reading host (b.setSink fun s => { s with receipt := serial }) :=
      (reading_setSink (f := fun s => { s with receipt := serial }) hr (List.getElem?_eq_getElem hlast)
        (fun _ => rfl) (fun _ => rfl) (hr.read b.graph.sinks[b.sink] (List.getElem?_eq_getElem hlast)) hr.block hr.blocks).stage b.stage
    have hblock (data : Option (List Byte)) (hdata : ∀ bytes, data = some bytes → bytes.length = 128) :
        Good ((b.setSink fun s => { s with receipt := serial }).acceptBlock host
          { b.graph.sinks[b.sink] with receipt := serial } data) (Next host said last limit) :=
      acceptBlock_good hread hget hd' hdata hs hlimit
    rw [hs]
    cases reply with
    | nack op guid reason data => exact hblock none nofun
    | data port bytes =>
      dsimp only
      split
      · exact nofun
      rename_i hbad
      rw [if_neg (by decide)]
      exact hblock (some bytes) fun _ h => by cases h; by_contra hne; exact hbad (.inl hne)
    | _ => exact nofun
  · rw [hs]
    cases reply with
    | data port bytes =>
      dsimp only
      split
      · exact nofun
      rw [if_pos rfl]
      split
      · exact nofun
      · refine nextSink_good (at_port (at_setSink ha (fun _ => rfl) fun _ => rfl)) (fun s hmem => ?_) hd' hlimit
        obtain ⟨i, hi⟩ := List.getElem?_of_mem hmem
        have hmod : (b.graph.sinks.modify b.sink fun s => { s with receipt := serial })[i]? = some s := hi
        rw [getElem?_modify_map] at hmod
        obtain ⟨old, hold, rfl⟩ := Option.map_eq_some_iff.mp hmod
        have hsettled := hall old (List.mem_of_getElem? hold)
        split
        · exact settled_receipt hsettled
        · exact hsettled
    | _ => exact nofun

/-! ## The second look -/

theorem Shape.finished {n : Nat} (hs : Shape g) : Shape { g with coherent := true, completionReceipt := n } :=
  ⟨hs.placed, hs.joined, hs.hung, hs.forks, hs.ends, hs.branches, hs.edges, hs.sinks⟩

theorem acceptVerify_good {reply : Reply} {serial before : Nat} (hstage : b.stage = .verify) (hw : Whole host b)
    (hlt : b.verifyBranch < b.graph.branches.length)
    (hv : ∀ i < b.verifyBranch, ∀ br, b.graph.branches[i]? = some br → Verified said b br)
    (hd : Dated before b.graph) (hserial : before < serial) (hle : serial ≤ last)
    (hsaid : ∀ d, reply = .branch d → said d serial)
    (hlimit : b.graph.branches.length - b.verifyBranch ≤ limit) :
    Good (b.acceptVerify reply serial) (Next host said last limit) := by
  obtain ⟨o, ho, -⟩ := hw.described.good b.verifyBranch hlt
  obtain ⟨br, d, hbr, hdesc, rfl⟩ := outline_at ho
  unfold Builder.acceptVerify
  rw [hbr, Option.bind_some, hdesc]
  dsimp only
  split
  · exact nofun
  rename_i hreply
  rw [not_not] at hreply
  -- The branch gets a later receipt, nothing else changes.
  generalize hb' : b.setBranch b.verifyBranch (fun c => { c with receipt := serial }) = b'
  have hbranches : b'.graph.branches = b.graph.branches.modify b.verifyBranch fun c => { c with receipt := serial } :=
    hb' ▸ rfl
  have hlength : b'.graph.branches.length = b.graph.branches.length := by rw [hbranches, List.length_modify]
  have hedges : b'.graph.edges = b.graph.edges := hb' ▸ rfl
  have hsinks : b'.graph.sinks = b.graph.sinks := hb' ▸ rfl
  have houtlines : b'.graph.outlines = b.graph.outlines := hb' ▸ map_modify_of fun _ => rfl
  have hwhole : Whole host b' := by
    refine ⟨hb' ▸ shape_setBranch hw.shape fun _ => rfl, ?_, ?_, ?_⟩
    · rw [houtlines, hlength]
      exact hw.described
    · rw [houtlines, hlength, hedges]
      exact hw.names
    · intro s hmem
      exact hw.settled s (hsinks ▸ hmem)
  have hverified : ∀ i < b.verifyBranch + 1, ∀ br, b'.graph.branches[i]? = some br → Verified said b' br := by
    intro i hi a ha
    rw [hbranches, getElem?_modify_map] at ha
    obtain ⟨old, hold, rfl⟩ := Option.map_eq_some_iff.mp ha
    split
    · rename_i he
      rw [← he, hbr] at hold
      cases hold
      refine ⟨⟨d, hdesc, hsaid d hreply⟩, fun e hmem => ?_, fun s hmem => ?_⟩
      · exact Nat.lt_of_le_of_lt (hd.1 e (hedges ▸ hmem)) hserial
      · exact Nat.lt_of_le_of_lt (hd.2 s (hsinks ▸ hmem)) hserial
    · rename_i hne
      obtain ⟨hagain, hedge, hsink⟩ := hv i (by omega) old hold
      exact ⟨hagain, hedges.symm ▸ hedge, hsinks.symm ▸ hsink⟩
  have hdated : Dated last b'.graph := by
    refine ⟨fun e hmem => ?_, fun s hmem => ?_⟩
    · exact Nat.le_trans (hd.1 e (hedges ▸ hmem)) (by omega)
    · exact Nat.le_trans (hd.2 s (hsinks ▸ hmem)) (by omega)
  split
  · rename_i hend
    refine ⟨⟨⟨hwhole.shape.finished, hwhole.described, hwhole.names, hwhole.settled⟩, fun a hmem => ?_⟩, ?_,
      hdated⟩
    · obtain ⟨i, hi⟩ := List.getElem?_of_mem hmem
      have hin := (List.getElem?_eq_some_iff.mp hi).1
      obtain ⟨hagain, hedge, hsink⟩ := hverified i (by rw [hend]; exact hin) a hi
      exact ⟨hagain, hedge, hsink⟩
    · show 0 < limit
      omega
  · rename_i hmore
    refine ⟨progress_verify (hb' ▸ hstage) ⟨⟨hwhole.shape, hwhole.described, hwhole.names, hwhole.settled⟩, ?_,
      fun i hi a ha => ?_⟩, lt_of_eq_of_lt (rank_verify (hb' ▸ hstage)) ?_, hdated⟩
    · show b.verifyBranch + 1 < b'.graph.branches.length
      have hne : b.verifyBranch + 1 ≠ b'.graph.branches.length := hmore
      omega
    · obtain ⟨hagain, hedge, hsink⟩ := hverified i hi a ha
      exact ⟨hagain, hedge, hsink⟩
    · show b'.graph.branches.length - (b.verifyBranch + 1) < limit
      omega

end

end Capture
end Mst
end NvidiaGsp
