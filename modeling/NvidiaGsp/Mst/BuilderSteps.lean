import NvidiaGsp.Mst.BuilderSpec

/-!
# Mst.BuilderSteps

What one answer does to a `Builder`: it keeps `Progress`, the invariant of the stage it is in, and
comes closer to the end. `rank` counts what is left to ask at most.
-/

namespace NvidiaGsp
namespace Mst
namespace Capture

open Builder (usable)
open Wire (Reply)

/-! ## The invariant -/

def AllSettled (host : Host) (b : Builder) : Prop := ∀ s ∈ b.graph.sinks, Settled host s

/-- The builder asks the last sink, in `caps` and `edid`. -/
structure Reading (host : Host) (b : Builder) : Prop where
  here : At b (b.branch + 1) (b.port + 1)
  port : b.port < 15
  last : b.sink + 1 = b.graph.sinks.length
  settled : ∀ s ∈ b.graph.sinks.take b.sink, Settled host s
  block : b.block < b.blocks
  blocks : b.blocks ≤ host.maxBlocks
  read : ∀ s, b.graph.sinks[b.sink]? = some s → s.bytes.length = 128 * b.block

/-- All ports in use of all branches have been asked for. -/
structure Whole (host : Host) (b : Builder) : Prop where
  shape : Shape b.graph
  described : Described b.graph.outlines b.graph.branches.length
  names : b.graph.edges.map Edge.name = before b.graph.outlines b.graph.branches.length
  settled : AllSettled host b

/-- The branch said again what the graph has of it, later than all else was said. -/
structure Verified (said : Wire.Branch → Nat → Prop) (b : Builder) (br : Branch) : Prop where
  again : ∃ d, br.descriptor = some d ∧ said d br.receipt
  edges : ∀ e ∈ b.graph.edges, e.receipt < br.receipt
  sinks : ∀ s ∈ b.graph.sinks, s.receipt < br.receipt

def InUse (b : Builder) : Prop :=
  ∃ o number, b.graph.outlines[b.branch]? = some (some o) ∧ o.ports[b.port]? = some (number, true)

def Known (b : Builder) : Prop := ∀ br, b.graph.branches[b.branch]? = some br → br.expectedGuid.isZero = false

/-- `said d n` holds of what a branch reported at receipt `n`. -/
def Progress (host : Host) (said : Wire.Branch → Nat → Prop) (b : Builder) : Prop :=
  match b.stage with
  | .branch => At b b.branch 0 ∧ b.port = 0 ∧ AllSettled host b
  | .guidWrite => At b b.branch 0 ∧ b.port = 0 ∧ AllSettled host b ∧ Known b
  | .resources => At b (b.branch + 1) b.port ∧ AllSettled host b ∧ InUse b
  | .caps => Reading host b ∧ b.block = 0
  | .edid => Reading host b
  | .edidVerify => At b (b.branch + 1) (b.port + 1) ∧ b.port < 15 ∧ b.sink + 1 = b.graph.sinks.length ∧
      AllSettled host b
  | .verify => Whole host b ∧ b.verifyBranch < b.graph.branches.length ∧
      ∀ i < b.verifyBranch, ∀ br, b.graph.branches[i]? = some br → Verified said b br
  | .complete => Whole host b ∧ ∀ br ∈ b.graph.branches, Verified said b br
  | .cancelled => False

def Dated (n : Nat) (g : Graph) : Prop :=
  (∀ e ∈ g.edges, e.receipt ≤ n) ∧ ∀ s ∈ g.sinks, s.receipt ≤ n

/-- What the requests for one port come to. -/
def Host.perPort (host : Host) : Nat := host.maxBlocks + 4

def Host.perBranch (host : Host) : Nat := 15 * host.perPort + 4

/-- The requests left when the ports from `port` on are. -/
def slack (host : Host) (branch port : Nat) : Nat :=
  (7 - branch) * host.perBranch + (15 - port) * host.perPort + 8

def rank (host : Host) (b : Builder) : Nat :=
  match b.stage with
  | .branch => slack host b.branch 0 + if b.graph.branches[b.branch]?.any (!·.expectedGuid.isZero) then 1 else 3
  | .guidWrite => slack host b.branch 0 + 2
  | .resources => slack host b.branch b.port
  | .caps => slack host b.branch (b.port + 1) + host.maxBlocks + 3
  | .edid => slack host b.branch (b.port + 1) + (host.maxBlocks + 2 - b.block)
  | .edidVerify => slack host b.branch (b.port + 1) + 1
  | .verify => b.graph.branches.length - b.verifyBranch
  | .complete | .cancelled => 0

/-- The call went through with `P`, or failed at a check of the source's. -/
def Good (r : Result) (P : Builder → Prop) : Prop :=
  match r with
  | (.ok (), b) => P b
  | (.error e, _) => e ≠ .Unreachable

@[simp] theorem good_fail {b : Builder} {e : Error} {P : Builder → Prop} :
    Good (b.fail e) P ↔ e ≠ .Unreachable := Iff.rfl

@[simp] theorem good_done {b : Builder} {P : Builder → Prop} : Good b.done P ↔ P b := Iff.rfl

theorem Good.mono {r : Result} {P Q : Builder → Prop} (h : Good r P) (hpq : ∀ b, P b → Q b) : Good r Q := by
  unfold Good at h ⊢
  split
  · exact hpq _ h
  · exact h

/-- The next stage is one of `Progress`, with less to ask than `limit`. -/
structure Next (host : Host) (said : Wire.Branch → Nat → Prop) (last limit : Nat) (b : Builder) : Prop where
  progress : Progress host said b
  rank : rank host b < limit
  dated : Dated last b.graph

section

variable {host : Host} {said : Wire.Branch → Nat → Prop} {b : Builder} {last limit : Nat}

/-! ## Places -/

theorem outline_at {g : Graph} {i : Nat} {o : Outline} (h : g.outlines[i]? = some (some o)) :
    ∃ br d, g.branches[i]? = some br ∧ br.descriptor = some d ∧ outlineOf d = o := by
  unfold Graph.outlines at h
  rw [List.getElem?_map] at h
  obtain ⟨br, hbr, ho⟩ := Option.map_eq_some_iff.mp h
  obtain ⟨d, hd, he⟩ := Option.map_eq_some_iff.mp ho
  exact ⟨br, d, hbr, hd, he⟩

theorem outline_of {g : Graph} {i : Nat} {br : Branch} {d : Wire.Branch} (hbr : g.branches[i]? = some br)
    (hd : br.descriptor = some d) : g.outlines[i]? = some (some (outlineOf d)) := by
  rw [Graph.outlines, List.getElem?_map, hbr, Option.map_some, Branch.outline, hd, Option.map_some]

theorem outline_port {d : Wire.Branch} {i : Nat} :
    (outlineOf d).ports[i]? = d.ports[i]?.map fun p => (p.number, usable p) := by
  rw [outlineOf, List.getElem?_map]

theorem names_succ {o : Outline} {n : Nat} :
    o.names (n + 1) = o.names n ++ ((o.ports[n]?.toList.filter (·.2)).map (·.1)) := by
  rw [Outline.names, Outline.names, List.take_add_one, List.filter_append, List.map_append]

/-- Ports not in use add no name. -/
theorem names_skip {o : Outline} {m n : Nat} (hle : m ≤ n)
    (h : ∀ i, m ≤ i → i < n → ∀ p, o.ports[i]? = some p → p.2 = false) : o.names n = o.names m := by
  induction n, hle using Nat.le_induction with
  | base => rfl
  | succ n hle ih =>
    rw [names_succ, ih fun i hi hn => h i hi (by omega)]
    cases hp : o.ports[n]? with
    | none => simp
    | some p => simp [h n hle (by omega) p hp]

theorem slack_branch (host : Host) (branch port : Nat) (h : branch < 7) :
    slack host (branch + 1) 0 + 4 ≤ slack host branch port := by
  have hsub : 7 - branch = 7 - (branch + 1) + 1 := by omega
  unfold slack
  rw [hsub, Nat.add_mul, Nat.one_mul]
  unfold Host.perBranch
  omega

theorem slack_port (host : Host) (branch : Nat) {port : Nat} (h : port < 15) :
    slack host branch (port + 1) + host.perPort = slack host branch port := by
  have hsub : 15 - port = 15 - (port + 1) + 1 := by omega
  unfold slack
  rw [hsub, Nat.add_mul, Nat.one_mul]
  omega

theorem slack_le {branch m n : Nat} (h : m ≤ n) : slack host branch n ≤ slack host branch m := by
  have hle : (15 - n) * host.perPort ≤ (15 - m) * host.perPort := Nat.mul_le_mul_right _ (by omega)
  unfold slack
  omega

/-! ## The next port -/

theorem nextPort_good (ha : At b (b.branch + 1) b.port) (hs : AllSettled host b) (hd : Dated last b.graph)
    (hlimit : slack host b.branch b.port < limit) : Good b.nextPort (Next host said last limit) := by
  obtain ⟨o, ho, hgood⟩ := ha.described.good b.branch (by omega)
  obtain ⟨br, d, hbr, hdesc, rfl⟩ := outline_at ho
  have hbranches := ha.shape.branches
  have hcurrent := ha.current
  unfold maxBranches at hbranches
  have hfits : d.ports.length ≤ 15 := by
    have h := hgood.fits
    rwa [outlineOf, List.length_map] at h
  unfold Builder.nextPort
  rw [hbr, Option.bind_some, hdesc]
  dsimp only
  -- A port from the present one on is not in use, up to the one found.
  have hidle {n : Nat} (hn : ∀ i < n, ∀ p, (d.ports.drop b.port)[i]? = some p → usable p = false) (i : Nat)
      (hi : b.port ≤ i) (hlt : i < b.port + n) (p : Nat × Bool) (hp : (outlineOf d).ports[i]? = some p) :
      p.2 = false := by
    rw [outline_port] at hp
    obtain ⟨q, hq, rfl⟩ := Option.map_eq_some_iff.mp hp
    refine hn (i - b.port) (by omega) q ?_
    rw [List.getElem?_drop, show b.port + (i - b.port) = i by omega]
    exact hq
  cases hfind : (d.ports.drop b.port).findIdx? usable with
  | some skipped =>
    obtain ⟨hlt, huse, hnot⟩ := List.findIdx?_eq_some_iff_getElem.mp hfind
    have hget : d.ports[b.port + skipped]? = some (d.ports.drop b.port)[skipped] := by
      rw [← List.getElem?_drop, List.getElem?_eq_getElem hlt]
    have hlen := hlt
    rw [List.length_drop] at hlen
    have hskip : (outlineOf d).names (b.port + skipped) = (outlineOf d).names b.port := by
      refine names_skip (by omega) (hidle fun i hi p hp => ?_)
      have hbefore := hnot i hi
      rw [List.getElem?_eq_getElem (by omega)] at hp
      rw [Option.some.inj hp] at hbefore
      simpa using hbefore
    refine ⟨⟨⟨ha.shape, ha.current, ha.described, ?_, ha.first⟩, hs, ⟨_, (d.ports.drop b.port)[skipped].number, ho, ?_⟩⟩, ?_, hd⟩
    · show b.graph.edges.map Edge.name = _ ++ named b.graph.outlines b.branch (b.port + skipped)
      rw [ha.names, named, named, ho]
      dsimp only
      rw [hskip]
    · show (outlineOf d).ports[b.port + skipped]? = _
      rw [outline_port, hget, Option.map_some, huse]
    · show slack host b.branch (b.port + skipped) < limit
      exact Nat.lt_of_le_of_lt (slack_le (Nat.le_add_right _ _)) hlimit
  | none =>
    rw [List.findIdx?_eq_none_iff] at hfind
    have hall : ∀ m, b.port ≤ m → (outlineOf d).names m = (outlineOf d).names b.port := fun m hm => by
      refine names_skip hm fun i hi hlt p hp => ?_
      exact hidle (n := m - b.port) (fun i _ p hp => by simpa using hfind p (List.mem_of_getElem? hp)) i hi (by omega) p hp
    have hnames : b.graph.edges.map Edge.name = before b.graph.outlines (b.branch + 1) := by
      rw [ha.names, before_succ, named, named, ho]
      dsimp only
      congr 2
      by_cases hle : b.port ≤ 15
      · exact (hall 15 hle).symm
      · rw [Outline.names, Outline.names, List.take_of_length_le, List.take_of_length_le hgood.fits]
        exact Nat.le_trans hgood.fits (by omega)
    dsimp only
    split
    · rename_i hmore
      refine ⟨⟨⟨ha.shape, hmore, ha.described, ?_, ha.first⟩, rfl, hs⟩, ?_, hd⟩
      · rw [hnames, named_zero, List.append_nil]
      · have hstep := slack_branch host b.branch b.port (by omega)
        show slack host (b.branch + 1) 0 + _ < limit
        split <;> omega
    · rename_i hlast
      have hend : b.branch + 1 = b.graph.branches.length := by omega
      refine ⟨⟨⟨ha.shape, hend ▸ ha.described, by rw [hnames, hend], hs⟩, ?_, fun i hi => ?_⟩, ?_, hd⟩
      · have hpos : b.verifyBranch < b.graph.branches.length := by rw [ha.first]; omega
        exact hpos
      · rw [show b.verifyBranch = 0 from ha.first] at hi
        omega
      · show b.graph.branches.length - b.verifyBranch < limit
        have hmin : 8 ≤ slack host b.branch b.port := Nat.le_add_left _ _
        have hpos := ha.first
        omega

theorem nextSink_good (ha : At { b with port := b.port + 1 } (b.branch + 1) (b.port + 1))
    (hs : AllSettled host b) (hd : Dated last b.graph) (hlimit : slack host b.branch (b.port + 1) < limit) :
    Good b.nextSink (Next host said last limit) :=
  nextPort_good (b := { b with port := b.port + 1 }) ha hs hd hlimit

/-! ## A branch -/

theorem outlines_setBranch {i j : Nat} {f : Branch → Branch} :
    (b.setBranch i f).graph.outlines[j]? =
      b.graph.branches[j]?.map fun br => (if i = j then f br else br).outline := by
  show ((b.graph.branches.modify i f).map Branch.outline)[j]? = _
  rw [List.getElem?_map, List.getElem?_modify]
  cases b.graph.branches[j]? with
  | none => rfl
  | some br => simp only [Option.map_some]; split <;> rfl

/-- Only what a branch says of its ports, or when, is new. -/
theorem shape_setBranch {i : Nat} {f : Branch → Branch} (hs : Shape b.graph) (hf : ∀ br, (f br).place = br.place) :
    Shape (b.setBranch i f).graph := by
  have hplaces : (b.setBranch i f).graph.places = b.graph.places := map_modify_of hf
  have hlength : (b.setBranch i f).graph.branches.length = b.graph.branches.length := List.length_modify ..
  refine ⟨fun j p hp => ?_, fun e he => ?_, fun s hsink => ?_, ?_, hs.ends, ?_, hs.edges, hs.sinks⟩
  · rw [hplaces] at hp ⊢
    exact hs.placed j p hp
  · rw [hlength]
    exact hs.joined e he
  · rw [hplaces]
    exact hs.hung s hsink
  · exact (map_modify_of fun br : Branch => congrArg Place.parentEdge (hf br)).trans hs.forks
  · rw [hlength]
    exact hs.branches

theorem at_setBranch {i n m : Nat} {f : Branch → Branch} (ha : At b n m) (hf : ∀ br, (f br).place = br.place)
    (ho : ∀ br, (f br).outline = br.outline) : At (b.setBranch i f) n m := by
  have houtlines : (b.setBranch i f).graph.outlines = b.graph.outlines := map_modify_of ho
  refine ⟨shape_setBranch ha.shape hf, ?_, ?_, ?_, ha.first⟩
  · exact (List.length_modify ..).symm ▸ ha.current
  · rw [houtlines]
    exact ha.described
  · rw [houtlines]
    exact ha.names

theorem at_stage {n m : Nat} {stage : Stage} (ha : At b n m) : At { b with stage } n m :=
  ⟨ha.shape, ha.current, ha.described, ha.names, ha.first⟩

theorem relabel_place {number : Nat} {guid : Guid} (br : Branch) :
    (Builder.relabel number guid br).place = br.place := rfl

theorem relabel_outline {number : Nat} {guid : Guid} (br : Branch) :
    (Builder.relabel number guid br).outline = br.outline := by
  unfold Branch.outline Builder.relabel
  rw [Option.map_map]
  refine Option.map_congr fun d _ => ?_
  unfold outlineOf
  dsimp only [Function.comp_apply]
  rw [List.map_map]
  congr 1
  refine List.map_congr_left fun p _ => ?_
  dsimp only [Function.comp_apply]
  split <;> rfl

theorem guid_ne_zero {route : Route} : (b.guid host route).isZero = false := by
  rw [Guid.isZero, Bool.eq_false_iff]
  intro hall
  rw [Vector.all_eq_true] at hall
  have hbyte := hall 6 (by decide)
  simp only [Builder.guid, Vector.getElem_ofFn, if_true, beq_iff_eq] at hbyte
  revert hbyte
  generalize (host.sha256 (b.seed.toList ++ BitVec.ofNat 8 route.depth :: route.ports.toList))[6] = byte
  revert byte
  decide

theorem parent_edge {br : Branch} {i index : Nat} (hs : Shape b.graph) (hbr : b.graph.branches[i]? = some br)
    (hp : br.parentEdge = some index) : ∃ e, b.graph.edges[index]? = some e := by
  have hmem : some index ∈ b.graph.branches.map (·.parentEdge) :=
    List.mem_map.mpr ⟨br, List.mem_of_getElem? hbr, hp⟩
  rw [hs.forks, List.mem_cons] at hmem
  rcases hmem with h | h
  · cases h
  · obtain ⟨j, hj, he⟩ := List.mem_map.mp h
    cases he
    obtain ⟨e, he, -⟩ := mem_indices hj
    exact ⟨e, he⟩

theorem outline_good {value : Wire.Branch} (hv : value.Named) (hz : value.guid.isZero = false) :
    (outlineOf value).Good where
  guid := hz
  fits := by
    rw [outlineOf, List.length_map]
    exact hv.fits
  number p hp := by
    obtain ⟨q, hq, rfl⟩ := List.mem_map.mp hp
    exact hv.number q hq
  nodup := by
    rw [outlineOf, List.map_map]
    exact hv.nodup

/-- The branch at hand reports its ports, under a GUID that none before it has. -/
theorem at_described {value : Wire.Branch} {f : Branch → Branch} (ha : At b b.branch 0) (hv : value.Named)
    (hz : value.guid.isZero = false)
    (hnew : ∀ i < b.branch, ∀ o, b.graph.outlines[i]? = some (some o) → o.guid ≠ value.guid)
    (hf : ∀ br, (f br).place = br.place) (ho : ∀ br, (f br).outline = some (outlineOf value)) :
    At (b.setBranch b.branch f) (b.branch + 1) 0 := by
  have hearlier (i : Nat) (hi : i < b.branch) :
      (b.setBranch b.branch f).graph.outlines[i]? = b.graph.outlines[i]? := by
    rw [outlines_setBranch, Graph.outlines, List.getElem?_map]
    exact Option.map_congr fun br _ => by rw [if_neg (by omega)]
  have hhere : (b.setBranch b.branch f).graph.outlines[b.branch]? = some (some (outlineOf value)) := by
    rw [outlines_setBranch, List.getElem?_eq_getElem ha.current, Option.map_some, if_pos rfl, ho]
  refine ⟨shape_setBranch ha.shape hf, (List.length_modify ..).symm ▸ ha.current, ⟨fun i hi => ?_, ?_⟩, ?_,
    ha.first⟩
  · rcases Nat.lt_succ_iff_lt_or_eq.mp hi with hlt | rfl
    · rw [hearlier i hlt]
      exact ha.described.good i hlt
    · exact ⟨_, hhere, outline_good hv hz⟩
  · have hother (i : Nat) (o : Outline) (hi : i < b.branch)
        (hio : (b.setBranch b.branch f).graph.outlines[i]? = some (some o)) :
        o.guid ≠ (outlineOf value).guid := hnew i hi o (by rw [← hearlier i hi]; exact hio)
    intro i j o o' hi hj hio hjo heq
    rcases Nat.lt_succ_iff_lt_or_eq.mp hi with hlt | rfl <;>
      rcases Nat.lt_succ_iff_lt_or_eq.mp hj with hlt' | rfl
    · rw [hearlier i hlt] at hio
      rw [hearlier j hlt'] at hjo
      exact ha.described.own i j o o' hlt hlt' hio hjo heq
    · rw [hhere] at hjo
      cases hjo
      exact absurd heq (hother i o hlt hio)
    · rw [hhere] at hio
      cases hio
      exact absurd heq.symm (hother j o' hlt' hjo)
    · rfl
  · show b.graph.edges.map Edge.name =
      before (b.setBranch b.branch f).graph.outlines b.branch ++ named (b.setBranch b.branch f).graph.outlines b.branch 0
    rw [before_congr hearlier, named_zero, ha.names, named_zero]

theorem acceptBranch_good {value : Wire.Branch} {serial : Nat} (ha : At b b.branch 0) (hp : b.port = 0)
    (hs : AllSettled host b) (hd : Dated last b.graph) (hv : value.Named)
    (hlimit : rank host { b with stage := .branch } ≤ limit) :
    Good (b.acceptBranch host value serial) (Next host said last limit) := by
  obtain ⟨current, hbr⟩ : ∃ br, b.graph.branches[b.branch]? = some br := ⟨_, List.getElem?_eq_getElem ha.current⟩
  have hrank : rank host { b with stage := .branch } =
      slack host b.branch 0 + if current.expectedGuid.isZero = false then 1 else 3 := by
    show slack host b.branch 0 + (if b.graph.branches[b.branch]?.any (!·.expectedGuid.isZero) then 1 else 3) = _
    rw [hbr, Option.any_some]
    simp
  rw [hrank] at hlimit
  unfold Builder.acceptBranch
  rw [hbr]
  dsimp only
  split
  · split
    · exact nofun
    rename_i hexpected
    rw [if_neg hexpected] at hlimit
    have hknown : (b.guid host current.route).isZero = false := guid_ne_zero
    generalize b.guid host current.route = made at hknown ⊢
    have hat : At (b.setBranch b.branch fun c => { c with expectedGuid := made }) b.branch 0 :=
      at_setBranch ha (fun _ => rfl) fun _ => rfl
    refine ⟨⟨at_stage hat, hp, hs, fun br hb => ?_⟩, ?_, hd⟩
    · have hget : (b.graph.branches.modify b.branch fun c => { c with expectedGuid := made })[b.branch]? =
          some br := hb
      rw [List.getElem?_modify, hbr] at hget
      simp only [if_true, Option.map_eq_map, Option.map_some, Option.some.injEq] at hget
      rw [← hget]
      exact hknown
    · show slack host b.branch 0 + 2 < limit
      omega
  rename_i hzero
  rw [Bool.not_eq_true] at hzero
  split
  · exact nofun
  split
  · rename_i hmissing
    obtain ⟨previous, hmem, hnone⟩ := List.any_eq_true.mp hmissing
    obtain ⟨i, hi⟩ := List.getElem?_of_mem hmem
    rw [List.getElem?_take] at hi
    split at hi
    · rename_i hlt
      obtain ⟨o, ho, -⟩ := ha.described.good i hlt
      obtain ⟨br, d, hbr', hdesc, -⟩ := outline_at ho
      rw [hi] at hbr'
      cases hbr'
      rw [hdesc] at hnone
      simp at hnone
    · cases hi
  split
  · exact nofun
  rename_i hrouting
  have hnew (i : Nat) (hi : i < b.branch) (o : Outline) (ho : b.graph.outlines[i]? = some (some o)) :
      o.guid ≠ value.guid := by
    obtain ⟨br, d, hbr', hdesc, rfl⟩ := outline_at ho
    intro heq
    refine hrouting (List.any_eq_true.mpr ⟨br, ?_, ?_⟩)
    · exact List.mem_of_getElem? (i := i) (by rw [List.getElem?_take, if_pos hi]; exact hbr')
    · rw [hdesc]
      exact decide_eq_true heq
  have hat := at_described (f := fun c => { c with expectedGuid := value.guid, descriptor := some value, receipt := serial })
    ha hv hzero hnew (fun _ => rfl) (fun _ => rfl)
  have hslack : slack host b.branch b.port < limit := by
    rw [hp]
    split at hlimit <;> omega
  cases hparent : current.parentEdge with
  | none =>
    dsimp only
    exact nextPort_good (hp ▸ hat) hs hd hslack
  | some index =>
    dsimp only
    obtain ⟨parent, he⟩ := parent_edge ha.shape hbr hparent
    rw [show (b.setBranch b.branch _).graph.edges = b.graph.edges from rfl, he]
    exact nextPort_good (at_setBranch (hp ▸ hat) relabel_place relabel_outline) hs hd hslack

end

end Capture
end Mst
end NvidiaGsp
