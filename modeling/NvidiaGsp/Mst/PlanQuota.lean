import NvidiaGsp.Mst.Removal

/-!
# Mst.PlanQuota

The bandwidth of the edges under a plan. A quota is what the capture says an edge may carry: free, or
owned by the captured streams, and never more than the link below (`Quota`). The planner charges
indices, the tables name edges by GUID, address and port; as no name is captured twice the two agree
(`pathIndices_mem`), so what a target charges to an edge stays within its quota (`plan_within`).
-/

namespace NvidiaGsp
namespace Mst
namespace Link

open Payload
open Registry (notSingleBit)

variable {links : Links} {epoch root : Nat} {link : Payload.Link} {graph : Graph} {captured : Table}

/-! ## What a table charges to an edge -/

/-- The edges a stream takes. -/
def edgesOf (e : Entry) : List PathEdge := e.path.toList.take e.pathCount

/-- The bandwidth of the streams that take an edge. -/
def charged (key : PathEdge) (es : List Entry) : Nat :=
  (es.map fun e => if key ∈ edgesOf e then e.allocation.demand.pbn else 0).sum

@[simp] theorem charged_nil (key : PathEdge) : charged key [] = 0 := rfl

@[simp] theorem charged_cons (key : PathEdge) (e : Entry) (es : List Entry) :
    charged key (e :: es) = (if key ∈ edgesOf e then e.allocation.demand.pbn else 0) + charged key es :=
  List.sum_cons

@[simp] theorem edgesOf_placed (e : Entry) (a : Allocation) : edgesOf (placed e a) = edgesOf e := rfl

theorem checkPath_nodup {seen es : List PathEdge} (h : checkPath seen es = .ok ()) :
    es.Nodup ∧ ∀ e ∈ es, e ∉ seen := by
  induction es generalizing seen with
  | nil => simp
  | cons x es ih =>
    unfold checkPath at h
    have h := ok_of_check h
    split at h
    · cases h
    rename_i hx
    obtain ⟨hnodup, hfresh⟩ := ih h
    refine ⟨List.nodup_cons.mpr ⟨fun hmem => hfresh x hmem List.mem_cons_self, hnodup⟩, ?_⟩
    intro e he
    rcases List.mem_cons.mp he with rfl | he
    · exact hx
    · exact fun hs => hfresh e he (List.mem_cons_of_mem _ hs)

theorem checkEntries_paths {t t' : Tally} {es : List Entry}
    (h : checkEntries links epoch root link t es = .ok t') : ∀ e ∈ es, (edgesOf e).Nodup := by
  induction es generalizing t with
  | nil => simp
  | cons x es ih =>
    obtain ⟨t₁, hx, hrest⟩ := checkEntries_cons h
    intro e he
    rcases List.mem_cons.mp he with rfl | he
    · exact (checkPath_nodup hx.path).1
    · exact ih hrest e he

/-- The captured streams own what they charge. -/
theorem owned_eq (h : validateTable links captured epoch root link = .ok ()) (key : PathEdge) :
    captured.owned key = charged key captured.used := by
  obtain ⟨-, t, ht, -⟩ := validateTable_ok h
  unfold Table.owned charged
  refine congrArg List.sum (List.map_congr_left fun e he => ?_)
  have hcount := (checkEntries_paths ht e he).count (a := key)
  rw [edgesOf] at hcount
  rw [hcount]
  unfold edgesOf
  split <;> simp

/-! ## Quotas -/

/-- What an edge may carry below its branch. -/
def limitOf (resources : PathResources) : Nat :=
  min resources.totalPbn (resources.downstreamPbn.getD resources.totalPbn)

/-- The name and the quota of edge `n`. -/
structure Quota (graph : Graph) (captured : Table) (n : Nat) (resources : PathResources)
    (edge : PathEdge × Path) : Prop where
  answered : (graph.edges n).resources = some resources
  key : PathEdge.capture graph n = .ok edge.1
  owned : edge.2.ownedPbn = captured.owned edge.1
  fits : captured.owned edge.1 ≤ limitOf resources ∧
    resources.freePbn + captured.owned edge.1 ≤ resources.totalPbn
  sum : edge.2.freePbn + edge.2.ownedPbn = min (limitOf resources) (resources.freePbn + captured.owned edge.1)

theorem captureEdge_ok {before : List (PathEdge × Path)} {n : Nat} {edge : PathEdge × Path}
    (h : captureEdge graph captured before n = .ok edge) :
    edge.1 ∉ before.map Prod.fst ∧ ∃ resources, Quota graph captured n resources edge := by
  unfold captureEdge at h
  split at h
  · cases h
  rename_i resources hresources
  split at h
  · cases h
  rename_i key hkey
  split at h
  · cases h
  rename_i hfresh
  dsimp only at h
  split at h
  · cases h
  rename_i howned
  split at h
  · cases h
  rename_i hlimit
  cases h
  simp only [not_or, not_lt] at howned hlimit
  refine ⟨hfresh, resources, hresources, hkey, rfl, ⟨hlimit, howned.2⟩, ?_⟩
  have hle : captured.owned key ≤ min (limitOf resources) (resources.freePbn + captured.owned key) :=
    Nat.le_min.mpr ⟨hlimit, Nat.le_add_left _ _⟩
  exact Nat.sub_add_cancel hle

/-- Every edge of the graph is captured, under a name of its own. -/
theorem captureEdges_ok {n : Nat} {edges : List (PathEdge × Path)}
    (h : captureEdges graph captured n = .ok edges) :
    edges.length = n ∧ (edges.map Prod.fst).Nodup ∧
      ∀ i < n, ∃ edge resources, edges[i]? = some edge ∧ Quota graph captured i resources edge := by
  induction n generalizing edges with
  | zero =>
    cases h
    exact ⟨rfl, List.nodup_nil, fun i hi => absurd hi (Nat.not_lt_zero i)⟩
  | succ n ih =>
    unfold captureEdges at h
    split at h
    · cases h
    rename_i before hbefore
    split at h
    · cases h
    rename_i edge hedge
    cases h
    obtain ⟨hlen, hnodup, hquota⟩ := ih hbefore
    obtain ⟨hfresh, resources, hq⟩ := captureEdge_ok hedge
    refine ⟨by simp [hlen], ?_, fun i hi => ?_⟩
    · rw [List.map_append, List.map_singleton, List.nodup_append]
      refine ⟨hnodup, List.nodup_singleton _, fun a ha b hb => ?_⟩
      rw [List.mem_singleton.mp hb]
      exact fun heq => hfresh (heq ▸ ha)
    · rcases Nat.lt_succ_iff_lt_or_eq.mp hi with hi | rfl
      · obtain ⟨edge', resources', hget, hq'⟩ := hquota i hi
        exact ⟨edge', resources', by rw [List.getElem?_append_left (by omega), hget], hq'⟩
      · exact ⟨edge, resources, by rw [List.getElem?_append_right (by omega), hlen]; simp, hq⟩

/-! ## Charging indices -/

/-- No edge is charged beyond its quota. -/
def Within (paths : List Path) (used : Nat → Nat) : Prop :=
  ∀ i path, paths[i]? = some path → used i ≤ path.freePbn + path.ownedPbn

theorem charge_ok {paths : List Path} {pbn : Nat} {seen is : List Nat} {used used' : Nat → Nat}
    (h : charge paths pbn seen used is = .ok used') :
    (is.Nodup ∧ ∀ i ∈ is, i ∉ seen) ∧ (∀ i, used' i = used i + if i ∈ is then pbn else 0) ∧
      (Within paths used → Within paths used') := by
  induction is generalizing seen used with
  | nil =>
    cases h
    simp
  | cons x is ih =>
    unfold charge at h
    split at h
    · cases h
    rename_i path hpath
    split at h
    · cases h
    rename_i hx
    split at h
    · cases h
    rename_i hroom
    obtain ⟨⟨hnodup, hfresh⟩, hused, hwithin⟩ := ih h
    have hnot : x ∉ is := fun hmem => hfresh x hmem List.mem_cons_self
    refine ⟨⟨List.nodup_cons.mpr ⟨hnot, hnodup⟩, ?_⟩, fun i => ?_, fun hw => hwithin ?_⟩
    · intro i hi
      rcases List.mem_cons.mp hi with rfl | hi
      · exact hx
      · exact fun hs => hfresh i hi (List.mem_cons_of_mem _ hs)
    · rw [hused i]
      by_cases hi : i = x
      · subst hi
        simp [hnot]
      · simp [hi]
    · intro i p hp
      by_cases hi : i = x
      · subst hi
        rw [Function.update_self]
        rw [hpath] at hp
        cases hp
        omega
      · rw [Function.update_of_ne hi]
        exact hw i p hp

/-- What an allotment charges. -/
theorem allot_used {paths : List Path} {s s' : Allotted} {w : Wanted}
    (h : allot links link paths s w = .ok s') :
    ∃ a, s'.allocations = s.allocations ++ [a] ∧
      (∀ i, s'.used i = s.used i + if i ∈ w.path then a.demand.pbn else 0) ∧
      (Within paths s.used → Within paths s'.used) := by
  have h := ok_of_check (ok_of_check h)
  split at h
  · cases h
  rename_i required hrequired
  have h := ok_of_check h
  split at h
  · cases h
  rename_i used hcharge
  cases h
  obtain ⟨-, hused, hwithin⟩ := charge_ok hcharge
  exact ⟨_, rfl, hused, hwithin⟩

/-! ## Names and indices -/

theorem pathIndices_mem {keys : List PathEdge} (hkeys : keys.Nodup) {path : List PathEdge}
    {indices : List Nat} (h : pathIndices keys path = .ok indices) {i : Nat} {key : PathEdge}
    (hi : keys[i]? = some key) : i ∈ indices ↔ key ∈ path := by
  induction path generalizing indices with
  | nil =>
    cases h
    simp
  | cons p path ih =>
    unfold pathIndices at h
    split at h
    · cases h
    rename_i index hlast
    split at h
    · cases h
    rename_i rest hrest
    cases h
    have hfound := List.mem_of_getLast? hlast
    simp only [List.mem_filter, List.mem_range, beq_iff_eq] at hfound
    have hhead : i = index ↔ key = p := by
      constructor
      · intro heq
        rw [heq, hfound.2] at hi
        exact (Option.some.inj hi).symm
      · intro heq
        obtain ⟨hlt, hget⟩ := List.getElem?_eq_some_iff.mp hi
        obtain ⟨hlt', hget'⟩ := List.getElem?_eq_some_iff.mp hfound.2
        exact (List.Nodup.getElem_inj_iff hkeys).mp (hget.trans (heq.trans hget'.symm))
    rw [List.mem_cons, List.mem_cons, hhead, ih hrest]

/-- The request names the edges of the stream. -/
def Routed (keys : List PathEdge) (e : Entry) (w : Wanted) : Prop :=
  pathIndices keys (edgesOf e) = .ok w.path

theorem request_routed {keys : List PathEdge} {e : Entry} {w : Wanted}
    (h : request graph keys e = .ok w) : Routed keys e w := by
  unfold request at h
  split at h
  · cases h
  split at h
  · cases h
  rename_i path hpath
  cases h
  exact hpath

theorem requests_routed {keys : List PathEdge} {es : List Entry} {before ws : List Wanted}
    (h : requests graph keys before es = .ok ws) :
    ∃ more, ws = before ++ more ∧ List.Forall₂ (Routed keys) es more := by
  induction es generalizing before with
  | nil =>
    cases h
    exact ⟨[], (List.append_nil _).symm, .nil⟩
  | cons e es ih =>
    unfold requests at h
    split at h
    · cases h
    rename_i w hw
    obtain ⟨more, rfl, hmore⟩ := ih (ok_of_check h)
    exact ⟨w :: more, List.append_assoc .., .cons (request_routed hw) hmore⟩

/-- The streams charge the edges they name. -/
theorem allotAll_charged {paths : List Path} {keys : List PathEdge} (hkeys : keys.Nodup)
    {es : List Entry} {ws : List Wanted} {s s' : Allotted} (hrouted : List.Forall₂ (Routed keys) es ws)
    (h : allotAll links link paths s ws = .ok s') :
    ∃ more, s'.allocations = s.allocations ++ more ∧
      (∀ i key, keys[i]? = some key →
        s'.used i = s.used i + charged key (List.zipWith placed es more)) ∧
      (Within paths s.used → Within paths s'.used) := by
  induction hrouted generalizing s with
  | nil =>
    cases h
    exact ⟨[], (List.append_nil _).symm, by simp, id⟩
  | @cons e w es ws hrouted _ ih =>
    obtain ⟨s₁, hs₁, hrest⟩ := allotAll_cons h
    obtain ⟨a, halloc, hused, hwithin⟩ := allot_used hs₁
    obtain ⟨more, hmore, hcharged, hwithin'⟩ := ih hrest
    refine ⟨a :: more, ?_, fun i key hi => ?_, fun hw => hwithin' (hwithin hw)⟩
    · rw [hmore, halloc, List.append_assoc]
      rfl
    · have hmem := pathIndices_mem hkeys hrouted hi
      rw [hcharged i key hi, hused i, List.zipWith_cons_cons, charged_cons, edgesOf_placed, Nat.add_assoc]
      simp only [hmem]
      rfl

/-! ## The parts of a plan -/

/-- What a plan went through. -/
structure Planned (links : Links) (graph : Graph) (state : State) (captured : Table) (link : Payload.Link)
    (replacement : Entry) (target : Budget) (edges : List (PathEdge × Path)) (wanted : List Wanted)
    (allotted : Allotted) : Prop where
  current : ¬ Outdated graph state link
  live : validateTable links state.table graph.epoch graph.root link = .ok ()
  owner : validateTable links captured graph.epoch graph.root link = .ok ()
  capture : captureEdges graph captured graph.edgeCount = .ok edges
  asked : requests graph (edges.map Prod.fst) [] (replaced state.table replacement) = .ok wanted
  plan : allotAll links link (edges.map Prod.snd) {} wanted = .ok allotted
  made : target = ⟨link, Table.ofList (List.zipWith placed (replaced state.table replacement)
    allotted.allocations) allotted.slots allotted.usedPbn⟩
  valid : validateTable links target.table graph.epoch graph.root link = .ok ()

theorem check_ok {c : Prop} [Decidable c] {e : Error} {u : Unit} (h : check c e = .ok u) : ¬ c := by
  unfold check at h
  split at h
  · cases h
  · assumption

theorem planInPlace_ok {state : State} {replacement : Entry} {target : Budget}
    (h : planInPlace links graph state captured link replacement = .ok target) :
    ∃ edges wanted allotted,
      Planned links graph state captured link replacement target edges wanted allotted := by
  unfold planInPlace at h
  obtain ⟨_, hcurrent, h⟩ := bind_ok h
  obtain ⟨⟨⟩, hstate, h⟩ := bind_ok h
  obtain ⟨⟨⟩, hcaptured, h⟩ := bind_ok h
  obtain ⟨edges, hedges, h⟩ := bind_ok h
  obtain ⟨-, -, h⟩ := bind_ok h
  obtain ⟨-, -, h⟩ := bind_ok h
  obtain ⟨wanted, hwanted, h⟩ := bind_ok h
  obtain ⟨allotted, hallotted, h⟩ := bind_ok h
  obtain ⟨⟨⟩, htable, h⟩ := bind_ok h
  have hall : allotAll links link (edges.map Prod.snd) {} wanted = .ok allotted := by
    unfold plan at hallotted
    split at hallotted
    · cases hallotted
    · exact ok_of_check (ok_of_check hallotted)
  cases h
  exact ⟨edges, wanted, allotted, check_ok hcurrent, hstate, hcaptured, hedges, hwanted, hall, rfl, htable⟩

/-- A target stays within the quota of every edge. -/
theorem plan_within {state : State} {replacement : Entry} {target : Budget}
    (h : planInPlace links graph state captured link replacement = .ok target) {n : Nat}
    (hn : n < graph.edgeCount) :
    ∃ key resources, PathEdge.capture graph n = .ok key ∧ (graph.edges n).resources = some resources ∧
      charged key target.table.used ≤
        min (limitOf resources) (resources.freePbn + charged key captured.used) := by
  obtain ⟨edges, wanted, allotted, hp⟩ := planInPlace_ok h
  obtain ⟨-, hkeys, hquota⟩ := captureEdges_ok hp.capture
  obtain ⟨⟨key, quota⟩, resources, hget, hq⟩ := hquota n hn
  obtain ⟨ws, hws, hrouted⟩ := requests_routed hp.asked
  rw [List.nil_append] at hws
  subst hws
  obtain ⟨more, hmore, hcharged, hwithin⟩ := allotAll_charged hkeys hrouted hp.plan
  have hmore : allotted.allocations = more := hmore
  have hlen := (validateTable_ok hp.valid).1
  have htable := hp.made
  subst htable
  have hused : (Table.ofList (List.zipWith placed (replaced state.table replacement)
      allotted.allocations) allotted.slots allotted.usedPbn).used = _ := used_ofList hlen _ _
  have hkey : (edges.map Prod.fst)[n]? = some key := by
    rw [List.getElem?_map, hget]
    rfl
  have hpath : (edges.map Prod.snd)[n]? = some quota := by
    rw [List.getElem?_map, hget]
    rfl
  have hsum := hcharged n key hkey
  have hle := hwithin (fun _ _ _ => Nat.zero_le _) n quota hpath
  refine ⟨key, resources, hq.key, hq.answered, ?_⟩
  dsimp only
  rw [hused, hmore, ← owned_eq hp.owner, ← hq.sum]
  have hzero : ({} : Allotted).used n = 0 := rfl
  rw [hzero, Nat.zero_add] at hsum
  rw [← hsum]
  exact hle

end Link
end Mst
end NvidiaGsp
