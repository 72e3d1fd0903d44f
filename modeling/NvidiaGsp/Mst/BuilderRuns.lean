import NvidiaGsp.Mst.BuilderAnswers

/-!
# Mst.BuilderRuns

Runs of a `Builder`: any calls of its owner, in any order, with replies that came over the wire. The
builder never trips over its own graph, it stops asking after a fixed number of requests, and a coherent
graph is all there is behind the root, as every branch reported it once more at the end (`builder_run`).
-/

namespace NvidiaGsp
namespace Mst
namespace Capture

open Wire (Reply emptyGuid)

section

variable {host : Host} {said said' : Wire.Branch → Nat → Prop} {b b' b₀ : Builder} {last limit : Nat}

/-! ## Requests -/

theorem toBranch_ok {i : Nat} {f : Branch → Option Wire.Request} {br : Branch} {request : Wire.Request}
    (hbr : b.graph.branches[i]? = some br) (hf : f br = some request) :
    b.toBranch i f = .ok (.sideband br.route request) := by
  unfold Builder.toBranch
  rw [hbr]
  dsimp only
  rw [hf]

theorem sinkEdge_ok (hs : Shape b.graph) (hlast : b.sink + 1 = b.graph.sinks.length) : ∃ e, b.sinkEdge = some e := by
  have hlt : b.sink < b.graph.sinks.length := by omega
  obtain ⟨e, p, he, -⟩ := hs.hung b.graph.sinks[b.sink] (List.getElem_mem hlt)
  exact ⟨e, by rw [Builder.sinkEdge, List.getElem?_eq_getElem hlt, Option.bind_some, he]⟩

theorem guidWrite_ok (ha : At b b.branch 0) : ∃ a, b.guidWrite = .ok a := by
  have hcurrent := ha.current
  have hbr := List.getElem?_eq_getElem hcurrent
  unfold Builder.guidWrite
  rw [hbr]
  dsimp only
  cases hparent : b.graph.branches[b.branch].parentEdge with
  | none => exact ⟨_, rfl⟩
  | some index =>
    obtain ⟨e, he⟩ := parent_edge ha.shape hbr hparent
    dsimp only
    rw [he]
    have hup := List.getElem?_eq_getElem (ha.shape.joined e (List.mem_of_getElem? he)).branch
    exact ⟨_, toBranch_ok hup rfl⟩

/-- While the builder is not done it has something to ask. -/
theorem action_ok (hp : Progress host said b) (hs : b.stage ≠ .complete) :
    ∃ a, b.action = .ok a ∧ ∀ guid, a = .rootAux guid → b.stage = .guidWrite := by
  have hto {i : Nat} {f : Branch → Option Wire.Request} {br : Branch} {request : Wire.Request}
      (hbr : b.graph.branches[i]? = some br) (hf : f br = some request) :
      ∃ a, b.toBranch i f = .ok a ∧ ∀ guid, a = .rootAux guid → b.stage = .guidWrite :=
    ⟨_, toBranch_ok hbr hf, nofun⟩
  unfold Progress at hp
  unfold Builder.action
  cases hstage : b.stage <;> rw [hstage] at hp <;> dsimp only at hp ⊢
  case branch => exact hstage ▸ hto (List.getElem?_eq_getElem hp.1.current) rfl
  case guidWrite =>
    obtain ⟨a, ha⟩ := guidWrite_ok hp.1
    exact ⟨a, ha, fun _ _ => rfl⟩
  case resources =>
    obtain ⟨ha, -, o, number, ho, hnumber⟩ := hp
    obtain ⟨br, d, hbr, hdesc, rfl⟩ := outline_at ho
    rw [outline_port] at hnumber
    obtain ⟨port, hport, -⟩ := Option.map_eq_some_iff.mp hnumber
    exact hstage ▸ hto hbr (by rw [hdesc, Option.bind_some, hport, Option.map_some])
  case caps =>
    obtain ⟨e, he⟩ := sinkEdge_ok hp.1.here.shape hp.1.last
    exact hstage ▸ hto (List.getElem?_eq_getElem hp.1.here.current) (by rw [he, Option.map_some])
  case edid =>
    obtain ⟨e, he⟩ := sinkEdge_ok hp.here.shape hp.last
    exact hstage ▸ hto (List.getElem?_eq_getElem hp.here.current) (by rw [he, Option.map_some])
  case edidVerify =>
    obtain ⟨ha, -, hlast, -⟩ := hp
    obtain ⟨e, he⟩ := sinkEdge_ok ha.shape hlast
    exact hstage ▸ hto (List.getElem?_eq_getElem ha.current) (by rw [he, Option.map_some])
  case verify => exact hstage ▸ hto (List.getElem?_eq_getElem hp.2.1) rfl
  case complete => exact absurd hstage hs

theorem rank_pos (hp : Progress host said b) (hs : b.stage ≠ .complete) : 0 < rank host b := by
  have hslack (branch port : Nat) : 0 < slack host branch port := Nat.lt_of_lt_of_le (by decide) (Nat.le_add_left 8 _)
  unfold Progress at hp
  unfold rank
  cases hstage : b.stage <;> rw [hstage] at hp <;> dsimp only at hp ⊢
  case verify =>
    have hlt := hp.2.1
    omega
  case complete => exact absurd hstage hs
  case resources => exact hslack _ _
  all_goals
    have hpos := hslack b.branch 0
    have hpos' := hslack b.branch (b.port + 1)
    omega

/-! ## Answers -/

theorem answered_good {request : Wire.Request} {reply : Reply} {serial before : Nat} (hblocks : 0 < host.maxBlocks)
    (hp : Progress host said b) (hd : Dated before b.graph) (hserial : before < serial) (hsound : reply.Sound)
    (hsaid : ∀ d, reply = .branch d → said d serial) :
    Good (b.answered host request reply serial) (Next host said serial (rank host b)) := by
  have hd' : Dated serial b.graph :=
    ⟨fun e he => Nat.le_trans (hd.1 e he) hserial.le, fun s hs => Nat.le_trans (hd.2 s hs) hserial.le⟩
  unfold Progress at hp
  unfold rank
  cases hstage : b.stage <;> rw [hstage] at hp <;> dsimp only at hp ⊢
  case branch =>
    cases reply with
    -- a refusal that names another request stops the capture
    | nack op guid reason data =>
      unfold Builder.answered
      rw [hstage]
      dsimp only
      split
      · exact fun h => by cases h
      · exact fun h => by cases h
    | branch value =>
      unfold Builder.answered
      rw [hstage]
      refine acceptBranch_good hp.1 hp.2.1 hp.2.2 hd' hsound (Nat.le_of_eq ?_)
      rfl
    | _ =>
      unfold Builder.answered
      rw [hstage]
      exact fun h => by cases h
  case guidWrite =>
    obtain ⟨ha, hport, hs, hknown⟩ := hp
    cases reply with
    | nack op guid reason data =>
      unfold Builder.answered
      rw [hstage]
      dsimp only
      split
      · exact fun h => by cases h
      · exact fun h => by cases h
    | ack op =>
      unfold Builder.answered
      rw [hstage]
      cases op with
      | dpcdWrite =>
        refine ⟨⟨at_stage ha, hport, hs⟩, ?_, hd'⟩
        show slack host b.branch 0 + (if b.graph.branches[b.branch]?.any (!·.expectedGuid.isZero) then 1 else 3) < _
        have hbr := List.getElem?_eq_getElem ha.current
        rw [if_pos (by rw [hbr, Option.any_some, hknown _ hbr]; rfl)]
        omega
      | _ => exact fun h => by cases h
    | _ =>
      unfold Builder.answered
      rw [hstage]
      exact fun h => by cases h
  case resources =>
    obtain ⟨ha, hs, hu⟩ := hp
    cases reply with
    | nack op guid reason data =>
      unfold Builder.answered
      rw [hstage]
      dsimp only
      split
      · exact fun h => by cases h
      · exact (acceptResources_good hblocks ha hs hu hd' (fun _ h => by cases h) (Nat.le_refl _) (Nat.le_refl _))
    | path value =>
      unfold Builder.answered
      rw [hstage]
      refine acceptResources_good hblocks ha hs hu hd' (fun p h => ?_) (Nat.le_refl _) (Nat.le_refl _)
      cases h
      exact hsound
    | _ =>
      unfold Builder.answered
      rw [hstage]
      exact fun h => by cases h
  case caps =>
    obtain ⟨hr, hblock⟩ := hp
    have hlast : b.sink < b.graph.sinks.length := by
      have h := hr.last
      omega
    obtain ⟨sink, hget⟩ : ∃ s, b.graph.sinks[b.sink]? = some s := ⟨_, List.getElem?_eq_getElem hlast⟩
    have hrank : slack host b.branch (b.port + 1) + (host.maxBlocks + 2 - b.block) <
        slack host b.branch (b.port + 1) + host.maxBlocks + 3 := by omega
    cases reply with
    | nack op guid reason data =>
      unfold Builder.answered
      rw [hstage]
      dsimp only
      split
      · exact fun h => by cases h
      · exact ⟨hr.stage .edid, hrank, hd'⟩
    | data port bytes =>
      unfold Builder.answered
      rw [hstage]
      dsimp only
      split
      · exact fun h => by cases h
      · exact ⟨reading_setSink hr hget (fun _ => rfl) (fun _ => rfl) (hr.read sink hget) hr.block hr.blocks, hrank,
          dated_setSink hd' fun _ hs => hs⟩
    | _ =>
      unfold Builder.answered
      rw [hstage]
      exact fun h => by cases h
  case edid =>
    have hgood : Good (b.acceptEdid host request reply serial) (Next host said serial _) :=
      acceptEdid_good hd' (Nat.le_refl serial) (.inl ⟨hstage, hp, Nat.le_refl _⟩)
    cases reply with
    | nack op guid reason data =>
      unfold Builder.answered
      rw [hstage]
      dsimp only
      split
      · exact fun h => by cases h
      · exact hgood
    | _ =>
      unfold Builder.answered
      rw [hstage]
      exact hgood
  case edidVerify =>
    obtain ⟨ha, -, hlast, hs⟩ := hp
    have hgood : Good (b.acceptEdid host request reply serial) (Next host said serial _) :=
      acceptEdid_good hd' (Nat.le_refl serial) (.inr ⟨hstage, ha, hlast, hs, Nat.lt_succ_self _⟩)
    cases reply with
    | nack op guid reason data =>
      unfold Builder.answered
      rw [hstage]
      dsimp only
      split
      · exact fun h => by cases h
      · exact hgood
    | _ =>
      unfold Builder.answered
      rw [hstage]
      exact hgood
  case verify =>
    have hgood : Good (b.acceptVerify reply serial) (Next host said serial _) :=
      acceptVerify_good hstage hp.1 hp.2.1 hp.2.2 hd hserial (Nat.le_refl serial) hsaid (Nat.le_refl _)
    cases reply with
    | nack op guid reason data =>
      unfold Builder.answered
      rw [hstage]
      dsimp only
      split
      · exact fun h => by cases h
      · exact hgood
    | _ =>
      unfold Builder.answered
      rw [hstage]
      exact hgood
  case complete =>
    cases reply with
    | nack op guid reason data =>
      unfold Builder.answered
      rw [hstage]
      dsimp only
      split
      · exact fun h => by cases h
      · exact fun h => by cases h
    | _ =>
      unfold Builder.answered
      rw [hstage]
      exact fun h => by cases h

theorem accept_good {generation serial now before : Nat} {observed : Observation} (hblocks : 0 < host.maxBlocks)
    (hp : Progress host said b) (hs : b.stage ≠ .complete) (hd : Dated before b.graph) (hserial : before < serial)
    (hsound : ∀ reply, observed = .sideband reply → reply.Sound)
    (hsaid : ∀ d, observed = .sideband (.branch d) → said d serial) :
    Good (b.accept host generation observed serial now) (Next host said serial (rank host b)) := by
  obtain ⟨a, ha, hroot⟩ := action_ok hp hs
  unfold Builder.accept
  cases hguard : b.guard generation now with
  | error e =>
    unfold Builder.guard at hguard
    dsimp only
    split at hguard
    · cases hguard
      exact nofun
    split at hguard <;> cases hguard
    exact nofun
  | ok u =>
    rw [ha]
    dsimp only
    cases a with
    | rootAux guid =>
      have hstage := hroot guid rfl
      unfold Progress at hp
      rw [hstage] at hp
      obtain ⟨hat, hport, hall, hknown⟩ := hp
      cases observed with
      | sideband reply => exact nofun
      | rootAux status ack count =>
        dsimp only
        split
        · exact nofun
        refine ⟨⟨at_stage hat, hport, hall⟩, ?_, fun e he => Nat.le_trans (hd.1 e he) hserial.le,
          fun s hs => Nat.le_trans (hd.2 s hs) hserial.le⟩
        unfold rank
        rw [hstage]
        dsimp only
        have hbr := List.getElem?_eq_getElem hat.current
        rw [if_pos (by rw [hbr, Option.any_some, hknown _ hbr]; rfl)]
        omega
    | sideband route request =>
      cases observed with
      | rootAux status ack count => exact nofun
      | sideband reply =>
        exact answered_good hblocks hp hd hserial (hsound reply rfl) fun d hd => hsaid d (by rw [hd])

/-! ## What an answer leaves alone -/

/-- All that an answer does not touch, but for `coherent`. -/
def Builder.core (b : Builder) :=
  (b.epoch, b.generation, b.root, b.graph.epoch, b.graph.generation, b.graph.root, b.pending, b.lastReceipt, b.failure)

def Builder.frame (b : Builder) := (b.core, b.graph.coherent)

theorem nextPort_frame : b.nextPort.2.frame = b.frame := by
  unfold Builder.nextPort
  split
  · rfl
  split
  · rfl
  split <;> rfl

theorem acceptBranch_frame {value : Wire.Branch} {serial : Nat} :
    (b.acceptBranch host value serial).2.frame = b.frame := by
  unfold Builder.acceptBranch
  split
  · rfl
  split
  · split <;> rfl
  split
  · rfl
  split
  · rfl
  split
  · rfl
  dsimp only
  split
  · exact nextPort_frame
  split
  · rfl
  · exact nextPort_frame

theorem acceptResources_frame {value : Option Wire.Path} {serial : Nat} :
    (b.acceptResources value serial).2.frame = b.frame := by
  unfold Builder.acceptResources
  split
  · rfl
  split
  · rfl
  split
  · rfl
  split
  · rfl
  dsimp only
  split
  · exact nextPort_frame
  split
  · rfl
  split
  · split
    · rfl
    split
    · rfl
    · exact nextPort_frame
  split
  · split <;> rfl
  · exact nextPort_frame

theorem acceptBlock_frame {sink : Sink} {data : Option (List Byte)} :
    (b.acceptBlock host sink data).2.frame = b.frame := by
  unfold Builder.acceptBlock
  split
  · split
    · exact nextPort_frame
    · rfl
  dsimp only
  split
  · split
    · exact nextPort_frame
    split
    · exact nextPort_frame
    · rfl
  split <;> rfl

theorem acceptEdid_frame {request : Wire.Request} {reply : Reply} {serial : Nat} :
    (b.acceptEdid host request reply serial).2.frame = b.frame := by
  unfold Builder.acceptEdid
  dsimp only
  split
  · rfl
  split
  · split
    · rfl
    · exact acceptBlock_frame
  · split
    · rfl
    split
    · split
      · rfl
      · exact nextPort_frame
    · exact acceptBlock_frame
  · rfl

theorem acceptVerify_core {reply : Reply} {serial : Nat} : (b.acceptVerify reply serial).2.core = b.core := by
  unfold Builder.acceptVerify
  split
  · rfl
  split
  · rfl
  dsimp only
  split <;> rfl

/-- The graph turns coherent only when the last branch was asked again. -/
theorem acceptVerify_coherent {reply : Reply} {serial : Nat} (hc : b.graph.coherent = false)
    (h : (b.acceptVerify reply serial).2.graph.coherent = true) :
    (b.acceptVerify reply serial).2.stage = .complete ∧
      (b.acceptVerify reply serial).2.graph.completionReceipt = serial := by
  revert h
  unfold Builder.acceptVerify
  split
  · intro h
    exact absurd (hc.symm.trans h) nofun
  split
  · intro h
    exact absurd (hc.symm.trans h) nofun
  dsimp only
  split
  · exact fun _ => ⟨rfl, rfl⟩
  · intro h
    exact absurd (hc.symm.trans h) nofun

/-- What an answer leaves alone. -/
structure Kept (serial : Nat) (b b' : Builder) : Prop where
  core : b'.core = b.core
  coherent : b.graph.coherent = false → b'.graph.coherent = true →
    b'.stage = .complete ∧ b'.graph.completionReceipt = serial

theorem kept_of_frame {serial : Nat} (h : b'.frame = b.frame) : Kept serial b b' where
  core := congrArg Prod.fst h
  coherent hc hc' := by
    have hsame : b'.graph.coherent = b.graph.coherent := congrArg Prod.snd h
    rw [hsame, hc] at hc'
    cases hc'

theorem answered_kept {request : Wire.Request} {reply : Reply} {serial : Nat} :
    Kept serial b (b.answered host request reply serial).2 := by
  unfold Builder.answered
  split
  · split
    · exact kept_of_frame rfl
    split
    · exact kept_of_frame acceptResources_frame
    · exact kept_of_frame rfl
    · exact kept_of_frame acceptEdid_frame
    · exact kept_of_frame acceptEdid_frame
    · exact ⟨acceptVerify_core, acceptVerify_coherent⟩
    all_goals exact kept_of_frame rfl
  · split
    · exact kept_of_frame acceptBranch_frame
    · exact kept_of_frame rfl
    · exact kept_of_frame rfl
    · exact kept_of_frame rfl
    · exact kept_of_frame acceptResources_frame
    · exact kept_of_frame rfl
    · split <;> exact kept_of_frame rfl
    · exact kept_of_frame rfl
    · exact kept_of_frame acceptEdid_frame
    · exact kept_of_frame acceptEdid_frame
    · exact ⟨acceptVerify_core, acceptVerify_coherent⟩
    all_goals exact kept_of_frame rfl

theorem accept_kept {generation serial now : Nat} {observed : Observation} :
    Kept serial b (b.accept host generation observed serial now).2 := by
  unfold Builder.accept
  split
  · exact kept_of_frame rfl
  split
  · exact kept_of_frame rfl
  · split <;> exact kept_of_frame rfl
  · exact kept_of_frame rfl
  · exact kept_of_frame rfl
  · exact answered_kept

end

/-! ## Runs -/

abbrev History := List (Event Builder Call Outcome)

/-- The reply of a consumed answer came over the wire. -/
def Call.Read : Call → Prop
  | .consume _ (.sideband reply) _ _ => ∃ request bytes, Wire.reply request bytes = .ok reply
  | _ => True

/-- A branch reported `d` at receipt `n`, and the builder took it. -/
def Said (h : History) (d : Wire.Branch) (n : Nat) : Prop :=
  ∃ e ∈ h, e.out = .done ∧ ∃ generation now, e.op = .consume generation (.sideband (.branch d)) n now

def Outcome.asks : Outcome → Bool
  | .action (some _) => true
  | _ => false

/-- The requests of a run. -/
def requests (h : History) : Nat := h.countP (·.out.asks)

/-- The requests of a run at most. -/
def Host.total (host : Host) : Nat := slack host 0 0 + 3

/-- The builder has not failed and was not called off. -/
def Builder.Live (b : Builder) : Prop := b.failure = none ∧ b.stage ≠ .cancelled

instance (b : Builder) : Decidable b.Live := inferInstanceAs (Decidable (_ ∧ _))

/-- What is left to ask, with the answer that is due. -/
def left (host : Host) (b : Builder) : Nat := if b.Live then rank host b else 0

structure Inv (host : Host) (h : History) (b : Builder) : Prop where
  same : b.graph.epoch = b.epoch ∧ b.graph.generation = b.generation ∧ b.graph.root = b.root
  named : b.epoch ≠ 0 ∧ b.generation ≠ 0 ∧ b.root ≠ 0 ∧ b.root &&& (b.root - 1) = 0
  coherent : b.graph.coherent = true → b.Live ∧ b.stage = .complete ∧ b.graph.completionReceipt ≠ 0
  live : b.Live → Progress host (Said h) b ∧ Dated b.lastReceipt b.graph
  asked : b.pending = true → b.Live → b.stage ≠ .complete
  bound : requests h + left host b ≤ host.total + if b.pending = true ∧ b.Live then 1 else 0
  sound : ∀ e ∈ h, e.out ≠ .error .Unreachable

section

variable {host : Host} {h : History} {b b' b₀ : Builder}

theorem Said.snoc {e : Event Builder Call Outcome} {d : Wire.Branch} {n : Nat} (hs : Said h d n) :
    Said (h ++ [e]) d n := by
  obtain ⟨a, ha, hrest⟩ := hs
  exact ⟨a, List.mem_append_left _ ha, hrest⟩

theorem Progress.mono {said said' : Wire.Branch → Nat → Prop} (hp : Progress host said b)
    (hsaid : ∀ d n, said d n → said' d n) : Progress host said' b := by
  have hv {br : Branch} (hv : Verified said b br) : Verified said' b br := by
    obtain ⟨⟨d, hd, hs⟩, hedges, hsinks⟩ := hv
    exact ⟨⟨d, hd, hsaid d _ hs⟩, hedges, hsinks⟩
  unfold Progress at hp ⊢
  cases hstage : b.stage <;> rw [hstage] at hp <;> dsimp only at hp ⊢
  case verify => exact ⟨hp.1, hp.2.1, fun i hi br hbr => hv (hp.2.2 i hi br hbr)⟩
  case complete => exact ⟨hp.1, fun br hbr => hv (hp.2 br hbr)⟩
  all_goals exact hp

/-- The same builder, but for what is due and for the last receipt. -/
theorem Progress.receipt {said : Wire.Branch → Nat → Prop} {pending : Bool} {lastReceipt : Nat}
    (hp : Progress host said b) : Progress host said { b with pending, lastReceipt } := by
  have hat {b : Builder} {n m : Nat} (ha : At b n m) : At { b with pending, lastReceipt } n m :=
    ⟨ha.shape, ha.current, ha.described, ha.names, ha.first⟩
  have hreading {b : Builder} (hr : Reading host b) : Reading host { b with pending, lastReceipt } :=
    ⟨hat hr.here, hr.port, hr.last, hr.settled, hr.block, hr.blocks, hr.read⟩
  have hwhole {b : Builder} (hw : Whole host b) : Whole host { b with pending, lastReceipt } :=
    ⟨hw.shape, hw.described, hw.names, hw.settled⟩
  have hv {b : Builder} {br : Branch} (hv : Verified said b br) : Verified said { b with pending, lastReceipt } br :=
    ⟨hv.again, hv.edges, hv.sinks⟩
  obtain ⟨graph, epoch, generation, root, seed, deadline, stage, branch, port, verifyBranch, sink, block, blocks, p, l,
    failure⟩ := b
  cases stage with
  | branch => exact ⟨hat hp.1, hp.2⟩
  | guidWrite => exact ⟨hat hp.1, hp.2⟩
  | resources => exact ⟨hat hp.1, hp.2⟩
  | caps => exact ⟨hreading hp.1, hp.2⟩
  | edid => exact hreading (show Reading host ⟨graph, epoch, generation, root, seed, deadline, .edid, branch, port,
      verifyBranch, sink, block, blocks, p, l, failure⟩ from hp)
  | edidVerify => exact ⟨hat hp.1, hp.2⟩
  | verify => exact ⟨hwhole hp.1, hp.2.1, fun i hi br hbr => hv (hp.2.2 i hi br hbr)⟩
  | complete => exact ⟨hwhole hp.1, fun br hbr => hv (hp.2 br hbr)⟩
  | cancelled => exact hp

theorem requests_snoc {e : Event Builder Call Outcome} :
    requests (h ++ [e]) = requests h + if e.out.asks = true then 1 else 0 := by
  rw [requests, requests, List.countP_append, List.countP_singleton]

theorem left_le (hi : Inv host h b) (hopen : b.pending = true → b.Live → 0 < rank host b) :
    requests h ≤ host.total := by
  have hbound := hi.bound
  by_cases hlive : b.Live
  · rw [left, if_pos hlive] at hbound
    by_cases hpending : b.pending = true
    · rw [if_pos ⟨hpending, hlive⟩] at hbound
      have hpos := hopen hpending hlive
      omega
    · rw [if_neg fun h => hpending h.1] at hbound
      omega
  · rw [left, if_neg hlive, if_neg fun h => hlive h.2] at hbound
    omega

/-- A step after which nothing is asked any more. -/
theorem inv_dead (hi : Inv host h b) {e : Event Builder Call Outcome} (hcore : b'.epoch = b.epoch ∧
      b'.generation = b.generation ∧ b'.root = b.root ∧ b'.graph.epoch = b.graph.epoch ∧
      b'.graph.generation = b.graph.generation ∧ b'.graph.root = b.graph.root)
    (hdead : ¬b'.Live) (hc : b'.graph.coherent = false) (hout : e.out ≠ .error .Unreachable)
    (hasks : e.out.asks = false) : Inv host (h ++ [e]) b' := by
  obtain ⟨he, hg, hr, hge, hgg, hgr⟩ := hcore
  refine ⟨?_, ?_, fun hc' => ?_, fun hl => absurd hl hdead, fun _ hl => absurd hl hdead, ?_, fun a ha => ?_⟩
  · rw [he, hg, hr, hge, hgg, hgr]
    exact hi.same
  · rw [he, hg, hr]
    exact hi.named
  · rw [hc] at hc'
    cases hc'
  · rw [requests_snoc, hasks, left, if_neg hdead]
    have hle := left_le hi fun hp hl => rank_pos (hi.live hl).1 (hi.asked hp hl)
    simp only [Bool.false_eq_true, if_false]
    omega
  · rcases List.mem_append.mp ha with ha | ha
    · exact hi.sound a ha
    · rw [List.mem_singleton.mp ha]
      exact hout

/-- A step that changes nothing. -/
theorem inv_still (hi : Inv host h b) {e : Event Builder Call Outcome} (hout : e.out ≠ .error .Unreachable)
    (hasks : e.out.asks = false) : Inv host (h ++ [e]) b := by
  refine ⟨hi.same, hi.named, hi.coherent, fun hl => ⟨(hi.live hl).1.mono fun _ _ => Said.snoc, (hi.live hl).2⟩,
    hi.asked, ?_, fun a ha => ?_⟩
  · rw [requests_snoc, hasks]
    exact hi.bound
  · rcases List.mem_append.mp ha with ha | ha
    · exact hi.sound a ha
    · rw [List.mem_singleton.mp ha]
      exact hout

theorem guard_error {generation now : Nat} {e : Error} (h : b.guard generation now = .error e) :
    e = .Stale ∨ e = .Deadline := by
  unfold Builder.guard at h
  split at h
  · cases h
    exact .inl rfl
  split at h <;> cases h
  exact .inr rfl

theorem guard_live {generation now : Nat} (h : b.guard generation now = .ok ()) : b.Live := by
  unfold Builder.guard at h
  split at h
  · cases h
  rename_i hbad
  simp only [not_or, not_not] at hbad
  exact ⟨hbad.1, hbad.2.1⟩

theorem prepare_inv {generation now : Nat} {out : Outcome} (hi : Inv host h b)
    (hs : b.step host (.prepare generation now) = (out, b')) :
    Inv host (h ++ [⟨b, .prepare generation now, out, b'⟩]) b' := by
  unfold Builder.step Builder.prepare at hs
  dsimp only at hs
  cases hguard : b.guard generation now with
  | error e =>
    rw [hguard] at hs
    cases hs
    refine inv_still hi ?_ rfl
    rcases guard_error hguard with rfl | rfl <;> nofun
  | ok u =>
    have hlive := guard_live hguard
    rw [hguard] at hs
    dsimp only at hs
    by_cases hpending : b.pending = true
    · rw [if_pos hpending] at hs
      cases hs
      exact inv_still hi nofun rfl
    rw [if_neg hpending] at hs
    by_cases hcomplete : b.stage = .complete
    · rw [if_pos hcomplete] at hs
      cases hs
      exact inv_still hi nofun rfl
    rw [if_neg hcomplete] at hs
    obtain ⟨hp, hd⟩ := hi.live hlive
    obtain ⟨a, ha, -⟩ := action_ok hp hcomplete
    rw [ha] at hs
    cases hs
    have hprogress : Progress host (Said h) { b with pending := true } :=
      hp.receipt
    refine ⟨hi.same, hi.named, hi.coherent, fun hl => ⟨hprogress.mono fun _ _ => Said.snoc, hd⟩,
      fun _ _ => hcomplete, ?_, fun e he => ?_⟩
    · have hbound := hi.bound
      rw [left, if_pos hlive, if_neg (fun hp => hpending hp.1)] at hbound
      have hlive' : Builder.Live { b with pending := true } := hlive
      have hasks : Outcome.asks (.action (some a)) = true := rfl
      rw [requests_snoc, left, if_pos hasks, if_pos hlive', if_pos ⟨rfl, hlive'⟩]
      show requests h + 1 + rank host b ≤ _
      omega
    · rcases List.mem_append.mp he with he | he
      · exact hi.sound e he
      · rw [List.mem_singleton.mp he]
        nofun

theorem consume_inv {generation serial now : Nat} {observed : Observation} {out : Outcome}
    (hblocks : 0 < host.maxBlocks) (hi : Inv host h b) (hread : (Call.consume generation observed serial now).Read)
    (hs : b.step host (.consume generation observed serial now) = (out, b')) :
    Inv host (h ++ [⟨b, .consume generation observed serial now, out, b'⟩]) b' := by
  unfold Builder.step Builder.consume at hs
  dsimp only at hs
  by_cases hstale : b.pending = false ∨ serial ≤ b.lastReceipt
  · rw [if_pos hstale] at hs
    cases hs
    exact inv_still hi nofun rfl
  rw [if_neg hstale] at hs
  simp only [not_or, Bool.not_eq_false, Nat.not_le] at hstale
  obtain ⟨hpending, hserial⟩ := hstale
  by_cases hold : b.stage = .cancelled ∨ generation ≠ b.generation
  · rw [if_pos hold] at hs
    cases hs
    exact inv_dead hi ⟨rfl, rfl, rfl, rfl, rfl, rfl⟩ (fun hl => hl.2 rfl) rfl nofun rfl
  rw [if_neg hold] at hs
  by_cases hlive : b.Live
  · obtain ⟨hp, hd⟩ := hi.live hlive
    have hopen := hi.asked hpending hlive
    -- The answer is part of what the branches said.
    have hgood : Good (Builder.accept host { b with pending := false, lastReceipt := serial } generation observed
        serial now) (Next host (fun d n => Said h d n ∨ (observed = .sideband (.branch d) ∧ n = serial)) serial
        (rank host b)) := by
      refine accept_good hblocks (hp.receipt.mono fun d n h => .inl h) hopen hd hserial (fun reply he => ?_)
        fun d he => .inr ⟨he, rfl⟩
      subst he
      obtain ⟨request, bytes, hreply⟩ := hread
      exact Wire.reply_sound hreply
    have hkept : Kept serial { b with pending := false, lastReceipt := serial } (Builder.accept host
        { b with pending := false, lastReceipt := serial } generation observed serial now).2 := accept_kept
    cases haccept : Builder.accept host { b with pending := false, lastReceipt := serial } generation observed serial
        now with
    | mk result after =>
      rw [haccept] at hs hgood hkept
      obtain ⟨hcore, hcoherent⟩ := hkept
      simp only [Builder.core, Prod.mk.injEq] at hcore
      obtain ⟨he, hg, hr, hge, hgg, hgr, hpend, hlast, hfail⟩ := hcore
      cases result with
      | error e =>
        cases hs
        refine inv_dead hi ⟨he, hg, hr, hge, hgg, hgr⟩ (fun hl => ?_) rfl (fun h => ?_) rfl
        · exact absurd hl.1 nofun
        · cases h
          exact hgood rfl
      | ok u =>
        cases hs
        obtain ⟨hprogress, hrank, hdated⟩ := hgood
        have hlive' : b'.Live := ⟨hfail.trans hlive.1, fun hc => by
          unfold Progress at hprogress
          rw [hc] at hprogress
          exact hprogress⟩
        have hincoherent : b.graph.coherent = false := by
          by_contra hne
          exact hopen (hi.coherent (Bool.not_eq_false _ ▸ hne)).2.1
        refine ⟨?_, ?_, fun hc => ?_, fun _ => ⟨hprogress.mono fun d n hsaid => ?_, ?_⟩, fun hc => ?_, ?_, fun a ha => ?_⟩
        · rw [he, hg, hr, hge, hgg, hgr]
          exact hi.same
        · rw [he, hg, hr]
          exact hi.named
        · obtain ⟨hstage, hreceipt⟩ := hcoherent hincoherent hc
          exact ⟨hlive', hstage, by rw [hreceipt]; omega⟩
        · rcases hsaid with hsaid | ⟨rfl, rfl⟩
          · exact hsaid.snoc
          · exact ⟨_, List.mem_append_right _ (List.mem_singleton.mpr rfl), rfl, generation, now, rfl⟩
        · rw [hlast]
          exact hdated
        · rw [hpend] at hc
          cases hc
        · have hbound := hi.bound
          rw [left, if_pos hlive, if_pos ⟨hpending, hlive⟩] at hbound
          have hasks : ¬Outcome.asks .done = true := nofun
          have hdue : ¬(b'.pending = true ∧ b'.Live) := fun hc => by
            rw [hpend] at hc
            cases hc.1
          rw [requests_snoc, left, if_neg hasks, if_pos hlive', if_neg hdue]
          show requests h + 0 + rank host b' ≤ _
          omega
        · rcases List.mem_append.mp ha with ha | ha
          · exact hi.sound a ha
          · rw [List.mem_singleton.mp ha]
            nofun
  · -- A builder that failed refuses the answer.
    have hfailed : b.failure ≠ none := fun hf => hlive ⟨hf, fun hc => hold (.inl hc)⟩
    have haccept : Builder.accept host { b with pending := false, lastReceipt := serial } generation observed serial now =
        Builder.fail { b with pending := false, lastReceipt := serial } .Stale := by
      unfold Builder.accept Builder.guard
      rw [if_pos (.inl hfailed)]
    rw [haccept] at hs
    cases hs
    refine inv_dead hi ⟨rfl, rfl, rfl, rfl, rfl, rfl⟩ (fun hl => absurd hl.1 nofun) rfl nofun rfl

theorem placed_root : Placed [⟨{}, [], none⟩] [] 0 ⟨{}, [], none⟩ :=
  ⟨Route.valid_root, rfl, Nat.le_refl _, fun _ => rfl, fun _ h => by cases h⟩

theorem shape_root {epoch generation root : Nat} : Shape { epoch, generation, root, branches := [{}] } := by
  refine ⟨fun i p hp => ?_, fun _ he => absurd he List.not_mem_nil, fun _ hs => absurd hs List.not_mem_nil, rfl, rfl, (by decide : 1 ≤ 8), Nat.zero_le _, Nat.zero_le _⟩
  cases i with
  | zero =>
    rw [← Option.some.inj hp]
    exact placed_root
  | succ i => cases hp

theorem described_zero {outlines : List (Option Outline)} : Described outlines 0 :=
  ⟨fun _ hi => absurd hi (Nat.not_lt_zero _), fun _ _ _ _ hi => absurd hi (Nat.not_lt_zero _)⟩

theorem init_inv {epoch generation root afterReceipt deadline : Nat} {seed : Guid}
    (hinit : Builder.init epoch generation root seed afterReceipt deadline = .ok b) : Inv host [] b := by
  unfold Builder.init at hinit
  split at hinit
  · cases hinit
  rename_i hbad
  simp only [not_or, not_not] at hbad
  obtain ⟨hepoch, hgeneration, hroot, hbit, -⟩ := hbad
  have hb := Except.ok.inj hinit
  have hlive : b.Live := hb ▸ ⟨rfl, Stage.noConfusion⟩
  have hat : At b 0 0 := hb ▸ ⟨shape_root, Nat.zero_lt_one, described_zero, rfl, rfl⟩
  have hrank : rank host b ≤ host.total := by
    rw [← hb]
    unfold rank Host.total
    dsimp only
    split <;> omega
  have hprogress : Progress host (Said []) b := by
    rw [← hb] at hat ⊢
    exact ⟨hat, rfl, nofun⟩
  refine { same := ?_, named := ?_, coherent := ?_, live := fun _ => ⟨hprogress, ?_⟩, asked := ?_, bound := ?_
           sound := fun e he => absurd he List.not_mem_nil }
  · rw [← hb]
    exact ⟨rfl, rfl, rfl⟩
  · rw [← hb]
    exact ⟨hepoch, hgeneration, hroot, hbit⟩
  · rw [← hb]
    intro hc
    cases hc
  · rw [← hb]
    exact ⟨fun _ he => absurd he List.not_mem_nil, fun _ hs => absurd hs List.not_mem_nil⟩
  · rw [← hb]
    intro hc
    cases hc
  · rw [left, if_pos hlive, requests, List.countP_nil, Nat.zero_add]
    exact Nat.le_trans hrank (Nat.le_add_right _ _)

/-- The invariant of every run. -/
theorem run_inv (hblocks : 0 < host.maxBlocks) (h₀ : Inv host [] b₀) (hr : Run (Builder.step host) b₀ h b)
    (hread : ∀ e ∈ h, e.op.Read) : Inv host h b := by
  induction hr with
  | nil => exact h₀
  | @snoc h b b' op out hr hs ih =>
    have hi := ih fun e he => hread e (List.mem_append_left _ he)
    have hop := hread _ (List.mem_append_right _ (List.mem_singleton.mpr rfl))
    cases op with
    | prepare generation now => exact prepare_inv hi hs
    | consume generation observed serial now => exact consume_inv hblocks hi hop hs
    | invalidate =>
      cases hs
      exact inv_dead hi ⟨rfl, rfl, rfl, rfl, rfl, rfl⟩ (fun hl => hl.2 rfl) rfl nofun rfl

/-- Whatever the owner calls and whatever the branches reply, the builder never reads what is not there
and sends no more than `total` requests. When its graph is coherent, the edges are exactly the ports in
use of all branches in order, the branches after the root and the sinks are those behind them, every
branch has a GUID of its own, every sink is settled, and each branch said once more what the graph has
of it, after all else was captured. -/
theorem builder_run {epoch generation root afterReceipt deadline : Nat} {seed : Guid}
    (hinit : Builder.init epoch generation root seed afterReceipt deadline = .ok b₀)
    (hblocks : 0 < host.maxBlocks) (hr : Run (Builder.step host) b₀ h b) (hread : ∀ e ∈ h, e.op.Read) :
    (∀ e ∈ h, e.out ≠ .error .Unreachable) ∧ requests h ≤ host.total ∧
      (b.graph.coherent = true → Whole host b ∧ (∀ br ∈ b.graph.branches, Verified (Said h) b br) ∧
        b.graph.completionReceipt ≠ 0) := by
  have hi := run_inv hblocks (init_inv hinit) hr hread
  refine ⟨hi.sound, left_le hi fun hp hl => rank_pos (hi.live hl).1 (hi.asked hp hl), fun hc => ?_⟩
  obtain ⟨hlive, hstage, hreceipt⟩ := hi.coherent hc
  obtain ⟨hp, -⟩ := hi.live hlive
  unfold Progress at hp
  rw [hstage] at hp
  exact ⟨hp.1, hp.2, hreceipt⟩

end

/-! ## A tree of two branches -/

/-- The bytes of an output port: its two first bytes and its GUID. -/
def portBytes (a b : Byte) (guid : Byte) : List Byte := [a, b, 0x12] ++ List.replicate 16 guid ++ [0x11]

/-- The root, with a branch at port 1 and a sink at port 2. -/
def rootBytes : List Byte :=
  [1] ++ List.replicate 16 1 ++ [2] ++ portBytes 0x21 0xc0 2 ++ portBytes 0x32 0x40 0

/-- The branch at port 1, with a sink at port 3. -/
def childBytes : List Byte := [1] ++ List.replicate 16 2 ++ [1] ++ portBytes 0x33 0x40 0

/-- The refusal of a request by the branch behind port 1. -/
def refusal (code : Byte) : List Byte := [code ||| 0x80] ++ List.replicate 16 2 ++ [4, 0]

/-- What the branches reply: the sink at port 2 has one block of EDID, the one at port 3 has none. -/
def treeReplies : List (Wire.Request × List Byte) :=
  [(.linkAddress, rootBytes), (.enumPath 1, [0x10, 0x10, 4, 0, 4, 0]),
    (.enumPath 2, [0x10, 0x20, 4, 0, 2, 0]), (.dpcdRead 2 0 16, [0x20, 2, 16] ++ List.replicate 16 0x12),
    (.edid 2 0, [0x22, 2, 128] ++ List.replicate 128 0), (.edid 2 0, [0x22, 2, 128] ++ List.replicate 128 0),
    (.linkAddress, childBytes), (.enumPath 3, [0x10, 0x30, 4, 0, 3, 0]), (.dpcdRead 3 0 16, refusal 0x20),
    (.edid 3 0, refusal 0x22), (.linkAddress, rootBytes), (.linkAddress, childBytes)]

/-- The observation that `wire.reply` reads out of the bytes of a reply. -/
def heard (reply : Wire.Request × List Byte) : Observation :=
  match Wire.reply reply.1 reply.2 with
  | .ok value => .sideband value
  | .error _ => .rootAux 0 false 0

/-- The owner prepares each request and consumes its reply, under receipts from 2 on. -/
def callsOf (replies : List (Wire.Request × List Byte)) : List Call :=
  replies.zipIdx.flatMap fun r => [.prepare 1 0, .consume 1 (heard r.1) (r.2 + 2) 0]

def treeHost : Host := ⟨fun _ => Vector.replicate 32 0, 1, fun _ => .complete⟩

def treeStart : Builder where
  graph := { epoch := 1, generation := 1, root := 1, branches := [{}] }
  epoch := 1
  generation := 1
  root := 1
  seed := Vector.replicate 16 1
  deadline := 9
  lastReceipt := 1

def treeRun (replies : List (Wire.Request × List Byte)) : History × Builder :=
  exec (Builder.step treeHost) treeStart (callsOf replies)

theorem tree_init : Builder.init 1 1 1 (Vector.replicate 16 1) 1 9 = .ok treeStart := by
  unfold Builder.init
  rw [if_neg (by decide +kernel)]
  rfl

theorem tree_read (replies : List (Wire.Request × List Byte)) : ∀ e ∈ (treeRun replies).1, e.op.Read := by
  intro e he
  have hop := mem_of_mem_exec he
  obtain ⟨r, -, hr⟩ := List.mem_flatMap.mp hop
  simp only [List.mem_cons, List.not_mem_nil, or_false] at hr
  rcases hr with hr | hr <;> rw [hr]
  · exact trivial
  · unfold heard
    split
    · exact ⟨_, _, ‹_›⟩
    · exact trivial

/-- The graph that is captured. -/
theorem tree_captured : (treeRun treeReplies).2.graph.coherent = true ∧
    (treeRun treeReplies).2.graph.branches.map (·.parentEdge) = [none, some 0] ∧
    (treeRun treeReplies).2.graph.edges.map Edge.name = [(0, 1), (0, 2), (1, 3)] ∧
    (treeRun treeReplies).2.graph.sinks.map (fun s => (s.edge, s.state)) = [(1, .valid), (2, .missing)] ∧
    requests (treeRun treeReplies).1 = 12 := by
  decide +kernel

theorem builder_run_tree :
    Whole treeHost (treeRun treeReplies).2 ∧
    (treeRun treeReplies).2.graph.branches.map (·.parentEdge) = [none, some 0] ∧
    (treeRun treeReplies).2.graph.edges.map Edge.name = [(0, 1), (0, 2), (1, 3)] ∧
    (treeRun treeReplies).2.graph.sinks.map (fun s => (s.edge, s.state)) = [(1, .valid), (2, .missing)] ∧
    (∀ br ∈ (treeRun treeReplies).2.graph.branches,
      Verified (Said (treeRun treeReplies).1) (treeRun treeReplies).2 br) ∧
    (∀ e ∈ (treeRun treeReplies).1, e.out ≠ .error .Unreachable) ∧ 12 ≤ treeHost.total := by
  obtain ⟨hcoherent, hbranches, hedges, hsinks, hrequests⟩ := tree_captured
  have hr : Run (Builder.step treeHost) treeStart (treeRun treeReplies).1 (treeRun treeReplies).2 :=
    Run.of_exec _ _ _
  obtain ⟨hsound, htotal, hwhole⟩ := builder_run tree_init (by decide) hr (tree_read treeReplies)
  obtain ⟨hw, hverified, -⟩ := hwhole hcoherent
  rw [hrequests] at htotal
  exact ⟨hw, hbranches, hedges, hsinks, hverified, hsound, htotal⟩

end Capture
end Mst
end NvidiaGsp
