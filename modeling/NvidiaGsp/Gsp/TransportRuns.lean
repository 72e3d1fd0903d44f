import NvidiaGsp.Lib.Runs
import NvidiaGsp.Gsp.TransportReceive
import NvidiaGsp.Gsp.TransportSend

/-!
# Gsp.TransportRuns

Whole runs of a session against any device. `Inv` says where the cursors of a connected session lie;
every call keeps it, so `send_run` can speak about every send of every run.
-/

namespace NvidiaGsp
namespace Gsp
namespace Session

open Bytes Call Cyclic

variable {D : Type} {port : Port D} {w : World D} {deadline : Nat}

structure Inv (s : Session) : Prop where
  linking : s.state = .linking → s.preloaded = false → s.txWrite = 0
  active : s.state = .active → ∃ link, Linked s link

theorem inv_failed {s : Session} (h : s.state = .failed) : Inv s :=
  ⟨fun h' => by simp [h] at h', fun h' => by simp [h] at h'⟩

/-- The fields the invariant speaks about. -/
structure TxSame (s s' : Session) : Prop where
  state : s'.state = s.state
  preloaded : s'.preloaded = s.preloaded
  link : s'.link = s.link
  txWrite : s'.txWrite = s.txWrite
  txPeerRead : s'.txPeerRead = s.txPeerRead

theorem Inv.of_same {s s' : Session} (h : Inv s) (hs : TxSame s s') : Inv s' := by
  refine ⟨fun hl hp => ?_, fun ha => ?_⟩
  · rw [hs.txWrite]
    exact h.linking (hs.state ▸ hl) (hs.preloaded ▸ hp)
  · obtain ⟨link, hlink⟩ := h.active (hs.state ▸ ha)
    exact ⟨link, hs.link.trans hlink.bound, hlink.command, hlink.status, hs.txWrite ▸ hlink.txWrite,
      hs.txPeerRead ▸ hlink.txPeerRead⟩

theorem Frame.txSame {s s' : Session} (h : Frame s s') (hs : s'.state = s.state) : TxSame s s' := by
  refine ⟨hs, ?_, ?_, ?_, ?_⟩ <;> rw [h]

theorem RxFrame.txSame {s s' : Session} (h : RxFrame s s') (hs : s'.state = s.state) :
    TxSame s s' := by
  refine ⟨hs, ?_, ?_, ?_, ?_⟩ <;> rw [h]

theorem Goes.inv {P : Access → Prop} {w' : World D} (h : Goes port P w w') (hi : Inv w.session) :
    Inv w'.session := hi.of_same (h.frame.txSame h.state)

/-! ## Guards -/

theorem guard_inv (hi : Inv w.session) :
    Spec (guard port deadline) w (fun _ w' => Inv w'.session) (fun _ w' => Inv w'.session) := by
  unfold guard
  by_cases hs : w.session.state = .failed
  · unfold Spec
    rw [check_failed hs]
    exact hi
  · refine (check_spec hs).mono (fun _ w' h => ?_) fun e w' h => inv_failed h.1.failed
    exact (h.goes : Goes port IsRead w w').inv hi

theorem guardUnsubmitted_inv (hi : Inv w.session) :
    Spec (guardUnsubmitted port deadline) w (fun _ w' => Inv w'.session)
      (fun _ w' => Inv w'.session) := by
  unfold guardUnsubmitted
  refine .get_bind (.failIf_bind (fun _ => hi) fun hs => ?_)
  have hlive : w.session.state ≠ .failed := by
    intro h
    simp [h] at hs
  refine .seq (checkLifetimeClock_spec hlive) (fun _ w₁ h₁ => ?_) fun e w' h => inv_failed h.1.failed
  have hi₁ := (h₁.1.goes : Goes port IsRead w w₁).inv hi
  refine .get_bind (.bind (stopIf_spec (fun _ => inv_failed rfl) fun _ => ?_))
  refine (.intro (fun _ _ h => ?_) fun _ _ h => ?_)
  · rw [(failIf_ok_iff.1 h).2]
    exact hi₁
  · rw [(failIf_error_iff.1 h).2.2]
    exact hi₁

/-! ## Preload and connect -/

/-- Through the preload the session keeps linking, and its receive side stays. -/
structure Preloading (s s' : Session) : Prop where
  state : s'.state = s.state
  preloaded : s'.preloaded = s.preloaded
  profile : s'.profile = s.profile
  rxRead : s'.rxRead = s.rxRead
  rxSequence : s'.rxSequence = s.rxSequence
  pending : s'.pending = s.pending

theorem Goes.preloading {P : Access → Prop} {w' : World D} (h : Goes port P w w') :
    Preloading w.session w'.session := by
  obtain ⟨now, hnow⟩ := h.session
  rw [hnow]
  exact ⟨rfl, rfl, rfl, rfl, rfl, rfl⟩

theorem Preloading.trans {s s' s'' : Session} (h : Preloading s s') (h' : Preloading s' s'') :
    Preloading s s'' :=
  ⟨h'.state.trans h.state, h'.preloaded.trans h.preloaded, h'.profile.trans h.profile,
    h'.rxRead.trans h.rxRead, h'.rxSequence.trans h.rxSequence, h'.pending.trans h.pending⟩

theorem preloadMessage_spec {layout : Layout} {payload : Slice} {function : Word}
    (hs : w.session.state ≠ .failed) :
    Spec (preloadMessage port deadline layout payload function) w
      (fun _ w' => Preloading w.session w'.session) (fun _ _ => True) := by
  unfold preloadMessage
  refine .get_bind (.lift_bind (fun _ _ => trivial) fun encoded _ => ?_)
  refine .lift_bind (fun _ _ => trivial) fun plan _ => ?_
  refine .seq (publishSpans_goes hs) (fun _ w₁ h₁ => ?_) fun _ _ _ => trivial
  refine .seq (publish_goes (by rw [h₁.state]; exact hs)) (fun _ w₂ h₂ => ?_) fun _ _ _ => trivial
  have h := h₁.preloading.trans h₂.preloading
  exact update_spec ⟨h.state, h.preloaded, h.profile, h.rxRead, h.rxSequence, h.pending⟩

theorem preloadBody_spec {system registry : Slice} (hs : w.session.state ≠ .failed) :
    Spec (preloadBody port deadline system registry) w
      (fun _ w' => Preloading w.session w'.session) (fun _ _ => True) := by
  have hlive {w' : World D} (h : Preloading w.session w'.session) : w'.session.state ≠ .failed := by
    rw [h.state]
    exact hs
  unfold preloadBody
  refine .seq (read_goes hs) (fun own w₁ h₁ => ?_) fun _ _ _ => trivial
  refine .lift_bind (fun _ _ => trivial) fun header _ => .failIf_bind (fun _ => trivial) fun _ => ?_
  have p₁ := h₁.preloading
  refine .seq (readWord_goes (hlive p₁)) (fun peerRead w₂ h₂ => ?_) fun _ _ _ => trivial
  have p₂ := p₁.trans h₂.preloading
  refine .failIf_bind (fun _ => trivial) fun _ => ?_
  refine .seq (read_goes (hlive p₂)) (fun peer w₃ h₃ => ?_) fun _ _ _ => trivial
  have p₃ := p₂.trans h₃.preloading
  refine .failIf_bind (fun _ => trivial) fun _ => update_bind ?_
  have p₃ : Preloading w.session { w₃.session with preloadLayout := some header.layout } :=
    ⟨p₃.state, p₃.preloaded, p₃.profile, p₃.rxRead, p₃.rxSequence, p₃.pending⟩
  refine .seq (preloadMessage_spec (hlive p₃)) (fun _ w₄ h₄ => ?_) fun _ _ _ => trivial
  have p₄ := p₃.trans h₄
  refine (preloadMessage_spec (hlive p₄)).mono (fun _ w₅ h₅ => p₄.trans h₅) fun _ _ _ => trivial

theorem errdefer_spec {α : Type} {x : Transport D α} {Q : α → World D → Prop}
    {E : Error → World D → Prop} (h : Spec x w Q fun e w' =>
      E e { w' with session := { w'.session with state := .failed } }) :
    Spec (errdefer x) w Q E := by
  unfold Spec errdefer at *
  split at h <;> simp_all

theorem preloadInit_inv {system registry : Slice} (hi : Inv w.session) :
    Spec (preloadInit port deadline system registry) w (fun _ w' => Inv w'.session)
      (fun _ w' => Inv w'.session) := by
  unfold preloadInit
  refine .get_bind (.failIf_bind (fun _ => hi) fun hs => .failIf_bind (fun _ => hi) fun _ => ?_)
  have hlinking : w.session.state = .linking := by
    by_contra h
    exact hs (.inl h)
  refine update_bind (errdefer_spec ((preloadBody_spec (by simp [hlinking])).mono (fun _ w₁ h => ?_)
    fun _ _ _ => inv_failed rfl))
  refine ⟨fun _ hp => ?_, fun ha => ?_⟩
  · rw [h.preloaded] at hp
    simp at hp
  · rw [h.state] at ha
    simp [hlinking] at ha

/-- The readings a connect makes, and the session after it. -/
structure ConnectOk (port : Port D) (w w' : World D) : Prop where
  state : w.session.state = .linking
  readings : ∃ limit own peer txRead rxRead link w₁ w₂ w₃ w₄ now,
    Reads port limit .command 0 ringHeaderBytes own
      { w with session := { w.session with linkDeadline := some limit } } w₁ ∧
    Reads port limit .status 0 ringHeaderBytes peer w₁ w₂ ∧
    Ring.inspectLink own peer = .ok link ∧
    Reads port limit link.commandRead.queue link.commandRead.offset 4 txRead w₂ w₃ ∧
    Reads port limit link.statusRead.queue link.statusRead.offset 4 rxRead w₃ w₄ ∧
    ¬ staleLink w.session link (word txRead 0).toNat (word rxRead 0).toNat ∧
    w'.env = w₄.env ∧ w'.session = { w.session with
      linkDeadline := some limit
      lastClock := now
      link := some link
      txPeerRead := (word txRead 0).toNat
      rxPeerWrite := link.status.write
      state := .active }

/-- A connect that fails leaves the session linking, after it read the headers, or failed. -/
structure ConnectError (port : Port D) (w w' : World D) : Prop where
  outcome : w'.session.state = .failed ∨ w' = w ∨ ∃ limit own peer w₁,
    Reads port limit .command 0 ringHeaderBytes own
      { w with session := { w.session with linkDeadline := some limit } } w₁ ∧
    Reads port limit .status 0 ringHeaderBytes peer w₁ w'

theorem orElse_spec {α : Type} {x : Except Error α} {e : Error} {Q : α → World D → Prop}
    {E : Error → World D → Prop} (he : E e w) (h : ∀ a, x = .ok a → Q a w) :
    Spec (orElse x e : Transport D α) w Q E := by
  cases x with
  | ok a => exact h a rfl
  | error _ => exact he

theorem connect_spec :
    Spec (connect port deadline) w (fun _ w' => ConnectOk port w w')
      (fun _ w' => ConnectError port w w') := by
  unfold connect
  refine .get_bind (.failIf_bind (fun _ => ⟨.inr (.inl rfl)⟩) fun hs => update_bind ?_)
  have hlinking : w.session.state = .linking := Decidable.not_not.mp hs
  have hlive {w' : World D} (h : w'.session.state = w.session.state) :
      w'.session.state ≠ .failed := by
    rw [h, hlinking]
    simp
  refine .seq (read_spec (hlive rfl)) (fun own w₁ h₁ => ?_) fun _ _ h => ⟨.inl h.1.failed⟩
  have s₁ : w₁.session.state = w.session.state := h₁.state
  refine .bind (orFail_spec (fun _ _ => ⟨.inl rfl⟩) fun _ _ => ?_)
  refine .seq (read_spec (hlive s₁)) (fun peer w₂ h₂ => ?_) fun _ _ h => ⟨.inl h.1.failed⟩
  have s₂ := h₂.state.trans s₁
  obtain ⟨now₁, hnow₁⟩ := h₁.session
  obtain ⟨now₂, hnow₂⟩ := h₂.session
  refine .bind (orElse_spec ⟨.inr (.inr ⟨_, own, peer, w₁, h₁, h₂⟩)⟩ fun link hlink => ?_)
  refine .seq (readWord_spec (hlive s₂)) (fun txRead w₃ h₃ => ?_) fun _ _ h => ⟨.inl h.1.failed⟩
  obtain ⟨txBytes, rfl, h₃⟩ := h₃
  have s₃ := h₃.state.trans s₂
  refine .seq (readWord_spec (hlive s₃)) (fun rxRead w₄ h₄ => ?_) fun _ _ h => ⟨.inl h.1.failed⟩
  obtain ⟨rxBytes, rfl, h₄⟩ := h₄
  obtain ⟨now₃, hnow₃⟩ := h₃.session
  obtain ⟨now₄, hnow₄⟩ := h₄.session
  rw [hnow₃, hnow₂, hnow₁] at hnow₄
  refine .get_bind (.bind (stopIf_spec (fun _ => ⟨.inl rfl⟩) fun hstale => update_spec ?_))
  rw [hnow₄] at hstale
  refine ⟨hlinking, _, own, peer, txBytes, rxBytes, link, w₁, w₂, w₃, w₄, now₄, h₁, h₂, hlink, h₃,
    h₄, hstale, rfl, ?_⟩
  rw [hnow₄]

theorem inv_connect {w' : World D} (hi : Inv w.session) (h : ConnectOk port w w') :
    Inv w'.session := by
  obtain ⟨hlinking, limit, own, peer, txRead, rxRead, link, w₁, w₂, w₃, w₄, now, -, -, hlink, -, -,
    hstale, -, hsession⟩ := h
  obtain ⟨hown, hpeer, -, -, -⟩ := Ring.inspectLink_ok hlink
  obtain ⟨hcv, hcw⟩ := Ring.inspect_ok hown
  have hsv := (Ring.inspect_ok hpeer).1
  have hcursors : w.session.txWrite < link.command.layout.slots ∧
      (word txRead 0).toNat < link.command.layout.slots := by
    unfold staleLink at hstale
    split at hstale
    · omega
    · rename_i hp
      have hzero := hi.linking hlinking (by simpa using hp)
      omega
  rw [hsession]
  exact ⟨fun h => by simp at h, fun _ => ⟨link, rfl, hcv, hsv, hcursors.1, hcursors.2⟩⟩

/-! ## Every call -/

theorem send_inv {rpc : Rpc} {payload : Slice} (hi : Inv w.session) :
    Spec (send port deadline rpc payload) w (fun _ w' => Inv w'.session)
      (fun _ w' => Inv w'.session) := by
  by_cases hs : w.session.state = .active
  · obtain ⟨link, hl⟩ := hi.active hs
    refine (send_spec hs hl).mono (fun _ w' h => ?_) fun e w' h => ?_
    · obtain ⟨now, peer, count, hsession, hpeer, hcount⟩ := h.session
      rw [hsession]
      refine ⟨fun h => ?_, fun _ => ⟨link, hl.bound, hl.command, hl.status, ?_, hpeer⟩⟩
      · simp [hs] at h
      · exact advance_lt hl.txWrite (Nat.le_of_lt hcount)
    · rcases h.session with hf | ⟨now, peer, hsession, hpeer⟩
      · exact inv_failed hf
      · rw [hsession]
        refine ⟨fun h => ?_, fun _ => ⟨link, hl.bound, hl.command, hl.status, hl.txWrite, hpeer⟩⟩
        simp [hs] at h
  · unfold send
    exact .get_bind (.failIf_bind (fun _ => hi) fun h => absurd (Decidable.not_not.mp h) hs)

theorem receive_inv (hi : Inv w.session) :
    Spec (receive port deadline) w (fun _ w' => Inv w'.session) (fun _ w' => Inv w'.session) := by
  refine receive_spec.mono (fun r w' h => ?_) fun e w' h => ?_
  · have hok := h.2.2.2
    generalize w'.session = s' at hok
    cases hok with
    | empty => exact hi.of_same ⟨rfl, rfl, rfl, rfl, rfl⟩
    | record => exact hi.of_same ⟨rfl, rfl, rfl, rfl, rfl⟩
  · rcases h.2.state with hf | hs
    · exact inv_failed hf
    · exact hi.of_same (h.2.frame.txSame hs)

theorem acknowledge_inv {ticket : Ticket} (hi : Inv w.session) :
    Spec (acknowledge port deadline ticket) w (fun _ w' => Inv w'.session)
      (fun _ w' => Inv w'.session) := by
  refine acknowledge_spec.mono (fun _ w' h => ?_) fun e w' h => ?_
  · obtain ⟨now, hsession⟩ := h.1.session
    rw [hsession]
    exact hi.of_same ⟨rfl, rfl, rfl, rfl, rfl⟩
  · rcases h with ⟨rfl, -⟩ | ⟨-, hlost⟩
    · exact hi
    · exact inv_failed hlost.failed

theorem connect_inv (hi : Inv w.session) :
    Spec (connect port deadline) w (fun _ w' => Inv w'.session) (fun _ w' => Inv w'.session) := by
  refine connect_spec.mono (fun _ w' h => inv_connect hi h) fun _ w' h => ?_
  rcases h.outcome with hf | heq | ⟨limit, own, peer, w₁, h₁, h₂⟩
  · exact inv_failed hf
  · rw [heq]
    exact hi
  · obtain ⟨now₁, hnow₁⟩ := h₁.session
    obtain ⟨now₂, hnow₂⟩ := h₂.session
    rw [hnow₂, hnow₁]
    exact hi.of_same ⟨rfl, rfl, rfl, rfl, rfl⟩

theorem Spec.done {x : Transport D Unit} {P : World D → Prop} {answer : Answer}
    (h : Spec x w (fun _ w' => P w') (fun _ w' => P w')) :
    Spec (do x; pure answer : Transport D Answer) w (fun _ w' => P w') (fun _ w' => P w') :=
  .seq h (fun _ _ h => h) fun _ _ h => h

theorem call_inv (op : Op) (hi : Inv w.session) :
    Spec (call port op) w (fun _ w' => Inv w'.session) (fun _ w' => Inv w'.session) := by
  cases op with
  | stop => exact inv_failed rfl
  | guard => exact Spec.done (guard_inv hi)
  | guardUnsubmitted => exact Spec.done (guardUnsubmitted_inv hi)
  | preloadInit => exact Spec.done (preloadInit_inv hi)
  | connect => exact Spec.done (connect_inv hi)
  | send => exact Spec.done (send_inv hi)
  | receive => exact .seq (receive_inv hi) (fun _ _ h => h) fun _ _ h => h
  | acknowledge => exact Spec.done (acknowledge_inv hi)

theorem step_inv {op : Op} {out : Except Error Answer} {w' : World D} (hi : Inv w.session)
    (h : step port w op = (out, w')) : Inv w'.session := by
  cases out with
  | ok a => exact (call_inv op hi).ok (outcome_ok_iff.1 h)
  | error e => exact (call_inv op hi).error (outcome_error_iff.1 h)

theorem init_inv {profile : Profile} {epoch tx rx : Nat} {s : Session}
    (h : Session.init profile epoch tx rx = .ok s) : Inv s := by
  unfold Session.init at h
  generalize (if tx ≥ rx then tx - rx else rx - tx) = gap at h
  split at h
  · cases h
  · split at h
    · cases h
    · split at h
      · cases h
      · cases h
        exact ⟨fun _ _ => rfl, fun h => by simp at h⟩

/-- The invariant holds in every state a session reaches. -/
theorem run_inv {s₀ : Session} {d : D} {h : List (Event (World D) Op (Except Error Answer))}
    (h₀ : Inv s₀) (hr : Run (step port) ⟨s₀, d, []⟩ h w) : Inv w.session :=
  hr.invariant (P := fun _ w => Inv w.session) h₀ fun _ _ _ _ _ hi hs => step_inv hi hs

/-! ## Sends -/

/-- What one send may do at the port, whatever the device answers. -/
structure Contained (s s' : Session) (out : Except Error Answer) (t : List Access) : Prop where
  published : ∀ q o b, Access.publish q o b ∈ t → ∃ link bytes, s.link = some link ∧
    .read link.commandRead.queue link.commandRead.offset bytes ∈ t ∧
    s'.txPeerRead = (word bytes 0).toNat ∧
    ¬ Overrun link.command.layout.slots s.txPeerRead s.txWrite s'.txPeerRead ∧
    (Vacant link.command.layout s'.txPeerRead s.txWrite (.publish q o b) ∨
      NewCursor link.command.layout s'.txPeerRead (.publish q o b))
  overrun : ∀ link bytes, s.link = some link →
    .read link.commandRead.queue link.commandRead.offset bytes ∈ t →
    Overrun link.command.layout.slots s.txPeerRead s.txWrite (word bytes 0).toNat →
    s'.state = .failed ∧ ∀ q o b, Access.publish q o b ∉ t
  refused : ∀ e, out = .error e → s'.txWrite = s.txWrite ∧ s'.txSequence = s.txSequence ∧
    (Refusal e → ∀ q o b, Access.publish q o b ∉ t)

theorem SendTrace.published {link : Link} {s s' : Session} {t : List Access}
    (h : SendTrace link s s' t) (hl : s.link = some link) {q : Queue} {o : Nat} {b : List Byte}
    (hm : Access.publish q o b ∈ t) : ∃ link bytes, s.link = some link ∧
      .read link.commandRead.queue link.commandRead.offset bytes ∈ t ∧
      s'.txPeerRead = (word bytes 0).toNat ∧
      ¬ Overrun link.command.layout.slots s.txPeerRead s.txWrite s'.txPeerRead ∧
      (Vacant link.command.layout s'.txPeerRead s.txWrite (.publish q o b) ∨
        NewCursor link.command.layout s'.txPeerRead (.publish q o b)) := by
  cases h with
  | none => simp at hm
  | read => simp at hm
  | sent bytes rest hover hpeer hrest =>
    refine ⟨link, bytes, hl, by simp, hpeer, by rw [hpeer]; exact hover, ?_⟩
    have hacc := hrest _ (by simpa using hm)
    unfold SendAccess at hacc
    simpa using hacc

theorem SendTrace.overrun {link : Link} {s s' : Session} {t : List Access}
    (h : SendTrace link s s' t) {bytes : List Byte}
    (hm : .read link.commandRead.queue link.commandRead.offset bytes ∈ t)
    (hover : Overrun link.command.layout.slots s.txPeerRead s.txWrite (word bytes 0).toNat) :
    s'.state = .failed ∧ ∀ q o b, Access.publish q o b ∉ t := by
  cases h with
  | none => simp at hm
  | read bytes' hfail =>
    obtain rfl : bytes = bytes' := by simpa using hm
    exact ⟨hfail hover, by simp⟩
  | sent bytes' rest hok _ hrest =>
    rcases List.mem_cons.mp hm with heq | hin
    · obtain rfl : bytes = bytes' := by simpa using heq
      exact absurd hover hok
    · have hacc := hrest _ hin
      unfold SendAccess Vacant NewCursor at hacc
      simp at hacc

theorem contained_idle {s : Session} {out : Except Error Answer} : Contained s s out [] :=
  ⟨by simp, by simp, fun _ _ => ⟨rfl, rfl, by simp⟩⟩

theorem send_contained {rpc : Rpc} {payload : Slice} {out : Except Error Answer} {w' : World D}
    (hi : Inv w.session) (h : step port w (.send deadline rpc payload) = (out, w')) :
    ∃ t, w'.trace = w.trace ++ t ∧ Contained w.session w'.session out t := by
  by_cases hs : w.session.state = .active
  · obtain ⟨link, hl⟩ := hi.active hs
    have hlink {l : Link} (h : w.session.link = some l) : link = l := by
      rw [hl.bound] at h
      exact Option.some.inj h
    have hspec : Spec (call port (.send deadline rpc payload)) w (fun _ w' => SendOk link w w')
        (fun e w' => SendError link e w w') :=
      .seq (send_spec hs hl) (fun _ _ h => h) fun _ _ h => h
    cases out with
    | ok a =>
      obtain ⟨t, ht, htrace⟩ := (hspec.ok (outcome_ok_iff.1 h)).trace
      refine ⟨t, ht, fun _ _ _ hm => htrace.published hl.bound hm, fun l b hb hm => ?_, fun _ h => ?_⟩
      · obtain rfl := hlink hb
        exact htrace.overrun hm
      · cases h
    | error e =>
      have herr := hspec.error (outcome_error_iff.1 h)
      obtain ⟨t, ht, htrace, hrefuse⟩ := herr.trace
      refine ⟨t, ht, fun _ _ _ hm => htrace.published hl.bound hm, fun l b hb hm => ?_, fun _ h => ?_⟩
      · obtain rfl := hlink hb
        exact htrace.overrun hm
      · cases h
        exact ⟨herr.frame.1, herr.frame.2, hrefuse⟩
  · have hsend : send port deadline rpc payload w = .error .State w := by
      unfold send
      simp [bind_apply, failIf_of hs]
    have hcall : call port (.send deadline rpc payload) w = .error .State w := by
      simp [call, bind_apply, hsend]
    rw [step, outcome, hcall] at h
    cases h
    exact ⟨[], by simp, contained_idle⟩

/-- Every send of every run of a session, with any device behind its port, only writes message data
into slots outside the interval from the admitted read cursor to the write cursor, never publishes
a write cursor equal to the admitted one, fails the session without publishing when the read cursor
is out of range or past the write cursor, and publishes nothing and moves neither cursor nor
sequence when it answers `Unavailable` or an encoding error. -/
theorem send_run {profile : Profile} {epoch tx rx : Nat} {s₀ : Session} {d : D}
    {h : List (Event (World D) Op (Except Error Answer))} {rpc : Rpc} {payload : Slice}
    {e : Event (World D) Op (Except Error Answer)}
    (h₀ : Session.init profile epoch tx rx = .ok s₀) (hr : Run (step port) ⟨s₀, d, []⟩ h w)
    (he : e ∈ h) (hop : e.op = .send deadline rpc payload) :
    ∃ t, e.post.trace = e.pre.trace ++ t ∧ Contained e.pre.session e.post.session e.out t := by
  obtain ⟨h₁, h₂, -, hpre, hstep⟩ := hr.event he
  rw [hop] at hstep
  exact send_contained (run_inv (init_inv h₀) hpre) hstep

/-- The header of an empty ring of 63 slots, and its read cursor. -/
def freshHeader : List Byte := putAll (List.replicate 36 0)
  [(4, BitVec.ofNat 32 queueBytes), (8, 4096), (12, 63), (24, 32), (28, 4096)]

/-- A device whose rings stay empty and which accepts every notification. -/
def idlePort : Port Unit where
  generation _ := (1, ())
  nowNs _ := (0, ())
  read _ _ offset _ _ := (.ok fun i => freshHeader.getD (offset + i) 0, ())
  publish _ _ _ _ _ := (none, ())
  notification := some ⟨fun _ => (1, ()), fun _ _ => (none, ()), fun _ _ => (none, ())⟩

def idleSession : Session := { profile := ⟨0x172, false⟩, epoch := 1, tx := 0 }

/-- Connecting and sending three bytes. -/
def idleRun : List (Event (World Unit) Op (Except Error Answer)) × World Unit :=
  exec (step idlePort) ⟨idleSession, (), []⟩
    [.connect 5, .send 5 { function := 7 } ⟨0x100000, [1, 2, 3]⟩]

theorem send_run_idle : ∃ e ∈ idleRun.1, e.out.isOk ∧ e.post.trace.length = 9 ∧
    ∃ t, e.post.trace = e.pre.trace ++ t ∧ Contained e.pre.session e.post.session e.out t := by
  have hin : idleRun.1.getLast (by simp [idleRun, exec]) ∈ idleRun.1 := List.getLast_mem _
  refine ⟨_, hin, by decide +kernel, by decide +kernel, ?_⟩
  have hinit : Session.init ⟨0x172, false⟩ 1 0 0x80000 = .ok idleSession := by decide
  exact send_run hinit (Run.of_exec _ _ _) hin rfl

end Session
end Gsp
end NvidiaGsp
