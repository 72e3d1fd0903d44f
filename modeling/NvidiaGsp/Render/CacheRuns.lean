import NvidiaGsp.Lib.Runs
import NvidiaGsp.Render.CacheSpec

/-!
# Render.CacheRuns

The cache over whole runs: `cache_run` says what every slot holds in every reachable state, and what
the answers of the next call mean.
-/

namespace NvidiaGsp
namespace Render

open Call

variable {Draw : Type} {r : Encoder Draw} {me : Nat} {m m' : Machine Draw}

abbrev Out (Draw : Type) := Except Error (Answer Draw)

/-- What the answer of a call promises. -/
def Served (r : Encoder Draw) (m : Machine Draw) : Op Draw → Out Draw → Machine Draw → Prop
  | .reusePacketList _ draws, out, m' =>
    ∀ b, out = .ok (.reused b) → b = true → Reused r m.owner m'.owner m'.memory draws
  | .beginUploadList _ kind _ _, out, m' =>
    out = .ok .done → kind = .packet →
      m'.owner.packetSlot < packetSlots ∧ ¬ m.owner.Outstanding m'.owner.packetSlot
  | .binding _, out, _ | .acquire _, out, _ =>
    ∀ b, out = .ok (.binding b) → Bound r m.owner m.memory b
  | _, _, _ => True

/-- While the engine has the slot, a call leaves the memory, the selection and the recorded draws. -/
def Frozen (m m' : Machine Draw) : Prop :=
  m.owner.borrowed = true → m'.memory = m.memory ∧ m'.owner.packetSlot = m.owner.packetSlot ∧
    ∀ i, (m'.owner.packets i).draws = (m.owner.packets i).draws ∧
      (m'.owner.packets i).cePoint = (m.owner.packets i).cePoint

theorem Keeps.frozen {o' : Owner Draw} {staged : List Byte} (h : Keeps m.owner o') :
    Frozen m ⟨o', staged, m.memory⟩ := fun hb => ⟨rfl, h hb⟩

/-- A call on the owner, by its specification. -/
theorem onOwner_spec {α : Type} {x : CacheCall Draw α} {f : α → Answer Draw} {Q : α → Owner Draw → Prop}
    {P : Out Draw → Machine Draw → Prop} (hi : Inv r m) (h : Spec x m.owner
      (fun a o' => Inv r ⟨o', m.staged, m.memory⟩ ∧ Keeps m.owner o' ∧ Q a o') fun _ o' => Quiet m.owner o')
    (hok : ∀ a o', Q a o' → P (.ok (f a)) ⟨o', m.staged, m.memory⟩)
    (herr : ∀ e o', P (.error e) ⟨o', m.staged, m.memory⟩) :
    Inv r (onOwner x f m).2 ∧ Frozen m (onOwner x f m).2 ∧ P (onOwner x f m).1 (onOwner x f m).2 := by
  unfold onOwner
  cases hx : x m.owner with
  | ok a o' =>
    obtain ⟨hinv, hkeeps, hq⟩ := h.ok hx
    exact ⟨hinv, hkeeps.frozen, hok a o' hq⟩
  | error e o' =>
    have hquiet := h.error hx
    exact ⟨hi.quiet hquiet, hquiet.keeps.frozen, herr e o'⟩

theorem onOwner_plain {x : CacheCall Draw Unit} (hi : Inv r m) (h : Spec x m.owner
      (fun _ o' => Inv r ⟨o', m.staged, m.memory⟩ ∧ Keeps m.owner o') fun _ o' => Quiet m.owner o') :
    Inv r (onOwner x (fun _ => .done) m).2 ∧ Frozen m (onOwner x (fun _ => .done) m).2 ∧ True := by
  have hq := h.mono (fun _ o' h => show _ ∧ _ ∧ True from ⟨h.1, h.2, trivial⟩) fun _ _ h => h
  exact onOwner_spec (P := fun _ _ => True) (f := fun _ => .done) hi hq (fun _ _ _ => trivial)
    fun _ _ => trivial

/-- One call keeps the invariant. -/
theorem step_spec (hl : Laws r) (hi : Inv r m) (op : Op Draw) :
    Inv r (step r me m op).2 ∧ Frozen m (step r me m op).2 ∧
      Served r m op (step r me m op).1 (step r me m op).2 := by
  cases op with
  | reusePacketList ports draws =>
    refine onOwner_spec (P := Served r m (.reusePacketList ports draws)) hi
      (reusePacketList_spec hl hi ports draws) (fun b o' hq b' hb' ht => ?_) fun e o' b hb => ?_
    · obtain rfl : b = b' := by simpa using hb'
      exact hq ht
    · cases hb
  | beginUploadList ports kind draws room =>
    have hspec : Spec (beginUploadList r me ports kind draws room) m.owner _ _ :=
      beginUploadList_spec hl hi ports kind draws room
    unfold step
    dsimp only
    cases hx : beginUploadList r me ports kind draws room m.owner with
    | ok bytes o' =>
      obtain ⟨hinv, hkeeps, hq⟩ := hspec.ok hx
      exact ⟨hinv, hkeeps.frozen, fun _ => hq⟩
    | error e o' =>
      have hquiet := hspec.error hx
      exact ⟨hi.quiet hquiet, hquiet.keeps.frozen, fun h => by cases h⟩
  | copying bytes =>
    refine ⟨hi.copy hl bytes, fun hb => ?_, trivial⟩
    have hidle : m.copy r bytes = m := m.copy_idle (by rw [hi.idle hb]; simp) bytes
    show (m.copy r bytes).memory = _ ∧ (m.copy r bytes).owner.packetSlot = _ ∧ _
    exact ⟨by rw [hidle], by rw [hidle], fun i => by
      show ((m.copy r bytes).owner.packets i).draws = _ ∧ ((m.copy r bytes).owner.packets i).cePoint = _
      rw [hidle]
      exact ⟨rfl, rfl⟩⟩
  | completeUpload kind point =>
    have hspec : Spec (completeUpload r me kind point) m.owner _ _ :=
      completeUpload_spec hl hi kind point
    have hcopy := hi.copy hl m.staged
    unfold step onOwner
    rw [Machine.copy_eq] at hcopy ⊢
    dsimp only
    cases hx : completeUpload r me kind point m.owner with
    | ok _ o' =>
      obtain ⟨hinv, hkeeps⟩ := hspec.ok hx
      refine ⟨hinv, fun hb => ⟨?_, hkeeps hb⟩, trivial⟩
      dsimp only
      rw [m.copy_idle (by rw [hi.idle hb]; simp)]
    | error e o' =>
      have hquiet := hspec.error hx
      refine ⟨hcopy.quiet hquiet, fun hb => ⟨?_, hquiet.keeps hb⟩, trivial⟩
      dsimp only
      rw [m.copy_idle (by rw [hi.idle hb]; simp)]
  | cancelUpload =>
    exact onOwner_plain hi (cancelUpload_spec hi)
  | binding ports =>
    refine onOwner_spec (P := Served r m (.binding ports)) (Q := fun b _ => Bound r m.owner m.memory b) hi
      ?_ (fun b o' hq b' hb' => ?_) fun e o' b hb => ?_
    · refine .get_bind (Spec.intro (fun b o' hx => ?_) fun e o' hx => ?_)
      · cases hbind : binding r me ports m.owner with
        | ok c =>
          rw [hbind] at hx
          obtain ⟨rfl, rfl⟩ := EStateM.Result.ok.inj hx
          exact ⟨hi, (Quiet.refl _).keeps, binding_bound hi hbind⟩
        | error e =>
          rw [hbind] at hx
          cases hx
      · cases hbind : binding r me ports m.owner with
        | ok c =>
          rw [hbind] at hx
          cases hx
        | error e =>
          rw [hbind] at hx
          obtain ⟨-, rfl⟩ := EStateM.Result.error.inj hx
          exact .refl _
    · obtain rfl : b = b' := by simpa using hb'
      exact hq
    · cases hb
  | acquire ports =>
    refine onOwner_spec (P := Served r m (.acquire ports)) hi (acquire_spec hi ports)
      (fun b o' hq b' hb' => ?_) fun e o' b hb => ?_
    · obtain rfl : b = b' := by simpa using hb'
      exact hq
    · cases hb
  | bindQueueFence fence =>
    exact onOwner_plain hi (bindQueueFence_spec hi fence)
  | submitted point =>
    exact onOwner_plain hi (submitted_spec hi point)
  | completed point =>
    exact onOwner_plain hi (completed_spec hi point)
  | release =>
    exact onOwner_plain hi (release_spec hi)

/-- A fresh owner records nothing. -/
theorem Inv.initial {o₀ o : Owner Draw} {epoch classId : Nat} {staged : List Byte} {memory : Memory}
    (h : initializeFor r me epoch classId o₀ = .ok () o) : Inv r ⟨o, staged, memory⟩ := by
  have hspec : Spec (initializeFor r me epoch classId) o₀
      (fun _ o => o = { selfAddress := me, epoch := epoch, classId := classId }) fun _ _ => True := by
    unfold initializeFor
    refine .get_bind (.failIf_bind (fun _ => trivial) fun _ => ?_)
    exact .lift_bind (fun _ _ => trivial) fun _ _ => rfl
  rw [hspec.ok h]
  exact ⟨fun i _ h => absurd rfl h, fun h => absurd rfl h, fun h => (by cases h), fun _ => rfl,
    fun i _ h => absurd rfl h, fun h => absurd rfl h⟩

/-- In every reachable state a resident slot holds its recorded draws. A reuse answers true only for
a slot with the bytes of the request, a binding shows only a resident slot that records the mirror,
and a slot the engine may still read stays as it is. -/
theorem cache_run (hl : Laws r) {o₀ : Owner Draw} {epoch classId : Nat} {m₀ : Machine Draw}
    (h₀ : initializeFor r me epoch classId o₀ = .ok () m₀.owner)
    {h : List (Event (Machine Draw) (Op Draw) (Out Draw))} (hr : Run (step r me) m₀ h m) :
    (∀ i < packetSlots, (m.owner.packets i).cePoint ≠ 0 →
      Holds r m.memory i (m.owner.packets i).draws) ∧
    (∀ op, Served r m op (step r me m op).1 (step r me m op).2) ∧
    ∀ i < packetSlots, m.owner.Outstanding i →
      i = m.owner.packetSlot ∧ m.owner.borrowed = true ∧ m.owner.uploading = none ∧
        ∀ op, Frozen m (step r me m op).2 := by
  have hi : Inv r m := by
    refine hr.invariant (P := fun _ m => Inv r m) (.initial h₀) ?_
    intro h m op out m' hi hs
    have : Inv r (step r me m op).2 := (step_spec hl hi op).1
    rwa [hs] at this
  refine ⟨fun i hslot hce => (hi.resident i hslot hce).2.2, fun op => (step_spec hl hi op).2.2,
    fun i hslot ho => ?_⟩
  obtain ⟨hcurrent, hpoint⟩ := hi.outstanding i hslot ho
  have hborrow := hi.submission hpoint
  exact ⟨hcurrent, hborrow, hi.idle hborrow, fun op => (step_spec hl hi op).2.1⟩

/-- Draws of one word, encoded little-endian. -/
def wordEncoder : Encoder Word where
  packetBytes := 4
  batchCapacity := 16
  packetCapacityBytes := 64
  profile := fun _ => true
  shaderBytesFor := fun _ => .ok 256
  shaderUploadFor := fun _ _ => .ok []
  validateRange := fun range alignment bytes =>
    if range.address % alignment ≠ 0 ∨ range.bytes < bytes then .error (.encoder 1) else .ok ()
  validate := fun _ => .ok ()
  bindingMatches := fun b draws => decide (b.draw :: b.additional = draws)
  packetUpload := fun draw => .ok (Bytes.le32 draw)
  packetUploadList := fun draws room =>
    if room < 4 * draws.length then .error (.encoder 2) else .ok (draws.flatMap Bytes.le32)

theorem wordEncoder_encodings (draws : List Word) :
    encodings wordEncoder draws = .ok (draws.flatMap Bytes.le32) := by
  induction draws with
  | nil => rfl
  | cons draw rest ih =>
    unfold encodings
    rw [ih]
    rfl

theorem wordEncoder_laws : Laws wordEncoder where
  capacity := by decide
  length := fun draw bytes h => by
    obtain rfl := Except.ok.inj h
    rfl
  list := fun draws room bytes h => by
    rw [wordEncoder_encodings]
    unfold wordEncoder at h
    dsimp only at h
    split at h
    · cases h
    · exact h
  agree := fun b draws h => of_decide_eq_true h

def wordPorts : Ports := fun kind =>
  match kind with
  | .programs => some ⟨7, 4096, 4096, 1, 1⟩
  | .packet => some ⟨7, 8192, 4096, 1, 1⟩

def wordStart : Machine Word := ⟨{ selfAddress := 3, epoch := 7, classId := 0xc797 }, [], fun _ => 0⟩

/-- Two uploads, a reuse of the first one, and its use by the engine up to the point it submits. -/
def wordOps : List (Op Word) :=
  [.beginUploadList wordPorts .programs [] 256, .completeUpload .programs 1,
    .beginUploadList wordPorts .packet [5, 6] 64, .copying [1, 2], .completeUpload .packet 2,
    .beginUploadList wordPorts .packet [9] 64, .completeUpload .packet 3,
    .reusePacketList wordPorts [5, 6], .acquire wordPorts, .submitted 4]

theorem cache_run_words :
    let m := (exec (step wordEncoder 3) wordStart wordOps).2
    (∀ i < packetSlots, (m.owner.packets i).cePoint ≠ 0 →
      Holds wordEncoder m.memory i (m.owner.packets i).draws) ∧
    (∀ op, Served wordEncoder m op (step wordEncoder 3 m op).1 (step wordEncoder 3 m op).2) ∧
    ∀ i < packetSlots, m.owner.Outstanding i →
      i = m.owner.packetSlot ∧ m.owner.borrowed = true ∧ m.owner.uploading = none ∧
        ∀ op, Frozen m (step wordEncoder 3 m op).2 :=
  @cache_run Word wordEncoder 3 _ wordEncoder_laws {} 7 0xc797 wordStart rfl _ (.of_exec _ _ wordOps)

/-- The run ends with the first slot selected, resident and in the engine's hands. -/
example : ((exec (step wordEncoder 3) wordStart wordOps).2.owner.packetSlot,
    ((exec (step wordEncoder 3) wordStart wordOps).2.owner.packets 0).grSubmitted) = (0, 4) := by
  decide +kernel

end Render
end NvidiaGsp
