import Qdgz300.App.Proof.FaceBlocks

/-!
# What a shutdown leaves behind

`StubConsumer::stop` ends the worker without emptying its queue, and it comes first: what the later
stages push finds no consumer. `LeavesNothing` is what a step must satisfy for no block to stay
behind an ended worker: it is a condition on the state before the step.

* `settled_step`: a step keeps the faces settled exactly when it leaves nothing.
* **`shutdown_loses_nothing_iff`**: when `app_shutdown` returns, every block is processed or counted
  exactly when every step left nothing.
* `leftover_lost`: one block in the queue when the consumer is stopped.
-/

namespace Qdgz300.App

open Protocol Common Pipeline Delivery

namespace ShutdownState

/-- The step leaves no block behind an ended worker: a worker ends with its queue empty, and after
that no dispatch, no context and no buffered packet yields a block. -/
def LeavesNothing (clocks : Nat → FaceClocks) (s : ShutdownState) : ShutdownLabel → Prop
  | .onPacket _ _ => True
  | .process i _ => (s.faces i).Ended → (s.faces i).DispatchesNothing (clocks i)
  | .consume i => (s.faces i).Ending → (s.faces i).Clear
  | .main _ _ _ =>
    match s.pc with
    | .flushAll i => i < s.numFaces → flushThrows (s.faces i).reassembler = false →
        (s.faces i).Ended → ∀ key ∈ (s.faces i).reassembler.contexts.keys,
          ¬ Awaits (s.faces i).reorderer key.frameCounter
    | .flush i => i < s.numFaces → (s.faces i).Ended → (s.faces i).reorderer.pending = []
    | _ => True

/-- `app_shutdown` is called: the histories are empty, a worker that does not run has ended, and
without a start no thread runs. -/
structure AtEntry (s : ShutdownState) : Prop where
  pc : s.pc = .entry
  paths : ∀ i < s.numFaces, ∀ path ∈ (s.faces i).rawBlock,
    path.pushed = [] ∧ path.consumer.processed = [] ∧ (∃ xs, Waiting path.queue xs) ∧
      (path.consumer.running = false → path.consumer.pc = .done)
  stopped : s.started = false → ∀ i < s.numFaces, (s.faces i).processing = .done ∧
    ∀ path ∈ (s.faces i).rawBlock, path.consumer.pc = .done

end ShutdownState


namespace ShutdownState

section
variable {clocks : Nat → FaceClocks} {start s s' : ShutdownState} {l : ShutdownLabel}
  {face : Face} {i : Nat} {now : Int} {pushTimes : Nat → Int} {order : IterOrder}

/-! ## Steps -/

/-- A step of a thread, and the face it changes. -/
theorem step_cases (h : s.step clocks l = some s') :
    (∃ i raw, l = .onPacket i raw ∧ i < s.numFaces ∧
      s' = s.setFace i { s.faces i with rxStage := (s.faces i).rxStage.onPacket raw }) ∨
    (∃ i now face, l = .process i now ∧ i < s.numFaces ∧
      (s.faces i).process (clocks i) s.processingRunning now = some face ∧ s' = s.setFace i face) ∨
    (∃ i face, l = .consume i ∧ i < s.numFaces ∧ (s.faces i).consume = some face ∧
      s' = s.setFace i face) ∨
    ∃ now pushTimes order, l = .main now pushTimes order ∧
      s.main clocks now pushTimes order = some s' := by
  unfold step at h
  cases l with
  | onPacket i raw =>
    obtain ⟨hguard, heq⟩ := Option.ite_none_right_eq_some.1 h
    have hi := of_decide_eq_true (Bool.and_eq_true_iff.1 hguard).2
    exact .inl ⟨i, raw, rfl, hi, (Option.some.inj heq).symm⟩
  | process i now =>
    obtain ⟨hguard, heq⟩ := Option.ite_none_right_eq_some.1 h
    obtain ⟨face, hface, rfl⟩ := Option.map_eq_some_iff.1 heq
    have hi := of_decide_eq_true (Bool.and_eq_true_iff.1 hguard).2
    exact .inr (.inl ⟨i, now, face, rfl, hi, hface, rfl⟩)
  | consume i =>
    obtain ⟨hguard, heq⟩ := Option.ite_none_right_eq_some.1 h
    obtain ⟨face, hface, rfl⟩ := Option.map_eq_some_iff.1 heq
    have hi := of_decide_eq_true (Bool.and_eq_true_iff.1 hguard).2
    exact .inr (.inr (.inl ⟨i, face, rfl, hi, hface, rfl⟩))
  | main now pushTimes order => exact .inr (.inr (.inr ⟨now, pushTimes, order, rfl, h⟩))

/-- A step of the main thread, and the face it changes. -/
theorem main_cases (h : s.main clocks now pushTimes order = some s') :
    s'.numFaces = s.numFaces ∧
      ((∃ i, s.pc = .stopConsumer i ∧ i < s.numFaces ∧
          s'.faces = Function.update s.faces i (s.faces i).stopConsumer) ∨
        (∃ i, s.pc = .flushAll i ∧ i < s.numFaces ∧
          flushThrows (s.faces i).reassembler = false ∧ s'.faces =
            Function.update s.faces i ((s.faces i).flushAll (clocks i) pushTimes order)) ∨
        (∃ i, s.pc = .flush i ∧ i < s.numFaces ∧
          s'.faces = Function.update s.faces i ((s.faces i).flush pushTimes)) ∨
        (s'.faces = s.faces ∧ s.LeavesNothing clocks (.main now pushTimes order))) := by
  unfold main at h
  unfold LeavesNothing
  cases hpc : s.pc with
  | entry =>
    rw [hpc] at h
    simp only at h
    split at h <;> obtain rfl := Option.some.inj h <;>
      exact ⟨rfl, .inr (.inr (.inr ⟨rfl, trivial⟩))⟩
  | stopConsumer i =>
    rw [hpc] at h
    simp only at h
    split at h
    case isTrue hi =>
      split at h
      · obtain rfl := Option.some.inj h
        exact ⟨rfl, .inl ⟨i, rfl, hi, rfl⟩⟩
      · obtain rfl := Option.some.inj h
        exact ⟨rfl, .inr (.inr (.inr ⟨rfl, trivial⟩))⟩
    case isFalse =>
      obtain rfl := Option.some.inj h
      exact ⟨rfl, .inr (.inr (.inr ⟨rfl, trivial⟩))⟩
  | joinConsumer i =>
    rw [hpc] at h
    obtain ⟨-, heq⟩ := Option.ite_none_right_eq_some.1 h
    obtain rfl := Option.some.inj heq
    exact ⟨rfl, .inr (.inr (.inr ⟨rfl, trivial⟩))⟩
  | joinProcessing i =>
    rw [hpc] at h
    simp only at h
    split at h
    · split at h
      · obtain rfl := Option.some.inj h
        exact ⟨rfl, .inr (.inr (.inr ⟨rfl, trivial⟩))⟩
      · cases h
    · obtain rfl := Option.some.inj h
      exact ⟨rfl, .inr (.inr (.inr ⟨rfl, trivial⟩))⟩
  | flushAll i =>
    rw [hpc] at h
    simp only at h
    split at h
    case isTrue hi =>
      split at h
      case isTrue hthrows =>
        obtain rfl := Option.some.inj h
        refine ⟨rfl, .inr (.inr (.inr ⟨rfl, fun _ hnot => ?_⟩))⟩
        rw [hthrows] at hnot
        cases hnot
      case isFalse hthrows =>
        obtain rfl := Option.some.inj h
        exact ⟨rfl, .inr (.inl ⟨i, rfl, hi, Bool.not_eq_true _ ▸ hthrows, rfl⟩)⟩
    case isFalse hi =>
      obtain rfl := Option.some.inj h
      exact ⟨rfl, .inr (.inr (.inr ⟨rfl, fun hlt => absurd hlt hi⟩))⟩
  | flush i =>
    rw [hpc] at h
    simp only at h
    split at h
    case isTrue hi =>
      obtain rfl := Option.some.inj h
      exact ⟨rfl, .inr (.inr (.inl ⟨i, rfl, hi, rfl⟩))⟩
    case isFalse hi =>
      obtain rfl := Option.some.inj h
      exact ⟨rfl, .inr (.inr (.inr ⟨rfl, fun hlt => absurd hlt hi⟩))⟩
  | stopReceiver | stopProcessing | stopPcap | flushDelivery | stopMetrics =>
    rw [hpc] at h
    obtain rfl := Option.some.inj h
    exact ⟨rfl, .inr (.inr (.inr ⟨rfl, trivial⟩))⟩
  | returned | exited | thrown =>
    rw [hpc] at h
    cases h

/-! ## The account and the settled faces -/

/-- The account of every face, since `start`. -/
def Accounted (start s : ShutdownState) : Prop :=
  s.numFaces = start.numFaces ∧ ∀ i < s.numFaces, (start.faces i).Accounted (s.faces i)

/-- No face has a block waiting behind an ended worker. -/
def Settled (s : ShutdownState) : Prop := ∀ i < s.numFaces, (s.faces i).Settled

theorem forall_update {P : Nat → Face → Prop} {n : Nat} {faces : Nat → Face}
    (h : ∀ k < n, P k (faces k)) (hi : i < n → P i face) :
    ∀ k < n, P k (Function.update faces i face k) := by
  intro k hk
  by_cases hik : k = i
  · subst hik
    rw [Function.update_self]
    exact hi hk
  · rw [Function.update_of_ne hik]
    exact h k hk

/-- A face replaced by one that satisfies `P` exactly when the old one does and `Q` holds. -/
theorem forall_update_iff {P : Face → Prop} {Q : Prop} {n : Nat} {faces : Nat → Face} (hi : i < n)
    (h : P face ↔ P (faces i) ∧ Q) :
    (∀ k < n, P (Function.update faces i face k)) ↔ (∀ k < n, P (faces k)) ∧ Q := by
  constructor
  · intro hall
    have hself := hall i hi
    rw [Function.update_self, h] at hself
    refine ⟨fun k hk => ?_, hself.2⟩
    by_cases hik : k = i
    · exact hik ▸ hself.1
    · have := hall k hk
      rwa [Function.update_of_ne hik] at this
  · rintro ⟨hall, hq⟩
    exact forall_update (P := fun _ => P) hall fun _ => h.2 ⟨hall i hi, hq⟩

theorem accounted_step (hacc : Accounted start s) (h : s.step clocks l = some s') :
    Accounted start s' := by
  obtain ⟨hn, hfaces⟩ := hacc
  rcases step_cases h with ⟨i, raw, -, -, rfl⟩ | ⟨i, now, face, -, -, hface, rfl⟩ |
    ⟨i, face, -, -, hface, rfl⟩ | ⟨now, pushTimes, order, -, hmain⟩
  · exact ⟨hn, forall_update hfaces fun hi => hfaces i hi⟩
  · exact ⟨hn, forall_update hfaces fun hi => (hfaces i hi).process hface⟩
  · exact ⟨hn, forall_update hfaces fun hi => (hfaces i hi).consume hface⟩
  · obtain ⟨hn', hcases⟩ := main_cases hmain
    refine ⟨hn'.trans hn, ?_⟩
    rw [hn']
    rcases hcases with ⟨i, -, -, heq⟩ | ⟨i, -, -, -, heq⟩ | ⟨i, -, -, heq⟩ | ⟨heq, -⟩
    · rw [heq]
      exact forall_update hfaces fun hi => (hfaces i hi).stopConsumer
    · rw [heq]
      exact forall_update hfaces fun hi => (hfaces i hi).flushAll
    · rw [heq]
      exact forall_update hfaces fun hi => (hfaces i hi).flush
    · rw [heq]
      exact hfaces

/-- **A step** keeps the faces settled exactly when it leaves nothing. -/
theorem settled_step (hacc : Accounted start s) (h : s.step clocks l = some s') :
    Settled s' ↔ Settled s ∧ s.LeavesNothing clocks l := by
  obtain ⟨-, hfaces⟩ := hacc
  unfold Settled
  rcases step_cases h with ⟨i, raw, rfl, hi, rfl⟩ | ⟨i, now, face, rfl, hi, hface, rfl⟩ |
    ⟨i, face, rfl, hi, hface, rfl⟩ | ⟨now, pushTimes, order, rfl, hmain⟩
  · exact forall_update_iff hi (and_iff_left trivial).symm
  · exact forall_update_iff hi ((hfaces i hi).settled_process hface)
  · exact forall_update_iff hi ((hfaces i hi).settled_consume hface)
  · obtain ⟨hn, hcases⟩ := main_cases hmain
    rw [hn]
    unfold LeavesNothing
    rcases hcases with ⟨i, hpc, hi, heq⟩ | ⟨i, hpc, hi, hthrows, heq⟩ | ⟨i, hpc, hi, heq⟩ |
      ⟨heq, hleaves⟩
    · rw [hpc, heq]
      exact forall_update_iff hi (Face.settled_stopConsumer.trans (and_iff_left trivial).symm)
    · rw [hpc, heq]
      simp only
      rw [imp_iff_right hi, imp_iff_right hthrows]
      exact forall_update_iff hi ((hfaces i hi).settled_flushAll hthrows pushTimes order)
    · rw [hpc, heq]
      simp only
      rw [imp_iff_right hi]
      exact forall_update_iff hi ((hfaces i hi).settled_flush pushTimes)
    · rw [heq]
      exact (and_iff_left hleaves).symm

/-! ## The threads that have ended -/

/-- The number of faces whose worker has been joined. -/
def consumersJoined (s : ShutdownState) : Nat :=
  match s.pc with
  | .entry | .exited | .thrown => 0
  | .stopConsumer i | .joinConsumer i => i
  | _ => s.numFaces

/-- The number of faces whose processing thread has been joined. -/
def processingJoined (s : ShutdownState) : Nat :=
  match s.pc with
  | .joinProcessing i => i
  | .stopPcap | .flushAll _ | .flush _ | .flushDelivery | .stopMetrics | .returned => s.numFaces
  | _ => 0

/-- The worker of a face has ended, if it has one. -/
def ConsumerDone (s : ShutdownState) (i : Nat) : Prop :=
  ∀ path ∈ (s.faces i).rawBlock, path.consumer.pc = .done

/-- What has been joined has ended; a worker that was told to stop is waited for. -/
structure Joined (s : ShutdownState) : Prop where
  consumers : ∀ i < s.numFaces, i < s.consumersJoined → s.ConsumerDone i
  processing : ∀ i < s.numFaces, i < s.processingJoined → (s.faces i).processing = .done
  waited : ∀ i < s.numFaces, ∀ path ∈ (s.faces i).rawBlock, path.consumer.running = false →
    path.consumer.pc = .done ∨ s.pc = .joinConsumer i
  stopped : s.pc = .entry → s.started = false → ∀ i < s.numFaces,
    s.ConsumerDone i ∧ (s.faces i).processing = .done

theorem ConsumerDone.keeps (h : s.ConsumerDone i) (hkeeps : (s.faces i).Keeps (s'.faces i)) :
    s'.ConsumerDone i := by
  intro path' hpath'
  obtain ⟨path, hpath, -, hpc⟩ := hkeeps.consumer path' hpath'
  exact hpc (h path hpath)

/-- A step that keeps the faces, at the same place of `app_shutdown` or one with no more joins. -/
theorem Joined.keeps (h : Joined s) (hn : s'.numFaces = s.numFaces)
    (hkeeps : ∀ i < s.numFaces, (s.faces i).Keeps (s'.faces i))
    (hconsumers : s'.consumersJoined ≤ s.consumersJoined)
    (hprocessing : s'.processingJoined ≤ s.processingJoined)
    (hwaits : ∀ i, s.pc = .joinConsumer i → s'.pc = .joinConsumer i)
    (hentry : s'.pc = .entry → s.pc = .entry ∧ s'.started = s.started) : Joined s' := by
  constructor
  · intro i hi hlt
    rw [hn] at hi
    exact (h.consumers i hi (Nat.lt_of_lt_of_le hlt hconsumers)).keeps (hkeeps i hi)
  · intro i hi hlt
    rw [hn] at hi
    exact (hkeeps i hi).processing (h.processing i hi (Nat.lt_of_lt_of_le hlt hprocessing))
  · intro i hi path' hpath' hrun
    rw [hn] at hi
    obtain ⟨path, hpath, hrun', hpc⟩ := (hkeeps i hi).consumer path' hpath'
    exact (h.waited i hi path hpath (hrun'.symm.trans hrun)).imp hpc (hwaits i)
  · intro hpc hstarted i hi
    rw [hn] at hi
    obtain ⟨hpc', hst⟩ := hentry hpc
    obtain ⟨hdone, hproc⟩ := h.stopped hpc' (hst.symm.trans hstarted) i hi
    exact ⟨hdone.keeps (hkeeps i hi), (hkeeps i hi).processing hproc⟩

theorem Joined.setFace (h : Joined s) (hkeeps : (s.faces i).Keeps face) :
    Joined (s.setFace i face) := by
  refine h.keeps rfl (fun k _ => ?_) (Nat.le_refl _) (Nat.le_refl _) (fun _ => id)
    fun hpc => ⟨hpc, rfl⟩
  have hself : ∀ j < k + 1, (s.faces j).Keeps (s.faces j) := fun _ _ => .of_rawBlock rfl id
  exact forall_update hself (fun _ => hkeeps) k (Nat.lt_succ_self k)

/-- The main thread goes on to a place where the joined threads have ended. -/
theorem Joined.goto (h : Joined s) {t : ShutdownState} (hfaces : t.faces = s.faces)
    (hn : t.numFaces = s.numFaces) (hentry : t.pc ≠ .entry)
    (hwaits : ∀ i, s.pc = .joinConsumer i → s.ConsumerDone i)
    (hconsumers : ∀ i < s.numFaces, i < t.consumersJoined → s.ConsumerDone i)
    (hprocessing : ∀ i < s.numFaces, i < t.processingJoined → (s.faces i).processing = .done) :
    Joined t := by
  constructor
  · rw [hn]
    intro i hi hlt
    unfold ConsumerDone
    rw [hfaces]
    exact hconsumers i hi hlt
  · rw [hn, hfaces]
    exact hprocessing
  · rw [hn, hfaces]
    intro i hi path hpath hrun
    refine .inl ?_
    rcases h.waited i hi path hpath hrun with hdone | hpc
    · exact hdone
    · exact hwaits i hpc path hpath
  · exact fun hpc => absurd hpc hentry

/-- `enforce_shutdown_timeout` before such a place. -/
theorem Joined.enforce (h : Joined s) {t : ShutdownState} {next : ShutdownPc}
    (hfaces : t.faces = s.faces) (hn : t.numFaces = s.numFaces) (hentry : next ≠ .entry)
    (hwaits : ∀ i, s.pc ≠ .joinConsumer i)
    (hconsumers : { t with pc := next }.consumersJoined ≤ s.consumersJoined)
    (hprocessing : { t with pc := next }.processingJoined ≤ s.processingJoined) :
    Joined (t.enforce now next) := by
  unfold ShutdownState.enforce
  have hwaits' : ∀ i, s.pc = .joinConsumer i → s.ConsumerDone i := fun i hi => absurd hi (hwaits i)
  split
  · exact h.goto hfaces hn nofun hwaits' (fun _ _ hlt => absurd hlt (Nat.not_lt_zero _))
      fun _ _ hlt => absurd hlt (Nat.not_lt_zero _)
  · exact h.goto hfaces hn hentry hwaits'
      (fun i hi hlt => h.consumers i hi (Nat.lt_of_lt_of_le hlt hconsumers))
      fun i hi hlt => h.processing i hi (Nat.lt_of_lt_of_le hlt hprocessing)

theorem Joined.flushed (h : Joined s) (hkeeps : (s.faces i).Keeps face) {pc : ShutdownPc}
    (hentry : pc ≠ .entry) (hwaits : ∀ i, s.pc ≠ .joinConsumer i)
    (hconsumers : { s with pc }.consumersJoined ≤ s.consumersJoined)
    (hprocessing : { s with pc }.processingJoined ≤ s.processingJoined) :
    Joined { s.setFace i face with pc } := by
  refine (h.setFace hkeeps).goto rfl rfl hentry (fun i hi => absurd hi (hwaits i)) ?_ ?_
  · exact fun i hi hlt => (h.setFace hkeeps).consumers i hi (Nat.lt_of_lt_of_le hlt hconsumers)
  · exact fun i hi hlt => (h.setFace hkeeps).processing i hi (Nat.lt_of_lt_of_le hlt hprocessing)

/-- A worker that is told to stop is waited for. -/
theorem Joined.stopConsumer (h : Joined s) (hpc : s.pc = .stopConsumer i) :
    Joined { s.setFace i (s.faces i).stopConsumer with pc := .joinConsumer i } := by
  have hcount : s.consumersJoined = i := by rw [consumersJoined, hpc]
  constructor
  · have hdone : ∀ k < s.numFaces, k < i → ∀ path ∈ (s.faces k).rawBlock,
        path.consumer.pc = .done := fun k hk hlt => h.consumers k hk (hcount.symm ▸ hlt)
    refine forall_update (P := fun k f => k < i → ∀ path ∈ f.rawBlock, path.consumer.pc = .done)
      hdone fun _ hlt => absurd hlt (Nat.lt_irrefl i)
  · exact fun _ _ hlt => absurd hlt (Nat.not_lt_zero _)
  · refine forall_update (P := fun k f => ∀ path ∈ f.rawBlock, path.consumer.running = false →
      path.consumer.pc = .done ∨ ShutdownPc.joinConsumer i = .joinConsumer k) ?_
      fun _ _ _ _ => .inr rfl
    intro k hk path hpath hrun
    refine .inl ((h.waited k hk path hpath hrun).resolve_right ?_)
    rw [hpc]
    exact nofun
  · exact nofun

/-- **The main thread** goes past a join only when the thread has ended. -/
theorem joined_main (h : Joined s) (hmain : s.main clocks now pushTimes order = some s') :
    Joined s' := by
  unfold main at hmain
  cases hpc : s.pc with
  | entry =>
    have hwaits : ∀ k, s.pc = .joinConsumer k → s.ConsumerDone k := by simp [hpc]
    rw [hpc] at hmain
    simp only at hmain
    split at hmain
    case isTrue =>
      obtain rfl := Option.some.inj hmain
      exact h.goto rfl rfl nofun hwaits (fun _ _ hlt => absurd hlt (Nat.not_lt_zero _))
        fun _ _ hlt => absurd hlt (Nat.not_lt_zero _)
    case isFalse hstarted =>
      obtain rfl := Option.some.inj hmain
      have hstopped := h.stopped hpc (Bool.not_eq_true _ ▸ hstarted)
      exact h.goto rfl rfl nofun hwaits (fun i hi _ => (hstopped i hi).1)
        fun i hi _ => (hstopped i hi).2
  | stopConsumer i =>
    have hcount : s.consumersJoined = i := by rw [consumersJoined, hpc]
    rw [hpc] at hmain
    simp only at hmain
    split at hmain
    case isTrue hi =>
      split at hmain
      case isTrue =>
        obtain rfl := Option.some.inj hmain
        exact h.stopConsumer hpc
      case isFalse hrun =>
        obtain rfl := Option.some.inj hmain
        refine h.goto rfl rfl nofun (by simp [hpc]) (fun k hk hlt => ?_)
          fun _ _ hlt => absurd hlt (Nat.not_lt_zero _)
        rcases Nat.lt_succ_iff_lt_or_eq.1 hlt with hlt | rfl
        · exact h.consumers k hk (hcount.symm ▸ hlt)
        · intro path hpath
          rw [Option.mem_def.1 hpath, Option.any_some, Bool.not_eq_true] at hrun
          refine (h.waited k hk path hpath hrun).resolve_right ?_
          rw [hpc]
          exact nofun
    case isFalse hi =>
      obtain rfl := Option.some.inj hmain
      refine h.enforce rfl rfl nofun (by simp [hpc]) ?_ (Nat.zero_le _)
      rw [hcount]
      exact Nat.not_lt.1 hi
  | joinConsumer i =>
    rw [hpc] at hmain
    obtain ⟨hall, heq⟩ := Option.ite_none_right_eq_some.1 hmain
    obtain rfl := Option.some.inj heq
    have hdone : s.ConsumerDone i := by
      intro path hpath
      rw [Option.mem_def.1 hpath, Option.all_some] at hall
      exact of_decide_eq_true hall
    refine h.goto rfl rfl nofun ?_ (fun k hk hlt => ?_)
      fun _ _ hlt => absurd hlt (Nat.not_lt_zero _)
    · intro k hk
      obtain rfl := ShutdownPc.joinConsumer.inj (hpc.symm.trans hk)
      exact hdone
    · rcases Nat.lt_succ_iff_lt_or_eq.1 hlt with hlt | rfl
      · refine h.consumers k hk ?_
        rw [consumersJoined, hpc]
        exact hlt
      · exact hdone
  | joinProcessing i =>
    rw [hpc] at hmain
    simp only at hmain
    split at hmain
    case isTrue hi =>
      split at hmain
      case h_1 hdone =>
        obtain rfl := Option.some.inj hmain
        refine h.goto rfl rfl nofun (by simp [hpc]) (fun k hk hlt => ?_) fun k hk hlt => ?_
        · refine h.consumers k hk ?_
          rw [consumersJoined, hpc]
          exact hk
        · rcases Nat.lt_succ_iff_lt_or_eq.1 hlt with hlt | rfl
          · refine h.processing k hk ?_
            rw [processingJoined, hpc]
            exact hlt
          · exact hdone
      case h_2 => cases hmain
    case isFalse hi =>
      obtain rfl := Option.some.inj hmain
      refine h.enforce rfl rfl nofun (by simp [hpc]) ?_ ?_
      · simp [consumersJoined, hpc]
      · simpa [processingJoined, hpc] using hi
  | flushAll i =>
    rw [hpc] at hmain
    simp only at hmain
    split at hmain
    · split at hmain
      · obtain rfl := Option.some.inj hmain
        exact h.goto rfl rfl nofun (by simp [hpc]) (fun _ _ hlt => absurd hlt (Nat.not_lt_zero _))
          fun _ _ hlt => absurd hlt (Nat.not_lt_zero _)
      · obtain rfl := Option.some.inj hmain
        exact h.flushed (Face.keeps_flushAll _ _) nofun (by simp [hpc])
          (by simp [consumersJoined, hpc]) (by simp [processingJoined, hpc])
    · obtain rfl := Option.some.inj hmain
      exact h.enforce rfl rfl nofun (by simp [hpc]) (by simp [consumersJoined, hpc])
        (by simp [processingJoined, hpc])
  | flush i =>
    rw [hpc] at hmain
    simp only at hmain
    split at hmain
    · obtain rfl := Option.some.inj hmain
      exact h.flushed (Face.keeps_flush _) nofun (by simp [hpc])
        (by simp [consumersJoined, hpc]) (by simp [processingJoined, hpc])
    · obtain rfl := Option.some.inj hmain
      exact h.enforce rfl rfl nofun (by simp [hpc]) (by simp [consumersJoined, hpc])
        (by simp [processingJoined, hpc])
  | stopProcessing =>
    rw [hpc] at hmain
    obtain rfl := Option.some.inj hmain
    refine h.goto rfl rfl nofun (by simp [hpc]) (fun k hk hlt => h.consumers k hk ?_)
      fun _ _ hlt => absurd hlt (Nat.not_lt_zero _)
    rw [consumersJoined, hpc]
    exact hk
  | stopReceiver | stopPcap | flushDelivery =>
    rw [hpc] at hmain
    obtain rfl := Option.some.inj hmain
    exact h.enforce rfl rfl nofun (by simp [hpc]) (by simp [consumersJoined, hpc])
      (by simp [processingJoined, hpc])
  | stopMetrics =>
    rw [hpc] at hmain
    obtain rfl := Option.some.inj hmain
    have hstage : Joined ({ s with started := false }.enforce now .returned) :=
      h.enforce rfl rfl nofun (by simp [hpc]) (by simp [consumersJoined, hpc])
        (by simp [processingJoined, hpc])
    exact hstage
  | returned | exited | thrown =>
    rw [hpc] at hmain
    cases hmain

theorem joined_step (h : Joined s) (hacc : Accounted start s) (hstep : s.step clocks l = some s') :
    Joined s' := by
  rcases step_cases hstep with ⟨i, raw, -, hi, rfl⟩ | ⟨i, now, face, -, hi, hface, rfl⟩ |
    ⟨i, face, -, hi, hface, rfl⟩ | ⟨now, pushTimes, order, -, hmain⟩
  · exact h.setFace (.of_rawBlock rfl id)
  · exact h.setFace (Face.keeps_process hface)
  · exact h.setFace (Face.keeps_consume (hacc.2 i hi) hface)
  · exact joined_main h hmain

/-! ## Runs -/

theorem AtEntry.accounted (h : AtEntry s) : Accounted s s := by
  refine ⟨rfl, fun i hi => ?_⟩
  have hpaths := h.paths i hi
  unfold Face.Accounted
  revert hpaths
  cases (s.faces i).rawBlock with
  | none => exact fun _ => .none
  | some path =>
    intro hpaths
    obtain ⟨hpushed, hprocessed, hwait, -⟩ := hpaths path rfl
    exact .some (.refl hpushed hprocessed hwait)

theorem AtEntry.joined (h : AtEntry s) : Joined s := by
  constructor
  · rw [consumersJoined, h.pc]
    exact fun _ _ hlt => absurd hlt (Nat.not_lt_zero _)
  · rw [processingJoined, h.pc]
    exact fun _ _ hlt => absurd hlt (Nat.not_lt_zero _)
  · intro i hi path hpath hrun
    exact .inl ((h.paths i hi path hpath).2.2.2 hrun)
  · intro _ hstarted i hi
    obtain ⟨hprocessing, hconsumer⟩ := h.stopped hstarted i hi
    exact ⟨hconsumer, hprocessing⟩

/-- **A run**: the account and the joins hold, and the faces are settled exactly when they were at
the call and every step left nothing. -/
theorem run_settled (h : AtEntry s) {ls : List ShutdownLabel}
    (hrun : Machine.exec (step clocks) s ls = some s') :
    (Accounted s s' ∧ Joined s') ∧
      (Settled s' ↔ Settled s ∧ Machine.Along (step clocks) (LeavesNothing clocks) s ls) := by
  refine Machine.exec_along_iff (I := fun t => Accounted s t ∧ Joined t) ?_ ?_
    ⟨h.accounted, h.joined⟩ hrun
  · exact fun t l t' hI hstep => ⟨accounted_step hI.1 hstep, joined_step hI.2 hI.1 hstep⟩
  · exact fun t l t' hI hstep => settled_step hI.1 hstep

theorem returned_lost_iff (hacc : Accounted start s) (hjoined : Joined s) (hpc : s.pc = .returned) :
    (∀ i < start.numFaces, (start.faces i).LosesNothing (s.faces i)) ↔ Settled s := by
  obtain ⟨hn, hfaces⟩ := hacc
  unfold Settled
  rw [← hn]
  refine forall₂_congr fun i hi => ?_
  refine Face.losesNothing_iff (hfaces i hi) (hjoined.processing i hi ?_)
    (hjoined.consumers i hi ?_)
  · rw [processingJoined, hpc]
    exact hi
  · rw [consumersJoined, hpc]
    exact hi

end

/-- **When `app_shutdown` returns**, every RawBlock that was in a queue at the call or was pushed
since has been processed or is counted as dropped exactly when no block waited behind an ended
worker at the call and every step left nothing. -/
theorem shutdown_loses_nothing_iff (clocks : Nat → FaceClocks) {s s' : ShutdownState}
    {ls : List ShutdownLabel} (hentry : s.AtEntry)
    (hrun : Machine.exec (step clocks) s ls = some s') (hpc : s'.pc = .returned) :
    (∀ i < s.numFaces, (s.faces i).LosesNothing (s'.faces i)) ↔
      s.Settled ∧ Machine.Along (step clocks) (LeavesNothing clocks) s ls := by
  obtain ⟨⟨hacc, hjoined⟩, hiff⟩ := run_settled hentry hrun
  exact (returned_lost_iff hacc hjoined hpc).trans hiff

/-- One idle face, its consumer at work on the queue. -/
def oneFace (queue : RawBlockQueue) : ShutdownState where
  started := true
  numFaces := 1
  faces := fun _ =>
    { arrayId := 1
      rxStage := .new 1 0
      reassembler := .new {}
      reorderer := .new {} 0
      processing := .check
      rawBlock := some
        { queue
          consumer := { running := true, pc := .check, stats := {}, processed := [] }
          pushed := [] } }
  receiving := true
  processingRunning := true
  deadline := 0
  pc := .entry

theorem oneFace_entry {queue : RawBlockQueue} {xs : List RawBlock} (h : Waiting queue xs) :
    (oneFace queue).AtEntry := by
  refine ⟨rfl, fun i _ path hpath => ?_, nofun⟩
  obtain rfl := Option.some.inj hpath
  exact ⟨rfl, rfl, ⟨xs, h⟩, nofun⟩

/-- A step of the main thread at time 0. -/
def mainAct : ShutdownLabel := .main 0 (fun _ => 0) ⟨id, List.Perm.refl⟩

/-- `app_shutdown` with one face: the worker ends at once, and the processing thread finds
nothing. -/
def quickShutdown : List ShutdownLabel :=
  [mainAct, mainAct, .consume 0] ++ List.replicate 4 mainAct ++
    [.process 0 0, .process 0 0] ++ List.replicate 9 mainAct

theorem quickShutdown_returns (clocks : Nat → FaceClocks) (queue : RawBlockQueue) : ∃ s',
    Machine.exec (step clocks) (oneFace queue) quickShutdown = some s' ∧ s'.pc = .returned := by
  have hpc : (Machine.exec (step clocks) (oneFace queue) quickShutdown).map (·.pc) =
      some .returned := rfl
  obtain ⟨s', hrun, hret⟩ := Option.map_eq_some_iff.1 hpc
  exact ⟨s', hrun, hret⟩

/-- Clocks that stand still. -/
def stoppedClocks (_ : Nat) : FaceClocks := ⟨fun _ => 0, fun _ => 0⟩

/-- The shutdown of a face with an empty queue. -/
theorem quickShutdown_iff : ∃ s',
    Machine.exec (step stoppedClocks) (oneFace (.new fun _ => none)) quickShutdown = some s' ∧
      ((∀ i < 1, ((oneFace (.new fun _ => none)).faces i).LosesNothing (s'.faces i)) ↔
        (oneFace (.new fun _ => none)).Settled ∧ Machine.Along (step stoppedClocks)
          (LeavesNothing stoppedClocks) (oneFace (.new fun _ => none)) quickShutdown) := by
  obtain ⟨s', hrun, hret⟩ := quickShutdown_returns stoppedClocks (.new fun _ => none)
  exact ⟨s', hrun, shutdown_loses_nothing_iff stoppedClocks (oneFace_entry waiting_new) hrun hret⟩

/-- A queue with one block. -/
def oneBlock : RawBlockQueue :=
  (adaptAndPush 1 0 (.new fun _ => none) (Reorderer.createZeroFilledPacket 0)).1

theorem oneBlock_waiting : ∃ xs, Waiting oneBlock xs ∧ xs ≠ [] := by
  obtain ⟨dropped, kept, -, hkept, -⟩ :=
    waiting_new.adaptAndPush 1 0 (Reorderer.createZeroFilledPacket 0)
  exact ⟨_, hkept, List.append_ne_nil_of_right_ne_nil _ (List.cons_ne_nil _ _)⟩

/-- **A block in the queue when the consumer is stopped** is neither processed nor counted. -/
theorem leftover_lost : (oneFace oneBlock).AtEntry ∧ ∃ s',
    Machine.exec (step stoppedClocks) (oneFace oneBlock) quickShutdown = some s' ∧
      s'.pc = .returned ∧ ¬ ((oneFace oneBlock).faces 0).LosesNothing (s'.faces 0) := by
  obtain ⟨xs, hxs, hne⟩ := oneBlock_waiting
  have hentry := oneFace_entry hxs
  obtain ⟨s', hrun, hret⟩ := quickShutdown_returns stoppedClocks oneBlock
  refine ⟨hentry, s', hrun, hret, fun hnothing => ?_⟩
  obtain ⟨⟨hacc, hjoined⟩, hiff⟩ := run_settled hentry hrun
  have hall : ∀ i < 1, ((oneFace oneBlock).faces i).LosesNothing (s'.faces i) := by
    intro i hi
    obtain rfl := Nat.lt_one_iff.1 hi
    exact hnothing
  obtain ⟨-, halong⟩ := hiff.1 ((returned_lost_iff hacc hjoined hret).1 hall)
  -- the third step ends the worker
  have hclear := ((halong.2 _ rfl).2 _ rfl).1 ⟨_, rfl, rfl, rfl⟩ _ rfl
  exact hne (hxs.blocks.symm.trans hclear.1)

end ShutdownState

end Qdgz300.App
