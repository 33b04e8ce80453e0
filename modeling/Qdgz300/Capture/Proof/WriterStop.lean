import Qdgz300.Capture.WriterThreads

/-!
# Stopping the capture writer

`stop` clears the flag and notifies without the mutex. A notification that falls between the
writer's test of the wait predicate and its going to sleep wakes nobody (`lost_wakeup`): the writer
sleeps with the flag cleared while `stop` waits for it to end. `stop_does_not_hang`: in every run in
which `stop` does not notify in that window there is no such state.
-/

namespace Qdgz300.Capture.Threads

variable {ι P : Type} [DecidableEq ι] [DecidableEq P]

namespace PcapThreads

variable {s s' : PcapThreads ι P} {l : Label ι P}

/-- A producer will still notify. -/
def NotificationToCome (s : PcapThreads ι P) : Prop :=
  ∃ i, s.producers i = .notifying ∨ ∃ packet, s.producers i = .pushing packet

/-- `stop` is in `join`, the writer sleeps, and nothing will wake it. -/
def Hang (s : PcapThreads ι P) : Prop :=
  s.control = .join ∧ s.writer = .blocked ∧ s.accepting = false ∧ ¬ s.NotificationToCome

/-- `notify_all` is not sent between the writer's test and its sleep. -/
def NotInWindow (s : PcapThreads ι P) : Label ι P → Prop
  | .stopNotify => s.writer ≠ .blocking
  | _ => True

instance (s : PcapThreads ι P) : ∀ l, Decidable (s.NotInWindow l)
  | .stopNotify => inferInstanceAs (Decidable (s.writer ≠ .blocking))
  | .start | .stopStore | .stopJoin | .stopSeal | .enter .. | .lock _ | .check _ | .push _
  | .notifyOne _ | .writerLock | .writerTest | .writerBlock | .writerTake | .writerWrite _
  | .spuriousWake => .isTrue trivial

/-- While `stop` runs the flag is cleared. -/
def Cleared (s : PcapThreads ι P) : Prop := s.control ≠ .idle → s.accepting = false

/-- Once `stop` has notified, the writer neither sleeps nor is about to. -/
def Awake (s : PcapThreads ι P) : Prop :=
  s.control = .join → s.writer ≠ .blocking ∧ s.writer ≠ .blocked

/-! ## What a step can do -/

omit [DecidableEq ι] in
@[simp] theorem wake_control (s : PcapThreads ι P) : s.wake.control = s.control := by
  unfold wake
  split <;> rfl

omit [DecidableEq ι] in
@[simp] theorem wake_accepting (s : PcapThreads ι P) : s.wake.accepting = s.accepting := by
  unfold wake
  split <;> rfl

omit [DecidableEq ι] in
theorem wake_writer (s : PcapThreads ι P) :
    s.wake.writer = if s.writer = .blocked then .woken else s.writer := by
  unfold wake
  split <;> rfl

/-- What a step does to the controlling thread, the flag and the writer. -/
inductive Effect (s s' : PcapThreads ι P) : Label ι P → Prop where
  | started (hcontrol : s'.control = .idle) : Effect s s' .start
  | stored (hcontrol : s'.control = .notify) (hclear : s'.accepting = false) :
      Effect s s' .stopStore
  | notified (hcontrol : s.control = .notify) (hcontrol' : s'.control = .join)
      (hflag : s'.accepting = s.accepting)
      (hwriter : s'.writer = if s.writer = .blocked then .woken else s.writer) :
      Effect s s' .stopNotify
  | joined (hcontrol : s.control = .join) (hcontrol' : s'.control = .seal)
      (hflag : s'.accepting = s.accepting) : Effect s s' .stopJoin
  | sealed (hcontrol' : s'.control = .idle) : Effect s s' .stopSeal
  | other {l : Label ι P} (hcontrol : s'.control = s.control) (hflag : s'.accepting = s.accepting)
      (hwriter : s'.writer = s.writer ∨ s'.writer ≠ .blocking ∧ s'.writer ≠ .blocked ∨
        s.writer = .test ∧ s.predicate = false ∨ s.writer = .blocking ∧ s'.writer = .blocked) :
      Effect s s' l

theorem step_effect (h : s.step l = some s') : Effect s s' l := by
  unfold step at h
  cases l with
  | start =>
    obtain ⟨hguard, hs⟩ := Option.ite_none_right_eq_some.1 h
    obtain rfl := Option.some.inj hs
    exact .started hguard.1
  | stopStore =>
    obtain ⟨hguard, hs⟩ := Option.ite_none_right_eq_some.1 h
    obtain rfl := Option.some.inj hs
    exact .stored rfl rfl
  | stopNotify =>
    obtain ⟨hguard, hs⟩ := Option.ite_none_right_eq_some.1 h
    obtain rfl := Option.some.inj hs
    exact .notified hguard rfl (wake_accepting s) (wake_writer s)
  | stopJoin =>
    obtain ⟨hguard, hs⟩ := Option.ite_none_right_eq_some.1 h
    obtain rfl := Option.some.inj hs
    exact .joined hguard.1 rfl rfl
  | stopSeal =>
    obtain ⟨hguard, hs⟩ := Option.ite_none_right_eq_some.1 h
    obtain rfl := Option.some.inj hs
    exact .sealed rfl
  | enter i packet =>
    obtain ⟨hguard, hs⟩ := Option.ite_none_right_eq_some.1 h
    obtain rfl := Option.some.inj hs
    exact .other rfl rfl (.inl rfl)
  | lock i =>
    simp only at h
    split at h
    case h_1 =>
      obtain ⟨hguard, hs⟩ := Option.ite_none_right_eq_some.1 h
      obtain rfl := Option.some.inj hs
      exact .other rfl rfl (.inl rfl)
    case h_2 => cases h
  | check i =>
    simp only at h
    split at h
    case h_1 =>
      split at h
      · obtain rfl := Option.some.inj h
        exact .other rfl rfl (.inl rfl)
      · obtain rfl := Option.some.inj h
        exact .other rfl rfl (.inl rfl)
    case h_2 => cases h
  | push i =>
    simp only at h
    split at h
    case h_1 =>
      obtain rfl := Option.some.inj h
      exact .other rfl rfl (.inl rfl)
    case h_2 => cases h
  | notifyOne i =>
    obtain ⟨hguard, hs⟩ := Option.ite_none_right_eq_some.1 h
    obtain rfl := Option.some.inj hs
    refine .other (wake_control s) (wake_accepting s) ?_
    have hw : (s.wake.setProducer i .out).writer = _ := wake_writer s
    rw [hw]
    split
    · exact .inr (.inl ⟨nofun, nofun⟩)
    · exact .inl rfl
  | writerLock =>
    obtain ⟨hguard, hs⟩ := Option.ite_none_right_eq_some.1 h
    obtain rfl := Option.some.inj hs
    exact .other rfl rfl (.inr (.inl ⟨nofun, nofun⟩))
  | writerTest =>
    obtain ⟨hguard, hs⟩ := Option.ite_none_right_eq_some.1 h
    obtain rfl := Option.some.inj hs
    refine .other rfl rfl ?_
    cases hpred : s.predicate with
    | true => exact .inr (.inl ⟨nofun, nofun⟩)
    | false => exact .inr (.inr (.inl ⟨hguard, rfl⟩))
  | writerBlock =>
    obtain ⟨hguard, hs⟩ := Option.ite_none_right_eq_some.1 h
    obtain rfl := Option.some.inj hs
    exact .other rfl rfl (.inr (.inr (.inr ⟨hguard, rfl⟩)))
  | writerTake =>
    obtain ⟨hguard, hs⟩ := Option.ite_none_right_eq_some.1 h
    split at hs
    · split at hs
      · obtain rfl := Option.some.inj hs
        exact .other rfl rfl (.inr (.inl ⟨nofun, nofun⟩))
      · obtain rfl := Option.some.inj hs
        exact .other rfl rfl (.inr (.inl ⟨nofun, nofun⟩))
    · obtain rfl := Option.some.inj hs
      exact .other rfl rfl (.inr (.inl ⟨nofun, nofun⟩))
  | writerWrite fileOpen =>
    simp only at h
    split at h
    case h_1 =>
      obtain ⟨hguard, hs⟩ := Option.ite_none_right_eq_some.1 h
      obtain rfl := Option.some.inj hs
      refine .other rfl rfl (.inr (.inl ?_))
      cases fileOpen
      · exact ⟨nofun, nofun⟩
      · exact ⟨nofun, nofun⟩
    case h_2 => cases h
  | spuriousWake =>
    obtain ⟨hguard, hs⟩ := Option.ite_none_right_eq_some.1 h
    obtain rfl := Option.some.inj hs
    exact .other rfl rfl (.inr (.inl ⟨nofun, nofun⟩))

/-! ## Runs -/

theorem step_cleared (hs : s.Cleared) (h : s.step l = some s') : s'.Cleared := by
  intro hcontrol
  cases step_effect h with
  | started hc => exact absurd hc hcontrol
  | stored _ hclear => exact hclear
  | notified hc _ hflag _ =>
    rw [hflag]
    exact hs (by rw [hc]; decide)
  | joined hc _ hflag =>
    rw [hflag]
    exact hs (by rw [hc]; decide)
  | sealed hc => exact absurd hc hcontrol
  | other hc hflag _ =>
    rw [hflag]
    exact hs (by rwa [← hc])

omit [DecidableEq ι] [DecidableEq P] in
theorem predicate_of_cleared (h : s.accepting = false) : s.predicate = true := by
  simp [predicate, h]

theorem step_awake (hcleared : s.Cleared) (hs : s.Awake) (hwindow : s.NotInWindow l)
    (h : s.step l = some s') : s'.Awake := by
  intro hjoin
  cases step_effect h with
  | started hc => rw [hc] at hjoin; cases hjoin
  | stored hc _ => rw [hc] at hjoin; cases hjoin
  | notified _ _ _ hwriter =>
    rw [hwriter]
    split
    · exact ⟨nofun, nofun⟩
    · exact ⟨hwindow, by assumption⟩
  | joined _ hc _ => rw [hc] at hjoin; cases hjoin
  | sealed hc => rw [hc] at hjoin; cases hjoin
  | other hc _ hwriter =>
    rw [hc] at hjoin
    obtain ⟨hblocking, hblocked⟩ := hs hjoin
    rcases hwriter with heq | hnew | ⟨_, hfalse⟩ | ⟨hbefore, _⟩
    · rw [heq]
      exact ⟨hblocking, hblocked⟩
    · exact hnew
    · rw [predicate_of_cleared (hcleared (by rw [hjoin]; decide))] at hfalse
      cases hfalse
    · exact absurd hbefore hblocking

/-- **The lost wakeup**: a notification in the window, and the writer goes to sleep for good. -/
theorem lost_wakeup (hcleared : s.Cleared) (hcontrol : s.control = .notify)
    (hwriter : s.writer = .blocking) (hquiet : ¬ s.NotificationToCome) :
    ∃ s', Machine.exec step s [.stopNotify, .writerBlock] = some s' ∧ s'.Hang := by
  have hwake : s.wake = s := by
    unfold wake
    rw [if_neg (by rw [hwriter]; nofun)]
  have hnotify : s.step .stopNotify = some { s with control := .join } := by
    simp only [step, hcontrol, hwake, if_true]
  have hblock : ({ s with control := .join } : PcapThreads ι P).step .writerBlock =
      some { s with control := .join, writer := .blocked, mutex := none } := by
    simp only [step, hwriter, if_true]
  refine ⟨_, Machine.exec_cons.2 ⟨_, hnotify, Machine.exec_cons.2 ⟨_, hblock, rfl⟩⟩, rfl, rfl, ?_, ?_⟩
  · exact hcleared (by rw [hcontrol]; decide)
  · exact hquiet

omit [DecidableEq P] in
theorem not_notificationToCome_set {i : ι} {pc : ProducerPc P} (h : ¬ s.NotificationToCome)
    (hpc : pc ≠ .notifying ∧ ∀ packet, pc ≠ .pushing packet) :
    ¬ (s.setProducer i pc).NotificationToCome := by
  intro ⟨j, hj⟩
  by_cases hij : j = i
  · subst hij
    simp only [setProducer, Function.update_self] at hj
    rcases hj with hj | ⟨packet, hj⟩
    · exact hpc.1 hj
    · exact hpc.2 packet hj
  · simp only [setProducer, Function.update_of_ne hij] at hj
    exact h ⟨j, hj⟩

/-- **A hang is for good**: but for a spurious wakeup no step ends it. -/
theorem hang_stays (hs : s.Hang) (hl : l ≠ .spuriousWake) (h : s.step l = some s') : s'.Hang := by
  obtain ⟨hcontrol, hwriter, hflag, hquiet⟩ := hs
  unfold step at h
  cases l with
  | spuriousWake => exact absurd rfl hl
  | lock i =>
    simp only at h
    split at h
    case h_1 =>
      obtain ⟨-, hs⟩ := Option.ite_none_right_eq_some.1 h
      obtain rfl := Option.some.inj hs
      exact ⟨hcontrol, hwriter, hflag, not_notificationToCome_set hquiet ⟨nofun, nofun⟩⟩
    case h_2 => cases h
  | check i =>
    simp only [hflag, true_or, if_true] at h
    split at h
    case h_1 =>
      obtain rfl := Option.some.inj h
      exact ⟨hcontrol, hwriter, hflag, not_notificationToCome_set hquiet ⟨nofun, nofun⟩⟩
    case h_2 => cases h
  | push i =>
    simp only at h
    split at h
    case h_1 packet hpc => exact absurd ⟨i, .inr ⟨packet, hpc⟩⟩ hquiet
    case h_2 => cases h
  | notifyOne i =>
    obtain ⟨hpc, -⟩ := Option.ite_none_right_eq_some.1 h
    exact absurd ⟨i, .inl hpc⟩ hquiet
  | _ => simp [hcontrol, hwriter, hflag] at h

/-- **`stop` does not hang** in a run in which it never notifies between the writer's test of the
wait predicate and its going to sleep. From a state where it is about to do so, and no producer will
notify, two steps lead to a hang. -/
theorem stop_does_not_hang {capacity : Nat} {ls : List (Label ι P)}
    (hrun : Machine.exec step ({ pendingQueueCapacity := capacity } : PcapThreads ι P) ls = some s) :
    (Machine.Along step NotInWindow ({ pendingQueueCapacity := capacity } : PcapThreads ι P) ls →
      ¬ s.Hang) ∧
    (s.control = .notify → s.writer = .blocking → ¬ s.NotificationToCome →
      ∃ s', Machine.exec step s [.stopNotify, .writerBlock] = some s' ∧ s'.Hang) := by
  have hinit : Cleared ({ pendingQueueCapacity := capacity } : PcapThreads ι P) :=
    fun hcontrol => absurd rfl hcontrol
  constructor
  · intro hwindow hhang
    have hinv := Machine.exec_inv (I := fun s => s.Cleared ∧ s.Awake)
      (fun _ _ _ hI hC hstep => ⟨step_cleared hI.1 hstep, step_awake hI.1 hI.2 hC hstep⟩)
      ⟨hinit, nofun⟩ hwindow hrun
    exact (hinv.2 hhang.1).2 hhang.2.1
  · have hcleared := Machine.exec_inv (C := fun _ _ => True)
      (fun _ _ _ hI _ hstep => step_cleared hI hstep) hinit
      (Machine.along_of_forall fun _ _ => trivial) hrun
    exact lost_wakeup hcleared

/-- The writer tests the empty queue, `stop` clears the flag and notifies, the writer goes to
sleep. -/
def hangingStop : List (Label Unit Unit) :=
  [.start, .writerLock, .writerTest, .stopStore, .stopNotify, .writerBlock]

/-- The same steps, but the writer is asleep when `stop` notifies. -/
def quietStop : List (Label Unit Unit) :=
  [.start, .writerLock, .writerTest, .writerBlock, .stopStore, .stopNotify, .writerLock, .writerTest,
    .writerTake, .stopJoin, .stopSeal]

theorem quietStop_isSome :
    (Machine.exec step ({ pendingQueueCapacity := 1 } : PcapThreads Unit Unit) quietStop).isSome := by
  decide +kernel

theorem quietStop_along :
    Machine.Along step NotInWindow ({ pendingQueueCapacity := 1 } : PcapThreads Unit Unit)
      quietStop := by
  decide +kernel

theorem quietStop_does_not_hang :
    ∃ s, Machine.exec step ({ pendingQueueCapacity := 1 } : PcapThreads Unit Unit) quietStop =
      some s ∧ ¬ s.Hang := by
  obtain ⟨s, hs⟩ := Option.isSome_iff_exists.1 quietStop_isSome
  exact ⟨s, hs, (stop_does_not_hang hs).1 quietStop_along⟩

theorem hangingStop_state :
    (Machine.exec step ({ pendingQueueCapacity := 1 } : PcapThreads Unit Unit) hangingStop).map
      (fun s => (s.control, s.writer, s.accepting, s.producers ())) =
        some (.join, .blocked, false, .out) := by
  decide +kernel

/-- **A stop that hangs.** -/
theorem hangingStop_hangs :
    ∃ s, Machine.exec step ({ pendingQueueCapacity := 1 } : PcapThreads Unit Unit) hangingStop =
      some s ∧ s.Hang := by
  obtain ⟨s, hs, hstate⟩ := Option.map_eq_some_iff.1 hangingStop_state
  simp only [Prod.mk.injEq] at hstate
  obtain ⟨hcontrol, hwriter, hflag, hout⟩ := hstate
  refine ⟨s, hs, hcontrol, hwriter, hflag, ?_⟩
  intro ⟨i, hi⟩
  rw [show s.producers i = .out from hout] at hi
  simp at hi

end PcapThreads

end Qdgz300.Capture.Threads
