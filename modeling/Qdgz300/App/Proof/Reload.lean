import Qdgz300.App.Proof.LoopMetrics

/-!
# Signals and reloads

No `SIGHUP` is lost, however its handler falls between the accesses of the main loop: the flag is
set exactly as long as a handler has published since the last exchange. A reload that succeeds
reaches every face before the loop goes on, and one that fails changes nothing, so outside a reload
all parts go by the current configuration, which is a valid one. The one exception is a capture
writer that does not start: the writer before it, if there is one, goes on.

* `reload_cases`: what `ConfigManager::reload` leaves.
* `Served`, `Current`: the two invariants.
* **`reload_reaches_all`**: every run.
-/

namespace Qdgz300.Config

/-- **`reload`** takes a valid configuration over and calls every callback with it, or changes
nothing. -/
theorem ConfigManager.reload_cases {N γ : Type} (y : Yaml N) (m : ConfigManager γ) :
    ((m.reload y).result = .ok true ∧ validate (m.reload y).manager.currentConfig = true ∧
        (m.reload y).manager.callbacks = m.callbacks ∧
        (m.reload y).called =
          m.callbacks.map fun callback => (callback, (m.reload y).manager.currentConfig)) ∨
      ((m.reload y).result ≠ .ok true ∧ (m.reload y).manager = m) := by
  unfold reload
  split
  · exact .inr ⟨by simp, rfl⟩
  · unfold loadFromFile
    split
    · exact .inr ⟨by simp, rfl⟩
    · exact .inr ⟨by simp, rfl⟩
    · split
      case isTrue hvalid => exact .inl ⟨rfl, hvalid, rfl, rfl⟩
      case isFalse => exact .inr ⟨by simp, rfl⟩

end Qdgz300.Config

namespace Qdgz300.App

open Protocol Pipeline

/-- The configuration of the writer that runs after `captures` were applied: the last of them that
turned the capture off or whose writer started. -/
def inForce (captures : List (Config.Capture × Bool)) : Option Config.Capture :=
  (captures.reverse.find? fun applied => !applied.1.enabled || applied.2).bind fun applied =>
    if applied.1.enabled then some applied.1 else none

/-- The capture is that of a configuration: the hook goes with the writer, there is none when it is
not asked for, and otherwise it is a writer with this configuration, or the one before when that
writer did not start. -/
structure CaptureOk (captures : List (Config.Capture × Bool)) (capture : CaptureState)
    (cfg : Config.Capture) : Prop where
  hook : capture.captureHook = capture.pcapWriter.isSome
  off : cfg.enabled = false → capture.pcapWriter = none
  on : ∃ earlier starts, captures = earlier ++ [(cfg, starts)] ∧ (cfg.enabled = true →
    capture.pcapWriter = if starts then some cfg else inForce earlier)

theorem inForce_concat (captures : List (Config.Capture × Bool)) (cfg : Config.Capture)
    (starts : Bool) : inForce (captures ++ [(cfg, starts)]) =
      if cfg.enabled then if starts then some cfg else inForce captures else none := by
  cases henabled : cfg.enabled <;> cases starts <;> simp [inForce, henabled]

/-- What is left of the writer and the hook. -/
def Writing (captures : List (Config.Capture × Bool)) (capture : CaptureState) : Prop :=
  capture.captureHook = capture.pcapWriter.isSome ∧ capture.pcapWriter = inForce captures

theorem Writing.apply {captures : List (Config.Capture × Bool)} {capture : CaptureState}
    (h : Writing captures capture) (cfg : Config.Capture) (starts : Bool) :
    Writing (captures ++ [(cfg, starts)]) (applyCaptureRuntimeConfig capture cfg starts) := by
  unfold Writing
  rw [inForce_concat]
  unfold applyCaptureRuntimeConfig
  cases henabled : cfg.enabled with
  | false => exact ⟨rfl, rfl⟩
  | true =>
    cases starts with
    | true => exact ⟨rfl, rfl⟩
    | false => exact h

theorem Writing.captureOk {earlier : List (Config.Capture × Bool)} {capture : CaptureState}
    {cfg : Config.Capture} {starts : Bool} (h : Writing (earlier ++ [(cfg, starts)]) capture) :
    CaptureOk (earlier ++ [(cfg, starts)]) capture cfg := by
  obtain ⟨hhook, hwriter⟩ := h
  rw [inForce_concat] at hwriter
  refine ⟨hhook, fun hoff => ?_, earlier, starts, rfl, fun hon => ?_⟩
  · rw [hwriter, hoff]
    rfl
  · rw [hwriter, hon]
    rfl

namespace MainLoop

/-- Face `i` goes by the timeouts of the current configuration. -/
def Synced (s : MainLoop) (i : Nat) : Prop :=
  timeouts (s.faces i).pipeline =
    (s.config.currentConfig.reassembly.timeoutMs, s.config.currentConfig.reorder.timeoutMs)

/-- Every part goes by the current configuration. -/
structure Applied (s : MainLoop) : Prop where
  logLevel : s.logLevel = parseLogLevel s.config.currentConfig.logging.level
  faces : ∀ i < s.numFaces, s.Synced i
  capture : CaptureOk s.captures s.capture s.config.currentConfig.capture

/-- The main thread is within the callbacks of a reload. -/
def reloading (s : MainLoop) : Bool :=
  match s.pc with
  | .callback (_ :: _) | .apply _ _ _ => true
  | _ => false

/-- What has been applied. -/
def Progress (s : MainLoop) : Prop :=
  match s.pc with
  | .callback (config :: rest) => ∀ c ∈ config :: rest, c = s.config.currentConfig
  | .apply config rest i => (∀ c ∈ config :: rest, c = s.config.currentConfig) ∧
    s.logLevel = parseLogLevel s.config.currentConfig.logging.level ∧
    ∀ k < s.numFaces, k < i → s.Synced k
  | _ => s.Applied

/-- The configuration in force. -/
structure Current (s : MainLoop) : Prop where
  callbacks : s.config.callbacks = [()]
  valid : Config.validate s.config.currentConfig = true
  writing : Writing s.captures s.capture
  progress : s.Progress

/-- The signals that were served. -/
structure Served (s : MainLoop) : Prop where
  flag : s.flags.reloadRequested = true ↔ s.taken < s.flags.published .sighup
  taken : s.taken ≤ s.flags.published .sighup
  attempts : s.attempts ≤ s.taken
  handlers : ∀ signal, s.flags.received signal = s.flags.published signal + s.handlers.count signal
  stop : s.flags.running = false ↔ 0 < s.flags.published .sigint + s.flags.published .sigterm
  returned : s.pc = .returned → s.flags.running = false

section
variable {N : Type} {clocks : Nat → FaceClocks} {s s' : MainLoop} {l : LoopLabel N} {i : Nat}
  {env : LoopEnv N}

/-! ## The signals -/

theorem served_start (config : Config.ConfigManager Unit) (created : Nat → Int) (starts : Bool)
    (numFaces : Nat) : Served (start config created starts numFaces) where
  flag := by simp [start]
  taken := Nat.le_refl _
  attempts := Nat.le_refl _
  handlers := fun signal => by simp [start]
  stop := by simp [start]
  returned := by simp [start]

theorem Served.frame (h : Served s) {t : MainLoop} (hflags : t.flags = s.flags)
    (hhandlers : t.handlers = s.handlers) (htaken : t.taken = s.taken)
    (hattempts : t.attempts = s.attempts)
    (hpc : t.pc = .returned → s.flags.running = false) : Served t where
  flag := by rw [hflags, htaken]; exact h.flag
  taken := by rw [hflags, htaken]; exact h.taken
  attempts := by rw [hattempts, htaken]; exact h.attempts
  handlers := by rw [hflags, hhandlers]; exact h.handlers
  stop := by rw [hflags]; exact h.stop
  returned := by rw [hflags]; exact hpc

/-- A handler's first access. -/
theorem Served.count (h : Served s) (signal : Signal) : Served
    { s with flags := s.flags.count signal, handlers := s.handlers ++ [signal] } where
  flag := h.flag
  taken := h.taken
  attempts := h.attempts
  handlers := fun other => by
    have hother := h.handlers other
    by_cases ho : other = signal
    · subst ho
      simp [SignalFlags.count, hother]
      omega
    · have hne : signal ≠ other := Ne.symm ho
      simp [SignalFlags.count, Function.update_of_ne ho, hother, hne]
  stop := h.stop
  returned := h.returned

theorem count_eraseIdx {k : Nat} {signal : Signal} {handlers : List Signal}
    (hk : handlers[k]? = some signal) (other : Signal) :
    handlers.count other = (handlers.eraseIdx k).count other + if signal = other then 1 else 0 := by
  obtain ⟨hlt, rfl⟩ := List.getElem?_eq_some_iff.1 hk
  rw [(List.getElem_cons_eraseIdx_perm hlt).symm.count_eq, List.count_cons]
  simp

/-- A handler's second access. -/
theorem Served.publish (h : Served s) {k : Nat} {signal : Signal}
    (hk : s.handlers[k]? = some signal) :
    Served { s with flags := s.flags.publish signal, handlers := s.handlers.eraseIdx k } := by
  have hhandlers : ∀ other, s.flags.received other =
      Function.update s.flags.published signal (s.flags.published signal + 1) other +
        (s.handlers.eraseIdx k).count other := by
    intro other
    have hcount := count_eraseIdx hk other
    rw [h.handlers other]
    by_cases ho : other = signal
    · subst ho
      rw [if_pos rfl] at hcount
      rw [Function.update_self]
      omega
    · rw [if_neg (Ne.symm ho)] at hcount
      rw [Function.update_of_ne ho]
      omega
  have hflag := h.flag
  have htaken := h.taken
  have hstop := h.stop
  cases signal with
  | sighup =>
    refine ⟨?_, ?_, h.attempts, hhandlers, ?_, h.returned⟩
    · simp [SignalFlags.publish]
      omega
    · simp [SignalFlags.publish]
      omega
    · simpa [SignalFlags.publish] using hstop
  | sigint =>
    refine ⟨?_, ?_, h.attempts, hhandlers, ?_, fun _ => rfl⟩
    · simpa [SignalFlags.publish] using hflag
    · simpa [SignalFlags.publish] using htaken
    · simp [SignalFlags.publish]
  | sigterm =>
    refine ⟨?_, ?_, h.attempts, hhandlers, ?_, fun _ => rfl⟩
    · simpa [SignalFlags.publish] using hflag
    · simpa [SignalFlags.publish] using htaken
    · simp [SignalFlags.publish]

theorem Served.report (h : Served s) (createdFirst : Bool) : Served (s.report createdFirst) := by
  cases hpc : s.pc with
  | contexts i sums =>
    simp only [MainLoop.report, hpc]
    split_ifs
    all_goals exact h.frame rfl rfl rfl rfl (by simp)
  | drops i sums rest =>
    simp only [MainLoop.report, hpc]
    cases rest with
    | nil => exact h.frame rfl rfl rfl rfl (by simp)
    | cons reason rest => exact h.frame rfl rfl rfl rfl (by simp)
  | destroyed | created | missing =>
    simp only [MainLoop.report, hpc]
    exact h.frame rfl rfl rfl rfl (by simp)
  | _ =>
    simp only [MainLoop.report, hpc]
    exact h

/-- **The main thread.** -/
theorem Served.main (h : Served s) (hstep : s.main clocks env = some s') :
    Served s' := by
  have hreport : ∀ signal, (s.reportSignal signal).flags = s.flags ∧
      (s.reportSignal signal).handlers = s.handlers ∧ (s.reportSignal signal).taken = s.taken ∧
      (s.reportSignal signal).attempts = s.attempts := by
    intro signal
    unfold reportSignal
    simp only
    split <;> simp
  unfold MainLoop.main at hstep
  split at hstep
  case h_1 =>
    obtain rfl := Option.some.inj hstep
    refine h.frame rfl rfl rfl rfl fun hpc => ?_
    cases hrun : s.flags.running with
    | true => simp [hrun] at hpc
    | false => rfl
  case h_2 | h_3 | h_4 =>
    obtain rfl := Option.some.inj hstep
    obtain ⟨hflags, hhandlers, htaken, hattempts⟩ := hreport _
    exact h.frame hflags hhandlers htaken hattempts (by simp)
  case h_5 =>
    split at hstep
    case isTrue hrequested =>
      obtain rfl := Option.some.inj hstep
      have hlt := h.flag.1 hrequested
      have hattempts := h.attempts
      unfold reload
      simp only
      split <;> exact ⟨by simp, Nat.le_refl _, by simp only; omega, h.handlers, h.stop, by simp⟩
    case isFalse =>
      obtain rfl := Option.some.inj hstep
      exact h.frame rfl rfl rfl rfl (by simp)
  case h_6 | h_7 =>
    obtain rfl := Option.some.inj hstep
    exact h.frame rfl rfl rfl rfl (by simp)
  case h_8 | h_9 =>
    split at hstep <;> obtain rfl := Option.some.inj hstep
    · exact h.frame rfl rfl rfl rfl (by simp)
    · exact h.frame rfl rfl rfl rfl (by simp)
  case h_10 =>
    obtain rfl := Option.some.inj hstep
    exact h.frame rfl rfl rfl rfl (by simp)
  case h_11 => cases hstep
  case h_12 => cases hstep
  case h_13 =>
    obtain rfl := Option.some.inj hstep
    exact h.report env.createdFirst

theorem Served.step (h : Served s) (hstep : s.step clocks l = some s') : Served s' := by
  cases l with
  | signal signal =>
    obtain rfl := Option.some.inj hstep
    exact h.count signal
  | publish k =>
    obtain ⟨signal, hk, rfl⟩ := Option.map_eq_some_iff.1 hstep
    exact h.publish hk
  | data i call =>
    obtain ⟨-, heq⟩ := Option.ite_none_right_eq_some.1 hstep
    obtain rfl := Option.some.inj heq
    exact h.frame rfl rfl rfl rfl h.returned
  | main env => exact h.main hstep

/-! ## The configuration in force -/

theorem current_start {config : Config.ConfigManager Unit}
    (hvalid : Config.validate config.currentConfig = true) (created : Nat → Int) (starts : Bool)
    (numFaces : Nat) : Current (start config created starts numFaces) := by
  have hnone : Writing [] {} := ⟨rfl, rfl⟩
  have hwriting := hnone.apply config.currentConfig.capture starts
  exact ⟨rfl, hvalid, hwriting, rfl, fun _ _ => rfl, hwriting.captureOk⟩

theorem Current.frame (h : Current s) {t : MainLoop} (hconfig : t.config = s.config)
    (hcapture : (t.captures, t.capture) = (s.captures, s.capture)) (hprogress : t.Progress) :
    Current t where
  callbacks := by rw [hconfig]; exact h.callbacks
  valid := by rw [hconfig]; exact h.valid
  writing := by
    obtain ⟨hcaptures, hcapture⟩ := Prod.mk.inj hcapture
    rw [hcaptures, hcapture]
    exact h.writing
  progress := hprogress

theorem Applied.frame (h : Applied s) {t : MainLoop} (hconfig : t.config = s.config)
    (hlevel : t.logLevel = s.logLevel)
    (hcapture : (t.captures, t.capture) = (s.captures, s.capture)) (hn : t.numFaces = s.numFaces)
    (hfaces : ∀ k, timeouts (t.faces k).pipeline = timeouts (s.faces k).pipeline) : Applied t where
  logLevel := by rw [hconfig, hlevel]; exact h.logLevel
  faces := fun k hk => by
    unfold Synced
    rw [hfaces k, hconfig]
    exact h.faces k (hn ▸ hk)
  capture := by
    obtain ⟨hcaptures, hcapture⟩ := Prod.mk.inj hcapture
    rw [hconfig, hcaptures, hcapture]
    exact h.capture

theorem Current.applied (h : Current s) (hpc : s.reloading = false) : Applied s := by
  have hprogress := h.progress
  unfold reloading at hpc
  unfold Progress at hprogress
  split at hprogress
  case h_1 config rest hcallback => simp [hcallback] at hpc
  case h_2 config rest i happly => simp [happly] at hpc
  case h_3 => exact hprogress

theorem timeouts_setFace {face : LoopFace}
    (htime : timeouts face.pipeline = timeouts (s.faces i).pipeline) (k : Nat) :
    timeouts ((s.setFace i face).faces k).pipeline = timeouts (s.faces k).pipeline := by
  by_cases hk : k = i
  · subst hk
    rw [setFace_self, htime]
  · rw [setFace_of_ne hk]

/-- A step of another party that leaves the timeouts. -/
theorem Current.other (h : Current s) {t : MainLoop} (hpc : t.pc = s.pc)
    (hconfig : t.config = s.config) (hlevel : t.logLevel = s.logLevel)
    (hcapture : (t.captures, t.capture) = (s.captures, s.capture)) (hn : t.numFaces = s.numFaces)
    (hfaces : ∀ k, timeouts (t.faces k).pipeline = timeouts (s.faces k).pipeline) : Current t := by
  refine h.frame hconfig hcapture ?_
  have hsynced : ∀ k, t.Synced k ↔ s.Synced k := fun k => by
    unfold Synced
    rw [hfaces, hconfig]
  have hprogress := h.progress
  unfold Progress at hprogress ⊢
  rw [hpc]
  split
  case h_1 config rest hcallback =>
    rw [hcallback] at hprogress
    rw [hconfig]
    exact hprogress
  case h_2 config rest k happly =>
    rw [happly] at hprogress
    rw [hconfig, hlevel, hn]
    obtain ⟨hall, hlevel', hdone⟩ := hprogress
    exact ⟨hall, hlevel', fun j hj hlt => (hsynced j).2 (hdone j hj hlt)⟩
  case h_3 hcallback happly =>
    refine (h.applied ?_).frame hconfig hlevel hcapture hn hfaces
    unfold reloading
    split
    case h_1 config rest hpc' => exact absurd hpc' (hcallback _ _)
    case h_2 config rest k hpc' => exact absurd hpc' (happly _ _ _)
    case h_3 => rfl

/-- A reload. -/
theorem Current.reload (h : Current s) (happlied : Applied s) (documents : Config.Yaml N) :
    Current (s.reload documents) := by
  unfold MainLoop.reload
  simp only
  rcases Config.ConfigManager.reload_cases documents s.config with
    ⟨hresult, hvalid, hcallbacks, hcalled⟩ | ⟨hresult, hsame⟩
  · rw [hresult]
    refine ⟨hcallbacks.trans h.callbacks, hvalid, h.writing, ?_⟩
    rw [hcalled, h.callbacks]
    unfold Progress
    simp
  · split
    · exact absurd ‹_› hresult
    · refine ⟨by simp only [hsame]; exact h.callbacks, by simp only [hsame]; exact h.valid, h.writing, ?_⟩
      exact happlied.frame hsame rfl rfl rfl fun _ => rfl
    · refine ⟨by simp only [hsame]; exact h.callbacks, by simp only [hsame]; exact h.valid, h.writing, ?_⟩
      exact happlied.frame hsame rfl rfl rfl fun _ => rfl

/-- The reports. -/
theorem Current.report (h : Current s) (createdFirst : Bool) : Current (s.report createdFirst) := by
  cases hpc : s.pc with
  | contexts i sums =>
    have happlied := h.applied (by simp [reloading, hpc])
    simp only [MainLoop.report, hpc]
    split_ifs
    · exact h.frame rfl rfl (happlied.frame rfl rfl rfl rfl (timeouts_setFace rfl))
    · exact h.frame rfl rfl (happlied.frame rfl rfl rfl rfl (timeouts_setFace rfl))
    · exact h.frame rfl rfl (happlied.frame rfl rfl rfl rfl fun _ => rfl)
  | destroyed i sums created =>
    have happlied := h.applied (by simp [reloading, hpc])
    simp only [MainLoop.report, hpc]
    exact h.frame rfl rfl (happlied.frame rfl rfl rfl rfl (timeouts_setFace rfl))
  | created i sums destroyed =>
    have happlied := h.applied (by simp [reloading, hpc])
    simp only [MainLoop.report, hpc]
    exact h.frame rfl rfl (happlied.frame rfl rfl rfl rfl (timeouts_setFace rfl))
  | missing i sums =>
    have happlied := h.applied (by simp [reloading, hpc])
    simp only [MainLoop.report, hpc]
    exact h.frame rfl rfl (happlied.frame rfl rfl rfl rfl (timeouts_setFace rfl))
  | drops i sums rest =>
    have happlied := h.applied (by simp [reloading, hpc])
    simp only [MainLoop.report, hpc]
    cases rest with
    | nil => exact h.frame rfl rfl (happlied.frame rfl rfl rfl rfl fun _ => rfl)
    | cons reason rest =>
      refine h.frame rfl rfl (happlied.frame rfl rfl rfl rfl ?_)
      exact timeouts_setFace (s := s) rfl
  | _ =>
    simp only [MainLoop.report, hpc]
    exact h

/-- **The main thread.** -/
theorem Current.main (h : Current s) (hstep : s.main clocks env = some s') :
    Current s' := by
  have hreport : ∀ signal, (s.reportSignal signal).config = s.config ∧
      ((s.reportSignal signal).captures, (s.reportSignal signal).capture) =
        (s.captures, s.capture) ∧ (s.reportSignal signal).logLevel = s.logLevel ∧
      (s.reportSignal signal).numFaces = s.numFaces ∧ (s.reportSignal signal).faces = s.faces := by
    intro signal
    unfold reportSignal
    simp only
    split <;> simp
  unfold MainLoop.main at hstep
  split at hstep
  case h_1 hpc =>
    have happlied := h.applied (by simp [reloading, hpc])
    obtain rfl := Option.some.inj hstep
    refine h.frame rfl rfl ?_
    cases s.flags.running with
    | true => exact happlied.frame rfl rfl rfl rfl fun _ => rfl
    | false => exact happlied.frame rfl rfl rfl rfl fun _ => rfl
  case h_2 hpc | h_3 hpc | h_4 hpc =>
    have happlied := h.applied (by simp [reloading, hpc])
    obtain rfl := Option.some.inj hstep
    obtain ⟨hconfig, hcapture, hlevel, hn, hfaces⟩ := hreport _
    refine h.frame hconfig hcapture ?_
    refine Applied.frame happlied (t := { s.reportSignal _ with pc := _ }) hconfig hlevel hcapture
      hn fun k => ?_
    rw [hfaces]
  case h_5 hpc =>
    have happlied := h.applied (by simp [reloading, hpc])
    split at hstep
    · obtain rfl := Option.some.inj hstep
      exact h.reload happlied env.documents
    · obtain rfl := Option.some.inj hstep
      exact h.frame rfl rfl (happlied.frame rfl rfl rfl rfl fun _ => rfl)
  case h_6 hpc =>
    have happlied := h.applied (by simp [reloading, hpc])
    obtain rfl := Option.some.inj hstep
    exact h.frame rfl rfl (happlied.frame rfl rfl rfl rfl fun _ => rfl)
  case h_7 config rest hpc =>
    have hall : ∀ c ∈ config :: rest, c = s.config.currentConfig := by
      simpa [Progress, hpc] using h.progress
    obtain rfl := Option.some.inj hstep
    refine h.frame rfl rfl ⟨hall, ?_, fun k _ hk => absurd hk (Nat.not_lt_zero k)⟩
    rw [← hall config List.mem_cons_self]
  case h_8 config rest i hpc =>
    obtain ⟨hall, hlevel, hfaces⟩ : (∀ c ∈ config :: rest, c = s.config.currentConfig) ∧
        s.logLevel = parseLogLevel s.config.currentConfig.logging.level ∧
        ∀ k < s.numFaces, k < i → s.Synced k := by
      have hprogress := h.progress
      unfold Progress at hprogress
      rw [hpc] at hprogress
      exact hprogress
    obtain rfl : config = s.config.currentConfig := hall config List.mem_cons_self
    split at hstep
    case isTrue hi =>
      obtain rfl := Option.some.inj hstep
      refine h.frame rfl rfl ⟨hall, hlevel, fun k hk hlt => ?_⟩
      unfold Synced setPipeline
      by_cases hki : k = i
      · subst hki
        rw [setFace_self]
        rfl
      · rw [setFace_of_ne hki]
        exact hfaces k hk (by omega)
    case isFalse hi =>
      obtain rfl := Option.some.inj hstep
      have hwriting := h.writing.apply s.config.currentConfig.capture env.starts
      refine ⟨h.callbacks, h.valid, hwriting, ?_⟩
      cases rest with
      | nil =>
        refine ⟨hlevel, fun k hk => ?_, hwriting.captureOk⟩
        have hk' : k < s.numFaces := hk
        exact hfaces k hk' (by omega)
      | cons c rest => exact fun c' hc' => hall c' (List.mem_cons_of_mem _ hc')
  case h_9 i hpc =>
    have happlied := h.applied (by simp [reloading, hpc])
    split at hstep
    · obtain rfl := Option.some.inj hstep
      refine h.frame rfl rfl (happlied.frame rfl rfl rfl rfl ?_)
      exact timeouts_setFace (checkTimeouts_later _ _).2
    · obtain rfl := Option.some.inj hstep
      exact h.frame rfl rfl (happlied.frame rfl rfl rfl rfl fun _ => rfl)
  case h_10 i hpc =>
    have happlied := h.applied (by simp [reloading, hpc])
    obtain rfl := Option.some.inj hstep
    refine h.frame rfl rfl (happlied.frame rfl rfl rfl rfl ?_)
    exact timeouts_setFace (checkTimeout_later _).2
  case h_11 => cases hstep
  case h_12 => cases hstep
  case h_13 =>
    obtain rfl := Option.some.inj hstep
    exact h.report env.createdFirst

theorem Current.step (h : Current s) (hstep : s.step clocks l = some s') : Current s' := by
  cases l with
  | signal signal =>
    obtain rfl := Option.some.inj hstep
    exact h.other rfl rfl rfl rfl rfl fun _ => rfl
  | publish k =>
    obtain ⟨signal, -, rfl⟩ := Option.map_eq_some_iff.1 hstep
    exact h.other rfl rfl rfl rfl rfl fun _ => rfl
  | data i call =>
    obtain ⟨-, heq⟩ := Option.ite_none_right_eq_some.1 hstep
    obtain rfl := Option.some.inj heq
    exact h.other rfl rfl rfl rfl rfl (timeouts_setFace (dataCall_later call).2)
  | main env => exact h.main hstep

end

/-- **Signals and reloads**: in every reachable state, outside the callbacks of a reload every face
goes by the timeouts of the current configuration and so do the log level and the capture, but that
a writer that did not start leaves the one before it; that configuration is valid; a reload is
requested exactly when a `SIGHUP` has been published since the last exchange; and the loop has been
told to stop exactly when `SIGINT` or `SIGTERM` has been published. -/
theorem reload_reaches_all {N : Type} (clocks : Nat → FaceClocks)
    {config : Config.ConfigManager Unit}
    (hvalid : Config.validate config.currentConfig = true) (created : Nat → Int) (starts : Bool)
    (numFaces : Nat) {ls : List (LoopLabel N)} {s : MainLoop}
    (hrun : Machine.exec (step clocks) (start config created starts numFaces) ls = some s) :
    (s.reloading = false → s.Applied) ∧ Config.validate s.config.currentConfig = true ∧
    s.Served := by
  have h : Current s ∧ Served s := Machine.exec_inv (I := fun t => Current t ∧ Served t)
    (C := fun _ _ => True) (fun t l t' ht _ hstep => ⟨ht.1.step hstep, ht.2.step hstep⟩)
    ⟨current_start hvalid created starts numFaces, served_start config created starts numFaces⟩
    (Machine.along_of_forall fun _ _ => trivial) hrun
  exact ⟨h.1.applied, h.1.valid, h.2⟩

/-- The face goes by the default timeouts after the round. -/
theorem reloadRound_applied : ∃ s : MainLoop,
    Machine.exec (step stillClocks) (start staleConfig (fun _ => 0) true 1) reloadRound = some s ∧
      (s.reloading = false → s.Applied) ∧ Config.validate s.config.currentConfig = true ∧
      s.Served := by
  obtain ⟨s, hrun, -⟩ := reloadRound_runs
  exact ⟨s, hrun, reload_reaches_all stillClocks (by decide +kernel) (fun _ => 0) true 1 hrun⟩

end MainLoop

end Qdgz300.App
