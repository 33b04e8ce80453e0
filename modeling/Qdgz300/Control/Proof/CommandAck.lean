import Qdgz300.Control.Orchestrator

/-!
# Acknowledgements and the system state

`stop` runs the stop callbacks and then asks for `Standby`, which the table refuses while the system
runs; its result is ignored and the command is acknowledged. `reset` stops first, which takes a
faulty system to `Standby`, and from there the table has no way to `Init`. `start` runs the
callbacks before the state is looked at. `Agrees` is what an acknowledgement should mean, step by
step; `Sound` are the steps that keep clear of the three defects, and a run agrees exactly if all
its steps are of these (`run_agrees_iff`).
-/

namespace Qdgz300.Control

/-- The state that a command asks for. -/
def Command.target? : Command → Option SystemState
  | .start => some .running
  | .stop => some .standby
  | .reset => some .init
  | _ => none

namespace ControlPlane

/-- The system runs, if not at its best. -/
def Active (state : SystemState) : Prop := state = .running ∨ state = .degraded

/-- While the system is active, the last callback on every module was a successful start. -/
def Started (s : ControlPlane) : Prop :=
  Active s.current → ∀ i < s.modules.length, s.last i = some (.start true)

/-- What a command must do: a success puts the system into the command's target state, an active
system has its modules started, and a reset of a faulty system succeeds. -/
def CommandAgrees (s : ControlPlane) (results : Nat → Bool) (command : Command) : Prop :=
  ((s.handle results command).2.success = true →
    ∀ target ∈ command.target?, (s.handle results command).1.current = target) ∧
  (s.handle results command).1.Started ∧
  (command = .reset → s.current = .fault → (s.handle results command).2.success = true)

/-- What a step must do. -/
def Agrees (s : ControlPlane) : ControlOp → Prop
  | .handle command results => s.CommandAgrees results (.ofString command)
  | op => (s.step op).1.Started

/-- No start callback fails. -/
def AllStart (s : ControlPlane) (results : Nat → Bool) : Prop :=
  ∀ i m, s.modules[i]? = some m → m.hasStart = true → results i = true

/-- The commands that keep clear of the defects: no stop while active; no reset of a faulty system,
and none while active that would stop a module; no start while active that fails, and no start from
standby over a module that has nothing to start. -/
def CommandSound (s : ControlPlane) (results : Nat → Bool) : Command → Prop
  | .start =>
    (Active s.current → s.AllStart results) ∧
    (s.current = .standby → s.AllStart results → ∀ m ∈ s.modules, m.hasStart = true)
  | .stop => ¬ Active s.current
  | .reset => s.current ≠ .fault ∧ (Active s.current → ∀ m ∈ s.modules, m.hasStop = false)
  | _ => True

/-- The steps that keep clear of the defects. -/
def Sound (s : ControlPlane) : ControlOp → Prop
  | .handle command results => s.CommandSound results (.ofString command)
  | _ => True

/-! ## The loops over the modules -/

/-- The loop of `start` touches modules with a start callback only. -/
theorem startModules_touched (results : Nat → Bool) (ms : List ModuleHandle) (k : Nat)
    (last : Nat → Option Callback) (j : Nat) :
    (startModules results ms k last).1 j = last j ∨
      ∃ i m, j = k + i ∧ ms[i]? = some m ∧ m.hasStart = true := by
  induction ms generalizing k last with
  | nil => exact .inl rfl
  | cons m ms ih =>
    rw [startModules]
    -- what the tail touches lies behind `k`
    have htail : ∀ last', (startModules results ms (k + 1) last').1 j = last' j ∨
        ∃ i m', j = k + i ∧ (m :: ms)[i]? = some m' ∧ m'.hasStart = true := by
      intro last'
      obtain heq | ⟨i, m', rfl, hget, hstart⟩ := ih (k + 1) last'
      · exact .inl heq
      · exact .inr ⟨i + 1, m', by omega, by simpa using hget, hstart⟩
    by_cases hstart : m.hasStart = true
    · rw [if_pos hstart]
      by_cases hj : j = k
      · exact .inr ⟨0, m, hj, rfl, hstart⟩
      · split_ifs
        · obtain heq | hin := htail (Function.update last k (some (.start true)))
          · exact .inl (heq.trans (Function.update_of_ne hj _ _))
          · exact .inr hin
        · exact .inl (Function.update_of_ne hj _ _)
    · rw [if_neg hstart]
      exact htail last

/-- The loop of `start` when no callback fails. -/
theorem startModules_ok (results : Nat → Bool) (ms : List ModuleHandle) (k : Nat)
    (last : Nat → Option Callback)
    (hok : ∀ i m, ms[i]? = some m → m.hasStart = true → results (k + i) = true) :
    (startModules results ms k last).2 = true ∧ ∀ i m, ms[i]? = some m → m.hasStart = true →
      (startModules results ms k last).1 (k + i) = some (.start true) := by
  induction ms generalizing k last with
  | nil => exact ⟨rfl, nofun⟩
  | cons m ms ih =>
    have htail : ∀ i m', ms[i]? = some m' → m'.hasStart = true → results (k + 1 + i) = true := by
      intro i m' hi hstart
      rw [Nat.add_assoc, Nat.add_comm 1 i]
      exact hok (i + 1) m' (by simpa using hi) hstart
    rw [startModules]
    by_cases hstart : m.hasStart = true
    · have hhere : results k = true := hok 0 m rfl hstart
      rw [if_pos hstart, if_pos hhere]
      obtain ⟨hres, hstarted⟩ := ih (k + 1) (Function.update last k (some (.start true))) htail
      refine ⟨hres, ?_⟩
      intro i m' hi hstart'
      cases i with
      | zero =>
        -- the tail does not touch the module itself
        obtain heq | ⟨i, -, hk, -⟩ := startModules_touched results ms (k + 1)
          (Function.update last k (some (.start true))) k
        · exact heq.trans (Function.update_self _ _ _)
        · omega
      | succ i =>
        rw [Nat.add_comm i 1, ← Nat.add_assoc]
        exact hstarted i m' (by simpa using hi) hstart'
    · rw [if_neg hstart]
      obtain ⟨hres, hstarted⟩ := ih (k + 1) last htail
      refine ⟨hres, ?_⟩
      intro i m' hi hstart'
      cases i with
      | zero =>
        obtain rfl : m = m' := by simpa using hi
        exact absurd hstart' hstart
      | succ i =>
        rw [Nat.add_comm i 1, ← Nat.add_assoc]
        exact hstarted i m' (by simpa using hi) hstart'

/-- The loop of `start` when a callback fails: it is the last one executed. -/
theorem startModules_fail (results : Nat → Bool) (ms : List ModuleHandle) (k : Nat)
    (last : Nat → Option Callback)
    (hfail : ∃ i m, ms[i]? = some m ∧ m.hasStart = true ∧ results (k + i) = false) :
    (startModules results ms k last).2 = false ∧ ∃ i < ms.length,
      (startModules results ms k last).1 (k + i) = some (.start false) := by
  induction ms generalizing k last with
  | nil =>
    obtain ⟨i, m, hi, -⟩ := hfail
    cases hi
  | cons m ms ih =>
    obtain ⟨i, m', hi, hstart', hres⟩ := hfail
    rw [startModules]
    have htail : ∀ last', (∃ i', i = i' + 1) →
        (startModules results ms (k + 1) last').2 = false ∧ ∃ i < (m :: ms).length,
          (startModules results ms (k + 1) last').1 (k + i) = some (.start false) := by
      rintro last' ⟨i', rfl⟩
      rw [Nat.add_comm i' 1, ← Nat.add_assoc] at hres
      obtain ⟨hfalse, n, hn, hlast⟩ := ih (k + 1) last' ⟨i', m', by simpa using hi, hstart', hres⟩
      rw [Nat.add_assoc, Nat.add_comm 1 n] at hlast
      exact ⟨hfalse, n + 1, by simpa using hn, hlast⟩
    by_cases hstart : m.hasStart = true
    · rw [if_pos hstart]
      by_cases hhere : results k = true
      · rw [if_pos hhere]
        apply htail
        cases i with
        | zero =>
          rw [Nat.add_zero, hhere] at hres
          cases hres
        | succ i => exact ⟨i, rfl⟩
      · rw [if_neg hhere]
        exact ⟨rfl, 0, by simp, Function.update_self _ _ _⟩
    · rw [if_neg hstart]
      apply htail
      cases i with
      | zero =>
        obtain rfl : m = m' := by simpa using hi
        exact absurd hstart' hstart
      | succ i => exact ⟨i, rfl⟩

/-- The loop of `stop`. -/
theorem stopModules_eq (ms : List (ModuleHandle × Nat)) (last : Nat → Option Callback) (j : Nat) :
    stopModules ms last j =
      if ∃ m ∈ ms, m.2 = j ∧ m.1.hasStop = true then some .stop else last j := by
  induction ms generalizing last with
  | nil => simp [stopModules]
  | cons m ms ih =>
    have hcons : stopModules (m :: ms) last = stopModules ms
        (if m.1.hasStop then Function.update last m.2 (some .stop) else last) := rfl
    rw [hcons, ih]
    by_cases hlater : ∃ m' ∈ ms, m'.2 = j ∧ m'.1.hasStop = true
    · obtain ⟨m', hmem, hm'⟩ := hlater
      rw [if_pos ⟨m', hmem, hm'⟩, if_pos ⟨m', List.mem_cons_of_mem _ hmem, hm'⟩]
    · rw [if_neg hlater]
      by_cases hhere : m.2 = j ∧ m.1.hasStop = true
      · rw [if_pos hhere.2, if_pos ⟨m, List.mem_cons_self, hhere⟩, ← hhere.1, Function.update_self]
      · have hnone : ¬ ∃ m' ∈ m :: ms, m'.2 = j ∧ m'.1.hasStop = true := by
          rintro ⟨m', hmem, hm'⟩
          cases hmem with
          | head => exact hhere hm'
          | tail _ hmem => exact hlater ⟨m', hmem, hm'⟩
        rw [if_neg hnone]
        by_cases hstop : m.1.hasStop = true
        · rw [if_pos hstop]
          exact Function.update_of_ne (fun hj => hhere ⟨hj.symm, hstop⟩) _ _
        · rw [if_neg hstop]

theorem stop_last (s : ControlPlane) (j : Nat) :
    s.stop.last j = if ∃ m, s.modules[j]? = some m ∧
    m.hasStop = true then some .stop else s.last j := by
  simp only [stop, stopModules_eq]
  apply if_congr _ rfl rfl
  simp only [List.mem_reverse, List.mem_zipIdx_iff_getElem?, Prod.exists, and_left_comm]
  constructor
  · rintro ⟨m, i, rfl, hget, hstop⟩
    exact ⟨m, by simpa using hget, hstop⟩
  · rintro ⟨m, hget, hstop⟩
    exact ⟨m, j, rfl, by simpa using hget, hstop⟩

/-! ## The steps -/

/-- The invariant of a run that agrees: an active system has its modules started, and a start was
only executed where there is a start callback. -/
structure Inv (s : ControlPlane) : Prop where
  started : s.Started
  known : ∀ i b, s.last i = some (.start b) → ∀ m, s.modules[i]? = some m → m.hasStart = true

instance (state : SystemState) : Decidable (Active state) :=
  inferInstanceAs (Decidable (state = .running ∨ state = .degraded))

theorem transition_target {current target : SystemState}
    (h : (transition current target).2 = true) :
    (transition current target).1 = target := by
  unfold transition at h ⊢
  split_ifs at h ⊢
  rfl

theorem transition_standby (current : SystemState) :
    (transition current .standby).1 = if Active current then current else .standby := by
  cases current <;> decide

theorem active_running {current : SystemState} (h : Active (transition current .running).1) :
    Active current ∨ current = .standby := by
  cases current <;> revert h <;> decide

theorem reset_refused (s : ControlPlane) : s.reset.2 = false := by
  have hall : ∀ current : SystemState,
      (transition (transition current .standby).1 .init).2 = false := by
    intro current
    cases current <;> decide
  exact hall s.current

theorem reset_current (s : ControlPlane) :
    s.reset.1.current = (transition s.current .standby).1 := by
  have hall : ∀ current : SystemState,
      (transition (transition current .standby).1 .init).1 = (transition current .standby).1 := by
    intro current
    cases current <;> decide
  exact hall s.current

section
variable {s : ControlPlane} {results : Nat → Bool}

theorem Inv.of_current (h : Inv s) {s' : ControlPlane} (hmodules : s'.modules = s.modules)
    (hlast : s'.last = s.last) (hactive : Active s'.current → Active s.current) : Inv s' := by
  constructor
  · intro ha i hi
    rw [hmodules] at hi
    rw [hlast]
    exact h.started (hactive ha) i hi
  · intro i b hb m hm
    rw [hlast] at hb
    rw [hmodules] at hm
    exact h.known i b hb m hm

theorem Inv.boot (h : Inv s) : Inv s.boot.1 := by
  refine h.of_current rfl rfl ?_
  simp only [ControlPlane.boot, transition_standby]
  split_ifs with hactive
  · exact id
  · intro ha
    simp [Active] at ha

theorem Inv.tick (h : Inv s) : Inv s.tick := by
  unfold ControlPlane.tick
  split_ifs with hhealthy hdegraded hfault hrunning
  · exact h.of_current rfl rfl fun _ => .inr hdegraded
  · exact h
  · refine h.of_current rfl rfl ?_
    intro ha
    simp [transition, isTransitionAllowed, Active] at ha
  · exact h.of_current rfl rfl fun _ => .inl hrunning.2
  · exact h

theorem Inv.start_known (h : Inv s) (i : Nat) (b : Bool)
    (hb : (startModules results s.modules 0 s.last).1 i = some (.start b)) (m : ModuleHandle)
    (hm : s.modules[i]? = some m) : m.hasStart = true := by
  obtain heq | ⟨i', m', hi', hget, hstart⟩ := startModules_touched results s.modules 0 s.last i
  · rw [heq] at hb
    exact h.known i b hb m hm
  · rw [Nat.zero_add] at hi'
    subst hi'
    rw [hm, Option.some.injEq] at hget
    exact hget ▸ hstart

theorem AllStart.loop (hall : s.AllStart results) :
    (startModules results s.modules 0 s.last).2 = true ∧
      ∀ i m, s.modules[i]? = some m → m.hasStart = true →
        (startModules results s.modules 0 s.last).1 i = some (.start true) := by
  have hoffset : ∀ i m, s.modules[i]? = some m → m.hasStart = true → results (0 + i) = true := by
    intro i m hget hstart
    rw [Nat.zero_add]
    exact hall i m hget hstart
  obtain ⟨hok, hstarted⟩ := startModules_ok results s.modules 0 s.last hoffset
  refine ⟨hok, ?_⟩
  intro i m hget hstart
  have := hstarted i m hget hstart
  rwa [Nat.zero_add] at this

theorem start_ok (hall : s.AllStart results) :
    s.start results =
      ({ s with
          current := (transition s.current .running).1
          last := (startModules results s.modules 0 s.last).1 },
        (transition s.current .running).2) := by
  simp [ControlPlane.start, hall.loop.1]

theorem start_fail (hfail : ¬ s.AllStart results) :
    s.start results =
        ({ s with last := (startModules results s.modules 0 s.last).1 }, false) ∧
      ∃ i < s.modules.length, (startModules results s.modules 0 s.last).1 i =
        some (.start false) := by
  simp only [AllStart, not_forall] at hfail
  obtain ⟨i, m, hget, hstart, hres⟩ := hfail
  obtain ⟨hfalse, j, hj, hlast⟩ := startModules_fail results s.modules 0 s.last
    ⟨i, m, hget, hstart, by simpa using hres⟩
  rw [Nat.zero_add] at hlast
  exact ⟨by simp [ControlPlane.start, hfalse], j, hj, hlast⟩

/-- **A start** leaves an active system with its modules started exactly on a sound step. -/
theorem Inv.start_iff (h : Inv s) :
    (s.start results).1.Started ↔ s.CommandSound results .start := by
  by_cases hall : s.AllStart results
  · have hsound : s.CommandSound results .start ↔
        (s.current = .standby → ∀ m ∈ s.modules, m.hasStart = true) := by
      simp [CommandSound, hall]
    rw [hsound, start_ok hall]
    constructor
    · intro hafter hstandby m hm
      obtain ⟨i, hi, rfl⟩ := List.mem_iff_getElem.1 hm
      have hactive : Active (transition s.current .running).1 := by
        rw [hstandby]
        decide
      exact h.start_known i true (hafter hactive i hi) _ (List.getElem?_eq_getElem hi)
    · intro hmodules hactive i hi
      have hget := List.getElem?_eq_getElem hi
      by_cases hstart : (s.modules[i]).hasStart = true
      · exact hall.loop.2 i _ hget hstart
      · -- A module with nothing to start was started before, which it cannot have been.
        rcases active_running hactive with hbefore | hstandby
        · have := h.known i true (h.started hbefore i hi) _ hget
          exact absurd this hstart
        · exact absurd (hmodules hstandby _ (List.getElem_mem hi)) hstart
  · have hsound : s.CommandSound results .start ↔ ¬ Active s.current := by
      simp [CommandSound, hall]
    obtain ⟨heq, i, hi, hlast⟩ := start_fail hall
    rw [hsound, heq]
    constructor
    · intro hafter hactive
      cases hlast.symm.trans (hafter hactive i hi)
    · intro hidle hactive
      exact absurd hactive hidle

/-- What stays of the modules after `stop` or `reset`. -/
theorem Inv.stop_started (h : Inv s) (s' : ControlPlane) (hmodules : s'.modules = s.modules)
    (hlast : s'.last = s.stop.last) (hcurrent : s'.current = (transition s.current .standby).1) :
    s'.Started ↔ (Active s.current → ∀ m ∈ s.modules, m.hasStop = false) := by
  have hactive : Active s'.current ↔ Active s.current := by
    rw [hcurrent, transition_standby]
    split_ifs with ha
    · rfl
    · exact iff_of_false (by simp [Active]) ha
  unfold Started
  rw [hactive, hmodules, hlast]
  apply forall_congr'
  intro ha
  constructor
  · intro hafter m hm
    obtain ⟨i, hi, rfl⟩ := List.mem_iff_getElem.1 hm
    by_contra hstop
    have := hafter i hi
    rw [stop_last, if_pos ⟨_, List.getElem?_eq_getElem hi, by simpa using hstop⟩] at this
    cases this
  · intro hnone i hi
    rw [stop_last, if_neg]
    · exact h.started ha i hi
    · rintro ⟨m, hget, hstop⟩
      rw [hnone m (List.mem_of_getElem? hget)] at hstop
      cases hstop

theorem Inv.commandAgrees_of_inv {command : Command} {results : Nat → Bool}
    (h : Inv (s.handle results command).1) (htarget : command.target? = none) :
    s.CommandAgrees results command := by
  refine ⟨fun _ target hsome => ?_, h.started, fun hreset => ?_⟩
  · rw [htarget] at hsome
    cases hsome
  · rw [hreset] at htarget
    cases htarget

/-- **One command** agrees exactly if it is sound. -/
theorem Inv.commandAgrees_iff (h : Inv s) (results : Nat → Bool) (command : Command) :
    s.CommandAgrees results command ↔ s.CommandSound results command := by
  cases command with
  | queryState => exact iff_of_true (Inv.commandAgrees_of_inv h rfl) trivial
  | unsupported => exact iff_of_true (Inv.commandAgrees_of_inv h rfl) trivial
  | start =>
    rw [← h.start_iff]
    constructor
    · rintro ⟨-, hstarted, -⟩
      exact hstarted
    · intro hstarted
      refine ⟨?_, hstarted, nofun⟩
      rintro hsuccess target ⟨⟩
      -- a start that succeeds has ended with the transition
      by_cases hall : s.AllStart results
      · simp only [handle, start_ok hall] at hsuccess ⊢
        split_ifs at hsuccess with hmoved
        exact transition_target hmoved
      · simp [handle, (start_fail hall).1] at hsuccess
  | stop =>
    have hcurrent : s.stop.current = if Active s.current then s.current else .standby :=
      transition_standby s.current
    constructor
    · rintro ⟨htarget, -, -⟩ hactive
      have hstandby : s.stop.current = .standby := htarget rfl .standby rfl
      rw [hcurrent, if_pos hactive] at hstandby
      rw [hstandby] at hactive
      simp [Active] at hactive
    · intro hidle
      have hstandby : s.stop.current = .standby := by rw [hcurrent, if_neg hidle]
      have hstarted : (s.handle results .stop).1.Started :=
        (h.stop_started s.stop rfl rfl rfl).2 fun ha => absurd ha hidle
      refine ⟨?_, hstarted, nofun⟩
      rintro - target ⟨⟩
      exact hstandby
  | reset =>
    have hstarted : (s.handle results .reset).1.Started ↔
        (Active s.current → ∀ m ∈ s.modules, m.hasStop = false) :=
      h.stop_started s.reset.1 rfl rfl s.reset_current
    have hrefused : (s.handle results .reset).2.success = false := by
      simp [handle, reset_refused]
    constructor
    · rintro ⟨-, hafter, hfault⟩
      refine ⟨?_, hstarted.1 hafter⟩
      intro hcurrent
      rw [hfault rfl hcurrent] at hrefused
      cases hrefused
    · rintro ⟨hfault, hnone⟩
      refine ⟨?_, hstarted.2 hnone, fun _ hcurrent => absurd hcurrent hfault⟩
      intro hsuccess
      rw [hrefused] at hsuccess
      cases hsuccess

/-- **One step** agrees exactly if it is sound. -/
theorem Inv.agrees_iff (h : Inv s) (op : ControlOp) : s.Agrees op ↔ s.Sound op := by
  cases op with
  | boot => exact iff_of_true h.boot.started trivial
  | reportHealth healthy unhealthyMs =>
    have hinv : Inv (s.reportHealth healthy unhealthyMs) := h.of_current rfl rfl id
    exact iff_of_true hinv.started trivial
  | tick => exact iff_of_true h.tick.started trivial
  | handle command results => exact h.commandAgrees_iff results (.ofString command)

/-- A command does not forget what the last callbacks were. -/
theorem Inv.handle_known (h : Inv s) (results : Nat → Bool) (command : Command) (i : Nat) (b : Bool)
    (hb : (s.handle results command).1.last i = some (.start b)) :
    ∀ m, (s.handle results command).1.modules[i]? = some m → m.hasStart = true := by
  have hstop : ∀ i b, s.stop.last i = some (.start b) →
      ∀ m, s.modules[i]? = some m → m.hasStart = true := by
    intro i b hb m hm
    rw [stop_last] at hb
    split_ifs at hb
    · cases hb
    · exact h.known i b hb m hm
  cases command with
  | start =>
    intro m hm
    by_cases hall : s.AllStart results
    · simp only [handle, start_ok hall] at hb hm
      exact h.start_known i b hb m hm
    · simp only [handle, (start_fail hall).1] at hb hm
      exact h.start_known i b hb m hm
  | stop => exact hstop i b hb
  | reset => exact hstop i b hb
  | queryState => exact h.known i b hb
  | unsupported => exact h.known i b hb

theorem Inv.step (h : Inv s) {op : ControlOp} (hagrees : s.Agrees op) : Inv (s.step op).1 := by
  cases op with
  | boot => exact h.boot
  | reportHealth healthy unhealthyMs => exact ⟨hagrees, h.known⟩
  | tick => exact h.tick
  | handle command results =>
    exact ⟨hagrees.2.1, h.handle_known results (.ofString command)⟩

end

theorem inv_new (modules : List ModuleHandle) : Inv (new modules) := by
  refine ⟨?_, nofun⟩
  intro hactive
  simp [new, Active] at hactive

/-- **When acknowledgements agree with the state**: over any modules, every step of a run agrees
exactly if every step is sound. -/
theorem run_agrees_iff (modules : List ModuleHandle) (ops : List ControlOp) :
    Machine.RunAlong ControlPlane.step Agrees (new modules) ops ↔
      Machine.RunAlong ControlPlane.step Sound (new modules) ops :=
  Machine.runAlong_iff ControlPlane.step (fun _ op h => Inv.agrees_iff h op)
    (fun _ _ h hagrees => h.step hagrees) (inv_new modules)

/-- Every start callback succeeds. -/
def allSucceed : Nat → Bool := fun _ => true

/-- One module. A stop while running is acknowledged although the system runs on; a reset of a
faulty system is rejected; and a second start that the module refuses leaves the system running. -/
theorem oneModule_disagrees :
    ¬ Machine.RunAlong ControlPlane.step Agrees (new [{}])
        [.boot, .handle "START" allSucceed, .handle "STOP" allSucceed] ∧
    ¬ Machine.RunAlong ControlPlane.step Agrees (new [{}])
        [.boot, .reportHealth false 2000, .tick, .handle "RESET" allSucceed] ∧
    ¬ Machine.RunAlong ControlPlane.step Agrees (new [{}])
        [.boot, .handle "START" allSucceed, .handle "START" fun _ => false] := by
  refine ⟨?_, ?_, ?_⟩
  · rintro ⟨-, -, ⟨htarget, -, -⟩, -⟩
    have hstandby := htarget rfl .standby rfl
    revert hstandby
    decide
  · rintro ⟨-, -, -, ⟨-, -, hfault⟩, -⟩
    have hsuccess := hfault rfl (by decide)
    revert hsuccess
    decide
  · rintro ⟨-, -, ⟨-, hstarted, -⟩, -⟩
    have hlast := hstarted (by decide) 0 (by decide)
    revert hlast
    decide

end ControlPlane

end Qdgz300.Control
