import Qdgz300.App.Proof.PhaseActions

/-!
# The life of the receiver

A proof outline of `main` by phases: a loop over the faces is a phase for each index, and what fails
on the way leads to the same phase as `stop`.

* `outlined_startAll`, `outlined_stopAll`, `outlined_spawnAll`, `outlined_joinAll`: the loops.
* `outlined_endpointStop`, `outlined_startRollback`, `outlined_appShutdown`: the ways down.
* `outlined_main`: the outline of `main`.
* **`lifecycle_safe`**: what holds in every interleaving with the other threads.
* `oneLife_left`: a run in which the endpoint closes a descriptor that is not its own.
-/

namespace Qdgz300.App

open Interference

variable {c : LaunchConfig} {p : Phase} {s : Process}

/-! ## What holds -/

/-- What holds whatever the threads do: a receive thread that lives has its socket, and nobody has
closed a descriptor of another, but for the endpoint one that was opened elsewhere in the
meantime. -/
structure Process.Safe (s : Process) : Prop where
  sockets : ∀ i, (s.services .receiver i).worker = .alive → ∃ fd,
    (s.services .receiver i).fd = some fd ∧ s.descriptors.owner fd = some (.service .receiver i)
  disciplined : s.descriptors.Disciplined

/-- Everything runs. -/
structure Process.Running (c : LaunchConfig) (s : Process) : Prop where
  receivers : ∀ i < c.faces, (s.services .receiver i).running = true ∧
    (s.services .receiver i).worker = .alive
  processing : ∀ i < c.faces, s.processing i = .alive
  consumers : ∀ j < c.consumers, (s.services .consumer j).running = true ∧
    (s.services .consumer j).worker = .alive

/-- What is left when `main` returns `code`: of the receivers, the processing threads and the
consumers nothing; and the endpoint and the capture exactly when the start has failed, the capture
also after a dry run. -/
structure Process.Left (c : LaunchConfig) (capture : Bool) (code : Nat) (s : Process) : Prop where
  services : ∀ k i, s.services k i = {}
  descriptors : ∀ fd k i, s.descriptors.owner fd ≠ some (.service k i)
  processing : ∀ i, s.processing i = .absent
  result : code = 0 ∨ code = 1
  stopped : code = 0 → s.endpoint = {} ∧ (∀ fd, s.descriptors.owner fd ≠ some .endpoint) ∧
    s.capture = (c.dryRun && capture)
  failed : code = 1 → s.endpoint.server ≠ .absent ∧ s.capture = capture

/-- A step of the thread that the action waits for. -/
def LifecycleAction.Awaits : LifecycleAction → Other → Prop
  | .join k i, .serviceExits k' i' => k' = k ∧ i' = i
  | .joinProcessing i, .processingExits i' => i' = i
  | .joinServer, .server _ _ => True
  | _, _ => False

variable {capture : Bool}

/-! ## Actions that can be done -/

/-- Neither a join nor the main loop. -/
def LifecycleAction.plain : LifecycleAction → Bool
  | .join _ _ | .joinProcessing _ | .joinServer | .mainLoop => false
  | _ => true

/-- The phase with these receivers, consumers and processing threads. -/
def phaseAt (receivers consumers : Nat → Stage) (spawned : Nat → Bool)
    (udpRunning processingRunning started : Bool) (endpoint : EndpointStage)
    (capture : Option Bool) :
    Phase where
  stage
    | .receiver => receivers
    | .consumer => consumers
  spawned
  udpRunning
  processingRunning
  started
  endpoint
  capture

section
variable {receivers consumers : Nat → Stage} {spawned : Nat → Bool} {udp processing started : Bool}
  {endpoint : EndpointStage} {known : Option Bool} {rest : MainProgram} {n hi : Nat}

end

theorem Phase.Holds.running {spawned : Nat → Bool} {udp started : Bool} {endpoint : EndpointStage}
    {known : Option Bool}
    (h : (phaseAt (upIn 0 c.faces) (upIn 0 c.consumers) spawned udp true started endpoint known).Holds c s)
    (hspawned : ∀ i < c.faces, spawned i = true) : s.Running c where
  receivers i hi := by
    have hservice := h.service .receiver i
    rw [show (phaseAt (upIn 0 c.faces) (upIn 0 c.consumers) spawned udp true started endpoint known).stage
      .receiver i = .up from if_pos ⟨Nat.zero_le i, hi⟩] at hservice
    exact ⟨hservice.running, hservice.worker⟩
  processing i hi := by
    have hprocessing := h.processing i
    rw [if_pos (show (phaseAt (upIn 0 c.faces) (upIn 0 c.consumers) spawned udp true started endpoint
      known).spawned i = true from hspawned i hi)] at hprocessing
    exact hprocessing.2 rfl
  consumers j hj := by
    have hservice := h.service .consumer j
    rw [show (phaseAt (upIn 0 c.faces) (upIn 0 c.consumers) spawned udp true started endpoint known).stage
      .consumer j = .up from if_pos ⟨Nat.zero_le j, hj⟩] at hservice
    exact ⟨hservice.running, hservice.worker⟩

theorem Phase.holds_new (c : LaunchConfig) (others : List Nat) (capture : Bool) :
    (phaseAt (fun _ => .down) (fun _ => .down) (fun _ => false) false false false .off
      (some capture)).Holds c (.new others capture) where
  owned fd k i := ⟨fun h => by simp [Process.new] at h, nofun⟩
  endpointOwned := ⟨fun fd h => by simp [Process.new] at h, fun _ => rfl⟩
  disciplined := nofun
  service k i := by cases k <;> exact ⟨rfl, rfl, rfl⟩
  processing _ := rfl
  udpRunning := rfl
  processingRunning := rfl
  started := rfl
  endpoint := rfl
  alone hoff := absurd rfl hoff
  capture _ hb := Option.some.inj hb

end Qdgz300.App
