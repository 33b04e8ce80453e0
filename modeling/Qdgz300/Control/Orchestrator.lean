import Mathlib.Logic.Function.Basic
import Qdgz300.Lib.Machine

/-!
# The control plane (`src/control`, `src/common/system_state.cpp`)

The state machine with its transition table, the orchestrator over the registered modules, the
command bridge and the runtime monitor. A module is given by the callbacks that it has; what its
start callback returns is an input of each call. `last` is history: the last start or stop callback
that was executed on each module, by its place in the list.
-/

namespace Qdgz300.Control

/-! ## The state machine -/

inductive SystemState where
  | init
  | standby
  | running
  | degraded
  | fault
  deriving DecidableEq, Repr

/-- `TRANSITION_TABLE`: the edges, one for each rule. -/
def transitionTable : List (SystemState × SystemState) :=
  [(.init, .standby), (.init, .fault), (.standby, .running),
    -- #4 to #8, the reasons to degrade
    (.running, .degraded), (.running, .degraded), (.running, .degraded), (.running, .degraded),
    (.running, .degraded),
    (.running, .fault), (.running, .fault), (.degraded, .running),
    -- #12 to #15
    (.degraded, .fault), (.degraded, .fault), (.degraded, .fault), (.degraded, .fault),
    (.fault, .init), (.fault, .standby)]

/-- `is_transition_allowed`. -/
def isTransitionAllowed (source target : SystemState) : Bool :=
  if target = .fault then true
  else transitionTable.any fun rule => rule.1 == source && rule.2 == target

/-- `StateMachine::transition`: the state and the result. -/
def transition (current target : SystemState) : SystemState × Bool :=
  if isTransitionAllowed current target = false then (current, false) else (target, true)

/-! ## The orchestrator -/

/-- `Orchestrator::ModuleHandle`: which callbacks a module has. -/
structure ModuleHandle where
  hasStart : Bool := true
  hasStop : Bool := true
  deriving DecidableEq

/-- An executed callback. -/
inductive Callback where
  | start (success : Bool)
  | stop
  deriving DecidableEq

structure ControlPlane where
  modules : List ModuleHandle
  current : SystemState := .init
  healthy : Bool := true
  unhealthyMs : BitVec 32 := 0
  last : Nat → Option Callback := fun _ => none

namespace ControlPlane

/-- The modules registered, nothing executed. -/
def new (modules : List ModuleHandle) : ControlPlane := { modules }

/-- `Orchestrator::boot`. -/
def boot (s : ControlPlane) : ControlPlane × Bool :=
  let moved := transition s.current .standby
  ({ s with current := moved.1 }, moved.2)

/-- The loop of `start`: it ends at the first module that does not start. -/
def startModules (results : Nat → Bool) :
    List ModuleHandle → Nat → (Nat → Option Callback) → (Nat → Option Callback) × Bool
  | [], _, last => (last, true)
  | m :: ms, i, last =>
    if m.hasStart then
      if results i then startModules results ms (i + 1) (Function.update last i (some (.start true)))
      else (Function.update last i (some (.start false)), false)
    else startModules results ms (i + 1) last

/-- `Orchestrator::start`; `results i` is what the start callback of module `i` returns. -/
def start (s : ControlPlane) (results : Nat → Bool) : ControlPlane × Bool :=
  let started := startModules results s.modules 0 s.last
  if started.2 = false then ({ s with last := started.1 }, false)
  else
    let moved := transition s.current .running
    ({ s with current := moved.1, last := started.1 }, moved.2)

/-- The loop of `stop`, over the modules with their places, last one first. -/
def stopModules (modules : List (ModuleHandle × Nat)) (last : Nat → Option Callback) :
    Nat → Option Callback :=
  modules.foldl (fun last m => if m.1.hasStop then Function.update last m.2 (some .stop) else last) last

/-- `Orchestrator::stop`. The result of the transition is ignored. -/
def stop (s : ControlPlane) : ControlPlane :=
  { s with
    last := stopModules s.modules.zipIdx.reverse s.last
    current := (transition s.current .standby).1 }

/-- `Orchestrator::reset`. -/
def reset (s : ControlPlane) : ControlPlane × Bool :=
  let moved := transition s.stop.current .init
  ({ s.stop with current := moved.1 }, moved.2)

end ControlPlane

/-! ## The command bridge -/

/-- The commands that `handle` compares its string with. -/
inductive Command where
  | start
  | stop
  | reset
  | queryState
  | unsupported
  deriving DecidableEq

/-- The comparisons of `handle`. -/
def Command.ofString (command : String) : Command :=
  if command = "START" then .start
  else if command = "STOP" then .stop
  else if command = "RESET" then .reset
  else if command = "QUERY_STATE" then .queryState
  else .unsupported

inductive ErrorCode where
  | ok
  | orcInvalidTransition
  | orcEventThrottled
  deriving DecidableEq

structure CommandAck where
  success : Bool
  errorCode : ErrorCode
  message : String
  deriving DecidableEq

namespace ControlPlane

/-- `CommandBridge::handle`, of the command that the string is. -/
def handle (s : ControlPlane) (results : Nat → Bool) : Command → ControlPlane × CommandAck
  | .start =>
    let started := s.start results
    (started.1, if started.2 then ⟨true, .ok, "started"⟩
      else ⟨false, .orcInvalidTransition, "start rejected"⟩)
  | .stop => (s.stop, ⟨true, .ok, "stopped"⟩)
  | .reset =>
    (s.reset.1, if s.reset.2 then ⟨true, .ok, "reset"⟩
      else ⟨false, .orcInvalidTransition, "reset rejected"⟩)
  | .queryState => (s, ⟨true, .ok, "query accepted"⟩)
  | .unsupported => (s, ⟨false, .orcEventThrottled, "unsupported command"⟩)

/-! ## The runtime monitor -/

/-- `T1_DEGRADED_MS`. -/
def t1DegradedMs : Nat := 500

/-- `T2_FAULT_MS`. -/
def t2FaultMs : Nat := 2000

/-- `RuntimeMonitor::report_health`. -/
def reportHealth (s : ControlPlane) (healthy : Bool) (unhealthyMs : BitVec 32) : ControlPlane :=
  { s with healthy, unhealthyMs }

/-- `RuntimeMonitor::tick`. -/
def tick (s : ControlPlane) : ControlPlane :=
  if s.healthy then
    if s.current = .degraded then { s with current := (transition s.current .running).1 } else s
  else if t2FaultMs ≤ s.unhealthyMs.toNat then { s with current := (transition s.current .fault).1 }
  else if t1DegradedMs ≤ s.unhealthyMs.toNat ∧ s.current = .running then
    { s with current := (transition s.current .degraded).1 }
  else s

end ControlPlane

/-! ## Runs -/

/-- One step of the control plane. -/
inductive ControlOp where
  | boot
  | handle (command : String) (results : Nat → Bool)
  | reportHealth (healthy : Bool) (unhealthyMs : BitVec 32)
  | tick

/-- A step, with the acknowledgement of a command. -/
def ControlPlane.step (s : ControlPlane) : ControlOp → ControlPlane × List CommandAck
  | .boot => (s.boot.1, [])
  | .handle command results =>
    let handled := s.handle results (.ofString command)
    (handled.1, [handled.2])
  | .reportHealth healthy unhealthyMs => (s.reportHealth healthy unhealthyMs, [])
  | .tick => (s.tick, [])

end Qdgz300.Control
