import Mathlib.Data.BitVec
import Qdgz300.App.Shutdown
import Qdgz300.Lib.DeltaReport

/-!
# The main loop (`app_run` in `src/m01_receiver/app_run.cpp`, `src/m01_receiver/signal_handler.cpp`)

`step` lets one party act: a signal arrives (its handler counts it and then sets a flag), a
processing thread makes a call of a data handler on the pipeline of its face, or the main thread
goes on. The accesses to the signals' flags are one step each, and so is the load of each counter
that the loop reports; a call on a pipeline is one step. Counters are numbers, `uint64_t` in the
source; the two sums of a round, one of them over differences of counters, have their 64 bits.

Left out are the gauges of the receive queues and of the packet pools, which are copied as they are,
the system metrics every five seconds and the log lines.
-/

namespace Qdgz300.App

open Protocol Pipeline

/-! ## Signals -/

inductive Signal where
  | sigint | sigterm | sighup
  deriving DecidableEq, Repr

/-- `g_running`, `g_reload_requested` and the three counters. `published` is history: the handlers
that have set their flag. -/
structure SignalFlags where
  running : Bool := true
  reloadRequested : Bool := false
  received : Signal → Nat := fun _ => 0
  published : Signal → Nat := fun _ => 0

/-- The first access of `signal_handler_impl`. -/
def SignalFlags.count (flags : SignalFlags) (signal : Signal) : SignalFlags :=
  { flags with received := Function.update flags.received signal (flags.received signal + 1) }

/-- Its second access. -/
def SignalFlags.publish (flags : SignalFlags) (signal : Signal) : SignalFlags :=
  let flags := { flags with
    published := Function.update flags.published signal (flags.published signal + 1) }
  match signal with
  | .sighup => { flags with reloadRequested := true }
  | _ => { flags with running := false }

/-! ## Metrics -/

/-- `DropReasonIndex`. -/
inductive DropReasonIndex where
  | invalidMagic | versionMismatch | destIdMismatch | lengthMismatch | nonDataPacket
  | sequenceDuplicate | sequenceOutOfWindow | bufferOverflow | timeout | clockUnlocked
  | lateFragment | reasmDuplicateFrag | reasmTimeout | maxContextsExceeded | reasmBytesOverflow
  deriving DecidableEq, Repr

/-- The counter of a face that the main loop reports under a reason. -/
def dropCount (face : FacePipeline) : DropReasonIndex → Nat
  | .lateFragment => face.1.stats.lateFragments
  | .reasmDuplicateFrag => face.1.stats.duplicateFragments
  | .reasmTimeout => face.1.stats.framesIncomplete
  | .maxContextsExceeded => face.1.stats.contextsOverflow
  | .reasmBytesOverflow => face.1.stats.reasmBytesOverflow
  | .sequenceDuplicate => face.2.stats.packetsDuplicate
  | .timeout => face.2.stats.packetsZeroFilled
  | _ => 0

/-- The metrics that the main loop sets. -/
structure LoopMetrics where
  packetsByReason : DropReasonIndex → Nat := fun _ => 0
  signalReceived : Signal → Nat := fun _ => 0
  configReloads : Nat := 0
  activeContexts : BitVec 64 := 0
  missingFragmentsTotal : BitVec 64 := 0

/-- A face in the main loop: its pipeline and the `last_…` marks of its counters. The rest is
history: the pipeline at the last load of each counter. -/
structure LoopFace where
  pipeline : FacePipeline
  last : DropReasonIndex → Nat := fun _ => 0
  reported : DropReasonIndex → FacePipeline
  createdRead : FacePipeline
  destroyedRead : FacePipeline
  missingRead : FacePipeline

/-- `total_active_contexts` and `total_missing_fragments`. -/
structure RoundSums where
  activeContexts : BitVec 64 := 0
  missingFragments : BitVec 64 := 0

/-- The drop counters in the order of their loads. -/
def reportedReasons : List DropReasonIndex :=
  [.lateFragment, .reasmDuplicateFrag, .reasmTimeout, .maxContextsExceeded, .reasmBytesOverflow,
    .sequenceDuplicate, .timeout]

/-! ## Reload -/

inductive LogLevel where
  | debug | info | warn | error
  deriving DecidableEq, Repr

def parseLogLevel (level : String) : LogLevel :=
  if level = "DEBUG" then .debug
  else if level = "WARN" then .warn
  else if level = "ERROR" then .error
  else .info

/-- The capture: the configuration of the writer, if there is one, and whether the hook is set. -/
structure CaptureState where
  pcapWriter : Option Config.Capture := none
  captureHook : Bool := false

/-- `apply_capture_runtime_config`; `starts` tells whether a new writer starts. -/
def applyCaptureRuntimeConfig (capture : CaptureState) (cfg : Config.Capture) (starts : Bool) :
    CaptureState :=
  if cfg.enabled = false then { pcapWriter := none, captureHook := false }
  else if starts = false then capture
  else { pcapWriter := some cfg, captureHook := true }

/-- `set_timeout_ms` of both parts of a face. -/
def setTimeouts (config : Config.ReceiverConfig) (face : FacePipeline) : FacePipeline :=
  (face.1.setTimeoutMs config.reassembly.timeoutMs, face.2.setTimeoutMs config.reorder.timeoutMs)

/-! ## The loop -/

/-- Where the main thread is; `i` is the face of a loop. -/
inductive LoopPc where
  /-- `g_running.load`. -/
  | check
  /-- A signal's counter. -/
  | signal (signal : Signal)
  /-- `g_reload_requested.exchange`, and the reload. -/
  | reload
  /-- Within `reload`: the callbacks that have yet to be called. -/
  | callback (configs : List Config.ReceiverConfig)
  /-- Within a callback: the timeouts of face `i` are next. -/
  | apply (config : Config.ReceiverConfig) (rest : List Config.ReceiverConfig) (i : Nat)
  /-- The timeout scan: `check_timeouts` of face `i`. -/
  | sweep (i : Nat)
  /-- `check_timeout` of face `i`. -/
  | sweepReorderer (i : Nat)
  /-- The reports of face `i`, with the sums so far: `contexts_created` and `contexts_destroyed` are
  next, in the order that the compiler has chosen. -/
  | contexts (i : Nat) (sums : RoundSums)
  /-- `contexts_destroyed`. -/
  | destroyed (i : Nat) (sums : RoundSums) (created : BitVec 64)
  /-- `contexts_created`, in the other order. -/
  | created (i : Nat) (sums : RoundSums) (destroyed : BitVec 64)
  /-- `total_missing_fragments`. -/
  | missing (i : Nat) (sums : RoundSums)
  /-- The drop counters that are left. -/
  | drops (i : Nat) (sums : RoundSums) (rest : List DropReasonIndex)
  | returned
  /-- An exception left `app_run`. -/
  | thrown

/-- `AppContext`, the globals and the main thread in its loop. The last three are history: the
number of published `SIGHUP` at the last exchange that found one, the number of these exchanges, and
the capture configurations that were applied, each with whether its writer would start. -/
structure MainLoop where
  pc : LoopPc
  flags : SignalFlags
  /-- The handlers between their two accesses. -/
  handlers : List Signal
  lastReceived : Signal → Nat
  config : Config.ConfigManager Unit
  logLevel : LogLevel
  capture : CaptureState
  numFaces : Nat
  faces : Nat → LoopFace
  metrics : LoopMetrics
  taken : Nat
  attempts : Nat
  captures : List (Config.Capture × Bool)

/-- What comes from outside in a step of the main thread: the documents, the order of `contexts_`,
whether a capture writer starts, and which of the two context counters is loaded first. -/
structure LoopEnv (N : Type) where
  documents : Config.Yaml N
  order : IterOrder
  starts : Bool
  createdFirst : Bool

/-- The party that acts. -/
inductive LoopLabel (N : Type) where
  | signal (signal : Signal)
  | publish (k : Nat)
  | data (i : Nat) (call : FragmentStorage × ParsedPacket)
  | main (env : LoopEnv N)

namespace MainLoop

variable {N : Type}

/-- What `app_init` and the start of `app_run` leave; `starts` tells whether the capture writer
starts. -/
def start (config : Config.ConfigManager Unit) (created : Nat → Int) (starts : Bool)
    (numFaces : Nat) :
    MainLoop where
  pc := .check
  flags := {}
  handlers := []
  lastReceived := fun _ => 0
  config := { config with callbacks := [()] }
  logLevel := parseLogLevel config.currentConfig.logging.level
  capture := applyCaptureRuntimeConfig {} config.currentConfig.capture starts
  numFaces
  faces := fun i =>
    let face := FacePipeline.new (reassemblerConfig config.currentConfig)
      { windowSize := config.currentConfig.reorder.windowSize
        timeoutMs := config.currentConfig.reorder.timeoutMs
        enableZeroFill := config.currentConfig.reorder.enableZeroFill } (created i)
    { pipeline := face
      reported := fun _ => face
      createdRead := face
      destroyedRead := face
      missingRead := face }
  metrics := {}
  taken := 0
  attempts := 0
  captures := [(config.currentConfig.capture, starts)]

def setFace (s : MainLoop) (i : Nat) (face : LoopFace) : MainLoop :=
  { s with faces := Function.update s.faces i face }

def setPipeline (s : MainLoop) (i : Nat) (pipeline : FacePipeline) : MainLoop :=
  s.setFace i { s.faces i with pipeline }

/-- The report of a signal. -/
def reportSignal (s : MainLoop) (signal : Signal) : MainLoop :=
  let now := s.flags.received signal
  if s.lastReceived signal < now then
    let total := s.metrics.signalReceived signal + (now - s.lastReceived signal)
    { s with
      metrics.signalReceived := Function.update s.metrics.signalReceived signal total
      lastReceived := Function.update s.lastReceived signal now }
  else s

/-- `check_timeouts` of a face. -/
def checkTimeouts (clocks : FaceClocks) (order : IterOrder) (face : FacePipeline) : FacePipeline :=
  (face.step clocks.system clocks.steady (.reassembler (.checkTimeouts order))).1

/-- `check_timeout`. -/
def checkTimeout (clocks : FaceClocks) (face : FacePipeline) : FacePipeline :=
  (face.step clocks.system clocks.steady .checkTimeout).1

/-- The load of a drop counter of face `i`, and the report of its growth since the mark. -/
def reportDrop (s : MainLoop) (i : Nat) (reason : DropReasonIndex) : MainLoop :=
  let face := s.faces i
  let now := dropCount face.pipeline reason
  { s with
    metrics.packetsByReason := Function.update s.metrics.packetsByReason reason
      (s.metrics.packetsByReason reason + DeltaReport.delta (face.last reason) now)
    faces := Function.update s.faces i
      { face with
        last := Function.update face.last reason (DeltaReport.mark (face.last reason) now)
        reported := Function.update face.reported reason face.pipeline } }

/-- The loads of the context counters of a face and of its missing fragments. -/
def loadCreated (face : LoopFace) : BitVec 64 :=
    BitVec.ofNat 64 face.pipeline.1.stats.contextsCreated

def loadDestroyed (face : LoopFace) : BitVec 64 :=
  BitVec.ofNat 64 face.pipeline.1.stats.contextsDestroyed

def loadMissing (face : LoopFace) : BitVec 64 :=
  BitVec.ofNat 64 face.pipeline.1.stats.totalMissingFragments

def readCreated (s : MainLoop) (i : Nat) : MainLoop :=
  s.setFace i { s.faces i with createdRead := (s.faces i).pipeline }

def readDestroyed (s : MainLoop) (i : Nat) : MainLoop :=
  s.setFace i { s.faces i with destroyedRead := (s.faces i).pipeline }

def readMissing (s : MainLoop) (i : Nat) : MainLoop :=
  s.setFace i { s.faces i with missingRead := (s.faces i).pipeline }

/-- The next step within the reports, or the gauges at their end. -/
def report (createdFirst : Bool) (s : MainLoop) : MainLoop :=
  match s.pc with
  | .contexts i sums =>
    if i < s.numFaces then
      if createdFirst then { s.readCreated i with pc := .destroyed i sums (loadCreated (s.faces i)) }
      else { s.readDestroyed i with pc := .created i sums (loadDestroyed (s.faces i)) }
    else
      { s with
        metrics := { s.metrics with
          activeContexts := sums.activeContexts
          missingFragmentsTotal := sums.missingFragments }
        pc := .check }
  | .destroyed i sums created =>
    let sums := { sums with
      activeContexts := sums.activeContexts + (created - loadDestroyed (s.faces i)) }
    { s.readDestroyed i with pc := .missing i sums }
  | .created i sums destroyed =>
    let sums := { sums with
      activeContexts := sums.activeContexts + (loadCreated (s.faces i) - destroyed) }
    { s.readCreated i with pc := .missing i sums }
  | .missing i sums =>
    let sums := { sums with missingFragments := sums.missingFragments + loadMissing (s.faces i) }
    { s.readMissing i with pc := .drops i sums reportedReasons }
  | .drops i sums (reason :: rest) => { s.reportDrop i reason with pc := .drops i sums rest }
  | .drops i sums [] => { s with pc := .contexts (i + 1) sums }
  | _ => s

/-- `ConfigManager::reload`, when it was asked for. -/
def reload (documents : Config.Yaml N) (s : MainLoop) : MainLoop :=
  let outcome := s.config.reload documents
  let s := { s with
    flags := { s.flags with reloadRequested := false }
    config := outcome.manager
    taken := s.flags.published .sighup
    attempts := s.attempts + 1 }
  match outcome.result with
  | .ok true => { s with pc := .callback (outcome.called.map Prod.snd) }
  | .ok false => { s with pc := .sweep 0 }
  | .error _ => { s with pc := .thrown }

/-- The next step of the main thread. -/
def main (clocks : Nat → FaceClocks) (env : LoopEnv N) (s : MainLoop) : Option MainLoop :=
  match s.pc with
  | .check => some { s with pc := if s.flags.running then .signal .sigint else .returned }
  | .signal .sigint => some { s.reportSignal .sigint with pc := .signal .sigterm }
  | .signal .sigterm => some { s.reportSignal .sigterm with pc := .signal .sighup }
  | .signal .sighup => some { s.reportSignal .sighup with pc := .reload }
  | .reload =>
    if s.flags.reloadRequested then some (s.reload env.documents)
    else some { s with pc := .sweep 0 }
  | .callback [] =>
    some { s with
      metrics.configReloads := s.metrics.configReloads + 1
      pc := .sweep 0 }
  | .callback (config :: rest) =>
    some { s with logLevel := parseLogLevel config.logging.level, pc := .apply config rest 0 }
  | .apply config rest i =>
    if i < s.numFaces then
      some { s.setPipeline i (setTimeouts config (s.faces i).pipeline) with
        pc := .apply config rest (i + 1) }
    else
      some { s with
        capture := applyCaptureRuntimeConfig s.capture config.capture env.starts
        captures := s.captures ++ [(config.capture, env.starts)]
        pc := .callback rest }
  | .sweep i =>
    if i < s.numFaces then
      some { s.setPipeline i (checkTimeouts (clocks i) env.order (s.faces i).pipeline) with
        pc := .sweepReorderer i }
    else some { s with pc := .contexts 0 {} }
  | .sweepReorderer i =>
    some { s.setPipeline i (checkTimeout (clocks i) (s.faces i).pipeline) with pc := .sweep (i + 1) }
  | .returned | .thrown => none
  | _ => some (s.report env.createdFirst)

/-- One step of one party. -/
def step (clocks : Nat → FaceClocks) (s : MainLoop) : LoopLabel N → Option MainLoop
  | .signal signal => some { s with flags := s.flags.count signal, handlers := s.handlers ++ [signal] }
  | .publish k =>
    s.handlers[k]?.map fun signal =>
      { s with flags := s.flags.publish signal, handlers := s.handlers.eraseIdx k }
  | .data i call =>
    if i < s.numFaces then
      some (s.setPipeline i (Machine.feed (onData (clocks i).system) (onFrame (clocks i).steady)
        (s.faces i).pipeline call).1)
    else none
  | .main env => s.main clocks env

end MainLoop

end Qdgz300.App
