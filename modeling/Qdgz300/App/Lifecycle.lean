import Mathlib.Logic.Function.Basic
import Qdgz300.Lib.Interference

/-!
# Starting and stopping the receiver (`main.cpp`, `app_run.cpp`)

What the main thread starts and stops after `app_init`: the metrics endpoint, the receive threads
with their sockets, the processing threads and the consumers with their files. `main` is its
program. The other threads end when their flag is false; the server thread of the endpoint goes
through `run_http_server` step by step, since `MetricsCollector::stop` works on its `listen_fd` at
the same time. Each descriptor has an owner, and `closes` is the history of what was closed, and
whose it was.

The packets are not modelled here, and of the capture only whether there is a writer.
-/

namespace Qdgz300.App

open Interference

/-! ## Descriptors -/

/-- An `ArrayFaceReceiver` or a `StubConsumer`. -/
inductive ServiceKind where
  | receiver
  | consumer
  deriving DecidableEq

/-- Who has opened a descriptor; `elsewhere` are the log, the capture, the delivery and the clients
of the endpoint. -/
inductive Owner where
  | service (k : ServiceKind) (i : Nat)
  | endpoint
  | elsewhere
  deriving DecidableEq

/-- The open descriptors. `closes` says for each `close` by whom it was and whose descriptor it
hit. -/
structure Descriptors where
  owner : Nat → Option Owner
  closes : List (Owner × Option Owner) := []

namespace Descriptors

def opened (d : Descriptors) (fd : Nat) (o : Owner) : Descriptors :=
  { d with owner := Function.update d.owner fd (some o) }

def close (d : Descriptors) (o : Owner) (fd : Nat) : Descriptors where
  owner := Function.update d.owner fd none
  closes := d.closes ++ [(o, d.owner fd)]

end Descriptors

/-- What the system answers to an action of the main thread: `fd` is the new descriptor of `socket`
or of the output file, `rcvbuf` to `bind` are the calls of `initialize_socket`, `capture` is whether
there is a writer after the main loop, and `late` the test for the deadline. -/
structure Answer where
  fd : Option Nat := none
  rcvbuf : Bool := true
  freebind : Bool := true
  rcvTimeout : Bool := true
  bindIp : Bool := true
  bind : Bool := true
  capture : Bool := false
  late : Bool := false

/-- `ArrayFaceReceiver::initialize_socket`. -/
def initializeSocket (enableIpFreebind : Bool) (o : Owner) (answer : Answer) (d : Descriptors) :
    Descriptors × Option Nat :=
  match answer.fd with
  | none => (d, none)
  | some sockfd =>
    let opened := d.opened sockfd o
    if answer.rcvbuf = false then (opened.close o sockfd, none)
    else if enableIpFreebind ∧ answer.freebind = false then (opened.close o sockfd, none)
    else if answer.rcvTimeout = false then (opened.close o sockfd, none)
    else if answer.bindIp = false then (opened.close o sockfd, none)
    else if answer.bind = false then (opened.close o sockfd, none)
    else (opened, some sockfd)

/-! ## The process -/

/-- A `std::thread`; it is joinable unless it is `absent`. -/
inductive Worker where
  | absent
  | alive
  | exited
  deriving DecidableEq

/-- `running_`, `sockfd_` or the open `output_file_`, and `worker_`. -/
structure Service where
  running : Bool := false
  fd : Option Nat := none
  worker : Worker := .absent
  deriving DecidableEq

/-- Where `run_http_server` is. -/
inductive ServerPc where
  | absent
  | create
  | setup
  | serve
  /-- A call of the setup has failed: `close(listen_fd)`, `listen_fd = -1`, `started = false`. -/
  | failClose
  | failStore
  | failed
  /-- Behind the loop: `listen_fd >= 0`, `close(listen_fd)`, `listen_fd = -1`. -/
  | exitTest
  | exitClose
  | exitStore
  | exited
  deriving DecidableEq

structure Endpoint where
  started : Bool := false
  listenFd : Option Nat := none
  server : ServerPc := .absent

structure Process where
  descriptors : Descriptors
  services : ServiceKind → Nat → Service := fun _ _ => {}
  udpRunning : Bool := false
  processingRunning : Bool := false
  processing : Nat → Worker := fun _ => .absent
  endpoint : Endpoint := {}
  capture : Bool
  started : Bool := false

/-- What `app_init` leaves of the configuration. -/
structure LaunchConfig where
  dryRun : Bool := false
  /-- The faces; `array_faces` of the `UdpReceiver` has a binding for each. -/
  faces : Nat
  faces_pos : 0 < faces
  enableIpFreebind : Bool := false
  printSummary : Bool := false
  writeToFile : Bool := false

/-- The number of `stub_consumers`. -/
def LaunchConfig.consumers (c : LaunchConfig) : Nat :=
  if c.printSummary ∨ c.writeToFile then c.faces else 0

namespace Process

def setService (s : Process) (k : ServiceKind) (i : Nat) (service : Service) : Process :=
  { s with services := Function.update s.services k (Function.update (s.services k) i service) }

def setEndpoint (s : Process) (endpoint : Endpoint) : Process :=
  { s with endpoint }

/-- `close(listen_fd)`; reading `listen_fd` for it is no step of its own. -/
def closeListenFd (s : Process) : Process :=
  match s.endpoint.listenFd with
  | none => s
  | some fd => { s with descriptors := s.descriptors.close .endpoint fd }

/-- The descriptor of a service that starts; `none` when there is none to be had. -/
def openFor (c : LaunchConfig) (k : ServiceKind) (i : Nat) (answer : Answer) (d : Descriptors) :
    Descriptors × Option (Option Nat) :=
  match k with
  | .receiver =>
    let r := initializeSocket c.enableIpFreebind (.service .receiver i) answer d
    (r.1, r.2.map some)
  | .consumer =>
    if c.writeToFile then
      match answer.fd with
      | none => (d, none)
      | some fd => (d.opened fd (.service .consumer i), some (some fd))
    else (d, some none)

/-- `start()`. -/
def start (c : LaunchConfig) (s : Process) (k : ServiceKind) (i : Nat) (answer : Answer) :
    Process × Bool :=
  if (s.services k i).running then (s, true)
  else
    let r := openFor c k i answer s.descriptors
    match r.2 with
    | none => ({ s with descriptors := r.1 }, false)
    | some fd =>
      ({ s with descriptors := r.1 }.setService k i { running := true, fd, worker := .alive }, true)

end Process

/-! ## The main thread -/

inductive LifecycleAction where
  /-- `MetricsCollector::start`. -/
  | startEndpoint
  /-- `running_.exchange` of the `UdpReceiver`. -/
  | exchangeUdp (running : Bool)
  | start (k : ServiceKind) (i : Nat)
  /-- The parts of `stop()`: `running_.exchange(false)`, the join and the close. -/
  | exchange (k : ServiceKind) (i : Nat)
  | join (k : ServiceKind) (i : Nat)
  | close (k : ServiceKind) (i : Nat)
  | setProcessing (running : Bool)
  | spawnProcessing (i : Nat)
  | joinProcessing (i : Nat)
  | setStarted (started : Bool)
  | isStarted
  | mainLoop
  | stopCapture
  /-- The parts of `MetricsCollector::stop`. -/
  | exchangeEndpoint
  | testListenFd
  | closeListenFd
  | storeListenFd
  | joinServer
  /-- The test of `enforce_shutdown_timeout`. -/
  | deadline

/-- An action with its result; `none` while a join waits, or for a descriptor that is in use. -/
def perform (c : LaunchConfig) (s : Process) (a : LifecycleAction) (answer : Answer) :
    Option (Process × Bool) :=
  match a with
  | .startEndpoint =>
    if s.endpoint.started then some (s, true)
    else some (s.setEndpoint { s.endpoint with started := true, server := .create }, true)
  | .exchangeUdp running => some ({ s with udpRunning := running }, s.udpRunning)
  | .start k i =>
    if ∀ fd ∈ answer.fd, s.descriptors.owner fd = none then some (s.start c k i answer) else none
  | .exchange k i =>
    some (s.setService k i { s.services k i with running := false }, (s.services k i).running)
  | .join k i =>
    if (s.services k i).worker = .alive then none
    else some (s.setService k i { s.services k i with worker := .absent }, true)
  | .close k i =>
    match (s.services k i).fd with
    | none => some (s, true)
    | some fd =>
      some ({ s with descriptors := s.descriptors.close (.service k i) fd }.setService k i
        { s.services k i with fd := none }, true)
  | .setProcessing running => some ({ s with processingRunning := running }, true)
  | .spawnProcessing i =>
    some ({ s with processing := Function.update s.processing i .alive }, true)
  | .joinProcessing i =>
    if s.processing i = .alive then none
    else some ({ s with processing := Function.update s.processing i .absent }, true)
  | .setStarted started => some ({ s with started }, true)
  | .isStarted => some (s, s.started)
  | .mainLoop => some ({ s with capture := answer.capture }, true)
  | .stopCapture => some ({ s with capture := false }, true)
  | .exchangeEndpoint =>
    some (s.setEndpoint { s.endpoint with started := false },
      s.endpoint.started || s.endpoint.server != .absent)
  | .testListenFd => some (s, s.endpoint.listenFd.isSome)
  | .closeListenFd => some (s.closeListenFd, true)
  | .storeListenFd => some (s.setEndpoint { s.endpoint with listenFd := none }, true)
  | .joinServer =>
    if s.endpoint.server = .absent ∨ s.endpoint.server = .exited then
      some (s.setEndpoint { s.endpoint with server := .absent }, true)
    else none
  | .deadline => some (s, answer.late)

/-- How `main` ends: by `return`, or by `_Exit(1)`. -/
inductive Outcome where
  | returned (code : Nat)
  | forced
  deriving DecidableEq

abbrev MainProgram : Type := Program LifecycleAction Outcome

/-- `stop()` of a service. -/
def stopService (k : ServiceKind) (i : Nat) (rest : MainProgram) : MainProgram :=
  .act (.exchange k i) fun was =>
    if was then .act (.join k i) fun _ => .act (.close k i) fun _ => rest else rest

/-- `UdpReceiver::stop`, with so many receivers in `array_receivers`. -/
def udpReceiverStop (receivers : Nat) (rest : MainProgram) : MainProgram :=
  .act (.exchangeUdp false) fun was =>
    if was then .forEach (stopService .receiver) 0 receivers rest else rest

/-- `UdpReceiver::start`. -/
def udpReceiverStart (c : LaunchConfig) (next : Bool → MainProgram) : MainProgram :=
  .act (.exchangeUdp true) fun was =>
    if was then next true
    else if c.faces = 0 then .act (.exchangeUdp false) fun _ => next false
    else .forEach (fun i rest => .act (.start .receiver i) fun ok =>
      if ok then rest else udpReceiverStop i (next false)) 0 c.faces (next true)

/-- What `app_run` does when a consumer does not start. -/
def startRollback (c : LaunchConfig) (rest : MainProgram) : MainProgram :=
  .forEach (stopService .consumer) 0 c.consumers <|
  .act (.setProcessing false) fun _ =>
  .forEach (fun i rest => .act (.joinProcessing i) fun _ => rest) 0 c.faces <|
  udpReceiverStop c.faces rest

/-- `app_run`. -/
def appRun (c : LaunchConfig) (next : Nat → MainProgram) : MainProgram :=
  if c.dryRun then next 0
  else
    .act .startEndpoint fun ok =>
      if ok then
        udpReceiverStart c fun ok =>
          if ok then
            .act (.setProcessing true) fun _ =>
            .forEach (fun i rest => .act (.spawnProcessing i) fun _ => rest) 0 c.faces <|
            .forEach (fun j rest => .act (.start .consumer j) fun ok =>
              if ok then rest else startRollback c (next 1)) 0 c.consumers <|
            .act (.setStarted true) fun _ => .act .mainLoop fun _ => next 0
          else next 1
      else next 1

/-- `MetricsCollector::stop`. -/
def endpointStop (rest : MainProgram) : MainProgram :=
  .act .exchangeEndpoint fun was =>
    if was then
      .act .testListenFd fun isOpen =>
        if isOpen then
          .act .closeListenFd fun _ => .act .storeListenFd fun _ => .act .joinServer fun _ => rest
        else .act .joinServer fun _ => rest
    else rest

/-- `enforce_shutdown_timeout`. -/
def enforceShutdownTimeout (rest : MainProgram) : MainProgram :=
  .act .deadline fun late => if late then .done .forced else rest

/-- `app_shutdown`. -/
def appShutdown (c : LaunchConfig) (next : Nat → MainProgram) : MainProgram :=
  .act .isStarted fun started =>
    if started then
      .forEach (stopService .consumer) 0 c.consumers <| enforceShutdownTimeout <|
      udpReceiverStop c.faces <| enforceShutdownTimeout <|
      .act (.setProcessing false) fun _ =>
      .forEach (fun i rest => .act (.joinProcessing i) fun _ => rest) 0 c.faces <|
      enforceShutdownTimeout <|
      .act .stopCapture fun _ => enforceShutdownTimeout <|
      -- `flush_all`, `flush` and the flush of the delivery
      enforceShutdownTimeout <| enforceShutdownTimeout <| enforceShutdownTimeout <|
      endpointStop <| enforceShutdownTimeout <|
      .act (.setStarted false) fun _ => next 0
    else next 0

/-- `main` behind `app_init`. -/
def main (c : LaunchConfig) : MainProgram :=
  appRun c fun runRc => appShutdown c fun shutdownRc =>
    .done (.returned (if runRc ≠ 0 then runRc else shutdownRc))

/-! ## The other threads -/

inductive Other where
  /-- The receive loop, or the consumer's loop, sees its flag and ends. -/
  | serviceExits (k : ServiceKind) (i : Nat)
  | processingExits (i : Nat)
  /-- A step of `run_http_server` with the answer of the system. -/
  | server (fd : Option Nat) (ok : Bool)
  /-- Another component opens this descriptor, or closes its own. -/
  | elsewhere (fd : Nat)

/-- The next step of `run_http_server`. -/
def serverStep (s : Process) (fd : Option Nat) (ok : Bool) : Option Process :=
  let goto (s : Process) (pc : ServerPc) := s.setEndpoint { s.endpoint with server := pc }
  match s.endpoint.server with
  | .absent => none
  | .create =>
    match fd with
    | none => some (goto s .failed)
    | some fd =>
      if s.descriptors.owner fd = none then
        some ({ s with descriptors := s.descriptors.opened fd .endpoint }.setEndpoint
          { s.endpoint with listenFd := some fd, server := .setup })
      else none
  | .setup => some (goto s (if ok then .serve else .failClose))
  | .serve => some (goto s (if s.endpoint.started then .serve else .exitTest))
  | .failClose => some (goto s.closeListenFd .failStore)
  | .failStore => some (goto (s.setEndpoint { s.endpoint with listenFd := none }) .failed)
  | .failed => some (goto (s.setEndpoint { s.endpoint with started := false }) .exited)
  | .exitTest => some (goto s (if s.endpoint.listenFd.isSome then .exitClose else .exited))
  | .exitClose => some (goto s.closeListenFd .exitStore)
  | .exitStore => some (goto (s.setEndpoint { s.endpoint with listenFd := none }) .exited)
  | .exited => none

def interfere (s : Process) : Other → Option Process
  | .serviceExits k i =>
    if (s.services k i).running = false ∧ (s.services k i).worker = .alive then
      some (s.setService k i { s.services k i with worker := .exited })
    else none
  | .processingExits i =>
    if s.processingRunning = false ∧ s.processing i = .alive then
      some { s with processing := Function.update s.processing i .exited }
    else none
  | .server fd ok => serverStep s fd ok
  | .elsewhere fd =>
    match s.descriptors.owner fd with
    | none => some { s with descriptors := s.descriptors.opened fd .elsewhere }
    | some .elsewhere => some { s with descriptors := s.descriptors.close .elsewhere fd }
    | _ => none

/-- The process behind `app_init`: some descriptors of other components, and perhaps a capture. -/
def Process.new (others : List Nat) (capture : Bool) : Process where
  descriptors := { owner := fun fd => if fd ∈ others then some .elsewhere else none }
  capture

end Qdgz300.App
