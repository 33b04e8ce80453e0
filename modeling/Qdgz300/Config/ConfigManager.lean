import Qdgz300.Lib.Strtoul

/-!
# The receiver's configuration (`config/config_manager.cpp`)

`load_from_file` reads the fields that a document gives, in the order of the source, over the
defaults; then the whole is validated. The library that reads documents is a parameter (`Yaml`), of
which is known only that what it throws is a `YAML::Exception`. `std::stoul`, which reads the fields
of one byte, throws others.
-/

namespace Qdgz300.Config

open Strtoul

/-! ## The fields and their defaults -/

structure Network where
  listenPort : BitVec 16 := 9999
  bindIps : List String := []
  bindIp : String := "0.0.0.0"
  interface : String := ""
  localDeviceId : BitVec 8 := 0x01
  recvThreads : Int := 8
  recvmmsgBatchSize : Nat := 64
  socketRcvbufMb : Nat := 256
  enableSoReuseport : Bool := true
  enableIpFreebind : Bool := false
  sourceIdMap : List (BitVec 8) := []
  cpuAffinityMap : List Int := []
  sourceFilterEnabled : Bool := true
  deriving DecidableEq, Repr

structure Reassembly where
  timeoutMs : BitVec 32 := 100
  maxContexts : Nat := 1024
  maxTotalFrags : BitVec 16 := 1024
  sampleCountFixed : Nat := 4096
  maxReasmBytesPerKey : Nat := 16 * 1024 * 1024
  deriving DecidableEq, Repr

structure Reorder where
  windowSize : Nat := 512
  timeoutMs : BitVec 32 := 50
  enableZeroFill : Bool := true
  deriving DecidableEq, Repr

structure Timestamp where
  applyWindowMs : BitVec 32 := 5
  enableCheck : Bool := true
  allowUnlockedClock : Bool := true
  deriving DecidableEq, Repr

structure ControlReliability where
  rtoMs : BitVec 32 := 2500
  maxRetry : BitVec 32 := 3
  dupCmdCacheSize : Nat := 1000
  deriving DecidableEq, Repr

structure FlowControl where
  maxBufferSize : Nat := 1024
  highWatermark : Nat := 800
  lowWatermark : Nat := 200
  policy : String := "DROP_OLDEST"
  deriving DecidableEq, Repr

structure Logging where
  level : String := "INFO"
  logFile : String := ""
  deriving DecidableEq, Repr

structure Monitoring where
  metricsPort : BitVec 16 := 8080
  metricsBindIp : String := "0.0.0.0"
  deriving DecidableEq, Repr

structure Performance where
  numaNode : Int := 1
  reassemblerCacheAlignBytes : Nat := 64
  prefetchHintsEnabled : Bool := true
  qosEnabled : Bool := true
  rmaSessionTimeoutMs : BitVec 32 := 30000
  heartbeatMaxQueueDepth : Nat := 1000
  packetPoolMbPerFace : Nat := 64
  recvDrainRounds : Nat := 4
  processingCpuAffinityMap : List Int := []
  deriving DecidableEq, Repr

structure Delivery where
  method : String := "callback"
  shmName : String := "/receiver_shm"
  shmSizeMb : Nat := 64
  socketPath : String := "/tmp/tower_receiver.sock"
  reconnectIntervalMs : BitVec 32 := 100
  deriving DecidableEq, Repr

structure Capture where
  enabled : Bool := false
  spoolDir : String := "/var/spool/qdgz300/receiver"
  archiveDir : String := "/data/qdgz300/receiver"
  spoolLowWatermarkPct : BitVec 32 := 10
  archiveLowWatermarkPct : BitVec 32 := 10
  archiveMaxFiles : Nat := 256
  archiveMaxAgeDays : BitVec 32 := 7
  maxFileSizeMb : Nat := 1024
  maxFiles : Nat := 10
  filterPacketTypes : List (BitVec 8) := []
  filterSourceIds : List (BitVec 8) := []
  deriving DecidableEq, Repr

structure Queue where
  rawcpiQCapacity : Nat := 64
  rawcpiQSlotSizeMb : Nat := 2
  deriving DecidableEq, Repr

structure Consumer where
  printSummary : Bool := true
  writeToFile : Bool := false
  outputDir : String := "/tmp/receiver_rawblocks"
  statsIntervalMs : BitVec 32 := 1000
  deriving DecidableEq, Repr

structure ReceiverConfig where
  network : Network := {}
  reassembly : Reassembly := {}
  reorder : Reorder := {}
  timestamp : Timestamp := {}
  controlReliability : ControlReliability := {}
  flowControl : FlowControl := {}
  logging : Logging := {}
  monitoring : Monitoring := {}
  performance : Performance := {}
  delivery : Delivery := {}
  capture : Capture := {}
  queue : Queue := {}
  consumer : Consumer := {}
  deriving DecidableEq, Repr

/-! ## Reading a document -/

/-- What can be thrown while a document is read. -/
inductive ConfigException where
  | yaml
  | std (e : StdException)
  deriving DecidableEq, Repr

/-- The part of yaml-cpp that is used, on nodes `N`; where it throws the result is `none`. `get` is
`node[key]` of a defined node, `some none` where that is not defined. -/
structure Yaml (N : Type) where
  loadFile : String → Option N
  get : N → String → Option (Option N)
  isSequence : N → Bool
  isScalar : N → Bool
  items : N → List N
  asString : N → Option String
  asBool : N → Option Bool
  asInt : N → Option Int
  asU16 : N → Option (BitVec 16)
  asU32 : N → Option (BitVec 32)
  asSize : N → Option Nat

variable {N T : Type}

/-- A call of the library inside the `try` block. -/
def orThrow (r : Option T) : Except ConfigException T :=
  match r with
  | some v => .ok v
  | none => .error .yaml

/-- `std::stoul` in that place. -/
def stoulOrThrow (text : String) : Except ConfigException Nat :=
  match stoul text with
  | .ok n => .ok n
  | .error e => .error (.std e)

/-- `root[section][key]`, `some none` where one of the two is not defined. -/
def lookup (y : Yaml N) (root : N) (sectionName key : String) : Option (Option N) := do
  match ← y.get root sectionName with
  | none => return none
  | some node => y.get node key

/-- What one of the source's assignments does to the configuration, by calls of the library
alone. -/
abbrev LibraryRow (N : Type) := Yaml N → N → Option (ReceiverConfig → ReceiverConfig)

/-- `assign_if_present`. -/
def ifPresent (sectionName key : String) (as : Yaml N → N → Option T)
    (set : T → ReceiverConfig → ReceiverConfig) : LibraryRow N := fun y root => do
  match ← lookup y root sectionName key with
  | none => return id
  | some node => return set (← as y node)

/-- `assign_sequence_if_present`. -/
def sequenceIfPresent (sectionName key : String) (as : Yaml N → N → Option T)
    (set : List T → ReceiverConfig → ReceiverConfig) : LibraryRow N := fun y root => do
  match ← lookup y root sectionName key with
  | none => return id
  | some node =>
    if y.isSequence node then return set (← (y.items node).mapM (as y))
    else return id

def stringIfPresent (y : Yaml N) (root : N) (sectionName key : String) :
    Option (Option String) := do
  match ← lookup y root sectionName key with
  | none => return none
  | some node => return some (← y.asString node)

/-- `spool_dir`, and `output_dir` where that leaves the default. -/
def spoolDir : LibraryRow N := fun y root => do
  let spool ← stringIfPresent y root "capture" "spool_dir"
  let dir := spool.getD ({} : Capture).spoolDir
  let output ← if dir = ({} : Capture).spoolDir then stringIfPresent y root "capture" "output_dir"
    else pure none
  return fun c => { c with capture.spoolDir := output.getD dir }

/-- `assign_hex_or_decimal_u8`. -/
def hexOrDecimalU8 (sectionName key : String) (set : BitVec 8 → ReceiverConfig → ReceiverConfig)
    (y : Yaml N) (root : N) : Except ConfigException (ReceiverConfig → ReceiverConfig) := do
  match ← orThrow (lookup y root sectionName key) with
  | none => return id
  | some node =>
    let text ← orThrow (y.asString node)
    let parsed ← stoulOrThrow text
    return set (BitVec.ofNat 8 parsed)

/-- `assign_hex_or_decimal_u8_vector`. Items that are not scalars are passed over. -/
def hexOrDecimalU8Vector (sectionName key : String)
    (set : List (BitVec 8) → ReceiverConfig → ReceiverConfig) (y : Yaml N) (root : N) :
    Except ConfigException (ReceiverConfig → ReceiverConfig) := do
  match ← orThrow (lookup y root sectionName key) with
  | none => return id
  | some node =>
    if y.isSequence node then
      return set (← ((y.items node).filter y.isScalar).mapM fun item => do
        let text ← orThrow (y.asString item)
        let parsed ← stoulOrThrow text
        return BitVec.ofNat 8 parsed)
    else return id

/-- One of the source's assignments: by the library, of a byte, or of a sequence of bytes. -/
inductive Row (N : Type) where
  | library (read : LibraryRow N)
  | hexOrDecimalU8 (sectionName key : String) (set : BitVec 8 → ReceiverConfig → ReceiverConfig)
  | hexOrDecimalU8Vector (sectionName key : String)
    (set : List (BitVec 8) → ReceiverConfig → ReceiverConfig)

/-- What the assignment does to the configuration, or what it throws. -/
def Row.assign (y : Yaml N) (root : N) :
    Row N → Except ConfigException (ReceiverConfig → ReceiverConfig)
  | .library read => orThrow (read y root)
  | .hexOrDecimalU8 sectionName key set => Config.hexOrDecimalU8 sectionName key set y root
  | .hexOrDecimalU8Vector sectionName key set =>
    Config.hexOrDecimalU8Vector sectionName key set y root

/-- The assignments of `load_from_file`. -/
def rows : List (Row N) :=
  [ .library <| ifPresent "network" "listen_port" (·.asU16)
      fun v c => { c with network.listenPort := v },
    .library <| sequenceIfPresent "network" "bind_ips" (·.asString)
      fun v c => { c with network.bindIps := v },
    .library <| ifPresent "network" "bind_ip" (·.asString)
      fun v c => { c with network.bindIp := v },
    .library <| ifPresent "network" "interface" (·.asString)
      fun v c => { c with network.interface := v },
    .hexOrDecimalU8 "network" "local_device_id" fun v c => { c with network.localDeviceId := v },
    .library <| ifPresent "network" "recv_threads" (·.asInt)
      fun v c => { c with network.recvThreads := v },
    .library <| ifPresent "network" "recvmmsg_batch_size" (·.asSize)
      fun v c => { c with network.recvmmsgBatchSize := v },
    .library <| ifPresent "network" "socket_rcvbuf_mb" (·.asSize)
      fun v c => { c with network.socketRcvbufMb := v },
    .library <| ifPresent "network" "enable_so_reuseport" (·.asBool)
      fun v c => { c with network.enableSoReuseport := v },
    .library <| ifPresent "network" "enable_ip_freebind" (·.asBool)
      fun v c => { c with network.enableIpFreebind := v },
    .hexOrDecimalU8Vector "network" "source_id_map" fun v c => { c with network.sourceIdMap := v },
    .library <| sequenceIfPresent "network" "cpu_affinity_map" (·.asInt)
      fun v c => { c with network.cpuAffinityMap := v },
    .library <| ifPresent "network" "source_filter_enabled" (·.asBool)
      fun v c => { c with network.sourceFilterEnabled := v },
    .library <| ifPresent "reassembly" "timeout_ms" (·.asU32)
      fun v c => { c with reassembly.timeoutMs := v },
    .library <| ifPresent "reassembly" "max_contexts" (·.asSize)
      fun v c => { c with reassembly.maxContexts := v },
    .library <| ifPresent "reassembly" "max_total_frags" (·.asU16)
      fun v c => { c with reassembly.maxTotalFrags := v },
    .library <| ifPresent "reassembly" "sample_count_fixed" (·.asSize)
      fun v c => { c with reassembly.sampleCountFixed := v },
    .library <| ifPresent "reassembly" "max_reasm_bytes_per_key" (·.asSize)
      fun v c => { c with reassembly.maxReasmBytesPerKey := v },
    .library <| ifPresent "reorder" "window_size" (·.asSize)
      fun v c => { c with reorder.windowSize := v },
    .library <| ifPresent "reorder" "timeout_ms" (·.asU32)
      fun v c => { c with reorder.timeoutMs := v },
    .library <| ifPresent "reorder" "enable_zero_fill" (·.asBool)
      fun v c => { c with reorder.enableZeroFill := v },
    .library <| ifPresent "timestamp" "apply_window_ms" (·.asU32)
      fun v c => { c with timestamp.applyWindowMs := v },
    .library <| ifPresent "timestamp" "enable_check" (·.asBool)
      fun v c => { c with timestamp.enableCheck := v },
    .library <| ifPresent "timestamp" "allow_unlocked_clock" (·.asBool)
      fun v c => { c with timestamp.allowUnlockedClock := v },
    .library <| ifPresent "control_reliability" "rto_ms" (·.asU32)
      fun v c => { c with controlReliability.rtoMs := v },
    .library <| ifPresent "control_reliability" "max_retry" (·.asU32)
      fun v c => { c with controlReliability.maxRetry := v },
    .library <| ifPresent "control_reliability" "dup_cmd_cache_size" (·.asSize)
      fun v c => { c with controlReliability.dupCmdCacheSize := v },
    .library <| ifPresent "flow_control" "max_buffer_size" (·.asSize)
      fun v c => { c with flowControl.maxBufferSize := v },
    .library <| ifPresent "flow_control" "high_watermark" (·.asSize)
      fun v c => { c with flowControl.highWatermark := v },
    .library <| ifPresent "flow_control" "low_watermark" (·.asSize)
      fun v c => { c with flowControl.lowWatermark := v },
    .library <| ifPresent "flow_control" "policy" (·.asString)
      fun v c => { c with flowControl.policy := v },
    .library <| ifPresent "logging" "level" (·.asString) fun v c => { c with logging.level := v },
    .library <| ifPresent "logging" "log_file" (·.asString)
      fun v c => { c with logging.logFile := v },
    .library <| ifPresent "monitoring" "metrics_port" (·.asU16)
      fun v c => { c with monitoring.metricsPort := v },
    .library <| ifPresent "monitoring" "metrics_bind_ip" (·.asString)
      fun v c => { c with monitoring.metricsBindIp := v },
    .library <| ifPresent "performance" "numa_node" (·.asInt)
      fun v c => { c with performance.numaNode := v },
    .library <| ifPresent "performance" "reassembler_cache_align_bytes" (·.asSize)
      fun v c => { c with performance.reassemblerCacheAlignBytes := v },
    .library <| ifPresent "performance" "prefetch_hints_enabled" (·.asBool)
      fun v c => { c with performance.prefetchHintsEnabled := v },
    .library <| ifPresent "performance" "qos_enabled" (·.asBool)
      fun v c => { c with performance.qosEnabled := v },
    .library <| ifPresent "performance" "rma_session_timeout_ms" (·.asU32)
      fun v c => { c with performance.rmaSessionTimeoutMs := v },
    .library <| ifPresent "performance" "heartbeat_max_queue_depth" (·.asSize)
      fun v c => { c with performance.heartbeatMaxQueueDepth := v },
    .library <| ifPresent "performance" "packet_pool_mb_per_face" (·.asSize)
      fun v c => { c with performance.packetPoolMbPerFace := v },
    .library <| ifPresent "performance" "recv_drain_rounds" (·.asSize)
      fun v c => { c with performance.recvDrainRounds := v },
    .library <| sequenceIfPresent "performance" "processing_cpu_affinity_map" (·.asInt)
      fun v c => { c with performance.processingCpuAffinityMap := v },
    .library <| ifPresent "delivery" "method" (·.asString)
      fun v c => { c with delivery.method := v },
    .library <| ifPresent "delivery" "shm_name" (·.asString)
      fun v c => { c with delivery.shmName := v },
    .library <| ifPresent "delivery" "shm_size_mb" (·.asSize)
      fun v c => { c with delivery.shmSizeMb := v },
    .library <| ifPresent "delivery" "socket_path" (·.asString)
      fun v c => { c with delivery.socketPath := v },
    .library <| ifPresent "delivery" "reconnect_interval_ms" (·.asU32)
      fun v c => { c with delivery.reconnectIntervalMs := v },
    .library <| ifPresent "capture" "enabled" (·.asBool)
      fun v c => { c with capture.enabled := v },
    .library spoolDir,
    .library <| ifPresent "capture" "archive_dir" (·.asString)
      fun v c => { c with capture.archiveDir := v },
    .library <| ifPresent "capture" "spool_low_watermark_pct" (·.asU32)
      fun v c => { c with capture.spoolLowWatermarkPct := v },
    .library <| ifPresent "capture" "archive_low_watermark_pct" (·.asU32)
      fun v c => { c with capture.archiveLowWatermarkPct := v },
    .library <| ifPresent "capture" "archive_max_files" (·.asSize)
      fun v c => { c with capture.archiveMaxFiles := v },
    .library <| ifPresent "capture" "archive_max_age_days" (·.asU32)
      fun v c => { c with capture.archiveMaxAgeDays := v },
    .library <| ifPresent "capture" "max_file_size_mb" (·.asSize)
      fun v c => { c with capture.maxFileSizeMb := v },
    .library <| ifPresent "capture" "max_files" (·.asSize)
      fun v c => { c with capture.maxFiles := v },
    .hexOrDecimalU8Vector "capture" "filter_packet_types"
      fun v c => { c with capture.filterPacketTypes := v },
    .hexOrDecimalU8Vector "capture" "filter_source_ids"
      fun v c => { c with capture.filterSourceIds := v },
    .library <| ifPresent "queue" "rawcpi_q_capacity" (·.asSize)
      fun v c => { c with queue.rawcpiQCapacity := v },
    .library <| ifPresent "queue" "rawcpi_q_slot_size_mb" (·.asSize)
      fun v c => { c with queue.rawcpiQSlotSizeMb := v },
    .library <| ifPresent "consumer" "print_summary" (·.asBool)
      fun v c => { c with consumer.printSummary := v },
    .library <| ifPresent "consumer" "write_to_file" (·.asBool)
      fun v c => { c with consumer.writeToFile := v },
    .library <| ifPresent "consumer" "output_dir" (·.asString)
      fun v c => { c with consumer.outputDir := v },
    .library <| ifPresent "consumer" "stats_interval_ms" (·.asU32)
      fun v c => { c with consumer.statsIntervalMs := v } ]

/-- The `try` block of `load_from_file`. -/
def readConfig (y : Yaml N) (root : N) : Except ConfigException ReceiverConfig :=
  rows.foldlM (fun cfg row => (· cfg) <$> row.assign y root) {}

/-! ## Validation -/

/-- `validate`. -/
def validate (config : ReceiverConfig) : Bool :=
  if config.network.listenPort = 0 then false
  else if config.network.recvThreads ≤ 0 then false
  else if (config.network.bindIps ≠ [] ∨ config.network.sourceIdMap ≠ [] ∨
      config.network.cpuAffinityMap ≠ []) ∧
      (config.network.bindIps.length ≠ 3 ∨ config.network.sourceIdMap.length ≠ 3 ∨
        config.network.cpuAffinityMap.length ≠ 3) then false
  else if ¬ config.network.bindIps.Nodup then false
  else if ∃ ip ∈ config.network.bindIps, ip = "" then false
  else if ¬ config.network.sourceIdMap.Nodup then false
  else if ∃ sourceId ∈ config.network.sourceIdMap, sourceId < 0x11#8 ∨ 0x13#8 < sourceId then false
  else if ¬ config.network.cpuAffinityMap.Nodup then false
  else if ∃ cpu ∈ config.network.cpuAffinityMap, cpu < 0 then false
  else if config.reassembly.maxTotalFrags = 0 ∨ 1024 < config.reassembly.maxTotalFrags.toNat then
    false
  else if config.reassembly.maxReasmBytesPerKey = 0 then false
  else if config.reorder.windowSize = 0 then false
  else if config.controlReliability.rtoMs = 0 ∨ 60000 < config.controlReliability.rtoMs.toNat then
    false
  else if config.controlReliability.maxRetry = 0 ∨
      10 < config.controlReliability.maxRetry.toNat then false
  else if config.controlReliability.dupCmdCacheSize = 0 ∨
      100000 < config.controlReliability.dupCmdCacheSize then false
  else if config.flowControl.highWatermark < config.flowControl.lowWatermark then false
  else if config.flowControl.maxBufferSize < config.flowControl.highWatermark then false
  else if config.flowControl.policy ≠ "DROP_OLDEST" ∧ config.flowControl.policy ≠ "REJECT_NEW" then
    false
  else if config.performance.numaNode ≠ 1 then false
  else if config.performance.reassemblerCacheAlignBytes < 64 ∨
      config.performance.reassemblerCacheAlignBytes &&&
        (config.performance.reassemblerCacheAlignBytes - 1) ≠ 0 then false
  else if config.performance.rmaSessionTimeoutMs = 0 ∨
      300000 < config.performance.rmaSessionTimeoutMs.toNat then false
  else if config.performance.heartbeatMaxQueueDepth = 0 ∨
      100000 < config.performance.heartbeatMaxQueueDepth then false
  else if config.performance.packetPoolMbPerFace < 32 ∨
      512 < config.performance.packetPoolMbPerFace then false
  else if config.performance.recvDrainRounds = 0 ∨
    16 < config.performance.recvDrainRounds then false
  else if config.performance.processingCpuAffinityMap ≠ [] ∧
      ¬ config.performance.processingCpuAffinityMap.Nodup then false
  else if ∃ cpu ∈ config.performance.processingCpuAffinityMap, cpu < 0 then false
  else if config.performance.processingCpuAffinityMap ≠ [] ∧
      config.performance.processingCpuAffinityMap.length ≠
        (if config.network.bindIps ≠ [] then config.network.bindIps.length else 1) then false
  else if config.delivery.reconnectIntervalMs = 0 then false
  else if config.capture.maxFiles = 0 then false
  else if config.capture.enabled ∧ config.capture.spoolDir = "" then false
  else if config.capture.archiveMaxFiles = 0 ∨ 100000 < config.capture.archiveMaxFiles then false
  else if config.capture.spoolLowWatermarkPct = 0 ∨
      99 < config.capture.spoolLowWatermarkPct.toNat then false
  else if config.capture.archiveLowWatermarkPct = 0 ∨
      99 < config.capture.archiveLowWatermarkPct.toNat then false
  else if config.capture.archiveMaxAgeDays = 0 ∨
      3650 < config.capture.archiveMaxAgeDays.toNat then false
  else if config.queue.rawcpiQCapacity = 0 ∨ 1024 < config.queue.rawcpiQCapacity then false
  else if config.queue.rawcpiQSlotSizeMb = 0 ∨ 16 < config.queue.rawcpiQSlotSizeMb then false
  else if config.consumer.statsIntervalMs = 0 ∨
      60000 < config.consumer.statsIntervalMs.toNat then false
  else if config.consumer.writeToFile ∧ config.consumer.outputDir = "" then false
  else true

/-! ## The manager -/

/-- `ConfigManager::Impl`, with callbacks `γ`. -/
structure ConfigManager (γ : Type) where
  currentConfig : ReceiverConfig := {}
  configFilePath : String := ""
  callbacks : List γ := []

/-- What a call leaves: the manager, the callbacks it ran, and its result unless it throws. -/
structure Outcome (γ : Type) where
  manager : ConfigManager γ
  called : List (γ × ReceiverConfig) := []
  result : Except ConfigException Bool

namespace ConfigManager

variable {γ : Type}

/-- `load_from_file`. Only a `YAML::Exception` is caught. -/
def loadFromFile (y : Yaml N) (m : ConfigManager γ) (configFile : String) : Outcome γ :=
  match (do readConfig y (← orThrow (y.loadFile configFile))) with
  | .error .yaml => { manager := m, result := .ok false }
  | .error (.std e) => { manager := m, result := .error (.std e) }
  | .ok cfg =>
    if validate cfg then
      { manager := { m with currentConfig := cfg, configFilePath := configFile }, result := .ok true }
    else { manager := m, result := .ok false }

/-- `reload`. -/
def reload (y : Yaml N) (m : ConfigManager γ) : Outcome γ :=
  if m.configFilePath = "" then { manager := m, result := .ok false }
  else
    let loaded := m.loadFromFile y m.configFilePath
    match loaded.result with
    | .ok true =>
      { loaded with
        called := loaded.manager.callbacks.map fun cb => (cb, loaded.manager.currentConfig) }
    | .ok false => loaded
    | .error _ => loaded

end ConfigManager

end Qdgz300.Config
