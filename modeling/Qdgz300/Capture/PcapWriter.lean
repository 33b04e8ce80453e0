import Qdgz300.Lib.FileSystem
import Qdgz300.Lib.Machine

/-!
# The capture writer (`src/m01_receiver/capture/pcap_writer.cpp`)

`PcapWriter` is the object with the files it writes; its private functions are functions on it.
`System` is the object among its threads: the one that calls `start` and `stop`, any number of
`write_packet` calls, and the writer thread. `step` executes what one of them does between two
points where others can act: a critical section of `mutex_` is one step, except that a
`write_packet` call that has found `accepting_packets_` set still holds the mutex while `stop`,
which clears the flag without it, goes on.

`Io` says which file operations of a step succeed; a failed write leaves the file as it was. The
condition variable only delays the writer thread, so waking up is a step that is always enabled.
`enqueued` and `written` are history: the packets in the order in which they entered the queue and
were written.
-/

namespace Qdgz300.Capture

open Bytes FileSystem

structure PcapWriterConfig where
  enabled : Bool := false
  spoolDir : String := "/var/spool/qdgz300/receiver"
  maxFileSizeMb : BitVec 64 := 1024
  maxFiles : BitVec 64 := 10
  pendingQueueCapacity : BitVec 64 := 4096
  filterPacketTypes : List Byte := []
  filterSourceIds : List Byte := []

structure PendingPacket where
  timestampUs : BitVec 64
  data : List Byte
  deriving DecidableEq, Repr

/-- Which file operations succeed. -/
structure Io where
  mkdir : Bool := true
  openFile : Bool := true
  writeHeader : Bool := true
  rename : Bool := true
  writeRecord : Bool := true
  deriving DecidableEq

/-- `PcapWriter` and the files. -/
structure PcapWriter where
  config : PcapWriterConfig
  files : FileSystem String
  /-- The path behind `current_file_` while it is open. -/
  currentFile : Option String := none
  currentFileSize : BitVec 64 := 0
  pendingPackets : List PendingPacket := []
  packetsWritten : BitVec 64 := 0
  enqueuedPackets : BitVec 64 := 0
  droppedQueueFull : BitVec 64 := 0
  writeErrors : BitVec 64 := 0
  rotatedFiles : BitVec 64 := 0
  recording : Bool := false
  acceptingPackets : Bool := false
  fileIndex : BitVec 64 := 0
  pendingRecordSize : BitVec 64 := 0
  recentFiles : List String := []
  currentTempFilePath : String := ""
  currentSealedFilePath : String := ""
  lastSealedFilePath : String := ""

/-! ## Paths -/

/-- `join_path`. -/
def joinPath (dir file : String) : String :=
  if dir.isEmpty then file
  else if dir.back = '/' ∨ dir.back = '\\' then dir ++ file
  else dir ++ "/" ++ file

/-- The base name of the file that is opened at `nowUs`. -/
def baseName (nowUs fileIndex : BitVec 64) : String :=
  "receiver_spool_" ++ nowUs.toNat.repr ++ "_" ++ fileIndex.toNat.repr

def sealedPath (dir : String) (nowUs fileIndex : BitVec 64) : String :=
  joinPath dir (baseName nowUs fileIndex ++ ".pcap")

def partialPath (dir : String) (nowUs fileIndex : BitVec 64) : String :=
  joinPath dir (baseName nowUs fileIndex ++ ".pcap.part")

/-! ## The format -/

/-- What `write_global_header` writes: magic, version 2.4, zone, accuracy, snapshot length and link
type. -/
def globalHeader : List Byte :=
  toLe 4 0xA1B2C3D4 ++ toLe 2 2 ++ toLe 2 4 ++ toLe 4 0 ++ toLe 4 0 ++ toLe 4 65535 ++ toLe 4 147

/-- What `write_record_header` writes. -/
def recordHeader (tsSec tsUsec inclLen origLen : BitVec 32) : List Byte :=
  toLe 4 tsSec.toNat ++ toLe 4 tsUsec.toNat ++ toLe 4 inclLen.toNat ++ toLe 4 origLen.toNat

/-- What the loop writes for a packet. -/
def PendingPacket.record (p : PendingPacket) : List Byte :=
  recordHeader ((p.timestampUs / 1000000).setWidth 32) ((p.timestampUs % 1000000).setWidth 32)
    (BitVec.ofNat 32 p.data.length) (BitVec.ofNat 32 p.data.length) ++ p.data

namespace PcapWriter

/-! ## Files -/

/-- `max_file_size_bytes`. -/
def maxFileSizeBytes (s : PcapWriter) : BitVec 64 := s.config.maxFileSizeMb * (1024 * 1024)

/-- `write_global_header`. -/
def writeGlobalHeader (io : Io) (s : PcapWriter) : PcapWriter :=
  { s with
    files := if io.writeHeader then s.currentFile.elim s.files (s.files.append · globalHeader)
      else s.files
    currentFileSize := 24 }

def clearPaths (s : PcapWriter) : PcapWriter :=
  { s with currentTempFilePath := "", currentSealedFilePath := "" }

/-- `open_new_file`, at the reading `nowUs` of the clock. -/
def openNewFile (io : Io) (nowUs : BitVec 64) (s : PcapWriter) : PcapWriter × Bool :=
  -- `ensure_directories`
  if s.config.spoolDir.isEmpty ∨ io.mkdir = false then (s, false)
  else
    let s1 := { s with
      fileIndex := s.fileIndex + 1
      currentSealedFilePath := sealedPath s.config.spoolDir nowUs s.fileIndex
      currentTempFilePath := partialPath s.config.spoolDir nowUs s.fileIndex }
    if io.openFile = false then (s1.clearPaths, false)
    else
      let s2 := { s1 with
        files := s1.files.create s1.currentTempFilePath
        currentFile := some s1.currentTempFilePath }
      let s3 := s2.writeGlobalHeader io
      if io.writeHeader = false then
        (clearPaths { s3 with
          currentFile := none
          files := s3.files.remove s3.currentTempFilePath }, false)
      else (s3, true)

/-- The loop of `seal_current_file` that deletes the oldest files. -/
def retain (keepCount : Nat) : List String → FileSystem String → List String × FileSystem String
  | [], files => ([], files)
  | path :: paths, files =>
    if keepCount < (path :: paths).length then retain keepCount paths (files.remove path)
    else (path :: paths, files)

/-- `keep_count`. -/
def keepCount (s : PcapWriter) : Nat := max 1 s.config.maxFiles.toNat

/-- `seal_current_file`. -/
def sealCurrentFile (io : Io) (s : PcapWriter) : PcapWriter × Bool :=
  let s1 := { s with currentFile := none }
  if s.currentTempFilePath.isEmpty ∨ s.currentSealedFilePath.isEmpty then (s1.clearPaths, true)
  else if io.rename = false then (s1, false)
  else
    let kept := retain s.keepCount (s.recentFiles ++ [s.currentSealedFilePath])
      (s.files.rename s.currentTempFilePath s.currentSealedFilePath)
    (clearPaths { s1 with
      files := kept.2
      recentFiles := kept.1
      lastSealedFilePath := s.currentSealedFilePath
      currentFileSize := 0 }, true)

/-- `mark_write_error`. -/
def markWriteError (s : PcapWriter) : PcapWriter :=
  { s with
    writeErrors := s.writeErrors + 1
    acceptingPackets := false
    recording := false
    currentFile := none }

/-- `rotate_file_if_needed`. -/
def rotateFileIfNeeded (io : Io) (nowUs : BitVec 64) (s : PcapWriter) : PcapWriter :=
  if s.currentFile.isNone then s
  else if s.currentFileSize + s.pendingRecordSize ≤ s.maxFileSizeBytes then s
  else
    let r := s.sealCurrentFile io
    if r.2 = false then r.1.markWriteError
    else
      let r' := openNewFile io nowUs { r.1 with rotatedFiles := r.1.rotatedFiles + 1 }
      if r'.2 = false then r'.1.markWriteError else r'.1

/-- The second critical section of an iteration of `run_writer_loop`: `packet` is written; whether
the loop goes on. -/
def writePending (io : Io) (nowUs : BitVec 64) (packet : PendingPacket) (s : PcapWriter) :
    PcapWriter × Bool :=
  if s.currentFile.isNone then (s.markWriteError, false)
  else
    let s1 := rotateFileIfNeeded io nowUs
      { s with pendingRecordSize := 16 + BitVec.ofNat 64 packet.data.length }
    match s1.currentFile with
    | none => (s1, false)
    | some path =>
      if io.writeRecord = false then (s1.markWriteError, false)
      else ({ s1 with
        files := s1.files.append path packet.record
        currentFileSize := s1.currentFileSize + s1.pendingRecordSize
        packetsWritten := s1.packetsWritten + 1
        pendingRecordSize := 0 }, true)

/-! ## Packets -/

/-- One list of `passes_filters`: an empty list lets everything pass. -/
def passesFilter (wanted : List Byte) (offset : Nat) (data : List Byte) : Bool :=
  wanted.isEmpty || (data[offset]?).any fun byte => wanted.contains byte

/-- `passes_filters`. -/
def passesFilters (s : PcapWriter) (data : List Byte) : Bool :=
  passesFilter s.config.filterPacketTypes 18 data && passesFilter s.config.filterSourceIds 20 data

/-- The critical section of `write_packet` past its test of the flag; whether there was room. -/
def pushPending (packet : PendingPacket) (s : PcapWriter) : PcapWriter × Bool :=
  if max 1 s.config.pendingQueueCapacity.toNat ≤ s.pendingPackets.length then
    ({ s with droppedQueueFull := s.droppedQueueFull + 1 }, false)
  else
    ({ s with
      pendingPackets := s.pendingPackets ++ [packet]
      enqueuedPackets := s.enqueuedPackets + 1 }, true)

/-- What `start` sets once the first file is open. -/
def beginSession (s : PcapWriter) : PcapWriter :=
  { s with
    pendingPackets := []
    packetsWritten := 0
    enqueuedPackets := 0
    droppedQueueFull := 0
    writeErrors := 0
    rotatedFiles := 0
    acceptingPackets := true
    recording := true }

end PcapWriter

/-! ## Threads -/

/-- The writer thread. -/
inductive WriterPc where
  /-- Not started, or joined. -/
  | none
  /-- Before the first critical section of an iteration. -/
  | waiting
  /-- Between the two critical sections, with the packet it took. -/
  | holding (packet : PendingPacket)
  /-- Out of the loop. -/
  | leaving
  /-- Returned, and not joined yet. -/
  | finished
  deriving DecidableEq

/-- The thread that calls `start` and `stop`. -/
inductive ControlPc where
  | idle
  /-- `stop` before `join`. -/
  | joining
  /-- `stop` after `join`. -/
  | joined
  deriving DecidableEq

structure System where
  writer : PcapWriter
  /-- The packet of the `write_packet` call that holds the mutex past its test of the flag. -/
  mutex : Option PendingPacket := none
  /-- The calls of `write_packet` that are about to lock the mutex. -/
  calls : List PendingPacket := []
  thread : WriterPc := .none
  control : ControlPc := .idle
  enqueued : List PendingPacket := []
  written : List PendingPacket := []

/-- A constructed writer, with the files that are there. -/
def System.new (config : PcapWriterConfig) (files : FileSystem String) : System where
  writer := { config, files }

inductive Label where
  | start (io : Io) (nowUs : BitVec 64)
  /-- `stop` up to `join`. -/
  | stop
  | join
  /-- The critical section of `stop`. -/
  | stopSeal (io : Io)
  /-- A call of `write_packet` up to its critical section; `none` is a null pointer. -/
  | writePacket (rawData : Option (List Byte)) (timestampUs : BitVec 64)
  /-- The `i`-th waiting call locks the mutex and tests the flag. -/
  | lock (i : Nat)
  /-- The call that holds the mutex goes on to its end. -/
  | push
  /-- The first critical section of an iteration of the writer thread. -/
  | take
  /-- The second one. -/
  | write (io : Io) (nowUs : BitVec 64)
  /-- The critical section after the loop. -/
  | leave (io : Io)

namespace System

/-- `start`: assigning to a thread that is not joined ends the program. -/
def start (io : Io) (nowUs : BitVec 64) (s : System) : Option System :=
  if s.writer.config.enabled = false then some s
  else if s.writer.recording then some s
  else
    match s.writer.openNewFile io nowUs, s.thread with
    | (w, false), _ => some { s with writer := w }
    | (w, true), .none => some { s with writer := w.beginSession, thread := .waiting }
    | (_, true), _ => none

/-- One step; `none` when it is not enabled. -/
def step (s : System) : Label → Option System
  | .start io nowUs =>
    match s.control, s.mutex with
    | .idle, none => s.start io nowUs
    | _, _ => none
  | .stop =>
    match s.control with
    | .idle => some { s with
        writer := { s.writer with acceptingPackets := false }
        control := .joining }
    | _ => none
  | .join =>
    match s.control, s.thread with
    | .joining, .none => some { s with control := .joined }
    | .joining, .finished => some { s with control := .joined, thread := .none }
    | _, _ => none
  | .stopSeal io =>
    match s.control, s.mutex with
    | .joined, none => some { s with
        writer := { (s.writer.sealCurrentFile io).1 with pendingPackets := [], recording := false }
        control := .idle }
    | _, _ => none
  | .writePacket rawData timestampUs =>
    match rawData with
    | none => some s
    | some data =>
      if s.writer.acceptingPackets = false ∨ data.length = 0 ∨
          s.writer.passesFilters data = false then
        some s
      else some { s with calls := s.calls ++ [⟨timestampUs, data⟩] }
  | .lock i =>
    match s.mutex, s.calls[i]? with
    | none, some packet =>
      if s.writer.acceptingPackets = false then some { s with calls := s.calls.eraseIdx i }
      else some { s with calls := s.calls.eraseIdx i, mutex := some packet }
    | _, _ => none
  | .push =>
    match s.mutex with
    | none => none
    | some packet =>
      some { s with
        writer := (s.writer.pushPending packet).1
        mutex := none
        enqueued := if (s.writer.pushPending packet).2 then s.enqueued ++ [packet] else s.enqueued }
  | .take =>
    match s.thread, s.mutex with
    | .waiting, none =>
      match s.writer.pendingPackets with
      | [] => if s.writer.acceptingPackets then some s else some { s with thread := .leaving }
      | packet :: rest => some { s with
          writer := { s.writer with pendingPackets := rest }
          thread := .holding packet }
    | _, _ => none
  | .write io nowUs =>
    match s.thread, s.mutex with
    | .holding packet, none =>
      match s.writer.writePending io nowUs packet with
      | (w, false) => some { s with writer := w, thread := .leaving }
      | (w, true) => some { s with
          writer := w
          thread := .waiting
          written := s.written ++ [packet] }
    | _, _ => none
  | .leave io =>
    match s.thread, s.mutex with
    | .leaving, none => some { s with
        writer := { (s.writer.sealCurrentFile io).1 with recording := false }
        thread := .finished }
    | _, _ => none

end System

end Qdgz300.Capture
