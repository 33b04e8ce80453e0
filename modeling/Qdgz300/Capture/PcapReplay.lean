import Qdgz300.Capture.PcapAnalyze

/-!
# Replaying a capture file (`tools/pcap_replay.cpp`)

`replay_once` and the loop of `main`. The reading functions are those of `pcap_analyze.cpp`, word
for word. `takes n` tells whether the `n`-th `sendto` of the process takes its datagram. The time
window compares numbers of type `double`; it is a predicate here. The pauses between packets and the
rates that are printed are left out.
-/

namespace Qdgz300.Capture

structure ReplayOptions where
  /-- `should_send` on `epoch_seconds` of the record. -/
  shouldSend : PcapFormat → Record → Bool
  loop : Bool := false
  count : Option Nat := none

structure ReplayStats where
  sentPackets : Nat := 0
  sentBytes : Nat := 0
  filePackets : Nat := 0
  filteredPackets : Nat := 0
  deriving DecidableEq, Repr

/-- The additions that `main` makes after a pass. -/
def ReplayStats.add (total perPass : ReplayStats) : ReplayStats where
  sentPackets := total.sentPackets + perPass.sentPackets
  sentBytes := total.sentBytes + perPass.sentBytes
  filePackets := total.filePackets + perPass.filePackets
  filteredPackets := total.filteredPackets + perPass.filteredPackets

/-- A pass under way. `calls` counts the `sendto`s of the process, and `sent` is what they took. -/
structure Replay where
  stats : ReplayStats := {}
  calls : Nat := 0
  sent : List (List Byte) := []
  deriving DecidableEq, Repr

/-- How a pass ends; an exception leaves `main`. -/
inductive PassEnd where
  | passed
  | failed (message : String)
  | threw (what : String)
  deriving DecidableEq, Repr

section
variable (opt : ReplayOptions) (takes : Nat → Bool)

/-- The body of the loop over the records. -/
def Replay.record (format : PcapFormat) (s : Replay) (record : Record) : Replay :=
  let s := { s with stats.filePackets := s.stats.filePackets + 1 }
  if opt.shouldSend format record = false then
    { s with stats.filteredPackets := s.stats.filteredPackets + 1 }
  else if takes s.calls = false then { s with calls := s.calls + 1 }
  else
    { s with
      stats.sentPackets := s.stats.sentPackets + 1
      stats.sentBytes := s.stats.sentBytes + record.payload.length
      calls := s.calls + 1
      sent := s.sent ++ [record.payload] }

/-- The loop over the records: what is sent before an exception stays sent. -/
def replayRecords (format : PcapFormat) (s : Replay) (file : List Byte) : Replay × PassEnd :=
  match _h : readRecord format file with
  | .error what => (s, .threw what)
  | .ok none => (s, .passed)
  | .ok (some (record, rest)) => replayRecords format (s.record opt takes format record) rest
termination_by file.length
decreasing_by exact readRecord_shorter _h

variable {π : Type}

/-- `replay_once`. -/
def replayOnce (fs : FileSystem π) (pcapFile : π) (s : Replay) : Replay × PassEnd :=
  match fs pcapFile with
  | none => (s, .failed "Failed to open PCAP file")
  | some file =>
    match readGlobalHeader file with
    | none => (s, .failed "Invalid/unsupported PCAP global header in file")
    | some (format, rest) => replayRecords opt takes format s rest

/-- `iterations_target`; 0 stands for no end. -/
def ReplayOptions.iterationsTarget : Nat := opt.count.getD (if opt.loop then 0 else 1)

/-- The loop of `main` with its `total`: at most `n` passes. -/
def replayPasses (fs : FileSystem π) (pcapFile : π) : Nat → ReplayStats → Replay →
    (ReplayStats × Replay) × PassEnd
  | 0, total, s => ((total, s), .passed)
  | n + 1, total, s =>
    let pass := replayOnce opt takes fs pcapFile { s with stats := {} }
    match pass.2 with
    | .passed => replayPasses fs pcapFile n (total.add pass.1.stats) pass.1
    | ended => ((total, pass.1), ended)

/-- `main` after its first `n` passes, or at its end if it makes fewer. -/
def replay (fs : FileSystem π) (pcapFile : π) (n : Nat) : (ReplayStats × Replay) × PassEnd :=
  let target := opt.iterationsTarget
  replayPasses opt takes fs pcapFile (if target = 0 then n else min n target) {} {}

end

end Qdgz300.Capture
