import Qdgz300.Capture.PcapReplay
import Qdgz300.Capture.Proof.PcapFormat

/-!
# Replaying what was captured

A capture file may break off within a record, when the writer was cut off. `readRecord_torn` says
what a reader makes of the piece, `replayRecords_records` what a pass does with the whole records in
front of it, and `replayed` puts together what any number of passes send.
-/

namespace Qdgz300.Capture

open Bytes

/-- What is left of a record that breaks off. -/
def Torn (torn : List Byte) : Prop :=
  torn = [] ∨ ∃ p : PendingPacket, Capturable p ∧ torn <+: p.record ∧ torn.length < p.record.length

/-- How a pass ends at such a piece. -/
def tornEnd (torn : List Byte) : PassEnd :=
  if torn = [] then .passed
  else if torn.length < 16 then .threw "truncated pcap record header"
  else .threw "truncated pcap packet payload"

/-- **A record that breaks off** within its header or its payload. -/
theorem readRecord_torn {p : PendingPacket} {torn : List Byte} (h : Capturable p)
    (hpiece : torn <+: p.record) (hshort : torn.length < p.record.length) (hne : torn ≠ []) :
    readRecord writerFormat torn = .error (if torn.length < 16 then "truncated pcap record header"
      else "truncated pcap packet payload") := by
  have hpos : 0 < torn.length := List.length_pos_of_ne_nil hne
  have hle := h.le
  by_cases hlt : torn.length < 16
  · have hraw : (torn.take 16).length = torn.length := by
      rw [List.length_take]
      omega
    unfold readRecord
    dsimp only
    rw [hraw, if_neg (by omega), if_pos (by omega), if_pos hlt]
  · obtain ⟨more, hmore⟩ := hpiece
    have htake : torn.take 16 = p.record.take 16 := by
      rw [← hmore, List.take_append_of_le_length (by omega)]
    have hincl : (readU32 (p.record.take 16) 8 writerFormat.littleEndian).toNat =
      p.data.length := by
      have hheader := (readU32_recordHeader ((p.timestampUs / 1000000).setWidth 32)
        ((p.timestampUs % 1000000).setWidth 32) (BitVec.ofNat 32 p.data.length)
        (BitVec.ofNat 32 p.data.length)).2.2.1
      rw [PendingPacket.record, List.take_left' (length_recordHeader ..),
        show writerFormat.littleEndian = true from rfl, hheader, BitVec.toNat_ofNat,
        Nat.mod_eq_of_lt (by omega)]
    have hwhole := readRecord_record h []
    rw [List.append_nil] at hwhole
    rw [length_record] at hshort
    unfold readRecord at hwhole ⊢
    dsimp only at hwhole ⊢
    rw [htake]
    split at hwhole
    · cases hwhole
    · rename_i hsome
      rw [if_neg hsome]
      split at hwhole
      · cases hwhole
      · rename_i hfull
        rw [if_neg hfull]
        split at hwhole
        · cases hwhole
        · rename_i hvalid
          rw [if_neg hvalid, if_pos, if_neg hlt]
          rw [hincl, List.length_take, List.length_drop]
          omega

section
variable {opt : ReplayOptions} {takes : Nat → Bool} {packets : List PendingPacket}
    {torn : List Byte}

theorem replayRecords_error {format : PcapFormat} {s : Replay} {file : List Byte} {what : String}
    (h : readRecord format file = .error what) :
    replayRecords opt takes format s file = (s, .threw what) := by
  rw [replayRecords]
  split
  · rename_i he
    rw [h] at he
    cases he
    rfl
  · rename_i he
    rw [h] at he
    cases he
  · rename_i he
    rw [h] at he
    cases he

theorem replayRecords_nil {format : PcapFormat} {s : Replay} :
    replayRecords opt takes format s [] = (s, .passed) := by
  rw [replayRecords]
  rfl

theorem replayRecords_cons {format : PcapFormat} {s : Replay} {file rest : List Byte}
    {record : Record} (h : readRecord format file = .ok (some (record, rest))) :
    replayRecords opt takes format s file =
      replayRecords opt takes format (s.record opt takes format record) rest := by
  rw [replayRecords]
  split
  · rename_i he
    rw [h] at he
    cases he
  · rename_i he
    rw [h] at he
    cases he
  · rename_i he
    rw [h] at he
    cases he
    rfl

/-- **The loop over the records** takes the whole ones, and stops at what is left. -/
theorem replayRecords_records (htorn : Torn torn) : ∀ (packets : List PendingPacket) (s : Replay),
    (∀ p ∈ packets, Capturable p) →
    replayRecords opt takes writerFormat s (packets.flatMap PendingPacket.record ++ torn) =
      ((packets.map PendingPacket.readBack).foldl (Replay.record opt takes writerFormat) s, tornEnd torn)
  | [], s, _ => by
    rcases htorn with rfl | ⟨p, hp, hpiece, hshort⟩
    · exact replayRecords_nil
    · by_cases hne : torn = []
      · subst hne
        exact replayRecords_nil
      · rw [List.flatMap_nil, List.nil_append,
          replayRecords_error (readRecord_torn hp hpiece hshort hne), tornEnd, if_neg hne]
        split <;> rfl
  | p :: packets, s, h => by
    rw [List.flatMap_cons, List.append_assoc,
      replayRecords_cons (readRecord_record (h p List.mem_cons_self) _),
      replayRecords_records htorn packets _ fun q hq => h q (List.mem_cons_of_mem _ hq)]
    rfl

/-- The packets in the time window. -/
def wanted (opt : ReplayOptions) (packets : List PendingPacket) : List PendingPacket :=
  packets.filter fun p => opt.shouldSend writerFormat p.readBack

/-- The datagrams that the socket takes of the packets, where `calls` is the number of the first
`sendto`. -/
def taken (takes : Nat → Bool) (calls : Nat) (packets : List PendingPacket) : List (List Byte) :=
  ((packets.zipIdx calls).filter fun call => takes call.2).map fun call => call.1.data

theorem taken_append (calls : Nat) (ps qs : List PendingPacket) :
    taken takes calls (ps ++ qs) = taken takes calls ps ++ taken takes (calls + ps.length) qs := by
  simp [taken, List.zipIdx_append]

theorem taken_cons (calls : Nat) (p : PendingPacket) (ps : List PendingPacket) :
    taken takes calls (p :: ps) =
      (if takes calls then [p.data] else []) ++ taken takes (calls + 1) ps := by
  cases htakes : takes calls <;> simp [taken, List.zipIdx_cons, htakes]

/-- What a pass over the packets adds to its statistics. -/
def passStats (opt : ReplayOptions) (takes : Nat → Bool) (calls : Nat)
    (packets : List PendingPacket) :
    ReplayStats where
  sentPackets := (taken takes calls (wanted opt packets)).length
  sentBytes := ((taken takes calls (wanted opt packets)).map List.length).sum
  filePackets := packets.length
  filteredPackets := packets.length - (wanted opt packets).length

theorem ReplayStats.add_assoc (a b c : ReplayStats) : (a.add b).add c = a.add (b.add c) := by
  simp [ReplayStats.add, Nat.add_assoc]

/-- **A pass** over whole records. -/
theorem foldl_record (packets : List PendingPacket) : ∀ s : Replay,
    (packets.map PendingPacket.readBack).foldl (Replay.record opt takes writerFormat) s =
      { stats := s.stats.add (passStats opt takes s.calls packets)
        calls := s.calls + (wanted opt packets).length
        sent := s.sent ++ taken takes s.calls (wanted opt packets) } := by
  induction packets with
  | nil =>
    intro s
    simp [passStats, wanted, taken, ReplayStats.add]
  | cons p packets ih =>
    intro s
    have hfew : (wanted opt packets).length ≤ packets.length := List.length_filter_le ..
    rw [List.map_cons, List.foldl_cons, ih]
    unfold Replay.record
    dsimp only
    by_cases hwindow : opt.shouldSend writerFormat p.readBack = true
    · have hwanted : wanted opt (p :: packets) = p :: wanted opt packets := by simp [wanted, hwindow]
      cases htakes : takes s.calls with
      | false =>
        simp [hwindow, hwanted, htakes, taken_cons, passStats, ReplayStats.add]
        omega
      | true =>
        have hpayload : p.readBack.payload = p.data := rfl
        simp [hwindow, hwanted, htakes, hpayload, taken_cons, passStats, ReplayStats.add]
        omega
    · have hwanted : wanted opt (p :: packets) = wanted opt packets := by simp [wanted, hwindow]
      simp [hwindow, hwanted, passStats, ReplayStats.add]
      omega

section
variable {π : Type} {fs : FileSystem π} {path : π}

theorem replayOnce_fileBytes (hfile : fs path = some (fileBytes packets ++ torn))
    (htorn : Torn torn) (h : ∀ p ∈ packets, Capturable p) (s : Replay) :
    replayOnce opt takes fs path s =
      ({ stats := s.stats.add (passStats opt takes s.calls packets)
         calls := s.calls + (wanted opt packets).length
         sent := s.sent ++ taken takes s.calls (wanted opt packets) }, tornEnd torn) := by
  rw [replayOnce, hfile, fileBytes, List.append_assoc]
  simp only [readGlobalHeader_globalHeader]
  rw [replayRecords_records htorn packets s h, foldl_record]

/-- **Passes over whole files**, one after the other. -/
theorem replayPasses_whole (opt : ReplayOptions) (takes : Nat → Bool)
    (hfile : fs path = some (fileBytes packets))
    (h : ∀ p ∈ packets, Capturable p) : ∀ (n : Nat) (total : ReplayStats) (s : Replay),
    ∃ last, replayPasses opt takes fs path n total s =
      (({ sentPackets := total.sentPackets +
            (taken takes s.calls (List.replicate n (wanted opt packets)).flatten).length
          sentBytes := total.sentBytes +
            ((taken takes s.calls (List.replicate n (wanted opt packets)).flatten).map List.length).sum
          filePackets := total.filePackets + n * packets.length
          filteredPackets := total.filteredPackets +
            n * (packets.length - (wanted opt packets).length) },
        { stats := last
          calls := s.calls + n * (wanted opt packets).length
          sent := s.sent ++ taken takes s.calls (List.replicate n (wanted opt packets)).flatten }),
        .passed)
  | 0, total, s => ⟨s.stats, by simp [replayPasses, taken]⟩
  | n + 1, total, s => by
    have hpass : replayOnce opt takes fs path { s with stats := {} } = _ :=
      replayOnce_fileBytes (by rw [hfile, List.append_nil]) (.inl rfl) h _
    obtain ⟨last, hrest⟩ := replayPasses_whole opt takes hfile h n
      (total.add (ReplayStats.add {} (passStats opt takes s.calls packets)))
      { stats := ReplayStats.add {} (passStats opt takes s.calls packets)
        calls := s.calls + (wanted opt packets).length
        sent := s.sent ++ taken takes s.calls (wanted opt packets) }
    refine ⟨last, ?_⟩
    rw [replayPasses, hpass]
    dsimp only [tornEnd, if_pos]
    rw [hrest, List.replicate_succ, List.flatten_cons, taken_append]
    simp [passStats, ReplayStats.add, Nat.succ_mul]
    omega

/-- A file that breaks off ends the process in the first pass. -/
theorem replayPasses_torn (opt : ReplayOptions) (takes : Nat → Bool)
    (hfile : fs path = some (fileBytes packets ++ torn)) (htorn : Torn torn) (hne : torn ≠ [])
    (h : ∀ p ∈ packets, Capturable p) (n : Nat) (total : ReplayStats) (s : Replay) :
    ∃ last, replayPasses opt takes fs path (n + 1) total s =
      ((total, { stats := last
                 calls := s.calls + (wanted opt packets).length
                 sent := s.sent ++ taken takes s.calls (wanted opt packets) }), tornEnd torn) := by
  refine ⟨ReplayStats.add {} (passStats opt takes s.calls packets), ?_⟩
  have hend : tornEnd torn ≠ .passed := by
    rw [tornEnd, if_neg hne]
    split <;> simp
  rw [replayPasses, replayOnce_fileBytes hfile htorn h]
  dsimp only
  split
  · contradiction
  · rfl

end

end

/-- **A replay** of a capture file that holds `packets` and a piece `torn` of one more record sends
the packets in the time window, in the order of the file and pass after pass, but for those that the
socket does not take; where the file breaks off the first pass sends them all, and then the process
ends with the error. The totals of `main` count what was sent. -/
theorem replayed {π : Type} (opt : ReplayOptions) (takes : Nat → Bool) {fs : FileSystem π}
    {path : π} {packets : List PendingPacket} {torn : List Byte}
    (hfile : fs path = some (fileBytes packets ++ torn)) (htorn : Torn torn)
    (h : ∀ p ∈ packets, Capturable p) (n : Nat) {rounds : Nat}
    (hrounds : rounds = if opt.iterationsTarget = 0 then n else min n opt.iterationsTarget) :
    (replay opt takes fs path n).2 = (if rounds = 0 then .passed else tornEnd torn) ∧
      (replay opt takes fs path n).1.2.sent = taken takes 0
        (List.replicate (if torn = [] then rounds else min rounds 1) (wanted opt packets)).flatten ∧
      (torn = [] → (replay opt takes fs path n).1.1 =
        { sentPackets := (replay opt takes fs path n).1.2.sent.length
          sentBytes := ((replay opt takes fs path n).1.2.sent.map List.length).sum
          filePackets := rounds * packets.length
          filteredPackets := rounds * (packets.length - (wanted opt packets).length) }) := by
  unfold replay
  dsimp only
  rw [← hrounds]
  by_cases hne : torn = []
  · subst hne
    rw [List.append_nil] at hfile
    obtain ⟨last, hpasses⟩ := replayPasses_whole opt takes hfile h rounds {} {}
    rw [hpasses]
    simp [tornEnd]
  · cases rounds with
    | zero => simp [replayPasses, hne, taken]
    | succ k =>
      obtain ⟨last, hpasses⟩ := replayPasses_torn opt takes hfile htorn hne h k {} {}
      rw [hpasses]
      simp [hne]

/-- A file with one packet that breaks off in the payload of a second one. -/
def cutFile : FileSystem String := fun path =>
  if path = "cut.pcap" then
    some (fileBytes [⟨1500000, [1, 2]⟩] ++ (PendingPacket.record ⟨2500000, [3, 4, 5]⟩).take 17)
  else none

def replayAll : ReplayOptions where
  shouldSend _ _ := true
  count := some 3

theorem cutFile_replayed :
    (replay replayAll (fun _ => true) cutFile "cut.pcap" 5).2 =
      .threw "truncated pcap packet payload" ∧
      (replay replayAll (fun _ => true) cutFile "cut.pcap" 5).1.2.sent = [[1, 2]] := by
  have hfits : ∀ p : PendingPacket, p = ⟨1500000, [1, 2]⟩ ∨ p = ⟨2500000, [3, 4, 5]⟩ →
    Capturable p := by
    rintro p (rfl | rfl) <;> constructor <;> decide
  have htorn : Torn ((PendingPacket.record ⟨2500000, [3, 4, 5]⟩).take 17) :=
    .inr ⟨_, hfits _ (.inr rfl), List.take_prefix _ _, by decide⟩
  have hfile : cutFile "cut.pcap" =
      some (fileBytes [⟨1500000, [1, 2]⟩] ++ (PendingPacket.record ⟨2500000, [3, 4, 5]⟩).take 17) := rfl
  obtain ⟨hend, hsent, -⟩ := replayed replayAll (fun _ => true) hfile htorn
    (fun p hp => hfits p (.inl (List.mem_singleton.1 hp))) 5 rfl
  exact ⟨hend.trans (by decide), hsent.trans (by decide)⟩

end Qdgz300.Capture
