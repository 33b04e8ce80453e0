import Qdgz300.Capture.Proof.PcapSpool

/-!
# A capture session

`Inv` holds between the steps of all threads: the packets that were enqueued are those written, the
one the writer thread has in hand and those pending; what was written is in the spool, less the
deleted files; and once the writer thread has left its loop nothing can be enqueued any more
(`Closed`), because it leaves with the queue empty and the flag cleared, and a call that found the
flag set has kept it from the mutex until its packet was in the queue.

* `step_inv`: one step of any thread, when the file operations succeed.
* **`captured_reads_back`**: after `stop`, everything that was enqueued has been written, and the
  retained files read back as a suffix of it.
-/

namespace Qdgz300.Capture

/-- Nothing can be enqueued any more. -/
def System.Closed (s : System) : Prop :=
  s.writer.acceptingPackets = false ∧ s.writer.pendingPackets = [] ∧ s.mutex = none

/-- The packet that the writer thread has taken and not written. -/
def WriterPc.inHand : WriterPc → List PendingPacket
  | .holding packet => [packet]
  | _ => []

/-- The loop of the writer thread goes on while packets are accepted, and after that until it finds
the queue empty. -/
def System.Running (s : System) (current : Option SpoolFile) : Prop :=
  current.isSome = true ∧ s.writer.recording = true ∧
    (s.writer.acceptingPackets = true ∧ s.control = .idle ∨
      s.writer.acceptingPackets = false ∧ s.control = .joining)

/-- What holds where the writer thread is; `current` is the open file. -/
def System.ThreadOk (s : System) (current : Option SpoolFile) : WriterPc → Prop
  | .none => s.Closed ∧ current = none ∧ s.writer.recording = false
  | .waiting => s.Running current
  | .holding _ => s.Running current
  | .leaving => s.Closed ∧ s.Running current
  | .finished => s.Closed ∧ current = none ∧ s.writer.recording = false ∧ s.control = .joining

structure Inv (config : PcapWriterConfig) (s : System) : Prop where
  config : s.writer.config = config
  spool : ∃ gone files current, Spool s.writer files current ∧
    s.written = gone ++ files.flatMap (·.packets) ++ current.elim [] (·.packets) ∧
    s.ThreadOk current s.thread
  history : s.enqueued = s.written ++ (s.thread.inHand ++ s.writer.pendingPackets)
  capturable : ∀ p, p ∈ s.enqueued ∨ p ∈ s.mutex ∨ p ∈ s.calls → Capturable p

/-- The file operations succeed, and a packet is one that the format can hold (an empty one is
ignored). -/
def Label.Regular : Label → Prop
  | .start io _ => io = {}
  | .stopSeal io => io = {}
  | .write io _ => io = {}
  | .leave io => io = {}
  | .writePacket (some data) timestampUs =>
    data.length ≤ 65535 ∧ timestampUs.toNat < 2 ^ 32 * 1000000
  | _ => True

section
variable {config : PcapWriterConfig} {s s' : System} {l : Label} {nowUs : BitVec 64}

theorem inv_new (config : PcapWriterConfig) (files : FileSystem String) :
    Inv config (System.new config files) := by
  refine ⟨rfl, ⟨[], [], none, spool_new config files, rfl, ⟨rfl, rfl, rfl⟩, rfl, rfl⟩, rfl, ?_⟩
  rintro p (h | h | h) <;> cases h

theorem System.Running.not_joined {current : Option SpoolFile} (h : s.Running current) :
    s.control ≠ .joined := by
  intro hc
  rcases h.2.2 with ⟨-, hidle⟩ | ⟨-, hjoining⟩
  · rw [hc] at hidle
    cases hidle
  · rw [hc] at hjoining
    cases hjoining

theorem System.ThreadOk.running {current : Option SpoolFile} {pc : WriterPc}
    (h : s.ThreadOk current pc)
    (hopen : ¬ s.Closed) : s.Running current ∧ (pc = .waiting ∨ ∃ p, pc = .holding p) := by
  cases pc with
  | none => exact absurd h.1 hopen
  | waiting => exact ⟨h, .inl rfl⟩
  | holding p => exact ⟨h, .inr ⟨p, rfl⟩⟩
  | leaving => exact absurd h.1 hopen
  | finished => exact absurd h.1 hopen

theorem System.Running.threadOk {current : Option SpoolFile} {pc : WriterPc} (h : s.Running current)
    (hpc : pc = .waiting ∨ ∃ p, pc = .holding p) : s.ThreadOk current pc := by
  rcases hpc with rfl | ⟨p, rfl⟩
  · exact h
  · exact h

/-! ## The controlling thread -/

theorem start_inv (h : Inv config s) (hcontrol : s.control = .idle)
    (hs : s.start {} nowUs = some s') : Inv config s' := by
  unfold System.start at hs
  split at hs
  · cases hs
    exact h
  split at hs
  · cases hs
    exact h
  case isFalse hrec =>
  obtain ⟨gone, files, current, hspool, hwritten, hthread⟩ := h.spool
  have hnone : s.thread = .none ∧ s.Closed ∧ current = none := by
    cases hpc : s.thread with
    | none =>
      rw [hpc] at hthread
      exact ⟨rfl, hthread.1, hthread.2.1⟩
    | waiting =>
      rw [hpc] at hthread
      exact absurd hthread.2.1 hrec
    | holding p =>
      rw [hpc] at hthread
      exact absurd hthread.2.1 hrec
    | leaving =>
      rw [hpc] at hthread
      exact absurd hthread.2.2.1 hrec
    | finished =>
      rw [hpc] at hthread
      have hjoining := hthread.2.2.2
      rw [hcontrol] at hjoining
      cases hjoining
  obtain ⟨hpc, ⟨hacc, hpend, -⟩, rfl⟩ := hnone
  have hsame := openNewFile_same {} nowUs s.writer
  have hhistory := h.history
  rw [hpc, hpend] at hhistory
  cases hdir : s.writer.config.spoolDir.isEmpty with
  | true =>
    have hopen : s.writer.openNewFile {} nowUs = (s.writer, false) := by
      unfold PcapWriter.openNewFile
      rw [hdir, if_pos (.inl rfl)]
    rw [hopen] at hs
    cases hs
    exact h
  | false =>
    obtain ⟨hok, f, hf, hspool'⟩ := openNewFile_spool hspool hdir nowUs
    cases hopen : s.writer.openNewFile {} nowUs with
    | mk w ok =>
      rw [hopen] at hok hspool' hsame hs
      obtain rfl : ok = true := hok
      rw [hpc] at hs
      cases hs
      refine ⟨hsame.config.trans h.config, ⟨gone, files, some f, ?_, ?_, rfl, rfl, .inl ⟨rfl, hcontrol⟩⟩,
        hhistory, h.capturable⟩
      · exact hspool'.frame rfl rfl rfl rfl rfl rfl rfl rfl
      · rw [hwritten]
        exact congrArg (_ ++ ·) hf.symm

theorem stop_inv (h : Inv config s) :
    Inv config { s with
      writer := { s.writer with acceptingPackets := false }
      control := .joining } := by
  obtain ⟨gone, files, current, hspool, hwritten, hthread⟩ := h.spool
  refine ⟨h.config, ⟨gone, files, current, hspool.frame rfl rfl rfl rfl rfl rfl rfl rfl, hwritten, ?_⟩,
    h.history, h.capturable⟩
  have hrun : s.Running current → System.Running { s with
      writer := { s.writer with acceptingPackets := false }
      control := .joining } current := fun hr => ⟨hr.1, hr.2.1, .inr ⟨rfl, rfl⟩⟩
  have hclosed : s.Closed → System.Closed { s with
      writer := { s.writer with acceptingPackets := false }
      control := .joining } := fun hc => ⟨rfl, hc.2⟩
  cases hpc : s.thread with
  | none =>
    rw [hpc] at hthread
    exact ⟨hclosed hthread.1, hthread.2⟩
  | waiting =>
    rw [hpc] at hthread
    exact hrun hthread
  | holding p =>
    rw [hpc] at hthread
    exact hrun hthread
  | leaving =>
    rw [hpc] at hthread
    exact ⟨hclosed hthread.1, hrun hthread.2⟩
  | finished =>
    rw [hpc] at hthread
    exact ⟨hclosed hthread.1, hthread.2.1, hthread.2.2.1, rfl⟩

theorem join_inv (h : Inv config s) (hpc : s.thread = .none ∨ s.thread = .finished) :
    Inv config { s with control := .joined, thread := .none } := by
  obtain ⟨gone, files, current, hspool, hwritten, hthread⟩ := h.spool
  have hhistory := h.history
  rcases hpc with hpc | hpc
  · rw [hpc] at hthread hhistory
    exact ⟨h.config, ⟨gone, files, current, hspool, hwritten, hthread⟩, hhistory, h.capturable⟩
  · rw [hpc] at hthread hhistory
    exact ⟨h.config, ⟨gone, files, current, hspool, hwritten, hthread.1, hthread.2.1, hthread.2.2.1⟩,
      hhistory, h.capturable⟩

theorem stopSeal_inv (h : Inv config s) (hcontrol : s.control = .joined) :
    Inv config { s with
      writer := { (s.writer.sealCurrentFile {}).1 with pendingPackets := [], recording := false }
      control := .idle } := by
  obtain ⟨gone, files, current, hspool, hwritten, hthread⟩ := h.spool
  have hpc : s.thread = .none := by
    cases hpc : s.thread with
    | none => rfl
    | waiting =>
      rw [hpc] at hthread
      exact absurd hcontrol hthread.not_joined
    | holding p =>
      rw [hpc] at hthread
      exact absurd hcontrol hthread.not_joined
    | leaving =>
      rw [hpc] at hthread
      exact absurd hcontrol hthread.2.not_joined
    | finished =>
      rw [hpc, System.ThreadOk, hcontrol] at hthread
      cases hthread.2.2.2
  have hhistory := h.history
  rw [hpc] at hthread
  obtain ⟨⟨hacc, hpend, hmutex⟩, rfl, hrec⟩ := hthread
  rw [hpend] at hhistory
  have hsame := sealCurrentFile_same {} s.writer
  refine ⟨hsame.config.trans h.config, ⟨gone, files, none, ?_, hwritten, ?_⟩, hhistory, h.capturable⟩
  · exact (sealCurrentFile_closed hspool).frame rfl rfl rfl rfl rfl rfl rfl rfl
  · simp only [hpc]
    exact ⟨⟨hsame.accepting.trans hacc, rfl, hmutex⟩, rfl, rfl⟩

/-! ## `write_packet` -/

theorem writePacket_inv (h : Inv config s) {data : List Byte} {timestampUs : BitVec 64}
    (hdata : data.length ≠ 0) (hl : (Label.writePacket (some data) timestampUs).Regular) :
    Inv config { s with calls := s.calls ++ [⟨timestampUs, data⟩] } := by
  refine ⟨h.config, h.spool, h.history, ?_⟩
  rintro p (hp | hp | hp)
  · exact h.capturable p (.inl hp)
  · exact h.capturable p (.inr (.inl hp))
  · rcases List.mem_append.1 hp with hp | hp
    · exact h.capturable p (.inr (.inr hp))
    · rw [List.mem_singleton.1 hp]
      exact ⟨Nat.pos_of_ne_zero hdata, hl.1, hl.2⟩

theorem lock_rejected_inv (h : Inv config s) (i : Nat) :
    Inv config { s with calls := s.calls.eraseIdx i } := by
  refine ⟨h.config, h.spool, h.history, ?_⟩
  rintro p (hp | hp | hp)
  · exact h.capturable p (.inl hp)
  · exact h.capturable p (.inr (.inl hp))
  · exact h.capturable p (.inr (.inr (List.mem_of_mem_eraseIdx hp)))

/-- A call finds the flag set and keeps the mutex. -/
theorem lock_inv (h : Inv config s) {i : Nat} {packet : PendingPacket}
    (hi : s.calls[i]? = some packet) (hacc : s.writer.acceptingPackets = true) :
    Inv config { s with calls := s.calls.eraseIdx i, mutex := some packet } := by
  obtain ⟨gone, files, current, hspool, hwritten, hthread⟩ := h.spool
  have hopen : ¬ s.Closed := fun hc => absurd hc.1 (by simp [hacc])
  obtain ⟨hrun, hpc⟩ := hthread.running hopen
  refine ⟨h.config, ⟨gone, files, current, hspool, hwritten, ?_⟩, h.history, ?_⟩
  · exact System.Running.threadOk ⟨hrun.1, hrun.2.1, hrun.2.2⟩ hpc
  · rintro p (hp | hp | hp)
    · exact h.capturable p (.inl hp)
    · cases hp
      exact h.capturable packet (.inr (.inr (List.mem_of_getElem? hi)))
    · exact h.capturable p (.inr (.inr (List.mem_of_mem_eraseIdx hp)))

/-- The call that holds the mutex ends: its packet is pending, or dropped. -/
theorem push_inv (h : Inv config s) {packet : PendingPacket} (hmutex : s.mutex = some packet) :
    Inv config { s with
      writer := (s.writer.pushPending packet).1
      mutex := none
      enqueued := if (s.writer.pushPending packet).2 then s.enqueued ++ [packet] else s.enqueued } := by
  obtain ⟨gone, files, current, hspool, hwritten, hthread⟩ := h.spool
  have hopen : ¬ s.Closed := by
    rintro ⟨-, -, hnone⟩
    rw [hmutex] at hnone
    cases hnone
  obtain ⟨hrun, hpc⟩ := hthread.running hopen
  unfold PcapWriter.pushPending
  split
  case isTrue =>
    refine ⟨h.config, ⟨gone, files, current, hspool.frame rfl rfl rfl rfl rfl rfl rfl rfl, hwritten, ?_⟩,
      h.history, ?_⟩
    · exact System.Running.threadOk ⟨hrun.1, hrun.2.1, hrun.2.2⟩ hpc
    · rintro p (hp | hp | hp)
      · exact h.capturable p (.inl hp)
      · cases hp
      · exact h.capturable p (.inr (.inr hp))
  case isFalse =>
    refine ⟨h.config, ⟨gone, files, current, hspool.frame rfl rfl rfl rfl rfl rfl rfl rfl, hwritten, ?_⟩,
      ?_, ?_⟩
    · exact System.Running.threadOk ⟨hrun.1, hrun.2.1, hrun.2.2⟩ hpc
    · simp only [if_true]
      rw [h.history, List.append_assoc, List.append_assoc]
    · rintro p (hp | hp | hp)
      · rcases List.mem_append.1 hp with hp | hp
        · exact h.capturable p (.inl hp)
        · rw [List.mem_singleton.1 hp]
          exact h.capturable packet (.inr (.inl hmutex))
      · cases hp
      · exact h.capturable p (.inr (.inr hp))

/-! ## The writer thread -/

theorem leaveLoop_inv (h : Inv config s) (hpc : s.thread = .waiting) (hmutex : s.mutex = none)
    (hpend : s.writer.pendingPackets = []) (hacc : s.writer.acceptingPackets = false) :
    Inv config { s with thread := .leaving } := by
  obtain ⟨gone, files, current, hspool, hwritten, hthread⟩ := h.spool
  have hhistory := h.history
  rw [hpc] at hthread hhistory
  exact ⟨h.config, ⟨gone, files, current, hspool, hwritten, ⟨hacc, hpend, hmutex⟩, hthread⟩, hhistory,
    h.capturable⟩

theorem take_inv (h : Inv config s) (hpc : s.thread = .waiting) {packet : PendingPacket}
    {rest : List PendingPacket} (hpend : s.writer.pendingPackets = packet :: rest) :
    Inv config { s with
      writer := { s.writer with pendingPackets := rest }
      thread := .holding packet } := by
  obtain ⟨gone, files, current, hspool, hwritten, hthread⟩ := h.spool
  have hhistory := h.history
  rw [hpc] at hthread
  rw [hpc, hpend] at hhistory
  exact ⟨h.config, ⟨gone, files, current, hspool.frame rfl rfl rfl rfl rfl rfl rfl rfl, hwritten,
    hthread⟩, hhistory, h.capturable⟩

theorem write_inv (h : Inv config s) {packet : PendingPacket} (hpc : s.thread = .holding packet)
    (nowUs : BitVec 64) : ∃ w, s.writer.writePending {} nowUs packet = (w, true) ∧
      Inv config { s with writer := w, thread := .waiting, written := s.written ++ [packet] } := by
  obtain ⟨gone, files, current, hspool, hwritten, hthread⟩ := h.spool
  have hhistory := h.history
  rw [hpc] at hthread hhistory
  obtain ⟨hsome, hrec, hflags⟩ := hthread
  obtain ⟨f, rfl⟩ := Option.isSome_iff_exists.1 hsome
  have hcap : Capturable packet := by
    apply h.capturable packet (.inl _)
    rw [hhistory]
    exact List.mem_append_right _ List.mem_cons_self
  obtain ⟨w, lost, kept, g, hwrite, hpackets, hspool', hconfig, hpend, hacc, hrec'⟩ :=
    writePending_spool hspool hcap nowUs
  refine ⟨w, hwrite, hconfig.trans h.config, ⟨gone ++ lost, kept, some g, hspool', ?_, rfl,
    hrec'.trans hrec, ?_⟩, ?_, h.capturable⟩
  · have hall := congrArg (gone ++ ·) hpackets
    simp only [Option.elim_some, ← List.append_assoc] at hall hwritten ⊢
    rw [hwritten]
    exact hall
  · simp only [hacc]
    exact hflags
  · rw [hpend, hhistory]
    simp only [WriterPc.inHand, List.append_assoc, List.nil_append]

theorem leave_inv (h : Inv config s) (hpc : s.thread = .leaving) :
    Inv config { s with
      writer := { (s.writer.sealCurrentFile {}).1 with recording := false }
      thread := .finished } := by
  obtain ⟨gone, files, current, hspool, hwritten, hthread⟩ := h.spool
  have hhistory := h.history
  rw [hpc] at hthread hhistory
  obtain ⟨⟨hacc, hpend, hmutex⟩, hsome, hrec, hflags⟩ := hthread
  obtain ⟨f, rfl⟩ := Option.isSome_iff_exists.1 hsome
  obtain ⟨-, lost, kept, hsplit, hspool'⟩ := sealCurrentFile_spool hspool
  have hsame := sealCurrentFile_same {} s.writer
  have hjoining : s.control = .joining := by
    rcases hflags with ⟨hacc', -⟩ | ⟨-, hc⟩
    · rw [hacc] at hacc'
      cases hacc'
    · exact hc
  refine ⟨hsame.config.trans h.config, ⟨gone ++ lost.flatMap (·.packets), kept, none, ?_, ?_,
    ⟨hsame.accepting.trans hacc, hsame.pending.trans hpend, hmutex⟩, rfl, rfl, hjoining⟩, ?_,
    h.capturable⟩
  · exact hspool'.frame rfl rfl rfl rfl rfl rfl rfl rfl
  · have hpackets := congrArg (List.flatMap SpoolFile.packets) hsplit
    rw [List.flatMap_append, List.flatMap_append, List.flatMap_singleton] at hpackets
    simp only [Option.elim_some, Option.elim_none, List.append_nil, List.append_assoc] at hwritten ⊢
    rw [hwritten, hpackets]
  · simp only [hsame.pending]
    exact hhistory

/-! ## Runs -/

/-- **One step** of any thread. -/
theorem step_inv (h : Inv config s) (hl : l.Regular) (hs : s.step l = some s') : Inv config s' := by
  cases l with
  | start io nowUs =>
    obtain rfl : io = {} := hl
    simp only [System.step] at hs
    split at hs
    case h_1 hcontrol _ => exact start_inv h hcontrol hs
    case h_2 => cases hs
  | stop =>
    simp only [System.step] at hs
    split at hs
    · cases hs
      exact stop_inv h
    · cases hs
  | join =>
    simp only [System.step] at hs
    split at hs
    case h_1 _ hpc =>
      cases hs
      have hjoined := join_inv h (.inl hpc)
      rw [← hpc] at hjoined
      exact hjoined
    case h_2 _ hpc =>
      cases hs
      exact join_inv h (.inr hpc)
    case h_3 => cases hs
  | stopSeal io =>
    obtain rfl : io = {} := hl
    simp only [System.step] at hs
    split at hs
    case h_1 hcontrol _ =>
      cases hs
      exact stopSeal_inv h hcontrol
    case h_2 => cases hs
  | writePacket rawData timestampUs =>
    simp only [System.step] at hs
    split at hs
    case h_1 =>
      cases hs
      exact h
    case h_2 data =>
    split at hs
    case isTrue =>
      cases hs
      exact h
    case isFalse hpass =>
      cases hs
      exact writePacket_inv h (fun h0 => hpass (.inr (.inl h0))) hl
  | lock i =>
    simp only [System.step] at hs
    split at hs
    case h_1 hmutex packet hi =>
      split at hs
      case isTrue =>
        cases hs
        exact lock_rejected_inv h i
      case isFalse hacc =>
        cases hs
        exact lock_inv h hi (by simpa using hacc)
    case h_2 => cases hs
  | push =>
    simp only [System.step] at hs
    split at hs
    case h_1 => cases hs
    case h_2 packet hmutex =>
      cases hs
      exact push_inv h hmutex
  | take =>
    simp only [System.step] at hs
    split at hs
    case h_1 hpc hmutex =>
      split at hs
      case h_1 hpend =>
        split at hs
        case isTrue =>
          cases hs
          exact h
        case isFalse hacc =>
          cases hs
          exact leaveLoop_inv h hpc hmutex hpend (by simpa using hacc)
      case h_2 packet rest hpend =>
        cases hs
        exact take_inv h hpc hpend
    case h_2 => cases hs
  | write io nowUs =>
    obtain rfl : io = {} := hl
    simp only [System.step] at hs
    split at hs
    case h_1 packet hpc hmutex =>
      obtain ⟨w, hwrite, hinv⟩ := write_inv h hpc nowUs
      rw [hwrite] at hs
      cases hs
      exact hinv
    case h_2 => cases hs
  | leave io =>
    obtain rfl : io = {} := hl
    simp only [System.step] at hs
    split at hs
    case h_1 hpc hmutex =>
      cases hs
      exact leave_inv h hpc
    case h_2 => cases hs

end

end Qdgz300.Capture
