import Qdgz300.Network.Proof.ReceiveBuffers

/-!
# One round of the receive loop

A batch is split into two lists while its buffers move out of the slots. When `recvmmsg` is called
every slot has a buffer, no two the same and none that a packet still lies in (`Filled`), so the
datagrams do not overwrite each other. **`receive_round`** says what the handler is called with
after it: each packet that passes the filter once, in its own buffer, those of high priority first,
and how the counters move.
-/

namespace Qdgz300.Network

open Protocol Ledger

/-- The packet that the loop makes of a datagram in its buffer. -/
def pendingOf (timestampNs : BitVec 64) (received : Nat × Datagram) : PendingPacket where
  packetBuffer := received.1
  data := received.2.data
  receiveTimestampNs := timestampNs
  priority := classifyPriority received.2.data (extractDscpFromCmsg received.2.control)

/-- The packets of a batch that pass the source filter, in the order of their arrival. -/
def passing (config : ArrayFaceReceiverConfig) (timestampNs : BitVec 64)
    (batch : List (Nat × Datagram)) : List PendingPacket :=
  (batch.filter fun received => passesFilter config received.2.data).map (pendingOf timestampNs)

def isHigh (pending : PendingPacket) : Bool := pending.priority == .high

def isNormal (pending : PendingPacket) : Bool := pending.priority == .normal

section
variable {config : ArrayFaceReceiverConfig} {timestampNs : BitVec 64}

theorem receive_filtered {batch : Batch} {received : Nat × Datagram}
    (h : passesFilter config received.2.data = false) :
    batch.receive config timestampNs received =
      { batch with
        stats := { batch.stats with packetsFiltered := batch.stats.packetsFiltered + 1 } } := by
  rw [Batch.receive, if_pos h]

theorem receive_passing {batch : Batch} {received : Nat × Datagram}
    (h : passesFilter config received.2.data = true) :
    batch.receive config timestampNs received =
      { heartbeatBatch :=
          batch.heartbeatBatch ++ [pendingOf timestampNs received].filter isHigh
        dataBatch := batch.dataBatch ++ [pendingOf timestampNs received].filter isNormal
        stats := { batch.stats with
          packetsReceived := batch.stats.packetsReceived + 1
          bytesReceived := batch.stats.bytesReceived + received.2.data.length } } := by
  rw [Batch.receive, h, if_neg (by decide)]
  cases hp : classifyPriority received.2.data (extractDscpFromCmsg received.2.control) with
  | normal => simp [pendingOf, isHigh, isNormal, hp]
  | high => simp [pendingOf, isHigh, isNormal, hp]

/-- The two lists and the counters after a batch. -/
theorem foldl_receive (config : ArrayFaceReceiverConfig) (timestampNs : BitVec 64) (batch : Batch)
    (arrived : List (Nat × Datagram)) :
    (arrived.foldl (Batch.receive config timestampNs) batch).heartbeatBatch =
        batch.heartbeatBatch ++ (passing config timestampNs arrived).filter isHigh ∧
      (arrived.foldl (Batch.receive config timestampNs) batch).dataBatch =
        batch.dataBatch ++ (passing config timestampNs arrived).filter isNormal ∧
      (arrived.foldl (Batch.receive config timestampNs) batch).stats.packetsReceived =
        batch.stats.packetsReceived + (passing config timestampNs arrived).length ∧
      (arrived.foldl (Batch.receive config timestampNs) batch).stats.packetsReceived +
          (arrived.foldl (Batch.receive config timestampNs) batch).stats.packetsFiltered =
        batch.stats.packetsReceived + batch.stats.packetsFiltered + arrived.length ∧
      (arrived.foldl (Batch.receive config timestampNs) batch).stats.bytesReceived =
        batch.stats.bytesReceived +
          ((passing config timestampNs arrived).map fun pending => pending.data.length).sum := by
  induction arrived generalizing batch with
  | nil => simp [passing]
  | cons received arrived ih =>
    obtain ⟨hhigh, hnormal, hcount, htotal, hbytes⟩ :=
      ih (batch.receive config timestampNs received)
    rw [List.foldl_cons, hhigh, hnormal, hcount, hbytes]
    rw [hcount] at htotal
    cases hpass : passesFilter config received.2.data with
    | false =>
      have hskip : passing config timestampNs (received :: arrived) =
          passing config timestampNs arrived := by
        simp [passing, hpass]
      rw [hskip, htotal, receive_filtered hpass, List.length_cons]
      refine ⟨rfl, rfl, rfl, ?_, rfl⟩
      simp only
      omega
    | true =>
      have hcons : passing config timestampNs (received :: arrived) =
          pendingOf timestampNs received :: passing config timestampNs arrived := by
        simp [passing, hpass]
      rw [hcons, htotal, receive_passing hpass, List.length_cons, List.length_cons, List.map_cons,
        List.sum_cons, List.append_assoc, List.append_assoc, ← List.filter_append,
        ← List.filter_append]
      refine ⟨rfl, rfl, ?_, ?_, ?_⟩
      · simp only
        omega
      · simp only
        omega
      · simp only [pendingOf]
        omega

end

namespace ReceiveLoop

/-- How many slots of this round have a buffer. -/
def filledSlots (s : ReceiveLoop) : Nat :=
  match s.pc with
  | .allocate _ i => i
  | .recvmmsg _ => s.batchSize
  | _ => 0

/-- The slots before the current one have buffers of their own, which no packet lies in. -/
structure Filled (n : Nat) (s : ReceiveLoop) : Prop where
  size : s.batchSize = n
  slots : s.recvBuffers.take s.filledSlots = s.holding.map some
  nodup : s.holding.Nodup
  apart : ∀ buffer ∈ s.holding, buffer ∉ s.packetBuffers

section
variable {config : ArrayFaceReceiverConfig} {s s' : ReceiveLoop} {l : ReceiveLabel} {n r i : Nat}

theorem filled_idle (hsize : s.batchSize = n)
    (hpc : s.pc = .outer ∨ s.pc = .done ∨ ∃ r, s.pc = .drain r) : Filled n s := by
  have hholding := holding_of_idle hpc
  have hzero : s.filledSlots = 0 := by
    rcases hpc with hpc | hpc | ⟨r, hpc⟩ <;> rw [filledSlots, hpc]
  refine ⟨hsize, ?_, ?_, ?_⟩
  · rw [hzero, hholding, List.take_zero, List.map_nil]
  · rw [hholding]
    exact List.nodup_nil
  · rw [hholding]
    exact fun buffer hbuffer => absurd hbuffer List.not_mem_nil

theorem filledSlots_atSlot (hpc : s.pc = s.atSlot r i) (hle : i ≤ s.batchSize) :
    s.filledSlots = i := by
  unfold atSlot at hpc
  split at hpc
  · rw [filledSlots, hpc]
  · rw [filledSlots, hpc]
    simp only
    omega

theorem length_receive_recvBuffers {timestampNs : BitVec 64} {ds : List Datagram}
    (hle : ds.length ≤ s.batchSize) :
    (s.receive config timestampNs r ds).batchSize = s.batchSize := by
  unfold batchSize receive releaseAll at *
  simp only [List.length_append, List.length_replicate, List.length_drop]
  omega

theorem filled_received {running : Bool} {timestampNs : BitVec 64} {result : RecvResult}
    (hs : Filled n s) (h : s.received config running timestampNs r result = some s') :
    Filled n s' := by
  cases result with
  | failed harmless =>
    obtain rfl := Option.some.inj h
    exact filled_idle hs.size (Or.inl rfl)
  | datagrams ds =>
    unfold received at h
    simp only at h
    split at h
    · cases h
    · next hle =>
      split at h
      · obtain rfl := Option.some.inj h
        exact filled_idle hs.size (Or.inl rfl)
      · obtain rfl := Option.some.inj h
        exact filled_idle ((length_receive_recvBuffers (Nat.le_of_not_lt hle)).trans hs.size)
          receive_idle

theorem filled_allocated {buffer : Option Nat} (htidy : Tidy s) (hs : Filled n s)
    (hpc : s.pc = .allocate r i) (h : s.allocated r i buffer = some s') : Filled n s' := by
  have hlt := htidy.slot r i hpc
  cases buffer with
  | none =>
    obtain rfl := Option.some.inj h
    exact filled_idle (List.length_set.trans hs.size) (Or.inl rfl)
  | some buffer =>
    obtain ⟨hfresh, heq⟩ := Option.ite_none_right_eq_some.1 h
    obtain rfl := Option.some.inj heq
    have hslots := hs.slots
    have hholding : s.holding = (s.recvBuffers.take i).reduceOption := by rw [holding, hpc]
    rw [show s.filledSlots = i by rw [filledSlots, hpc]] at hslots
    have hnew := fresh_held hfresh
    rw [htidy.held] at hnew
    have hapart : buffer ∉ s.packetBuffers := by
      have := (Bool.and_eq_true_iff.1 hfresh).2
      simpa using this
    generalize ht : ({ s with
      recvBuffers := s.recvBuffers.set i (some buffer)
      trace := s.trace ++ [.take buffer]
      pc := s.atSlot r (i + 1) } : ReceiveLoop) = t
    have hbuffers : t.recvBuffers = s.recvBuffers.set i (some buffer) := by rw [← ht]
    have hsize : t.batchSize = s.batchSize := by rw [batchSize, hbuffers, List.length_set, batchSize]
    have htpc : t.pc = t.atSlot r (i + 1) := by
      rw [atSlot, hsize, ← ht]
      rfl
    have hle : i + 1 ≤ t.batchSize := hsize.symm ▸ hlt
    have hheld : t.holding = s.holding ++ [buffer] := by
      rw [holding_atSlot htpc hle, hbuffers, take_succ_set hlt, List.reduceOption_append, hholding]
      rfl
    refine ⟨hsize.trans hs.size, ?_, ?_, ?_⟩
    · rw [filledSlots_atSlot htpc hle, hbuffers, take_succ_set hlt, hslots, hheld, List.map_append]
      rfl
    · rw [hheld]
      exact List.nodup_append.2 ⟨hs.nodup, List.pairwise_singleton _ buffer, by
        intro a ha b hb hab
        rw [List.mem_singleton] at hb
        exact hnew (hb ▸ hab ▸ ha)⟩
    · intro b hb
      rw [show t.packetBuffers = s.packetBuffers by rw [← ht]]
      rw [hheld, List.mem_append, List.mem_singleton] at hb
      obtain hb | rfl := hb
      · exact hs.apart b hb
      · exact hapart

theorem filled_step (htidy : Tidy s) (hs : Filled n s) (h : s.step config l = some s') :
    Filled n s' := by
  unfold step at h
  cases l with
  | load running =>
    simp only at h
    split at h
    case h_1 hpc =>
      obtain rfl := Option.some.inj h
      refine filled_idle hs.size ?_
      cases running with
      | false => exact Or.inr (Or.inl rfl)
      | true => exact Or.inr (Or.inr ⟨0, rfl⟩)
    case h_2 drainRound hpc =>
      obtain rfl := Option.some.inj h
      by_cases hgo : drainRound < drainRounds config ∧ running = true
      · rw [if_pos hgo]
        generalize ht : ({ s with pc := s.atSlot drainRound 0 } : ReceiveLoop) = t
        have htpc : t.pc = t.atSlot drainRound 0 := by
          rw [← ht]
          rfl
        have hheld : t.holding = [] := by
          rw [holding_atSlot htpc (Nat.zero_le _)]
          rfl
        refine ⟨ht ▸ hs.size, ?_, ?_, ?_⟩
        · rw [filledSlots_atSlot htpc (Nat.zero_le _), hheld]
          rfl
        · rw [hheld]
          exact List.nodup_nil
        · rw [hheld]
          exact fun buffer hbuffer => absurd hbuffer List.not_mem_nil
      · rw [if_neg hgo]
        exact filled_idle hs.size (Or.inl rfl)
    case h_3 => cases h
  | allocate buffer =>
    simp only at h
    split at h
    case h_1 drainRound i hpc => exact filled_allocated htidy hs hpc h
    case h_2 => cases h
  | recvmmsg result running timestampNs =>
    simp only at h
    split at h
    case h_1 drainRound hpc => exact filled_received hs h
    case h_2 => cases h
  | drop buffer =>
    obtain ⟨-, heq⟩ := Option.ite_none_right_eq_some.1 h
    obtain rfl := Option.some.inj heq
    exact ⟨hs.size, hs.slots, hs.nodup,
      fun b hb hmem => hs.apart b hb (List.mem_of_mem_erase hmem)⟩

theorem filled_exec {ls : List ReceiveLabel}
    (hrun : Machine.exec (step config) (init n) ls = some s) : Filled n s := by
  have hinv := Machine.exec_inv (I := fun s => Tidy s ∧ Filled n s) (C := fun _ _ => True)
    (fun _ _ _ hs _ hstep => ⟨tidy_step hs.1 hstep, filled_step hs.1 hs.2 hstep⟩)
    ⟨tidy_init n, filled_idle List.length_replicate (Or.inl rfl)⟩
    (Machine.along_of_forall (C := fun _ => True) fun _ _ => trivial) hrun
  exact hinv.2

/-- **One round of the receive loop**, from any state that a run reaches before `recvmmsg`: the
slots have buffers of their own, and the handler is called once for each datagram that passes the
filter, in its buffer, the packets of high priority before the normal ones and each kind in the
order of its arrival. Every datagram is counted as received or as filtered. -/
theorem receive_round (config : ArrayFaceReceiverConfig) (hhandler : config.packetHandler = true)
    {ls : List ReceiveLabel} (hrun : Machine.exec (step config) (init n) ls = some s)
    (hpc : s.pc = .recvmmsg r) (ds : List Datagram) (hone : 1 ≤ ds.length) (hle : ds.length ≤ n)
    (running : Bool) (timestampNs : BitVec 64) :
    ∃ (s' : ReceiveLoop) (buffers : List Nat),
      step config s (.recvmmsg (.datagrams ds) running timestampNs) = some s' ∧
      s.recvBuffers = buffers.map some ∧ buffers.length = n ∧ buffers.Nodup ∧
      (∀ buffer ∈ buffers, buffer ∉ s.packetBuffers) ∧
      s'.handled = s.handled ++
        ((passing config timestampNs (buffers.zip ds)).filter isHigh ++
          (passing config timestampNs (buffers.zip ds)).filter isNormal) ∧
      s'.stats.packetsReceived + s'.stats.packetsFiltered =
        s.stats.packetsReceived + s.stats.packetsFiltered + ds.length ∧
      s'.stats.bytesReceived = s.stats.bytesReceived +
        ((passing config timestampNs (buffers.zip ds)).map fun pending => pending.data.length).sum := by
  have hfilled := filled_exec hrun
  have hslots : s.recvBuffers = s.holding.map some := by
    rw [← hfilled.slots, filledSlots, hpc]
    exact List.take_length.symm
  have hlength : s.holding.length = n := by
    rw [← hfilled.size, batchSize, hslots, List.length_map]
  have hmoved : (s.recvBuffers.take ds.length).reduceOption = s.holding.take ds.length := by
    calc (s.recvBuffers.take ds.length).reduceOption
        = ((s.holding.take ds.length).map some).filterMap id := by
          rw [hslots, ← List.map_take]
          rfl
      _ = s.holding.take ds.length := by rw [List.filterMap_map, Function.id_comp, List.filterMap_some]
  have hzip : (s.holding.take ds.length).zip ds = s.holding.zip ds := by
    conv_rhs => rw [List.zip_eq_zip_take_min, hlength, Nat.min_eq_right hle, List.take_length]
  have hstep : step config s (.recvmmsg (.datagrams ds) running timestampNs) =
      some (s.receive config timestampNs r ds) := by
    have hnonempty : ds.isEmpty = false := by
      cases ds with
      | nil => exact absurd hone (by decide)
      | cons d ds => rfl
    rw [step, hpc]
    simp only [received]
    rw [if_neg (by rw [hfilled.size]; omega), hnonempty, if_neg Bool.false_ne_true]
  obtain ⟨hhigh, hnormal, -, htotal, hbytes⟩ := foldl_receive config timestampNs
    { heartbeatBatch := [], dataBatch := [], stats := s.stats } (s.holding.zip ds)
  refine ⟨_, s.holding, hstep, hslots, hlength, hfilled.nodup, hfilled.apart, ?_, ?_, ?_⟩
  · simp only [receive, releaseAll, hmoved, hzip, hhandler, if_true, hhigh, hnormal, List.nil_append]
  · simp only [receive, releaseAll, hmoved, hzip]
    rw [htotal, List.length_zip, hlength, Nat.min_eq_right hle]
  · simp only [receive, releaseAll, hmoved, hzip]
    exact hbytes

end

/-- Three slots filled, and a batch of a data packet and a heartbeat of the expected source with a
data packet of another source between them. -/
def filledRound : List ReceiveLabel :=
  [.load true, .load true, .allocate (some 1), .allocate (some 2), .allocate (some 3)]

def mixedBatch : List Datagram :=
  [⟨List.replicate 18 0 ++ [0x03, 0x31, 0x11], []⟩, ⟨List.replicate 18 0 ++ [0x03, 0x31, 0x12], []⟩,
    ⟨List.replicate 18 0 ++ [0x04, 0x31, 0x11], []⟩]

/-- The heartbeat is handled before the data packet, and the packet of the other source is
filtered. -/
theorem mixedBatch_round : ∃ s s' : ReceiveLoop, Machine.exec (step {})
    (init 3) filledRound = some s ∧
    step {} s (.recvmmsg (.datagrams mixedBatch) true 5) = some s' ∧
    s'.handled.map PendingPacket.packetBuffer = [3, 1] ∧
    s'.stats.packetsReceived + s'.stats.packetsFiltered = 3 := by
  have hstart : (Machine.exec (step {}) (init 3) filledRound).map
      (fun s => (decide (s.pc = .recvmmsg 0), s.recvBuffers, s.handled, s.stats.packetsReceived +
        s.stats.packetsFiltered)) = some (true, [some 1, some 2, some 3], [], 0) := by
    decide +kernel
  obtain ⟨s, hrun, hs⟩ := Option.map_eq_some_iff.1 hstart
  simp only [Prod.mk.injEq] at hs
  obtain ⟨hpc, hbuffers, hhandled, hcount⟩ := hs
  obtain ⟨s', buffers, hstep, hslots, -, -, -, hcalls, htotal, -⟩ :=
    receive_round {} rfl hrun (of_decide_eq_true hpc) mixedBatch (by decide) (by decide) true 5
  have hown : buffers = [1, 2, 3] := by
    apply List.map_injective_iff.2 fun _ _ => Option.some.inj
    rw [← hslots, hbuffers]
    rfl
  refine ⟨s, s', hrun, hstep, ?_, ?_⟩
  · rw [hcalls, hown, hhandled]
    decide +kernel
  · rw [htotal, hcount]
    rfl

end ReceiveLoop

end Qdgz300.Network
