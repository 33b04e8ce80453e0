import Qdgz300.Delivery.Proof.SharedRing
import Qdgz300.Delivery.UnixSocket

/-!
# What one delivery writes

Whatever the ring holds, a delivery that succeeds leaves the record of its packet at the place where
it starts (`recordStart`): the eviction moves the tail only, and the record lies in one piece.

* **`deliver_record`**: the record reads back after every successful delivery.
* `deliver_refused`: a record that does not fit the ring is an error.
* `exec_headIn`: the head stays in the ring.
* `deliver_wire`: the message that the Unix socket sends.
-/

namespace Qdgz300.Delivery

open RingBuffer Bytes SharedMemoryDelivery Pipeline

/-- The record at an offset, as `drop_oldest_unlocked` reads it. -/
def recordAt (ring : List Byte) (pos : Nat) : Option Record :=
  let rec_ := RecordHeader.decode (read ring pos recordHeaderSize)
  if rec_.marker = kRecordMarker then
    some ⟨rec_.sequenceNumber, rec_.isZeroFilled != 0,
      read ring ((pos + recordHeaderSize) % ring.length) rec_.payloadSize.toNat⟩
  else none

/-- Where the record of a packet starts: at the head, or at offset `0` when it does not fit before
the end of the ring. -/
def recordStart (s : SharedMemoryDelivery) (packet : OrderedPacket) : Nat :=
  if s.ring.length < s.head + recordHeaderSize ∨ s.ring.length < s.head + required packet then 0
  else s.head

/-- The head lies in the ring. -/
def HeadIn (s : SharedMemoryDelivery) : Prop := s.ring = [] ∨ s.head < s.ring.length

section
variable {s s' : SharedMemoryDelivery} {packet : OrderedPacket} {n fuel : Nat} {b : Bool}

theorem dropOldest_frame (s : SharedMemoryDelivery) :
    ∃ t, s.dropOldestUnlocked.1 = { s with tail := t } := by
  unfold dropOldestUnlocked
  split
  · exact ⟨_, rfl⟩
  simp only
  split
  · exact ⟨_, rfl⟩
  split <;> exact ⟨_, rfl⟩

/-- The eviction moves the tail only. -/
theorem evict_frame : ∀ {fuel : Nat} {s : SharedMemoryDelivery}, evict n fuel s = some (s', b) →
    ∃ t, s' = { s with tail := t } := by
  intro fuel
  induction fuel with
  | zero =>
    intro s h
    rw [evict] at h
    split at h
    · cases h
      exact ⟨_, rfl⟩
    · cases h
  | succ fuel ih =>
    intro s h
    obtain ⟨t, ht⟩ := dropOldest_frame s
    rw [evict] at h
    split at h
    · cases h
      exact ⟨_, rfl⟩
    split at h
    · obtain ⟨t', ht'⟩ := ih h
      exact ⟨t', by rw [ht', ht]⟩
    · cases h
      exact ⟨t, ht⟩

theorem wrapIfNeeded_start (hhead : s.head < s.ring.length)
    (hfit : required packet < s.ring.length) :
    (s.wrapIfNeeded (required packet)).head = recordStart s packet ∧
      (s.wrapIfNeeded (required packet)).ring.length = s.ring.length ∧
      recordStart s packet + required packet ≤ s.ring.length := by
  have hheader : (({ marker := kWrapMarker } : RecordHeader).encode).length ≤ s.ring.length := by
    unfold required recordHeaderSize at hfit
    rw [length_encodeHeader]
    omega
  unfold wrapIfNeeded recordStart
  split
  · exact ⟨rfl, length_write hhead hheader, by omega⟩
  · exact ⟨rfl, rfl, by omega⟩

/-- A record that stands in the ring reads back. -/
theorem recordAt_of_holds {ring : List Byte} {a : Nat} (hc : Carries packet)
    (h : Holds ring a (recordOf packet).encode) (hend : a + required packet ≤ ring.length) :
    recordAt ring a = some (recordOf packet) := by
  have hlen := encode_recordOf hc
  have hsmall : (recordOf packet).payload.length < 2 ^ 16 := by
    rw [length_recordOf hc]
    exact packet.packet.header.payloadLen.isLt
  have hflag : ((recordOf packet).header.isZeroFilled != 0) = (recordOf packet).isZeroFilled := by
    unfold Record.header
    cases (recordOf packet).isZeroFilled <;> rfl
  unfold recordAt
  simp only [decode_record h (by omega), header_size hsmall, read_payload h (by omega), hflag]
  exact if_pos rfl

theorem writeRecord_reads (hhead : s.head < s.ring.length) (hc : Carries packet)
    (hfit : required packet < s.ring.length) :
    recordAt ((s.wrapIfNeeded (required packet)).writeRecord packet).ring (recordStart s packet) =
      some (recordOf packet) := by
  obtain ⟨hstart, hlen, hend⟩ := wrapIfNeeded_start hhead hfit
  have henc := encode_recordOf hc
  rw [writeRecord_eq hc (by omega)]
  simp only [hstart]
  refine recordAt_of_holds hc (holds_memcpy_self (by omega)) ?_
  rw [length_memcpy (by omega)]
  omega

theorem HeadIn.lt (h : HeadIn s) (hfit : required packet < s.ring.length) :
    s.head < s.ring.length := by
  rcases h with hnil | hin
  · rw [hnil] at hfit
    exact absurd hfit (Nat.not_lt_zero _)
  · exact hin

/-- What a call of `deliver` does to the ring: nothing, or it evicts and writes the record. -/
theorem deliver_cases (h : s.deliver packet = some (s', b)) :
    b = false ∧ s'.ring = s.ring ∧ s'.head = s.head ∨
    b = true ∧ required packet < s.ring.length ∧ ∃ t, s' =
      ((({ s with tail := t } : SharedMemoryDelivery).wrapIfNeeded (required packet)).writeRecord
        packet).countDelivered packet := by
  unfold deliver at h
  split at h
  · cases h
    exact .inl ⟨rfl, rfl, rfl⟩
  simp only at h
  split at h
  · cases h
    exact .inl ⟨rfl, rfl, rfl⟩
  case isFalse hbig =>
    obtain ⟨⟨s1, ok⟩, hev, hr⟩ := Option.map_eq_some_iff.1 h
    obtain ⟨t, rfl⟩ := evict_frame hev
    cases ok with
    | false =>
      cases hr
      exact .inl ⟨rfl, rfl, rfl⟩
    | true =>
      cases hr
      exact .inr ⟨rfl, Nat.lt_of_not_le hbig, t, rfl⟩

/-- **A successful delivery leaves the record of its packet.** -/
theorem deliver_record (hhead : HeadIn s) (hc : Carries packet)
    (h : s.deliver packet = some (s', true)) :
    recordAt s'.ring (recordStart s packet) = some (recordOf packet) := by
  rcases deliver_cases h with ⟨hb, -, -⟩ | ⟨-, hfit, t, rfl⟩
  · cases hb
  · exact writeRecord_reads (s := { s with tail := t }) (hhead.lt hfit) hc hfit

theorem deliver_refused (h : s.ring.length ≤ required packet) :
    s.deliver packet = some (s.countError, false) := by
  unfold deliver
  split
  · rfl
  · exact if_pos h

/-! ## The head stays in the ring -/

theorem headIn_init (n : Nat) : HeadIn (init n) := by
  rcases Nat.eq_zero_or_pos n with rfl | hn
  · exact .inl rfl
  · exact .inr (by simpa [init] using hn)

theorem writeRecord_headIn (hin : s.head < s.ring.length) (hfit : required packet < s.ring.length) :
    HeadIn (s.writeRecord packet) := by
  have hpos : 0 < s.ring.length := Nat.zero_lt_of_lt hin
  unfold required recordHeaderSize at hfit
  have hlen : (write s.ring s.head (recordHeader packet).encode).length = s.ring.length :=
    length_write hin (by rw [length_encodeHeader]; omega)
  have hin1 : (s.head + recordHeaderSize) % s.ring.length < s.ring.length := Nat.mod_lt _ hpos
  unfold writeRecord
  simp only
  split
  case h_1 bytes _ =>
    have hlen2 : (write (write s.ring s.head (recordHeader packet).encode)
        ((s.head + recordHeaderSize) % s.ring.length) (bytes.take (payloadSize packet))).length =
        s.ring.length := by
      rw [length_write (by omega) (by rw [List.length_take]; omega), hlen]
    split
    · refine .inr ?_
      simp only [hlen2, hlen]
      exact Nat.mod_lt _ hpos
    · exact .inr (by simpa only [hlen] using hin1)
  case h_2 => exact .inr (by simpa only [hlen] using hin1)

theorem deliver_headIn (hhead : HeadIn s) (h : s.deliver packet = some (s', b)) : HeadIn s' := by
  rcases deliver_cases h with ⟨-, hring, hsame⟩ | ⟨-, hfit, t, rfl⟩
  · unfold HeadIn at hhead ⊢
    rwa [hring, hsame]
  · have hin := hhead.lt hfit
    obtain ⟨hstart, hlen, hend⟩ := wrapIfNeeded_start (s := { s with tail := t }) hin hfit
    have hrec : HeadIn ((({ s with tail := t } : SharedMemoryDelivery).wrapIfNeeded
        (required packet)).writeRecord packet) := by
      refine writeRecord_headIn ?_ ?_
      · rw [hstart, hlen]
        have : 0 < required packet := by unfold required recordHeaderSize; omega
        omega
      · rw [hlen]
        exact hfit
    exact hrec

theorem exec_headIn {packets : List OrderedPacket} {st : SharedMemoryDelivery × List Record}
    (h : Machine.exec deliverStep (init n, []) packets = some st) : HeadIn st.1 := by
  refine Machine.exec_inv (I := fun st => HeadIn st.1) (C := fun _ _ => True) ?_ (headIn_init n)
    (Machine.along_of_forall fun _ _ => trivial) h
  intro st packet st' hI _ hstep
  obtain ⟨⟨s1, b⟩, hd, rfl⟩ := Option.map_eq_some_iff.1 hstep
  exact deliver_headIn hI hd

end

/-! ## The Unix socket -/

theorem deliver_wire {clk : SteadyClock} {calls : SocketCalls} {s : UnixSocketDelivery}
    {packet : OrderedPacket} {message : List Byte}
    (h : (s.deliver clk calls packet).2.1 = some message) :
    message = UnixSocketDelivery.wire packet := by
  unfold UnixSocketDelivery.deliver at h
  simp only at h
  generalize (if s.connected then (s, true) else s.connectWithBackoff clk calls) = opened at h
  split at h
  · exact (Option.some.inj h).symm
  · cases h

end Qdgz300.Delivery
