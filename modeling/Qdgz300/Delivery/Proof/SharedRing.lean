import Qdgz300.Lib.Machine
import Qdgz300.Delivery.SharedMemory

/-!
# The records of the shared-memory ring

`RingInv s ps`: the ring of `s` holds the records `ps`, each with its offset, either in one piece
from tail to head, or in two: from the tail to the end of the ring or to a wrap marker, and from
offset `0` to the head.

* `records_eq`: the walk from tail to head finds exactly these records.
* `dropOldest_inv`, `evict_spec`: dropping takes them from the front; eviction always ends.
* **`deliver_inv`**: delivering appends a record, when the step is `WrapSafe`.
-/

namespace Qdgz300.Delivery

open RingBuffer Bytes SharedMemoryDelivery Pipeline

/-! ## Encoding -/

def Record.header (r : Record) : RecordHeader where
  marker := kRecordMarker
  payloadSize := BitVec.ofNat 32 r.payload.length
  sequenceNumber := r.sequenceNumber
  isZeroFilled := if r.isZeroFilled then 1 else 0

def Record.encode (r : Record) : List Byte := r.header.encode ++ r.payload

def encodeAll (rs : List Record) : List Byte := rs.flatMap Record.encode

@[simp] theorem encodeAll_nil : encodeAll [] = [] := rfl

@[simp] theorem encodeAll_cons (r : Record) (rs : List Record) :
    encodeAll (r :: rs) = r.encode ++ encodeAll rs := rfl

@[simp] theorem length_encodeHeader (h : RecordHeader) : h.encode.length = 16 := by
  simp [RecordHeader.encode]

@[simp] theorem length_encode (r : Record) : r.encode.length = 16 + r.payload.length := by
  simp [Record.encode]

theorem ofNat_leNat_toLe (x : BitVec 32) : BitVec.ofNat 32 (leNat (toLe 4 x.toNat)) = x := by
  rw [leNat_toLe, Nat.mod_eq_of_lt (by have := x.isLt; omega), BitVec.ofNat_toNat, BitVec.setWidth_eq]

/-- **A header reads back.** -/
theorem decode_encode (h : RecordHeader) : RecordHeader.decode h.encode = h := by
  have h0 : slice h.encode 0 4 = toLe 4 h.marker.toNat := rfl
  have h4 : slice h.encode 4 4 = toLe 4 h.payloadSize.toNat := rfl
  have h8 : slice h.encode 8 4 = toLe 4 h.sequenceNumber.toNat := rfl
  have h12 : h.encode.getD 12 0 = h.isZeroFilled := rfl
  rw [RecordHeader.decode, le32, le32, le32, h0, h4, h8, h12, ofNat_leNat_toLe, ofNat_leNat_toLe,
    ofNat_leNat_toLe]

theorem decode_wrap {ring : List Byte} {w : Nat} (h : Holds ring w (toLe 4 kWrapMarker.toNat))
    (hw : w + 4 ≤ ring.length) :
    (RecordHeader.decode (read ring w recordHeaderSize)).marker = kWrapMarker := by
  have hslice : slice (read ring w recordHeaderSize) 0 4 = toLe 4 kWrapMarker.toNat := by
    refine List.ext_getElem? fun i => ?_
    rw [slice, List.drop_zero]
    rcases Nat.lt_or_ge i 4 with hi | hi
    · rw [List.getElem?_take_of_lt hi, read_get (by omega) i (by unfold recordHeaderSize; omega),
        if_pos (by omega), h i (by simpa using hi)]
    · rw [List.getElem?_eq_none (by rw [List.length_take]; omega),
        List.getElem?_eq_none (by simpa using hi)]
  rw [RecordHeader.decode, le32, hslice, ofNat_leNat_toLe]

/-! ## The walk -/

/-- Records one after the other, with their offsets. -/
def placed : Nat → List Record → List (Nat × Record)
  | _, [] => []
  | a, r :: rs => (a, r) :: placed (a + r.encode.length) rs

theorem placed_append (rs rs' : List Record) :
    ∀ a, placed a (rs ++ rs') = placed a rs ++ placed (a + (encodeAll rs).length) rs' := by
  induction rs with
  | nil => intro a; rfl
  | cons r rs ih =>
    intro a
    rw [List.cons_append, placed, ih, placed, encodeAll_cons, List.length_append, Nat.add_assoc]
    rfl

@[simp] theorem placed_snd (rs : List Record) : ∀ a, (placed a rs).map Prod.snd = rs := by
  induction rs with
  | nil => intro a; rfl
  | cons r rs ih => intro a; rw [placed, List.map_cons, ih]

theorem decode_record {ring : List Byte} {a : Nat} {r : Record} (h : Holds ring a r.encode)
    (hend : a + r.encode.length ≤ ring.length) :
    RecordHeader.decode (read ring a recordHeaderSize) = r.header := by
  rw [Record.encode] at h
  rw [length_encode] at hend
  have hread := (holds_append.1 h).1.read_eq (by rw [length_encodeHeader]; omega)
  rw [length_encodeHeader] at hread
  rw [recordHeaderSize, hread, decode_encode]

theorem header_size {r : Record} (h : r.payload.length < 2 ^ 16) :
    r.header.payloadSize.toNat = r.payload.length := by
  rw [Record.header, BitVec.toNat_ofNat, Nat.mod_eq_of_lt (by omega)]

theorem read_payload {ring : List Byte} {a : Nat} {r : Record} (h : Holds ring a r.encode)
    (hend : a + r.encode.length ≤ ring.length) :
    read ring ((a + recordHeaderSize) % ring.length) r.payload.length = r.payload := by
  rw [Record.encode] at h
  rw [length_encode] at hend
  have hpay := (holds_append.1 h).2
  rw [length_encodeHeader] at hpay
  rcases Nat.eq_zero_or_pos r.payload.length with h0 | hpos
  · rw [h0, List.length_eq_zero_iff.1 h0]
    simp [RingBuffer.read]
  · rw [recordHeaderSize, Nat.mod_eq_of_lt (by omega)]
    exact hpay.read_eq (by omega)

/-- **The walk over a piece**: it finds the records and stands behind them. -/
theorem walk_piece {ring : List Byte} (head fuel : Nat) :
    ∀ (rs : List Record) (a : Nat), Holds ring a (encodeAll rs) →
      a + (encodeAll rs).length ≤ ring.length → (∀ r ∈ rs, r.payload.length < 2 ^ 16) →
      (head < a ∨ a + (encodeAll rs).length ≤ head) →
      walk ring head (fuel + rs.length) (a % ring.length) =
        (walk ring head fuel ((a + (encodeAll rs).length) % ring.length)).map
          (placed a rs ++ ·) := by
  intro rs
  induction rs with
  | nil =>
    intro a _ _ _ _
    simp [placed]
  | cons r rs ih =>
    intro a h hend hsmall hhead
    rw [encodeAll_cons] at h hend hhead ⊢
    rw [List.length_append] at hend hhead ⊢
    obtain ⟨h1, h2⟩ := holds_append.1 h
    have hr : a + r.encode.length ≤ ring.length := by omega
    have hlen := length_encode r
    have hlt : a < ring.length := by omega
    have hne : ¬ a = head := by omega
    have hsize := header_size (hsmall r List.mem_cons_self)
    have hrec : (r.header.marker = kWrapMarker) = False := by
      simp [Record.header, kRecordMarker, kWrapMarker]
    have hih := ih (a + r.encode.length) h2 (by omega)
      (fun r' hr' => hsmall r' (List.mem_cons_of_mem _ hr')) (by omega)
    rw [Nat.mod_eq_of_lt hlt, List.length_cons, ← Nat.add_assoc, walk, if_neg hne]
    simp only [decode_record h1 hr, hsize, read_payload h1 hr, hrec, if_false]
    rw [if_neg (by simp [Record.header]), recordHeaderSize, ← hlen, hih, Nat.add_assoc,
      Option.map_map]
    have hself : (⟨r.header.sequenceNumber, r.header.isZeroFilled != 0, r.payload⟩ : Record) = r := by
      obtain ⟨q, z, bs⟩ := r
      cases z <;> rfl
    rw [hself]
    rfl

/-! ## The invariant -/

/-- The records in one piece, from tail to head. -/
structure Straight (s : SharedMemoryDelivery) (rs : List Record) : Prop where
  holds : Holds s.ring s.tail (encodeAll rs)
  head : s.tail + (encodeAll rs).length = s.head
  lt : s.head < s.ring.length

/-- The records in two pieces: the first ends with the ring, or at a wrap marker. -/
structure Wrapped (s : SharedMemoryDelivery) (rs1 rs2 : List Record) : Prop where
  holds : Holds s.ring s.tail (encodeAll rs1)
  stop : s.tail + (encodeAll rs1).length = s.ring.length ∨
    s.tail + (encodeAll rs1).length + 4 ≤ s.ring.length ∧
      Holds s.ring (s.tail + (encodeAll rs1).length) (toLe 4 kWrapMarker.toNat)
  lt : s.tail < s.ring.length
  holds0 : Holds s.ring 0 (encodeAll rs2)
  head : (encodeAll rs2).length = s.head
  behind : s.head < s.tail

/-- The ring holds the records `ps`, given with their offsets. -/
structure RingInv (s : SharedMemoryDelivery) (ps : List (Nat × Record)) : Prop where
  ready : s.ready = true
  small : ∀ r ∈ ps.map Prod.snd, r.payload.length < 2 ^ 16
  layout : (∃ rs, ps = placed s.tail rs ∧ Straight s rs) ∨
    ∃ rs1 rs2, ps = placed s.tail rs1 ++ placed 0 rs2 ∧ Wrapped s rs1 rs2

theorem ringInv_init {R : Nat} (hR : 0 < R) : RingInv (init R) [] :=
  ⟨rfl, by simp, .inl ⟨[], rfl, by simp [Holds], rfl, by simpa [init] using hR⟩⟩

section
variable {s : SharedMemoryDelivery} {ps : List (Nat × Record)} {rs rs1 rs2 : List Record}

theorem length_encodeAll : ∀ rs : List Record, 16 * rs.length ≤ (encodeAll rs).length
  | [] => Nat.le_refl _
  | r :: rs => by
    have := length_encodeAll rs
    rw [encodeAll_cons, List.length_append, length_encode, List.length_cons]
    omega

theorem walk_head (ring : List Byte) (head fuel : Nat) : walk ring head fuel head = some [] := by
  cases fuel <;> rw [walk, if_pos rfl]

theorem Straight.walk_eq (h : Straight s rs) (hsmall : ∀ r ∈ rs, r.payload.length < 2 ^ 16)
    (fuel : Nat) : walk s.ring s.head (fuel + rs.length) s.tail = some (placed s.tail rs) := by
  have hhead := h.head
  have hlt := h.lt
  have hpiece := walk_piece s.head fuel rs s.tail h.holds (by omega) hsmall
    (.inr (by omega))
  rw [Nat.mod_eq_of_lt (by omega), hhead, Nat.mod_eq_of_lt hlt, walk_head] at hpiece
  rw [hpiece, Option.map_some, List.append_nil]

theorem Wrapped.walk_eq (h : Wrapped s rs1 rs2)
    (hsmall : ∀ r ∈ rs1 ++ rs2, r.payload.length < 2 ^ 16)
    (fuel : Nat) : walk s.ring s.head (fuel + rs2.length + 1 + rs1.length) s.tail =
      some (placed s.tail rs1 ++ placed 0 rs2) := by
  have hhead := h.head
  have hbehind := h.behind
  have hlt := h.lt
  have hlow : ∀ k, walk s.ring s.head (k + rs2.length) 0 = some (placed 0 rs2) := by
    intro k
    have hpiece := walk_piece s.head k rs2 0 h.holds0 (by omega)
      (fun r hr => hsmall r (List.mem_append_right _ hr)) (.inr (by omega))
    rw [Nat.zero_mod, Nat.zero_add, hhead, Nat.mod_eq_of_lt (by omega), walk_head] at hpiece
    rw [hpiece, Option.map_some, List.append_nil]
  have hpiece := walk_piece s.head (fuel + rs2.length + 1) rs1 s.tail h.holds
    (by rcases h.stop with h1 | h1 <;> omega)
    (fun r hr => hsmall r (List.mem_append_left _ hr)) (.inl hbehind)
  rw [Nat.mod_eq_of_lt hlt] at hpiece
  rw [hpiece]
  rcases h.stop with hend | ⟨hend, hmark⟩
  · rw [hend, Nat.mod_self, show fuel + rs2.length + 1 = fuel + 1 + rs2.length by omega, hlow,
      Option.map_some]
  · rw [Nat.mod_eq_of_lt (by omega), walk, if_neg (by omega)]
    simp only [decode_wrap hmark hend, if_true]
    rw [hlow, Option.map_some]

/-- **The walk from tail to head finds the records.** -/
theorem RingInv.records_eq (h : RingInv s ps) : s.records = some ps := by
  have hsmall := h.small
  unfold SharedMemoryDelivery.records
  rcases h.layout with ⟨rs, rfl, hs⟩ | ⟨rs1, rs2, rfl, hw⟩
  · have h1 := length_encodeAll rs
    have h2 := hs.head
    have h3 := hs.lt
    rw [placed_snd] at hsmall
    obtain ⟨fuel, hfuel⟩ := Nat.exists_eq_add_of_le' (show rs.length ≤ s.ring.length + 1 by omega)
    rw [hfuel, hs.walk_eq hsmall]
  · have h1 := length_encodeAll rs1
    have h2 := length_encodeAll rs2
    have h3 := hw.head
    have h4 := hw.behind
    have h5 : s.tail + (encodeAll rs1).length ≤ s.ring.length := by
      rcases hw.stop with h | h <;> omega
    have h6 := hw.lt
    rw [List.map_append, placed_snd, placed_snd] at hsmall
    obtain ⟨fuel, hfuel⟩ := Nat.exists_eq_add_of_le'
      (show rs2.length + 1 + rs1.length ≤ s.ring.length + 1 by omega)
    rw [hfuel, ← Nat.add_assoc, ← Nat.add_assoc, hw.walk_eq hsmall]

/-! ## Dropping the oldest records -/

theorem dropOldest_record {r : Record} (hne : s.head ≠ s.tail) (h : Holds s.ring s.tail r.encode)
    (hend : s.tail + r.encode.length ≤ s.ring.length) (hsmall : r.payload.length < 2 ^ 16) :
    s.dropOldestUnlocked =
      ({ s with tail := (s.tail + r.encode.length) % s.ring.length }, true) := by
  have hrec : (r.header.marker = kWrapMarker) = False := by
    simp [Record.header, kRecordMarker, kWrapMarker]
  unfold dropOldestUnlocked
  rw [if_neg hne]
  simp only [decode_record h hend, header_size hsmall, hrec, if_false]
  rw [if_neg (by simp [Record.header]), recordHeaderSize, length_encode]

theorem dropOldest_wrap (hne : s.head ≠ s.tail) (h : Holds s.ring s.tail (toLe 4 kWrapMarker.toNat))
    (hend : s.tail + 4 ≤ s.ring.length) : s.dropOldestUnlocked = ({ s with tail := 0 }, true) := by
  unfold dropOldestUnlocked
  rw [if_neg hne]
  simp only [decode_wrap h hend, if_true]

/-- A drop from one piece takes its first record. -/
theorem Straight.dropOldest {r : Record} (h : Straight s (r :: rs))
    (hsmall : r.payload.length < 2 ^ 16) :
    s.dropOldestUnlocked = ({ s with tail := s.tail + r.encode.length }, true) ∧
      Straight { s with tail := s.tail + r.encode.length } rs ∧
      usedSpace s.head (s.tail + r.encode.length) s.ring.length <
        usedSpace s.head s.tail s.ring.length := by
  have hhead := h.head
  have hlt := h.lt
  have hlen := length_encode r
  rw [encodeAll_cons, List.length_append] at hhead
  obtain ⟨h1, h2⟩ := holds_append.1 (encodeAll_cons r rs ▸ h.holds)
  have hdrop := dropOldest_record (by omega) h1 (by omega) hsmall
  rw [Nat.mod_eq_of_lt (by omega)] at hdrop
  refine ⟨hdrop, ⟨h2, ?_, hlt⟩, ?_⟩
  · simp only
    omega
  · unfold usedSpace
    rw [if_pos (by omega), if_pos (by omega)]
    omega

/-- The second piece is what remains behind the end of the ring. -/
theorem Wrapped.low (h : Wrapped s rs1 rs2) : Straight { s with tail := 0 } rs2 ∧
    usedSpace s.head 0 s.ring.length < usedSpace s.head s.tail s.ring.length := by
  have hhead := h.head
  have hlt := h.lt
  have hbehind := h.behind
  refine ⟨⟨h.holds0, ?_, ?_⟩, ?_⟩
  · simp only
    omega
  · simp only
    omega
  · unfold usedSpace
    rw [if_pos (by omega), if_neg (by omega)]
    omega

/-- A drop from two pieces takes the first record; the last one before the end moves the tail
there. -/
theorem Wrapped.dropOldest {r : Record} (h : Wrapped s (r :: rs1) rs2)
    (hsmall : r.payload.length < 2 ^ 16) :
    (s.dropOldestUnlocked = ({ s with tail := s.tail + r.encode.length }, true) ∧
      Wrapped { s with tail := s.tail + r.encode.length } rs1 rs2 ∧
      usedSpace s.head (s.tail + r.encode.length) s.ring.length <
        usedSpace s.head s.tail s.ring.length) ∨
    s.dropOldestUnlocked = ({ s with tail := 0 }, true) := by
  have hhead := h.head
  have hlt := h.lt
  have hbehind := h.behind
  have hstop := h.stop
  rw [encodeAll_cons, List.length_append, ← Nat.add_assoc] at hstop
  have hlen := length_encode r
  obtain ⟨h1, h2⟩ := holds_append.1 (encodeAll_cons r rs1 ▸ h.holds)
  have hdrop := dropOldest_record (by omega) h1 (by omega) hsmall
  rcases Nat.lt_or_ge (s.tail + r.encode.length) s.ring.length with hin | hout
  · rw [Nat.mod_eq_of_lt hin] at hdrop
    refine .inl ⟨hdrop, ⟨h2, hstop, hin, h.holds0, hhead, ?_⟩, ?_⟩
    · simp only
      omega
    · unfold usedSpace
      rw [if_neg (by omega), if_neg (by omega)]
      omega
  · -- the record ends with the ring
    rw [show s.tail + r.encode.length = s.ring.length by omega, Nat.mod_self] at hdrop
    exact .inr hdrop

theorem Wrapped.dropOldest_nil (h : Wrapped s [] rs2) :
    s.dropOldestUnlocked = ({ s with tail := 0 }, true) := by
  have hlt := h.lt
  have hbehind := h.behind
  have hstop := h.stop
  simp only [encodeAll_nil, List.length_nil, Nat.add_zero] at hstop
  rcases hstop with hend | ⟨hend, hmark⟩
  · omega
  · exact dropOldest_wrap (by omega) hmark hend

/-- **One drop** takes the oldest record, or passes the wrap marker, and frees space. -/
theorem dropOldest_inv (h : RingInv s ps) (hne : s.head ≠ s.tail) :
    ∃ ps' t, s.dropOldestUnlocked = ({ s with tail := t }, true) ∧
      RingInv { s with tail := t } ps' ∧ ps' <:+ ps ∧
      usedSpace s.head t s.ring.length < usedSpace s.head s.tail s.ring.length := by
  have hsmall := h.small
  have hsuffix : ∀ {ps'}, ps' <:+ ps → ∀ r ∈ ps'.map Prod.snd, r.payload.length < 2 ^ 16 :=
    fun hsuf r hr => hsmall r ((hsuf.map Prod.snd).subset hr)
  rcases h.layout with ⟨rs, rfl, hs⟩ | ⟨rs1, rs2, rfl, hw⟩
  · cases rs with
    | nil => exact absurd hs.head.symm hne
    | cons r rs =>
      obtain ⟨hdrop, hs', hused⟩ := hs.dropOldest (hsmall r List.mem_cons_self)
      have hsuf : placed (s.tail + r.encode.length) rs <:+ placed s.tail (r :: rs) :=
        List.suffix_cons _ _
      exact ⟨_, _, hdrop, ⟨h.ready, hsuffix hsuf, .inl ⟨rs, rfl, hs'⟩⟩, hsuf, hused⟩
  · obtain ⟨hlow, hzero⟩ := hw.low
    have hsuf : placed 0 rs2 <:+ placed s.tail rs1 ++ placed 0 rs2 := List.suffix_append _ _
    have hpiece : RingInv { s with tail := 0 } (placed 0 rs2) :=
      ⟨h.ready, hsuffix hsuf, .inl ⟨rs2, rfl, hlow⟩⟩
    cases rs1 with
    | nil => exact ⟨_, 0, hw.dropOldest_nil, hpiece, hsuf, hzero⟩
    | cons r rs1 =>
      rcases hw.dropOldest (hsmall r List.mem_cons_self) with ⟨hdrop, hw', hused⟩ | hdrop
      · have hsuf' : placed (s.tail + r.encode.length) rs1 ++ placed 0 rs2 <:+
            placed s.tail (r :: rs1) ++ placed 0 rs2 := List.suffix_cons _ _
        exact ⟨_, _, hdrop, ⟨h.ready, hsuffix hsuf', .inr ⟨rs1, rs2, rfl, hw'⟩⟩, hsuf', hused⟩
      · exact ⟨_, 0, hdrop, hpiece, hsuf, hzero⟩

theorem freeSpace_self (p R : Nat) : freeSpace p p R = R - 1 := by
  unfold freeSpace usedSpace
  rw [if_pos (Nat.le_refl _)]
  omega

/-- **Eviction ends** with enough room, having dropped records from the front. -/
theorem evict_spec {required : Nat} (hR : required < s.ring.length) :
    ∀ (fuel : Nat) (t : Nat) (ps : List (Nat × Record)), RingInv { s with tail := t } ps →
      usedSpace s.head t s.ring.length < fuel →
      ∃ ps' t', evict required fuel { s with tail := t } = some ({ s with tail := t' }, true) ∧
        RingInv { s with tail := t' } ps' ∧ ps' <:+ ps ∧
        required ≤ freeSpace s.head t' s.ring.length := by
  intro fuel
  induction fuel with
  | zero => intro t ps _ hfuel; omega
  | succ fuel ih =>
    intro t ps h hfuel
    by_cases hfree : required ≤ freeSpace s.head t s.ring.length
    · refine ⟨ps, t, ?_, h, List.suffix_refl _, hfree⟩
      rw [evict, if_pos hfree]
    · have hne : s.head ≠ t := by
        intro he
        rw [he, freeSpace_self] at hfree
        omega
      obtain ⟨ps1, t1, hdrop, hinv, hsuf, hused⟩ := dropOldest_inv h hne
      obtain ⟨ps2, t2, hev, hinv2, hsuf2, hfree2⟩ := ih t1 ps1 hinv (by
        simp only at hused
        omega)
      refine ⟨ps2, t2, ?_, hinv2, hsuf2.trans hsuf, hfree2⟩
      rw [evict, if_neg hfree]
      simp only [hdrop, if_true]
      exact hev

/-! ## Writing a record -/

/-- The packet's buffer holds the `payload_len` bytes that its header announces. -/
def Carries (packet : OrderedPacket) : Prop :=
  payloadSize packet ≤ (packet.packet.payload.getD []).length

instance (packet : OrderedPacket) : Decidable (Carries packet) := Nat.decLe _ _

/-- What a record takes in the ring. -/
def required (packet : OrderedPacket) : Nat := recordHeaderSize + payloadSize packet

theorem length_recordOf {packet : OrderedPacket} (h : Carries packet) :
    (recordOf packet).payload.length = payloadSize packet := by
  rw [recordOf, List.length_take]
  exact Nat.min_eq_left h

theorem encode_recordOf {packet : OrderedPacket} (h : Carries packet) :
    (recordOf packet).encode.length = required packet := by
  rw [length_encode, length_recordOf h]
  rfl

theorem header_recordOf {packet : OrderedPacket} (h : Carries packet) :
    (recordOf packet).header = recordHeader packet := by
  have hsize : BitVec.ofNat 32 (payloadSize packet) =
    packet.packet.header.payloadLen.setWidth 32 := by
    rw [payloadSize, BitVec.ofNat_toNat]
  rw [Record.header, length_recordOf h, hsize]
  rfl

/-- A record that fits before the end of the ring is one copy. -/
theorem writeRecord_eq {packet : OrderedPacket} (h : Carries packet)
    (hfit : s.head + required packet ≤ s.ring.length) :
    s.writeRecord packet =
      { s with
        ring := memcpy s.ring s.head (recordOf packet).encode
        head := (s.head + required packet) % s.ring.length } := by
  unfold required recordHeaderSize at hfit
  have hhdr : write s.ring s.head (recordHeader packet).encode =
      memcpy s.ring s.head (recordHeader packet).encode :=
    write_eq_memcpy (by rw [length_encodeHeader]; omega) (by simp)
  have hlen : (memcpy s.ring s.head (recordHeader packet).encode).length = s.ring.length :=
    length_memcpy (by rw [length_encodeHeader]; omega)
  unfold writeRecord
  simp only [hhdr]
  rcases Nat.eq_zero_or_pos (payloadSize packet) with h0 | hpos
  · -- an empty payload
    have hnil : (recordOf packet).payload = [] := by
      rw [← List.length_eq_zero_iff, length_recordOf h, h0]
    have henc : (recordOf packet).encode = (recordHeader packet).encode := by
      rw [Record.encode, header_recordOf h, hnil, List.append_nil]
    rw [henc, required, h0]
    cases packet.packet.payload with
    | none => rfl
    | some bytes => simp
  · cases hp : packet.packet.payload with
    | none =>
      unfold Carries at h
      rw [hp] at h
      simp only [Option.getD_none, List.length_nil] at h
      omega
    | some bytes =>
      have hpay : bytes.take (payloadSize packet) = (recordOf packet).payload := by
        rw [recordOf, hp]
        rfl
      have hplen := length_recordOf h
      simp only [if_pos hpos]
      rw [hpay, recordHeaderSize, Nat.mod_eq_of_lt (by omega), hlen,
        write_eq_memcpy (by omega) (by omega)]
      have happ : memcpy (memcpy s.ring s.head (recordHeader packet).encode)
          (s.head + (recordHeader packet).encode.length) (recordOf packet).payload =
          memcpy s.ring s.head ((recordHeader packet).encode ++ (recordOf packet).payload) :=
        memcpy_append (by
          rw [List.length_append, length_encodeHeader, hplen]
          omega)
      rw [length_encodeHeader] at happ
      rw [happ, Record.encode, header_recordOf h, required, recordHeaderSize, Nat.add_assoc]

/-! ## Delivery -/

/-- The step is safe for the records in the ring: the packet is refused, or its record fits before
the end of the ring; or it wraps, with room for the wrap marker's four bytes before the end, and
wherever the eviction may stop (at a record or at the head, at or below the head, with enough space
counted as free) the record written at offset `0` ends before that point. -/
def WrapSafe (s : SharedMemoryDelivery) (packet : OrderedPacket) : Prop :=
  s.ring.length ≤ required packet ∨ s.head + required packet ≤ s.ring.length ∨
    s.head + 4 ≤ s.ring.length ∧
      ∀ t ∈ s.head :: (s.records.getD []).map Prod.fst, t ≤ s.head →
        required packet ≤ freeSpace s.head t s.ring.length → required packet < t

instance (s : SharedMemoryDelivery) (packet : OrderedPacket) : Decidable (WrapSafe s packet) :=
  inferInstanceAs (Decidable (_ ∨ _ ∨ _))

theorem snd_append_small {r : Record} (h : ∀ r ∈ ps.map Prod.snd, r.payload.length < 2 ^ 16)
    (hr : r.payload.length < 2 ^ 16) (a : Nat) :
    ∀ r' ∈ (ps ++ [(a, r)]).map Prod.snd, r'.payload.length < 2 ^ 16 := by
  intro r' hr'
  rw [List.map_append, List.mem_append] at hr'
  rcases hr' with hr' | hr'
  · exact h r' hr'
  · rw [List.mem_singleton.1 hr']
    exact hr

theorem encodeAll_snoc (rs : List Record) (r : Record) :
    encodeAll (rs ++ [r]) = encodeAll rs ++ r.encode := by
  simp [encodeAll]

theorem placed_snoc {a b : Nat} (hb : a + (encodeAll rs).length = b) (r : Record) :
    placed a rs ++ [(b, r)] = placed a (rs ++ [r]) := by
  rw [placed_append, hb]
  rfl

theorem recordOf_small {packet : OrderedPacket} (hc : Carries packet) :
    (recordOf packet).payload.length < 2 ^ 16 := by
  rw [length_recordOf hc]
  exact packet.packet.header.payloadLen.isLt

/-- A record behind one piece; the head starts over where the record ends with the ring. -/
theorem Straight.append {packet : OrderedPacket} (h : Straight s rs) (hc : Carries packet)
    (hfit : s.head + required packet ≤ s.ring.length)
    (hfree : required packet ≤ freeSpace s.head s.tail s.ring.length) :
    Straight (s.writeRecord packet) (rs ++ [recordOf packet]) ∨
      Wrapped (s.writeRecord packet) (rs ++ [recordOf packet]) [] := by
  have hlen := encode_recordOf hc
  have hpos : 0 < required packet := by unfold required recordHeaderSize; omega
  have hcopy : s.head + (recordOf packet).encode.length ≤ s.ring.length := by omega
  have hsize := length_memcpy hcopy
  have hhead := h.head
  unfold freeSpace usedSpace at hfree
  rw [if_pos (by omega)] at hfree
  have hold := holds_memcpy_of_disjoint hcopy h.holds (.inl (by omega))
  have hall : Holds (memcpy s.ring s.head (recordOf packet).encode) s.tail
      (encodeAll (rs ++ [recordOf packet])) := by
    rw [encodeAll_snoc, holds_append, hhead]
    exact ⟨hold, holds_memcpy_self hcopy⟩
  have htotal : s.tail + (encodeAll (rs ++ [recordOf packet])).length =
    s.head + required packet := by
    rw [encodeAll_snoc, List.length_append]
    omega
  rw [writeRecord_eq hc hfit]
  rcases Nat.lt_or_ge (s.head + required packet) s.ring.length with hin | hout
  · refine .inl ⟨hall, ?_, ?_⟩
    · simp only [htotal]
      rw [Nat.mod_eq_of_lt hin]
    · simp only [hsize]
      exact Nat.mod_lt _ (by omega)
  · have hend : s.head + required packet = s.ring.length := by omega
    refine .inr ⟨hall, ?_, ?_, by simp [Holds], ?_, ?_⟩
    · exact .inl (by simp only [hsize]; omega)
    · simp only [hsize]
      omega
    · simp only [hend, Nat.mod_self, encodeAll_nil, List.length_nil]
    · simp only [hend, Nat.mod_self]
      omega

/-- A record behind the second of two pieces. -/
theorem Wrapped.append {packet : OrderedPacket} (h : Wrapped s rs1 rs2) (hc : Carries packet)
    (hfit : s.head + required packet < s.tail) :
    Wrapped (s.writeRecord packet) rs1 (rs2 ++ [recordOf packet]) := by
  have hlen := encode_recordOf hc
  have hhead := h.head
  have hlt := h.lt
  have hcopy : s.head + (recordOf packet).encode.length ≤ s.ring.length := by omega
  have hsize := length_memcpy hcopy
  rw [writeRecord_eq hc (by omega)]
  refine ⟨holds_memcpy_of_disjoint hcopy h.holds (.inr (by simp only; omega)), ?_, ?_, ?_, ?_, ?_⟩
  · simp only [hsize]
    rcases h.stop with hend | ⟨hend, hmark⟩
    · exact .inl hend
    · exact .inr ⟨hend, holds_memcpy_of_disjoint hcopy hmark (.inr (by omega))⟩
  · simp only [hsize]
    exact hlt
  · rw [encodeAll_snoc, holds_append, Nat.zero_add, hhead]
    exact ⟨holds_memcpy_of_disjoint hcopy h.holds0 (.inl (by omega)), holds_memcpy_self hcopy⟩
  · simp only [encodeAll_snoc, List.length_append]
    rw [Nat.mod_eq_of_lt (by omega)]
    omega
  · simp only
    rw [Nat.mod_eq_of_lt (by omega)]
    omega

/-- A record that fits before the end. -/
theorem RingInv.append {packet : OrderedPacket} (h : RingInv s ps) (hc : Carries packet)
    (hfit : s.head + required packet ≤ s.ring.length)
    (hfree : required packet ≤ freeSpace s.head s.tail s.ring.length) :
    RingInv (s.writeRecord packet) (ps ++ [(s.head, recordOf packet)]) := by
  have hready : (s.writeRecord packet).ready = s.ready := by rw [writeRecord_eq hc hfit]
  have htail : (s.writeRecord packet).tail = s.tail := by rw [writeRecord_eq hc hfit]
  refine ⟨hready.trans h.ready, snd_append_small h.small (recordOf_small hc) _, ?_⟩
  rw [htail]
  rcases h.layout with ⟨rs, rfl, hs⟩ | ⟨rs1, rs2, rfl, hw⟩
  · rw [placed_snoc hs.head]
    rcases hs.append hc hfit hfree with hs' | hw'
    · exact .inl ⟨_, rfl, hs'⟩
    · exact .inr ⟨_, [], (List.append_nil _).symm, hw'⟩
  · have hbehind := hw.behind
    have hlt := hw.lt
    have hbefore : s.head + required packet < s.tail := by
      unfold required recordHeaderSize freeSpace usedSpace at *
      rw [if_neg (by omega)] at hfree
      omega
    rw [List.append_assoc, placed_snoc ((Nat.zero_add _).trans hw.head)]
    exact .inr ⟨rs1, _, rfl, hw.append hc hbefore⟩

/-- The wrap marker stands at the head, and its last bytes before the tail. -/
theorem Straight.mark (h : Straight s rs) (hroom : s.head + 4 ≤ s.ring.length)
    (htail : 16 ≤ s.tail) :
    let ring := write s.ring s.head ({ marker := kWrapMarker } : RecordHeader).encode
    ring.length = s.ring.length ∧ Holds ring s.tail (encodeAll rs) ∧
      Holds ring s.head (toLe 4 kWrapMarker.toNat) := by
  intro ring
  have hhead := h.head
  have hlt := h.lt
  have hlen : ({ marker := kWrapMarker } : RecordHeader).encode.length ≤ s.ring.length := by
    rw [length_encodeHeader]
    omega
  have hsplit : ({ marker := kWrapMarker } : RecordHeader).encode =
      toLe 4 kWrapMarker.toNat ++ (toLe 4 0 ++ (toLe 4 0 ++ [0, 0, 0, 0])) := rfl
  refine ⟨length_write hlt hlen, ?_, ?_⟩
  · exact holds_write_of_disjoint hlt hlen h.holds (by omega) (by rw [length_encodeHeader]; omega)
  · unfold ring
    rw [hsplit] at hlen ⊢
    exact holds_write_left hlen (by rw [length_toLe]; exact hroom) hlt

/-- A record written at the start of the ring, in front of one piece. -/
theorem Straight.wrap {packet : OrderedPacket} (h : Straight s rs) (hc : Carries packet)
    (hover : s.ring.length < s.head + required packet) (hroom : s.head + 4 ≤ s.ring.length)
    (hsafe : required packet < s.tail) :
    Wrapped ((s.wrapIfNeeded (required packet)).writeRecord packet) rs [recordOf packet] := by
  have hlen := encode_recordOf hc
  have hhead := h.head
  have hlt := h.lt
  have h16 : 16 ≤ required packet := by unfold required recordHeaderSize; omega
  obtain ⟨hsize, hold, hmark⟩ := h.mark hroom (by omega)
  have hcopy : 0 + (recordOf packet).encode.length ≤
      (write s.ring s.head ({ marker := kWrapMarker } : RecordHeader).encode).length := by
    rw [hsize]
    omega
  rw [wrapIfNeeded, if_pos (.inr hover), writeRecord_eq hc (by simp only [hsize]; omega)]
  refine ⟨?_, ?_, ?_, ?_, ?_, ?_⟩
  · exact holds_memcpy_of_disjoint hcopy hold (.inr (by simp only; omega))
  · simp only [length_memcpy hcopy, hsize]
    refine .inr ⟨by omega, ?_⟩
    rw [hhead]
    exact holds_memcpy_of_disjoint hcopy hmark (.inr (by omega))
  · simp only [length_memcpy hcopy, hsize]
    omega
  · simpa [encodeAll] using holds_memcpy_self hcopy
  · simp only [hsize, Nat.zero_add]
    rw [Nat.mod_eq_of_lt (by omega), encodeAll_cons, encodeAll_nil, List.append_nil, hlen]
  · simp only [hsize, Nat.zero_add]
    rw [Nat.mod_eq_of_lt (by omega)]
    exact hsafe

/-- A record that wraps, over a tail beyond its end. -/
theorem RingInv.wrap {packet : OrderedPacket} (h : RingInv s ps) (hc : Carries packet)
    (hover : s.ring.length < s.head + required packet)
    (hfree : required packet ≤ freeSpace s.head s.tail s.ring.length)
    (hroom : s.head + 4 ≤ s.ring.length) (hsafe : s.tail ≤ s.head → required packet < s.tail) :
    RingInv ((s.wrapIfNeeded (required packet)).writeRecord packet)
      (ps ++ [(0, recordOf packet)]) := by
  rcases h.layout with ⟨rs, rfl, hs⟩ | ⟨rs1, rs2, rfl, hw⟩
  · have hhead := hs.head
    have hlt := hs.lt
    have hbefore := hsafe (by omega)
    have hkept : ((s.wrapIfNeeded (required packet)).writeRecord packet).ready = s.ready ∧
        ((s.wrapIfNeeded (required packet)).writeRecord packet).tail = s.tail := by
      obtain ⟨hsize, -⟩ := hs.mark hroom (by unfold required recordHeaderSize at hbefore; omega)
      rw [wrapIfNeeded, if_pos (.inr hover), writeRecord_eq hc (by simp only [hsize]; omega)]
      exact ⟨rfl, rfl⟩
    refine ⟨hkept.1.trans h.ready, snd_append_small h.small (recordOf_small hc) _,
      .inr ⟨rs, [recordOf packet], ?_, hs.wrap hc hover hroom hbefore⟩⟩
    rw [hkept.2]
    rfl
  · -- a ring in two pieces has no room for a record over the end
    have hbehind := hw.behind
    have hlt := hw.lt
    unfold freeSpace usedSpace at hfree
    rw [if_neg (by omega)] at hfree
    omega

theorem RingInv.withStats (h : RingInv s ps) (stats : Statistics) :
    RingInv { s with stats := stats } ps := by
  refine ⟨h.ready, h.small, ?_⟩
  rcases h.layout with ⟨rs, hps, h1, h2, h3⟩ | ⟨rs1, rs2, hps, h1, h2, h3, h4, h5, h6⟩
  · exact .inl ⟨rs, hps, h1, h2, h3⟩
  · exact .inr ⟨rs1, rs2, hps, h1, h2, h3, h4, h5, h6⟩

theorem RingInv.tail_mem (h : RingInv s ps) (hle : s.tail ≤ s.head) :
    s.tail ∈ s.head :: ps.map Prod.fst := by
  rcases h.layout with ⟨rs, rfl, hs⟩ | ⟨rs1, rs2, rfl, hw⟩
  · cases rs with
    | nil =>
      have := hs.head
      simp only [encodeAll_nil, List.length_nil, Nat.add_zero] at this
      simp [this]
    | cons r rs => simp [placed]
  · have := hw.behind
    omega

/-- **A safe delivery** is refused for its size, or appends its record. -/
theorem deliver_inv {packet : OrderedPacket} (h : RingInv s ps) (hc : Carries packet)
    (hsafe : WrapSafe s packet) :
    (∃ s', s.deliver packet = some (s', false) ∧ RingInv s' ps) ∨
    ∃ s' ps' a, s.deliver packet = some (s', true) ∧ ps' <:+ ps ∧
      RingInv s' (ps' ++ [(a, recordOf packet)]) := by
  unfold deliver
  rw [if_neg (by simp [h.ready])]
  simp only
  by_cases hbig : s.ring.length ≤ recordHeaderSize + payloadSize packet
  · rw [if_pos hbig]
    exact .inl ⟨_, rfl, h.withStats _⟩
  rw [if_neg hbig]
  have hR : required packet < s.ring.length := Nat.lt_of_not_le hbig
  have hused : usedSpace s.head s.tail s.ring.length < s.ring.length + 1 := by
    unfold usedSpace
    rcases h.layout with ⟨rs, -, hs⟩ | ⟨rs1, rs2, -, hw⟩
    · have := hs.head
      have := hs.lt
      split <;> omega
    · have := hw.behind
      have := hw.lt
      split <;> omega
  obtain ⟨ps', t, hev, hinv, hsuf, hfree⟩ := evict_spec hR (s.ring.length + 1) s.tail ps h hused
  have hev' : evict (recordHeaderSize + payloadSize packet) (s.ring.length + 1) s =
      some ({ s with tail := t }, true) := hev
  rw [hev', Option.map_some, if_pos rfl]
  by_cases hfit : s.head + required packet ≤ s.ring.length
  · -- before the end of the ring
    have hwi : ({ s with tail := t } : SharedMemoryDelivery).wrapIfNeeded (required packet) =
        { s with tail := t } := by
      unfold required at hfit
      rw [wrapIfNeeded, if_neg (by unfold required; simp only; omega)]
    refine .inr ⟨_, ps', s.head, rfl, hsuf, ?_⟩
    refine RingInv.withStats ?_ _
    change RingInv ((({ s with tail := t } : SharedMemoryDelivery).wrapIfNeeded
      (required packet)).writeRecord packet) _
    rw [hwi]
    exact hinv.append hc hfit hfree
  · -- over the end: the eviction stopped at a point that the condition speaks of
    obtain ⟨hmark, hpoints⟩ : s.head + 4 ≤ s.ring.length ∧
        ∀ t ∈ s.head :: (s.records.getD []).map Prod.fst, t ≤ s.head →
          required packet ≤ freeSpace s.head t s.ring.length → required packet < t := by
      rcases hsafe with h1 | h1 | h1
      · omega
      · exact absurd h1 hfit
      · exact h1
    refine .inr ⟨_, ps', 0, rfl, hsuf, ?_⟩
    refine RingInv.withStats ?_ _
    refine hinv.wrap hc (by simp only; omega) hfree hmark fun hle => ?_
    refine hpoints t ?_ hle hfree
    rw [h.records_eq, Option.getD_some]
    rcases List.mem_cons.1 (hinv.tail_mem hle) with he | hm
    · exact List.mem_cons.2 (.inl he)
    · exact List.mem_cons_of_mem _ (hsuf.map Prod.fst |>.subset hm)

/-! ## Runs -/

/-- A delivery, with the records of the packets delivered so far. -/
def deliverStep (s : SharedMemoryDelivery × List Record) (packet : OrderedPacket) :
    Option (SharedMemoryDelivery × List Record) :=
  (s.1.deliver packet).map fun r => (r.1, if r.2 then s.2 ++ [recordOf packet] else s.2)

/-- The ring holds the last records delivered. -/
def Delivered (s : SharedMemoryDelivery × List Record) : Prop :=
  ∃ ps, RingInv s.1 ps ∧ ps.map Prod.snd <:+ s.2 ∧ (s.2 ≠ [] → ps ≠ [])

theorem deliverStep_inv {s : SharedMemoryDelivery × List Record} {packet : OrderedPacket}
    (h : Delivered s) (hc : Carries packet ∧ WrapSafe s.1 packet) :
    ∃ s', deliverStep s packet = some s' ∧ Delivered s' := by
  obtain ⟨ps, hinv, hsuf, hne⟩ := h
  rcases deliver_inv hinv hc.1 hc.2 with ⟨s', hd, hinv'⟩ | ⟨s', ps', a, hd, hsuf', hinv'⟩
  · refine ⟨(s', s.2), ?_, ps, hinv', hsuf, hne⟩
    simp [deliverStep, hd]
  · refine ⟨(s', s.2 ++ [recordOf packet]), ?_, _, hinv', ?_, by simp⟩
    · simp [deliverStep, hd]
    · obtain ⟨u, hu⟩ := (hsuf'.map Prod.snd).trans hsuf
      exact ⟨u, by simp [← hu]⟩

/-- **The ring always holds a decodable suffix of what was delivered**: along every run of safe
deliveries each call returns, and the walk from tail to head yields the last records delivered, the
most recent one included. -/
theorem sharedMemory_decodable {R : Nat} (hR : recordHeaderSize + 1 < R)
    {packets : List OrderedPacket} (hc : ∀ packet ∈ packets, Carries packet)
    (hsafe : Machine.Along deliverStep (fun s packet => WrapSafe s.1 packet) (init R, []) packets) :
    ∃ s ds, Machine.exec deliverStep (init R, []) packets = some (s, ds) ∧
      ∃ ps, s.records = some ps ∧ ps.map Prod.snd <:+ ds ∧ (ds ≠ [] → ps ≠ []) := by
  have hinit : Delivered (init R, []) :=
    ⟨[], ringInv_init (by omega), List.suffix_refl _, fun h => absurd rfl h⟩
  have hboth : Machine.Along deliverStep (fun s packet => Carries packet ∧ WrapSafe s.1 packet)
      (init R, []) packets := Machine.along_and (Machine.along_of_forall hc) hsafe
  obtain ⟨⟨s, ds⟩, hexec, ps, hinv, hsuf, hne⟩ :=
    Machine.exec_total (fun s packet hI hC => deliverStep_inv hI hC) hinit hboth
  exact ⟨s, ds, hexec, ps, hinv.records_eq, hsuf, hne⟩

/-- A packet with `n` payload bytes. -/
def plainPacket (seq : BitVec 32) (n : Nat) : OrderedPacket :=
  Reorderer.orderedOf { sequenceNumber := seq, payloadLen := BitVec.ofNat 16 n }
    (some (List.replicate n 0xAB)) n seq

/-- In a ring of 60 bytes the third packet wraps, and the first record it does not need to evict
lies beyond its end. -/
theorem wrapOver_decodable :
    ((Machine.exec deliverStep (init 60, []) [plainPacket 1 24, plainPacket 2 0, plainPacket 3 0]).map
      fun r => (r.1.head, r.1.tail)) = some (16, 40) ∧
    ∃ s ds, Machine.exec deliverStep (init 60, [])
        [plainPacket 1 24, plainPacket 2 0, plainPacket 3 0] = some (s, ds) ∧
      ∃ ps, s.records = some ps ∧ ps.map Prod.snd <:+ ds ∧ (ds ≠ [] → ps ≠ []) := by
  exact ⟨by decide +kernel, sharedMemory_decodable (by decide) (by decide) (by decide +kernel)⟩

/-- In a ring of 40 bytes the third empty packet wraps, evicts one record and ends at the tail: the
ring that received three packets reads as empty. -/
theorem threeEmpty_lost :
    ((Machine.exec deliverStep (init 40, []) [plainPacket 1 0, plainPacket 2 0, plainPacket 3 0]).map
      fun r => (r.1.records, r.2.map Record.sequenceNumber)) = some (some [], [1, 2, 3]) := by
  decide +kernel

end

end Qdgz300.Delivery
