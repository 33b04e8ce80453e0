import Mathlib.Data.List.Forall2
import Qdgz300.Pipeline.ReorderInserts
import Qdgz300.Pipeline.Proof.ReorderStream

/-!
# Copying and owning inserts

An empty payload is a null pointer for `insert` and may be an empty allocation for `insert_owned`;
nothing else can tell the two apart. `visible` forgets this pointer, in an emitted packet, in a slot
and in the whole state, and every call commutes with it (`step_visible`). So a run does not notice
when inserts are replaced by owned ones of a copy: **`insert_owned_agrees`**.
-/

namespace Qdgz300.Pipeline

open Protocol

/-- The payload of `size` bytes; the pointer to an empty one is forgotten. -/
def visiblePayload (payload : Option (List Byte)) (size : Nat) : Option (List Byte) :=
  if size = 0 then none else payload

def OrderedPacket.visible (p : OrderedPacket) : OrderedPacket :=
  { p with ownedPayload := visiblePayload p.ownedPayload p.payloadSize }

def StoredPacket.visible (p : StoredPacket) : StoredPacket :=
  { p with payload := visiblePayload p.payload p.payloadSize }

/-- The state with every field but the pointers to empty payloads. -/
def Reorderer.visible (s : Reorderer) : Reorderer :=
  { s with ringSlots := s.ringSlots.map StoredPacket.visible }

/-- What a call leaves and hands out. -/
def visibleResult (r : Reorderer × List OrderedPacket) : Reorderer × List OrderedPacket :=
  (r.1.visible, r.2.map OrderedPacket.visible)

/-! ## The written-out inserts -/

namespace Written

theorem initWith_eq (s : Reorderer) (seq : BitVec 32) :
    (if s.initialized = false then { s with initialized := true, nextExpectedSeq := seq } else s) =
      s.initWith seq := by
  rw [Reorderer.initWith]
  cases s.initialized <;> rfl

/-- The copy that `insert` makes, with its size and the pointer to it. -/
theorem copied_eq (packet : ParsedPacket) :
    (if 0 < packet.header.payloadLen.toNat then
      packet.payload.map (·.take packet.header.payloadLen.toNat) else none) =
        (Reorderer.copiedPayload packet).1 ∧
    (if (Reorderer.copiedPayload packet).1.isSome then packet.header.payloadLen.toNat else 0) =
      (Reorderer.copiedPayload packet).2 ∧
    (Reorderer.copiedPayload packet).1 = (if (Reorderer.copiedPayload packet).2 = 0 then none
      else (Reorderer.copiedPayload packet).1) := by
  unfold Reorderer.copiedPayload
  cases packet.payload with
  | none => simp
  | some bytes =>
    rcases Nat.eq_zero_or_pos packet.header.payloadLen.toNat with h | h
    · simp [h]
    · simp [h, Nat.ne_of_gt h]

theorem insert_eq (clk : SteadyClock) (s : Reorderer) (packet : ParsedPacket) :
    insert clk s packet = s.insert clk packet := by
  obtain ⟨hcopy, hsize, hpointer⟩ := copied_eq packet
  unfold insert Reorderer.insert
  simp only [initWith_eq, hcopy, hsize]
  unfold Reorderer.insertBody Reorderer.orderedOf
  simp only [ite_self, ← hpointer]
  rfl

theorem insertOwned_eq (clk : SteadyClock) (s : Reorderer) (header : CommonHeader)
    (payload : Option (List Byte)) (payloadSize : Nat) :
    insertOwned clk s header payload payloadSize =
      s.insertOwned clk header payload payloadSize := by
  unfold insertOwned Reorderer.insertOwned
  simp only [initWith_eq]
  unfold Reorderer.insertBody
  simp only [ite_self]
  rfl

theorem step_eq (clk : SteadyClock) (s : Reorderer) (op : ReorderOp) :
    step clk s op = s.step clk op := by
  cases op with
  | insert packet => exact insert_eq clk s packet
  | insertOwned header payload payloadSize => exact insertOwned_eq clk s header payload payloadSize
  | checkTimeout => rfl
  | flush => rfl
  | setTimeoutMs timeoutMs => rfl

end Written

/-! ## Slots -/

section
variable {s t : Reorderer} (clk : SteadyClock)

theorem orderedOf_visible (header : CommonHeader) (payload : Option (List Byte)) (size : Nat)
    (seq : BitVec 32) : (Reorderer.orderedOf header payload size seq).visible =
      Reorderer.orderedOf header (visiblePayload payload size) size seq := by
  unfold OrderedPacket.visible Reorderer.orderedOf visiblePayload
  split <;> rfl

theorem slot_visible (s : Reorderer) (i : Nat) : s.visible.slot i = (s.slot i).visible := by
  unfold Reorderer.slot Reorderer.visible
  simp only [List.getD_eq_getElem?_getD, List.getElem?_map]
  cases s.ringSlots[i]? <;> rfl

@[simp] theorem length_visible (s : Reorderer) : s.visible.ringSlots.length = s.ringSlots.length :=
  List.length_map _

theorem clearSlot_visible (s : Reorderer) (i : Nat) :
    (s.clearSlot i).visible = s.visible.clearSlot i := by
  rw [Reorderer.clearSlot, Reorderer.clearSlot, slot_visible]
  unfold Reorderer.visible
  simp only [List.map_set]
  rfl

theorem storeAt_visible (s : Reorderer) (i : Nat) (seq : BitVec 32) (header : CommonHeader)
    (payload : Option (List Byte)) (size : Nat) :
    (s.storeAt i seq header payload size).visible =
      s.visible.storeAt i seq header (visiblePayload payload size) size := by
  unfold Reorderer.storeAt Reorderer.visible
  simp only [List.map_set]
  rfl

theorem headPacket_visible (s : Reorderer) : s.headPacket.visible = s.visible.headPacket := by
  rw [Reorderer.headPacket, orderedOf_visible, Reorderer.headPacket, slot_visible]
  rfl

theorem advanceNow_visible (s : Reorderer) :
    (s.advanceNow clk).visible = s.visible.advanceNow clk := by
  rw [Reorderer.advanceNow, Reorderer.advanceNow, Reorderer.advanceBy, Reorderer.advanceBy, length_visible]
  rfl

theorem takeHead_visible (s : Reorderer) : (s.takeHead clk).visible = s.visible.takeHead clk := by
  rw [Reorderer.takeHead, advanceNow_visible, Reorderer.takeHead]
  congr 1
  unfold Reorderer.countInOrder
  rw [show s.visible.baseIndex = s.baseIndex from rfl, ← clearSlot_visible]
  rfl

/-! ## Calls -/

theorem advanceLoop_visible : ∀ (fuel : Nat) (s : Reorderer),
    visibleResult (Reorderer.advanceLoop clk fuel s) = Reorderer.advanceLoop clk fuel s.visible
  | 0, _ => rfl
  | fuel + 1, s => by
    rw [Reorderer.advanceLoop, Reorderer.advanceLoop, slot_visible]
    rw [show s.visible.occupancyBitmap = s.occupancyBitmap from rfl,
      show s.visible.baseIndex = s.baseIndex from rfl,
      show s.visible.nextExpectedSeq = s.nextExpectedSeq from rfl]
    rw [show (s.slot s.baseIndex).visible.occupied = (s.slot s.baseIndex).occupied from rfl,
      show (s.slot s.baseIndex).visible.sequence = (s.slot s.baseIndex).sequence from rfl]
    split
    · rfl
    · split
      · rfl
      · rw [← takeHead_visible, ← advanceLoop_visible fuel, ← headPacket_visible]
        rfl

theorem advanceWindow_visible (s : Reorderer) :
    visibleResult (s.advanceWindow clk) = s.visible.advanceWindow clk := by
  rw [Reorderer.advanceWindow, advanceLoop_visible, Reorderer.advanceWindow, length_visible]

/-- **One insert** cannot see the pointer to an empty payload. -/
theorem insertBody_visible (s : Reorderer) (header : CommonHeader) (payload : Option (List Byte))
    (size : Nat) : visibleResult (s.insertBody clk header payload size) =
      s.visible.insertBody clk header (visiblePayload payload size) size := by
  rw [Reorderer.insertBody, Reorderer.insertBody]
  simp only [length_visible]
  rw [show s.visible.nextExpectedSeq = s.nextExpectedSeq from rfl,
    show s.visible.occupancyBitmap = s.occupancyBitmap from rfl,
    show s.visible.baseIndex = s.baseIndex from rfl]
  split
  · rw [show s.visible.countInOrder = s.countInOrder.visible from rfl, ← advanceNow_visible,
      ← advanceWindow_visible, ← orderedOf_visible]
    rfl
  · split
    · rfl
    · split
      · rfl
      · split
        · rfl
        · rw [← storeAt_visible]
          rfl

theorem initWith_visible (s : Reorderer) (seq : BitVec 32) :
    (s.initWith seq).visible = s.visible.initWith seq := by
  rw [Reorderer.initWith, Reorderer.initWith, show s.visible.initialized = s.initialized from rfl]
  split <;> rfl

theorem checkTimeout_visible (s : Reorderer) :
    visibleResult (s.checkTimeout clk) = s.visible.checkTimeout clk := by
  rw [Reorderer.checkTimeout, Reorderer.checkTimeout, show s.visible.initialized = s.initialized from rfl,
    show s.visible.timeoutElapsed clk = s.timeoutElapsed clk from rfl]
  split
  · rfl
  · split
    · rfl
    · rw [Reorderer.skipExpected, Reorderer.skipExpected]
      rw [show s.visible.config = s.config from rfl]
      cases s.config.enableZeroFill with
      | false =>
        simp only [Bool.false_eq_true, if_false, List.nil_append]
        rw [← advanceNow_visible, ← advanceWindow_visible]
        rfl
      | true =>
        simp only [if_true]
        rw [show s.visible.countZeroFilled = s.countZeroFilled.visible from rfl, ← advanceNow_visible,
          ← advanceWindow_visible]
        rfl

theorem pending_visible (s : Reorderer) : s.visible.pending = s.pending := by
  rw [Reorderer.pending, Reorderer.pending, length_visible]
  apply List.filterMap_congr
  intro i _
  rw [slot_visible]
  rfl

theorem flushLoop_visible : ∀ (l : List (BitVec 32 × Nat)) (s : Reorderer),
    visibleResult (Reorderer.flushLoop l s) = Reorderer.flushLoop l s.visible
  | [], _ => rfl
  | (_, i) :: l, s => by
    rw [Reorderer.flushLoop, Reorderer.flushLoop]
    rw [show (s.visible.clearSlot i).countInOrder = ((s.clearSlot i).countInOrder).visible by
      rw [← clearSlot_visible]; rfl, ← flushLoop_visible l, slot_visible]
    rw [visibleResult, List.map_cons, orderedOf_visible]
    rfl

theorem flush_visible (s : Reorderer) : visibleResult s.flush = s.visible.flush := by
  rw [Reorderer.flush, Reorderer.flush, pending_visible, ← flushLoop_visible]
  rfl

/-- What a call inserts, without the pointer to an empty payload. -/
def Entry.visible (e : Entry) : Entry :=
    { e with payload := visiblePayload e.payload e.payloadSize }

/-- Two calls that differ at most in the pointer to an empty payload. -/
def SameCall (op op' : ReorderOp) : Prop :=
  op = op' ∨ ∃ e e', op.entry? = some e ∧ op'.entry? = some e' ∧ e.visible = e'.visible

/-- **One call.** -/
theorem step_visible {op op' : ReorderOp} (h : s.visible = t.visible) (hop : SameCall op op') :
    visibleResult (s.step clk op) = visibleResult (t.step clk op') := by
  have hinsert : ∀ {op : ReorderOp} {e : Entry} (s : Reorderer), op.entry? = some e →
      visibleResult (s.step clk op) = (s.visible.initWith e.header.sequenceNumber).insertBody clk
        e.header e.visible.payload e.payloadSize := by
    intro op e s he
    rw [step_insert clk s he, insertBody_visible, initWith_visible]
    rfl
  rcases hop with rfl | ⟨e, e', he, he', hsame⟩
  · cases he : op.entry? with
    | some e => rw [hinsert s he, hinsert t he, h]
    | none =>
      cases op with
      | insert packet => cases he
      | insertOwned header payload payloadSize => cases he
      | checkTimeout =>
        exact (checkTimeout_visible clk s).trans (h ▸ (checkTimeout_visible clk t).symm)
      | flush => exact (flush_visible s).trans (h ▸ (flush_visible t).symm)
      | setTimeoutMs timeoutMs =>
        exact congrArg (fun u : Reorderer => (u.setTimeoutMs timeoutMs, ([] : List OrderedPacket))) h
  · have hheader : e.visible.header = e'.visible.header := by rw [hsame]
    have hsize : e.visible.payloadSize = e'.visible.payloadSize := by rw [hsame]
    rw [hinsert s he, hinsert t he', h, hsame, show e.header = e'.header from hheader,
      show e.payloadSize = e'.payloadSize from hsize]

end

/-! ## Runs -/

/-- `copy` owns a copy of the `payload_len` bytes of `packet`; of none it may be null. -/
def CopyOf (packet : ParsedPacket) (copy : Option (List Byte)) : Prop :=
  copy.getD [] = (packet.payload.getD []).take packet.header.payloadLen.toNat ∧
    (packet.header.payloadLen ≠ 0 → copy.isSome)

/-- An insert of a packet with a payload, or an empty one, replaced by the owned insert of a copy;
any other call stays. -/
inductive Replaced : ReorderOp → ReorderOp → Prop
  | same (op : ReorderOp) : Replaced op op
  | owned (packet : ParsedPacket) (copy : Option (List Byte))
      (hpayload : packet.payload.isSome ∨ packet.header.payloadLen = 0)
      (hcopy : CopyOf packet copy) :
      Replaced (.insert packet)
        (.insertOwned packet.header copy packet.header.payloadLen.toNat)

theorem Replaced.sameCall {op op' : ReorderOp} (h : Replaced op op') : SameCall op op' := by
  cases h with
  | same op => exact .inl rfl
  | owned packet copy hpayload hcopy =>
    refine .inr ⟨_, _, rfl, rfl, ?_⟩
    obtain ⟨hbytes, hsome⟩ := hcopy
    unfold Entry.visible visiblePayload Reorderer.copiedPayload
    by_cases hzero : packet.header.payloadLen = 0
    · cases packet.payload <;> simp [hzero]
    · have hlen : packet.header.payloadLen.toNat ≠ 0 := fun h =>
        hzero (BitVec.eq_of_toNat_eq h)
      obtain ⟨bytes, hp⟩ := Option.isSome_iff_exists.1 (hpayload.resolve_right hzero)
      obtain ⟨owned, hc⟩ := Option.isSome_iff_exists.1 (hsome hzero)
      rw [hp, hc, Option.getD_some, Option.getD_some] at hbytes
      simp [hp, hc, hbytes, Nat.pos_of_ne_zero hlen, hlen]

theorem run_visible (clk : SteadyClock) {ops ops' : List ReorderOp}
    (hops : List.Forall₂ Replaced ops ops') : ∀ {s t : Reorderer}, s.visible = t.visible →
    visibleResult (Written.run clk s ops) = visibleResult (Written.run clk t ops') := by
  induction hops with
  | nil => intro s t h; exact congrArg (·, ([] : List OrderedPacket)) h
  | @cons op op' ops ops' hop hops ih =>
    intro s t h
    have hstep := step_visible clk h hop.sameCall
    rw [← Written.step_eq, ← Written.step_eq] at hstep
    obtain ⟨hstate, hout⟩ := Prod.mk.inj hstep
    obtain ⟨hstate', hout'⟩ := Prod.mk.inj (ih hstate)
    refine Prod.ext hstate' ?_
    show List.map OrderedPacket.visible (_ ++ _) = List.map OrderedPacket.visible (_ ++ _)
    rw [List.map_append, List.map_append, hout]
    exact congrArg _ hout'

/-- **Copying and owning inserts agree.** Replacing any inserts of a run by owned inserts of a copy
leaves the packets handed out, the statistics and the state after each call as they were, up to the
pointer to an empty payload. -/
theorem insert_owned_agrees (clk : SteadyClock) (cfg : ReorderConfig) (created : Int)
    {ops ops' : List ReorderOp} (hops : List.Forall₂ Replaced ops ops') (n : Nat) :
    (Written.run clk (.new cfg created) (ops.take n)).1.visible =
      (Written.run clk (.new cfg created) (ops'.take n)).1.visible ∧
    (Written.run clk (.new cfg created) (ops.take n)).1.stats =
      (Written.run clk (.new cfg created) (ops'.take n)).1.stats ∧
    (Written.run clk (.new cfg created) (ops.take n)).2.map OrderedPacket.visible =
      (Written.run clk (.new cfg created) (ops'.take n)).2.map OrderedPacket.visible := by
  obtain ⟨hstate, hout⟩ := Prod.mk.inj (run_visible clk (List.forall₂_take n hops)
    (s := .new cfg created) rfl)
  refine ⟨hstate, ?_, hout⟩
  have hstats : (Written.run clk (.new cfg created) (ops.take n)).1.visible.stats =
      (Written.run clk (.new cfg created) (ops'.take n)).1.visible.stats := by rw [hstate]
  exact hstats

/-- A packet with two bytes and one with none. -/
def twoCopies : List ReorderOp :=
  [.insert ⟨{ sequenceNumber := 7, payloadLen := 2 }, some [1, 2, 3], 34⟩,
    .insert ⟨{ sequenceNumber := 9 }, some [], 32⟩]

def twoOwned : List ReorderOp :=
  [.insertOwned { sequenceNumber := 7, payloadLen := 2 } (some [1, 2]) 2,
    .insertOwned { sequenceNumber := 9 } (some []) 0]

theorem twoCopies_agree :
    (Written.run (fun _ => 0) (.new { windowSize := 4 } 0) (twoCopies.take 2)).1.visible =
      (Written.run (fun _ => 0) (.new { windowSize := 4 } 0) (twoOwned.take 2)).1.visible := by
  have hops : List.Forall₂ Replaced twoCopies twoOwned := by
    refine .cons ?_ (.cons ?_ .nil)
    · exact .owned _ _ (.inl rfl) ⟨rfl, fun _ => rfl⟩
    · exact .owned _ _ (.inl rfl) ⟨rfl, fun _ => rfl⟩
  exact (insert_owned_agrees (fun _ => 0) { windowSize := 4 } 0 hops 2).1

end Qdgz300.Pipeline
