import Mathlib.Algebra.BigOperators.Group.Finset.Basic
import Mathlib.Algebra.Order.BigOperators.Group.Finset
import Qdgz300.Pipeline.Proof.ReassemblerSpec

/-!
# Collecting the fragments of one frame

A frame as it is sent (`SentFrame`) is a family of fragment packets of one key. The context of its
key is described by the set of the indices seen so far (`Collects`): its bits, its counters, its
references and its bytes.

* `SentFrame.fragmentOf_eq`: the header checks accept the packets of a frame.
* **`Collects.addFragment`**, `Collects.enter`: a fragment seen before is a duplicate, a new one
  enters its slot.
* `Collects.checkComplete_iff`, **`Collects.assembleFrame`**: the context is complete when every
  index has been seen, and its frame is then the bodies in index order.
-/

namespace Qdgz300.Pipeline

open Protocol Bytes

/-- The data-specific header that a packet carries. -/
def specificOf (packet : ParsedPacket) : DataSpecificHeader :=
  DataSpecificHeader.decode (packet.payload.getD [])

/-- `packet` is the fragment `i` of `n` of the frame `key`, with payload `body`; the tail carries
`snapshot` before it. -/
structure IsFragment (key : ReassemblyKey) (n : Nat) (tail : BitVec 16)
    (snapshot : ExecutionSnapshot) (i : Nat) (packet : ParsedPacket) (body : List Byte) : Prop where
  present : packet.payload.isSome = true
  index : (specificOf packet).fragIndex.toNat = i
  total : (specificOf packet).totalFrags.toNat = n
  tailBytes : (specificOf packet).tailFragPayloadBytes = tail
  key : extractKey packet.header (specificOf packet) = key
  nonempty : 1 ≤ body.length
  inner : i + 1 ≠ n → packet.header.payloadLen.toNat = specificSize + body.length ∧
    slice (packet.payload.getD []) specificSize body.length = body
  last : i + 1 = n → body.length = tail.toNat ∧
    packet.header.payloadLen.toNat = specificSize + snapshotSize + body.length ∧
    slice (packet.payload.getD []) (specificSize + snapshotSize) body.length = body ∧
    ExecutionSnapshot.decode (slice (packet.payload.getD []) specificSize snapshotSize) = snapshot

/-- A frame that fits the limits of `cfg`, as it is sent. -/
structure SentFrame (cfg : ReassemblerConfig) where
  key : ReassemblyKey
  count : Nat
  tail : BitVec 16
  snapshot : ExecutionSnapshot
  packet : Nat → ParsedPacket
  body : Nat → List Byte
  pos : 1 ≤ count
  le : count ≤ cfg.maxTotalFrags.toNat
  fits : ∑ i ∈ Finset.range count, (body i).length ≤ cfg.maxReasmBytesPerKey
  fragment : ∀ i < count, IsFragment key count tail snapshot i (packet i) (body i)

section
variable {cfg : ReassemblerConfig} (F : SentFrame cfg)

/-- The fragment that the header checks make of packet `i`. -/
def SentFrame.frag (i : Nat) : Fragment where
  specific := specificOf (F.packet i)
  key := F.key
  tailSnapshot := if i + 1 = F.count then some F.snapshot else none
  payload := F.body i
  payloadSize := (F.body i).length

variable {F} {i : Nat}

theorem SentFrame.isTail (hi : i < F.count) :
    (specificOf (F.packet i)).isTailFragment = decide (i + 1 = F.count) := by
  have h := F.fragment i hi
  rw [DataSpecificHeader.isTailFragment, h.index, h.total]
  by_cases hc : i + 1 = F.count <;> simp [hc]

/-- The header checks accept the packets of a frame. -/
theorem SentFrame.fragmentOf_eq (hi : i < F.count) : fragmentOf cfg (F.packet i) = some
    (F.frag i) := by
  have h := F.fragment i hi
  have hle := F.le
  obtain ⟨bs, hbs⟩ := Option.isSome_iff_exists.1 h.present
  have hlen : ¬ (F.packet i).header.payloadLen.toNat < specificSize := by
    by_cases hc : i + 1 = F.count
    · rw [(h.last hc).2.1]
      omega
    · rw [(h.inner hc).1]
      omega
  have htotal : ¬ ((specificOf (F.packet i)).totalFrags = 0 ∨
      cfg.maxTotalFrags < (specificOf (F.packet i)).totalFrags) := by
    rw [BitVec.lt_def, h.total]
    rintro (h0 | h0)
    · have := h.total
      rw [h0] at this
      simp only [BitVec.ofNat_eq_ofNat, BitVec.toNat_ofNat, Nat.zero_mod] at this
      omega
    · omega
  have hparse : parseSpecificHeader cfg (F.packet i).payload (F.packet i).header.payloadLen.toNat =
      some (specificOf (F.packet i)) := by
    have hspec : DataSpecificHeader.decode bs = specificOf (F.packet i) := by
      rw [specificOf, hbs, Option.getD_some]
    unfold parseSpecificHeader
    simp only [hbs, hspec]
    rw [if_neg hlen, if_neg htotal, if_neg (by rw [BitVec.le_def, h.total, h.index]; omega)]
  unfold fragmentOf
  simp only [hparse]
  rw [if_neg htotal, F.isTail hi]
  by_cases hc : i + 1 = F.count
  · obtain ⟨htail, hplen, hbody, hsnap⟩ := h.last hc
    rw [if_pos (by simpa using hc), if_neg (by rw [hplen, h.tailBytes, htail]; simp), hplen,
      Nat.add_sub_cancel_left, hbody, hsnap, h.key, SentFrame.frag, if_pos hc]
  · obtain ⟨hplen, hbody⟩ := h.inner hc
    rw [if_neg (by simpa using hc), if_neg hlen, hplen, Nat.add_sub_cancel_left, hbody, h.key,
      SentFrame.frag, if_neg hc]

theorem SentFrame.packet_inj {j : Nat} (hi : i < F.count) (hj : j < F.count)
    (h : F.packet i = F.packet j) : i = j := by
  rw [← (F.fragment i hi).index, ← (F.fragment j hj).index, h]

/-! ## The context of the frame -/

/-- The context holds the fragments with the indices in `seen`. -/
structure Collects (F : SentFrame cfg) (seen : Finset Nat) (ctx : ReassemblyContext) : Prop where
  total : ctx.totalFrags.toNat = F.count
  tail : ctx.tailFragPayloadBytes = F.tail
  within : ∀ i ∈ seen, i < F.count
  words : ctx.receivedFragments.length = 16
  bits : ∀ i, ctx.receivedFragments.test i = decide (i ∈ seen)
  count : ctx.receivedCount.toNat = seen.card
  bytes : ctx.receivedPayloadBytes = ∑ i ∈ seen, (F.body i).length
  slots : ctx.fragmentRefs.length = F.count
  refs : ∀ i ∈ seen, ∃ storage, ctx.fragmentRefs[i]? =
    some ⟨some storage, some (F.body i), (F.body i).length⟩
  snapshot : F.count - 1 ∈ seen →
    ctx.executionSnapshot = F.snapshot ∧ ctx.hasExecutionSnapshot = true

theorem Collects.subset {seen : Finset Nat} {ctx : ReassemblyContext} (h : Collects F seen ctx) :
    seen ⊆ Finset.range F.count :=
  fun j hj => Finset.mem_range.2 (h.within j hj)

theorem collects_new (hi : i < F.count) (now : BitVec 64) :
    Collects F ∅ (newContext (F.frag i) now) := by
  have h := F.fragment i hi
  refine ⟨h.total, h.tailBytes, by simp, ?_, fun j => ?_, ?_, ?_, ?_, by simp, by simp⟩
  · simp [newContext, Bitmap.zeros]
  · simp [newContext, Bitmap.test_zeros]
  · simp [newContext]
  · simp [newContext]
  · simp [newContext, SentFrame.frag, h.total]

/-- The tail's snapshot, taken as often as the tail arrives. -/
theorem Collects.takeSnapshot {seen : Finset Nat} {ctx : ReassemblyContext}
    (h : Collects F seen ctx) (i : Nat) : Collects F seen (takeSnapshot ctx (F.frag i)) ∧
      (i + 1 = F.count → (takeSnapshot ctx (F.frag i)).executionSnapshot = F.snapshot ∧
        (takeSnapshot ctx (F.frag i)).hasExecutionSnapshot = true) := by
  by_cases hc : i + 1 = F.count
  · have heq : Pipeline.takeSnapshot ctx (F.frag i) =
        { ctx with executionSnapshot := F.snapshot, hasExecutionSnapshot := true } := by
      simp [Pipeline.takeSnapshot, SentFrame.frag, hc]
    rw [heq]
    exact ⟨⟨h.total, h.tail, h.within, h.words, h.bits, h.count, h.bytes, h.slots, h.refs,
      fun _ => ⟨rfl, rfl⟩⟩, fun _ => ⟨rfl, rfl⟩⟩
  · have heq : Pipeline.takeSnapshot ctx (F.frag i) = ctx := by
      simp [Pipeline.takeSnapshot, SentFrame.frag, hc]
    rw [heq]
    exact ⟨h, fun hc' => absurd hc' hc⟩

/-- **A new fragment** enters its slot. -/
theorem Collects.enter {seen : Finset Nat} {ctx : ReassemblyContext} (hmax : F.count ≤ 1024)
    (h : Collects F seen ctx) (hi : i < F.count) (hnew : i ∉ seen)
    (hsnap : i + 1 = F.count → ctx.executionSnapshot = F.snapshot ∧ ctx.hasExecutionSnapshot = true)
    (storage : FragmentStorage) :
    Collects F (insert i seen) (enterFragment ctx (F.frag i) storage) := by
  have hfr := F.fragment i hi
  have hidx : (F.frag i).specific.fragIndex.toNat = i := hfr.index
  have hsize : 0 < (F.frag i).payloadSize := hfr.nonempty
  have hword : i / 64 < ctx.receivedFragments.length := by rw [h.words]; omega
  have hcard : seen.card ≤ F.count := by
    rw [← Finset.card_range F.count]
    exact Finset.card_le_card h.subset
  unfold enterFragment
  simp only [hidx, if_pos hsize]
  constructor
  · exact h.total
  · exact h.tail
  · intro j hj
    rcases Finset.mem_insert.1 hj with rfl | hj
    · exact hi
    · exact h.within j hj
  · simp [h.words]
  · intro j
    rw [Bitmap.test_set hword, h.bits]
    by_cases hj : i = j
    · simp [hj]
    · simp [hj, Ne.symm hj]
  · rw [BitVec.toNat_add, h.count, Finset.card_insert_of_notMem hnew]
    simp only [BitVec.ofNat_eq_ofNat, BitVec.toNat_ofNat]
    omega
  · rw [h.bytes, Finset.sum_insert hnew]
    exact Nat.add_comm _ _
  · rw [List.length_set, h.slots]
  · intro j hj
    by_cases hij : i = j
    · subst hij
      exact ⟨storage, List.getElem?_set_self (by rw [h.slots]; exact hi)⟩
    · have hj' : j ∈ seen := (Finset.mem_insert.1 hj).resolve_left (Ne.symm hij)
      obtain ⟨st, hst⟩ := h.refs j hj'
      exact ⟨st, by rw [List.getElem?_set_ne hij, hst]⟩
  · intro hj
    rcases Finset.mem_insert.1 hj with hj | hj
    · exact hsnap (by have := F.pos; omega)
    · exact h.snapshot hj

/-- `add_fragment` on a packet of the frame: a duplicate when its index was seen, else added. -/
theorem Collects.addFragment {seen : Finset Nat} {ctx : ReassemblyContext} (hmax : F.count ≤ 1024)
    (h : Collects F seen ctx) (hi : i < F.count) (storage : FragmentStorage) :
    addFragment cfg ctx (F.frag i) storage =
      if i ∈ seen then .duplicate else .added (enterFragment ctx (F.frag i) storage) := by
  have hfr := F.fragment i hi
  have hidx : (F.frag i).specific.fragIndex.toNat = i := hfr.index
  have htail : (F.frag i).specific.isTailFragment = decide (i + 1 = F.count) := F.isTail hi
  have hsize : (F.frag i).payloadSize = (F.body i).length := rfl
  unfold Pipeline.addFragment
  simp only [hidx, h.bits]
  rw [if_neg (by rw [BitVec.le_def, h.total, hidx]; omega)]
  by_cases hs : i ∈ seen
  · rw [if_pos (by simpa using hs), if_pos hs]
  · rw [if_neg (by simpa using hs), if_neg hs]
    -- the bytes seen so far and these are part of the whole
    have hbytes : ¬ cfg.maxReasmBytesPerKey < ctx.receivedPayloadBytes + (F.frag i).payloadSize := by
      have hsub : insert i seen ⊆ Finset.range F.count :=
        Finset.insert_subset (Finset.mem_range.2 hi) h.subset
      have hle := Finset.sum_le_sum_of_subset (f := fun j => (F.body j).length) hsub
      rw [Finset.sum_insert hs] at hle
      have := F.fits
      rw [h.bytes, hsize]
      omega
    rw [if_neg hbytes, if_neg, if_neg]
    · rw [hsize]
      have := hfr.nonempty
      omega
    · rintro ⟨h1, h2⟩
      rw [htail, decide_eq_true_eq] at h1
      exact h2 (by rw [hsize, h.tail, (hfr.last h1).1])

/-- **The frame of a full context.** -/
theorem Collects.assembleFrame {ctx : ReassemblyContext}
    (h : Collects F (Finset.range F.count) ctx) :
    Reassembler.assembleFrame cfg F.key ctx =
      { key := F.key
        data := (List.range F.count).flatMap F.body
        totalSize := ((List.range F.count).flatMap F.body).length
        dataTimestamp := ctx.dataTimestamp
        executionSnapshot := F.snapshot
        hasExecutionSnapshot := true
        isComplete := true
        missingFragmentsCount := 0
        missingFragIndices := [] } := by
  have href : ∀ j < F.count, ∃ storage, ctx.fragmentRefs.getD j {} =
      ⟨some storage, some (F.body j), (F.body j).length⟩ := by
    intro j hj
    obtain ⟨storage, hst⟩ := h.refs j (Finset.mem_range.2 hj)
    exact ⟨storage, by rw [List.getD_eq_getElem?_getD, hst]; rfl⟩
  have hrec : ∀ j < F.count, Reassembler.received ctx j = true := by
    intro j hj
    obtain ⟨storage, hst⟩ := href j hj
    have hpos := (F.fragment j hj).nonempty
    rw [Reassembler.received, h.bits, hst, h.slots]
    simp only [Finset.mem_range, hj, decide_true, Bool.true_and, FragmentRef.hasData,
      Option.isSome_some, decide_eq_true_eq]
    omega
  have hpiece : ∀ j < F.count, Reassembler.assembledPiece cfg ctx F.key j = F.body j := by
    intro j hj
    obtain ⟨storage, hst⟩ := href j hj
    rw [Reassembler.assembledPiece, if_pos (hrec j hj), hst]
    simp
  have hsize : ∀ j < F.count, Reassembler.assembledSize cfg ctx F.key j = (F.body j).length := by
    intro j hj
    obtain ⟨storage, hst⟩ := href j hj
    rw [Reassembler.assembledSize, if_pos (hrec j hj), hst]
  have hdata : (List.range F.count).flatMap (Reassembler.assembledPiece cfg ctx F.key) =
      (List.range F.count).flatMap F.body :=
    List.flatMap_congr fun j hj => hpiece j (List.mem_range.1 hj)
  have hsizes : (List.range F.count).map (Reassembler.assembledSize cfg ctx F.key) =
      (List.range F.count).map fun j => (F.body j).length :=
    List.map_congr_left fun j hj => hsize j (List.mem_range.1 hj)
  have hmissing : ((List.range F.count).filter fun j => !Reassembler.received ctx j) = [] :=
    List.filter_eq_nil_iff.2 fun j hj => by simp [hrec j (List.mem_range.1 hj)]
  obtain ⟨hs1, hs2⟩ := h.snapshot (Finset.mem_range.2 (by have := F.pos; omega))
  unfold Reassembler.assembleFrame
  simp only [h.total, hdata, hsizes, hmissing, hs1, hs2, List.length_flatMap, List.isEmpty_nil,
    List.length_nil]
  rfl

theorem Collects.checkComplete_iff {seen : Finset Nat} {ctx : ReassemblyContext}
    (h : Collects F seen ctx) : ctx.checkComplete = true ↔ seen = Finset.range F.count := by
  rw [ReassemblyContext.checkComplete, beq_iff_eq, ← BitVec.toNat_inj, h.count, h.total]
  constructor
  · intro hcard
    exact Finset.eq_of_subset_of_card_le h.subset (by rw [Finset.card_range, hcard])
  · rintro rfl
    exact Finset.card_range _

end

end Qdgz300.Pipeline
