import Qdgz300.Lib.Blocks
import Qdgz300.Pipeline.Proof.Provenance

/-!
# The layout of a frame that is not complete

A timeout or a flush assembles a frame from the fragments that are there and from zeros, whose
number is inferred: `T` bytes for the tail, and for any other slot the size of the first other
fragment that was received. Where the fragments of the key agree (`Uniform`), every slot then has
its right size, and so its right offset.

* `Behind.infer_eq`: the inferred size of a missing fragment.
* **`Behind.laidOut`**: the frame, byte by byte.
* **`timedOut_frame_laid_out`**: so in every reachable state, with the counter of missing fragments.
-/

namespace Qdgz300.Pipeline

open Protocol Bytes

/-- The fragments of a key agree: all carried `n` and `T`, and those received apart from the tail,
at least one, have `L` bytes. -/
structure Uniform (n T L : Nat) (r : FragmentRecord) : Prop where
  creator : ∃ c, r.creator = some c ∧ c.specific.totalFrags.toNat = n ∧
    c.specific.tailFragPayloadBytes.toNat = T
  carried : ∀ f ∈ r.accepted, f.specific.totalFrags.toNat = n ∧
    f.specific.tailFragPayloadBytes.toNat = T
  inner : ∀ f ∈ r.accepted, f.index + 1 ≠ n → f.payloadSize = L
  any : ∃ f ∈ r.accepted, f.index + 1 ≠ n

/-- The frame made of the fragments `accepted`, with zeros for the others. -/
structure LaidOut (n T L : Nat) (accepted : List Fragment) (frame : ReassembledFrame) : Prop where
  size : frame.totalSize = (n - 1) * L + T
  length : frame.data.length = frame.totalSize
  inner : ∀ f ∈ accepted, f.index + 1 ≠ n → slice frame.data (f.index * L) L = f.payload
  tail : ∀ f ∈ accepted, f.index + 1 = n → slice frame.data ((n - 1) * L) T = f.payload
  zeros : ∀ p < frame.totalSize,
    (∀ f ∈ accepted, ¬ (f.index * L ≤ p ∧ p < f.index * L + f.payloadSize)) →
    frame.data[p]? = some 0
  increasing : frame.missingFragIndices.Pairwise (· < ·)
  missing : ∀ i, i ∈ frame.missingFragIndices ↔ i < n ∧ ∀ f ∈ accepted, f.index ≠ i
  count : frame.missingFragmentsCount.toNat = frame.missingFragIndices.length

/-- A fragment whose bytes are all there. -/
def Fragment.Sized (f : Fragment) : Prop := f.payload.length = f.payloadSize

section
variable {cfg : ReassemblerConfig} {key : ReassemblyKey} {ctx : ReassemblyContext}
  {r : FragmentRecord} {n T L i : Nat} {f : Fragment}

theorem fragmentOf_sized {packet : ParsedPacket} (hp : packet.Holds)
    (h : fragmentOf cfg packet = some f) : f.Sized := by
  obtain ⟨bytes, hbytes, -, -, -, hcases⟩ := fragmentOf_spec h
  have hlen := hp bytes (by rw [hbytes]; rfl)
  rcases hcases with ⟨-, -, -, hpl, heq⟩ | ⟨-, -, hpl, heq⟩
  · rw [Fragment.Sized, heq, slice, List.length_take, List.length_drop]
    omega
  · rw [Fragment.Sized, heq, slice, List.length_take, List.length_drop]
    omega

/-! ## Slots -/

theorem Behind.total_eq (h : Behind Fragment.Sized ctx r) (hu : Uniform n T L r) :
    ctx.totalFrags.toNat = n ∧ ctx.tailFragPayloadBytes.toNat = T := by
  obtain ⟨c, -, hc, htotal, htail⟩ := h.creator
  obtain ⟨c', hc', hn, hT⟩ := hu.creator
  obtain rfl := Option.some.inj (hc.symm.trans hc')
  exact ⟨htotal ▸ hn, htail ▸ hT⟩

theorem Behind.size_eq (h : Behind Fragment.Sized ctx r) (hu : Uniform n T L r)
    (hf : f ∈ r.accepted) : f.payloadSize = if f.index + 1 = n then T else L := by
  obtain ⟨-, hT⟩ := h.total_eq hu
  by_cases hlast : f.index + 1 = n
  · have htail : f.specific.isTailFragment = true := by
      rw [DataSpecificHeader.isTailFragment, (hu.carried f hf).1, beq_iff_eq]
      exact hlast
    rw [if_pos hlast, ← hT]
    exact (h.checked f hf).2.2.2.1 htail
  · rw [if_neg hlast]
    exact hu.inner f hf hlast

/-- **The size inferred** for a slot. -/
theorem Behind.infer_eq (h : Behind Fragment.Sized ctx r) (hu : Uniform n T L r) (hL : 0 < L)
    (i channels : Nat) (dataType : BitVec 8) :
    Reassembler.inferMissingFragmentSize cfg ctx i channels dataType =
      if i + 1 = n then T else L := by
  obtain ⟨hn, hT⟩ := h.total_eq hu
  unfold Reassembler.inferMissingFragmentSize
  rw [hn, hT]
  by_cases hlast : i + 1 = n
  · rw [if_pos hlast, if_pos hlast]
  rw [if_neg hlast, if_neg hlast]
  cases hfind : (List.range n).find? fun j =>
      j + 1 ≠ n && decide (0 < ctx.fragmentSizes.getD j 0) with
  | none =>
    obtain ⟨f, hf, hinner⟩ := hu.any
    have hno := List.find?_eq_none.1 hfind f.index
      (List.mem_range.2 (hn ▸ (h.checked f hf).2.1))
    rw [(h.full f hf).1, hu.inner f hf hinner] at hno
    simp [hinner, hL] at hno
  | some j =>
    -- a slot with a size belongs to an accepted fragment
    have hj := List.find?_some hfind
    simp only [ne_eq, decide_not, Bool.and_eq_true, Bool.not_eq_true', decide_eq_false_iff_not,
      decide_eq_true_eq] at hj
    obtain ⟨f, hf, rfl⟩ : ∃ f ∈ r.accepted, f.index = j := by
      by_contra hno
      rw [(h.clear j fun f hf heq => hno ⟨f, hf, heq⟩).1] at hj
      exact Nat.lt_irrefl 0 hj.2
    simp only
    rw [(h.full f hf).1, hu.inner f hf hj.1]

theorem Behind.piece_accepted (h : Behind Fragment.Sized ctx r) (hu : Uniform n T L r) (hT : 0 < T)
    (hL : 0 < L) (hf : f ∈ r.accepted) :
    Reassembler.assembledPiece cfg ctx key f.index = f.payload := by
  have hpos : 0 < f.payloadSize := by
    rw [h.size_eq hu hf]
    split
    · exact hT
    · exact hL
  obtain ⟨storage, href⟩ := (h.full f hf).2.1 hpos
  have hsized : f.payload.length = f.payloadSize := (h.checked f hf).1
  rw [Reassembler.assembledPiece, if_pos ((h.received_iff _).2 ⟨f, hf, rfl, hpos⟩), href]
  simp [← hsized]

theorem Behind.piece_missing (h : Behind Fragment.Sized ctx r) (hu : Uniform n T L r) (hL : 0 < L)
    (hno : ∀ f ∈ r.accepted, f.index ≠ i) :
    Reassembler.assembledPiece cfg ctx key i = List.replicate (if i + 1 = n then T else L) 0 := by
  have hrec : ¬ Reassembler.received ctx i = true := by
    rw [h.received_iff]
    rintro ⟨f, hf, heq, -⟩
    exact hno f hf heq
  rw [Reassembler.assembledPiece, if_neg hrec, h.infer_eq hu hL]

theorem Behind.length_piece (h : Behind Fragment.Sized ctx r) (hu : Uniform n T L r) (hT : 0 < T)
    (hL : 0 < L) (i : Nat) :
    (Reassembler.assembledPiece cfg ctx key i).length = if i + 1 = n then T else L := by
  by_cases hex : ∃ f ∈ r.accepted, f.index = i
  · obtain ⟨f, hf, rfl⟩ := hex
    have hsized : f.payload.length = f.payloadSize := (h.checked f hf).1
    rw [h.piece_accepted hu hT hL hf, hsized, h.size_eq hu hf]
  · rw [h.piece_missing hu hL fun f hf heq => hex ⟨f, hf, heq⟩, List.length_replicate]

theorem Behind.assembledSize_eq (h : Behind Fragment.Sized ctx r) (i : Nat) :
    Reassembler.assembledSize cfg ctx key i =
      (Reassembler.assembledPiece cfg ctx key i).length := by
  unfold Reassembler.assembledSize Reassembler.assembledPiece
  split
  case isTrue hrec =>
    obtain ⟨f, hf, rfl, hpos⟩ := (h.received_iff i).1 hrec
    obtain ⟨storage, href⟩ := (h.full f hf).2.1 hpos
    have hsized : f.payload.length = f.payloadSize := (h.checked f hf).1
    rw [href]
    simp [hsized]
  case isFalse => rw [List.length_replicate]

theorem Behind.length_data (h : Behind Fragment.Sized ctx r) (cfg : ReassemblerConfig)
    (key : ReassemblyKey) : (Reassembler.assembleFrame cfg key ctx).data.length =
      (Reassembler.assembleFrame cfg key ctx).totalSize := by
  simp only [Reassembler.assembleFrame, List.length_flatMap]
  rw [List.map_congr_left fun i _ => h.assembledSize_eq i]

theorem assembleFrame_count (cfg : ReassemblerConfig) (key : ReassemblyKey)
    (hmax : ctx.totalFrags.toNat ≤ 1024) :
    (Reassembler.assembleFrame cfg key ctx).missingFragmentsCount.toNat =
      (Reassembler.assembleFrame cfg key ctx).missingFragIndices.length := by
  have hle := List.length_filter_le (fun i => !Reassembler.received ctx i)
    (List.range ctx.totalFrags.toNat)
  rw [List.length_range] at hle
  simp only [Reassembler.assembleFrame, BitVec.toNat_ofNat]
  exact Nat.mod_eq_of_lt (by omega)

/-- Under `Uniform` the slots with data are those of the accepted fragments. -/
theorem Behind.received_uniform (h : Behind Fragment.Sized ctx r) (hu : Uniform n T L r)
    (hT : 0 < T) (hL : 0 < L) (i : Nat) :
    Reassembler.received ctx i = true ↔ ∃ f ∈ r.accepted, f.index = i := by
  rw [h.received_iff]
  constructor
  · rintro ⟨f, hf, heq, -⟩
    exact ⟨f, hf, heq⟩
  · rintro ⟨f, hf, heq⟩
    refine ⟨f, hf, heq, ?_⟩
    rw [h.size_eq hu hf]
    split
    · exact hT
    · exact hL

/-- The frame is a list of blocks, all but the last of `L` bytes. -/
theorem Behind.data_blocks (h : Behind Fragment.Sized ctx r) (hu : Uniform n T L r) (hn : 2 ≤ n)
    (hT : 0 < T) (hL : 0 < L) (cfg : ReassemblerConfig) (key : ReassemblyKey) :
    (Reassembler.assembleFrame cfg key ctx).data =
        (List.range n).flatMap (Reassembler.assembledPiece cfg ctx key) ∧
      (∀ i, i + 1 < n → (Reassembler.assembledPiece cfg ctx key i).length = L) ∧
      (Reassembler.assembleFrame cfg key ctx).data.length = (n - 1) * L + T ∧
      (Reassembler.assembleFrame cfg key ctx).totalSize = (n - 1) * L + T := by
  obtain ⟨htotal, -⟩ := h.total_eq hu
  have hdata : (Reassembler.assembleFrame cfg key ctx).data =
      (List.range n).flatMap (Reassembler.assembledPiece cfg ctx key) := by
    rw [Reassembler.assembleFrame, htotal]
  have hinner : ∀ i, i + 1 < n → (Reassembler.assembledPiece cfg ctx key i).length = L := by
    intro i hi
    rw [h.length_piece hu hT hL, if_neg (by omega)]
  have hlength : (Reassembler.assembleFrame cfg key ctx).data.length = (n - 1) * L + T := by
    rw [hdata, Blocks.length_blocks hinner (by omega), h.length_piece hu hT hL, if_pos (by omega)]
  refine ⟨hdata, hinner, hlength, ?_⟩
  rw [← hlength, h.length_data]

/-- A byte that no accepted fragment covers is zero. -/
theorem Behind.zero_outside {p : Nat} (h : Behind Fragment.Sized ctx r) (hu : Uniform n T L r)
    (hn : 2 ≤ n) (hT : 0 < T) (hL : 0 < L) (hp : p < (n - 1) * L + T)
    (hno : ∀ f ∈ r.accepted, ¬ (f.index * L ≤ p ∧ p < f.index * L + f.payloadSize)) :
    (Reassembler.assembleFrame cfg key ctx).data[p]? = some 0 := by
  obtain ⟨hdata, hinner, -⟩ := h.data_blocks hu hn hT hL cfg key
  obtain ⟨i, hi, k, hk, rfl⟩ := Blocks.exists_position (by omega) hL hp
  have hmissing : ∀ f ∈ r.accepted, f.index ≠ i := by
    rintro f hf rfl
    refine hno f hf ⟨Nat.le_add_right _ _, ?_⟩
    rw [h.size_eq hu hf]
    omega
  have hlen : (Reassembler.assembledPiece cfg ctx key i).length = if i + 1 = n then T else L :=
    h.length_piece hu hT hL i
  rw [hdata, Blocks.getElem?_block hinner hi (by rw [hlen]; exact hk),
    h.piece_missing hu hL hmissing, List.getElem?_replicate, if_pos hk]

/-- **The frame of an incomplete context.** -/
theorem Behind.laidOut (h : Behind Fragment.Sized ctx r) (hu : Uniform n T L r) (hn : 2 ≤ n)
    (hT : 0 < T) (hL : 0 < L) (hmax : ctx.totalFrags.toNat ≤ 1024) (cfg : ReassemblerConfig)
    (key : ReassemblyKey) : LaidOut n T L r.accepted (Reassembler.assembleFrame cfg key ctx) := by
  obtain ⟨htotal, -⟩ := h.total_eq hu
  obtain ⟨hdata, hinner, hlength, hsize⟩ := h.data_blocks hu hn hT hL cfg key
  constructor
  · exact hsize
  · rw [hlength, hsize]
  · intro f hf hin
    have hi : f.index < n := htotal ▸ (h.checked f hf).2.1
    have hblock := Blocks.take_drop_block hinner hi
    rw [hinner f.index (by omega), h.piece_accepted hu hT hL hf] at hblock
    rw [hdata, slice, hblock]
  · intro f hf hlast
    have hblock := Blocks.take_drop_block hinner (show f.index < n by omega)
    rw [h.length_piece hu hT hL, if_pos hlast, h.piece_accepted hu hT hL hf] at hblock
    rw [hdata, slice, show n - 1 = f.index by omega, hblock]
  · intro p hp hno
    rw [hsize] at hp
    exact h.zero_outside hu hn hT hL hp hno
  · exact (List.pairwise_lt_range).filter _
  · intro i
    simp only [Reassembler.assembleFrame, List.mem_filter, List.mem_range, htotal, Bool.not_eq_true',
      ← Bool.not_eq_true, h.received_uniform hu hT hL, not_exists, not_and]
  · exact assembleFrame_count cfg key hmax

end

/-! ## Runs -/

section
variable {clk : SystemClock} {cfg : ReassemblerConfig} {s : Reassembler} {key : ReassemblyKey}
  {n T L : Nat}

/-- The contexts that a timeout check or a flush completes. -/
def Completes (clk : SystemClock) (s : Reassembler) (key : ReassemblyKey) : ReassemblerOp → Prop
  | .checkTimeouts _ => key ∈ s.timedOut (clk s.reads)
  | .flushAll _ => key ∈ s.contexts
  | _ => False

theorem completeAll_emits (clk : SystemClock) : ∀ (keys : List ReassemblyKey) (s : Reassembler),
    (∀ k c, s.contexts.lookup k = some c → c.totalFrags.toNat ≤ 1024) → key ∈ keys →
    key ∈ s.contexts → ∃ e ∈ (Reassembler.completeAll clk keys s).2, e.frame.key = key := by
  intro keys
  induction keys with
  | nil =>
    intro s _ hkey
    cases hkey
  | cons k keys ih =>
    intro s hmax hkey hlive
    unfold Reassembler.completeAll
    cases hl : s.contexts.lookup k with
    | none =>
      have hne : key ≠ k := by
        rintro rfl
        exact AList.lookup_eq_none.1 hl hlive
      exact ih s hmax ((List.mem_cons.1 hkey).resolve_left hne) hlive
    | some ctx =>
      simp only
      cases hc : s.completeReassembly clk k ctx true with
      | none => exact absurd (completeReassembly_none hc) (Nat.not_lt.2 (hmax k ctx hl))
      | some p =>
        obtain ⟨s', e⟩ := p
        have hd := timeout_drains hl hc
        obtain ⟨⟨stats, hs'⟩, he⟩ := completeReassembly_timeout hc
        by_cases hk : key = k
        · refine ⟨e, List.mem_cons_self, ?_⟩
          rw [he, hk]
          rfl
        · have hlive' : key ∈ s'.contexts := by
            rw [hs']
            exact AList.mem_erase.2 ⟨hk, hlive⟩
          obtain ⟨e', he', hkey'⟩ := ih s' (fun k' c hk' => hmax k' c (hd.lookup k' c hk'))
            ((List.mem_cons.1 hkey).resolve_left hk) hlive'
          exact ⟨e', List.mem_cons_of_mem _ he', hkey'⟩

/-- What the header checks leave of a packet that holds its bytes. -/
def Fragment.Admitted (cfg : ReassemblerConfig) (f : Fragment) : Prop :=
  f.Sized ∧ f.specific.totalFrags.toNat ≤ cfg.maxTotalFrags.toNat

/-- **Timed-out frames are laid out at the right offsets.** In every state that packets which hold
their bytes lead to, a timeout check or a flush emits, for a live key whose fragments agree, the
frame with every received fragment at its offset and zeros elsewhere; the counter of missing
fragments grows by what the emitted frames miss. The frame is emitted if no context can have more
than 1024 fragments. -/
theorem timedOut_frame_laid_out {ops : List ReassemblerOp} {h : History} {op : ReassemblerOp}
    (hrun : (Machine.run (recordStep clk) (Reassembler.new cfg, fun _ => {}) ops).1 = (s, h))
    (hheld : ∀ op ∈ ops, ∀ storage packet, op.packet? = some (storage, packet) → packet.Holds)
    (hlive : key ∈ s.contexts) (hu : Uniform n T L (h key)) (hn : 2 ≤ n) (hT : 0 < T) (hL : 0 < L)
    (hop : ∃ order, op = .checkTimeouts order ∨ op = .flushAll order) :
    (∀ e ∈ (s.step clk op).2, e.frame.key = key → LaidOut n T L (h key).accepted e.frame) ∧
    (s.step clk op).1.stats.totalMissingFragments = s.stats.totalMissingFragments +
      ((s.step clk op).2.map fun e => e.frame.missingFragIndices.length).sum ∧
    (cfg.maxTotalFrags.toNat ≤ 1024 → Completes clk s key op →
      ∃ e ∈ (s.step clk op).2, e.frame.key = key) := by
  have hrec : Recorded (Fragment.Admitted cfg) cfg (s, h) := by
    rw [← hrun]
    exact run_recorded (fun op hop storage packet f hpacket hfrag =>
      ⟨fragmentOf_sized (hheld op hop storage packet hpacket) hfrag, (fragmentOf_total hfrag).2⟩) _
  have hdrains : Drains s (s.step clk op) := by
    obtain ⟨order, rfl | rfl⟩ := hop
    · exact step_drains rfl nofun
    · exact step_drains rfl nofun
  refine ⟨fun e he hkey => ?_, ?_, fun hmax hdone => ?_⟩
  · obtain ⟨ctx, hl, hle, hframe⟩ := hdrains.frames e he
    rw [hkey] at hl
    have hbehind : Behind Fragment.Sized ctx (h key) :=
      (hrec.behind key ctx hl).mono fun f hf => hf.1
    rw [hframe]
    exact hbehind.laidOut hu hn hT hL hle _ _
  · rw [hdrains.missing]
    congr 2
    refine List.map_congr_left fun e he => ?_
    obtain ⟨ctx, -, hle, hframe⟩ := hdrains.frames e he
    rw [hframe]
    exact assembleFrame_count _ _ hle
  · have hall : ∀ k c, s.contexts.lookup k = some c → c.totalFrags.toNat ≤ 1024 := by
      intro k c hk
      obtain ⟨f, hf, -, htotal, -⟩ := (hrec.behind k c hk).creator
      rw [htotal]
      exact Nat.le_trans hf.2 hmax
    obtain ⟨order, rfl | rfl⟩ := hop
    · exact completeAll_emits clk _ _ hall ((order.perm _).mem_iff.2 hdone) hlive
    · exact completeAll_emits clk _ _ hall ((order.perm _).mem_iff.2 hdone) hlive

end

/-- Fragments `0` and `2` of four. -/
def twoOfFour : List ReassemblerOp :=
  [.processPacketZeroCopy (dataPacket 2 4 3 [5, 6]), .processPacket (dataPacket 0 4 3 [1, 2])]

/-- The records of `twoOfFour`. -/
def twoOfFourRun : Reassembler × History :=
  (Machine.run (recordStep stepClock) (Reassembler.new {}, fun _ => {}) twoOfFour).1

theorem twoOfFour_held : ∀ op ∈ twoOfFour, ∀ storage packet,
    op.packet? = some (storage, packet) → packet.Holds := by
  intro op hop storage packet hpacket bytes hbytes
  simp only [twoOfFour, List.mem_cons, List.not_mem_nil, or_false] at hop
  rcases hop with rfl | rfl
  · cases hpacket
    cases hbytes
    decide
  · cases hpacket
    cases hbytes
    decide

theorem twoOfFour_uniform : Uniform 4 3 2 (twoOfFourRun.2 {}) := by
  have hfacts : (∀ f ∈ (twoOfFourRun.2 {}).accepted, f.specific.totalFrags.toNat = 4 ∧
      f.specific.tailFragPayloadBytes.toNat = 3 ∧ f.index + 1 ≠ 4 ∧ f.payloadSize = 2) ∧
      (twoOfFourRun.2 {}).accepted.length = 2 ∧
      (twoOfFourRun.2 {}).creator.any (fun c => c.specific.totalFrags.toNat == 4 &&
        c.specific.tailFragPayloadBytes.toNat == 3) = true := by
    decide +kernel
  obtain ⟨hall, hlen, hcreator⟩ := hfacts
  refine ⟨?_, fun f hf => ⟨(hall f hf).1, (hall f hf).2.1⟩, fun f hf _ => (hall f hf).2.2.2, ?_⟩
  · obtain ⟨c, hc, hfields⟩ := (Option.any_eq_true ..).1 hcreator
    simp only [Bool.and_eq_true, beq_iff_eq] at hfields
    exact ⟨c, hc, hfields⟩
  · have hpos : 0 < (twoOfFourRun.2 {}).accepted.length := by omega
    obtain ⟨f, hf⟩ := List.exists_mem_of_length_pos hpos
    exact ⟨f, hf, (hall f hf).2.2.1⟩

/-- The frame that a flush then emits. -/
theorem twoOfFour_laid_out :
    (twoOfFourRun.1.step stepClock (.flushAll .same)).2.map
        (fun e => (e.frame.data, e.frame.missingFragIndices)) =
      [([1, 2, 0, 0, 5, 6, 0, 0, 0], [1, 3])] ∧
    ∀ e ∈ (twoOfFourRun.1.step stepClock (.flushAll .same)).2, e.frame.key = {} →
      LaidOut 4 3 2 (twoOfFourRun.2 {}).accepted e.frame := by
  refine ⟨by decide +kernel, ?_⟩
  exact (timedOut_frame_laid_out Prod.mk.eta.symm twoOfFour_held (by decide +kernel)
    twoOfFour_uniform (by decide) (by decide) (by decide) ⟨.same, .inr rfl⟩).1

end Qdgz300.Pipeline
