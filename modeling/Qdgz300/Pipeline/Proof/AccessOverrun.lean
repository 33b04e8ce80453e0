import Qdgz300.Pipeline.Proof.AccessSafety

/-!
# A buffer that is too small for its frame

The first fragment of a frame, without payload, makes a context and is refused (`emptyFirst`). The
flush after it completes a frame that misses all fragments; its size is what `NoOverrun` speaks of
(`slotBytes_newContext`). Where that size wraps and the small buffer is granted, the second pass
writes more than the buffer holds: **`overruns`**.
-/

namespace Qdgz300.Pipeline.Accesses

open Protocol Logged Bytes

/-- The data-specific header of the first of `totalFrags` fragments; `tail` bytes are announced for
the last one. -/
def firstHeader (reservedHealth totalFrags tail : BitVec 16) : List Byte :=
  List.replicate 30 0 ++ (toLe 2 reservedHealth.toNat ++ ([0, 0, 0, 0] ++
    (toLe 2 totalFrags.toNat ++ toLe 2 tail.toNat)))

/-- The packet of a first fragment without payload. -/
def emptyFirst (reservedHealth totalFrags tail : BitVec 16) : ParsedPacket where
  header := { payloadLen := 40 }
  payload := some (firstHeader reservedHealth totalFrags tail)
  totalSize := commonHeaderSize + specificSize

/-- What the header checks leave of it. -/
def emptyFragment (reservedHealth totalFrags tail : BitVec 16) : Fragment where
  specific := DataSpecificHeader.decode (firstHeader reservedHealth totalFrags tail)
  key := extractKey { payloadLen := 40 }
    (DataSpecificHeader.decode (firstHeader reservedHealth totalFrags tail))
  tailSnapshot := none
  payload := slice (firstHeader reservedHealth totalFrags tail) specificSize 0
  payloadSize := 0

/-- The `reserved_health` field with so many channels, and the data type of `complexSize`. -/
def reservedHealth (complexSize channelCount : Nat) : BitVec 16 :=
  BitVec.ofNat 16 ((if complexSize = 8 then 0x2000 else 0) + (2 ^ channelCount - 1))

/-- One packet, and a flush. -/
def emptyFrame (reservedHealth totalFrags tail : BitVec 16) : List ReassemblerOp :=
  [.processPacket (emptyFirst reservedHealth totalFrags tail), .flushAll .same]

section
variable {cfg : ReassemblerConfig} {frag : Fragment} {now : BitVec 64} {clk : SystemClock}
  {fits : Allocator} {health totalFrags tail : BitVec 16} {key : ReassemblyKey}

theorem ofNat_leNat_toLe_two (x : BitVec 16) : BitVec.ofNat 16 (leNat (toLe 2 x.toNat)) = x := by
  have hmod : x.toNat % 256 ^ 2 = x.toNat := by
    have := x.isLt
    omega
  rw [leNat_toLe, hmod, BitVec.ofNat_toNat, BitVec.setWidth_eq]

@[simp] theorem firstHeader_totalFrags :
    (DataSpecificHeader.decode (firstHeader health totalFrags tail)).totalFrags = totalFrags :=
  ofNat_leNat_toLe_two totalFrags

@[simp] theorem firstHeader_tail :
    (DataSpecificHeader.decode (firstHeader health totalFrags tail)).tailFragPayloadBytes = tail :=
  ofNat_leNat_toLe_two tail

@[simp] theorem firstHeader_reservedHealth :
    (DataSpecificHeader.decode (firstHeader health totalFrags tail)).reservedHealth = health :=
  ofNat_leNat_toLe_two health

@[simp] theorem firstHeader_fragIndex :
    (DataSpecificHeader.decode (firstHeader health totalFrags tail)).fragIndex = 0 := rfl

theorem firstHeader_inner (htwo : 2 ≤ totalFrags.toNat) :
    (DataSpecificHeader.decode (firstHeader health totalFrags tail)).isTailFragment = false := by
  simp only [DataSpecificHeader.isTailFragment, firstHeader_totalFrags, firstHeader_fragIndex,
    beq_eq_false_iff_ne]
  intro h
  rw [← h] at htwo
  exact absurd htwo (by decide)

theorem emptyFirst_holds : (emptyFirst health totalFrags tail).Holds := by
  intro bytes hbytes
  obtain rfl := Option.some.inj hbytes
  simp [emptyFirst, firstHeader]

theorem emptyFrame_held : ∀ op ∈ emptyFrame health totalFrags tail, Held op := by
  intro op hop storage packet hpacket
  simp only [emptyFrame, List.mem_cons, List.not_mem_nil, or_false] at hop
  rcases hop with rfl | rfl
  · cases hpacket
    exact emptyFirst_holds
  · cases hpacket

theorem reservedHealth_spec : ∀ channelCount ≤ 12, ∀ complexSize ∈ [4, 8],
    popcount16 (reservedHealth complexSize channelCount &&& 0x0FFF#16) = channelCount ∧
      (if ((reservedHealth complexSize channelCount &&& 0xF000#16) >>> 12).setWidth 8 =
        (0x02 : BitVec 8) then 8 else 4) = complexSize := by
  decide

theorem fragmentOf_emptyFirst (htwo : 2 ≤ totalFrags.toNat)
    (hle : totalFrags.toNat ≤ cfg.maxTotalFrags.toNat) :
    Pipeline.fragmentOf cfg (emptyFirst health totalFrags tail) =
      some (emptyFragment health totalFrags tail) := by
  have hok : ¬ (totalFrags = 0 ∨ cfg.maxTotalFrags < totalFrags) := by
    intro h
    rcases h with rfl | h
    · exact absurd htwo (by decide)
    · exact absurd hle (Nat.not_le.2 h)
  have hindex : ¬ totalFrags ≤ (0 : BitVec 16) := by
    rw [BitVec.le_def]
    exact Nat.not_le.2 (Nat.lt_of_lt_of_le Nat.two_pos htwo)
  have hparse : parseSpecificHeader cfg (some (firstHeader health totalFrags tail)) 40 =
      some (DataSpecificHeader.decode (firstHeader health totalFrags tail)) := by
    have hlen : ¬ 40 < specificSize := by decide
    simp only [parseSpecificHeader, if_neg hlen, firstHeader_totalFrags, firstHeader_fragIndex,
      if_neg hok, if_neg hindex]
  have hlen : (emptyFirst health totalFrags tail).header.payloadLen.toNat = 40 := rfl
  have hpayload : (emptyFirst health totalFrags tail).payload =
      some (firstHeader health totalFrags tail) := rfl
  unfold Pipeline.fragmentOf
  simp only [hlen, hpayload, hparse, firstHeader_totalFrags, if_neg hok,
    firstHeader_inner htwo, Bool.false_eq_true, if_false]
  rfl

/-! ## The context it leaves -/

theorem emptyFragment_rejected (htwo : 2 ≤ totalFrags.toNat) (now : BitVec 64) :
    Pipeline.addFragment cfg (newContext (emptyFragment health totalFrags tail) now)
      (emptyFragment health totalFrags tail) .heap = .rejected := by
  have hindex : ¬ (totalFrags ≤ (0 : BitVec 16) ∨ 1024 ≤ (0 : BitVec 16).toNat) := by
    rw [BitVec.le_def]
    intro h
    rcases h with h | h
    · exact absurd (htwo.trans h) (by decide)
    · exact absurd h (by decide)
  have hbit : (newContext (emptyFragment health totalFrags tail) now).receivedFragments.test
      (0 : BitVec 16).toNat = false := Bitmap.test_zeros 1024 0
  have htotal : (newContext (emptyFragment health totalFrags tail) now).totalFrags = totalFrags :=
    firstHeader_totalFrags
  have hinner : (emptyFragment health totalFrags tail).specific.isTailFragment = false :=
    firstHeader_inner htwo
  have hzero : (emptyFragment health totalFrags tail).specific.fragIndex = 0 := rfl
  have hsize : (emptyFragment health totalFrags tail).payloadSize = 0 := rfl
  have hbytes : (newContext (emptyFragment health totalFrags tail) now).receivedPayloadBytes =
    0 := rfl
  simp only [Pipeline.addFragment, hzero, htotal, if_neg hindex, hbit, hinner, hsize, hbytes]
  simp

theorem acceptFragment_fresh {σ : System} {storage : FragmentStorage} {p : PayloadPtr}
    (hscan : (isKeyFrozen frag.key now σ.reassembler.frozenKeysRing).2 = false)
    (hl : σ.reassembler.contexts.lookup frag.key = none)
    (hfree : ¬ σ.reassembler.config.maxContexts ≤ σ.reassembler.contexts.entries.length) :
    ∃ s : Reassembler, s.config = σ.reassembler.config ∧
      s.contexts = σ.reassembler.contexts.insert frag.key (newContext frag now) ∧
      acceptFragment fits clk σ frag storage p now =
        storeFragment fits clk { σ with reassembler := s } frag storage p
          (takeSnapshot (newContext frag now) frag) := by
  unfold acceptFragment
  simp only [hscan, Bool.false_eq_true, if_false, Reassembler.getOrCreateContext, hl, if_neg hfree]
  refine ⟨_, ?_, ?_, rfl⟩
  · rfl
  · rfl

theorem storeFragment_rejected {σ : System} {storage : FragmentStorage} {p : PayloadPtr}
    {ctx : ReassemblyContext}
    (hadd : Pipeline.addFragment σ.reassembler.config ctx frag storage = .rejected) :
    (storeFragment fits clk σ frag storage p ctx).value.1.reassembler =
      σ.reassembler.putContext frag.key ctx := by
  have hadd' : Pipeline.addFragment (σ.reassembler.putContext frag.key ctx).config ctx frag
    storage = .rejected := hadd
  unfold storeFragment
  rw [value_bind, value_addFragment, hadd']
  rfl

/-- **The state after the packet**: a context that has received nothing. -/
theorem emptyFirst_context (hroom : 0 < cfg.maxContexts) (htwo : 2 ≤ totalFrags.toNat)
    (hle : totalFrags.toNat ≤ cfg.maxTotalFrags.toNat) :
    let s := (step fits clk (System.new cfg)
      (.processPacket (emptyFirst health totalFrags tail))).1.reassembler
    let frag := emptyFragment health totalFrags tail
    s.config = cfg ∧ s.contexts.keys = [frag.key] ∧
      s.contexts.lookup frag.key = some (newContext frag (clk 0)) := by
  intro s frag
  have hfrag : Pipeline.fragmentOf (System.new cfg).reassembler.config
      (emptyFirst health totalFrags tail) = some frag := fragmentOf_emptyFirst htwo hle
  have hfrozen : (isKeyFrozen frag.key (clk 0) (Reassembler.new cfg).frozenKeysRing).2 = false := by
    rw [← Bool.not_eq_true, isKeyFrozen_iff]
    intro ⟨e, he, hvalid, _⟩
    rw [List.eq_of_mem_replicate he] at hvalid
    cases hvalid
  have hreceived : ∃ s1 : Reassembler, s1.config = cfg ∧
      s1.contexts = (∅ : ContextMap).insert frag.key (newContext frag (clk 0)) ∧
      s = s1.putContext frag.key (newContext frag (clk 0)) := by
    obtain ⟨s1, hcfg, hcontexts, haccept⟩ := @acceptFragment_fresh frag (clk 0) clk fits
      { System.new cfg with
        reassembler := { (Reassembler.new cfg).countReceived with reads := 1 } } .heap
      (fragmentPtr (emptyFirst health totalFrags tail) frag) hfrozen rfl (Nat.not_le.2 hroom)
    refine ⟨s1, hcfg, hcontexts, ?_⟩
    change (processWith .heap fits clk (System.new cfg)
      (emptyFirst health totalFrags tail)).value.1.reassembler = _
    unfold processWith
    rw [value_bind, value_fragmentOf, hfrag]
    refine (congrArg (fun x => x.value.1.reassembler) haccept).trans (storeFragment_rejected ?_)
    exact hcfg ▸ emptyFragment_rejected htwo (clk 0)
  obtain ⟨s1, hcfg, hcontexts, hs⟩ := hreceived
  have hcontexts' : s.contexts = (∅ : ContextMap).insert frag.key (newContext frag (clk 0)) := by
    rw [hs, Reassembler.putContext]
    simp only [hcontexts, AList.insert_insert]
  rw [hcontexts']
  exact ⟨(congrArg Reassembler.config hs).trans hcfg, rfl, AList.lookup_insert _⟩

/-! ## Its frame -/

/-- **The size of the frame** of a context that has received nothing. -/
theorem slotBytes_newContext (cfg : ReassemblerConfig) (key : ReassemblyKey) (frag : Fragment)
    (now : BitVec 64) {missing : Nat} (hn : frag.specific.totalFrags.toNat = missing + 1) :
    slotBytes cfg key (newContext frag now) (List.range frag.specific.totalFrags.toNat) =
      missing * fallbackSize cfg (if key.dataType = 0x02 then 8 else 4)
        (popcount16 key.channelMask) +
        frag.specific.tailFragPayloadBytes.toNat := by
  have htotal : (newContext frag now).totalFrags.toNat = missing + 1 := hn
  have hempty : ∀ i, Reassembler.received (newContext frag now) i = false := by
    intro i
    rw [Reassembler.received, ref_newContext]
    exact Bool.and_false _
  have hnone : (List.range (newContext frag now).totalFrags.toNat).find?
    (Sizes (newContext frag now)) =
      none := by
    refine List.find?_eq_none.2 fun i _ hsize => ?_
    rw [sizes_iff, size_newContext] at hsize
    exact Nat.lt_irrefl 0 hsize.2
  have hinner : ∀ i < missing, Reassembler.assembledSize cfg (newContext frag now) key i =
      fallbackSize cfg (if key.dataType = 0x02 then 8 else 4) (popcount16 key.channelMask) := by
    intro i hi
    rw [Reassembler.assembledSize, hempty, if_neg Bool.false_ne_true, infer_inner cfg key (by omega),
      hnone]
    rfl
  have hlast : Reassembler.assembledSize cfg (newContext frag now) key missing =
      frag.specific.tailFragPayloadBytes.toNat := by
    rw [Reassembler.assembledSize, hempty, if_neg Bool.false_ne_true,
      Reassembler.inferMissingFragmentSize, if_pos htotal.symm]
    rfl
  rw [hn, slotBytes_succ, slotBytes_eq hinner, hlast]

/-- A completion whose frame has a size that wraps, into a buffer of the wrapped size. -/
theorem complete_overruns {σ : System} {ctx : ReassemblyContext} {isTimeout : Bool}
    (hsize : 2 ^ 64 ≤ slotBytes σ.reassembler.config key ctx (List.range ctx.totalFrags.toNat))
    (hfits : fits (sizeT (slotBytes σ.reassembler.config key ctx
      (List.range ctx.totalFrags.toNat))) = true) :
    ¬ All Access.InRange (completeReassembly fits clk σ key ctx isTimeout) := by
  intro hall
  unfold completeReassembly at hall
  have hrest := (all_bind.1 hall).2
  rw [value_assembledSize, if_pos hfits] at hrest
  have hwritten := all_emit.1 (all_bind.1 (all_bind.1 hrest).2).1
  rw [value_secondPass, Nat.zero_add] at hwritten
  simp only [Access.InRange, sizeT] at hwritten
  omega

/-- The frame that a flush makes of the context of `emptyFirst`. -/
theorem slotBytes_emptyFragment (cfg : ReassemblerConfig) (now : BitVec 64)
    {missing tail channelCount complexSize : Nat} (hmissing : missing + 1 < 65536)
    (htail : tail < 65536) (hchannels : channelCount ≤ 12) (hcomplex : complexSize ∈ [4, 8]) :
    let frag := emptyFragment (reservedHealth complexSize channelCount)
      (BitVec.ofNat 16 (missing + 1))
      (BitVec.ofNat 16 tail)
    slotBytes cfg frag.key (newContext frag now) (List.range (newContext frag now).totalFrags.toNat) =
      missing * fallbackSize cfg complexSize channelCount + tail := by
  intro frag
  obtain ⟨hmask, htype⟩ := reservedHealth_spec channelCount hchannels complexSize hcomplex
  have hn : frag.specific.totalFrags.toNat = missing + 1 := by
    refine (congrArg BitVec.toNat firstHeader_totalFrags).trans ?_
    rw [BitVec.toNat_ofNat]
    exact Nat.mod_eq_of_lt hmissing
  have ht : frag.specific.tailFragPayloadBytes.toNat = tail := by
    refine (congrArg BitVec.toNat firstHeader_tail).trans ?_
    rw [BitVec.toNat_ofNat]
    exact Nat.mod_eq_of_lt htail
  have hhealth : frag.specific.reservedHealth = reservedHealth complexSize channelCount :=
    firstHeader_reservedHealth
  have hkey : frag.key.channelMask = reservedHealth complexSize channelCount &&& 0x0FFF#16 ∧
      frag.key.dataType =
        ((reservedHealth complexSize channelCount &&& 0xF000#16) >>> 12).setWidth 8 := by
    rw [← hhealth]
    exact ⟨rfl, rfl⟩
  have hbytes := slotBytes_newContext cfg frag.key frag now hn
  rw [hkey.1, hkey.2, hmask, htype, ht] at hbytes
  exact hbytes

theorem mem_run_second {σ : System} {op op' : ReassemblerOp} {a : Access}
    (ha : a ∈ (call fits clk (step fits clk σ op).1 op').log) : a ∈ (run fits clk σ [op, op']).2 :=
  List.mem_append_right _ (List.mem_append_left _ ha)

/-- **The overrun**: where the frame of `missing` fragments and the tail has a size that wraps, and
a buffer of the wrapped size is granted. -/
theorem overruns (clk : SystemClock) (hroom : 0 < cfg.maxContexts)
    {missing tail channelCount complexSize : Nat} (hmissing : missing < cfg.maxTotalFrags.toNat)
    (htail : tail < 65536) (hchannels : channelCount ≤ 12) (hcomplex : complexSize ∈ [4, 8])
    (hsize : 2 ^ 64 ≤ missing * fallbackSize cfg complexSize channelCount + tail)
    (hfits : fits (sizeT (missing * fallbackSize cfg complexSize channelCount + tail)) = true) :
    ∃ a ∈ (run fits clk (System.new cfg) (emptyFrame (reservedHealth complexSize channelCount)
      (BitVec.ofNat 16 (missing + 1)) (BitVec.ofNat 16 tail))).2, ¬ a.InRange := by
  have hmax := cfg.maxTotalFrags.isLt
  have htotal : (BitVec.ofNat 16 (missing + 1)).toNat = missing + 1 := by
    rw [BitVec.toNat_ofNat]
    exact Nat.mod_eq_of_lt (by omega)
  -- a frame of its tail alone is small
  have hpos : missing ≠ 0 := by
    rintro rfl
    omega
  obtain ⟨hcfg, hkeys, hl⟩ := @emptyFirst_context cfg clk fits
    (reservedHealth complexSize channelCount) (BitVec.ofNat 16 (missing + 1)) (BitVec.ofNat 16 tail)
    hroom (by omega) (by omega)
  have hbytes := slotBytes_emptyFragment cfg (clk 0) (show missing + 1 < 65536 by omega) htail
    hchannels hcomplex
  by_contra hnone
  have hflush : All Access.InRange (call fits clk (step fits clk (System.new cfg)
      (.processPacket (emptyFirst (reservedHealth complexSize channelCount)
        (BitVec.ofNat 16 (missing + 1)) (BitVec.ofNat 16 tail)))).1 (.flushAll .same)) := by
    intro a ha
    by_contra hout
    exact hnone ⟨a, mem_run_second ha, hout⟩
  have hkeys' := congrArg IterOrder.same.toFun hkeys
  change All _ (completeAll fits clk (IterOrder.same.toFun _) _) at hflush
  rw [hkeys'] at hflush
  change All _ (completeAll fits clk [_] _) at hflush
  unfold completeAll at hflush
  rw [hl] at hflush
  refine complete_overruns ?_ ?_ (all_bind.1 hflush).1
  · rw [hcfg, hbytes]
    exact hsize
  · rw [hcfg, hbytes]
    exact hfits

theorem noOverrun_of_le (fits : Allocator)
    (h : cfg.maxTotalFrags.toNat * (cfg.sampleCountFixed * 8 * 12) + 65536 ≤ 2 ^ 64) :
    NoOverrun fits cfg := by
  refine .inr fun missing hmissing tail htail channels hchannels complexSize hcomplex => .inl ?_
  have hcomplex' : complexSize ≤ 8 := by
    rcases List.mem_pair.1 hcomplex with rfl | rfl
    · decide
    · decide
  have hfallback : fallbackSize cfg complexSize channels ≤ cfg.sampleCountFixed * 8 * 12 :=
    (Nat.mod_le _ _).trans (Nat.mul_le_mul (Nat.mul_le_mul_left _ hcomplex') hchannels)
  have hinner := Nat.mul_le_mul (Nat.le_of_lt hmissing) hfallback
  omega

/-- **When the accesses of every run are in range.** -/
theorem inRange_iff (fits : Allocator) (hmax : cfg.maxTotalFrags.toNat ≤ 1024) :
    (∀ (clk : SystemClock) (ops : List ReassemblerOp), (∀ op ∈ ops, Held op) →
        ∀ a ∈ (run fits clk (System.new cfg) ops).2, a.InRange) ↔ NoOverrun fits cfg := by
  constructor
  · intro hall
    refine or_iff_not_imp_left.2 fun hroom missing hmissing tail htail channels hchannels complexSize
      hcomplex => ?_
    by_contra hbad
    obtain ⟨hsize, hfits⟩ := not_or.1 hbad
    obtain ⟨a, ha, hout⟩ :=
      overruns (fun _ => 0) (Nat.pos_of_ne_zero hroom) hmissing htail hchannels
      hcomplex (Nat.le_of_not_lt hsize) (by simpa using hfits)
    exact hout (hall _ _ emptyFrame_held a ha)
  · intro hsafe clk ops hheld a ha
    exact run_inRange clk hmax (fun _ : True => hsafe) hheld a ha (.inr trivial)

end

end Qdgz300.Pipeline.Accesses
