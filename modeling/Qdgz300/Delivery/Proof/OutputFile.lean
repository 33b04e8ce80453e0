import Qdgz300.Delivery.OutputFile

/-!
# What the output file holds

`writeBlockToFile_end` and `writeBlockToFile_le` say what a block adds to the file: at the end of it
a part of its record, at any position no more than its record. A consumer that has the file to
itself appends, so the file holds the blocks it has processed, as long as no write was short
(`outputFile_holds_blocks`). Where the faces share the file no position is ahead of what its own
face has written (`Within`), so there is no room for the blocks of two of them (`sharedFile_loses`).
-/

namespace Qdgz300.Delivery

open Bytes Common Pipeline

/-! ## Records -/

theorem rawBlockHeader_size : rawBlockHeader.size = 31 := rfl

theorem rawBlockHeader_faithful (bs : List Byte) (hlen : bs.length = rawBlockHeader.size) :
    rawBlockHeader.Faithful bs := by
  rw [rawBlockHeader_size] at hlen
  have hword : ∀ {k : Nat} (off : Nat), off + k ≤ 31 → (Image.word k).Faithful (slice bs off k) :=
    fun off h => Image.word_faithful (by omega)
  have hwhole : slice bs 0 31 = bs := List.take_of_length_le hlen.le
  rw [← hwhole]
  apply Image.iso_faithful
  apply Image.pair_faithful (hword 0 (by decide))
  apply Image.pair_faithful (hword 8 (by decide))
  apply Image.pair_faithful (hword 16 (by decide))
  apply Image.pair_faithful (hword 17 (by decide))
  apply Image.pair_faithful (hword 21 (by decide))
  apply Image.pair_faithful (hword 23 (by decide))
  exact hword 27 (by decide)

/-- A reader's view of the output file. -/
def rawBlockFormat : Records.Format RawBlockHeader where
  header := rawBlockHeader
  bodySize h := h.dataSize.toNat
  size_pos := by decide
  faithful := rawBlockHeader_faithful

/-- The record of a block. -/
def RawBlock.record (block : RawBlock) : RawBlockHeader × List Byte := (block.header, block.data)

def RawBlock.recordBytes (block : RawBlock) : List Byte := Records.bytes rawBlockFormat block.record

section
variable {block : RawBlock} {writes : WriteResults} {content : List Byte} {off : Nat}

@[simp] theorem length_data : block.data.length = block.dataSize.toNat := by
  simp only [RawBlock.data, List.length_append, List.length_take, List.length_replicate]
  omega

theorem whole_record (block : RawBlock) : Records.Whole rawBlockFormat block.record := length_data

theorem length_recordBytes : block.recordBytes.length = 31 + block.dataSize.toNat := by
  rw [RawBlock.recordBytes, Records.length_bytes, RawBlock.record, length_data]
  rfl

/-- Both writes take everything. -/
def WriteResults.Complete (writes : WriteResults) (block : RawBlock) : Prop :=
  rawBlockHeader.size ≤ writes.header ∧ block.dataSize.toNat ≤ writes.payload

/-- **At the end of the file** a block appends the front of its record, all of it exactly when the
writes are complete. -/
theorem writeBlockToFile_end (content : List Byte) (block : RawBlock) (writes : WriteResults) :
    ∃ part, part <+: block.recordBytes ∧
      (part.length = block.recordBytes.length ↔ writes.Complete block) ∧
      writeBlockToFile content content.length block writes =
        (content ++ part, (content ++ part).length) := by
  have hsize : (rawBlockHeader.bytes block.header).length = 31 := rawBlockHeader.length_bytes _
  unfold writeBlockToFile
  rw [length_recordBytes]
  simp only [FileSystem.writeAt_end, List.length_take, hsize, rawBlockHeader_size,
    WriteResults.Complete]
  by_cases hheader : min writes.header 31 = 31
  · have htake : (rawBlockHeader.bytes block.header).take writes.header =
        rawBlockHeader.bytes block.header := List.take_of_length_le (by omega)
    have hend : content.length + 31 = (content ++ rawBlockHeader.bytes block.header).length := by
      simp [hsize]
    simp only [hheader, htake, ne_eq, not_true_eq_false, if_false]
    split
    · refine ⟨rawBlockHeader.bytes block.header ++ block.data.take writes.payload, ?_, ?_, ?_⟩
      · exact (List.prefix_append_right_inj _).2 (List.take_prefix _ _)
      · simp only [List.length_append, List.length_take, length_data, hsize]
        omega
      · rw [hend, FileSystem.writeAt_end]
        simp [Nat.add_assoc]
    · refine ⟨rawBlockHeader.bytes block.header, List.prefix_append _ _, ?_, ?_⟩
      · rw [hsize]
        omega
      · rw [hend]
  · refine ⟨(rawBlockHeader.bytes block.header).take writes.header, ?_, ?_, ?_⟩
    · exact (List.take_prefix _ _).trans (List.prefix_append _ _)
    · simp only [List.length_take, hsize]
      omega
    · rw [if_pos hheader]
      simp [hsize]

/-- **At any position** a block extends the file at most to its new position, which is at most a
record further on. -/
theorem writeBlockToFile_le (content : List Byte) (off : Nat) (block : RawBlock)
    (writes : WriteResults) :
    (writeBlockToFile content off block writes).1.length ≤
        max content.length (writeBlockToFile content off block writes).2 ∧
      (writeBlockToFile content off block writes).2 ≤ off + block.recordBytes.length := by
  have hsize : (rawBlockHeader.bytes block.header).length = 31 := rawBlockHeader.length_bytes _
  rw [length_recordBytes]
  unfold writeBlockToFile
  dsimp only
  have hfirst := FileSystem.length_writeAt_le content off
    ((rawBlockHeader.bytes block.header).take writes.header)
  have hlen : ((rawBlockHeader.bytes block.header).take writes.header).length ≤ 31 := by
    rw [List.length_take, hsize]
    omega
  split
  · exact ⟨hfirst, by omega⟩
  · split
    · have hsecond := FileSystem.length_writeAt_le
        (FileSystem.writeAt content off ((rawBlockHeader.bytes block.header).take writes.header))
        (off + ((rawBlockHeader.bytes block.header).take writes.header).length)
        (block.data.take writes.payload)
      have hbody : (block.data.take writes.payload).length ≤ block.dataSize.toNat := by
        rw [List.length_take, length_data]
        omega
      dsimp only
      exact ⟨by omega, by omega⟩
    · exact ⟨hfirst, by omega⟩

end

/-- **An action of the worker** processes the block in hand, or none. -/
theorem StubConsumer.step_processed {queue : RawBlockQueue} {consumer : StubConsumer}
    {r : RawBlockQueue × StubConsumer} (hstep : consumer.step queue = some r) :
    consumer.pc ≠ .done ∧
      ((∃ block, consumer.pc = .processBlock block ∧ r.2.processed = consumer.processed ++ [block]) ∨
        (∀ block, consumer.pc ≠ .processBlock block) ∧ r.2.processed = consumer.processed) := by
  unfold StubConsumer.step at hstep
  cases hpc : consumer.pc with
  | check =>
    rw [hpc] at hstep
    obtain rfl := Option.some.inj hstep
    exact ⟨by simp, .inr ⟨by simp, rfl⟩⟩
  | tryPop =>
    rw [hpc] at hstep
    dsimp only at hstep
    refine ⟨by simp, .inr ⟨by simp, ?_⟩⟩
    split at hstep
    · obtain rfl := Option.some.inj hstep
      rfl
    · obtain rfl := Option.some.inj hstep
      rfl
  | processBlock block =>
    rw [hpc] at hstep
    obtain rfl := Option.some.inj hstep
    exact ⟨by simp, .inl ⟨block, rfl, rfl⟩⟩
  | done =>
    rw [hpc] at hstep
    cases hstep

namespace ConsumerFiles

section
variable {s s' : ConsumerFiles} {l : ConsumerLabel} {i : Nat}

/-! ## Steps -/

/-- The blocks that the worker of face `i` has processed. -/
def processed (s : ConsumerFiles) (i : Nat) : List RawBlock := (s.paths i).consumer.processed

/-- A worker that runs has been started and has the file open. -/
def Opened (path : ConsumerPath) : Prop :=
  path.consumer.pc ≠ .done → path.started = true ∧ path.outputFd.isSome = true

/-- No worker is about to process a block in this step. -/
def Unprocessing (s : ConsumerFiles) (l : ConsumerLabel) : Prop :=
  ∀ i writes, l = .run i writes → ∀ block, (s.paths i).consumer.pc ≠ .processBlock block

/-- What a step does to the file: nothing, or a consumer starts, or a worker writes a block. -/
inductive Effect (s s' : ConsumerFiles) : ConsumerLabel → Prop
  | other {l : ConsumerLabel} (hnone : Unprocessing s l) (hfile : s'.file = s.file)
      (hpath : ∀ k, s'.processed k = s.processed k ∧
        (s'.paths k).started = (s.paths k).started ∧
        ((s'.paths k).outputFd = (s.paths k).outputFd ∨ (s'.paths k).outputFd = none)) :
          Effect s s' l
  | start (i : Nat) (hi : i < s.numFaces) (opens : Bool) (hfile : s'.file = [])
      (hidle : (s.paths i).started = false)
      (hself : s'.processed i = s.processed i ∧ (s'.paths i).started = true ∧
        (s'.paths i).outputFd = some 0)
      (hother : ∀ k, k ≠ i → s'.paths k = s.paths k) : Effect s s' (.start i opens)
  | write (i : Nat) (hi : i < s.numFaces) (writes : WriteResults) (block : RawBlock) (off : Nat)
      (hpc : (s.paths i).consumer.pc = .processBlock block)
      (hoff : (s.paths i).outputFd = some off)
      (hfile : s'.file = (writeBlockToFile s.file off block writes).1)
      (hself : s'.processed i = s.processed i ++ [block] ∧
        (s'.paths i).started = (s.paths i).started ∧
        (s'.paths i).outputFd = some (writeBlockToFile s.file off block writes).2)
      (hother : ∀ k, k ≠ i → s'.paths k = s.paths k) : Effect s s' (.run i writes)

@[simp] theorem setPath_self (s : ConsumerFiles) (i : Nat) (path : ConsumerPath) :
    (s.setPath i path).paths i = path := Function.update_self ..

theorem setPath_ne {k : Nat} (s : ConsumerFiles) (path : ConsumerPath) (hk : k ≠ i) :
    (s.setPath i path).paths k = s.paths k := Function.update_of_ne hk ..

theorem Effect.of_setPath {path : ConsumerPath} (hnone : Unprocessing s l)
    (hprocessed : path.consumer.processed = (s.paths i).consumer.processed)
    (hstarted : path.started = (s.paths i).started)
    (hfd : path.outputFd = (s.paths i).outputFd ∨ path.outputFd = none) :
    Effect s (s.setPath i path) l := by
  refine .other hnone rfl fun k => ?_
  by_cases hk : k = i
  · subst hk
    simp only [processed, setPath_self]
    exact ⟨hprocessed, hstarted, hfd⟩
  · simp [processed, setPath_ne s path hk]

theorem opened_setPath {path : ConsumerPath} (h : ∀ k, Opened (s.paths k)) (hpath : Opened path) :
    ∀ k, Opened ((s.setPath i path).paths k) := by
  intro k
  by_cases hk : k = i
  · subst hk
    rw [setPath_self]
    exact hpath
  · rw [setPath_ne s path hk]
    exact h k

/-- **One step.** -/
theorem step_effect (hopened : ∀ k, Opened (s.paths k)) (hwrite : s.config.writeToFile = true)
    (hstep : s.step l = some s') :
    Effect s s' l ∧ (∀ k, Opened (s'.paths k)) ∧ s'.config = s.config ∧
    s'.numFaces = s.numFaces := by
  cases l with
  | start i opens =>
    obtain ⟨⟨hi, hidle⟩, heq⟩ := Option.ite_none_right_eq_some.1 hstep
    obtain rfl := Option.some.inj heq
    unfold start
    dsimp only
    rw [if_neg (by simp [hwrite])]
    split
    · exact ⟨.other (by simp [Unprocessing]) rfl fun k => ⟨rfl, rfl, .inl rfl⟩, hopened, rfl, rfl⟩
    · refine ⟨.start i hi opens rfl hidle ?_ fun k hk => ?_, fun k => ?_, rfl, rfl⟩
      · simp [processed]
      · exact setPath_ne s _ hk
      · refine opened_setPath hopened (fun _ => ⟨rfl, rfl⟩) k
  | push i now packet =>
    obtain ⟨hi, heq⟩ := Option.ite_none_right_eq_some.1 hstep
    obtain rfl := Option.some.inj heq
    exact ⟨.of_setPath (by simp [Unprocessing]) rfl rfl (.inl rfl), opened_setPath hopened (hopened i),
      rfl, rfl⟩
  | run i writes =>
    obtain ⟨hi, heq⟩ := Option.ite_none_right_eq_some.1 hstep
    obtain ⟨r, hr, rfl⟩ := Option.map_eq_some_iff.1 heq
    obtain ⟨hpc, hcases⟩ := StubConsumer.step_processed hr
    obtain ⟨hstarted, hfd⟩ := hopened i hpc
    obtain ⟨off, hoff⟩ := Option.isSome_iff_exists.1 hfd
    rcases hcases with ⟨block, hblock, hprocessed⟩ | ⟨hnone, hprocessed⟩
    · simp only [hblock, hoff, hwrite, if_true]
      refine ⟨.write i hi writes block off hblock hoff rfl ?_ fun k hk => ?_, fun k => ?_, rfl, rfl⟩
      · simp [processed, hprocessed]
      · exact setPath_ne s _ hk
      · have hpath : Opened { s.paths i with
            queue := r.1
            consumer := r.2
            outputFd := some (writeBlockToFile s.file off block writes).2 } :=
          fun _ => ⟨hstarted, rfl⟩
        exact opened_setPath hopened hpath k
    · have hsame : Opened { s.paths i with queue := r.1, consumer := r.2 } := fun _ =>
        ⟨hstarted, hfd⟩
      split
      · rename_i hblock _
        exact absurd hblock (hnone _)
      · have hidle : Unprocessing s (.run i writes) := by
          rintro j w heq
          cases heq
          exact hnone
        exact ⟨.of_setPath hidle hprocessed rfl (.inl rfl), opened_setPath hopened hsame, rfl, rfl⟩
  | stop i =>
    obtain ⟨hi, heq⟩ := Option.ite_none_right_eq_some.1 hstep
    obtain rfl := Option.some.inj heq
    exact ⟨.of_setPath (by simp [Unprocessing]) rfl rfl (.inl rfl), opened_setPath hopened (hopened i),
      rfl, rfl⟩
  | close i =>
    obtain ⟨⟨hi, hrunning, hdone⟩, heq⟩ := Option.ite_none_right_eq_some.1 hstep
    obtain rfl := Option.some.inj heq
    refine ⟨.of_setPath (by simp [Unprocessing]) rfl rfl (.inr rfl), opened_setPath hopened fun hpc => ?_, rfl, rfl⟩
    exact absurd hdone hpc

/-- The records of blocks, as they lie in a file. -/
def bytesOf (blocks : List RawBlock) : List Byte := blocks.flatMap RawBlock.recordBytes

theorem bytesOf_append (bs : List RawBlock) (block : RawBlock) :
    bytesOf (bs ++ [block]) = bytesOf bs ++ block.recordBytes := by simp [bytesOf]

theorem flatMap_records (bs : List RawBlock) :
    (bs.map RawBlock.record).flatMap (Records.bytes rawBlockFormat) = bytesOf bs :=
  List.flatMap_map ..

/-! ## One face -/

/-- The writes of a step take everything. -/
def CompleteWrites (s : ConsumerFiles) (l : ConsumerLabel) : Prop :=
  ∀ i writes, l = .run i writes →
    ∀ block, (s.paths i).consumer.pc = .processBlock block → writes.Complete block

/-- One consumer with the file to itself: it writes at the end, and never more than its records. -/
structure Alone (s : ConsumerFiles) : Prop where
  one : s.numFaces = 1
  writes : s.config.writeToFile = true
  opened : ∀ k, Opened (s.paths k)
  idle : (s.paths 0).started = false → s.processed 0 = []
  room : (s.paths 0).started = true → s.file.length ≤ (bytesOf (s.processed 0)).length
  atEnd : ∀ off, (s.paths 0).outputFd = some off → off = s.file.length

/-- The file of a started consumer is the blocks it has processed. -/
def HoldsBlocks (s : ConsumerFiles) : Prop :=
  (s.paths 0).started = true → s.file = bytesOf (s.processed 0)

/-- **One step** of the only face keeps the file whole exactly when its writes are complete. -/
theorem Alone.step (h : Alone s) (hstep : s.step l = some s') :
    Alone s' ∧ (HoldsBlocks s' ↔ HoldsBlocks s ∧ CompleteWrites s l) := by
  obtain ⟨heffect, hopened, hconfig, hnum⟩ := step_effect h.opened h.writes hstep
  have hone : s'.numFaces = 1 := hnum.trans h.one
  have hwrites : s'.config.writeToFile = true := by rw [hconfig, h.writes]
  cases heffect with
  | other hnone hfile hpath =>
    obtain ⟨hprocessed, hstarted, hfd⟩ := hpath 0
    refine ⟨⟨hone, hwrites, hopened, ?_, ?_, ?_⟩, ?_⟩
    · rw [hstarted, hprocessed]
      exact h.idle
    · rw [hstarted, hprocessed, hfile]
      exact h.room
    · intro off hoff
      rcases hfd with hsame | hclosed
      · rw [hfile]
        exact h.atEnd off (hsame ▸ hoff)
      · rw [hclosed] at hoff
        cases hoff
    · unfold HoldsBlocks
      rw [hstarted, hprocessed, hfile]
      refine (and_iff_left ?_).symm
      exact fun i writes hl block hpc => absurd hpc (hnone i writes hl block)
  | start i hi opens hfile hidle hself hother =>
    obtain rfl : i = 0 := by
      rw [h.one] at hi
      omega
    have hempty : s'.processed 0 = [] := hself.1.trans (h.idle hidle)
    have hwhole : s'.file = bytesOf (s'.processed 0) := by rw [hfile, hempty]; rfl
    refine ⟨⟨hone, hwrites, hopened, fun _ => hempty, fun _ => by rw [hwhole], ?_⟩, ?_⟩
    · intro off hoff
      rw [hself.2.2] at hoff
      cases hoff
      rw [hfile]
      rfl
    · refine iff_of_true (fun _ => hwhole) ⟨fun hstarted => ?_, by simp [CompleteWrites]⟩
      rw [hidle] at hstarted
      cases hstarted
  | write i hi writes block off hpc hoff hfile hself hother =>
    obtain rfl : i = 0 := by
      rw [h.one] at hi
      omega
    have hstarted : (s.paths 0).started = true := (h.opened 0 (by simp [hpc])).1
    have hroom := h.room hstarted
    obtain rfl := h.atEnd off hoff
    obtain ⟨part, hpiece, hcomplete, hwritten⟩ := writeBlockToFile_end s.file block writes
    have hpart := hpiece.length_le
    rw [hwritten] at hfile hself
    have hnow : s'.processed 0 = s.processed 0 ++ [block] := hself.1
    refine ⟨⟨hone, hwrites, hopened, fun hidle => ?_, fun _ => ?_, ?_⟩, ?_⟩
    · rw [hself.2.1, hstarted] at hidle
      cases hidle
    · rw [hfile, hnow, bytesOf_append, List.length_append, List.length_append]
      omega
    · intro off hoff
      rw [hself.2.2] at hoff
      cases hoff
      rw [hfile]
    · have hwrite : CompleteWrites s (.run 0 writes) ↔ part.length = block.recordBytes.length := by
        rw [hcomplete]
        refine ⟨fun hc => hc 0 writes rfl block hpc, ?_⟩
        rintro hc j w heq b hb
        cases heq
        rw [hpc] at hb
        cases hb
        exact hc
      have hholds : HoldsBlocks s' ↔ s.file ++ part =
        bytesOf (s.processed 0) ++ block.recordBytes := by
        unfold HoldsBlocks
        rw [hself.2.1, hstarted, hfile, hnow, bytesOf_append]
        exact ⟨fun heq => heq rfl, fun heq _ => heq⟩
      have hbefore : HoldsBlocks s ↔ s.file = bytesOf (s.processed 0) :=
        ⟨fun heq => heq hstarted, fun heq _ => heq⟩
      rw [hholds, hwrite, hbefore]
      refine ⟨fun heq => ?_, ?_⟩
      · have hlen := congrArg List.length heq
        rw [List.length_append, List.length_append] at hlen
        exact ⟨(List.append_inj heq (by omega)).1, by omega⟩
      · rintro ⟨hfront, hlen⟩
        rw [hfront, hpiece.eq_of_length hlen]

theorem alone_new {config : StubConsumerConfig} (hwrite : config.writeToFile = true)
    (file : List Byte) : Alone (new config 1 file) where
  one := rfl
  writes := hwrite
  opened _ := fun h => absurd rfl h
  idle _ := rfl
  room h := by cases h
  atEnd off h := by cases h

/-! ## Several faces -/

/-- No position is ahead of what its face has written, and the file ends at one of them at most. -/
structure Within (s : ConsumerFiles) : Prop where
  writes : s.config.writeToFile = true
  opened : ∀ k, Opened (s.paths k)
  idle : ∀ k, (s.paths k).started = false → s.processed k = []
  position : ∀ k off, (s.paths k).outputFd = some off → off ≤ (bytesOf (s.processed k)).length
  ends : (∃ k < s.numFaces, (s.paths k).started = true) →
    ∃ k < s.numFaces, s.file.length ≤ (bytesOf (s.processed k)).length

theorem Within.step (h : Within s) (hstep : s.step l = some s') : Within s' := by
  obtain ⟨heffect, hopened, hconfig, hnum⟩ := step_effect h.opened h.writes hstep
  have hwrites : s'.config.writeToFile = true := by rw [hconfig, h.writes]
  cases heffect with
  | other hnone hfile hpath =>
    refine ⟨hwrites, hopened, fun k => ?_, fun k off hoff => ?_, ?_⟩
    · rw [(hpath k).2.1, (hpath k).1]
      exact h.idle k
    · rw [(hpath k).1]
      rcases (hpath k).2.2 with hsame | hclosed
      · exact h.position k off (hsame ▸ hoff)
      · rw [hclosed] at hoff
        cases hoff
    · rintro ⟨k, hk, hstarted⟩
      rw [(hpath k).2.1] at hstarted
      rw [hnum] at hk ⊢
      obtain ⟨m, hm, hlen⟩ := h.ends ⟨k, hk, hstarted⟩
      exact ⟨m, hm, by rw [hfile, (hpath m).1]; exact hlen⟩
  | start i hi opens hfile hidle hself hother =>
    refine ⟨hwrites, hopened, fun k hk => ?_, fun k off hoff => ?_, fun _ => ⟨i, hnum ▸ hi, ?_⟩⟩
    · by_cases hki : k = i
      · subst hki
        exact hself.1.trans (h.idle k hidle)
      · rw [hother k hki] at hk
        rw [processed, hother k hki]
        exact h.idle k hk
    · by_cases hki : k = i
      · subst hki
        rw [hself.2.2] at hoff
        cases hoff
        exact Nat.zero_le _
      · rw [hother k hki] at hoff
        rw [processed, hother k hki]
        exact h.position k off hoff
    · rw [hfile]
      exact Nat.zero_le _
  | write i hi writes block off hpc hoff hfile hself hother =>
    have hstarted : (s.paths i).started = true := (h.opened i (by simp [hpc])).1
    obtain ⟨hlen, hpos⟩ := writeBlockToFile_le s.file off block writes
    have hoffset := h.position i off hoff
    have hnow : (bytesOf (s'.processed i)).length =
        (bytesOf (s.processed i)).length + block.recordBytes.length := by
      rw [hself.1, bytesOf_append, List.length_append]
    refine ⟨hwrites, hopened, fun k hk => ?_, fun k pos hpos' => ?_, fun _ => ?_⟩
    · by_cases hki : k = i
      · subst hki
        rw [hself.2.1, hstarted] at hk
        cases hk
      · rw [hother k hki] at hk
        rw [processed, hother k hki]
        exact h.idle k hk
    · by_cases hki : k = i
      · subst hki
        rw [hself.2.2] at hpos'
        cases hpos'
        omega
      · rw [hother k hki] at hpos'
        rw [processed, hother k hki]
        exact h.position k pos hpos'
    · obtain ⟨m, hm, hend⟩ := h.ends ⟨i, hi, hstarted⟩
      rw [hnum, hfile]
      by_cases hahead : (writeBlockToFile s.file off block writes).2 ≤ s.file.length
      · refine ⟨m, hm, ?_⟩
        have hgrows : (bytesOf (s.processed m)).length ≤ (bytesOf (s'.processed m)).length := by
          by_cases hmi : m = i
          · subst hmi
            omega
          · rw [processed, processed, hother m hmi]
        omega
      · exact ⟨i, hi, by omega⟩

theorem within_new {config : StubConsumerConfig} (hwrite : config.writeToFile = true)
    (numFaces : Nat) (file : List Byte) : Within (new config numFaces file) where
  writes := hwrite
  opened _ := fun h => absurd rfl h
  idle _ _ := rfl
  position k off h := by cases h
  ends := by
    rintro ⟨k, -, h⟩
    cases h

end

/-! ## What a reader finds -/

/-- **One face**: a reader of the output file finds the blocks that the consumer has processed, in
that order and nothing else, exactly when no write was short, whatever was in the file before. -/
theorem outputFile_holds_blocks {config : StubConsumerConfig} (hwrite : config.writeToFile = true)
    (old : List Byte) {ls : List ConsumerLabel} {s : ConsumerFiles}
    (hrun : Machine.exec step (new config 1 old) ls = some s)
    (hstarted : (s.paths 0).started = true) :
    Records.read rawBlockFormat s.file = (s.processed 0).map RawBlock.record ↔
      Machine.Along step CompleteWrites (new config 1 old) ls := by
  obtain ⟨halone, hiff⟩ := Machine.exec_along_iff (I := Alone) (G := HoldsBlocks)
    (C := CompleteWrites)
    (fun t l t' ht hstep => (ht.step hstep).1) (fun t l t' ht hstep => (ht.step hstep).2)
    (alone_new hwrite old) hrun
  have hstart : HoldsBlocks (new config 1 old) := fun h => by cases h
  have hholds : HoldsBlocks s ↔ s.file = bytesOf (s.processed 0) :=
    ⟨fun heq => heq hstarted, fun heq _ => heq⟩
  rw [← (hiff.trans (and_iff_right hstart)), hholds, ← flatMap_records]
  refine ⟨fun hread => ?_, fun hfile => ?_⟩
  · refine Records.eq_of_read hread ?_
    rw [flatMap_records]
    exact halone.room hstarted
  · rw [hfile]
    refine Records.read_flatMap fun r hr => ?_
    obtain ⟨block, -, rfl⟩ := List.mem_map.1 hr
    exact whole_record block

/-- A consumer that writes a file. -/
def recording : StubConsumerConfig where
  writeToFile := true
  outputFile := "rawblocks.bin"

/-- The worker of face `i` takes out a block of one byte and writes it. -/
def oneBlock (i : Nat) : List ConsumerLabel :=
  .push i 5 ⟨⟨{}, none, 0⟩, some [7], 1, false, false, 3⟩ :: List.replicate 3 (.run i ⟨31, 1⟩)

theorem recording_holds_block : ∃ s : ConsumerFiles,
    Machine.exec step (new recording 1 [9]) (.start 0 true :: oneBlock 0) = some s ∧
      (Records.read rawBlockFormat s.file = (s.processed 0).map RawBlock.record ↔
        Machine.Along step CompleteWrites (new recording 1 [9]) (.start 0 true :: oneBlock 0)) := by
  have hend : (Machine.exec step (new recording 1 [9]) (.start 0 true :: oneBlock 0)).any
      (fun s => (s.paths 0).started) = true := by decide +kernel
  obtain ⟨s, hrun, hstarted⟩ := (Option.any_eq_true _ _).1 hend
  exact ⟨s, hrun, outputFile_holds_blocks rfl [9] hrun hstarted⟩

/-- **Several faces** write over each other: once two of them have processed a block, some block is
not in the output file, however the writes went. -/
theorem sharedFile_loses {config : StubConsumerConfig} (hwrite : config.writeToFile = true)
    (numFaces : Nat) (old : List Byte) {ls : List ConsumerLabel} {s : ConsumerFiles}
    (hrun : Machine.exec step (new config numFaces old) ls = some s) {i j : Nat}
    (hi : i < s.numFaces) (hj : j < s.numFaces) (hij : i ≠ j)
    (hblocks : s.processed i ≠ [] ∧ s.processed j ≠ []) :
    ¬ ((List.range s.numFaces).flatMap fun k => (s.processed k).map RawBlock.record).Subperm
      (Records.read rawBlockFormat s.file) := by
  intro hsub
  have h : Within s := Machine.exec_inv (C := fun _ _ => True)
    (fun t l t' ht _ hstep => ht.step hstep) (within_new hwrite numFaces old)
    (Machine.along_of_forall fun _ _ => trivial) hrun
  have hnonempty : ∀ k, s.processed k ≠ [] → 0 < (bytesOf (s.processed k)).length := by
    intro k hk
    obtain ⟨block, rest, heq⟩ := List.exists_cons_of_ne_nil hk
    rw [heq, bytesOf, List.flatMap_cons, List.length_append, length_recordBytes]
    omega
  have hstarted : (s.paths i).started = true :=
    (Bool.eq_false_or_eq_true _).resolve_right fun hidle => hblocks.1 (h.idle i hidle)
  obtain ⟨m, hm, hend⟩ := h.ends ⟨i, hi, hstarted⟩
  obtain ⟨k, hk, hkm, hkblocks⟩ : ∃ k < s.numFaces, k ≠ m ∧ s.processed k ≠ [] := by
    by_cases him : i = m
    · exact ⟨j, hj, fun hjm => hij (him.trans hjm.symm), hblocks.2⟩
    · exact ⟨i, hi, him, hblocks.1⟩
  have hfit := Records.length_le_of_subperm hsub
  have htwo : (bytesOf (s.processed k)).length + (bytesOf (s.processed m)).length ≤
      (((List.range s.numFaces).flatMap fun n => (s.processed n).map RawBlock.record).flatMap
        (Records.bytes rawBlockFormat)).length := by
    have hpair : [k, m].Subperm (List.range s.numFaces) := by
      refine List.subperm_of_subset (by simpa using hkm) fun n hn => ?_
      rcases List.mem_pair.1 hn with rfl | rfl
      · exact List.mem_range.2 hk
      · exact List.mem_range.2 hm
    have hle := Records.length_flatMap_le hpair fun n => bytesOf (s.processed n)
    rw [List.flatMap_assoc]
    simpa [flatMap_records] using hle
  have hpos := hnonempty k hkblocks
  omega

theorem twoFaces_lose : ∃ s : ConsumerFiles,
    Machine.exec step (new recording 2 [])
        (.start 0 true :: .start 1 true :: (oneBlock 0 ++ oneBlock 1)) = some s ∧
      ¬ ((List.range s.numFaces).flatMap fun k => (s.processed k).map RawBlock.record).Subperm
        (Records.read rawBlockFormat s.file) := by
  have hend : (Machine.exec step (new recording 2 [])
      (.start 0 true :: .start 1 true :: (oneBlock 0 ++ oneBlock 1))).any (fun s =>
        decide (1 < s.numFaces) && (!(s.processed 0).isEmpty && !(s.processed 1).isEmpty)) =
          true := by
    decide +kernel
  obtain ⟨s, hrun, hs⟩ := (Option.any_eq_true _ _).1 hend
  simp only [Bool.and_eq_true, decide_eq_true_eq, Bool.not_eq_true', List.isEmpty_eq_false_iff] at hs
  exact ⟨s, hrun, sharedFile_loses rfl 2 [] hrun (i := 0) (j := 1) (by omega) hs.1 (by decide) hs.2⟩

end ConsumerFiles

end Qdgz300.Delivery
