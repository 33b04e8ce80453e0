import Qdgz300.App.Proof.HandedOut
import Qdgz300.Delivery.Proof.RawBlockQueue

/-!
# The RawBlocks of one face

`Accounted` is the account of a face: every block is processed, dropped, in the worker's hand or in
the queue, and every step of a thread keeps it. A face is `Settled` when no block waits behind an
ended worker; `settled_process`, `settled_consume`, `settled_flushAll` and `settled_flush` say
exactly when a step keeps it so.
-/

namespace Qdgz300.App

open Protocol Common Pipeline Delivery

/-- Every block of `start`, or pushed since, is where it belongs: processed, dropped and counted, in
the worker's hand or in the queue. -/
def RawBlockPath.Accounted (start path : RawBlockPath) : Prop :=
  ∃ xs dropped, Waiting path.queue xs ∧
    path.queue.dropCount = start.queue.dropCount + dropped.length ∧
    (start.consumer.inHand ++ blocks start.queue ++ path.pushed).Perm
      (path.consumer.processed ++ dropped ++ (path.consumer.inHand ++ xs))

namespace Face

/-- The packets that a dispatch has yet to push. -/
def outgoing (face : Face) : List OrderedPacket :=
  match face.processing with
  | .push packets _ => packets
  | _ => []

/-- No block is in the queue or about to be pushed. -/
def Clear (face : Face) : Prop :=
  ∀ path ∈ face.rawBlock, blocks path.queue = [] ∧ face.outgoing = []

/-- The consumer's worker has ended. -/
def Ended (face : Face) : Prop := ∃ path ∈ face.rawBlock, path.consumer.pc = .done

/-- The worker finds `running_` false at its next action. -/
def Ending (face : Face) : Prop :=
  ∃ path ∈ face.rawBlock, path.consumer.pc = .check ∧ path.consumer.running = false

/-- No block waits behind an ended worker. -/
def Settled (face : Face) : Prop := face.Ended → face.Clear

/-- The data packet that the processing thread dispatches next, with the handler's storage. -/
def nextCall (face : Face) : Option (FragmentStorage × ParsedPacket) :=
  match face.processing with
  | .tryPop => face.rxStage.pop.2.head?.map fun env => (.pool, parsedPacket env)
  | .drain => face.rxStage.pop.2.head?.map fun env => (.heap, parsedPacket env)
  | _ => none

/-- The next dispatch completes no frame that the reorderer awaits. -/
def DispatchesNothing (clocks : FaceClocks) (face : Face) : Prop :=
  ∀ call ∈ face.nextCall, call.2.header.packetType = PacketType.data.toByte →
    ∀ e ∈ (onData clocks.system face.reassembler call).2,
      ¬ Awaits face.reorderer e.frame.key.frameCounter

/-- Every block that was in the queue of `start`, or was pushed on the way to `face`, was processed
or is counted as dropped. -/
def LosesNothing (start face : Face) : Prop :=
  ∀ path ∈ start.rawBlock, ∃ path' ∈ face.rawBlock, ∃ dropped : List RawBlock,
    path'.queue.dropCount = path.queue.dropCount + dropped.length ∧
    (path.consumer.inHand ++ blocks path.queue ++ path'.pushed).Perm
      (path'.consumer.processed ++ dropped)

end Face

/-! ## The RawBlock path -/

section
variable {start path : RawBlockPath}

theorem RawBlockPath.Accounted.refl (hpushed : path.pushed = [])
    (hprocessed : path.consumer.processed = []) (hwait : ∃ xs, Waiting path.queue xs) :
    path.Accounted path := by
  obtain ⟨xs, hxs⟩ := hwait
  refine ⟨xs, [], hxs, rfl, ?_⟩
  rw [hpushed, hprocessed, hxs.blocks, List.append_nil]
  exact List.Perm.refl _

/-- **A push** keeps the account: what it drops is counted. -/
theorem RawBlockPath.Accounted.push (h : start.Accounted path) (arrayId : BitVec 8) (now : Int)
    (packet : OrderedPacket) : start.Accounted (path.push arrayId now packet) := by
  obtain ⟨xs, dropped, hxs, hcount, hperm⟩ := h
  obtain ⟨lost, kept, rfl, hkept, hdrops⟩ := hxs.adaptAndPush arrayId now packet
  refine ⟨_, dropped ++ lost, hkept, ?_, ?_⟩
  · rw [List.length_append, ← Nat.add_assoc, ← hcount]
    exact hdrops
  · have hnew := hperm.append_right [adapt arrayId now packet]
    unfold RawBlockPath.push
    simp only
    rw [← List.append_assoc]
    refine hnew.trans ?_
    simp only [List.append_assoc, List.perm_append_left_iff]
    rw [← List.append_assoc, ← List.append_assoc lost]
    exact List.perm_append_comm.append_right _

/-- **An action of the worker** keeps the account. -/
theorem RawBlockPath.Accounted.consume (h : start.Accounted path)
    {r : RawBlockQueue × StubConsumer} (hstep : path.consumer.step path.queue = some r) :
    start.Accounted { path with queue := r.1, consumer := r.2 } := by
  obtain ⟨xs, dropped, hxs, hcount, hperm⟩ := h
  obtain ⟨queue, consumer⟩ := r
  rcases hxs.step_cases hstep with ⟨hpc, rfl, rfl⟩ | ⟨hpc, rfl, rfl, rfl⟩ |
    ⟨hpc, block, rest, rfl, hrest, hdrops, rfl⟩ | ⟨block, hpc, rfl, rfl⟩
  · refine ⟨xs, dropped, hxs, hcount, ?_⟩
    have hhand : path.consumer.inHand = [] := by rw [StubConsumer.inHand, hpc]
    rw [hhand] at hperm
    cases hrun : path.consumer.running with
    | true => simpa [StubConsumer.inHand, hrun] using hperm
    | false => simpa [StubConsumer.inHand, hrun] using hperm
  · refine ⟨[], dropped, hxs, hcount, ?_⟩
    have hhand : path.consumer.inHand = [] := by rw [StubConsumer.inHand, hpc]
    rw [hhand] at hperm
    exact hperm
  · refine ⟨rest, dropped, hrest, hdrops.trans hcount, ?_⟩
    have hhand : path.consumer.inHand = [] := by rw [StubConsumer.inHand, hpc]
    rw [hhand] at hperm
    exact hperm
  · refine ⟨xs, dropped, hxs, hcount, ?_⟩
    have hhand : path.consumer.inHand = [block] := by rw [StubConsumer.inHand, hpc]
    rw [hhand] at hperm
    refine hperm.trans ?_
    simp only [StubConsumer.processBlock, StubConsumer.inHand, List.append_assoc,
      List.perm_append_left_iff, List.nil_append]
    exact List.perm_append_comm_assoc _ _ _

/-- Behind an ended worker nothing is lost exactly when the queue is empty. -/
theorem RawBlockPath.Accounted.lost_iff (h : start.Accounted path)
    (hdone : path.consumer.pc = .done) :
    (∃ dropped : List RawBlock, path.queue.dropCount = start.queue.dropCount + dropped.length ∧
      (start.consumer.inHand ++ blocks start.queue ++ path.pushed).Perm
        (path.consumer.processed ++ dropped)) ↔ blocks path.queue = [] := by
  obtain ⟨xs, dropped, hxs, hcount, hperm⟩ := h
  have hhand : path.consumer.inHand = [] := by rw [StubConsumer.inHand, hdone]
  rw [hhand] at hperm
  rw [hxs.blocks]
  constructor
  · rintro ⟨dropped', hcount', hperm'⟩
    have hlen := hperm.length_eq.symm.trans hperm'.length_eq
    simp only [List.length_append, List.length_nil] at hlen
    exact List.length_eq_zero_iff.1 (by omega)
  · rintro rfl
    refine ⟨dropped, hcount, ?_⟩
    rwa [List.append_nil, List.append_nil] at hperm

end

/-! ## One face -/

namespace Face

section
variable {start face face' : Face} {clocks : FaceClocks} {now : Int} {packet : OrderedPacket}

/-- The accounts of the path of a face, if it has one. -/
def Accounted (start face : Face) : Prop :=
  Option.Rel RawBlockPath.Accounted start.rawBlock face.rawBlock

theorem Accounted.update (h : start.Accounted face) {f : RawBlockPath → RawBlockPath}
    (hf : ∀ first path : RawBlockPath, first.Accounted path → first.Accounted (f path)) :
    start.Accounted { face with rawBlock := face.rawBlock.map f } := by
  unfold Accounted at h ⊢
  simp only
  generalize start.rawBlock = a, face.rawBlock = b at h ⊢
  cases h with
  | none => exact .none
  | some hpath => exact .some (hf _ _ hpath)

theorem Accounted.deliver (h : start.Accounted face) : start.Accounted (face.deliver now packet) :=
  h.update fun _ _ hpath => hpath.push _ _ _

theorem Accounted.deliverAll (now : Nat → Int) (packets : List OrderedPacket)
    (h : start.Accounted face) : start.Accounted (face.deliverAll now packets) := by
  induction packets generalizing face now with
  | nil => exact h
  | cons packet packets ih => exact ih _ h.deliver

theorem Accounted.stopConsumer (h : start.Accounted face) : start.Accounted face.stopConsumer :=
  h.update fun _ _ hpath => hpath

theorem consume_eq (h : face.consume = some face') : ∃ path r, face.rawBlock = some path ∧
    path.consumer.step path.queue = some r ∧
    face' = { face with rawBlock := some { path with queue := r.1, consumer := r.2 } } := by
  unfold consume at h
  cases hpath : face.rawBlock with
  | none =>
    rw [hpath] at h
    cases h
  | some path =>
    rw [hpath] at h
    obtain ⟨r, hr, rfl⟩ := Option.map_eq_some_iff.1 h
    exact ⟨path, r, rfl, hr, rfl⟩

theorem Accounted.consume (h : start.Accounted face) (hstep : face.consume = some face') :
    start.Accounted face' := by
  obtain ⟨path, r, hpath, hr, rfl⟩ := consume_eq hstep
  unfold Accounted at h ⊢
  rw [hpath] at h
  simp only
  generalize start.rawBlock = a at h ⊢
  cases h with
  | some hfirst => exact .some (hfirst.consume hr)

theorem Accounted.waiting (h : start.Accounted face) :
    ∀ path ∈ face.rawBlock, ∃ xs, Waiting path.queue xs := by
  intro path hpath
  unfold Accounted at h
  rw [Option.mem_def.1 hpath] at h
  generalize start.rawBlock = a at h
  cases h with
  | some hfirst =>
    obtain ⟨xs, -, hxs, -⟩ := hfirst
    exact ⟨xs, hxs⟩

/-! ### Blocks behind an ended worker -/

/-- Blocks wait behind an ended worker. -/
def Left (face : Face) : Prop :=
  ∃ path ∈ face.rawBlock, path.consumer.pc = .done ∧ blocks path.queue ≠ []

theorem settled_iff : face.Settled ↔ ¬ face.Left ∧ (face.Ended → face.outgoing = []) := by
  constructor
  · intro h
    refine ⟨?_, ?_⟩
    · rintro ⟨path, hpath, hdone, hne⟩
      exact hne (h ⟨path, hpath, hdone⟩ path hpath).1
    · intro hended
      obtain ⟨path, hpath, hdone⟩ := hended
      exact (h ⟨path, hpath, hdone⟩ path hpath).2
  · intro h hended path hpath
    refine ⟨?_, h.2 hended⟩
    by_contra hne
    obtain ⟨path', hpath', hdone⟩ := hended
    obtain rfl := Option.mem_unique hpath hpath'
    exact h.1 ⟨path, hpath, hdone, hne⟩

theorem ended_update {f : RawBlockPath → RawBlockPath} (processing : ProcessingPc)
    (hf : ∀ path, (f path).consumer.pc = path.consumer.pc) :
    ({ face with rawBlock := face.rawBlock.map f, processing } : Face).Ended ↔ face.Ended := by
  unfold Ended
  simp only [Option.mem_def, Option.map_eq_some_iff]
  constructor
  · rintro ⟨path', ⟨path, hpath, rfl⟩, hdone⟩
    exact ⟨path, hpath, (hf path).symm.trans hdone⟩
  · rintro ⟨path, hpath, hdone⟩
    exact ⟨f path, ⟨path, hpath, rfl⟩, (hf path).trans hdone⟩

theorem ended_deliver : (face.deliver now packet).Ended ↔ face.Ended :=
  ended_update _ fun _ => rfl

/-- **A push** behind an ended worker is left behind. -/
theorem left_deliver (h : start.Accounted face) : (face.deliver now packet).Left ↔ face.Ended := by
  unfold Left Ended deliver
  simp only [Option.mem_def, Option.map_eq_some_iff]
  constructor
  · rintro ⟨path', ⟨path, hpath, rfl⟩, hdone, -⟩
    exact ⟨path, hpath, hdone⟩
  · rintro ⟨path, hpath, hdone⟩
    refine ⟨_, ⟨path, hpath, rfl⟩, hdone, ?_⟩
    obtain ⟨xs, hxs⟩ := h.waiting path hpath
    obtain ⟨lost, kept, -, hkept, -⟩ := hxs.adaptAndPush face.arrayId now packet
    have hblocks : blocks (path.push face.arrayId now packet).queue =
        kept ++ [adapt face.arrayId now packet] := hkept.blocks
    rw [hblocks]
    exact List.append_ne_nil_of_right_ne_nil _ (List.cons_ne_nil _ _)

theorem Left.ended (h : face.Left) : face.Ended := by
  obtain ⟨path, hpath, hdone, -⟩ := h
  exact ⟨path, hpath, hdone⟩

theorem ended_deliverAll (now : Nat → Int) (packets : List OrderedPacket) :
    (face.deliverAll now packets).Ended ↔ face.Ended := by
  induction packets generalizing face now with
  | nil => rfl
  | cons packet packets ih => exact (ih _).trans ended_deliver

theorem outgoing_deliverAll (now : Nat → Int) (packets : List OrderedPacket) :
    (face.deliverAll now packets).outgoing = face.outgoing := by
  induction packets generalizing face now with
  | nil => rfl
  | cons packet packets ih => exact ih _

theorem left_deliverAll (now : Nat → Int) (packets : List OrderedPacket)
    (h : start.Accounted face) :
    (face.deliverAll now packets).Left ↔ face.Left ∨ face.Ended ∧ packets ≠ [] := by
  induction packets generalizing face now with
  | nil => simp [deliverAll]
  | cons packet packets ih =>
    rw [deliverAll, ih _ h.deliver, left_deliver h, ended_deliver]
    constructor
    · rintro (hended | ⟨hended, -⟩)
      · exact .inr ⟨hended, List.cons_ne_nil _ _⟩
      · exact .inr ⟨hended, List.cons_ne_nil _ _⟩
    · rintro (hleft | ⟨hended, -⟩)
      · exact .inl hleft.ended
      · exact .inl hended

/-- **A stage that pushes** keeps a face settled exactly when an ended worker gets nothing. -/
theorem settled_deliverAll (now : Nat → Int) (packets : List OrderedPacket)
    (h : start.Accounted face) :
    (face.deliverAll now packets).Settled ↔ face.Settled ∧ (face.Ended → packets = []) := by
  rw [settled_iff, settled_iff, left_deliverAll now packets h, ended_deliverAll,
    outgoing_deliverAll, not_or, not_and, not_not]
  exact and_right_comm

/-! ### The steps of a face -/

/-- **`flush_all`**. -/
theorem Accounted.settled_flushAll (h : start.Accounted face)
    (hthrows : flushThrows face.reassembler = false) (pushTimes : Nat → Int) (order : IterOrder) :
    (face.flushAll clocks pushTimes order).Settled ↔ face.Settled ∧
      (face.Ended → ∀ key ∈ face.reassembler.contexts.keys,
        ¬ Awaits face.reorderer key.frameCounter) := by
  have hflushed : start.Accounted
      { face with
        reassembler := (face.reassembler.flushAll clocks.system order).1
        reorderer := (Machine.run (onFrame clocks.steady) face.reorderer
          (face.reassembler.flushAll clocks.system order).2).1 } := h
  refine (settled_deliverAll pushTimes _ hflushed).trans ?_
  refine and_congr_right fun _ => imp_congr_right fun _ => ?_
  exact flushAll_nil_iff hthrows

/-- **`flush`**. -/
theorem Accounted.settled_flush (h : start.Accounted face) (pushTimes : Nat → Int) :
    (face.flush pushTimes).Settled ↔
      face.Settled ∧ (face.Ended → face.reorderer.pending = []) := by
  have hflushed : start.Accounted { face with reorderer := face.reorderer.flush.1 } := h
  refine (settled_deliverAll pushTimes _ hflushed).trans ?_
  refine and_congr_right fun _ => imp_congr_right fun _ => ?_
  exact flush_nil_iff

theorem settled_stopConsumer : face.stopConsumer.Settled ↔ face.Settled := by
  have hleft : face.stopConsumer.Left ↔ face.Left := by
    unfold Left stopConsumer
    simp only [Option.mem_def, Option.map_eq_some_iff]
    constructor
    · rintro ⟨path', ⟨path, hpath, rfl⟩, hdone, hne⟩
      exact ⟨path, hpath, hdone, hne⟩
    · rintro ⟨path, hpath, hdone, hne⟩
      exact ⟨_, ⟨path, hpath, rfl⟩, hdone, hne⟩
  have hended : face.stopConsumer.Ended ↔ face.Ended := ended_update _ fun _ => rfl
  rw [settled_iff, settled_iff, hleft, hended]
  rfl

/-- **The worker**: it must not end while a block is there or on its way. -/
theorem Accounted.settled_consume (h : start.Accounted face) (hstep : face.consume = some face') :
    face'.Settled ↔ face.Settled ∧ (face.Ending → face.Clear) := by
  obtain ⟨path, ⟨queue, consumer⟩, hpath, hr, rfl⟩ := consume_eq hstep
  obtain ⟨xs, hxs⟩ := h.waiting path hpath
  have hclear : face.Clear ↔ blocks path.queue = [] ∧ face.outgoing = [] := by
    unfold Clear
    simp [hpath]
  have hended : face.Ended ↔ path.consumer.pc = .done := by
    unfold Ended
    simp [hpath]
  have hending : face.Ending ↔ path.consumer.pc = .check ∧ path.consumer.running = false := by
    unfold Ending
    simp [hpath]
  have hsettled : ({ face with rawBlock := some { path with queue, consumer } } : Face).Settled ↔
      (consumer.pc = .done → blocks queue = [] ∧ face.outgoing = []) := by
    unfold Settled Ended Clear
    simp [outgoing]
  rw [hsettled, Settled, hended, hending, hclear]
  rcases hxs.step_cases hr with ⟨hpc, rfl, rfl⟩ | ⟨hpc, -, -, rfl⟩ | ⟨hpc, -, -, -, -, -, rfl⟩ |
    ⟨block, hpc, -, rfl⟩
  · rw [hpc]
    cases hrun : path.consumer.running with
    | true => simp
    | false => simp
  · simp [hpc]
  · simp [hpc]
  · simp [hpc]

theorem dispatch_nil_iff {storage : FragmentStorage} {call : ParsedPacket} :
    (face.dispatch clocks storage call).2 = [] ↔
      (call.header.packetType = PacketType.data.toByte →
        ∀ e ∈ (onData clocks.system face.reassembler (storage, call)).2,
          ¬ Awaits face.reorderer e.frame.key.frameCounter) := by
  unfold dispatch
  split
  case isTrue hdata =>
    rw [imp_iff_right hdata]
    exact run_onFrame_nil_iff
  case isFalse hdata => simp [hdata]

theorem dispatch_rawBlock {storage : FragmentStorage} {call : ParsedPacket} :
    (face.dispatch clocks storage call).1.rawBlock = face.rawBlock := by
  unfold dispatch
  split <;> rfl

theorem popDispatch_some {storage : FragmentStorage} {packets : List OrderedPacket}
    (hpop : face.popDispatch clocks storage = some (face', packets)) :
    face'.rawBlock = face.rawBlock ∧ ∃ env, face.rxStage.pop.2.head? = some env ∧
      (packets = [] ↔ (env.header.packetType = PacketType.data.toByte →
        ∀ e ∈ (onData clocks.system face.reassembler (storage, parsedPacket env)).2,
          ¬ Awaits face.reorderer e.frame.key.frameCounter)) := by
  unfold popDispatch at hpop
  obtain ⟨env, henv, hdispatch⟩ := Option.map_eq_some_iff.1 hpop
  obtain ⟨rfl, rfl⟩ := Prod.mk.inj hdispatch
  exact ⟨dispatch_rawBlock, env, henv, dispatch_nil_iff⟩

theorem popDispatch_next {storage : FragmentStorage} {packets : List OrderedPacket}
    (hcall : face.nextCall = face.rxStage.pop.2.head?.map fun env => (storage, parsedPacket env))
    (hpop : face.popDispatch clocks storage = some (face', packets)) :
    face'.rawBlock = face.rawBlock ∧ (packets = [] ↔ face.DispatchesNothing clocks) := by
  obtain ⟨hpath, env, henv, hnil⟩ := popDispatch_some hpop
  refine ⟨hpath, hnil.trans ?_⟩
  rw [DispatchesNothing, hcall, henv]
  simp [parsedPacket]

theorem popDispatch_none {storage : FragmentStorage}
    (hcall : face.nextCall = face.rxStage.pop.2.head?.map fun env => (storage, parsedPacket env))
    (hpop : face.popDispatch clocks storage = none) : face.DispatchesNothing clocks := by
  have hempty : face.rxStage.pop.2.head? = none := Option.map_eq_none_iff.1 hpop
  rw [DispatchesNothing, hcall, hempty]
  simp

/-- The actions of the processing thread. -/
theorem process_cases {running : Bool} (hstep : face.process clocks running now = some face') :
    (∃ packet packets draining, face.processing = .push (packet :: packets) draining ∧
      face' = { face.deliver now packet with processing := .push packets draining }) ∨
    (face'.rawBlock = face.rawBlock ∧ face.outgoing = [] ∧
      (face'.outgoing = [] ↔ face.DispatchesNothing clocks)) := by
  unfold process at hstep
  split at hstep
  case h_1 hpc =>
    obtain rfl := Option.some.inj hstep
    refine .inr ⟨rfl, by rw [outgoing, hpc], ?_⟩
    cases running <;> simp [outgoing, DispatchesNothing, nextCall, hpc]
  case h_2 hpc =>
    have hcall : face.nextCall = face.rxStage.pop.2.head?.map fun env =>
      (.pool, parsedPacket env) := by
      rw [nextCall, hpc]
    split at hstep
    case h_1 popped packets hpop =>
      obtain rfl := Option.some.inj hstep
      obtain ⟨hpath, hnil⟩ := popDispatch_next hcall hpop
      exact .inr ⟨hpath, by rw [outgoing, hpc], hnil⟩
    case h_2 hpop =>
      obtain rfl := Option.some.inj hstep
      exact .inr ⟨rfl, by rw [outgoing, hpc], iff_of_true rfl (popDispatch_none hcall hpop)⟩
  case h_3 hpc =>
    have hcall : face.nextCall = face.rxStage.pop.2.head?.map fun env =>
      (.heap, parsedPacket env) := by
      rw [nextCall, hpc]
    split at hstep
    case h_1 popped packets hpop =>
      obtain rfl := Option.some.inj hstep
      obtain ⟨hpath, hnil⟩ := popDispatch_next hcall hpop
      exact .inr ⟨hpath, by rw [outgoing, hpc], hnil⟩
    case h_2 hpop =>
      obtain rfl := Option.some.inj hstep
      exact .inr ⟨rfl, by rw [outgoing, hpc], iff_of_true rfl (popDispatch_none hcall hpop)⟩
  case h_4 draining hpc =>
    obtain rfl := Option.some.inj hstep
    refine .inr ⟨rfl, by rw [outgoing, hpc], ?_⟩
    cases draining <;> simp [outgoing, DispatchesNothing, nextCall, hpc]
  case h_5 packet' packets draining hpc =>
    obtain rfl := Option.some.inj hstep
    exact .inl ⟨packet', packets, draining, hpc, rfl⟩
  case h_6 =>
    cases hstep

/-- **The processing thread**: behind an ended worker no dispatch may hand a packet out. -/
theorem Accounted.settled_process {running : Bool} (h : start.Accounted face)
    (hstep : face.process clocks running now = some face') :
    face'.Settled ↔ face.Settled ∧ (face.Ended → face.DispatchesNothing clocks) := by
  rcases process_cases hstep with ⟨packet, packets, draining, hpc, rfl⟩ | ⟨hpath, hout, hnil⟩
  · have hwaits : face.outgoing ≠ [] := by
      rw [outgoing, hpc]
      exact List.cons_ne_nil _ _
    have hended : ({ face.deliver now packet with
        processing := .push packets draining } : Face).Ended ↔ face.Ended :=
      ended_update _ fun _ => rfl
    have hleft : ({ face.deliver now packet with
        processing := .push packets draining } : Face).Left ↔ face.Ended :=
      left_deliver h
    rw [settled_iff, settled_iff, hended, hleft]
    constructor
    · intro hnot
      exact ⟨⟨fun hl => hnot.1 hl.ended, fun he => absurd he hnot.1⟩, fun he => absurd he hnot.1⟩
    · intro hboth
      have hnot : ¬ face.Ended := fun he => hwaits (hboth.1.2 he)
      exact ⟨hnot, fun he => absurd he hnot⟩
  · have hended : face'.Ended ↔ face.Ended := by
      unfold Ended
      rw [hpath]
    have hleft : face'.Left ↔ face.Left := by
      unfold Left
      rw [hpath]
    rw [settled_iff, settled_iff, hended, hleft, hnil, hout]
    simp

/-! ### What every step keeps -/

theorem Accounted.of_rawBlock (h : start.Accounted face) (hpath : face'.rawBlock = face.rawBlock) :
    start.Accounted face' := by
  unfold Accounted
  rw [hpath]
  exact h

theorem Accounted.process {running : Bool} (h : start.Accounted face)
    (hstep : face.process clocks running now = some face') : start.Accounted face' := by
  rcases process_cases hstep with ⟨packet, packets, draining, -, rfl⟩ | ⟨hpath, -, -⟩
  · have hdelivered : start.Accounted (face.deliver now packet) := h.deliver
    exact hdelivered.of_rawBlock rfl
  · exact h.of_rawBlock hpath

theorem Accounted.flushAll (h : start.Accounted face) {pushTimes : Nat → Int} {order : IterOrder} :
    start.Accounted (face.flushAll clocks pushTimes order) := by
  unfold Face.flushAll
  exact Accounted.deliverAll _ _ (h.of_rawBlock rfl)

theorem Accounted.flush (h : start.Accounted face) {pushTimes : Nat → Int} :
    start.Accounted (face.flush pushTimes) := by
  unfold Face.flush
  exact Accounted.deliverAll _ _ (h.of_rawBlock rfl)

/-- A step leaves `running_` alone, and a thread that has ended stays so. -/
structure Keeps (face face' : Face) : Prop where
  consumer : ∀ path' ∈ face'.rawBlock, ∃ path ∈ face.rawBlock,
    path'.consumer.running = path.consumer.running ∧
      (path.consumer.pc = .done → path'.consumer.pc = .done)
  processing : face.processing = .done → face'.processing = .done

theorem Keeps.of_rawBlock (hpath : face'.rawBlock = face.rawBlock)
    (hprocessing : face.processing = .done → face'.processing = .done) : Keeps face face' :=
  ⟨fun path hp => ⟨path, hpath ▸ hp, rfl, id⟩, hprocessing⟩

theorem Keeps.trans {face'' : Face} (h : Keeps face face') (h' : Keeps face' face'') :
    Keeps face face'' := by
  refine ⟨fun path'' hpath'' => ?_, fun hdone => h'.processing (h.processing hdone)⟩
  obtain ⟨path', hpath', hrun', hpc'⟩ := h'.consumer path'' hpath''
  obtain ⟨path, hpath, hrun, hpc⟩ := h.consumer path' hpath'
  exact ⟨path, hpath, hrun'.trans hrun, fun hdone => hpc' (hpc hdone)⟩

theorem keeps_deliver : Keeps face (face.deliver now packet) := by
  refine ⟨fun path' hpath' => ?_, id⟩
  obtain ⟨path, hpath, rfl⟩ := Option.map_eq_some_iff.1 (Option.mem_def.1 hpath')
  exact ⟨path, hpath, rfl, id⟩

theorem Keeps.deliverAll (now : Nat → Int) (packets : List OrderedPacket) (h : Keeps face face') :
    Keeps face (face'.deliverAll now packets) := by
  induction packets generalizing face' now with
  | nil => exact h
  | cons packet packets ih => exact ih _ (h.trans keeps_deliver)

theorem keeps_flushAll (pushTimes : Nat → Int) (order : IterOrder) :
    Keeps face (face.flushAll clocks pushTimes order) := by
  unfold flushAll
  exact Keeps.deliverAll _ _ (.of_rawBlock rfl id)

theorem keeps_flush (pushTimes : Nat → Int) : Keeps face (face.flush pushTimes) := by
  unfold flush
  exact Keeps.deliverAll _ _ (.of_rawBlock rfl id)

theorem keeps_process {running : Bool} (hstep : face.process clocks running now = some face') :
    Keeps face face' := by
  have hlive : face.processing ≠ .done := by
    intro hdone
    rw [process, hdone] at hstep
    cases hstep
  rcases process_cases hstep with ⟨packet, packets, draining, -, rfl⟩ | ⟨hpath, -, -⟩
  · have hkeeps : Keeps face (face.deliver now packet) := keeps_deliver
    exact ⟨hkeeps.consumer, fun hdone => absurd hdone hlive⟩
  · exact .of_rawBlock hpath fun hdone => absurd hdone hlive

theorem keeps_consume (h : start.Accounted face) (hstep : face.consume = some face') :
    Keeps face face' := by
  obtain ⟨path, ⟨queue, consumer⟩, hpath, hr, rfl⟩ := consume_eq hstep
  refine ⟨?_, id⟩
  intro path' hpath'
  obtain rfl := Option.some.inj hpath'
  obtain ⟨xs, hxs⟩ := h.waiting path hpath
  refine ⟨path, hpath, ?_⟩
  rcases hxs.step_cases hr with ⟨hpc, -, rfl⟩ | ⟨hpc, -, -, rfl⟩ | ⟨hpc, -, -, -, -, -, rfl⟩ |
    ⟨block, hpc, -, rfl⟩
  · exact ⟨rfl, fun hdone => nomatch hpc.symm.trans hdone⟩
  · exact ⟨rfl, fun hdone => nomatch hpc.symm.trans hdone⟩
  · exact ⟨rfl, fun hdone => nomatch hpc.symm.trans hdone⟩
  · exact ⟨rfl, fun hdone => nomatch hpc.symm.trans hdone⟩

/-! ### The end -/

/-- When both threads have ended, nothing is lost exactly when nothing is left. -/
theorem losesNothing_iff (h : start.Accounted face) (hprocessing : face.processing = .done)
    (hconsumer : ∀ path ∈ face.rawBlock, path.consumer.pc = .done) :
    start.LosesNothing face ↔ face.Settled := by
  have hout : face.outgoing = [] := by rw [outgoing, hprocessing]
  unfold Accounted at h
  unfold LosesNothing Settled Ended Clear
  rw [hout]
  revert hconsumer
  generalize start.rawBlock = a, face.rawBlock = b at h ⊢
  cases h with
  | none => simp
  | some hpath =>
    intro hconsumer
    have hdone := hconsumer _ rfl
    have hlost := hpath.lost_iff hdone
    simpa [hdone] using hlost

end

end Face

end Qdgz300.App
