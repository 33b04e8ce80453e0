import Mathlib.Data.List.ReduceOption
import Qdgz300.Network.ArrayFaceReceiver

/-!
# The buffers of the receive loop

The loop returns buffers in three places, and none of them clears the pointers of what it gives to
`deallocate`: a later failure of `allocate` finds them behind its slot and gives them back again.
`NoStale` is the condition under which it does not.

* `step_effect`: what a step does to the buffers that the loop holds.
* **`receiveLoop_returns_once_iff`**: in a run from the start, every buffer is returned exactly
  once, and none is held at the end, exactly when no failing allocation met a stale pointer.
* `shortRound_twice`: a round of one datagram, then a failure at the first slot.
-/

namespace Qdgz300.Network

open Protocol Ledger

namespace ReceiveLoop

/-- The buffers that the loop holds: those of the slots it has filled in this round. -/
def holding (s : ReceiveLoop) : List Nat :=
  match s.pc with
  | .allocate _ i => (s.recvBuffers.take i).reduceOption
  | .recvmmsg _ => s.recvBuffers.reduceOption
  | _ => []

/-- An allocation that fails finds no pointer behind its slot. -/
def NoStale (s : ReceiveLoop) : ReceiveLabel → Prop
  | .allocate none =>
    match s.pc with
    | .allocate _ i => (s.recvBuffers.drop (i + 1)).reduceOption = []
    | _ => True
  | _ => True

/-- Every buffer that was allocated is held by the loop and was not returned since, or was returned
exactly once; nothing else was returned; and at its end the loop holds nothing. -/
structure ReturnsOnce (s : ReceiveLoop) : Prop where
  proper : Proper s.trace
  fate : ∀ buffer, .take buffer ∈ s.trace →
    (buffer ∈ s.holding ∧ fate buffer s.trace = []) ∨
      (buffer ∉ s.holding ∧ ∃ how, Ledger.fate buffer s.trace = [how])
  done : s.pc = .done → held s.trace = []

/-- What a step does to the buffers that the loop holds: nothing, a new one, or all of them are
returned, moved or deallocated, with what is stale. -/
inductive Effect (s s' : ReceiveLoop) (noStale : Prop) : Prop where
  | keep (htrace : s'.trace = s.trace) (hholding : s'.holding = s.holding) (h : noStale)
  | take (buffer : Nat) (hfresh : s.fresh buffer = true)
      (htrace : s'.trace = s.trace ++ [.take buffer])
      (hholding : s'.holding = s.holding ++ [buffer]) (h : noStale)
  | give (moved rest stale : List Nat)
      (htrace : s'.trace = s.trace ++ (gives moved .moved ++
        (gives rest .deallocated ++ gives stale .deallocated)))
      (hheld : s.holding = moved ++ rest) (hholding : s'.holding = []) (h : noStale ↔ stale = [])

/-- The loop holds what the trace says, and its slot is one of the batch. -/
structure Tidy (s : ReceiveLoop) : Prop where
  held : Ledger.held s.trace = s.holding
  slot : ∀ r i, s.pc = .allocate r i → i < s.batchSize

section
variable {config : ArrayFaceReceiverConfig} {s s' : ReceiveLoop} {l : ReceiveLabel} {r i : Nat}

theorem tidy_init (n : Nat) : Tidy (init n) := ⟨rfl, nofun⟩

/-! ## Steps -/

theorem holding_of_idle (hpc : s.pc = .outer ∨ s.pc = .done ∨ ∃ r, s.pc = .drain r) :
    s.holding = [] := by
  rcases hpc with hpc | hpc | ⟨r, hpc⟩ <;> rw [holding, hpc]

theorem holding_atSlot (hpc : s.pc = s.atSlot r i) (hle : i ≤ s.batchSize) :
    s.holding = (s.recvBuffers.take i).reduceOption := by
  unfold atSlot at hpc
  split at hpc
  · rw [holding, hpc]
  · rw [holding, hpc]
    simp only
    rw [List.take_of_length_le (by unfold batchSize at *; omega)]

theorem slot_atSlot (hpc : s.pc = s.atSlot r i) : ∀ r' i', s.pc = .allocate r' i' →
    i' < s.batchSize := by
  intro r' i' heq
  unfold atSlot at hpc
  split at hpc
  case isTrue hlt =>
    rw [hpc] at heq
    obtain ⟨rfl, rfl⟩ := ReceivePc.allocate.inj heq
    exact hlt
  case isFalse =>
    rw [hpc] at heq
    cases heq

theorem reduceOption_set_none (buffers : List (Option Nat)) (i : Nat) :
    (buffers.set i none).reduceOption =
      (buffers.take i).reduceOption ++ (buffers.drop (i + 1)).reduceOption := by
  rcases Nat.lt_or_ge i buffers.length with hlt | hge
  · rw [List.set_eq_take_append_cons_drop, if_pos hlt, List.reduceOption_append,
      List.reduceOption_cons_of_none]
  · rw [List.set_eq_of_length_le hge, List.take_of_length_le hge,
      List.drop_eq_nil_of_le (Nat.le_succ_of_le hge), List.reduceOption_nil, List.append_nil]

theorem take_succ_set {buffers : List (Option Nat)} (hlt : i < buffers.length) (x : Option Nat) :
    (buffers.set i x).take (i + 1) = buffers.take i ++ [x] := by
  rw [List.take_add_one, List.take_set_of_le (Nat.le_refl i), List.getElem?_set_self hlt]
  rfl

/-- A call of `allocate`. -/
theorem allocated_effect {buffer : Option Nat} (hs : Tidy s) (hpc : s.pc = .allocate r i)
    (h : s.allocated r i buffer = some s') :
    Effect s s' (s.NoStale (.allocate buffer)) ∧ ∀ r i, s'.pc = .allocate r i →
    i < s'.batchSize := by
  have hlt := hs.slot r i hpc
  have hholding : s.holding = (s.recvBuffers.take i).reduceOption := by rw [holding, hpc]
  cases buffer with
  | none =>
    obtain rfl := Option.some.inj h
    refine ⟨.give [] (s.recvBuffers.take i).reduceOption
      (s.recvBuffers.drop (i + 1)).reduceOption ?_ hholding rfl ?_, nofun⟩
    · simp only [releaseAll]
      rw [reduceOption_set_none]
      simp [gives]
    · unfold NoStale
      rw [hpc]
  | some buffer =>
    obtain ⟨hfresh, heq⟩ := Option.ite_none_right_eq_some.1 h
    obtain rfl := Option.some.inj heq
    have hsize : (s.recvBuffers.set i (some buffer)).length = s.batchSize := List.length_set
    have hatSlot : ∀ t : ReceiveLoop, t.recvBuffers = s.recvBuffers.set i (some buffer) →
        s.atSlot r (i + 1) = t.atSlot r (i + 1) := by
      intro t ht
      unfold atSlot batchSize
      rw [ht, List.length_set]
    refine ⟨.take buffer hfresh rfl ?_ trivial, slot_atSlot (hatSlot _ rfl)⟩
    have hle : i + 1 ≤ (s.recvBuffers.set i (some buffer)).length := hsize.symm ▸ hlt
    rw [hholding, holding_atSlot (hatSlot _ rfl) hle]
    simp only
    rw [take_succ_set hlt, List.reduceOption_append]
    rfl

theorem receive_pc {timestampNs : BitVec 64} {ds : List Datagram} :
    (s.receive config timestampNs r ds).pc =
      if ds.length < s.batchSize then .outer else .drain (r + 1) := rfl

theorem receive_idle {timestampNs : BitVec 64} {ds : List Datagram} :
    (s.receive config timestampNs r ds).pc = .outer ∨
      (s.receive config timestampNs r ds).pc = .done ∨
      ∃ r', (s.receive config timestampNs r ds).pc = .drain r' := by
  rw [receive_pc]
  split
  · exact .inl rfl
  · exact .inr (.inr ⟨r + 1, rfl⟩)

/-- What follows `recvmmsg`. -/
theorem received_effect {running : Bool} {timestampNs : BitVec 64} {result : RecvResult}
    (hpc : s.pc = .recvmmsg r) (h : s.received config running timestampNs r result = some s') :
    Effect s s' True ∧ ∀ r i, s'.pc = .allocate r i → i < s'.batchSize := by
  have hholding : s.holding = s.recvBuffers.reduceOption := by rw [holding, hpc]
  cases result with
  | failed harmless =>
    obtain rfl := Option.some.inj h
    refine ⟨.give [] s.recvBuffers.reduceOption [] ?_ hholding rfl (iff_of_true trivial rfl), nofun⟩
    simp [releaseAll, gives]
  | datagrams ds =>
    unfold received at h
    simp only at h
    split at h
    · cases h
    · split at h
      · obtain rfl := Option.some.inj h
        refine ⟨.give [] s.recvBuffers.reduceOption [] ?_ hholding rfl (iff_of_true trivial rfl),
          nofun⟩
        simp [releaseAll, gives]
      · obtain rfl := Option.some.inj h
        refine ⟨.give (s.recvBuffers.take ds.length).reduceOption
          (s.recvBuffers.drop ds.length).reduceOption [] ?_ ?_ ?_ (iff_of_true trivial rfl), ?_⟩
        · simp only [receive, releaseAll]
          rw [List.reduceOption_append, List.reduceOption_replicate_none]
          simp [gives]
        · rw [hholding, ← List.reduceOption_append, List.take_append_drop]
        · exact holding_of_idle receive_idle
        · intro r' i' hpc'
          rw [receive_pc] at hpc'
          split at hpc' <;> cases hpc'

/-- **One step** of the loop. -/
theorem step_effect (hs : Tidy s) (h : s.step config l = some s') :
    Effect s s' (s.NoStale l) ∧ ∀ r i, s'.pc = .allocate r i → i < s'.batchSize := by
  unfold step at h
  cases l with
  | load running =>
    simp only at h
    split at h
    case h_1 hpc =>
      obtain rfl := Option.some.inj h
      refine ⟨.keep rfl ?_ trivial, ?_⟩
      · rw [holding_of_idle (.inl hpc)]
        cases running <;> rfl
      · cases running <;> exact nofun
    case h_2 drainRound hpc =>
      obtain rfl := Option.some.inj h
      have hidle := holding_of_idle (.inr (.inr ⟨drainRound, hpc⟩))
      by_cases hgo : drainRound < drainRounds config ∧ running = true
      · rw [if_pos hgo]
        refine ⟨.keep rfl ?_ trivial, slot_atSlot rfl⟩
        rw [hidle, holding_atSlot rfl (Nat.zero_le _)]
        rfl
      · rw [if_neg hgo]
        exact ⟨.keep rfl hidle.symm trivial, nofun⟩
    case h_3 => cases h
  | allocate buffer =>
    simp only at h
    split at h
    case h_1 drainRound i hpc => exact allocated_effect hs hpc h
    case h_2 => cases h
  | recvmmsg result running timestampNs =>
    simp only at h
    split at h
    case h_1 drainRound hpc => exact received_effect hpc h
    case h_2 => cases h
  | drop buffer =>
    obtain ⟨-, heq⟩ := Option.ite_none_right_eq_some.1 h
    obtain rfl := Option.some.inj heq
    exact ⟨.keep rfl rfl trivial, hs.slot⟩

theorem fresh_held {buffer : Nat} (hfresh : s.fresh buffer = true) :
    buffer ∉ Ledger.held s.trace := by
  have hnot := (Bool.and_eq_true_iff.1 hfresh).1
  intro hmem
  rw [List.contains_iff_mem.2 hmem] at hnot
  cases hnot

/-- The buffers held follow the trace. -/
theorem tidy_step (hs : Tidy s) (h : s.step config l = some s') : Tidy s' := by
  obtain ⟨heffect, hslot⟩ := step_effect hs h
  refine ⟨?_, hslot⟩
  cases heffect with
  | keep htrace hholding =>
    rw [htrace, hholding]
    exact hs.held
  | take buffer hfresh htrace hholding =>
    rw [htrace, hholding, held_append, hs.held]
    rfl
  | give moved rest stale htrace hheld hholding =>
    rw [htrace, hholding, held_append, hs.held, hheld, heldFrom_append, heldFrom_give,
      heldFrom_append, heldFrom_give_all]
    exact heldFrom_nil_give _

/-- **A step** returns only what is held exactly when no stale pointer is met. -/
theorem proper_step (hs : Tidy s) (h : s.step config l = some s') :
    Proper s'.trace ↔ Proper s.trace ∧ s.NoStale l := by
  obtain ⟨heffect, -⟩ := step_effect hs h
  cases heffect with
  | keep htrace _ hstale =>
    rw [htrace]
    exact (and_iff_left hstale).symm
  | take buffer hfresh htrace _ hstale =>
    rw [htrace, proper_append, and_iff_left hstale]
    exact and_iff_left ⟨fresh_held hfresh, trivial⟩
  | give moved rest stale htrace hheld _ hstale =>
    rw [htrace, proper_append, hs.held, hheld, properFrom_append, heldFrom_give,
      properFrom_append, heldFrom_give_all, properFrom_nil_give, hstale]
    constructor
    · rintro ⟨hp, -, -, hnil⟩
      exact ⟨hp, hnil⟩
    · rintro ⟨hp, hnil⟩
      exact ⟨hp, properFrom_give _, properFrom_give_all _, hnil⟩

/-! ## Runs -/

theorem returnsOnce_iff (hs : Tidy s) : s.ReturnsOnce ↔ Proper s.trace := by
  constructor
  · exact fun h => h.proper
  · intro hproper
    refine ⟨hproper, fun buffer htake => ?_, fun hdone => ?_⟩
    · rw [← hs.held]
      exact hproper.fate htake
    · rw [hs.held]
      exact holding_of_idle (.inr (.inl hdone))

end

/-- **Receive buffers are returned exactly once**, and none is held at the end, exactly when no
allocation failed with a pointer left behind its slot. -/
theorem receiveLoop_returns_once_iff (config : ArrayFaceReceiverConfig) (batchSize : Nat)
    {ls : List ReceiveLabel} {s : ReceiveLoop}
    (hrun : Machine.exec (step config) (init batchSize) ls = some s) :
    s.ReturnsOnce ↔ Machine.Along (step config) NoStale (init batchSize) ls := by
  obtain ⟨htidy, hiff⟩ := Machine.exec_along_iff (I := Tidy) (G := fun s => Proper s.trace)
    (fun _ _ _ hs hstep => tidy_step hs hstep) (fun _ _ _ hs hstep => proper_step hs hstep)
    (tidy_init batchSize) hrun
  exact (returnsOnce_iff htidy).trans (hiff.trans (and_iff_right trivial))

/-- Two slots: a round of one datagram, and a round whose first allocation fails. -/
def shortRound : List ReceiveLabel :=
  [.load true, .load true, .allocate (some 1), .allocate (some 2),
    .recvmmsg (.datagrams [⟨[], []⟩]) true 0, .load true, .load true, .allocate none]

theorem shortRound_isSome : (Machine.exec (step {}) (init 2) shortRound).isSome = true := by
  decide +kernel

theorem shortRound_iff : ∃ s, Machine.exec (step {}) (init 2) shortRound = some s ∧
    (s.ReturnsOnce ↔ Machine.Along (step {}) NoStale (init 2) shortRound) := by
  obtain ⟨s, hrun⟩ := Option.isSome_iff_exists.1 shortRound_isSome
  exact ⟨s, hrun, receiveLoop_returns_once_iff {} 2 hrun⟩

/-- **The second buffer is deallocated twice.** -/
theorem shortRound_twice : ∃ s, Machine.exec (step {}) (init 2) shortRound = some s ∧
    fate 2 s.trace = [.deallocated, .deallocated] ∧ ¬ s.ReturnsOnce := by
  have hfate : (Machine.exec (step {}) (init 2) shortRound).map
      (fun s => (fate 2 s.trace, decide (.take 2 ∈ s.trace))) =
        some ([.deallocated, .deallocated], true) := by
    decide +kernel
  obtain ⟨s, hrun, hpair⟩ := Option.map_eq_some_iff.1 hfate
  obtain ⟨hfate, htake⟩ := Prod.mk.inj hpair
  refine ⟨s, hrun, hfate, fun honce => ?_⟩
  rcases honce.fate 2 (of_decide_eq_true htake) with ⟨-, hnone⟩ | ⟨-, how, hone⟩
  · rw [hfate] at hnone
    cases hnone
  · rw [hfate] at hone
    cases hone

end ReceiveLoop

end Qdgz300.Network
