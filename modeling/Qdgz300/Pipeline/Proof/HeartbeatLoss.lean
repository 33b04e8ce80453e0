import Mathlib.Algebra.Group.Int.Defs
import Mathlib.Data.Finset.Card
import Qdgz300.Pipeline.Proof.Dispatch

/-!
# The loss count of heartbeats

`loss_total` grows by the numbers that a heartbeat skips, compared with the heartbeat before it. In
positions relative to the first heartbeat it is the total size of the jumps (`run_lossTotal`). The
count has no memory beyond the last number: a skipped heartbeat that arrives late stays counted, and
a late one becomes the last number, so that the next jump may skip numbers that have arrived. Where
no skipped number arrives and none is skipped twice, the count is at most what is missing, in every
state of a run (**`heartbeat_loss_le_missing`**).
-/

namespace Qdgz300.Pipeline

open Protocol

namespace Dispatcher

/-! ## Positions and jumps -/

/-- The place of a sequence number in serial order, from `first` on. -/
def serialPosition (first seq : BitVec 32) : Int := (seq - first).toInt

/-- The positions strictly between two. -/
def between (a b : Int) : Finset Int :=
  (Finset.range (b - a - 1).toNat).image fun k : Nat => a + 1 + k

@[simp] theorem mem_between {a b p : Int} : p ∈ between a b ↔ a < p ∧ p < b := by
  simp only [between, Finset.mem_image, Finset.mem_range]
  refine ⟨?_, ?_⟩
  · rintro ⟨k, hk, rfl⟩
    omega
  · rintro ⟨hlow, hhigh⟩
    exact ⟨(p - a - 1).toNat, by omega, by omega⟩

@[simp] theorem card_between (a b : Int) : (between a b).card = (b - a - 1).toNat := by
  have hinjective : Function.Injective fun k : Nat => a + 1 + (k : Int) := by
    intro j k h
    simp only at h
    omega
  rw [between, Finset.card_image_of_injective _ hinjective, Finset.card_range]

/-- The positions that a step from `a` to `b` skips; a step by half of the range or more is taken
for a late heartbeat. -/
def skips (a b : Int) : Finset Int := if b - a < 2 ^ 31 then between a b else ∅

/-- What each heartbeat skips after the one before it. -/
def jumps : List Int → List (Finset Int)
  | a :: b :: positions => skips a b :: jumps (b :: positions)
  | _ => []

/-- The positions strictly between the lowest and the highest one seen that did not arrive. The
first heartbeat has position 0. -/
def missing (positions : List Int) : Finset Int :=
  (between (positions.foldl min 0) (positions.foldl max 0)).filter (· ∉ positions)

/-- No skipped position arrives, and none is skipped twice. -/
def SkippedOnce (positions : List Int) : Prop :=
  (jumps positions).Pairwise Disjoint ∧ ∀ jump ∈ jumps positions, ∀ p ∈ positions, p ∉ jump

/-- A fold bounds its start and every element, in the order that its operation bounds its
arguments. -/
theorem foldl_bounds {op : Int → Int → Int} {R : Int → Int → Prop} (hrefl : ∀ x, R x x)
    (htrans : ∀ x y z, R x y → R y z → R x z) (hleft : ∀ x y, R (op x y) x)
    (hright : ∀ x y, R (op x y) y) {positions : List Int} {a p : Int} (hp : p ∈ a :: positions) :
    R (positions.foldl op a) p := by
  induction positions generalizing a p with
  | nil =>
    rw [List.mem_singleton] at hp
    exact hp ▸ hrefl a
  | cons b positions ih =>
    rw [List.foldl_cons]
    have hstart : R (positions.foldl op (op a b)) (op a b) := ih List.mem_cons_self
    rw [List.mem_cons, List.mem_cons] at hp
    obtain rfl | rfl | hp := hp
    · exact htrans _ _ _ hstart (hleft p b)
    · exact htrans _ _ _ hstart (hright a p)
    · exact ih (List.mem_cons_of_mem _ hp)

theorem foldl_min_le {positions : List Int} {p : Int} (hp : p ∈ positions) :
    positions.foldl min 0 ≤ p :=
  foldl_bounds (R := (· ≤ ·)) Int.le_refl (fun _ _ _ => Int.le_trans) Int.min_le_left
    Int.min_le_right (List.mem_cons_of_mem 0 hp)

theorem le_foldl_max {positions : List Int} {p : Int} (hp : p ∈ positions) :
    p ≤ positions.foldl max 0 :=
  foldl_bounds (R := (· ≥ ·)) Int.le_refl (fun _ _ _ hxy hyz => Int.le_trans hyz hxy)
    Int.le_max_left
    Int.le_max_right (List.mem_cons_of_mem 0 hp)

/-- A jump lies between two positions that were seen. -/
theorem jumps_between {positions : List Int} {jump : Finset Int} (hjump : jump ∈ jumps positions)
    {p : Int} (hp : p ∈ jump) : ∃ a ∈ positions, ∃ b ∈ positions, a < p ∧ p < b := by
  induction positions using jumps.induct with
  | case1 a b positions ih =>
    rw [jumps, List.mem_cons] at hjump
    obtain rfl | hjump := hjump
    · rw [skips] at hp
      split at hp
      · exact ⟨a, List.mem_cons_self, b, by simp, mem_between.1 hp⟩
      · exact absurd hp (Finset.notMem_empty p)
    · obtain ⟨x, hx, y, hy, hxy⟩ := ih hjump
      exact ⟨x, List.mem_cons_of_mem a hx, y, List.mem_cons_of_mem a hy, hxy⟩
  | case2 positions hshort =>
    rw [jumps] at hjump
    · exact absurd hjump List.not_mem_nil
    · exact hshort

/-- Disjoint parts of a set are together no larger than it. -/
theorem sum_card_le {parts : List (Finset Int)} {whole : Finset Int}
    (hdisjoint : parts.Pairwise Disjoint) (hpart : ∀ part ∈ parts, part ⊆ whole) :
    (parts.map Finset.card).sum ≤ whole.card := by
  induction parts generalizing whole with
  | nil => exact Nat.zero_le _
  | cons part parts ih =>
    obtain ⟨hfirst, hrest⟩ := List.pairwise_cons.1 hdisjoint
    have hwithin : ∀ other ∈ parts, other ⊆ whole \ part := by
      intro other hother
      exact Finset.subset_sdiff.2
        ⟨hpart other (List.mem_cons_of_mem part hother), (hfirst other hother).symm⟩
    have hcard := Finset.card_sdiff_add_card_eq_card (hpart part List.mem_cons_self)
    have := ih hrest hwithin
    rw [List.map_cons, List.sum_cons]
    omega

theorem SkippedOnce.sum_le {positions : List Int} (h : SkippedOnce positions) :
    ((jumps positions).map Finset.card).sum ≤ (missing positions).card := by
  apply sum_card_le h.1
  intro jump hjump p hp
  obtain ⟨a, ha, b, hb, hap, hpb⟩ := jumps_between hjump hp
  rw [missing, Finset.mem_filter, mem_between]
  have hlow := foldl_min_le ha
  have hhigh := le_foldl_max hb
  exact ⟨⟨by omega, by omega⟩, fun hseen => h.2 jump hjump p hseen hp⟩

theorem jumps_take (n : Nat) (positions : List Int) :
    jumps (positions.take (n + 1)) = (jumps positions).take n := by
  induction positions using jumps.induct generalizing n with
  | case1 a b positions ih =>
    cases n with
    | zero => rfl
    | succ n =>
      have := ih n
      rw [List.take_succ_cons] at this
      rw [List.take_succ_cons, List.take_succ_cons, jumps, jumps, List.take_succ_cons, this]
  | case2 positions hshort =>
    cases positions with
    | nil => simp [jumps]
    | cons a positions =>
      cases positions with
      | nil => simp [jumps]
      | cons b positions => exact absurd rfl (hshort a b positions)

theorem SkippedOnce.take {positions : List Int} (h : SkippedOnce positions) (n : Nat) :
    SkippedOnce (positions.take n) := by
  cases n with
  | zero => exact ⟨List.Pairwise.nil, fun _ hjump => absurd hjump List.not_mem_nil⟩
  | succ n =>
    rw [SkippedOnce, jumps_take]
    refine ⟨h.1.sublist (List.take_sublist n _), ?_⟩
    intro jump hjump p hp
    exact h.2 jump (List.mem_of_mem_take hjump) p (List.mem_of_mem_take hp)

/-! ## The count -/

/-- What a heartbeat adds to the count is the size of its jump, near the first number. -/
theorem gap_eq_card {first last seq : BitVec 32}
    (hlast : (serialPosition first last).natAbs ≤ 2 ^ 30)
    (hseq : (serialPosition first seq).natAbs ≤ 2 ^ 30) :
    (if 1 < (seq - last).toNat ∧ (seq - last).toNat < 2 ^ 31 then (seq - last).toNat - 1 else 0) =
      (skips (serialPosition first last) (serialPosition first seq)).card := by
  have hdelta : seq - last = (seq - first) - (last - first) := by
    apply BitVec.eq_of_toNat_eq
    simp only [BitVec.toNat_sub]
    omega
  rw [hdelta]
  simp only [serialPosition] at *
  generalize seq - first = x at *
  generalize last - first = y at *
  have hx := BitVec.toInt_eq_toNat_cond x
  have hy := BitVec.toInt_eq_toNat_cond y
  have hxlt := x.isLt
  have hylt := y.isLt
  rw [BitVec.toNat_sub, skips]
  split_ifs at hx hy ⊢ <;> simp only [card_between, Finset.card_empty] <;> omega

/-- The sequence number of a turn. -/
def seqOf (turn : BitVec 64 × ParsedPacket) : BitVec 32 := turn.2.header.sequenceNumber

/-- The positions of a run's heartbeats, relative to its first. -/
def positionsOf (turns : List (BitVec 64 × ParsedPacket)) : List Int :=
  turns.map fun turn => serialPosition ((turns.map seqOf).headD 0) (seqOf turn)

/-- After a heartbeat with the number `last`, the count grows by the sizes of the jumps. -/
theorem run_lossTotal {turns : List (BitVec 64 × ParsedPacket)} {d : Dispatcher}
    {first last : BitVec 32} (hhas : d.hasLastHeartbeatSeq = true)
    (hlast : d.lastHeartbeatSeq = last) (hvalid : ∀ turn ∈ turns, ValidHeartbeat turn.2)
    (hstart : (serialPosition first last).natAbs ≤ 2 ^ 30)
    (hnear : ∀ turn ∈ turns, (serialPosition first (seqOf turn)).natAbs ≤ 2 ^ 30) :
    (d.dispatchBatch turns).1.heartbeatStats.lossTotal = d.heartbeatStats.lossTotal +
      ((jumps (serialPosition first last ::
        turns.map fun turn => serialPosition first (seqOf turn))).map Finset.card).sum := by
  induction turns generalizing d last with
  | nil => rfl
  | cons turn turns ih =>
    have hfirst := hnear turn List.mem_cons_self
    have hstep := congrArg Prod.fst (dispatch_valid (d := d) turn.1 (hvalid turn List.mem_cons_self))
    have hgap : d.heartbeatGap turn.2.header.sequenceNumber =
        (skips (serialPosition first last) (serialPosition first (seqOf turn))).card := by
      rw [← gap_eq_card hstart hfirst, heartbeatGap, hhas, hlast]
      simp only [true_and, seqOf]
      congr
    have hrest := ih (d := (d.dispatch turn.1 turn.2).1) (by rw [hstep]; rfl)
      (by rw [hstep]; rfl) (fun t ht => hvalid t (List.mem_cons_of_mem turn ht)) hfirst
      fun t ht => hnear t (List.mem_cons_of_mem turn ht)
    have hcount : (d.dispatch turn.1 turn.2).1.heartbeatStats.lossTotal =
        d.heartbeatStats.lossTotal + d.heartbeatGap turn.2.header.sequenceNumber := by
      rw [hstep]
      rfl
    rw [hcount, hgap] at hrest
    rw [List.map_cons, jumps, List.map_cons, List.sum_cons, ← Nat.add_assoc, ← hrest]
    rfl

/-- The count of a fresh dispatcher is the total size of the jumps. -/
theorem new_lossTotal (dataHandler heartbeatHandler : Bool)
    {turns : List (BitVec 64 × ParsedPacket)} (hvalid : ∀ turn ∈ turns, ValidHeartbeat turn.2)
    (hnear : ∀ p ∈ positionsOf turns, p.natAbs ≤ 2 ^ 30) :
    ((Dispatcher.new dataHandler heartbeatHandler).dispatchBatch turns).1.heartbeatStats.lossTotal =
      ((jumps (positionsOf turns)).map Finset.card).sum := by
  cases turns with
  | nil => rfl
  | cons turn turns =>
    have hself : serialPosition (seqOf turn) (seqOf turn) = 0 := by
      rw [serialPosition, BitVec.sub_self, BitVec.toInt_zero]
    have hpositions : positionsOf (turn :: turns) =
        0 :: turns.map fun t => serialPosition (seqOf turn) (seqOf t) := by
      rw [← hself]
      rfl
    rw [hpositions] at hnear ⊢
    have hstep := congrArg Prod.fst (dispatch_valid
      (d := .new dataHandler heartbeatHandler) turn.1 (hvalid turn List.mem_cons_self))
    have hhas : ((Dispatcher.new dataHandler heartbeatHandler).dispatch turn.1
        turn.2).1.hasLastHeartbeatSeq = true := by
      rw [hstep]
      rfl
    have hlast : ((Dispatcher.new dataHandler heartbeatHandler).dispatch turn.1
        turn.2).1.lastHeartbeatSeq = seqOf turn := by
      rw [hstep]
      rfl
    have hzero : ((Dispatcher.new dataHandler heartbeatHandler).dispatch turn.1
        turn.2).1.heartbeatStats.lossTotal = 0 := by
      rw [hstep]
      simp [acceptHeartbeat, heartbeatGap, Dispatcher.new]
    have hrest := run_lossTotal hhas hlast (fun t ht => hvalid t (List.mem_cons_of_mem turn ht))
      (by rw [hself]; decide) fun t ht => hnear _ (List.mem_cons_of_mem 0 (List.mem_map_of_mem ht))
    rw [hzero, Nat.zero_add, hself] at hrest
    exact hrest

theorem positionsOf_take (turns : List (BitVec 64 × ParsedPacket)) (n : Nat) :
    positionsOf (turns.take n) = (positionsOf turns).take n := by
  cases turns with
  | nil => simp [positionsOf]
  | cons turn turns =>
    cases n with
    | zero => rfl
    | succ n => simp [positionsOf, List.map_take]

/-- **The loss count is no more than what is missing**, in every state of a run of valid heartbeats
on a fresh dispatcher, when no number that is skipped arrives and none is skipped twice. -/
theorem heartbeat_loss_le_missing (dataHandler heartbeatHandler : Bool)
    {turns : List (BitVec 64 × ParsedPacket)} (hvalid : ∀ turn ∈ turns, ValidHeartbeat turn.2)
    (hnear : ∀ p ∈ positionsOf turns, p.natAbs ≤ 2 ^ 30) (honce : SkippedOnce (positionsOf turns))
    (n : Nat) :
    ((Dispatcher.new dataHandler heartbeatHandler).dispatchBatch
        (turns.take n)).1.heartbeatStats.lossTotal ≤
      (missing ((positionsOf turns).take n)).card := by
  have hvalid' : ∀ turn ∈ turns.take n, ValidHeartbeat turn.2 := fun turn hturn =>
    hvalid turn (List.mem_of_mem_take hturn)
  have hnear' : ∀ p ∈ positionsOf (turns.take n), p.natAbs ≤ 2 ^ 30 := by
    rw [positionsOf_take]
    exact fun p hp => hnear p (List.mem_of_mem_take hp)
  rw [new_lossTotal dataHandler heartbeatHandler hvalid' hnear', positionsOf_take]
  exact (honce.take n).sum_le

/-- A valid heartbeat with the number `seq`. -/
def heartbeatNumbered (seq : BitVec 32) : ParsedPacket :=
  { zeroHeartbeatPacket with header := { zeroHeartbeatPacket.header with sequenceNumber := seq } }

theorem heartbeatNumbered_valid (seq : BitVec 32) : ValidHeartbeat (heartbeatNumbered seq) :=
  zeroHeartbeat_valid

theorem loss_in_order :
    ((Dispatcher.new true true).dispatchBatch
        [(0, heartbeatNumbered 1), (0, heartbeatNumbered 4)]).1.heartbeatStats.lossTotal ≤
      (missing [0, 3]).card := by
  have hvalid : ∀ turn ∈ [((0 : BitVec 64), heartbeatNumbered 1), (0, heartbeatNumbered 4)],
      ValidHeartbeat turn.2 := by
    simp [heartbeatNumbered_valid]
  have hpositions : positionsOf [(0, heartbeatNumbered 1), (0, heartbeatNumbered 4)] = [0, 3] := by
    decide +kernel
  have hloss := heartbeat_loss_le_missing true true hvalid (by rw [hpositions]; decide)
    (by rw [hpositions]; exact ⟨by decide +kernel, by decide +kernel⟩) 2
  rw [hpositions, List.take_of_length_le (Nat.le_refl 2),
    List.take_of_length_le (Nat.le_refl 2)] at hloss
  exact hloss

/-- Heartbeats with the numbers 1, 3, 2, 4. -/
def lateSecond : List (BitVec 64 × ParsedPacket) :=
  [(0, heartbeatNumbered 1), (0, heartbeatNumbered 3), (0, heartbeatNumbered 2),
    (0, heartbeatNumbered 4)]

/-- A late heartbeat becomes the last number: all four arrive, and two are counted as lost. -/
theorem loss_over_reported :
    (∀ turn ∈ lateSecond, ValidHeartbeat turn.2) ∧ positionsOf lateSecond = [0, 2, 1, 3] ∧
      (missing (positionsOf lateSecond)).card = 0 ∧
      ((Dispatcher.new true true).dispatchBatch lateSecond).1.heartbeatStats.lossTotal = 2 := by
  refine ⟨by simp [lateSecond, heartbeatNumbered_valid], by decide +kernel, by decide +kernel,
    by decide +kernel⟩

end Dispatcher

end Qdgz300.Pipeline
