import Qdgz300.Common.MemoryPool
import Qdgz300.Lib.LockFree

/-!
# When the object pool is safe

`allocate` compares the head and installs a successor that it read before. In between, other threads
can take the head, take further blocks and push the head back: the comparison succeeds and the
successor is a block that somebody owns (`staleNext_ownedTwice`). In a run where every successful
exchange of an `allocate` finds the successor it read still in place (`nextInPlace`), each block is
free, owned or in the hands of one thread (`Inv`).
-/

namespace Qdgz300.Common.NUMAPool

open LockFree

/-- Where `allocate` is about to take the head, the head's link is still the one it read. -/
def nextInPlace (s : Sys) : Label → Bool
  | .access t false =>
    match s.threads[t]? with
    | some (.unlink head next) => s.pool.freeHead != some head || s.pool.next head == next
    | _ => true
  | _ => true

/-- The block that a thread has taken off the list or is about to put on it. -/
def Pc.inHand : Pc → List Nat
  | .decAvailable head => [head]
  | .writeNext node _ | .push node _ => [node]
  | _ => []

/-- How often `i` is among them. -/
def Pc.holds (i : Nat) (pc : Pc) : Nat := pc.inHand.count i

/-- The decrement of `available_` that is still to come. -/
def Pc.owesDec : Pc → Nat
  | .decAvailable _ => 1
  | _ => 0

/-- The increment of `available_` that is still to come. -/
def Pc.owesInc : Pc → Nat
  | .incAvailable => 1
  | _ => 0

/-- The node carries the head that the exchange will compare. -/
def Pc.Linked (next : Nat → Option Nat) : Pc → Prop
  | .push node oldHead => next node = oldHead
  | _ => True

structure Inv (n : Nat) (s : Sys) (free : List Nat) : Prop where
  chain : Chain s.pool.next s.pool.freeHead free
  parts : ∀ i, free.count i + s.owned.count i + total (Pc.holds i) s.threads =
    (List.range n).count i
  linked : ∀ (j : Nat) t, s.threads[j]? = some t → t.Linked s.pool.next
  available : (s.pool.available.toNat + total Pc.owesInc s.threads) % 2 ^ 64 =
    (free.length + total Pc.owesDec s.threads) % 2 ^ 64

section
variable {n : Nat} {s : Sys} {free : List Nat} {t : Nat}

theorem Inv.count_le (h : Inv n s free) (i : Nat) :
    free.count i + s.owned.count i + total (Pc.holds i) s.threads ≤ 1 := by
  rw [h.parts i]
  exact List.nodup_iff_count.1 List.nodup_range i

theorem Inv.inHand_not_mem (h : Inv n s free) {pc : Pc} {node : Nat}
    (ht : s.threads[t]? = some pc) (hnode : pc.inHand = [node]) : node ∉ free := by
  intro hmem
  have hle := h.count_le node
  have hhand := le_total (f := Pc.holds node) ht
  have hfree := List.count_pos_iff.2 hmem
  simp only [Pc.holds, hnode, List.count_singleton_self] at hhand
  omega

theorem Inv.owned_not_mem (h : Inv n s free) {b : Nat} (hb : b ∈ s.owned) : b ∉ free := by
  intro hmem
  have hle := h.count_le b
  have hfree := List.count_pos_iff.2 hmem
  have howned := List.count_pos_iff.2 hb
  omega

theorem linked_update {next : Nat → Option Nat} {block : Nat} {q : Pc} (hlinked : q.Linked next)
    (hnot : block ∉ q.inHand) (v : Option Nat) : q.Linked (Function.update next block v) := by
  cases q with
  | push node oldHead =>
    have hne : node ≠ block := by
      rintro rfl
      exact hnot List.mem_cons_self
    exact (Function.update_of_ne hne _ _).trans hlinked
  | _ => trivial

/-- A thread's step that changes neither the list nor what is owned or in hand. -/
theorem Inv.move (h : Inv n s free) {pc : Pc} (ht : s.threads[t]? = some pc) (pc' : Pc)
    (hhand : pc'.inHand = pc.inHand) (hlinked : pc'.Linked s.pool.next)
    (hdec : pc'.owesDec = pc.owesDec) (avail : BitVec 64)
    (havail : (avail.toNat + pc'.owesInc) % 2 ^ 64 = (s.pool.available.toNat + pc.owesInc) % 2 ^ 64) :
    Inv n { s with
      pool := { s.pool with available := avail }
      threads := s.threads.set t pc' } free := by
  have hinc := total_set (f := Pc.owesInc) ht pc'
  have hsum := h.available
  refine ⟨h.chain, ?_, of_set (fun j q hj _ => h.linked j q hj) hlinked, ?_⟩
  · intro i
    rw [total_set_eq ht pc' (by rw [Pc.holds, Pc.holds, hhand])]
    exact h.parts i
  · simp only [total_set_eq ht pc' hdec]
    omega

theorem Pc.loaded_clear (head : Option Nat) (next : Nat → Option Nat) :
    (Pc.loaded head).inHand = [] ∧ (Pc.loaded head).Linked next ∧ (Pc.loaded head).owesDec = 0 ∧
      (Pc.loaded head).owesInc = 0 := by
  cases head <;> exact ⟨rfl, trivial, rfl, rfl⟩

theorem Inv.loaded (h : Inv n s free) {pc : Pc} (ht : s.threads[t]? = some pc)
    (hhand : pc.inHand = []) (hdec : pc.owesDec = 0) (hinc : pc.owesInc = 0) :
    Inv n { s with threads := s.threads.set t (.loaded s.pool.freeHead) } free := by
  obtain ⟨hhand', hlinked, hdec', hinc'⟩ := Pc.loaded_clear s.pool.freeHead s.pool.next
  exact h.move ht (.loaded s.pool.freeHead) (hhand'.trans hhand.symm) hlinked
    (hdec'.trans hdec.symm)
    s.pool.available (by rw [hinc, hinc'])

/-- **The exchange of `allocate`**, when the successor it read is in place. -/
theorem Inv.unlink (h : Inv n s free) {head : Nat} {next : Option Nat}
    (ht : s.threads[t]? = some (.unlink head next)) (hhead : s.pool.freeHead = some head)
    (hnext : s.pool.next head = next) :
    Inv n { s with
      pool := { s.pool with freeHead := next }
      threads := s.threads.set t (.decAvailable head) } free.tail := by
  have hchain := h.chain
  rw [hhead] at hchain
  obtain ⟨rest, rfl, hrest⟩ := hchain.pop
  rw [hnext] at hrest
  have hdec := total_set (f := Pc.owesDec) ht (.decAvailable head)
  have hsum := h.available
  refine ⟨hrest, ?_, of_set (fun j q hj _ => h.linked j q hj) trivial, ?_⟩
  · intro i
    have hset := total_set (f := Pc.holds i) ht (.decAvailable head)
    have hparts := h.parts i
    simp only [Pc.holds, Pc.inHand, List.count_nil, List.count_cons, List.tail_cons] at hset hparts ⊢
    omega
  · simp only [total_set_eq ht (.decAvailable head) (f := Pc.owesInc) rfl]
    simp only [Pc.owesDec, List.length_cons, List.tail_cons] at hdec hsum ⊢
    omega

/-- The return of `allocate`: the block has a new owner. -/
theorem Inv.decAvailable (h : Inv n s free) {head : Nat}
    (ht : s.threads[t]? = some (.decAvailable head)) :
    Inv n { s with
      pool := { s.pool with available := s.pool.available - 1 }
      threads := s.threads.set t .idle
      owned := head :: s.owned } free := by
  have hdec := total_set (f := Pc.owesDec) ht .idle
  have hsum := h.available
  refine ⟨h.chain, ?_, of_set (fun j q hj _ => h.linked j q hj) trivial, ?_⟩
  · intro i
    have hset := total_set (f := Pc.holds i) ht .idle
    have hparts := h.parts i
    simp only [Pc.holds, Pc.inHand, List.count_nil, List.count_cons] at hset ⊢
    omega
  · simp only [total_set_eq ht .idle (f := Pc.owesInc) rfl, toNat_sub_one]
    simp only [Pc.owesDec] at hdec ⊢
    omega

/-- The call of `deallocate`: the block has no owner any more. -/
theorem Inv.deallocate (h : Inv n s free) {node : Nat} (ht : s.threads[t]? = some .idle)
    (howned : node ∈ s.owned) (oldHead : Option Nat) :
    Inv n { s with
      threads := s.threads.set t (.writeNext node oldHead)
      owned := s.owned.erase node } free := by
  refine ⟨h.chain, ?_, of_set (fun j q hj _ => h.linked j q hj) trivial, ?_⟩
  · intro i
    have hset := total_set (f := Pc.holds i) ht (.writeNext node oldHead)
    have hparts := h.parts i
    have herase := count_erase_add howned i
    simp only [Pc.holds, Pc.inHand, List.count_nil] at hset ⊢
    omega
  · simp only [total_set_eq ht (.writeNext node oldHead) (f := Pc.owesInc) rfl,
      total_set_eq ht (.writeNext node oldHead) (f := Pc.owesDec) rfl]
    exact h.available

/-- `node->next.store(old_head)`. -/
theorem Inv.writeNext (h : Inv n s free) {node : Nat} {oldHead : Option Nat}
    (ht : s.threads[t]? = some (.writeNext node oldHead)) :
    Inv n { s with
      pool := { s.pool with next := Function.update s.pool.next node oldHead }
      threads := s.threads.set t (.push node oldHead) } free := by
  refine ⟨h.chain.update (h.inHand_not_mem ht rfl) oldHead, ?_, ?_, ?_⟩
  · intro i
    rw [total_set_eq ht (.push node oldHead) rfl]
    exact h.parts i
  · refine of_set ?_ (Function.update_self _ _ _)
    intro j q hj hne
    apply linked_update (h.linked j q hj)
    intro hmem
    -- Two threads cannot hold the same block.
    have hle := h.count_le node
    have hboth := add_le_total (f := Pc.holds node) hj ht hne
    have hpos := List.count_pos_iff.2 hmem
    simp only [Pc.holds, Pc.inHand, List.count_singleton_self] at hboth hpos
    omega
  · simp only [total_set_eq ht (.push node oldHead) (f := Pc.owesInc) rfl,
      total_set_eq ht (.push node oldHead) (f := Pc.owesDec) rfl]
    exact h.available

/-- **The exchange of `deallocate`**: the block is the new head. -/
theorem Inv.push (h : Inv n s free) {node : Nat} {oldHead : Option Nat}
    (ht : s.threads[t]? = some (.push node oldHead)) (hhead : s.pool.freeHead = oldHead) :
    Inv n { s with
      pool := { s.pool with freeHead := some node }
      threads := s.threads.set t .incAvailable } (node :: free) := by
  have hlink : s.pool.next node = s.pool.freeHead := (h.linked t _ ht).trans hhead.symm
  have hinc := total_set (f := Pc.owesInc) ht .incAvailable
  have hsum := h.available
  refine ⟨h.chain.push hlink, ?_, of_set (fun j q hj _ => h.linked j q hj) trivial, ?_⟩
  · intro i
    have hset := total_set (f := Pc.holds i) ht .incAvailable
    have hparts := h.parts i
    simp only [Pc.holds, Pc.inHand, List.count_nil, List.count_cons] at hset ⊢
    omega
  · simp only [total_set_eq ht .incAvailable (f := Pc.owesDec) rfl, List.length_cons]
    simp only [Pc.owesInc] at hinc
    omega

theorem Inv.use (h : Inv n s free) {block : Nat} (howned : block ∈ s.owned) (word : Option Nat) :
    Inv n { s with pool := { s.pool with next := Function.update s.pool.next block word } }
      free := by
  refine ⟨h.chain.update (h.owned_not_mem howned) word, h.parts, ?_, h.available⟩
  intro j q hj
  apply linked_update (h.linked j q hj)
  intro hmem
  have hle := h.count_le block
  have hhand := le_total (f := Pc.holds block) hj
  have hpos := List.count_pos_iff.2 hmem
  have hcount := List.count_pos_iff.2 howned
  simp only [Pc.holds] at hhand
  omega

/-- **The next access of a thread.** -/
theorem Inv.access (h : Inv n s free) {spurious : Bool} {s' : Sys}
    (hplace : nextInPlace s (.access t spurious) = true) (hs : access s t spurious = some s') :
    ∃ free', Inv n s' free' := by
  unfold NUMAPool.access at hs
  cases ht : s.threads[t]? with
  | none =>
    rw [ht] at hs
    cases hs
  | some pc =>
    cases pc with
    | idle =>
      rw [ht] at hs
      cases hs
    | readNext head =>
      simp only [ht, Option.some.injEq] at hs
      subst hs
      exact ⟨free, h.move ht (.unlink head (s.pool.next head)) rfl trivial rfl _ rfl⟩
    | unlink head next =>
      simp only [ht] at hs
      split_ifs at hs with hcas
      · obtain rfl := Option.some.inj hs
        obtain ⟨hhead, rfl⟩ := hcas
        simp only [nextInPlace, ht, hhead, bne_self_eq_false, Bool.false_or, beq_iff_eq] at hplace
        exact ⟨free.tail, h.unlink ht hhead hplace⟩
      · obtain rfl := Option.some.inj hs
        exact ⟨free, h.loaded ht rfl rfl rfl⟩
    | decAvailable head =>
      simp only [ht, Option.some.injEq] at hs
      subst hs
      exact ⟨free, h.decAvailable ht⟩
    | writeNext node oldHead =>
      simp only [ht, Option.some.injEq] at hs
      subst hs
      exact ⟨free, h.writeNext ht⟩
    | push node oldHead =>
      simp only [ht] at hs
      split_ifs at hs with hcas
      · obtain rfl := Option.some.inj hs
        exact ⟨node :: free, h.push ht hcas.1⟩
      · obtain rfl := Option.some.inj hs
        exact ⟨free, h.move ht (.writeNext node s.pool.freeHead) rfl trivial rfl _ rfl⟩
    | incAvailable =>
      simp only [ht, Option.some.injEq] at hs
      subst hs
      refine ⟨free, h.move ht .idle rfl trivial rfl _ ?_⟩
      simp only [Pc.owesInc, toNat_add_one]
      omega

/-- **One step.** -/
theorem Inv.step (h : Inv n s free) {l : Label} {s' : Sys} (hplace : nextInPlace s l = true)
    (hs : s.step l = some s') : ∃ free', Inv n s' free' := by
  cases l with
  | allocate t =>
    simp only [Sys.step] at hs
    split_ifs at hs with ht
    obtain rfl := Option.some.inj hs
    exact ⟨free, h.loaded ht rfl rfl rfl⟩
  | deallocate t ptr =>
    simp only [Sys.step] at hs
    cases ptr with
    | none =>
      split_ifs at hs
      obtain rfl := Option.some.inj hs
      exact ⟨free, h⟩
    | some node =>
      simp only at hs
      split_ifs at hs with ht howned
      obtain rfl := Option.some.inj hs
      exact ⟨free, h.deallocate ht howned s.pool.freeHead⟩
  | access t spurious => exact h.access hplace hs
  | use block word =>
    simp only [Sys.step] at hs
    split_ifs at hs with howned
    obtain rfl := Option.some.inj hs
    exact ⟨free, h.use howned word⟩

end

/-! ## Runs -/

theorem chain_reverse (k : Nat) :
    Chain (fun i => if i = 0 then none else some (i - 1)) (if k = 0 then none else some (k - 1))
      (List.range k).reverse := by
  induction k with
  | zero => rfl
  | succ k ih =>
    rw [List.range_succ, List.reverse_append, List.reverse_singleton]
    exact ⟨if_neg (Nat.succ_ne_zero k), ih⟩

/-- **The new pool**: all blocks are on the free list. -/
theorem inv_init (count : BitVec 64) (memory : Bool) (threads : Nat) :
    ∃ free, Inv (NUMAPool.new count memory).totalCount.toNat (.init (.new count memory) threads)
      free := by
  have hidle : ∀ f : Pc → Nat, f .idle = 0 → total f (List.replicate threads .idle) = 0 :=
    fun f hf => total_replicate threads hf
  have hlinked : ∀ (next : Nat → Option Nat) (j : Nat) (t : Pc),
      (List.replicate threads Pc.idle)[j]? = some t → t.Linked next := by
    intro next j t hj
    rw [List.eq_of_mem_replicate (List.mem_of_getElem? hj)]
    trivial
  unfold NUMAPool.new
  split_ifs with hempty
  · refine ⟨[], rfl, ?_, hlinked _, ?_⟩
    · intro i
      simp [Sys.init, hidle (Pc.holds i) rfl]
    · simp [Sys.init, hidle Pc.owesInc rfl, hidle Pc.owesDec rfl]
  · have hpos : count.toNat ≠ 0 := by
      intro hzero
      exact hempty (.inl (BitVec.eq_of_toNat_eq hzero))
    refine ⟨(List.range count.toNat).reverse, ?_, ?_, hlinked _, ?_⟩
    · have hchain := chain_reverse count.toNat
      rw [if_neg hpos] at hchain
      exact hchain
    · intro i
      simp [Sys.init, hidle (Pc.holds i) rfl]
    · simp [Sys.init, hidle Pc.owesInc rfl, hidle Pc.owesDec rfl]

/-- **When the pool is safe**: in a run where every `allocate` that takes the head finds the link it
read in place, no block has two owners, no owned block is on the free list, and between operations
`available()` is the number of free blocks, which with the owned ones are all blocks. -/
theorem run_safe (count : BitVec 64) (memory : Bool) (threads : Nat) (labels : List Label) (s : Sys)
    (hplace : Machine.Along Sys.step (fun s l => nextInPlace s l = true)
      (.init (.new count memory) threads) labels)
    (hexec : Machine.exec Sys.step (.init (.new count memory) threads) labels = some s) :
    s.owned.Nodup ∧
    ∃ free, Chain s.pool.next s.pool.freeHead free ∧ free.Nodup ∧ (∀ b ∈ s.owned, b ∉ free) ∧
      (s.Quiescent → s.pool.available.toNat = free.length ∧
        List.Perm (free ++ s.owned) (List.range (NUMAPool.new count memory).totalCount.toNat)) := by
  obtain ⟨free, h⟩ := Machine.exec_inv
    (I := fun s => ∃ free, Inv (NUMAPool.new count memory).totalCount.toNat s free)
    (fun _ _ _ ⟨_, hinv⟩ hplace hs => hinv.step hplace hs) (inv_init count memory threads)
      hplace hexec
  have hcount : ∀ i, s.owned.count i ≤ 1 ∧ free.count i ≤ 1 := by
    intro i
    have := h.count_le i
    omega
  refine ⟨List.nodup_iff_count.2 fun i => (hcount i).1, free, h.chain,
    List.nodup_iff_count.2 fun i => (hcount i).2, fun b hb => h.owned_not_mem hb, ?_⟩
  intro hquiet
  have hidle : ∀ f : Pc → Nat, f .idle = 0 → total f s.threads = 0 := by
    intro f hf
    apply total_eq_zero
    intro t ht
    rw [hquiet t ht, hf]
  have hperm : List.Perm (free ++ s.owned)
      (List.range (NUMAPool.new count memory).totalCount.toNat) := by
    rw [List.perm_iff_count]
    intro i
    have hparts := h.parts i
    rw [hidle (Pc.holds i) rfl] at hparts
    rw [List.count_append]
    exact hparts
  refine ⟨?_, hperm⟩
  have hlen := hperm.length_eq
  have hlt := (NUMAPool.new count memory).totalCount.isLt
  have havail := s.pool.available.isLt
  have hsum := h.available
  rw [List.length_append, List.length_range] at hlen
  simp only [hidle Pc.owesInc rfl, hidle Pc.owesDec rfl, Nat.add_zero] at hsum
  omega

/-- Two threads that never come between each other's exchanges. -/
def inTurn : List Label :=
  [.allocate 0, .access 0 false, .access 0 false, .access 0 false, .use 1 none, .allocate 1,
    .access 1 false, .access 1 false, .access 1 false, .deallocate 0 (some 1), .access 0 false,
    .access 0 false, .access 0 false]

theorem inTurn_isSome :
    (Machine.exec Sys.step (.init (.new 2 true) 2) inTurn).isSome := by decide

theorem inTurn_safe :
    ∃ s, Machine.exec Sys.step (.init (.new 2 true) 2) inTurn = some s ∧ s.owned.Nodup := by
  obtain ⟨s, hs⟩ := Option.isSome_iff_exists.1 inTurn_isSome
  have hplace : Machine.Along Sys.step (fun s l => nextInPlace s l = true)
      (.init (.new 2 true) 2) inTurn := by decide
  exact ⟨s, hs, (run_safe 2 true 2 inTurn s hplace hs).1⟩

/-- Two blocks: thread 0 reads that block 1 is the head and block 0 its successor. Thread 1 takes
both and gives block 1 back. The exchange of thread 0 succeeds and makes block 0 the head, which
thread 1 owns, and the next `allocate` hands it out again. -/
def staleNext : List Label :=
  [.allocate 0, .access 0 false,
    .allocate 1, .access 1 false, .access 1 false, .access 1 false,
    .allocate 1, .access 1 false, .access 1 false, .access 1 false,
    .deallocate 1 (some 1), .access 1 false, .access 1 false, .access 1 false,
    .access 0 false, .access 0 false,
    .allocate 0, .access 0 false, .access 0 false, .access 0 false]

theorem staleNext_owned :
    (Machine.exec Sys.step (.init (.new 2 true) 2) staleNext).map (fun s => s.owned) =
      some [0, 1, 0] := by decide

theorem staleNext_ownedTwice :
    ∃ s, Machine.exec Sys.step (.init (.new 2 true) 2) staleNext = some s ∧ ¬ s.owned.Nodup := by
  obtain ⟨s, hs, howned⟩ := Option.map_eq_some_iff.1 staleNext_owned
  refine ⟨s, hs, ?_⟩
  rw [howned]
  decide

end Qdgz300.Common.NUMAPool
