import Mathlib.Data.List.Nodup
import Qdgz300.Lib.LockFree
import Qdgz300.Network.PacketPool

/-!
# The packet pool hands out no buffer twice

`Inv n s free held`: the free list is the chain `free`, the callers own the buffers of `held`, and
these, the nodes about to be pushed and the node just unlinked are the `n` nodes, each once. The
head has no version tag. That `allocate` takes the right successor rests on being alone: what it
read of the list stays there until its own exchange (`AllocPc.Sees`), since all others only push.
-/

namespace Qdgz300.Network

open LockFree

/-- The node that `allocate` has unlinked and not yet returned. -/
def AllocPc.unlinked : AllocPc → List Nat
  | .decAvailable head | .incAllocated head => [head]
  | _ => []

/-- The node that a `deallocate` is about to push. -/
def DeallocPc.pushing : DeallocPc → List Nat
  | .loadHead node | .writeNext node _ | .exchange node _ => [node]
  | _ => []

/-- How often `i` is among them. -/
def DeallocPc.pushes (i : Nat) (pc : DeallocPc) : Nat := pc.pushing.count i

/-- The decrement of `available` that is still to come. -/
def AllocPc.owesAvailable : AllocPc → Nat
  | .decAvailable _ => 1
  | _ => 0

/-- The increment of `allocated` that is still to come. -/
def AllocPc.owesAllocated : AllocPc → Nat
  | .decAvailable _ | .incAllocated _ => 1
  | _ => 0

/-- The increment of `available` that is still to come. -/
def DeallocPc.owesAvailable : DeallocPc → Nat
  | .incAvailable => 1
  | _ => 0

/-- The decrement of `allocated` that is still to come. -/
def DeallocPc.owesAllocated : DeallocPc → Nat
  | .incAvailable | .decAllocated => 1
  | _ => 0

/-- `allocate` holds no node and has no counter to update. -/
def AllocPc.Clear (pc : AllocPc) : Prop :=
  pc.unlinked = [] ∧ pc.owesAvailable = 0 ∧ pc.owesAllocated = 0

theorem AllocPc.loaded_clear (head : Option Nat) : (AllocPc.loaded head).Clear := by
  cases head <;> exact ⟨rfl, rfl, rfl⟩

/-- What `allocate` has read of the free list still holds. -/
def AllocPc.Sees (next : Nat → Option Nat) (free : List Nat) : AllocPc → Prop
  | .readNext head => head ∈ free
  | .exchange head succ => head ∈ free ∧ next head = succ
  | _ => True

/-- The node carries the head that the exchange will compare. -/
def DeallocPc.Linked (next : Nat → Option Nat) : DeallocPc → Prop
  | .exchange node head => next node = head
  | _ => True

/-- The storage is cut into `n` buffers, which `deallocate` finds by their address. -/
structure PacketPool.Laid (pool : PacketPool) (n : Nat) : Prop where
  totalSize : pool.totalSize.toNat = n
  nodeOf : ∀ addr i, pool.nodeOf addr = some i → addr = pool.buffer i ∧ i < n
  injective : 0 < n → Function.Injective pool.buffer

structure Inv (n : Nat) (s : PoolSys) (free held : List Nat) : Prop where
  laid : s.pool.Laid n
  chain : Chain s.pool.next s.pool.freeHead free
  owned : s.owned = held.map s.pool.buffer
  parts : ∀ i, free.count i + held.count i + total (DeallocPc.pushes i) s.threads +
    s.alloc.unlinked.count i = (List.range n).count i
  sees : s.alloc.Sees s.pool.next free
  linked : ∀ (j : Nat) t, s.threads[j]? = some t → t.Linked s.pool.next
  available : (s.pool.available.toNat + total DeallocPc.owesAvailable s.threads) % 2 ^ 64 =
    (free.length + s.alloc.owesAvailable) % 2 ^ 64
  allocated : (s.pool.allocated.toNat + free.length + s.alloc.owesAllocated) % 2 ^ 64 =
    (n + total DeallocPc.owesAllocated s.threads) % 2 ^ 64

section
variable {n : Nat} {s : PoolSys} {free held : List Nat} {t : Nat}

/-! ## The allocating thread -/

theorem Inv.allocate (h : Inv n s free held) (hidle : s.alloc = .idle) :
    Inv n { s with
      pool := { s.pool with allocCount := s.pool.allocCount + 1 }
      alloc := .loadHead } free held := by
  refine ⟨⟨h.laid.1, h.laid.2, h.laid.3⟩, h.chain, h.owned, ?_, trivial, h.linked, ?_, ?_⟩
  · simpa [hidle, AllocPc.unlinked] using h.parts
  · simpa [hidle, AllocPc.owesAvailable] using h.available
  · simpa [hidle, AllocPc.owesAllocated] using h.allocated

theorem sees_loaded (h : Inv n s free held) :
    (AllocPc.loaded s.pool.freeHead).Sees s.pool.next free := by
  cases hhead : s.pool.freeHead with
  | none => trivial
  | some head => exact (hhead ▸ h.chain : Chain s.pool.next (some head) free).mem_head

theorem Inv.read (h : Inv n s free held) {pc : AllocPc} (hpc : pc.Sees s.pool.next free)
    (hbefore : s.alloc.Clear) (hafter : pc.Clear) :
    Inv n { s with alloc := pc } free held := by
  obtain ⟨hu, ha, hb⟩ := hbefore
  obtain ⟨hu', ha', hb'⟩ := hafter
  refine ⟨h.laid, h.chain, h.owned, ?_, hpc, h.linked, ?_, ?_⟩
  · simpa [hu, hu'] using h.parts
  · simpa [ha, ha'] using h.available
  · simpa [hb, hb'] using h.allocated

/-- **The exchange of `allocate`**: the successor it read is still the successor of the head. -/
theorem Inv.unlink (h : Inv n s free held) {head : Nat} {succ : Option Nat}
    (hpc : s.alloc = .exchange head succ) (hhead : s.pool.freeHead = some head) :
    Inv n { s with pool := { s.pool with freeHead := succ }, alloc := .decAvailable head }
      free.tail held := by
  have hsees := h.sees
  rw [hpc] at hsees
  obtain ⟨-, hsucc⟩ := hsees
  have hchain := h.chain
  rw [hhead] at hchain
  obtain ⟨rest, rfl, hrest⟩ := hchain.pop
  rw [hsucc] at hrest
  have hparts := h.parts
  have havail := h.available
  have halloc := h.allocated
  simp only [hpc, AllocPc.unlinked, AllocPc.owesAvailable, AllocPc.owesAllocated, List.length_cons,
    List.count_nil] at hparts havail halloc
  refine ⟨⟨h.laid.1, h.laid.2, h.laid.3⟩, hrest, h.owned, ?_, trivial, h.linked, ?_, ?_⟩
  · intro i
    have := hparts i
    simp only [AllocPc.unlinked, List.tail_cons, List.count_cons, List.count_nil] at this ⊢
    omega
  · simp only [AllocPc.owesAvailable, List.tail_cons]
    omega
  · simp only [AllocPc.owesAllocated, List.tail_cons]
    omega

theorem Inv.decAvailable (h : Inv n s free held) {head : Nat} (hpc : s.alloc = .decAvailable head) :
    Inv n { s with
      pool := { s.pool with available := s.pool.available - 1 }
      alloc := .incAllocated head } free held := by
  have havail := h.available
  refine ⟨⟨h.laid.1, h.laid.2, h.laid.3⟩, h.chain, h.owned, ?_, trivial, h.linked, ?_, ?_⟩
  · simpa [hpc, AllocPc.unlinked] using h.parts
  · simp only [hpc, AllocPc.owesAvailable, toNat_sub_one] at havail ⊢
    omega
  · simpa [hpc, AllocPc.owesAllocated] using h.allocated

/-- The return of `allocate`: the buffer has a new owner. -/
theorem Inv.incAllocated (h : Inv n s free held) {head : Nat} (hpc : s.alloc = .incAllocated head) :
    Inv n { s with
      pool := { s.pool with allocated := s.pool.allocated + 1 }
      alloc := .idle
      owned := s.pool.buffer head :: s.owned } free (head :: held) := by
  have halloc := h.allocated
  have hparts := h.parts
  refine ⟨⟨h.laid.1, h.laid.2, h.laid.3⟩, h.chain, ?_, ?_, trivial, h.linked, ?_, ?_⟩
  · rw [List.map_cons, h.owned]
  · intro i
    have := hparts i
    simp only [hpc, AllocPc.unlinked, List.count_cons, List.count_nil] at this ⊢
    omega
  · simpa [hpc, AllocPc.owesAvailable] using h.available
  · simp only [hpc, AllocPc.owesAllocated, toNat_add_one] at halloc ⊢
    omega

/-- **The next access of `allocate`.** -/
theorem Inv.allocStep (h : Inv n s free held) {spurious : Bool} {s' : PoolSys}
    (hs : allocStep s spurious = some s') : ∃ free' held', Inv n s' free' held' := by
  unfold Network.allocStep at hs
  cases hpc : s.alloc with
  | idle =>
    rw [hpc] at hs
    cases hs
  | loadHead =>
    simp only [hpc, Option.some.injEq] at hs
    subst hs
    exact ⟨free, held, h.read (sees_loaded h) (hpc ▸ ⟨rfl, rfl, rfl⟩) (AllocPc.loaded_clear _)⟩
  | readNext head =>
    simp only [hpc, Option.some.injEq] at hs
    subst hs
    have hsees := h.sees
    rw [hpc] at hsees
    exact ⟨free, held, h.read ⟨hsees, rfl⟩ (hpc ▸ ⟨rfl, rfl, rfl⟩) ⟨rfl, rfl, rfl⟩⟩
  | exchange head succ =>
    simp only [hpc] at hs
    split_ifs at hs with hcas
    · obtain rfl := Option.some.inj hs
      exact ⟨free.tail, held, h.unlink hpc hcas.1⟩
    · obtain rfl := Option.some.inj hs
      exact ⟨free, held, h.read (sees_loaded h) (hpc ▸ ⟨rfl, rfl, rfl⟩) (AllocPc.loaded_clear _)⟩
  | decAvailable head =>
    simp only [hpc, Option.some.injEq] at hs
    subst hs
    exact ⟨free, held, h.decAvailable hpc⟩
  | incAllocated head =>
    simp only [hpc, Option.some.injEq] at hs
    subst hs
    exact ⟨free, head :: held, h.incAllocated hpc⟩
  | fallback =>
    simp only [hpc, Option.some.injEq] at hs
    subst hs
    have hidle : AllocPc.Sees s.pool.next free .idle := trivial
    have := h.read hidle (hpc ▸ ⟨rfl, rfl, rfl⟩) ⟨rfl, rfl, rfl⟩
    exact ⟨free, held, ⟨this.laid.1, this.laid.2, this.laid.3⟩, this.chain, this.owned, this.parts,
      trivial, this.linked, this.available, this.allocated⟩

/-! ## The threads that give buffers back -/

theorem Inv.count_le (h : Inv n s free held) (i : Nat) :
    free.count i + held.count i + total (DeallocPc.pushes i) s.threads +
      s.alloc.unlinked.count i ≤ 1 := by
  rw [h.parts i]
  exact List.nodup_iff_count.1 List.nodup_range i

theorem Inv.pushing_not_mem (h : Inv n s free held) {pc : DeallocPc} {node : Nat}
    (ht : s.threads[t]? = some pc) (hnode : pc.pushing = [node]) : node ∉ free := by
  intro hmem
  have hle := h.count_le node
  have hpush := le_total (f := DeallocPc.pushes node) ht
  have hfree := List.count_pos_iff.2 hmem
  simp only [DeallocPc.pushes, hnode, List.count_singleton_self] at hpush
  omega

/-- What the other threads wrote stays. -/
theorem Inv.linked_update (h : Inv n s free held) {pc : DeallocPc} {node : Nat} (v : Option Nat)
    (ht : s.threads[t]? = some pc) (hnode : pc.pushing = [node]) (j : Nat) (q : DeallocPc)
    (hj : s.threads[j]? = some q) (hne : j ≠ t) :
    q.Linked (Function.update s.pool.next node v) := by
  have hlinked := h.linked j q hj
  cases q with
  | exchange other head =>
    have hdiff : other ≠ node := by
      rintro rfl
      have hle := h.count_le other
      have hboth := add_le_total (f := DeallocPc.pushes other) hj ht hne
      rw [DeallocPc.pushes, DeallocPc.pushes, hnode, DeallocPc.pushing, List.count_singleton_self] at hboth
      omega
    simp only [DeallocPc.Linked, Function.update_of_ne hdiff] at hlinked ⊢
    exact hlinked
  | _ => trivial

/-- **The call of `deallocate`**: the buffer has no owner any more. -/
theorem Inv.deallocate (h : Inv n s free held) {buffer node : Nat}
    (ht : s.threads[t]? = some .idle) (hnode : s.pool.nodeOf buffer = some node)
    (howned : buffer ∈ s.owned) :
    Inv n { s with
      pool := { s.pool with deallocCount := s.pool.deallocCount + 1 }
      threads := s.threads.set t (.loadHead node)
      owned := s.owned.erase buffer } free (held.erase node) := by
  obtain ⟨rfl, hlt⟩ := h.laid.nodeOf buffer node hnode
  have hinj := h.laid.injective (Nat.zero_lt_of_lt hlt)
  have hmem : node ∈ held := by
    rw [h.owned] at howned
    obtain ⟨i, hi, heq⟩ := List.mem_map.1 howned
    exact hinj heq ▸ hi
  refine ⟨⟨h.laid.1, h.laid.2, h.laid.3⟩, h.chain, ?_, ?_, h.sees, ?_, ?_, ?_⟩
  · rw [List.map_erase hinj, h.owned]
  · intro i
    have hset := total_set (f := DeallocPc.pushes i) ht (.loadHead node)
    have hparts := h.parts i
    have herase := count_erase_add hmem i
    simp only [DeallocPc.pushes, DeallocPc.pushing, List.count_nil] at hset ⊢
    omega
  · exact of_set (fun j q hj _ => h.linked j q hj) trivial
  · rw [total_set_eq ht (.loadHead node) rfl]
    exact h.available
  · rw [total_set_eq ht (.loadHead node) rfl]
    exact h.allocated

/-- A step of a thread that pushes nothing, with the counters it updates. -/
theorem Inv.counted (h : Inv n s free held) {pc : DeallocPc} (ht : s.threads[t]? = some pc)
    (pc' : DeallocPc) (avail alloc : BitVec 64)
    (hpush : pc'.pushing = pc.pushing) (hlinked : pc'.Linked s.pool.next)
    (havail : (avail.toNat + pc'.owesAvailable) % 2 ^ 64 =
      (s.pool.available.toNat + pc.owesAvailable) % 2 ^ 64)
    (halloc : (alloc.toNat + pc.owesAllocated) % 2 ^ 64 =
      (s.pool.allocated.toNat + pc'.owesAllocated) % 2 ^ 64) :
    Inv n { s with
      pool := { s.pool with available := avail, allocated := alloc }
      threads := s.threads.set t pc' } free held := by
  have havail' := total_set (f := DeallocPc.owesAvailable) ht pc'
  have halloc' := total_set (f := DeallocPc.owesAllocated) ht pc'
  have hsumA := h.available
  have hsumB := h.allocated
  refine ⟨⟨h.laid.1, h.laid.2, h.laid.3⟩, h.chain, h.owned, ?_, h.sees, ?_, ?_, ?_⟩
  · intro i
    have hset := total_set (f := DeallocPc.pushes i) ht pc'
    have hparts := h.parts i
    rw [DeallocPc.pushes, DeallocPc.pushes, hpush] at hset
    simp only
    omega
  · exact of_set (fun j q hj _ => h.linked j q hj) hlinked
  · simp only
    omega
  · simp only
    omega

/-- `node->next = head`. -/
theorem Inv.writeNext (h : Inv n s free held) {node : Nat} {head : Option Nat}
    (ht : s.threads[t]? = some (.writeNext node head)) :
    Inv n { s with
      pool := { s.pool with next := Function.update s.pool.next node head }
      threads := s.threads.set t (.exchange node head) } free held := by
  have hnot := h.pushing_not_mem ht rfl
  refine ⟨⟨h.laid.1, h.laid.2, h.laid.3⟩, h.chain.update hnot head, h.owned, ?_, ?_, ?_, ?_, ?_⟩
  · intro i
    rw [total_set_eq ht (.exchange node head) rfl]
    exact h.parts i
  · have hsees := h.sees
    cases hpc : s.alloc with
    | exchange front succ =>
      rw [hpc] at hsees
      obtain ⟨hfront, hsucc⟩ := hsees
      have hne : front ≠ node := by
        rintro rfl
        exact hnot hfront
      exact ⟨hfront, (Function.update_of_ne hne _ _).trans hsucc⟩
    | readNext front =>
      rw [hpc] at hsees
      exact hsees
    | _ => trivial
  · exact of_set (h.linked_update head ht rfl) (Function.update_self _ _ _)
  · rw [total_set_eq ht (.exchange node head) rfl]
    exact h.available
  · rw [total_set_eq ht (.exchange node head) rfl]
    exact h.allocated

/-- **The exchange of `deallocate`**: the node is the new head. -/
theorem Inv.push (h : Inv n s free held) {node : Nat} {head : Option Nat}
    (ht : s.threads[t]? = some (.exchange node head)) (hhead : s.pool.freeHead = head) :
    Inv n { s with
      pool := { s.pool with freeHead := some node }
      threads := s.threads.set t .incAvailable } (node :: free) held := by
  have hlink : s.pool.next node = s.pool.freeHead := (h.linked t _ ht).trans hhead.symm
  have havail := total_set (f := DeallocPc.owesAvailable) ht .incAvailable
  have halloc := total_set (f := DeallocPc.owesAllocated) ht .incAvailable
  have hsumA := h.available
  have hsumB := h.allocated
  simp only [DeallocPc.owesAvailable, DeallocPc.owesAllocated] at havail halloc
  refine ⟨⟨h.laid.1, h.laid.2, h.laid.3⟩, h.chain.push hlink, h.owned, ?_, ?_, ?_, ?_, ?_⟩
  · intro i
    have hset := total_set (f := DeallocPc.pushes i) ht .incAvailable
    have hparts := h.parts i
    simp only [DeallocPc.pushes, DeallocPc.pushing, List.count_nil, List.count_cons] at hset ⊢
    omega
  · have hsees := h.sees
    cases hpc : s.alloc with
    | exchange front succ =>
      rw [hpc] at hsees
      exact ⟨List.mem_cons_of_mem _ hsees.1, hsees.2⟩
    | readNext front =>
      rw [hpc] at hsees
      exact List.mem_cons_of_mem _ hsees
    | _ => trivial
  · exact of_set (fun j q hj _ => h.linked j q hj) trivial
  · simp only [List.length_cons]
    omega
  · simp only [List.length_cons]
    omega

/-- **The next access of a `deallocate`.** -/
theorem Inv.deallocStep (h : Inv n s free held) {spurious : Bool} {s' : PoolSys}
    (hs : deallocStep s t spurious = some s') : ∃ free' held', Inv n s' free' held' := by
  unfold Network.deallocStep at hs
  cases ht : s.threads[t]? with
  | none =>
    rw [ht] at hs
    cases hs
  | some pc =>
    cases pc with
    | idle =>
      rw [ht] at hs
      cases hs
    | loadHead node =>
      simp only [ht, Option.some.injEq] at hs
      subst hs
      exact ⟨free, held, h.counted ht (.writeNext node s.pool.freeHead) _ _ rfl trivial rfl rfl⟩
    | writeNext node head =>
      simp only [ht, Option.some.injEq] at hs
      subst hs
      exact ⟨free, held, h.writeNext ht⟩
    | exchange node head =>
      simp only [ht] at hs
      split_ifs at hs with hcas
      · obtain rfl := Option.some.inj hs
        exact ⟨node :: free, held, h.push ht hcas.1⟩
      · obtain rfl := Option.some.inj hs
        exact ⟨free, held, h.counted ht (.writeNext node s.pool.freeHead) _ _ rfl trivial rfl rfl⟩
    | incAvailable =>
      simp only [ht, Option.some.injEq] at hs
      subst hs
      refine ⟨free, held, h.counted ht .decAllocated _ _ rfl trivial ?_ rfl⟩
      simp only [DeallocPc.owesAvailable, toNat_add_one]
      omega
    | decAllocated =>
      simp only [ht, Option.some.injEq] at hs
      subst hs
      refine ⟨free, held, h.counted ht .idle _ _ rfl trivial rfl ?_⟩
      simp only [DeallocPc.owesAllocated, toNat_sub_one]
      omega

/-- **One access of one thread.** -/
theorem Inv.step (h : Inv n s free held) {l : PoolLabel} {s' : PoolSys} (hs : s.step l = some s') :
    ∃ free' held', Inv n s' free' held' := by
  cases l with
  | allocate =>
    cases hpc : s.alloc with
    | idle =>
      simp only [PoolSys.step, hpc, Option.some.injEq] at hs
      subst hs
      exact ⟨free, held, h.allocate hpc⟩
    | _ => simp [PoolSys.step, hpc] at hs
  | allocStep spurious => exact h.allocStep hs
  | deallocate t buffer =>
    simp only [PoolSys.step, Network.deallocate] at hs
    cases hnode : s.pool.nodeOf buffer with
    | none =>
      simp only [hnode] at hs
      split_ifs at hs
      · obtain rfl := Option.some.inj hs
        exact ⟨free, held, h⟩
      · obtain rfl := Option.some.inj hs
        exact ⟨free, held, ⟨h.laid.1, h.laid.2, h.laid.3⟩, h.chain, h.owned, h.parts, h.sees, h.linked,
          h.available, h.allocated⟩
    | some node =>
      simp only [hnode] at hs
      split_ifs at hs with hidle hnull howned
      · obtain rfl := Option.some.inj hs
        exact ⟨free, held, h⟩
      · obtain rfl := Option.some.inj hs
        exact ⟨free, held.erase node, h.deallocate (not_not.1 hidle) hnode howned⟩
  | deallocStep t spurious => exact h.deallocStep hs

end

/-! ## A new pool -/

theorem chain_range (n k m : Nat) (h : k + m = n) :
    Chain (fun i => if i + 1 < n then some (i + 1) else none) (if k < n then some k else none)
      (List.range' k m) := by
  induction m generalizing k with
  | zero => exact if_neg (by omega)
  | succ m ih => exact ⟨if_pos (by omega), ih (k + 1) (by omega)⟩

theorem new_cases (packetSize poolSize : Nat) (storage : Option Nat) :
    PacketPool.new packetSize poolSize storage = { packetSize } ∨
      ∃ base ∈ storage, 0 < packetSize ∧ 0 < poolSize ∧
        PacketPool.new packetSize poolSize storage = .carve packetSize poolSize base := by
  unfold PacketPool.new
  split_ifs with hempty
  · exact .inl rfl
  · cases storage with
    | none => exact .inl rfl
    | some base => exact .inr ⟨base, rfl, by omega, by omega, rfl⟩

theorem laid_carve {packetSize poolSize base : Nat} (hpos : 0 < packetSize)
    (hfits : base + packetSize * poolSize < 2 ^ 64) :
    (PacketPool.carve packetSize poolSize base).Laid poolSize := by
  have hle : poolSize ≤ packetSize * poolSize := Nat.le_mul_of_pos_left _ hpos
  refine ⟨Nat.mod_eq_of_lt (by omega), ?_, ?_⟩
  · intro addr i hi
    simp only [PacketPool.nodeOf, Option.ite_none_right_eq_some, Option.ite_none_left_eq_some,
      Option.some.injEq] at hi
    obtain ⟨hin, halign, hsize, rfl⟩ := hi
    have hdiv := Nat.div_add_mod (addr - base) packetSize
    rw [Nat.mul_comm] at hdiv
    simp only [PacketPool.carve] at hin halign hsize ⊢
    exact ⟨by omega, by omega⟩
  · intro _ i j hij
    have hmul : i * packetSize = j * packetSize := by simpa [PacketPool.carve] using hij
    exact Nat.eq_of_mul_eq_mul_right hpos hmul

/-- **The new pool**: all nodes are on the free list. -/
theorem inv_init (packetSize poolSize : Nat) (storage : Option Nat) (threads : Nat)
    (hstorage : ∀ base ∈ storage, base + packetSize * poolSize < 2 ^ 64) :
    Inv (PacketPool.new packetSize poolSize storage).size
      (.init (.new packetSize poolSize storage) threads)
      (List.range (PacketPool.new packetSize poolSize storage).size) [] := by
  have hidle : ∀ f : DeallocPc → Nat, f .idle = 0 → total f (List.replicate threads .idle) = 0 :=
    fun f hf => total_replicate threads hf
  have hlinked : ∀ (next : Nat → Option Nat) (j : Nat) (t : DeallocPc),
      (List.replicate threads DeallocPc.idle)[j]? = some t → t.Linked next := by
    intro next j t hj
    rw [List.eq_of_mem_replicate (List.mem_of_getElem? hj)]
    trivial
  rcases new_cases packetSize poolSize storage with hnew | ⟨base, hbase, hsize, hpool, hnew⟩
  · rw [hnew]
    refine ⟨⟨rfl, ?_, fun hpos => absurd hpos (Nat.lt_irrefl 0)⟩, rfl, rfl, ?_, trivial, hlinked _, ?_, ?_⟩
    · intro addr i hi
      simp [PacketPool.nodeOf, PoolSys.init] at hi
    · intro i
      simp [PoolSys.init, hidle (DeallocPc.pushes i) rfl, AllocPc.unlinked]
    · simp [PoolSys.init, hidle DeallocPc.owesAvailable rfl, AllocPc.owesAvailable]
    · simp [PoolSys.init, hidle DeallocPc.owesAllocated rfl, AllocPc.owesAllocated]
  · rw [hnew]
    have hlaid := laid_carve hsize (hstorage base hbase)
    refine ⟨hlaid, ?_, rfl, ?_, trivial, hlinked _, ?_, ?_⟩
    · have hchain := chain_range poolSize 0 poolSize (Nat.zero_add _)
      rw [if_pos hpool, ← List.range_eq_range'] at hchain
      simp only [PoolSys.init, PacketPool.carve, if_neg (Nat.ne_of_gt hpool)]
      exact hchain
    · intro i
      simp [PoolSys.init, hidle (DeallocPc.pushes i) rfl, AllocPc.unlinked, PacketPool.carve]
    · simp [PoolSys.init, hidle DeallocPc.owesAvailable rfl, AllocPc.owesAvailable, PacketPool.carve]
    · simp [PoolSys.init, hidle DeallocPc.owesAllocated rfl, AllocPc.owesAllocated, PacketPool.carve]

theorem exec_inv {n : Nat} {s s' : PoolSys} {labels : List PoolLabel}
    (h : ∃ free held, Inv n s free held) (hexec : Machine.exec PoolSys.step s labels = some s') :
    ∃ free held, Inv n s' free held :=
  Machine.exec_inv (I := fun s => ∃ free held, Inv n s free held) (C := fun _ _ => True)
    (fun _ _ _ ⟨_, _, hinv⟩ _ hs => hinv.step hs) h
    (Machine.along_of_forall fun _ _ => trivial) hexec

/-- The buffers that `deallocate`s in progress are about to push. -/
def PoolSys.pushing (s : PoolSys) : List Nat :=
  (s.threads.flatMap DeallocPc.pushing).map s.pool.buffer

/-- The buffer that an `allocate` in progress has unlinked. -/
def PoolSys.unlinked (s : PoolSys) : List Nat := s.alloc.unlinked.map s.pool.buffer

section
variable {n : Nat} {s : PoolSys} {free held : List Nat}

theorem Inv.parts_perm (h : Inv n s free held) :
    List.Perm (free.map s.pool.buffer ++ s.owned ++ s.pushing ++ s.unlinked)
      ((List.range n).map s.pool.buffer) := by
  have hindex : List.Perm (free ++ held ++ s.threads.flatMap DeallocPc.pushing ++ s.alloc.unlinked)
      (List.range n) := by
    rw [List.perm_iff_count]
    intro i
    have hparts := h.parts i
    have hpush : (s.threads.flatMap DeallocPc.pushing).count i =
        total (DeallocPc.pushes i) s.threads := count_flatMap DeallocPc.pushing i s.threads
    simp only [List.count_append, hpush]
    exact hparts
  have hmap := hindex.map s.pool.buffer
  rw [List.map_append, List.map_append, List.map_append, ← h.owned] at hmap
  exact hmap

theorem Inv.free_nodup (h : Inv n s free held) : free.Nodup := by
  rw [List.nodup_iff_count]
  intro i
  have := h.count_le i
  omega

theorem Inv.buffers_nodup (h : Inv n s free held) : ((List.range n).map s.pool.buffer).Nodup := by
  rcases Nat.eq_zero_or_pos n with rfl | hpos
  · exact List.nodup_nil
  · exact List.nodup_range.map (h.laid.injective hpos)

/-- Between operations the counters say how many buffers are free and how many are not. -/
theorem Inv.counters (h : Inv n s free held) (hquiet : s.Quiescent) :
    s.pool.available.toNat = free.length ∧
      s.pool.available.toNat + s.pool.allocated.toNat = s.pool.totalSize.toNat := by
  obtain ⟨halloc, hthreads⟩ := hquiet
  have hidle : ∀ f : DeallocPc → Nat, f .idle = 0 → total f s.threads = 0 := by
    intro f hf
    apply total_eq_zero
    intro t ht
    rw [hthreads t ht, hf]
  have hle : free.length ≤ n := by
    have hlen := h.parts_perm.length_eq
    simp only [List.length_append, List.length_map, List.length_range] at hlen
    omega
  have htotal := h.laid.totalSize
  have hn := s.pool.totalSize.isLt
  have ha := s.pool.available.isLt
  have hb := s.pool.allocated.isLt
  have hsumA := h.available
  have hsumB := h.allocated
  simp only [halloc, hidle DeallocPc.owesAvailable rfl, hidle DeallocPc.owesAllocated rfl,
    AllocPc.owesAvailable, AllocPc.owesAllocated, Nat.add_zero] at hsumA hsumB
  omega

end

/-- **No buffer is handed out twice.** After any interleaving of one allocating thread with any
number of deallocating ones, the free list ends and repeats no node, and the free buffers, the owned
ones, those about to be pushed and the one just unlinked are the buffers of the pool, each once.
Between operations `available` is the number of the free ones and `allocated` that of the others.
The hypothesis says that the block of the allocator lies in the address space. -/
theorem packetPool_parts (packetSize poolSize : Nat) (storage : Option Nat)
    (hstorage : ∀ base ∈ storage, base + packetSize * poolSize < 2 ^ 64)
    (threads : Nat) (labels : List PoolLabel) (s : PoolSys)
    (hexec : Machine.exec PoolSys.step (.init (.new packetSize poolSize storage) threads) labels =
      some s) :
    let n := (PacketPool.new packetSize poolSize storage).size
    (0 < packetSize → 0 < poolSize → storage ≠ none → n = poolSize) ∧
    ∃ free, Chain s.pool.next s.pool.freeHead free ∧ free.Nodup ∧
      List.Perm (free.map s.pool.buffer ++ s.owned ++ s.pushing ++ s.unlinked)
        ((List.range n).map s.pool.buffer) ∧
      ((List.range n).map s.pool.buffer).Nodup ∧
      (s.Quiescent → s.pool.available.toNat = free.length ∧
        s.pool.available.toNat + s.pool.allocated.toNat = s.pool.totalSize.toNat) := by
  intro n
  have hinit := inv_init packetSize poolSize storage threads hstorage
  obtain ⟨free, held, h⟩ := exec_inv ⟨_, _, hinit⟩ hexec
  refine ⟨?_, free, h.chain, h.free_nodup, h.parts_perm, h.buffers_nodup, h.counters⟩
  intro hsize hpool hsome
  cases storage with
  | none => exact absurd rfl hsome
  | some base =>
    have hne : ¬ (packetSize = 0 ∨ poolSize = 0) := by omega
    simp only [n, PacketPool.new, if_neg hne]
    rfl

/-- Two buffers: an allocation that is overtaken by a return of the buffer it is about to take. -/
def twoBuffers : List PoolLabel :=
  [.allocate, .allocStep false, .allocStep false, .allocStep false, .allocStep false, .allocStep false,
    .allocate, .allocStep false, .allocStep false, .deallocate 0 4096, .deallocStep 0 false,
    .deallocStep 0 false, .deallocStep 0 false, .allocStep false, .allocStep true, .allocStep false]

theorem twoBuffers_isSome :
    (Machine.exec PoolSys.step (.init (.new 16 2 (some 4096)) 1) twoBuffers).isSome := by decide

theorem twoBuffers_parts :
    ∃ s, Machine.exec PoolSys.step (.init (.new 16 2 (some 4096)) 1) twoBuffers = some s ∧
      ∃ free, Chain s.pool.next s.pool.freeHead free ∧ free.Nodup ∧
        List.Perm (free.map s.pool.buffer ++ s.owned ++ s.pushing ++ s.unlinked)
          ((List.range 2).map s.pool.buffer) := by
  obtain ⟨s, hs⟩ := Option.isSome_iff_exists.1 twoBuffers_isSome
  have hfits : ∀ base ∈ some 4096, base + 16 * 2 < 2 ^ 64 := by
    rintro base ⟨⟩
    decide
  obtain ⟨hn, free, hchain, hnodup, hperm, -⟩ :=
    packetPool_parts 16 2 (some 4096) hfits 1 twoBuffers s hs
  exact ⟨s, hs, free, hchain, hnodup, hperm⟩

end Qdgz300.Network
