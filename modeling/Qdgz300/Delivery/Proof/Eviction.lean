import Qdgz300.Delivery.Proof.SharedRing

/-!
# The eviction loop of the shared-memory ring

The loop of `deliver` steps by the lengths it reads back from the ring. While the tail stands at a
record (`RingInv`), a pass that drops one frees space (`pass_shrinks`), so the loop ends
(`evict_ends`); `sharedMemory_evicts` says so of every state that safe deliveries reach. After an
unsafe one the tail may stand inside a payload, whose bytes can announce a record as long as the
ring: every drop of it returns `true` and leaves the tail where it is (`evict_fixed`).
-/

namespace Qdgz300.Delivery

open RingBuffer Bytes SharedMemoryDelivery Pipeline

def SharedMemoryDelivery.used (s : SharedMemoryDelivery) : Nat :=
  usedSpace s.head s.tail s.ring.length

def SharedMemoryDelivery.free (s : SharedMemoryDelivery) : Nat :=
  freeSpace s.head s.tail s.ring.length

/-- A pass of the loop that drops something: there is too little room, and `drop_oldest_unlocked`
returns `true`. -/
def Pass (needed : Nat) (s s' : SharedMemoryDelivery) : Prop :=
  s.free < needed ∧ s.dropOldestUnlocked = (s', true)

/-- The states that the loop comes to. -/
inductive Passes (needed : Nat) (s : SharedMemoryDelivery) : SharedMemoryDelivery → Prop where
  | start : Passes needed s s
  | next {t u : SharedMemoryDelivery} : Passes needed s t → Pass needed t u → Passes needed s u

section
variable {s t u : SharedMemoryDelivery} {ps : List (Nat × Record)} {needed : Nat}

theorem RingInv.pass (h : RingInv s ps) (hpass : Pass needed s t) :
    (∃ ps', RingInv t ps') ∧ t.used < s.used := by
  obtain ⟨-, hdrop⟩ := hpass
  by_cases he : s.head = s.tail
  · simp [dropOldestUnlocked, he] at hdrop
  · obtain ⟨ps', tail, hdrop', hinv, -, hused⟩ := dropOldest_inv h he
    rw [hdrop'] at hdrop
    obtain rfl : { s with tail } = t := (Prod.mk.inj hdrop).1
    exact ⟨⟨ps', hinv⟩, hused⟩

theorem RingInv.passes (h : RingInv s ps) (hpasses : Passes needed s t) : ∃ ps', RingInv t ps' := by
  induction hpasses with
  | start => exact ⟨ps, h⟩
  | next _ hpass ih =>
    obtain ⟨ps', hinv⟩ := ih
    exact (hinv.pass hpass).1

/-- **Every pass of the loop frees space.** -/
theorem RingInv.pass_shrinks (h : RingInv s ps) (hpasses : Passes needed s t)
    (hpass : Pass needed t u) : u.used < t.used := by
  obtain ⟨ps', hinv⟩ := h.passes hpasses
  exact (hinv.pass hpass).2

/-- **The loop ends**, after fewer passes than bytes are used. -/
theorem evict_ends {fuel : Nat} (h : RingInv s ps) (hfuel : s.used < fuel) :
    (evict needed fuel s).isSome := by
  -- on the fuel: a pass that goes on leaves fewer bytes used
  induction fuel generalizing s ps with
  | zero => omega
  | succ fuel ih =>
    rw [evict]
    split
    case isTrue => rfl
    case isFalse hroom =>
      split
      case isTrue hdrop =>
        have hpass : Pass needed s s.dropOldestUnlocked.1 :=
          ⟨Nat.lt_of_not_le hroom, Prod.ext rfl hdrop⟩
        obtain ⟨⟨ps', hinv⟩, hused⟩ := h.pass hpass
        exact ih hinv (by omega)
      case isFalse => rfl

theorem evict_fixed (hpass : Pass needed s s) (fuel : Nat) : evict needed fuel s = none := by
  have hroom : ¬ needed ≤ freeSpace s.head s.tail s.ring.length := Nat.not_le.2 hpass.1
  induction fuel with
  | zero => rw [evict, if_neg hroom]
  | succ fuel ih =>
    rw [evict, if_neg hroom]
    simp only [hpass.2, if_true]
    exact ih

/-! ## Runs -/

/-- **The eviction loop ends**: in every state that a run of safe deliveries reaches, the loop of
the next `deliver`, whatever its packet, ends, and each of its passes that drops something strictly
decreases the used space. -/
theorem sharedMemory_evicts {R : Nat} (hR : recordHeaderSize + 1 < R) {packets : List OrderedPacket}
    (hsafe : Machine.Along deliverStep (fun s packet => Carries packet ∧ WrapSafe s.1 packet)
      (init R, []) packets) :
    ∃ s, Machine.exec deliverStep (init R, []) packets = some s ∧
      ∀ packet : OrderedPacket,
        (∃ passes, ∀ fuel, passes ≤ fuel → (evict (required packet) fuel s.1).isSome) ∧
        ∀ t u, Passes (required packet) s.1 t → Pass (required packet) t u → u.used < t.used := by
  have hinit : Delivered (init R, []) :=
    ⟨[], ringInv_init (by omega), List.suffix_refl _, fun h => absurd rfl h⟩
  obtain ⟨s, hexec, ps, hinv, -⟩ :=
    Machine.exec_total (fun s packet hI hC => deliverStep_inv hI hC) hinit hsafe
  refine ⟨s, hexec, fun packet => ⟨⟨s.1.used + 1, fun fuel hfuel => ?_⟩, ?_⟩⟩
  · exact evict_ends hinv hfuel
  · exact fun t u => hinv.pass_shrinks

/-- In a ring of 60 bytes, after a packet that wraps. -/
theorem wrapOver_evicts :
    ∃ s, Machine.exec deliverStep (init 60, [])
        [plainPacket 1 24, plainPacket 2 0, plainPacket 3 0] = some s ∧
      ∀ packet : OrderedPacket,
        (∃ passes, ∀ fuel, passes ≤ fuel → (evict (required packet) fuel s.1).isSome) ∧
        ∀ t u, Passes (required packet) s.1 t → Pass (required packet) t u → u.used < t.used :=
  sharedMemory_evicts (by decide) (by decide +kernel)

/-- A packet whose eight payload bytes read as the start of a record of 41 bytes. -/
def forgingPacket : OrderedPacket :=
  Reorderer.orderedOf { sequenceNumber := 3, payloadLen := 8 }
    (some (toLe 4 kRecordMarker.toNat ++ toLe 4 25)) 8 3

/-- The ring of 41 bytes after two empty packets and the forging one, which wraps and ends with its
payload at the tail. -/
def forgedRing : Option (SharedMemoryDelivery × List Record) :=
  Machine.exec deliverStep (init 41, []) [plainPacket 1 0, plainPacket 2 0, forgingPacket]

theorem forgedRing_pass :
    ∃ s, forgedRing = some s ∧ required (plainPacket 4 17) < s.1.ring.length ∧
      Pass (required (plainPacket 4 17)) s.1 s.1 := by
  have hall : forgedRing.any (fun s => decide (required (plainPacket 4 17) < s.1.ring.length ∧
      s.1.free < required (plainPacket 4 17) ∧ s.1.dropOldestUnlocked = (s.1, true))) = true := by
    decide +kernel
  cases hs : forgedRing with
  | none =>
    rw [hs] at hall
    cases hall
  | some s =>
    rw [hs, Option.any_some, decide_eq_true_iff] at hall
    exact ⟨s, rfl, hall⟩

/-- The next packet of 17 bytes is not refused for its size, and its eviction never ends: each drop
returns `true` and frees nothing. -/
theorem forged_never_evicts :
    ∃ s, forgedRing = some s ∧ required (plainPacket 4 17) < s.1.ring.length ∧
      (∀ fuel, evict (required (plainPacket 4 17)) fuel s.1 = none) ∧
      ∃ t u, Passes (required (plainPacket 4 17)) s.1 t ∧ Pass (required (plainPacket 4 17)) t u ∧
        ¬ u.used < t.used := by
  obtain ⟨s, hs, hlt, hpass⟩ := forgedRing_pass
  exact ⟨s, hs, hlt, evict_fixed hpass, s.1, s.1, .start, hpass, Nat.lt_irrefl _⟩

end

end Qdgz300.Delivery
