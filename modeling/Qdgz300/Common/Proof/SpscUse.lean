import Qdgz300.Common.Proof.SpscQueue

/-!
# Plain and drop-oldest use of the SPSC queue

* `tryPush_tryPop_fifo`: with `try_push` and `try_pop` alone every interleaving is a FIFO. No
  exchange moves `head_` under the consumer (`Plain`), so every store of the consumer is fresh.
* `dropOldest_accounting`: with `drop_oldest_push` the popped values are a subsequence of the pushed
  ones and every element is accounted for, along interleavings whose `try_pop` stores are fresh.
  `dropOldest_stale_store` runs into a stale one: an exchange between the load and the store of one
  `try_pop` counts an element twice or revives dropped ones. `stale_store_accounting` says that the
  condition cannot be dropped: the first stale store breaks the count.
-/

namespace Qdgz300.Common

variable {T : Type} {C : Capacity} {moved : T → T} {s s' : Sys T}

/-! ## Plain use -/

/-- A label of plain use: no `drop_oldest_push`. -/
def Label.plain : Label T → Prop
  | .dropOldestPush _ => False
  | _ => True

/-- In plain use nothing is dropped, and `head_` stays where a `try_pop` under way loaded it. -/
structure Plain (s : Sys T) : Prop where
  count : s.q.dropCount = 0
  prod : match s.prod with
    | .idle | .pushLoadHead _ _ | .pushWrite _ _ | .pushStoreTail _ _ => True
    | _ => False
  cons : match s.cons with
    | .idle => True
    | .popLoadTail head | .popRead head | .popStoreHead head _ => s.q.head = head

theorem plain_init (buffer : Nat → T) : Plain (Sys.init buffer) := ⟨rfl, trivial, trivial⟩

theorem plain_producer {spurious : Bool} (h : Plain s) (hs : producerStep C s spurious = some s') :
    Plain s' := by
  obtain ⟨hd, hp, hc⟩ := h
  unfold producerStep at hs
  cases hpc : s.prod <;> simp only [hpc] at hs hp
  case idle => cases hs
  case pushLoadHead item tail =>
    split at hs <;> cases hs
    · exact ⟨hd, trivial, hc⟩
    · exact ⟨hd, trivial, hc⟩
  case pushWrite item tail => cases hs; exact ⟨hd, trivial, hc⟩
  case pushStoreTail item tail => cases hs; exact ⟨hd, trivial, hc⟩

theorem plain_consumer (h : Plain s) (hs : consumerStep C moved s = some s') : Plain s' := by
  obtain ⟨hd, hp, hc⟩ := h
  unfold consumerStep at hs
  cases hpc : s.cons <;> simp only [hpc] at hs hc
  case idle => cases hs
  case popLoadTail head =>
    split at hs <;> cases hs
    · exact ⟨hd, hp, trivial⟩
    · exact ⟨hd, hp, hc⟩
  case popRead head => cases hs; exact ⟨hd, hp, hc⟩
  case popStoreHead head item => cases hs; exact ⟨hd, hp, trivial⟩

theorem plain_step {l : Label T} (h : Plain s) (hl : l.plain) (hs : step C moved s l = some s') :
    Plain s' := by
  obtain ⟨hd, hp, hc⟩ := h
  cases l with
  | tryPush item =>
    unfold step at hs
    cases hpc : s.prod <;> simp only [hpc] at hs <;> cases hs
    exact ⟨hd, trivial, hc⟩
  | dropOldestPush item => exact hl.elim
  | producer spurious => exact plain_producer ⟨hd, hp, hc⟩ hs
  | tryPop =>
    unfold step at hs
    cases hpc : s.cons <;> simp only [hpc] at hs <;> cases hs
    exact ⟨hd, hp, rfl⟩
  | consumer => exact plain_consumer ⟨hd, hp, hc⟩ hs

theorem Plain.conditions {l : Label T} (h : Plain s) : FreshStore s l ∧ WideExchange C s l := by
  refine ⟨?_, ?_⟩
  · cases l <;> try trivial
    intro head item hpc
    have := h.cons
    rw [hpc] at this
    exact this
  · cases l <;> try trivial
    intro item dropped head hpc
    have := h.prod
    rw [hpc] at this
    exact this.elim

theorem exec_plain {buffer : Nat → T} {ls : List (Label T)} (hls : ∀ l ∈ ls, l.plain)
    (h : exec C moved buffer ls = some s) : Inv C s ∧ Plain s := by
  have halong : Machine.Along (step C moved) (fun _ l => l.plain) (.init buffer) ls :=
    Machine.along_of_forall hls
  have hcond := Machine.along_of_inv (C := fun s l => FreshStore s l ∧ WideExchange C s l)
    (fun _ _ _ hI hD hs => plain_step hI hD hs) (fun _ _ hI _ => hI.conditions)
    (plain_init buffer) halong
  exact ⟨Machine.exec_inv (fun _ _ _ hI hD hs => step_inv hI hD hs) (inv_init buffer) hcond h,
    Machine.exec_inv (fun _ _ _ hI hD hs => plain_step hI hD hs) (plain_init buffer) halong h⟩

theorem Plain.taken_eq (h : Plain s) : s.taken = s.popped.length := by
  have hp := h.prod
  unfold Sys.taken
  rw [h.count]
  cases hpc : s.prod <;> rw [hpc] at hp <;> simp at hp ⊢

/-- A producer about to write and a consumer about to read are at different slots: the consumer is
at the oldest element, the producer past the newest. -/
theorem Plain.apart {m tail head : Nat} {item : T} (hP : Plain s) (hI : InvAt C m s)
    (hp : s.prod = .pushWrite item tail) (hc : s.cons = .popRead head) : tail ≠ head := by
  have htk := hP.taken_eq
  have hprod := hI.prod
  have hcons := hI.cons
  have hfresh := hP.cons
  unfold ProdInv at hprod
  unfold ConsInv at hcons
  rw [hp] at hprod
  rw [hc] at hcons hfresh
  obtain ⟨rfl, hlt⟩ := hprod
  obtain ⟨⟨j, hj, hjl⟩, -⟩ := hcons
  have hle := hI.le
  rw [htk] at hlt hle
  have hne : s.popped.length < s.pushed.length := by
    have := hj.le
    rcases Nat.lt_or_ge j s.taken with hd | hd
    · have := hj.live hd; omega
    · omega
  rw [← hfresh, hI.tail, hI.head, htk]
  exact (Circular.mod_ne hne (by omega)).symm

/-- A load of `head_` that makes `try_push` fail finds `Cap - 1` elements. -/
theorem Plain.full {m tail : Nat} {item : T} {spurious : Bool} (hcap : 2 ≤ C.cap) (hP : Plain s)
    (hI : InvAt C m s) (hp : s.prod = .pushLoadHead item tail)
    (hs : producerStep C s spurious = some s') (hidle : s'.prod = .idle) :
    s.pushed.length = s.popped.length + (C.cap - 1) := by
  have htk := hP.taken_eq
  have hprod := hI.prod
  have hroom := hI.room
  have hle := hI.le
  rw [htk] at hroom hle
  unfold ProdInv at hprod
  rw [hp] at hprod
  simp only at hprod
  subst hprod
  unfold producerStep at hs
  rw [hp] at hs
  simp only at hs
  split at hs
  case isTrue hfull =>
    rw [hI.tail, hI.head, C.next_mod, htk] at hfull
    have := Circular.mod_inj (c := C.cap) (a := s.popped.length + 1) (i := s.pushed.length + 1)
      (j := s.popped.length + C.cap) (by omega) (by omega) (by omega) (by omega)
      (by rw [hfull, Nat.add_mod_right])
    omega
  case isFalse => cases hs; cases hidle

/-- A load of `tail_` that makes `try_pop` answer empty finds no element. -/
theorem Plain.none_stored {m head : Nat} (hP : Plain s) (hI : InvAt C m s)
    (hc : s.cons = .popLoadTail head) (hs : consumerStep C moved s = some s')
    (hidle : s'.cons = .idle) : s.pushed.length = s.popped.length := by
  have htk := hP.taken_eq
  have hroom := hI.room
  have hle := hI.le
  have hfresh := hP.cons
  rw [htk] at hroom hle
  rw [hc] at hfresh
  obtain rfl : s.q.head = head := hfresh
  unfold consumerStep at hs
  rw [hc] at hs
  simp only at hs
  split at hs
  case isTrue hempty =>
    rw [hI.tail, hI.head, htk] at hempty
    by_contra hne
    exact Circular.mod_ne (by omega) (by omega) hempty
  case isFalse => cases hs; cases hidle

/-- **Plain SPSC use is a FIFO.** After every interleaving of `try_push`es and `try_pop`s: the
popped values are the first pushed ones; at most `Cap - 1` elements are stored, as many as `size()`
says; a consumer about to read and a producer about to write are at different slots; a load of
`head_` that makes `try_push` fail happens with `Cap - 1` elements stored; and a load of `tail_`
that makes `try_pop` answer empty happens with none. -/
theorem tryPush_tryPop_fifo (C : Capacity) (hcap : 2 ≤ C.cap) (moved : T → T) (buffer : Nat → T)
    (ls : List (Label T)) (hls : ∀ l ∈ ls, l.plain) (s : Sys T)
    (h : exec C moved buffer ls = some s) :
    s.popped <+: s.pushed ∧
    s.pushed.length ≤ s.popped.length + (C.cap - 1) ∧
    s.q.size C = s.pushed.length - s.popped.length ∧
    (∀ item tail head, s.prod = .pushWrite item tail → s.cons = .popRead head → tail ≠ head) ∧
    (∀ item tail spurious s', s.prod = .pushLoadHead item tail →
      producerStep C s spurious = some s' → s'.prod = .idle →
      s.pushed.length = s.popped.length + (C.cap - 1)) ∧
    (∀ head s', s.cons = .popLoadTail head → consumerStep C moved s = some s' → s'.cons = .idle →
      s.pushed.length = s.popped.length) := by
  obtain ⟨⟨m, hI⟩, hP⟩ := exec_plain hls h
  have htk := hP.taken_eq
  have hroom := hI.room
  have hle := hI.le
  have hbase := hI.base
  rw [htk] at hroom hle hbase
  -- the popped values are as many as there are positions below `m`, so they are all of them
  have hpop : s.popped = s.pushed.take m := by
    apply hI.popped.eq_of_length_le
    rw [List.length_take]
    omega
  refine ⟨?_, by omega, ?_, ?_, ?_, ?_⟩
  · rw [hpop]
    exact List.take_prefix m _
  · exact size_eq (by rw [hI.head, htk]) hI.tail hle hroom
  · exact fun item tail head hp hc => hP.apart hI hp hc
  · exact fun item tail spurious s' hp hs hidle => hP.full hcap hI hp hs hidle
  · exact fun head s' hc hs hidle => hP.none_stored hI hc hs hidle

/-- An access of a producer whose exchanges do not fail spuriously. -/
def Label.go : Label Nat := .producer false

/-- A push, a pop, and a push that is about to write. -/
def pushPopPush : List (Label Nat) :=
  [.tryPush 7, .go, .go, .go, .tryPop, .consumer, .consumer, .consumer, .tryPush 8, .go]

theorem pushPopPush_fifo :
    (∀ l ∈ pushPopPush, l.plain) ∧ ∃ s, exec ⟨1, by decide⟩ id (fun _ => 0) pushPopPush = some s ∧
      s.popped = [7] ∧ s.popped <+: s.pushed := by
  have hp : ∀ l ∈ pushPopPush, l.plain := by simp [pushPopPush, Label.plain, Label.go]
  exact ⟨hp, _, rfl, rfl,
    (tryPush_tryPop_fifo ⟨1, by decide⟩ (by decide) id (fun _ => 0) pushPopPush hp _ rfl).1⟩

/-! ## Drop-oldest use -/

/-- **Drop-oldest use, along fresh stores.** When every store of `head_` by `try_pop` finds the
value that call loaded, the popped values are a subsequence of the pushed ones, and between
operations every push is popped, dropped and counted, or stored. -/
theorem dropOldest_accounting (C : Capacity) (hcap : 4 ≤ C.cap) (moved : T → T) (buffer : Nat → T)
    (ls : List (Label T)) (hfresh : Machine.Along (step C moved) FreshStore (.init buffer) ls)
    (s : Sys T) (h : exec C moved buffer ls = some s) :
    s.popped.Sublist s.pushed ∧
    (s.Quiescent → s.pushed.length = s.popped.length + s.q.dropCount + s.q.size C) := by
  have hwide : Machine.Along (step C moved) (fun s l => FreshStore s l ∧ WideExchange C s l)
      (.init buffer) ls := by
    refine Machine.along_of_inv (I := fun _ => True) (fun _ _ _ _ _ _ => trivial)
      (fun s l _ hf => ⟨hf, ?_⟩) trivial hfresh
    cases l <;> try trivial
    exact fun _ _ _ _ => by omega
  obtain ⟨m, hI⟩ : Inv C s :=
    Machine.exec_inv (fun _ _ _ hI hD hs => step_inv hI hD hs) (inv_init buffer) hwide h
  refine ⟨hI.popped.trans (List.take_sublist _ _), fun hq => ?_⟩
  have htk : s.taken = s.popped.length + s.q.dropCount := by
    unfold Sys.taken
    rw [hq.1]
    simp
  rw [size_eq hI.head hI.tail hI.le hI.room, ← htk]
  have := hI.le
  omega

/-- A `drop_oldest_push` into a queue with room. -/
def dropPush (item : Nat) : List (Label Nat) := [.dropOldestPush item, .go, .go, .go]

/-- A `drop_oldest_push` into a full queue, up to its write: load, load, exchange, count, load,
load, write. -/
def dropPushFull (item : Nat) : List (Label Nat) :=
  [.dropOldestPush item, .go, .go, .go, .go, .go, .go]

/-- Four pushes and a pop of the oldest value. -/
def dropThenPop : List (Label Nat) :=
  dropPush 1 ++ dropPush 2 ++ dropPush 3 ++ dropPushFull 4 ++ [.go] ++
    [.tryPop, .consumer, .consumer, .consumer]

theorem dropThenPop_accounting :
    Machine.Along (step ⟨2, by decide⟩ id) FreshStore (.init fun _ => 0) dropThenPop ∧
    ∃ s, exec ⟨2, by decide⟩ id (fun _ => 0) dropThenPop = some s ∧ s.Quiescent ∧
      s.popped = [2] ∧ s.q.dropCount = 1 ∧
      s.pushed.length = s.popped.length + s.q.dropCount + s.q.size ⟨2, by decide⟩ := by
  have hf : Machine.Along (step ⟨2, by decide⟩ id) FreshStore (.init fun _ => 0) dropThenPop := by
    decide
  exact ⟨hf, _, rfl, ⟨rfl, rfl⟩, rfl, rfl,
    (dropOldest_accounting ⟨2, by decide⟩ (by decide) id (fun _ => 0) dropThenPop hf _ rfl).2
      ⟨rfl, rfl⟩⟩

/-- Three pushes fill the queue, a `try_pop` reads the oldest value and pauses, a fourth push drops
the same value, the `try_pop` stores. -/
def popAcrossDrop : List (Label Nat) :=
  dropPush 1 ++ dropPush 2 ++ dropPush 3 ++ [.tryPop, .consumer, .consumer] ++ dropPushFull 4 ++
    [.go, .consumer]

/-- The `try_pop` pauses before its read, two pushes lap it, the second one not yet published, the
`try_pop` reads that second value and stores, one more `try_pop` runs, the push is published. -/
def popAcrossLap : List (Label Nat) :=
  dropPush 1 ++ dropPush 2 ++ dropPush 3 ++ [.tryPop, .consumer] ++ dropPushFull 4 ++ [.go] ++
    dropPushFull 5 ++ [.consumer, .consumer, .tryPop, .consumer, .consumer, .consumer, .go]

/-- **Without the condition both halves fail**, for `Cap = 4`: one value is popped and counted as
dropped, so that four pushes are matched by five elements; and a dropped value is popped after a
newer one. -/
theorem dropOldest_stale_store :
    (∃ s, exec ⟨2, by decide⟩ id (fun _ => 0) popAcrossDrop = some s ∧ s.Quiescent ∧
      s.pushed.length ≠ s.popped.length + s.q.dropCount + s.q.size ⟨2, by decide⟩) ∧
    (∃ s, exec ⟨2, by decide⟩ id (fun _ => 0) popAcrossLap = some s ∧
      ¬ s.popped.Sublist s.pushed) :=
  ⟨⟨_, rfl, ⟨rfl, rfl⟩, by decide⟩, ⟨_, rfl, by decide⟩⟩

/-- **The condition is the exact one for the count**: from a state reached along fresh stores, with
the producer between operations, the store that ends a `try_pop` leaves every push accounted for
just when it is fresh. -/
theorem stale_store_accounting {head : Nat} {item : T} (hI : Inv C s) (hprod : s.prod = .idle)
    (hcons : s.cons = .popStoreHead head item) (hs : consumerStep C moved s = some s') :
    s'.pushed.length = s'.popped.length + s'.q.dropCount + s'.q.size C ↔ s.q.head = head := by
  obtain ⟨m, hI⟩ := hI
  have htk : s.taken = s.popped.length + s.q.dropCount := by
    unfold Sys.taken
    rw [hprod]
    simp
  constructor
  · intro hacc
    have hC := hI.cons
    unfold ConsInv at hC
    rw [hcons] at hC
    obtain ⟨j, i, hj, -⟩ := hC
    unfold consumerStep at hs
    rw [hcons] at hs
    cases hs
    simp only [List.length_append, List.length_singleton] at hacc
    have hm := size_modEq (C := C) (q := { s.q with head := C.next head })
      (by rw [C.next_eq]; exact Nat.mod_lt _ C.cap_pos)
    simp only at hm
    generalize SPSCQueue.size C _ = n at hm hacc
    have hkey : n + (head + 1) ≡ n + (s.taken + 1) [MOD C.cap] :=
      calc n + (head + 1) ≡ n + C.next head [MOD C.cap] := by
            rw [C.next_eq]; exact (Nat.mod_modEq _ _).symm.add_left _
        _ ≡ s.q.tail [MOD C.cap] := hm
        _ ≡ s.pushed.length [MOD C.cap] := by rw [hI.tail]; exact Nat.mod_modEq _ _
        _ = n + (s.taken + 1) := by omega
    have := Nat.ModEq.add_right_cancel' 1 (Nat.ModEq.add_left_cancel' n hkey)
    rw [hI.head, ← this, hj.head, Nat.mod_mod]
  · intro hfresh
    have hI' := hI.store hcons hfresh hs
    have hprod' : s'.prod = .idle := by
      unfold consumerStep at hs
      rw [hcons] at hs
      cases hs
      exact hprod
    have htk' : s'.taken = s'.popped.length + s'.q.dropCount := by
      unfold Sys.taken
      rw [hprod']
      simp
    rw [size_eq hI'.head hI'.tail hI'.le hI'.room, ← htk']
    have := hI'.le
    omega

end Qdgz300.Common
