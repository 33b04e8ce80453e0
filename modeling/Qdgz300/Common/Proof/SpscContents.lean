import Qdgz300.Common.Proof.SpscQueue

/-!
# The contents of the SPSC queue between operations

`Holds C q xs`: the queue holds the elements `xs`, oldest first. The whole operations are described
by what they do to `xs`, and `dropOldestPush_exec`, `tryPop_exec` say that they are the sequences of
accesses that a thread makes when the other one does not come between. `Passed` is the account of
all operations so far.
-/

namespace Qdgz300.Common

/-- The queue holds `xs`, oldest first; `h` elements were taken before. -/
def Holds {T : Type} (C : Capacity) (q : SPSCQueue T) (xs : List T) : Prop :=
  xs.length < C.cap ∧ ∃ h, q.head = h % C.cap ∧ q.tail = (h + xs.length) % C.cap ∧
    ∀ i x, xs[i]? = some x → q.buffer ((h + i) % C.cap) = x

/-- The elements in the slots from `head_` to `tail_`. -/
def SPSCQueue.contents {T : Type} (C : Capacity) (q : SPSCQueue T) : List T :=
  (List.range (q.size C)).map fun i => q.buffer ((q.head + i) &&& C.mask)

section
variable {T : Type} {C : Capacity} {q : SPSCQueue T} {xs : List T} {item x : T} {moved : T → T}

theorem holds_new (buffer : Nat → T) : Holds C (SPSCQueue.new buffer) [] :=
  ⟨C.cap_pos, 0, (Nat.zero_mod _).symm, (Nat.zero_mod _).symm, nofun⟩

theorem Holds.size (h : Holds C q xs) : q.size C = xs.length := by
  obtain ⟨hlt, k, hhead, htail, -⟩ := h
  rw [size_eq hhead htail (Nat.le_add_right _ _) (by omega), Nat.add_sub_cancel_left]

theorem Holds.contents (h : Holds C q xs) : q.contents C = xs := by
  have hsize := h.size
  obtain ⟨-, k, hhead, -, hslots⟩ := h
  unfold SPSCQueue.contents
  rw [hsize]
  refine List.ext_getElem (by simp) fun i h1 h2 => ?_
  rw [List.getElem_map, List.getElem_range, hhead, Capacity.mask, Capacity.cap,
    Nat.and_two_pow_sub_one_eq_mod, Nat.mod_add_mod]
  exact hslots i xs[i] (List.getElem?_eq_getElem h2)

theorem Holds.full_iff (h : Holds C q xs) : C.next q.tail = q.head ↔ xs.length + 1 = C.cap := by
  obtain ⟨hlt, k, hhead, htail, -⟩ := h
  rw [Capacity.next_eq, htail, hhead, Circular.succ_mod, Nat.add_assoc]
  constructor
  · intro heq
    by_contra hne
    exact Circular.mod_ne (show k < k + (xs.length + 1) by omega) (by omega) heq.symm
  · intro heq
    rw [heq, Nat.add_mod_right]

theorem Holds.empty_iff (h : Holds C q xs) : q.head = q.tail ↔ xs = [] := by
  obtain ⟨hlt, k, hhead, htail, -⟩ := h
  rw [htail, hhead]
  constructor
  · intro heq
    by_contra hne
    have hpos := List.length_pos_of_ne_nil hne
    exact Circular.mod_ne (show k < k + xs.length by omega) (by omega) heq
  · rintro rfl
    rfl

/-- **An element at the end**, when there is room. -/
theorem Holds.put (h : Holds C q xs) (hroom : xs.length + 1 < C.cap) (item : T) :
    Holds C (q.put C item) (xs ++ [item]) := by
  obtain ⟨hlt, k, hhead, htail, hslots⟩ := h
  refine ⟨by simpa using hroom, k, hhead, ?_, ?_⟩
  · simp only [SPSCQueue.put, Capacity.next_eq, htail, Circular.succ_mod, List.length_append,
      List.length_singleton, Nat.add_assoc]
  · intro i x hi
    simp only [SPSCQueue.put, htail]
    rcases Nat.lt_trichotomy i xs.length with hlt' | rfl | hgt
    · rw [List.getElem?_append_left hlt'] at hi
      have hne : (k + i) % C.cap ≠ (k + xs.length) % C.cap := Circular.mod_ne (by omega) (by omega)
      rw [Function.update_of_ne hne]
      exact hslots i x hi
    · rw [List.getElem?_concat_length] at hi
      rw [Function.update_self]
      exact Option.some.inj hi
    · rw [List.getElem?_eq_none (by simp; omega)] at hi
      cases hi

/-- The front element taken off, its slot with whatever value. -/
theorem Holds.take (h : Holds C q (x :: xs)) (v : T) (drops : Nat) :
    q.buffer q.head = x ∧ Holds C { q with
      buffer := Function.update q.buffer q.head v
      head := C.next q.head
      dropCount := drops } xs := by
  obtain ⟨hlt, k, hhead, htail, hslots⟩ := h
  rw [List.length_cons] at hlt htail
  refine ⟨?_, by omega, k + 1, ?_, ?_, ?_⟩
  · rw [hhead]
    exact hslots 0 x rfl
  · simp only [Capacity.next_eq, hhead, Circular.succ_mod]
  · simp only [htail]
    rw [Nat.add_right_comm, Nat.add_assoc]
  · intro i y hi
    have hlen := (List.getElem?_eq_some_iff.1 hi).1
    have hne : (k + 1 + i) % C.cap ≠ q.head := by
      rw [hhead]
      exact (Circular.mod_ne (by omega) (by omega)).symm
    simp only
    rw [Function.update_of_ne hne, Nat.add_assoc, Nat.add_comm 1 i]
    exact hslots (i + 1) y (by simpa using hi)

theorem Holds.dropOldest (h : Holds C q (x :: xs)) : Holds C (q.dropOldest C) xs := by
  have htake := (h.take (q.buffer q.head) (q.dropCount + 1)).2
  rw [Function.update_eq_self] at htake
  exact htake

/-- **`drop_oldest_push`**: the element goes to the end, and a full queue loses its oldest one. -/
theorem Holds.dropOldestPush (h : Holds C q xs) (hcap : 2 ≤ C.cap) (item : T) :
    (xs.length + 1 < C.cap ∧ Holds C (q.dropOldestPush C item).1 (xs ++ [item]) ∧
      (q.dropOldestPush C item).1.dropCount = q.dropCount) ∨
    (∃ x rest, xs = x :: rest ∧ xs.length + 1 = C.cap ∧
      Holds C (q.dropOldestPush C item).1 (rest ++ [item]) ∧
      (q.dropOldestPush C item).1.dropCount = q.dropCount + 1) := by
  have hlt := h.1
  unfold SPSCQueue.dropOldestPush
  by_cases hfull : xs.length + 1 = C.cap
  · rw [if_neg (not_not.2 (h.full_iff.2 hfull))]
    cases xs with
    | nil =>
      rw [List.length_nil] at hfull
      omega
    | cons x rest =>
      refine .inr ⟨x, rest, rfl, hfull, h.dropOldest.put ?_ item, rfl⟩
      rw [List.length_cons] at hfull
      omega
  · rw [if_pos (mt h.full_iff.1 hfull)]
    have hroom : xs.length + 1 < C.cap := by omega
    exact .inl ⟨hroom, h.put hroom item, rfl⟩

/-- **`try_push`**: the element goes to the end, unless the queue is full. -/
theorem Holds.tryPush (h : Holds C q xs) (item : T) :
    (xs.length + 1 < C.cap ∧ (q.tryPush C item).2 = true ∧ Holds C (q.tryPush C item).1 (xs ++ [item])) ∨
    (xs.length + 1 = C.cap ∧ q.tryPush C item = (q, false)) := by
  have hlt := h.1
  unfold SPSCQueue.tryPush
  by_cases hfull : xs.length + 1 = C.cap
  · rw [if_pos (h.full_iff.2 hfull)]
    exact .inr ⟨hfull, rfl⟩
  · rw [if_neg (mt h.full_iff.1 hfull)]
    have hroom : xs.length + 1 < C.cap := by omega
    exact .inl ⟨hroom, rfl, h.put hroom item⟩

theorem Holds.tryPop_nil (h : Holds C q []) (moved : T → T) : q.tryPop C moved = (q, none) := by
  rw [SPSCQueue.tryPop, if_pos (h.empty_iff.2 rfl)]

/-- **`try_pop`** takes the front element. -/
theorem Holds.tryPop_cons (h : Holds C q (x :: xs)) (moved : T → T) :
    (q.tryPop C moved).2 = some x ∧ Holds C (q.tryPop C moved).1 xs ∧
      (q.tryPop C moved).1.dropCount = q.dropCount := by
  rw [SPSCQueue.tryPop, if_neg (mt h.empty_iff.1 (by simp))]
  obtain ⟨hfront, hrest⟩ := h.take (moved (q.buffer q.head)) q.dropCount
  exact ⟨congrArg some hfront, hrest, rfl⟩

/-! ## What passed through the queue -/

/-- The elements that entered the queue are in it or left it, the oldest first. Those that left were
taken by the consumer or dropped, and the dropped ones are counted. -/
def Passed {T : Type} (C : Capacity) (q : SPSCQueue T) (entered taken : List T) : Prop :=
  ∃ gone contents, Holds C q contents ∧ entered = gone ++ contents ∧ taken.Sublist gone ∧
    gone.length = taken.length + q.dropCount

variable {entered taken : List T}

theorem passed_new (buffer : Nat → T) : Passed C (SPSCQueue.new buffer) [] [] :=
  ⟨[], [], holds_new buffer, rfl, List.Sublist.refl [], rfl⟩

theorem Passed.dropOldestPush (h : Passed C q entered taken) (hcap : 2 ≤ C.cap) (item : T) :
    Passed C (q.dropOldestPush C item).1 (entered ++ [item]) taken := by
  obtain ⟨gone, contents, hholds, rfl, htaken, hcount⟩ := h
  rcases hholds.dropOldestPush hcap item with
    ⟨-, hafter, hdrops⟩ | ⟨x, rest, rfl, -, hafter, hdrops⟩
  · exact ⟨gone, contents ++ [item], hafter, List.append_assoc .., htaken, by rw [hdrops, hcount]⟩
  · -- the oldest element left and nobody took it
    refine ⟨gone ++ [x], rest ++ [item], hafter, by simp, ?_, ?_⟩
    · exact htaken.trans (List.sublist_append_left gone [x])
    · rw [List.length_append, hcount, hdrops, List.length_singleton, Nat.add_assoc]

theorem Passed.tryPush (h : Passed C q entered taken) (item : T) :
    Passed C (q.tryPush C item).1 (entered ++ if (q.tryPush C item).2 then [item] else [])
      taken := by
  obtain ⟨gone, contents, hholds, rfl, htaken, hcount⟩ := h
  rcases hholds.tryPush item with ⟨-, hentered, hafter⟩ | ⟨-, hfull⟩
  · have hdrops : (q.tryPush C item).1.dropCount = q.dropCount := by
      unfold SPSCQueue.tryPush
      split <;> rfl
    rw [if_pos hentered]
    exact ⟨gone, contents ++ [item], hafter, List.append_assoc .., htaken, by rw [hdrops, hcount]⟩
  · rw [hfull]
    exact ⟨gone, contents, hholds, List.append_nil _, htaken, hcount⟩

theorem Passed.tryPop (h : Passed C q entered taken) (moved : T → T) :
    Passed C (q.tryPop C moved).1 entered (taken ++ (q.tryPop C moved).2.toList) := by
  obtain ⟨gone, contents, hholds, rfl, htaken, hcount⟩ := h
  cases contents with
  | nil =>
    rw [hholds.tryPop_nil moved, Option.toList_none, List.append_nil taken]
    exact ⟨gone, [], hholds, rfl, htaken, hcount⟩
  | cons x rest =>
    obtain ⟨hfront, hrest, hdrops⟩ := hholds.tryPop_cons moved
    rw [hfront, Option.toList_some]
    refine ⟨gone ++ [x], rest, hrest, by simp, htaken.append (List.Sublist.refl [x]), ?_⟩
    simp only [List.length_append, List.length_singleton, hcount, hdrops]
    omega

/-! ## The accesses of a whole operation -/

/-- The accesses of a `drop_oldest_push` that meets no other thread. -/
theorem dropOldestPush_exec (s : Sys T) (hidle : s.prod = .idle) (hholds : Holds C s.q xs)
    (hcap : 2 ≤ C.cap) (item : T) :
    ∃ n, Machine.exec (step C moved) s (.dropOldestPush item :: List.replicate n (.producer false)) =
      some { s with
        q := (s.q.dropOldestPush C item).1
        pushed := s.pushed ++ [item] } := by
  obtain ⟨q, prod, cons, pushed, popped⟩ := s
  obtain rfl : prod = .idle := hidle
  by_cases hfull : C.next q.tail = q.head
  · have hroom : C.next q.tail ≠ C.next q.head := by
      rcases hholds.dropOldestPush hcap item with ⟨hlt, -⟩ | ⟨x, rest, rfl, hlen, -⟩
      · have := hholds.full_iff.1 hfull
        omega
      · intro heq
        have hdrop : Holds C (q.dropOldest C) rest := hholds.dropOldest
        have := hdrop.full_iff.1 heq
        rw [List.length_cons] at hlen
        omega
    rw [hfull] at hroom
    refine ⟨7, ?_⟩
    simp [Machine.exec, step, producerStep, hfull, hroom, SPSCQueue.dropOldestPush,
      SPSCQueue.dropOldest, SPSCQueue.put]
  · refine ⟨3, ?_⟩
    simp [Machine.exec, step, producerStep, hfull, SPSCQueue.dropOldestPush, SPSCQueue.put]

theorem tryPop_exec (s : Sys T) (hidle : s.cons = .idle) :
    ∃ n, Machine.exec (step C moved) s (.tryPop :: List.replicate n .consumer) =
      some { s with
        q := (s.q.tryPop C moved).1
        popped := s.popped ++ (s.q.tryPop C moved).2.toList } := by
  obtain ⟨q, prod, cons, pushed, popped⟩ := s
  obtain rfl : cons = .idle := hidle
  by_cases hempty : q.head = q.tail
  · refine ⟨1, ?_⟩
    simp [Machine.exec, step, consumerStep, hempty, SPSCQueue.tryPop]
  · refine ⟨3, ?_⟩
    simp [Machine.exec, step, consumerStep, hempty, SPSCQueue.tryPop]

end

end Qdgz300.Common
