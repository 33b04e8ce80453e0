import Mathlib.Data.List.Sublists
import Qdgz300.Common.SpscQueue
import Qdgz300.Lib.Circular

/-!
# What an interleaving of the SPSC queue keeps

The shared indices are seen as remainders of two unbounded counters: `Sys.taken`, the elements
taken off the front (popped or dropped), and the number of pushes. `InvAt C m s` relates the words
to them:

* the slots hold what was last written to them from position `m` on (`Slots`), the slot a paused
  `try_pop` has moved out of apart,
* everything popped is a subsequence of the first `m` pushes,
* a `try_pop` under way started at a position between `m` and `taken` (`ConsInv`).

`step_inv` is the step lemma. It needs the store that ends a `try_pop` to find `head_` where the
same call loaded it (`FreshStore`): the one access that can write a stale value.
-/

namespace Qdgz300.Common

variable {T : Type} {C : Capacity} {moved : T → T} {s s' : Sys T}

/-! ## Counters -/

theorem Capacity.cap_pos (C : Capacity) : 0 < C.cap := Nat.two_pow_pos _

theorem Capacity.next_eq (C : Capacity) (i : Nat) : C.next i = (i + 1) % C.cap :=
  Nat.and_two_pow_sub_one_eq_mod _ _

@[simp] theorem Capacity.next_mod (C : Capacity) (i : Nat) :
    C.next (i % C.cap) = (i + 1) % C.cap := by
  rw [C.next_eq, Circular.succ_mod]

/-- Elements taken off the front: pops and drops, an exchange not yet counted included. -/
def Sys.taken (s : Sys T) : Nat :=
  s.popped.length + s.q.dropCount + match s.prod with
    | .dropFetchAdd _ => 1
    | _ => 0

/-- The values written to slots: the pushed ones and one whose `tail_` store is still to come. -/
def Sys.written (s : Sys T) : List T :=
  match s.prod with
  | .pushStoreTail item _ | .dropStoreTail item _ _ => s.pushed ++ [item]
  | _ => s.pushed

/-- `size()` is the distance from `head_` to `tail_` on the ring. -/
theorem size_modEq {q : SPSCQueue T} (hh : q.head < C.cap) :
    q.size C + q.head ≡ q.tail [MOD C.cap] := by
  have hmask : ∀ x, x &&& C.mask = x % C.cap := fun x => Nat.and_two_pow_sub_one_eq_mod x C.log
  obtain ⟨d, hd⟩ : C.cap ∣ 2 ^ 64 := Nat.pow_dvd_pow 2 (Nat.le_of_lt C.log_lt)
  have hlt : q.head < 2 ^ 64 :=
    Nat.lt_of_lt_of_le hh (Nat.pow_le_pow_right (by decide) (Nat.le_of_lt C.log_lt))
  calc q.size C + q.head
      ≡ (q.tail + 2 ^ 64 - q.head) + q.head [MOD C.cap] := by
        unfold SPSCQueue.size
        rw [hmask, hd, Nat.mod_mul_right_mod]
        exact (Nat.mod_modEq _ _).add_right _
    _ = q.tail + C.cap * d := by rw [← hd]; omega
    _ ≡ q.tail [MOD C.cap] := by simp [Nat.ModEq]

theorem size_lt (q : SPSCQueue T) : q.size C < C.cap := by
  unfold SPSCQueue.size Capacity.mask Capacity.cap
  rw [Nat.and_two_pow_sub_one_eq_mod]
  exact Nat.mod_lt _ (Nat.two_pow_pos _)

theorem size_eq {q : SPSCQueue T} {h t : Nat} (hh : q.head = h % C.cap) (ht : q.tail = t % C.cap)
    (hle : h ≤ t) (hlt : t < h + C.cap) : q.size C = t - h := by
  have hs := size_lt (C := C) q
  have hm := size_modEq (C := C) (q := q) (by rw [hh]; exact Nat.mod_lt _ C.cap_pos)
  apply Circular.mod_inj (c := C.cap) (a := 0) (Nat.zero_le _) (by omega) (Nat.zero_le _) (by omega)
  apply Nat.ModEq.add_right_cancel' h
  calc q.size C + h ≡ q.size C + q.head [MOD C.cap] := by
        rw [hh]; exact (Nat.mod_modEq _ _).symm.add_left _
    _ ≡ q.tail [MOD C.cap] := hm
    _ ≡ t [MOD C.cap] := by rw [ht]; exact Nat.mod_modEq _ _
    _ = t - h + h := (Nat.sub_add_cancel hle).symm

/-! ## The invariant -/

/-- From position `m` on, the slots of the last window hold what was written there; the slot of
position `e` has been moved out of. -/
def Slots (C : Capacity) (m : Nat) (e : Option Nat) (s : Sys T) : Prop :=
  ∀ i x, m ≤ i → s.written[i]? = some x → s.written.length ≤ i + C.cap → e ≠ some i →
    s.q.buffer (i % C.cap) = x

/-- The locals of a push under way agree with the words that only the producer writes. -/
def ProdInv (C : Capacity) (s : Sys T) : Prop :=
  match s.prod with
  | .pushLoadHead _ tail | .dropLoadHead _ _ tail => tail = s.q.tail
  | .pushWrite _ tail | .dropWrite _ _ tail | .pushStoreTail _ tail | .dropStoreTail _ _ tail =>
    tail = s.q.tail ∧ s.pushed.length + 1 < s.taken + C.cap
  | .dropExchange _ _ head => head = C.next s.q.tail
  | .idle | .dropLoadTail _ _ | .dropFetchAdd _ => True

/-- A `try_pop` that loaded `head_` at position `j`. Elements dropped since then leave the queue
non-empty. -/
structure Loaded (C : Capacity) (m : Nat) (s : Sys T) (head j : Nat) : Prop where
  head : head = j % C.cap
  base : m ≤ j
  le : j ≤ s.taken
  live : j < s.taken → s.taken < s.pushed.length

/-- The locals of a pop under way, and what the slots hold meanwhile. -/
def ConsInv (C : Capacity) (m : Nat) (s : Sys T) : Prop :=
  match s.cons with
  | .idle => Slots C m none s
  | .popLoadTail head => (∃ j, Loaded C m s head j) ∧ Slots C m none s
  | .popRead head => (∃ j, Loaded C m s head j ∧ j < s.pushed.length) ∧ Slots C m none s
  | .popStoreHead head item =>
    ∃ j i, Loaded C m s head j ∧ j < s.pushed.length ∧ j ≤ i ∧ i % C.cap = head ∧
      s.written[i]? = some item ∧ Slots C m (some i) s

/-- The invariant, `m` being a position that no later pop goes below. -/
structure InvAt (C : Capacity) (m : Nat) (s : Sys T) : Prop where
  head : s.q.head = s.taken % C.cap
  tail : s.q.tail = s.pushed.length % C.cap
  le : s.taken ≤ s.pushed.length
  room : s.pushed.length < s.taken + C.cap
  base : m ≤ s.taken
  popped : s.popped.Sublist (s.pushed.take m)
  prod : ProdInv C s
  cons : ConsInv C m s

/-- The invariant of a run. -/
def Inv (C : Capacity) (s : Sys T) : Prop := ∃ m, InvAt C m s

theorem inv_init (buffer : Nat → T) : Inv C (Sys.init buffer) := by
  refine ⟨0, rfl, rfl, Nat.le_refl _, ?_, Nat.le_refl _, .slnil, trivial, ?_⟩
  · simpa [Sys.init, Sys.taken, SPSCQueue.new] using C.cap_pos
  · intro i x _ hx
    simp [Sys.init, Sys.written] at hx

/-- The condition on a step: a store to `head_` by `try_pop` finds the value the call loaded. -/
def FreshStore (s : Sys T) : Label T → Prop
  | .consumer => ∀ head item, s.cons = .popStoreHead head item → s.q.head = head
  | _ => True

instance (s : Sys T) : ∀ l : Label T, Decidable (FreshStore s l)
  | .consumer =>
    match hc : s.cons with
    | .popStoreHead head _ => decidable_of_iff (s.q.head = head) (by simp [FreshStore, hc])
    | .idle => isTrue (by simp [FreshStore, hc])
    | .popLoadTail _ => isTrue (by simp [FreshStore, hc])
    | .popRead _ => isTrue (by simp [FreshStore, hc])
  | .tryPush _ => isTrue trivial
  | .dropOldestPush _ => isTrue trivial
  | .producer _ => isTrue trivial
  | .tryPop => isTrue trivial

/-- With two slots an exchange can empty the queue under a paused `try_pop`. -/
def WideExchange (C : Capacity) (s : Sys T) : Label T → Prop
  | .producer _ => ∀ item dropped head, s.prod = .dropExchange item dropped head → 2 < C.cap
  | _ => True

/-! ## The producer's steps -/

/-- A pop under way survives whatever the producer does: the history grows, the slots it still
needs keep their values, and elements dropped meanwhile leave the queue non-empty. -/
theorem ConsInv.mono {m : Nat} (h : ConsInv C m s) (hc : s'.cons = s.cons)
    (hS : ∀ e, Slots C m e s → Slots C m e s')
    (hw : ∀ (i : Nat) (x : T), s.written[i]? = some x → s'.written[i]? = some x)
    (hp : s.pushed.length ≤ s'.pushed.length) (ht : s.taken ≤ s'.taken)
    (hl : (s.taken < s'.taken ∨ s.taken < s.pushed.length) → s'.taken < s'.pushed.length) :
    ConsInv C m s' := by
  have hL : ∀ {head j}, Loaded C m s head j → Loaded C m s' head j := fun {head j} hj =>
    ⟨hj.head, hj.base, Nat.le_trans hj.le ht, fun hlt => hl <| by
      have := hj.le
      have := hj.live
      omega⟩
  unfold ConsInv at h ⊢
  rw [hc]
  cases hs : s.cons with
  | idle => rw [hs] at h; exact hS _ h
  | popLoadTail head =>
    rw [hs] at h
    obtain ⟨⟨j, hj⟩, hs⟩ := h
    exact ⟨⟨j, hL hj⟩, hS _ hs⟩
  | popRead head =>
    rw [hs] at h
    obtain ⟨⟨j, hj, hlt⟩, hs⟩ := h
    exact ⟨⟨j, hL hj, Nat.lt_of_lt_of_le hlt hp⟩, hS _ hs⟩
  | popStoreHead head item =>
    rw [hs] at h
    obtain ⟨j, i, hj, hlt, hji, hi, hx, hs⟩ := h
    exact ⟨j, i, hL hj, Nat.lt_of_lt_of_le hlt hp, hji, hi, hw _ _ hx, hS _ hs⟩

/-- A step of the producer that touches no word but perhaps `drop_count_`. -/
theorem InvAt.local {m : Nat} (h : InvAt C m s) (hc : s'.cons = s.cons) (hh : s'.q.head = s.q.head)
    (ht : s'.q.tail = s.q.tail) (hb : s'.q.buffer = s.q.buffer) (hpu : s'.pushed = s.pushed)
    (hpo : s'.popped = s.popped) (htk : s'.taken = s.taken) (hw : s'.written = s.written)
    (hprod : ProdInv C s') : InvAt C m s' where
  head := by rw [hh, htk, h.head]
  tail := by rw [ht, hpu, h.tail]
  le := by rw [htk, hpu]; exact h.le
  room := by rw [htk, hpu]; exact h.room
  base := by rw [htk]; exact h.base
  popped := by rw [hpo, hpu]; exact h.popped
  prod := hprod
  cons := h.cons.mono hc (fun e hs => by unfold Slots at hs ⊢; rwa [hw, hb])
    (fun _ _ hx => by rwa [hw]) (by rw [hpu]) (by rw [htk]) (by rw [htk, hpu]; omega)

/-- `buffer_[tail] = item`, the queue not being full. -/
theorem InvAt.write {m : Nat} (h : InvAt C m s) {item : T} (hw : s.written = s.pushed)
    (hw' : s'.written = s.pushed ++ [item]) (hc : s'.cons = s.cons)
    (hh : s'.q.head = s.q.head) (ht : s'.q.tail = s.q.tail)
    (hb : s'.q.buffer = Function.update s.q.buffer s.q.tail item)
    (hpu : s'.pushed = s.pushed) (hpo : s'.popped = s.popped) (htk : s'.taken = s.taken)
    (hprod : ProdInv C s') : InvAt C m s' where
  head := by rw [hh, htk, h.head]
  tail := by rw [ht, hpu, h.tail]
  le := by rw [htk, hpu]; exact h.le
  room := by rw [htk, hpu]; exact h.room
  base := by rw [htk]; exact h.base
  popped := by rw [hpo, hpu]; exact h.popped
  prod := hprod
  cons := by
    refine h.cons.mono hc (fun e hs i x hm hx hlen he => ?_) (fun i x hx => ?_) (by rw [hpu])
      (by rw [htk]) (by rw [htk, hpu]; omega)
    · rw [hw'] at hx hlen
      rw [List.length_append, List.length_singleton] at hlen
      rw [hb]
      rcases Nat.lt_trichotomy i s.pushed.length with hlt | rfl | hgt
      · rw [Function.update_of_ne (by rw [h.tail]; exact Circular.mod_ne hlt (by omega))]
        rw [List.getElem?_append_left hlt] at hx
        exact hs i x hm (by rwa [hw]) (by rw [hw]; omega) he
      · simp only [List.getElem?_concat_length, Option.some.injEq] at hx
        rw [← h.tail, Function.update_self, hx]
      · rw [List.getElem?_eq_none (by simp; omega)] at hx
        cases hx
    · rw [hw] at hx
      rw [hw', List.getElem?_append_left (List.getElem?_eq_some_iff.1 hx).1, hx]

/-- `tail_.store(next)` publishes the written value. -/
theorem InvAt.publish {m : Nat} (h : InvAt C m s) {item : T}
    (hroom : s.pushed.length + 1 < s.taken + C.cap) (hw : s.written = s.pushed ++ [item])
    (hw' : s'.written = s'.pushed) (hc : s'.cons = s.cons)
    (hh : s'.q.head = s.q.head) (ht : s'.q.tail = C.next s.q.tail) (hb : s'.q.buffer = s.q.buffer)
    (hpu : s'.pushed = s.pushed ++ [item]) (hpo : s'.popped = s.popped) (htk : s'.taken = s.taken)
    (hprod : ProdInv C s') : InvAt C m s' where
  head := by rw [hh, htk, h.head]
  tail := by rw [ht, hpu, h.tail, C.next_mod, List.length_append, List.length_singleton]
  le := by rw [htk, hpu]; have := h.le; simp; omega
  room := by rw [htk, hpu]; simpa using hroom
  base := by rw [htk]; exact h.base
  popped := by
    rw [hpo, hpu]
    exact h.popped.trans (by rw [List.take_append]; exact List.sublist_append_left _ _)
  prod := hprod
  cons := by
    have hww : s'.written = s.written := by rw [hw', hpu, hw]
    refine h.cons.mono hc (fun e hs => ?_) (fun i x hx => by rwa [hww]) (by rw [hpu]; simp)
      (by rw [htk]) (by rw [htk, hpu]; have := h.le; simp; omega)
    unfold Slots at hs ⊢
    rwa [hww, hb]

/-- A successful exchange: the queue was full, its oldest element is dropped. -/
theorem InvAt.exchange {m : Nat} (h : InvAt C m s) (hcap : 2 < C.cap)
    (hfull : s.q.head = C.next s.q.tail) (hw : s'.written = s.written) (hc : s'.cons = s.cons)
    (hh : s'.q.head = C.next s.q.head) (ht : s'.q.tail = s.q.tail) (hb : s'.q.buffer = s.q.buffer)
    (hpu : s'.pushed = s.pushed) (hpo : s'.popped = s.popped) (htk : s'.taken = s.taken + 1)
    (hprod : ProdInv C s') : InvAt C m s' := by
  -- `next(tail) = head` for counters less than `Cap` apart: exactly `Cap - 1` elements
  have hlen : s.pushed.length + 1 = s.taken + C.cap := by
    have hle := h.le
    have hroom := h.room
    apply Circular.mod_inj (c := C.cap) (a := s.taken + 1) (by omega) (by omega) (by omega)
      (by omega)
    rw [h.head, h.tail, C.next_mod] at hfull
    rw [← hfull, Nat.add_mod_right]
  refine ⟨?_, ?_, ?_, ?_, ?_, ?_, hprod, ?_⟩
  · rw [hh, htk, h.head, C.next_mod]
  · rw [ht, hpu, h.tail]
  · rw [htk, hpu]; omega
  · rw [htk, hpu]; omega
  · rw [htk]; have := h.base; omega
  · rw [hpo, hpu]; exact h.popped
  · refine h.cons.mono hc (fun e hs => ?_) (fun _ _ hx => by rwa [hw]) (by rw [hpu])
      (by rw [htk]; omega) (by rw [htk, hpu]; omega)
    unfold Slots at hs ⊢
    rwa [hw, hb]

/-- The producer's accesses keep the invariant. -/
theorem producerStep_inv {m : Nat} {spurious : Bool} (h : InvAt C m s)
    (hx : WideExchange C s (.producer spurious)) (hs : producerStep C s spurious = some s') :
    InvAt C m s' := by
  have hprod := h.prod
  unfold producerStep at hs
  unfold ProdInv at hprod
  cases hpc : s.prod with
  | idle => rw [hpc] at hs; cases hs
  | pushLoadHead item tail =>
    rw [hpc] at hs hprod
    simp only at hs hprod
    subst hprod
    split at hs
    · cases hs
      exact h.local rfl rfl rfl rfl rfl rfl (by simp [Sys.taken, hpc]) (by simp [Sys.written, hpc])
        trivial
    · rename_i hne
      cases hs
      refine h.local rfl rfl rfl rfl rfl rfl (by simp [Sys.taken, hpc]) (by simp [Sys.written, hpc])
        ⟨rfl, ?_⟩
      have htk : Sys.taken { s with prod := .pushWrite item s.q.tail } = s.taken := by
        simp [Sys.taken, hpc]
      rw [htk]
      exact room_of_ne h hne
  | pushWrite item tail =>
    rw [hpc] at hs hprod
    obtain ⟨rfl, hroom⟩ := hprod
    cases hs
    exact h.write (by simp [Sys.written, hpc]) rfl rfl rfl rfl rfl rfl rfl
      (by simp [Sys.taken, hpc]) ⟨rfl, by simpa [Sys.taken, hpc] using hroom⟩
  | pushStoreTail item tail =>
    rw [hpc] at hs hprod
    obtain ⟨rfl, hroom⟩ := hprod
    cases hs
    exact h.publish hroom (by simp [Sys.written, hpc]) rfl rfl rfl rfl rfl rfl rfl
      (by simp [Sys.taken, hpc]) trivial
  | dropLoadTail item dropped =>
    rw [hpc] at hs
    cases hs
    exact h.local rfl rfl rfl rfl rfl rfl (by simp [Sys.taken, hpc])
      (by simp [Sys.written, hpc]) rfl
  | dropLoadHead item dropped tail =>
    rw [hpc] at hs hprod
    simp only at hs hprod
    subst hprod
    split at hs
    · rename_i hne
      cases hs
      refine h.local rfl rfl rfl rfl rfl rfl (by simp [Sys.taken, hpc]) (by simp [Sys.written, hpc])
        ⟨rfl, ?_⟩
      have htk : Sys.taken { s with prod := .dropWrite item dropped s.q.tail } = s.taken := by
        simp [Sys.taken, hpc]
      rw [htk]
      exact room_of_ne h hne
    · rename_i heq
      cases hs
      exact h.local rfl rfl rfl rfl rfl rfl (by simp [Sys.taken, hpc]) (by simp [Sys.written, hpc])
        (not_not.1 heq).symm
  | dropWrite item dropped tail =>
    rw [hpc] at hs hprod
    obtain ⟨rfl, hroom⟩ := hprod
    cases hs
    exact h.write (by simp [Sys.written, hpc]) rfl rfl rfl rfl rfl rfl rfl
      (by simp [Sys.taken, hpc]) ⟨rfl, by simpa [Sys.taken, hpc] using hroom⟩
  | dropStoreTail item dropped tail =>
    rw [hpc] at hs hprod
    obtain ⟨rfl, hroom⟩ := hprod
    cases hs
    exact h.publish hroom (by simp [Sys.written, hpc]) rfl rfl rfl rfl rfl rfl rfl
      (by simp [Sys.taken, hpc]) trivial
  | dropExchange item dropped head =>
    rw [hpc] at hs hprod
    simp only at hs hprod
    subst hprod
    split at hs
    · rename_i hcas
      cases hs
      exact h.exchange (hx _ _ _ hpc) hcas.1 (by simp [Sys.written, hpc]) rfl (by rw [hcas.1]) rfl
        rfl rfl rfl (by simp [Sys.taken, hpc]) trivial
    · cases hs
      exact h.local rfl rfl rfl rfl rfl rfl (by simp [Sys.taken, hpc]) (by simp [Sys.written, hpc])
        trivial
  | dropFetchAdd item =>
    rw [hpc] at hs
    cases hs
    exact h.local rfl rfl rfl rfl rfl rfl (by simp [Sys.taken, hpc]; omega)
      (by simp [Sys.written, hpc]) trivial
where
  /-- The load of `head_` did not find `next(tail)`: a slot is free, and stays free. -/
  room_of_ne {T : Type} {C : Capacity} {m : Nat} {s : Sys T} (h : InvAt C m s)
      (hne : C.next s.q.tail ≠ s.q.head) : s.pushed.length + 1 < s.taken + C.cap := by
    have hroom := h.room
    rcases Nat.lt_or_ge (s.pushed.length + 1) (s.taken + C.cap) with hlt | hge
    · exact hlt
    · refine absurd ?_ hne
      rw [h.tail, h.head, C.next_mod, show s.pushed.length + 1 = s.taken + C.cap by omega,
        Nat.add_mod_right]

/-! ## The consumer's steps -/

theorem written_length_le {m : Nat} (h : InvAt C m s) : s.written.length ≤ s.taken + C.cap := by
  have hroom := h.room
  have hprod := h.prod
  unfold Sys.written
  unfold ProdInv at hprod
  cases hpc : s.prod <;> rw [hpc] at hprod <;> simp <;> omega

theorem pushed_of_written {i : Nat} {x : T} (h : s.written[i]? = some x)
    (hi : i < s.pushed.length) :
    s.pushed[i]? = some x := by
  unfold Sys.written at h
  split at h
  · rwa [List.getElem?_append_left hi] at h
  · rwa [List.getElem?_append_left hi] at h
  · exact h

/-- `T item = std::move(buffer_[head])` reads the newest value in the slot and spoils only it. -/
theorem InvAt.read {m : Nat} (h : InvAt C m s) {head : Nat} (hpc : s.cons = .popRead head)
    (hs : consumerStep C moved s = some s') : InvAt C m s' := by
  have hcons := h.cons
  unfold ConsInv at hcons
  rw [hpc] at hcons
  obtain ⟨⟨j, hj, hlt⟩, hsl⟩ := hcons
  have hwl : s.pushed.length ≤ s.written.length := by
    unfold Sys.written
    split <;> simp
  obtain ⟨i, hji, hi, hlast, him⟩ := Circular.exists_last C.cap_pos (Nat.lt_of_lt_of_le hlt hwl)
  have hbuf := hsl i _ (Nat.le_trans hj.base hji) (List.getElem?_eq_getElem hi) hlast (by simp)
  rw [him, ← hj.head] at hbuf
  unfold consumerStep at hs
  rw [hpc] at hs
  cases hs
  refine ⟨h.head, h.tail, h.le, h.room, h.base, h.popped, h.prod, j, i,
    ⟨hj.head, hj.base, hj.le, hj.live⟩, hlt, hji, him.trans hj.head.symm, ?_, ?_⟩
  · exact (List.getElem?_eq_getElem hi).trans (congrArg some hbuf.symm)
  · intro k x hm hx hlen hne
    have hk : k < s.written.length := (List.getElem?_eq_some_iff.1 hx).1
    have hlen' : s.written.length ≤ k + C.cap := hlen
    have hki : k % C.cap ≠ head := by
      rw [hj.head, ← him]
      intro he
      apply hne
      rw [Circular.mod_inj (a := s.written.length - C.cap) (by omega) (by omega) (by omega)
        (by omega) he]
    simp only
    rw [Function.update_of_ne hki]
    exact hsl k x hm hx hlen (by simp)

/-- The store that ends a `try_pop`, on a `head_` that the call loaded: position `taken` is taken,
and the value returned is that of a position between the last pop and it. -/
theorem InvAt.store {m : Nat} (h : InvAt C m s) {head : Nat} {item : T}
    (hpc : s.cons = .popStoreHead head item) (hfresh : s.q.head = head)
    (hs : consumerStep C moved s = some s') : InvAt C (s.taken + 1) s' := by
  have hcons := h.cons
  unfold ConsInv at hcons
  rw [hpc] at hcons
  obtain ⟨j, i, hj, hlt, hji, him, hx, hsl⟩ := hcons
  have hle := hj.le
  have hlive : s.taken < s.pushed.length := by
    rcases Nat.lt_or_ge j s.taken with hd | hd
    · exact hj.live hd
    · omega
  -- `i` and `taken` share a slot, and `i` is less than a lap ahead
  have hit : i ≤ s.taken := by
    have hib := (List.getElem?_eq_some_iff.1 hx).1
    have hwl := written_length_le h
    rcases Nat.lt_or_ge s.taken i with hgt | hge
    · refine absurd ?_ (Circular.mod_ne hgt (show i < s.taken + C.cap by omega))
      rw [him, ← hfresh, h.head]
    · exact hge
  have hpi := pushed_of_written hx (by omega)
  unfold consumerStep at hs
  rw [hpc] at hs
  cases hs
  have htk : Sys.taken { s with
      q := { s.q with head := C.next head }
      cons := .idle
      popped := s.popped ++ [item] } = s.taken + 1 := by
    simp [Sys.taken]; omega
  refine ⟨?_, h.tail, ?_, ?_, ?_, ?_, ?_, ?_⟩
  · rw [htk]
    simp only [← hfresh, h.head, C.next_mod]
  · rw [htk]; exact hlive
  · rw [htk]; have := h.room; simp only; omega
  · rw [htk]
  · have h1 : (s.popped ++ [item]).Sublist (s.pushed.take (i + 1)) := by
      rw [List.take_add_one, hpi]
      exact (h.popped.trans (List.take_sublist_take_left (by have := hj.base; omega))).append
        (List.Sublist.refl _)
    exact h1.trans (List.take_sublist_take_left (by omega))
  · have hprod := h.prod
    unfold ProdInv at hprod ⊢
    rw [htk]
    simp only
    cases hp : s.prod <;> rw [hp] at hprod <;> simp only at hprod ⊢
    all_goals first
      | exact hprod
      | exact ⟨hprod.1, by omega⟩
  · intro k x hm hx' hlen _
    exact hsl k x (by have := h.base; omega) hx' hlen (by simp; omega)

/-- The consumer's accesses keep the invariant when its stores are fresh. -/
theorem consumerStep_inv (h : Inv C s) (hf : FreshStore s .consumer)
    (hs : consumerStep C moved s = some s') : Inv C s' := by
  obtain ⟨m, h⟩ := h
  cases hpc : s.cons with
  | idle => unfold consumerStep at hs; rw [hpc] at hs; cases hs
  | popLoadTail head =>
    have hcons := h.cons
    unfold ConsInv at hcons
    rw [hpc] at hcons
    obtain ⟨⟨j, hj⟩, hsl⟩ := hcons
    unfold consumerStep at hs
    rw [hpc] at hs
    simp only at hs
    split at hs
    · cases hs
      exact ⟨m, h.head, h.tail, h.le, h.room, h.base, h.popped, h.prod, hsl⟩
    · rename_i hne
      cases hs
      refine ⟨m, h.head, h.tail, h.le, h.room, h.base, h.popped, h.prod,
        ⟨j, ⟨hj.head, hj.base, hj.le, hj.live⟩, ?_⟩, hsl⟩
      -- `head ≠ tail_` leaves `j` different from the number of pushes, hence below it
      have hjt := hj.le
      have hle := h.le
      rcases Nat.lt_or_ge j s.pushed.length with hlt | hge
      · exact hlt
      · refine absurd ?_ hne
        rw [hj.head, h.tail, show j = s.pushed.length by omega]
  | popRead head => exact ⟨m, h.read hpc hs⟩
  | popStoreHead head item => exact ⟨_, h.store hpc (hf head item hpc) hs⟩

/-! ## Runs -/

/-- **One access of either thread keeps the invariant**, stores to `head_` being fresh. -/
theorem step_inv {l : Label T} (h : Inv C s) (hc : FreshStore s l ∧ WideExchange C s l)
    (hs : step C moved s l = some s') : Inv C s' := by
  cases l with
  | tryPush item =>
    obtain ⟨m, h⟩ := h
    unfold step at hs
    cases hp : s.prod <;> simp only [hp] at hs <;> cases hs
    exact ⟨m, h.local rfl rfl rfl rfl rfl rfl (by simp [Sys.taken, hp]) (by simp [Sys.written, hp])
      rfl⟩
  | dropOldestPush item =>
    obtain ⟨m, h⟩ := h
    unfold step at hs
    cases hp : s.prod <;> simp only [hp] at hs <;> cases hs
    exact ⟨m, h.local rfl rfl rfl rfl rfl rfl (by simp [Sys.taken, hp]) (by simp [Sys.written, hp])
      rfl⟩
  | producer spurious =>
    obtain ⟨m, h⟩ := h
    exact ⟨m, producerStep_inv h hc.2 hs⟩
  | tryPop =>
    obtain ⟨m, h⟩ := h
    have hcons := h.cons
    unfold ConsInv at hcons
    unfold step at hs
    cases hp : s.cons <;> simp only [hp] at hs hcons <;> cases hs
    exact ⟨m, h.head, h.tail, h.le, h.room, h.base, h.popped, h.prod,
      ⟨s.taken, ⟨h.head, h.base, Nat.le_refl _, fun hlt => absurd hlt (Nat.lt_irrefl _)⟩⟩, hcons⟩
  | consumer => exact consumerStep_inv h hc.1 hs

end Qdgz300.Common
