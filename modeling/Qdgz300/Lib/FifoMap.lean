import Mathlib.Data.List.Induction
import Qdgz300.Lib.KeyMap

/-!
# A map with a queue of its keys

A map whose keys also stand in a queue, read off the trace of what happened to it. `entry key trace`
folds the trace: the number of the event that made `key` present, and the value put last.
`Synced m queue trace` says that the map holds what the trace says and that the queue is its keys,
oldest first; there is one rule for each event (`Synced.update`, `Synced.insert`, `Synced.evict`,
`Synced.clear`). `entry_iff` says what an entry is without the fold.
-/

namespace FifoMap

/-- What can happen to a map: a value is put, a key is thrown out, everything is. -/
inductive Event (α β : Type*) where
  | put (key : α) (value : β)
  | evict (key : α)
  | clear
  deriving DecidableEq

variable {α β : Type*} [DecidableEq α]

/-- One event in the account of `key`. A key that is present keeps the number of its insertion. -/
def note (key : α) : Option (Nat × β) → Event α β × Nat → Option (Nat × β)
  | found, (.put k v, at_) => if k = key then some ((found.map Prod.fst).getD at_, v) else found
  | found, (.evict k, _) => if k = key then none else found
  | _, (.clear, _) => none

/-- The event that inserted `key` and the value put last; `none` when it is absent. -/
def entry (key : α) (trace : List (Event α β)) : Option (Nat × β) :=
  trace.zipIdx.foldl (note key) none

/-- The number of the event that made `key` present. -/
def insertedAt (trace : List (Event α β)) (key : α) : Option Nat := (entry key trace).map Prod.fst

variable {trace : List (Event α β)} {key other : α} {value : β}

@[simp] theorem entry_nil : entry key ([] : List (Event α β)) = none := rfl

theorem entry_concat (e : Event α β) :
    entry key (trace ++ [e]) = note key (entry key trace) (e, trace.length) := by
  simp [entry, List.zipIdx_append]

@[simp] theorem entry_put_self :
    entry key (trace ++ [.put key value]) =
      some ((insertedAt trace key).getD trace.length, value) := by
  simp [entry_concat, note, insertedAt]

theorem entry_put_other (h : other ≠ key) :
    entry key (trace ++ [.put other value]) = entry key trace := by
  simp [entry_concat, note, h]

@[simp] theorem entry_evict_self : entry key (trace ++ [.evict key]) = none := by
  simp [entry_concat, note]

theorem entry_evict_other (h : other ≠ key) :
    entry key (trace ++ [.evict other]) = entry key trace := by
  simp [entry_concat, note, h]

@[simp] theorem entry_clear : entry key (trace ++ [.clear]) = none := by
  simp [entry_concat, note]

/-- The event says something about `key`. -/
def Event.Touches (key : α) : Event α β → Prop
  | .put k _ => k = key
  | .evict k => k = key
  | .clear => True

theorem entry_of_not_touches {e : Event α β} (h : ¬ e.Touches key) :
    entry key (trace ++ [e]) = entry key trace := by
  cases e with
  | put k v => exact entry_put_other h
  | evict k => exact entry_evict_other h
  | clear => exact absurd trivial h

omit [DecidableEq α] in
theorem concat_split {before after : List (Event α β)} {e x : Event α β}
    (h : trace ++ [e] = before ++ x :: after) :
    (before = trace ∧ x = e ∧ after = []) ∨
      ∃ rest, after = rest ++ [e] ∧ trace = before ++ x :: rest := by
  rcases List.eq_nil_or_concat after with rfl | ⟨rest, last, rfl⟩
  · obtain ⟨htrace, hlast⟩ := List.append_inj' h rfl
    exact .inl ⟨htrace.symm, (List.singleton_inj.1 hlast).symm, rfl⟩
  · rw [List.concat_eq_append, ← List.cons_append, ← List.append_assoc] at h
    obtain ⟨htrace, hlast⟩ := List.append_inj' h rfl
    obtain rfl := List.singleton_inj.1 hlast
    exact .inr ⟨rest, List.concat_eq_append, htrace⟩

/-- **What an entry is**: a key has the value of its latest put, unless it was thrown out since. -/
theorem entry_iff :
    (∃ i, entry key trace = some (i, value)) ↔
      ∃ before after, trace = before ++ .put key value :: after ∧ ∀ e ∈ after, ¬ e.Touches key := by
  induction trace using List.reverseRecOn with
  | nil => simp
  | append_singleton trace e ih =>
    refine ⟨?_, ?_⟩
    · rintro ⟨i, hi⟩
      by_cases htouch : e.Touches key
      · -- of the events that touch the key only a put leaves an entry
        cases e with
        | put k v =>
          obtain rfl : k = key := htouch
          rw [entry_put_self] at hi
          obtain ⟨-, rfl⟩ := Prod.mk.inj (Option.some.inj hi)
          exact ⟨trace, [], rfl, by simp⟩
        | evict k =>
          obtain rfl : k = key := htouch
          simp at hi
        | clear => simp at hi
      · rw [entry_of_not_touches htouch] at hi
        obtain ⟨before, after, rfl, hafter⟩ := ih.1 ⟨i, hi⟩
        refine ⟨before, after ++ [e], by simp, fun x hx => ?_⟩
        rcases List.mem_append.1 hx with hx | hx
        · exact hafter x hx
        · exact List.mem_singleton.1 hx ▸ htouch
    · rintro ⟨before, after, heq, hafter⟩
      rcases concat_split heq with ⟨-, rfl, -⟩ | ⟨rest, rfl, htrace⟩
      · exact ⟨_, entry_put_self⟩
      · rw [entry_of_not_touches (hafter e (by simp))]
        exact ih.2 ⟨before, rest, htrace, fun x hx => hafter x (List.mem_append_left _ hx)⟩

/-- A number given to an entry is that of an event of the trace. -/
theorem insertedAt_lt {i : Nat} (h : insertedAt trace key = some i) : i < trace.length := by
  induction trace using List.reverseRecOn generalizing i with
  | nil => simp [insertedAt] at h
  | append_singleton trace e ih =>
    rw [List.length_append]
    by_cases htouch : e.Touches key
    · cases e with
      | put k v =>
        obtain rfl : k = key := htouch
        rw [insertedAt, entry_put_self] at h
        obtain rfl : (insertedAt trace k).getD trace.length = i := Option.some.inj h
        cases hat : insertedAt trace k with
        | none => simp
        | some j => exact Nat.lt_trans (ih hat) (by simp)
      | evict k =>
        obtain rfl : k = key := htouch
        simp [insertedAt] at h
      | clear => simp [insertedAt] at h
    · rw [insertedAt, entry_of_not_touches htouch] at h
      exact Nat.lt_trans (ih h) (by simp)

/-! ## A map and its queue -/

/-- `a` was inserted before `b`. -/
def Before (trace : List (Event α β)) (a b : α) : Prop :=
  ∃ i j, insertedAt trace a = some i ∧ insertedAt trace b = some j ∧ i < j

/-- The map holds what the trace says, and the queue its keys, in the order of their insertion. -/
structure Synced (m : AList fun _ : α => β) (queue : List α) (trace : List (Event α β)) : Prop where
  lookup : ∀ key, m.lookup key = (entry key trace).map Prod.snd
  keys : ∀ key, key ∈ queue ↔ key ∈ m
  nodup : queue.Nodup
  ordered : queue.Pairwise (Before trace)

variable {m : AList fun _ : α => β} {queue : List α}

theorem synced_nil : Synced (∅ : AList fun _ : α => β) [] [] where
  lookup := fun _ => rfl
  keys := fun key => by simp
  nodup := .nil
  ordered := .nil

/-- Keys that keep their number keep their order. -/
theorem Before.congr {trace' : List (Event α β)} {a b : α} (h : Before trace a b)
    (ha : insertedAt trace' a = insertedAt trace a)
    (hb : insertedAt trace' b = insertedAt trace b) :
    Before trace' a b := by
  obtain ⟨i, j, hi, hj, hlt⟩ := h
  exact ⟨i, j, ha.trans hi, hb.trans hj, hlt⟩

theorem Synced.insertedAt_of_mem (h : Synced m queue trace) (hmem : key ∈ m) :
    ∃ i, insertedAt trace key = some i := by
  obtain ⟨v, hv⟩ := Option.isSome_iff_exists.1 (AList.lookup_isSome.2 hmem)
  rw [h.lookup, Option.map_eq_some_iff] at hv
  obtain ⟨⟨i, w⟩, hentry, -⟩ := hv
  exact ⟨i, by rw [insertedAt, hentry]; rfl⟩

theorem Synced.insertedAt_of_notMem (h : Synced m queue trace) (hmem : key ∉ m) :
    insertedAt trace key = none := by
  have hnone := h.lookup key
  rw [AList.lookup_eq_none.2 hmem, eq_comm, Option.map_eq_none_iff] at hnone
  rw [insertedAt, hnone]
  rfl

theorem lookup_put (h : Synced m queue trace) (k : α) :
    (m.insert key value).lookup k = (entry k (trace ++ [.put key value])).map Prod.snd := by
  by_cases hk : key = k
  · subst hk
    simp
  · rw [entry_put_other hk, AList.lookup_insert_ne (Ne.symm hk), h.lookup]

/-- **Update**: a value put for a present key leaves the queue alone. -/
theorem Synced.update (h : Synced m queue trace) (hmem : key ∈ m) :
    Synced (m.insert key value) queue (trace ++ [.put key value]) := by
  have hsame : ∀ k, insertedAt (trace ++ [.put key value]) k = insertedAt trace k := by
    intro k
    by_cases hk : key = k
    · subst hk
      obtain ⟨i, hi⟩ := h.insertedAt_of_mem hmem
      rw [insertedAt, entry_put_self, hi]
      rfl
    · rw [insertedAt, entry_put_other hk, insertedAt]
  refine ⟨lookup_put h, fun k => ?_, h.nodup, h.ordered.imp fun hb => hb.congr (hsame _) (hsame _)⟩
  rw [h.keys, AList.mem_insert]
  exact ⟨.inr, fun hor => hor.elim (fun heq => heq ▸ hmem) id⟩

/-- **Insertion**: a new key goes to the back of the queue. -/
theorem Synced.insert (h : Synced m queue trace) (hmem : key ∉ m) :
    Synced (m.insert key value) (queue ++ [key]) (trace ++ [.put key value]) := by
  have hnew : key ∉ queue := fun hq => hmem ((h.keys key).1 hq)
  have hsame : ∀ k ∈ queue, insertedAt (trace ++ [.put key value]) k = insertedAt trace k := by
    intro k hk
    have hne : key ≠ k := fun heq => hnew (heq ▸ hk)
    rw [insertedAt, entry_put_other hne, insertedAt]
  have hlast : insertedAt (trace ++ [.put key value]) key = some trace.length := by
    rw [insertedAt, entry_put_self, h.insertedAt_of_notMem hmem]
    rfl
  refine ⟨lookup_put h, fun k => ?_, ?_, ?_⟩
  · rw [List.mem_append, List.mem_singleton, AList.mem_insert, h.keys, or_comm]
  · exact List.nodup_append_comm.1 (List.nodup_cons.2 ⟨hnew, h.nodup⟩)
  · refine List.pairwise_append.2 ⟨?_, List.pairwise_singleton _ _, fun a ha b hb => ?_⟩
    · exact h.ordered.imp_of_mem fun ha hb hab => hab.congr (hsame _ ha) (hsame _ hb)
    · obtain rfl := List.mem_singleton.1 hb
      obtain ⟨i, hi⟩ := h.insertedAt_of_mem ((h.keys a).1 ha)
      exact ⟨i, _, (hsame a ha).trans hi, hlast, insertedAt_lt hi⟩

/-- **Eviction** of the front of the queue. -/
theorem Synced.evict {rest : List α} (h : Synced m (key :: rest) trace) :
    Synced (m.erase key) rest (trace ++ [.evict key]) := by
  obtain ⟨hfront, hnodup⟩ := List.nodup_cons.1 h.nodup
  have hsame : ∀ k ∈ rest, insertedAt (trace ++ [.evict key]) k = insertedAt trace k := by
    intro k hk
    have hne : key ≠ k := fun heq => hfront (heq ▸ hk)
    rw [insertedAt, entry_evict_other hne, insertedAt]
  refine ⟨fun k => ?_, fun k => ?_, hnodup, ?_⟩
  · by_cases hk : key = k
    · subst hk
      simp
    · rw [entry_evict_other hk, AList.lookup_erase_ne (Ne.symm hk), h.lookup]
  · rw [AList.mem_erase, ← h.keys, List.mem_cons]
    exact ⟨fun hk => ⟨fun heq => hfront (heq ▸ hk), .inr hk⟩,
      fun hk => hk.2.resolve_left hk.1⟩
  · exact (List.pairwise_cons.1 h.ordered).2.imp_of_mem fun ha hb hab =>
      hab.congr (hsame _ ha) (hsame _ hb)

/-- Evicting the keys of `front`, one after the other. -/
theorem Synced.evicts {rest : List α} :
    ∀ {front : List α} {m : AList fun _ : α => β} {trace : List (Event α β)},
      Synced m (front ++ rest) trace →
        Synced (front.foldl (fun m k => m.erase k) m) rest (trace ++ front.map .evict)
  | [], _, _, h => by simpa using h
  | key :: front, m, trace, h => by
    have hnext : Synced (m.erase key) (front ++ rest) (trace ++ [.evict key]) := h.evict
    have hall := hnext.evicts
    rwa [List.append_assoc] at hall

theorem Synced.clear (_ : Synced m queue trace) :
    Synced (∅ : AList fun _ : α => β) [] (trace ++ [.clear]) where
  lookup := fun key => by simp
  keys := fun key => by simp
  nodup := .nil
  ordered := .nil

/-- The queue is as long as the map is large. -/
theorem Synced.length (h : Synced m queue trace) : queue.length = KeyMap.size m := by
  have hperm : queue.Perm m.keys :=
    (List.perm_ext_iff_of_nodup h.nodup m.nodupKeys).2 fun key => (h.keys key).trans AList.mem_keys
  exact hperm.length_eq.trans (List.length_map _)

/-- The keys of the queue that are no keys of `m`. -/
def missing (queue : List α) (m : AList fun _ : α => β) : List α :=
  queue.filter fun key => decide (key ∉ m)

/-- Of a queue whose rest is in step with a map, exactly the front is missing there. -/
theorem missing_eq {front rest : List α} (hnodup : queue.Nodup) (hqueue : queue = front ++ rest)
    (h : Synced m rest trace) : missing queue m = front := by
  subst hqueue
  have hdisjoint := (List.nodup_append.1 hnodup).2.2
  rw [missing, List.filter_append, List.filter_eq_self.2, List.filter_eq_nil_iff.2, List.append_nil]
  · exact fun k hk => by simp [(h.keys k).1 hk]
  · intro k hk
    have hnot : k ∉ m := fun hm => hdisjoint k hk k ((h.keys k).2 hm) rfl
    simp [hnot]

/-- A key from outside the queue makes no difference. -/
theorem missing_insert (hkey : key ∉ queue) : missing queue (m.insert key value) =
    missing queue m := by
  refine List.filter_congr fun k hk => ?_
  have hne : k ≠ key := fun heq => hkey (heq ▸ hk)
  simp [AList.mem_insert, hne]

end FifoMap
