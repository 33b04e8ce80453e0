import Qdgz300.Protocol.DupCmdCache

/-!
# The duplicate-command cache is a bounded first-in first-out map

Every call drops some keys from the front of `fifo_` (`dropFront`) and puts at most one value, so
that the map and the queue stay in step with the trace (`inv_step`). Which keys a call throws out is
read off the two states (`evicted_upsert`, `evicted_setMaxEntries`).
-/

namespace Qdgz300.Protocol.DupCmdCache

open FifoMap

/-- The first `n` keys of `fifo_` leave, and their entries with them. -/
def dropFront (cache : DupCmdCache) (n : Nat) : DupCmdCache :=
  { cache with
    entries := (cache.fifo.take n).foldl (fun entries key => entries.erase key) cache.entries
    fifo := cache.fifo.drop n }

/-- What holds of a cache between two calls, given the trace of what happened so far. -/
structure Inv (cache : DupCmdCache) (trace : List (Event DupCmdKey DupCmdCacheEntry)) : Prop where
  synced : Synced cache.entries cache.fifo trace
  keyed : ∀ key entry, cache.entries.lookup key = some entry → entry.key = key
  bounded : cache.size ≤ cache.maxEntries
  positive : 0 < cache.maxEntries

variable {cache : DupCmdCache} {trace : List (Event DupCmdKey DupCmdCacheEntry)} {key : DupCmdKey}
  {ack : ScheduleApplyAckPayload} {nowMs : BitVec 64}

theorem atLeastOne_pos (maxEntries : Nat) : 0 < atLeastOne maxEntries := by
  unfold atLeastOne
  split <;> omega

theorem inv_new (maxEntries : Nat) : Inv (new maxEntries) [] where
  synced := synced_nil
  keyed := by simp [new]
  bounded := Nat.zero_le _
  positive := atLeastOne_pos maxEntries

/-! ## The front of the queue -/

theorem synced_dropFront (h : Synced cache.entries cache.fifo trace) (n : Nat) :
    Synced (cache.dropFront n).entries (cache.dropFront n).fifo
      (trace ++ (cache.fifo.take n).map .evict) := by
  have hsplit : Synced cache.entries (cache.fifo.take n ++ cache.fifo.drop n) trace := by
    rwa [List.take_append_drop]
  exact hsplit.evicts

theorem size_dropFront (h : Synced cache.entries cache.fifo trace) (n : Nat) :
    (cache.dropFront n).size = cache.size - n := by
  rw [size, ← (synced_dropFront h n).length, size, ← h.length]
  exact List.length_drop

theorem keyed_dropFront (h : ∀ key entry, cache.entries.lookup key = some entry → entry.key = key)
    (n : Nat) {entry : DupCmdCacheEntry}
    (hmem : (cache.dropFront n).entries.lookup key = some entry) :
    entry.key = key := by
  have hsub : ∀ (front : List DupCmdKey) (m : AList fun _ : DupCmdKey => DupCmdCacheEntry),
      (front.foldl (fun entries key => entries.erase key) m).lookup key = some entry →
        m.lookup key = some entry := by
    intro front
    induction front with
    | nil => exact fun _ hm => hm
    | cons k front ih => exact fun m hm => (KeyMap.lookup_erase_some (ih (m.erase k) hm)).2
  exact h key entry (hsub _ _ hmem)

theorem evictFront_eq (cache : DupCmdCache) : cache.evictFront = cache.dropFront 1 := by
  unfold evictFront dropFront
  split <;> rename_i hfifo <;> simp [hfifo]
  rw [← hfifo]

/-- The loop of `set_max_entries` drops the surplus. -/
theorem shrink_eq (maxEntries : Nat) :
    ∀ {fifo : List DupCmdKey} {entries : AList fun _ : DupCmdKey => DupCmdCacheEntry}
      {trace : List (Event DupCmdKey DupCmdCacheEntry)}, Synced entries fifo trace →
      shrink maxEntries fifo entries =
        ({ maxEntries, entries, fifo } : DupCmdCache).dropFront (KeyMap.size entries - maxEntries)
  | [], _, _, h => by simp [shrink, dropFront]
  | evictKey :: fifo, entries, _, h => by
    have hlength := h.length
    have hnext := h.evict
    have hrest := hnext.length
    rw [List.length_cons] at hlength
    rw [shrink]
    split
    · rename_i hlt
      have hcount : KeyMap.size entries - maxEntries =
          KeyMap.size (entries.erase evictKey) - maxEntries + 1 := by omega
      rw [shrink_eq maxEntries hnext, hcount]
      rfl
    · rename_i hge
      have hcount : KeyMap.size entries - maxEntries = 0 := by omega
      rw [hcount]
      rfl

theorem setMaxEntries_eq (h : Inv cache trace) (maxEntries : Nat) :
    cache.setMaxEntries maxEntries =
      { cache.dropFront (cache.size - atLeastOne maxEntries) with
        maxEntries := atLeastOne maxEntries } :=
  shrink_eq _ h.synced

/-! ## The value that `upsert` puts -/

theorem upsert_of_mem (h : Inv cache trace) (hmem : key ∈ cache.entries) :
    cache.upsert key ack nowMs =
      { cache with
        entries := cache.entries.insert key { key, lastResult := ack, cachedAtMs := nowMs } } := by
  obtain ⟨entry, hentry⟩ := Option.isSome_iff_exists.1 (AList.lookup_isSome.2 hmem)
  have hkey := h.keyed key entry hentry
  simp [upsert, hentry, hkey]

/-- An absent key is queued, behind the ones that are not dropped for it. -/
theorem upsert_of_notMem (h : Inv cache trace) (hmem : key ∉ cache.entries) :
    cache.upsert key ack nowMs =
      { cache with
        entries := (cache.dropFront (cache.size + 1 - cache.maxEntries)).entries.insert key
          { key, lastResult := ack, cachedAtMs := nowMs }
        fifo := (cache.dropFront (cache.size + 1 - cache.maxEntries)).fifo ++ [key] } := by
  have hbounded := h.bounded
  have hnone := AList.lookup_eq_none.2 hmem
  by_cases hfull : cache.maxEntries ≤ cache.size
  · have hone : cache.size + 1 - cache.maxEntries = 1 := by omega
    simp only [upsert, hnone, hfull, if_true, evictFront_eq, hone]
    rfl
  · have hzero : cache.size + 1 - cache.maxEntries = 0 := by omega
    simp only [upsert, hnone, hfull, if_false, hzero]
    rfl

theorem keyed_insert {entries : AList fun _ : DupCmdKey => DupCmdCacheEntry}
    {new : DupCmdCacheEntry}
    (h : ∀ key entry, entries.lookup key = some entry → entry.key = key) (hnew : new.key = key) :
    ∀ k entry, (entries.insert key new).lookup k = some entry → entry.key = k := by
  intro k entry hk
  rcases KeyMap.lookup_insert_cases hk with ⟨rfl, rfl⟩ | ⟨-, hold⟩
  · exact hnew
  · exact h k entry hold

/-! ## One call -/

theorem evicted_dropFront (h : Inv cache trace) (n : Nat) :
    missing cache.fifo (cache.dropFront n).entries = cache.fifo.take n :=
  missing_eq h.synced.nodup (List.take_append_drop n cache.fifo).symm (synced_dropFront h.synced n)

theorem notMem_fifo (h : Inv cache trace) (hmem : key ∉ cache.entries) : key ∉ cache.fifo :=
  fun hq => hmem ((h.synced.keys key).1 hq)

theorem evicted_upsert_of_notMem (h : Inv cache trace) (hmem : key ∉ cache.entries) :
    evicted cache (cache.upsert key ack nowMs) =
      cache.fifo.take (cache.size + 1 - cache.maxEntries) := by
  rw [evicted, upsert_of_notMem h hmem, missing_insert (notMem_fifo h hmem), evicted_dropFront h]

theorem evicted_upsert_of_mem (h : Inv cache trace) (hmem : key ∈ cache.entries) :
    evicted cache (cache.upsert key ack nowMs) = [] := by
  rw [evicted, upsert_of_mem h hmem]
  exact missing_eq h.synced.nodup (List.nil_append _).symm (h.synced.update hmem)

/-- **What `upsert` throws out**: the oldest key, when an absent one comes to a full cache. -/
theorem evicted_upsert (h : Inv cache trace) (key : DupCmdKey) (ack : ScheduleApplyAckPayload)
    (nowMs : BitVec 64) :
    evicted cache (cache.upsert key ack nowMs) =
      if key ∉ cache.entries ∧ cache.size = cache.maxEntries then cache.fifo.take 1 else [] := by
  have hbounded := h.bounded
  by_cases hmem : key ∈ cache.entries
  · rw [if_neg fun hand => hand.1 hmem, evicted_upsert_of_mem h hmem]
  · rw [evicted_upsert_of_notMem h hmem]
    split
    · rename_i hfull
      rw [hfull.2, Nat.add_sub_cancel_left]
    · rename_i hroom
      have hlt : cache.size ≠ cache.maxEntries := fun heq => hroom ⟨hmem, heq⟩
      have hzero : cache.size + 1 - cache.maxEntries = 0 := by omega
      rw [hzero, List.take_zero]

/-- **What `set_max_entries` throws out**: the oldest keys, as many as are too many. -/
theorem evicted_setMaxEntries (h : Inv cache trace) (maxEntries : Nat) :
    evicted cache (cache.setMaxEntries maxEntries) =
      cache.fifo.take (cache.size - atLeastOne maxEntries) := by
  rw [evicted, setMaxEntries_eq h]
  exact evicted_dropFront h _

theorem inv_upsert_of_mem (h : Inv cache trace) (hmem : key ∈ cache.entries) :
    Inv (cache.upsert key ack nowMs)
      (trace ++ [.put key { key, lastResult := ack, cachedAtMs := nowMs }]) := by
  rw [upsert_of_mem h hmem]
  refine ⟨h.synced.update hmem, keyed_insert h.keyed rfl, ?_, h.positive⟩
  obtain ⟨entry, hentry⟩ := Option.isSome_iff_exists.1 (AList.lookup_isSome.2 hmem)
  exact Nat.le_trans (Nat.le_of_eq (KeyMap.size_insert_of_some hentry _)) h.bounded

theorem inv_upsert_of_notMem (h : Inv cache trace) (hmem : key ∉ cache.entries) :
    Inv (cache.upsert key ack nowMs)
      (trace ++ (cache.fifo.take (cache.size + 1 - cache.maxEntries)).map .evict ++
        [.put key { key, lastResult := ack, cachedAtMs := nowMs }]) := by
  have hbounded := h.bounded
  have hpositive := h.positive
  have hdrop := synced_dropFront h.synced (cache.size + 1 - cache.maxEntries)
  have habsent : key ∉ (cache.dropFront (cache.size + 1 - cache.maxEntries)).entries :=
    fun hin => notMem_fifo h hmem (List.mem_of_mem_drop ((hdrop.keys key).2 hin))
  have hsize := size_dropFront h.synced (cache.size + 1 - cache.maxEntries)
  rw [upsert_of_notMem h hmem]
  refine ⟨hdrop.insert habsent, keyed_insert (fun k entry => keyed_dropFront h.keyed _) rfl, ?_,
    hpositive⟩
  have hnew := KeyMap.size_insert_of_none (AList.lookup_eq_none.2 habsent)
    { key, lastResult := ack, cachedAtMs := nowMs }
  have hroom : (cache.dropFront (cache.size + 1 - cache.maxEntries)).size + 1 ≤
    cache.maxEntries := by
    omega
  exact Nat.le_trans (Nat.le_of_eq hnew) hroom

theorem inv_setMaxEntries (h : Inv cache trace) (maxEntries : Nat) :
    Inv (cache.setMaxEntries maxEntries)
      (trace ++ (cache.fifo.take (cache.size - atLeastOne maxEntries)).map .evict) := by
  have hsize := size_dropFront h.synced (cache.size - atLeastOne maxEntries)
  have hbounded : cache.size - (cache.size - atLeastOne maxEntries) ≤ atLeastOne maxEntries := by
    omega
  rw [setMaxEntries_eq h]
  exact ⟨synced_dropFront h.synced _, fun k entry => keyed_dropFront h.keyed _,
    Nat.le_trans (Nat.le_of_eq hsize) hbounded, atLeastOne_pos maxEntries⟩

/-- **The step**: every call keeps the map and the queue in step with the trace. -/
theorem inv_step (h : Inv cache trace) (call : Call) :
    Inv (step cache call).1 (trace ++ (step cache call).2) := by
  cases call with
  | upsert key ack nowMs =>
    by_cases hmem : key ∈ cache.entries
    · rw [step, evicted_upsert_of_mem h hmem]
      exact inv_upsert_of_mem h hmem
    · rw [step, evicted_upsert_of_notMem h hmem, ← List.append_assoc]
      exact inv_upsert_of_notMem h hmem
  | find key => simpa [step] using h
  | clear =>
    exact ⟨h.synced.clear, by simp [step, clear], Nat.zero_le _, h.positive⟩
  | setMaxEntries maxEntries =>
    rw [step, evicted_setMaxEntries h]
    exact inv_setMaxEntries h maxEntries

/-- **The run.** -/
theorem inv_runCalls (maxEntries : Nat) (calls : List Call) :
    Inv (runCalls maxEntries calls).1 (runCalls maxEntries calls).2 :=
  Machine.run_out_inv step (I := Inv) (fun _ _ call h => inv_step h call) [] (inv_new maxEntries)

/-! ## The limit -/

/-- The argument of the last `set_max_entries`, or else of the constructor. -/
def lastLimit (limit : Nat) : List Call → Nat
  | [] => limit
  | .setMaxEntries maxEntries :: calls => lastLimit maxEntries calls
  | _ :: calls => lastLimit limit calls

theorem maxEntries_shrink (maxEntries : Nat) (fifo : List DupCmdKey)
    (entries : AList fun _ : DupCmdKey => DupCmdCacheEntry) :
    (shrink maxEntries fifo entries).maxEntries = maxEntries := by
  fun_induction shrink maxEntries fifo entries with
  | case1 entries => rfl
  | case2 entries evictKey fifo hlt ih => exact ih
  | case3 entries evictKey fifo hge => rfl

theorem maxEntries_evictFront (cache : DupCmdCache) :
    cache.evictFront.maxEntries = cache.maxEntries := by
  unfold evictFront
  split <;> rfl

theorem maxEntries_upsert (cache : DupCmdCache) (key : DupCmdKey) (ack : ScheduleApplyAckPayload)
    (nowMs : BitVec 64) : (cache.upsert key ack nowMs).maxEntries = cache.maxEntries := by
  cases hfound : cache.entries.lookup key with
  | some entry => simp only [upsert, hfound]
  | none =>
    by_cases hfull : cache.maxEntries ≤ cache.size
    · simpa only [upsert, hfound, if_pos hfull] using maxEntries_evictFront cache
    · simp only [upsert, hfound, if_neg hfull]

theorem maxEntries_run (calls : List Call) {cache : DupCmdCache} {limit : Nat}
    (h : cache.maxEntries = atLeastOne limit) :
    (Machine.run step cache calls).1.maxEntries = atLeastOne (lastLimit limit calls) := by
  induction calls generalizing cache limit with
  | nil => exact h
  | cons call calls ih =>
    cases call with
    | upsert key ack nowMs => exact ih ((maxEntries_upsert cache key ack nowMs).trans h)
    | find key => exact ih h
    | clear => exact ih h
    | setMaxEntries maxEntries => exact ih (maxEntries_shrink _ _ _)

/-- What `find` answers, read off the trace. -/
theorem find_eq_some_iff (h : Inv cache trace) :
    cache.find key = some ack ↔ ∃ nowMs before after,
      trace = before ++ .put key { key, lastResult := ack, cachedAtMs := nowMs } :: after ∧
        ∀ e ∈ after, ¬ e.Touches key := by
  have hentry : cache.find key = some ack ↔ ∃ nowMs i,
      entry key trace = some (i, { key, lastResult := ack, cachedAtMs := nowMs }) := by
    rw [find, Option.map_eq_some_iff]
    refine ⟨?_, ?_⟩
    · rintro ⟨cached, hcached, rfl⟩
      obtain rfl := h.keyed key cached hcached
      rw [h.synced.lookup, Option.map_eq_some_iff] at hcached
      obtain ⟨⟨i, _⟩, hentry, rfl⟩ := hcached
      exact ⟨_, i, hentry⟩
    · rintro ⟨nowMs, i, hentry⟩
      exact ⟨_, by rw [h.synced.lookup, hentry]; rfl, rfl⟩
  rw [hentry]
  exact exists_congr fun nowMs => entry_iff

/-- **The cache is an exact bounded first-in first-out map**, after any sequence of calls: the keys
of the map are the elements of `fifo_`, each once and oldest first, there are at most `max_entries`,
which is what the constructor or the last `set_max_entries` was given (one for zero), `find` answers
with the latest `upsert` of a key that was neither thrown out nor cleared since, and what the next
call throws out are the oldest keys, as many as are too many. -/
theorem dup_cmd_cache_exact (maxEntries : Nat) (calls : List Call) :
    let cache := (runCalls maxEntries calls).1
    let trace := (runCalls maxEntries calls).2
    (∀ key, key ∈ cache.entries ↔ key ∈ cache.fifo) ∧ cache.fifo.Nodup ∧
      cache.fifo.Pairwise (Before trace) ∧ cache.size ≤ cache.maxEntries ∧
      cache.maxEntries = atLeastOne (lastLimit maxEntries calls) ∧
      (∀ key ack, cache.find key = some ack ↔ ∃ nowMs before after,
        trace = before ++ .put key { key, lastResult := ack, cachedAtMs := nowMs } :: after ∧
          ∀ e ∈ after, ¬ e.Touches key) ∧
      (∀ key ack nowMs, evicted cache (cache.upsert key ack nowMs) =
        if key ∉ cache.entries ∧ cache.size = cache.maxEntries then cache.fifo.take 1 else []) ∧
      ∀ limit, evicted cache (cache.setMaxEntries limit) =
        cache.fifo.take (cache.size - atLeastOne limit) := by
  intro cache trace
  have h : Inv cache trace := inv_runCalls maxEntries calls
  exact ⟨fun key => (h.synced.keys key).symm, h.synced.nodup, h.synced.ordered, h.bounded,
    maxEntries_run calls rfl, fun _ _ => find_eq_some_iff h, evicted_upsert h,
    evicted_setMaxEntries h⟩

end Qdgz300.Protocol.DupCmdCache
