import Qdgz300.DataProc.Proof.Lifecycle

/-!
# When track time runs backwards

The time of a call is the latest `data_ts` of the batches that have an array of plots, 0 when there
is none, and every track has it as its `update_ts` afterwards (`updateTs_processPlots`). Over
batches whose times do not decrease it runs backwards exactly where no batch of a call has an array
and there is a track with a later time: **`track_time_iff`**.
-/

namespace Qdgz300.DataProc

variable {ops : DoubleOps} {config : TrackManagerConfig} {m : TrackManager} {latestTs : BitVec 64}
  {batches : List (Option PlotBatch)}

/-! ## The time of a call -/

/-- `std::max(latest_ts, data_ts)`. -/
def laterTs (latestTs dataTs : BitVec 64) : BitVec 64 :=
    if latestTs < dataTs then dataTs else latestTs

theorem le_laterTs (a b : BitVec 64) : a ≤ laterTs a b ∧ b ≤ laterTs a b := by
  unfold laterTs
  split
  · rename_i hlt
    exact ⟨BitVec.le_of_lt hlt, BitVec.le_refl b⟩
  · rename_i hge
    exact ⟨BitVec.le_refl a, BitVec.not_lt.1 hge⟩

/-- The latest of some times is one of them, and no earlier than any. -/
theorem foldl_laterTs (times : List (BitVec 64)) (first : BitVec 64) :
    times.foldl laterTs first ∈ first :: times ∧ ∀ t ∈ first :: times,
    t ≤ times.foldl laterTs first := by
  induction times generalizing first with
  | nil => simp
  | cons next times ih =>
    obtain ⟨hmem, hle⟩ := ih (laterTs first next)
    obtain ⟨hfirst, hnext⟩ := le_laterTs first next
    rw [List.foldl_cons]
    refine ⟨?_, fun t ht => ?_⟩
    · rcases List.mem_cons.1 hmem with heq | hrest
      · rw [heq, laterTs]
        split <;> simp
      · simp [hrest]
    · have hlater := hle _ List.mem_cons_self
      rcases List.mem_cons.1 ht with rfl | ht
      · exact BitVec.le_trans hfirst hlater
      · rcases List.mem_cons.1 ht with rfl | ht
        · exact BitVec.le_trans hnext hlater
        · exact hle t (List.mem_cons_of_mem _ ht)

/-- The times that a call looks at: those of the batches with an array of plots. -/
def plotTimes (batches : List (Option PlotBatch)) : List (BitVec 64) :=
  batches.filterMap fun batch => batch.bind fun batch => batch.plots.map fun _ => batch.dataTs

theorem gatherPlots_time (batches : List (Option PlotBatch)) :
    (gatherPlots batches).2 = (plotTimes batches).foldl laterTs 0 := by
  rw [plotTimes, List.foldl_filterMap]
  refine (List.foldl_hom Prod.snd fun acc batch => ?_).symm
  cases batch with
  | none => rfl
  | some batch => cases hplots : batch.plots <;> simp [hplots, laterTs]

/-- The batch has an array of plots. -/
def HasPlots (batches : List (Option PlotBatch)) : Prop :=
  ∃ batch, some batch ∈ batches ∧ batch.plots ≠ none

theorem mem_plotTimes {t : BitVec 64} :
    t ∈ plotTimes batches ↔ ∃ batch, some batch ∈ batches ∧ batch.plots ≠ none ∧
    batch.dataTs = t := by
  simp only [plotTimes, List.mem_filterMap, Option.bind_eq_some_iff, Option.map_eq_some_iff,
    Option.ne_none_iff_exists']
  refine ⟨?_, ?_⟩
  · rintro ⟨_, hmem, batch, rfl, ps, hps, rfl⟩
    exact ⟨batch, hmem, ⟨ps, hps⟩, rfl⟩
  · rintro ⟨batch, hmem, ⟨ps, hps⟩, rfl⟩
    exact ⟨some batch, hmem, batch, rfl, ps, hps, rfl⟩

/-- No batch of an earlier call is later than one of a later call. -/
def NotBefore (earlier later : List (Option PlotBatch)) : Prop :=
  ∀ batch batch', some batch ∈ earlier → some batch' ∈ later → batch.dataTs ≤ batch'.dataTs

theorem time_of_not_hasPlots (h : ¬ HasPlots batches) : (gatherPlots batches).2 = 0 := by
  have hnone : plotTimes batches = [] := by
    rw [List.eq_nil_iff_forall_not_mem]
    intro t ht
    obtain ⟨batch, hmem, hplots, -⟩ := mem_plotTimes.1 ht
    exact h ⟨batch, hmem, hplots⟩
  rw [gatherPlots_time, hnone]
  rfl

/-- A call with an array is no earlier than the calls before it. -/
theorem time_le {before : List (Option PlotBatch)} (h : NotBefore before batches)
    (hplots : HasPlots batches) : (gatherPlots before).2 ≤ (gatherPlots batches).2 := by
  obtain ⟨batch', hmem', harray⟩ := hplots
  have hlast : batch'.dataTs ≤ (gatherPlots batches).2 := by
    rw [gatherPlots_time]
    exact (foldl_laterTs _ 0).2 _ (List.mem_cons_of_mem _ (mem_plotTimes.2 ⟨batch', hmem', harray, rfl⟩))
  have hbefore := (foldl_laterTs (plotTimes before) 0).1
  rw [← gatherPlots_time] at hbefore
  rcases List.mem_cons.1 hbefore with hzero | htime
  · rw [hzero]
    exact Nat.zero_le _
  · obtain ⟨batch, hmem, -, hts⟩ := mem_plotTimes.1 htime
    rw [← hts]
    exact BitVec.le_trans (h batch batch' hmem hmem') hlast

/-! ## The times of a track -/

/-- A call leaves its time with a track, and lets it keep the time of its creation. -/
theorem TrackState.after_times (own : List Plot) (state : TrackState) :
    (state.after ops config latestTs own).snapshot.updateTs = latestTs ∧
      (state.after ops config latestTs own).snapshot.createTs = state.snapshot.createTs := by
  have hfold : ∀ (own : List Plot) (state : TrackState),
      (own ≠ [] ∨ state.snapshot.updateTs = latestTs) →
      (own.foldl (fun state plot => state.update ops config latestTs plot) state).snapshot.updateTs =
          latestTs ∧
        (own.foldl (fun state plot => state.update ops config latestTs plot) state).snapshot.createTs =
          state.snapshot.createTs := by
    intro own
    induction own with
    | nil => exact fun state h => ⟨h.resolve_left fun hnil => hnil rfl, rfl⟩
    | cons plot own ih => exact fun state _ => ih (state.update ops config latestTs plot) (.inr rfl)
  cases own with
  | nil => exact ⟨rfl, rfl⟩
  | cons plot own =>
    exact hfold (plot :: own) (state.predict ops config) (.inl (List.cons_ne_nil _ _))

namespace TrackManager

/-- **After a call** every track has the time of the call. -/
theorem updateTs_processPlots {state : TrackState}
    (h : state ∈ (m.processPlots ops batches).states) :
    state.snapshot.updateTs = (gatherPlots batches).2 := by
  rw [states_processPlots, List.mem_append] at h
  rcases h with hkept | hnew
  · obtain ⟨j, hlt, rfl⟩ := List.mem_mapIdx.1 hkept
    exact (TrackState.after_times ..).1
  · obtain ⟨plot, trackId, -, rfl⟩ := exists_new hnew
    rfl

theorem createTs_processPlots {state : TrackState}
    (h : state ∈ (m.processPlots ops batches).states) :
    (∃ before ∈ m.states, state.snapshot.createTs = before.snapshot.createTs) ∨
      state.snapshot.createTs = (gatherPlots batches).2 := by
  rw [states_processPlots, List.mem_append] at h
  rcases h with hkept | hnew
  · obtain ⟨j, hlt, rfl⟩ := List.mem_mapIdx.1 hkept
    exact .inl ⟨_, List.getElem_mem hlt, (TrackState.after_times ..).2⟩
  · obtain ⟨plot, trackId, -, rfl⟩ := exists_new hnew
    exact .inr rfl

/-! ## Runs -/

/-- The time of every track has not run backwards from `m` to `m'`. -/
def Forward (m m' : TrackManager) : Prop :=
  ∀ (j : Nat) (state state' : TrackState), m.states[j]? = some state → m'.states[j]? = some state' →
    state.snapshot.updateTs ≤ state'.snapshot.updateTs

/-- No track was updated before it was created. -/
def Created (m : TrackManager) : Prop :=
  ∀ state ∈ m.states, state.snapshot.createTs ≤ state.snapshot.updateTs

/-- Some batch of the call has an array of plots, or every track has the time 0 still. -/
def Timed (m : TrackManager) (batches : List (Option PlotBatch)) : Prop :=
  HasPlots batches ∨ ∀ state ∈ m.states, state.snapshot.updateTs = 0

section
variable {calls earlier : List (List (Option PlotBatch))}

theorem hasState_of_prefix {upto : List (List (Option PlotBatch))}
    (hcall : earlier <+: upto) {j : Nat}
    {state : TrackState} (h : (runCalls ops { config } earlier).states[j]? = some state) :
    ∃ state', (runCalls ops { config } upto).states[j]? = some state' := by
  have hlt := (List.getElem?_eq_some_iff.1 h).1
  exact ⟨_, List.getElem?_eq_getElem (hlt.trans_le (length_states_mono hcall))⟩

/-- A call that is timed is no earlier than any track. -/
theorem Timed.le_time (horder : calls.Pairwise NotBefore) (hcall : earlier ++ [batches] <+: calls)
    (h : Timed (runCalls ops { config } earlier) batches) {state : TrackState}
    (hstate : state ∈ (runCalls ops { config } earlier).states) :
    state.snapshot.updateTs ≤ (gatherPlots batches).2 := by
  rcases h with hplots | hzero
  · cases earlier using List.reverseRecOn with
    | nil => exact absurd hstate List.not_mem_nil
    | append_singleton earlier before =>
      have hbefore : NotBefore before batches := by
        rw [List.append_assoc] at hcall
        have hpair := (List.pairwise_append.1 (horder.sublist hcall.sublist)).2.1
        exact (List.pairwise_cons.1 hpair).1 batches (List.mem_singleton_self _)
      rw [runCalls_concat] at hstate
      rw [updateTs_processPlots hstate]
      exact time_le hbefore hplots
  · rw [hzero state hstate]
    exact Nat.zero_le _

theorem forward_concat (horder : calls.Pairwise NotBefore) (hcall : earlier ++ [batches] <+: calls)
    (h : Timed (runCalls ops { config } earlier) batches) :
    Forward (runCalls ops { config } earlier) (runCalls ops { config } (earlier ++ [batches])) := by
  intro j state state' hj hj'
  rw [runCalls_concat] at hj'
  rw [updateTs_processPlots (List.mem_of_getElem? hj')]
  exact h.le_time horder hcall (List.mem_of_getElem? hj)

theorem created_concat (horder : calls.Pairwise NotBefore) (hcall : earlier ++ [batches] <+: calls)
    (h : Timed (runCalls ops { config } earlier) batches)
    (hcreated : Created (runCalls ops { config } earlier)) :
    Created (runCalls ops { config } (earlier ++ [batches])) := by
  intro state hstate
  rw [runCalls_concat] at hstate
  rw [updateTs_processPlots hstate]
  rcases createTs_processPlots hstate with ⟨before, hbefore, heq⟩ | heq
  · rw [heq]
    exact BitVec.le_trans (hcreated before hbefore) (h.le_time horder hcall hbefore)
  · exact heq ▸ BitVec.le_refl _

/-- Calls that are all timed. -/
theorem forward_of_timed (horder : calls.Pairwise NotBefore)
    (h : ∀ earlier batches, earlier ++ [batches] <+: calls →
      Timed (runCalls ops { config } earlier) batches) :
    ∀ upto, upto <+: calls → Created (runCalls ops { config } upto) ∧
      ∀ earlier, earlier <+: upto →
        Forward (runCalls ops { config } earlier) (runCalls ops { config } upto) := by
  intro upto hupto
  induction upto using List.reverseRecOn with
  | nil =>
    refine ⟨fun state hstate => absurd hstate List.not_mem_nil, fun earlier hcall => ?_⟩
    obtain rfl := List.prefix_nil.1 hcall
    exact fun j state state' hj _ => absurd hj (by simp [runCalls])
  | append_singleton upto batches ih =>
    obtain ⟨hcreated, hforward⟩ := ih ((List.prefix_append ..).trans hupto)
    have htimed := h upto batches hupto
    refine ⟨created_concat horder hupto htimed hcreated, fun earlier hcall => ?_⟩
    rcases List.prefix_concat_iff.1 hcall with rfl | hbefore
    · intro j state state' hj hj'
      obtain rfl := Option.some.inj (hj.symm.trans hj')
      exact BitVec.le_refl _
    · intro j state state' hj hj'
      obtain ⟨middle, hmiddle⟩ := hasState_of_prefix hbefore hj
      exact BitVec.le_trans (hforward earlier hbefore j state middle hj hmiddle)
        (forward_concat horder hupto htimed j middle state' hmiddle hj')

theorem timed_of_forward
    (h : Forward (runCalls ops { config } earlier) (runCalls ops { config } (earlier ++ [batches]))) :
    Timed (runCalls ops { config } earlier) batches := by
  by_cases hplots : HasPlots batches
  · exact .inl hplots
  · refine .inr fun state hstate => ?_
    obtain ⟨j, hj⟩ := List.mem_iff_getElem?.1 hstate
    obtain ⟨state', hj'⟩ := hasState_of_prefix (List.prefix_append earlier [batches]) hj
    have hle := h j state state' hj hj'
    rw [runCalls_concat] at hj'
    rw [updateTs_processPlots (List.mem_of_getElem? hj'), time_of_not_hasPlots hplots] at hle
    exact BitVec.eq_of_toNat_eq (Nat.le_zero.1 hle)

end

/-- **When track time does not run backwards.** Over calls whose batches come in the order of their
times, every track keeps a time that never decreases and is not below that of its creation, exactly
when in every call some batch has an array of plots, or every track has the time 0 still. -/
theorem track_time_iff (ops : DoubleOps) (config : TrackManagerConfig)
    (calls : List (List (Option PlotBatch))) (horder : calls.Pairwise NotBefore) :
    (∀ upto, upto <+: calls → Created (runCalls ops { config } upto) ∧
      ∀ earlier, earlier <+: upto →
        Forward (runCalls ops { config } earlier) (runCalls ops { config } upto)) ↔
    ∀ earlier batches, earlier ++ [batches] <+: calls →
      Timed (runCalls ops { config } earlier) batches := by
  refine ⟨fun h earlier batches hcall => ?_, forward_of_timed horder⟩
  exact timed_of_forward ((h _ hcall).2 earlier (List.prefix_append earlier [batches]))

/-- A batch without detections, as the signal processing makes it. -/
def noArray : PlotBatch where
  dataTs := 2
  plotCount := 0
  plots := none
  counted := nofun

theorem noArray_order : [[some plotAtRadar], [some noArray]].Pairwise NotBefore := by
  simp [NotBefore, plotAtRadar, noArray]

/-- The exact condition at that run. -/
theorem noArray_time :
    (∀ upto, upto <+: [[some plotAtRadar], [some noArray]] →
      Created (runCalls zeroOps { config := {} } upto) ∧
      ∀ earlier, earlier <+: upto →
        Forward (runCalls zeroOps { config := {} } earlier) (runCalls zeroOps { config := {} } upto)) ↔
    ∀ earlier batches, earlier ++ [batches] <+: [[some plotAtRadar], [some noArray]] →
      Timed (runCalls zeroOps { config := {} } earlier) batches :=
  track_time_iff zeroOps {} [[some plotAtRadar], [some noArray]] noArray_order

/-- **Track time runs backwards**: the track opened at time 1 has the time 0 after a call whose only
batch, of time 2, has no array; that is also before its creation. -/
theorem noArray_runs_backwards :
    [[some plotAtRadar], [some noArray]].Pairwise NotBefore ∧
    ¬ Forward (runCalls zeroOps { config := {} } [[some plotAtRadar]])
      (runCalls zeroOps { config := {} } [[some plotAtRadar], [some noArray]]) ∧
    ¬ Created (runCalls zeroOps { config := {} } [[some plotAtRadar], [some noArray]]) := by
  have htimes : (runCalls zeroOps { config := {} } [[some plotAtRadar]]).states.map
      (·.snapshot.updateTs) = [1] := by decide +kernel
  have hafter : (runCalls zeroOps { config := {} } [[some plotAtRadar], [some noArray]]).states.map
      (fun state => (state.snapshot.createTs, state.snapshot.updateTs)) = [(1, 0)] := by
    decide +kernel
  obtain ⟨state, hstate, htime⟩ := List.map_eq_singleton_iff.1 htimes
  obtain ⟨state', hstate', htime'⟩ := List.map_eq_singleton_iff.1 hafter
  obtain ⟨hcreate, hupdate⟩ := Prod.mk.inj htime'
  refine ⟨noArray_order, fun hforward => ?_, fun hcreated => ?_⟩
  · have hle := hforward 0 state state' (by rw [hstate]; rfl) (by rw [hstate']; rfl)
    rw [htime, hupdate] at hle
    exact absurd hle (by decide)
  · have hle := hcreated state' (by rw [hstate']; exact List.mem_singleton_self _)
    rw [hcreate, hupdate] at hle
    exact absurd hle (by decide)

end TrackManager

end Qdgz300.DataProc
