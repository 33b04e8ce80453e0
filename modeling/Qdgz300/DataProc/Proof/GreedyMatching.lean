import Mathlib.Data.List.ReduceOption
import Mathlib.Order.Defs.LinearOrder
import Qdgz300.DataProc.Proof.Association

/-!
# Association as a greedy matching

With distances in a total order, below the bound that the scan starts with, the scan finds the
nearest free plot, the first one when several are equally near (`nearestFrom_min`). `choices` has
what each prediction takes; the associations are the choices that are some, in the order of the
predictions. **`associate_greedy`** collects what a matching of predictions with plots must satisfy.
-/

namespace Qdgz300.DataProc

variable {D : Type}

/-- The tests of `associate` for distances that are totally ordered. -/
def Metric.ordered [LinearOrder D] (distance : TrackPrediction → Plot → D) (max gate : D) :
    Metric D where
  distance := distance
  less a b := decide (a < b)
  max := max
  inGate d := decide (d ≤ gate)

/-- What the predictions take, one after the other. -/
def choices (metric : Metric D) (plots : List Plot) :
    List Nat → List TrackPrediction → List (Option (Association D))
  | _, [] => []
  | used, prediction :: predictions =>
    match choose metric plots used prediction with
    | some a => some a :: choices metric plots (a.plotIndex :: used) predictions
    | none => none :: choices metric plots used predictions

/-- The plots of some choices. -/
def plotsOf (cs : List (Option (Association D))) : List Nat :=
    cs.reduceOption.map Association.plotIndex

/-- A prediction's choice when the plots `taken` are not free: the nearest free plot, the first of
the nearest ones, if it lies in the gate, and nothing when every free plot lies outside. -/
def IsNearest [LinearOrder D] (distance : TrackPrediction → Plot → D) (gate : D) (plots : List Plot)
    (taken : List Nat) (prediction : TrackPrediction) : Option (Association D) → Prop
  | some a => a.trackId = prediction.trackId ∧ a.plotIndex ∉ taken ∧ a.distance ≤ gate ∧
      (∃ plot, plots[a.plotIndex]? = some plot ∧ a.distance = distance prediction plot) ∧
      ∀ j plot, plots[j]? = some plot → j ∉ taken →
        a.distance ≤ distance prediction plot ∧
          (j < a.plotIndex → a.distance < distance prediction plot)
  | none => ∀ j plot, plots[j]? = some plot → j ∉ taken → gate < distance prediction plot

/-- The matching that the greedy rule gives: one choice for each prediction, in their order, made
among what the ones before it left. -/
structure IsGreedyMatching [LinearOrder D] (distance : TrackPrediction → Plot → D) (gate : D)
    (predictions : List TrackPrediction) (plots : List Plot) (associations : List (Association D))
    (unassociated : List Nat) : Prop where
  chosen : ∃ cs : List (Option (Association D)), cs.length = predictions.length ∧
    associations = cs.reduceOption ∧
    ∀ t prediction choice, predictions[t]? = some prediction → cs[t]? = some choice →
      IsNearest distance gate plots (plotsOf (cs.take t)) prediction choice
  in_order : (associations.map Association.trackId).Sublist (predictions.map TrackPrediction.trackId)
  nodup : (associations.map Association.plotIndex).Nodup
  left_over : unassociated =
    (List.range plots.length).filter fun i => i ∉ associations.map Association.plotIndex

section
variable {metric : Metric D} {plots : List Plot} {used : List Nat}

theorem associateFrom_choices (predictions : List TrackPrediction) (used : List Nat) :
    (associateFrom metric plots used predictions).1 =
      (choices metric plots used predictions).reduceOption := by
  induction predictions generalizing used with
  | nil => rfl
  | cons prediction predictions ih =>
    rw [associateFrom, choices]
    cases choose metric plots used prediction with
    | none => exact ih used
    | some a => exact congrArg (a :: ·) (ih (a.plotIndex :: used))

theorem length_choices (predictions : List TrackPrediction) (used : List Nat) :
    (choices metric plots used predictions).length = predictions.length := by
  induction predictions generalizing used with
  | nil => rfl
  | cons prediction predictions ih =>
    rw [choices]
    cases choose metric plots used prediction with
    | none => exact congrArg (· + 1) (ih used)
    | some a => exact congrArg (· + 1) (ih (a.plotIndex :: used))

theorem associateFrom_in_order (predictions : List TrackPrediction) (used : List Nat) :
    ((associateFrom metric plots used predictions).1.map Association.trackId).Sublist
      (predictions.map TrackPrediction.trackId) := by
  induction predictions generalizing used with
  | nil => simp [associateFrom]
  | cons prediction predictions ih =>
    rw [associateFrom]
    cases h : choose metric plots used prediction with
    | none => exact (ih used).cons _
    | some a =>
      simp only [List.map_cons, (choose_spec h).1]
      exact (ih (a.plotIndex :: used)).cons_cons _

theorem associate_unassociated (predictions : List TrackPrediction) :
    (associate metric predictions plots).2 = (List.range plots.length).filter fun i =>
      i ∉ (associate metric predictions plots).1.map Association.plotIndex := by
  apply List.filter_congr
  intro i _
  have hused : i ∈ (associateFrom metric plots [] predictions).2 ↔
      i ∈ (associate metric predictions plots).1.map Association.plotIndex := by
    rw [mem_used]
    simp [associate]
  simp only [hused]

end

section
variable [LinearOrder D] {distance : TrackPrediction → Plot → D} {max gate : D} {plots : List Plot}
  {used taken : List Nat} {prediction : TrackPrediction}

@[simp] theorem ordered_max : (Metric.ordered distance max gate).max = max := rfl

@[simp] theorem ordered_distance : (Metric.ordered distance max gate).distance = distance := rfl

@[simp] theorem ordered_less (a b : D) :
    (Metric.ordered distance max gate).less a b = true ↔ a < b := decide_eq_true_iff

@[simp] theorem ordered_inGate (d : D) :
    (Metric.ordered distance max gate).inGate d = true ↔ d ≤ gate := decide_eq_true_iff

theorem nearestFrom_cons_of_near {first : Plot} {i : Nat} {best : D × Nat} (rest : List Plot)
    (hfree : i ∉ used) (hnear : distance prediction first < best.1) :
    nearestFrom (.ordered distance max gate) prediction used i (first :: rest) best =
      nearestFrom (.ordered distance max gate) prediction used (i + 1) rest
        (distance prediction first, i) := by
  simp [nearestFrom, hfree, hnear]

theorem nearestFrom_cons_of_far {first : Plot} {i : Nat} {best : D × Nat} (rest : List Plot)
    (hfar : i ∉ used → best.1 ≤ distance prediction first) :
    nearestFrom (.ordered distance max gate) prediction used i (first :: rest) best =
      nearestFrom (.ordered distance max gate) prediction used (i + 1) rest best := by
  by_cases hused : i ∈ used
  · simp [nearestFrom, hused]
  · simp [nearestFrom, hused, not_lt_of_ge (hfar hused)]

/-- The plot at place `k` of `rest`, which starts at place `i`, is the first of the nearest free
ones. -/
structure IsFirstNearest (distance : TrackPrediction → Plot → D) (prediction : TrackPrediction)
    (used : List Nat) (i : Nat) (rest : List Plot) (k : Nat) (plot : Plot) : Prop where
  mem : rest[k]? = some plot
  free : i + k ∉ used
  least : ∀ k' plot', rest[k']? = some plot' → i + k' ∉ used →
    distance prediction plot ≤ distance prediction plot' ∧
      (k' < k → distance prediction plot < distance prediction plot')

/-- A plot in front that is not free, or farther away, changes nothing. -/
theorem IsFirstNearest.cons {i k : Nat} {rest : List Plot} {first plot : Plot}
    (h : IsFirstNearest distance prediction used (i + 1) rest k plot)
    (hfirst : i ∉ used → distance prediction plot < distance prediction first) :
    IsFirstNearest distance prediction used i (first :: rest) (k + 1) plot where
  mem := h.mem
  free := by
    rw [show i + (k + 1) = i + 1 + k by omega]
    exact h.free
  least := by
    intro k' plot' hk' hfree'
    cases k' with
    | zero =>
      obtain rfl := Option.some.inj hk'
      exact ⟨le_of_lt (hfirst hfree'), fun _ => hfirst hfree'⟩
    | succ k' =>
      obtain ⟨hle, hbefore⟩ :=
        h.least k' plot' hk' (by rwa [show i + 1 + k' = i + (k' + 1) by omega])
      exact ⟨hle, fun hlt' => hbefore (Nat.lt_of_succ_lt_succ hlt')⟩

theorem forall_free_cons {i : Nat} {rest : List Plot} {first : Plot} {d : D}
    (hrest : ∀ k plot, rest[k]? = some plot → i + 1 + k ∉ used → d ≤ distance prediction plot)
    (hfirst : i ∉ used → d ≤ distance prediction first) :
    ∀ k plot, (first :: rest)[k]? = some plot → i + k ∉ used → d ≤ distance prediction plot := by
  intro k plot hk hfree
  cases k with
  | zero =>
    obtain rfl := Option.some.inj hk
    exact hfirst hfree
  | succ k => exact hrest k plot hk (by rwa [show i + 1 + k = i + (k + 1) by omega])

/-- The scan keeps the best so far when no free plot is nearer, and else ends with the nearest free
plot, the first of them. -/
theorem nearestFrom_min (distance : TrackPrediction → Plot → D) (max gate : D)
    (prediction : TrackPrediction) (used : List Nat) (rest : List Plot) (i : Nat) (best : D × Nat) :
    (nearestFrom (.ordered distance max gate) prediction used i rest best = best ∧
      ∀ k plot, rest[k]? = some plot → i + k ∉ used → best.1 ≤ distance prediction plot) ∨
    ∃ k plot, IsFirstNearest distance prediction used i rest k plot ∧
      distance prediction plot < best.1 ∧
      nearestFrom (.ordered distance max gate) prediction used i rest best =
        (distance prediction plot, i + k) := by
  induction rest generalizing i best with
  | nil => exact Or.inl ⟨rfl, fun _ _ hk => by cases hk⟩
  | cons first rest ih =>
    by_cases hfirst : i ∉ used ∧ distance prediction first < best.1
    · -- the first plot becomes the best so far
      obtain ⟨hfree, hnear⟩ := hfirst
      rw [nearestFrom_cons_of_near rest hfree hnear]
      obtain ⟨heq, hall⟩ | ⟨k, plot, hnearest, hlt, heq⟩ :=
        ih (i + 1) (distance prediction first, i)
      · refine Or.inr ⟨0, first, ⟨rfl, hfree, ?_⟩, hnear, heq⟩
        intro k' plot' hk' hfree'
        exact ⟨forall_free_cons hall (fun _ => le_refl _) k' plot' hk' hfree',
          fun hlt' => absurd hlt' (Nat.not_lt_zero k')⟩
      · refine Or.inr ⟨k + 1, plot, hnearest.cons fun _ => hlt, lt_trans hlt hnear, ?_⟩
        rw [heq, show i + 1 + k = i + (k + 1) by omega]
    · -- it is passed over
      have hfar : i ∉ used → best.1 ≤ distance prediction first :=
        fun hfree => le_of_not_gt fun hnear => hfirst ⟨hfree, hnear⟩
      rw [nearestFrom_cons_of_far rest hfar]
      obtain ⟨heq, hall⟩ | ⟨k, plot, hnearest, hlt, heq⟩ := ih (i + 1) best
      · exact Or.inl ⟨heq, forall_free_cons hall hfar⟩
      · refine Or.inr ⟨k + 1, plot, hnearest.cons fun hfree => lt_of_lt_of_le hlt (hfar hfree), hlt, ?_⟩
        rw [heq, show i + 1 + k = i + (k + 1) by omega]

/-- **One prediction** takes the nearest free plot in the gate. -/
theorem choose_isNearest (hmax : ∀ prediction plot, distance prediction plot < max) (gate : D)
    (plots : List Plot) (used : List Nat) (prediction : TrackPrediction) :
    IsNearest distance gate plots used prediction
      (choose (.ordered distance max gate) plots used prediction) := by
  rw [choose, ordered_max]
  obtain ⟨heq, hall⟩ | ⟨k, plot, ⟨hk, hfree, hall⟩, -, heq⟩ :=
    nearestFrom_min distance max gate prediction used plots 0 (max, plots.length)
  · simp only [heq, Nat.lt_irrefl, false_and, if_false]
    intro j other hj hfree
    have hle : max ≤ distance prediction other := hall j other hj (by rwa [Nat.zero_add])
    exact absurd (hmax prediction other) (not_lt_of_ge hle)
  · rw [Nat.zero_add] at hfree heq
    have hlt : k < plots.length := (List.getElem?_eq_some_iff.1 hk).1
    have hothers : ∀ j other, plots[j]? = some other → j ∉ used →
        distance prediction plot ≤ distance prediction other ∧
          (j < k → distance prediction plot < distance prediction other) := by
      intro j other hj hjfree
      exact hall j other hj (by rwa [Nat.zero_add])
    simp only [heq, hlt, true_and, ordered_inGate]
    by_cases hgate : distance prediction plot ≤ gate
    · rw [if_pos hgate]
      exact ⟨rfl, hfree, hgate, ⟨plot, hk, rfl⟩, hothers⟩
    · rw [if_neg hgate]
      intro j other hj hjfree
      exact lt_of_lt_of_le (lt_of_not_ge hgate) (hothers j other hj hjfree).1

theorem IsNearest.congr {choice : Option (Association D)} (hsame : ∀ i, i ∈ used ↔ i ∈ taken)
    (h : IsNearest distance gate plots used prediction choice) :
    IsNearest distance gate plots taken prediction choice := by
  cases choice with
  | none => exact fun j plot hj hfree => h j plot hj fun hmem => hfree ((hsame j).1 hmem)
  | some a =>
    obtain ⟨hid, hfree, hgate, hplot, hall⟩ := h
    exact ⟨hid, fun hmem => hfree ((hsame _).2 hmem), hgate, hplot,
      fun j plot hj hjfree => hall j plot hj fun hmem => hjfree ((hsame j).1 hmem)⟩

/-- Every prediction chooses among what the ones before it left. -/
theorem choices_isNearest (hmax : ∀ prediction plot, distance prediction plot < max)
    (predictions : List TrackPrediction) (used : List Nat) {t : Nat}
    {choice : Option (Association D)} (hprediction : predictions[t]? = some prediction)
    (hchoice : (choices (.ordered distance max gate) plots used predictions)[t]? = some choice) :
    IsNearest distance gate plots
      (used ++ plotsOf ((choices (.ordered distance max gate) plots used predictions).take t))
      prediction choice := by
  induction predictions generalizing used t with
  | nil => cases hprediction
  | cons first predictions ih =>
    rw [choices] at hchoice ⊢
    cases t with
    | zero =>
      obtain rfl := Option.some.inj hprediction
      have hnearest := choose_isNearest hmax gate plots used first
      cases hfirst : choose (.ordered distance max gate) plots used first with
      | none =>
        rw [hfirst] at hchoice hnearest
        obtain rfl := Option.some.inj hchoice
        exact hnearest.congr (by simp [plotsOf])
      | some a =>
        rw [hfirst] at hchoice hnearest
        obtain rfl := Option.some.inj hchoice
        exact hnearest.congr (by simp [plotsOf])
    | succ t =>
      cases hfirst : choose (.ordered distance max gate) plots used first with
      | none =>
        rw [hfirst] at hchoice
        exact ih used hprediction hchoice
      | some a =>
        rw [hfirst] at hchoice
        refine (ih (a.plotIndex :: used) hprediction hchoice).congr ?_
        intro i
        simp [plotsOf, or_left_comm]

/-- **Association is a greedy matching.** Each prediction, in order, takes the nearest plot that the
ones before it left free, the first of the nearest ones, if it lies in the gate; no plot is taken
twice, and the unassociated plots are the others, in increasing order. -/
theorem associate_greedy (distance : TrackPrediction → Plot → D) (max gate : D)
    (hmax : ∀ prediction plot, distance prediction plot < max) (predictions : List TrackPrediction)
    (plots : List Plot) :
    IsGreedyMatching distance gate predictions plots
      (associate (.ordered distance max gate) predictions plots).1
      (associate (.ordered distance max gate) predictions plots).2 where
  chosen := ⟨choices (.ordered distance max gate) plots [] predictions,
    length_choices predictions [], associateFrom_choices predictions [],
    fun _ _ _ hprediction hchoice => choices_isNearest hmax predictions [] hprediction hchoice⟩
  in_order := associateFrom_in_order predictions []
  nodup := (associateFrom_nodup predictions []).1
  left_over := associate_unassociated predictions

end

/-- How far a plot's range is from a prediction's `x`, both read as numbers. -/
def rangeGap (prediction : TrackPrediction) (plot : Plot) : Nat :=
  if prediction.x.toNat ≤ plot.rangeM.toNat then plot.rangeM.toNat - prediction.x.toNat
  else prediction.x.toNat - plot.rangeM.toNat

theorem rangeGap_lt (prediction : TrackPrediction) (plot : Plot) :
    rangeGap prediction plot < 2 ^ 64 := by
  have := prediction.x.isLt
  have := plot.rangeM.isLt
  unfold rangeGap
  split <;> omega

/-- Two plots are equally near to the first prediction, which takes the first of them; the other is
left to the second prediction, and the third plot is left over. -/
theorem tie_greedy :
    associate (.ordered rangeGap (2 ^ 64) 5) [{ trackId := 1, x := 10 }, { trackId := 2, x := 12 }]
      [⟨11, 0, 0, 1⟩, ⟨9, 0, 0, 1⟩, ⟨40, 0, 0, 1⟩] = ([⟨1, 0, 1⟩, ⟨2, 1, 3⟩], [2]) ∧
    IsGreedyMatching rangeGap 5 [{ trackId := 1, x := 10 }, { trackId := 2, x := 12 }]
      [⟨11, 0, 0, 1⟩, ⟨9, 0, 0, 1⟩, ⟨40, 0, 0, 1⟩] [⟨1, 0, 1⟩, ⟨2, 1, 3⟩] [2] :=
  ⟨by decide, associate_greedy rangeGap (2 ^ 64) 5 rangeGap_lt _ _⟩

end Qdgz300.DataProc
