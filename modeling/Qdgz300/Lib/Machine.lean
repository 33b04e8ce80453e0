import Mathlib.Algebra.GroupWithZero.Nat
import Mathlib.Data.List.Basic

/-!
# Runs of a machine

Two kinds of machine, each given by its step function:

* `exec step`: labelled steps that may be disabled (`none`). `Along step C s ls` says that every
  step of the execution of `ls` from `s` meets the condition `C` on the state before it; `exec_inv`
  is the invariant rule along such executions, `exec_along_iff` the rule for conditions that are
  exact.
* `run step`: total steps with outputs. `run_append` splits a run, `run_inv` is its invariant rule,
  and `RunAlong`, `runAlong_inv`, `runAlong_iff` are the same with a condition on the steps, and
  `run_along_iff` and `run_always_iff` are the rules for conditions that are exact. `run_sim` is its
  simulation rule. `feed` puts a machine behind another one, and `run_feed` takes their run apart.

`Paced step drift` are runs of a total machine whose state may drift between two steps; an invariant
that the drift keeps takes them apart step by step (`Paced.cons`, `Paced.nil`).
-/

namespace Machine

section
variable {σ ι : Type*} (step : σ → ι → Option σ)

/-- The state after the labels `ls`; `none` when one of them is not enabled. -/
def exec : σ → List ι → Option σ
  | s, [] => some s
  | s, l :: ls => (step s l).bind fun s' => exec s' ls

/-- Every step of the execution of `ls` from `s` meets `C`. -/
def Along (C : σ → ι → Prop) : σ → List ι → Prop
  | _, [] => True
  | s, l :: ls => C s l ∧ ∀ s', step s l = some s' → Along C s' ls

variable {step}

theorem exec_cons {s s' : σ} {l : ι} {ls : List ι} :
    exec step s (l :: ls) = some s' ↔ ∃ t, step s l = some t ∧ exec step t ls = some s' := by
  simp [exec, Option.bind_eq_some_iff]

instance Along.decidable {C : σ → ι → Prop} [∀ s l, Decidable (C s l)] :
    ∀ (ls : List ι) (s : σ), Decidable (Along step C s ls)
  | [], _ => isTrue trivial
  | l :: ls, s =>
    match hs : step s l with
    | none => decidable_of_iff (C s l) (by simp [Along, hs])
    | some t =>
      have : Decidable (Along step C t ls) := Along.decidable ls t
      decidable_of_iff (C s l ∧ Along step C t ls) (by simp [Along, hs])

/-- A condition on the labels alone. -/
theorem along_of_forall {C : ι → Prop} :
    ∀ {ls : List ι} {s : σ}, (∀ l ∈ ls, C l) → Along step (fun _ l => C l) s ls
  | [], _, _ => trivial
  | _ :: _, _, h =>
    ⟨h _ List.mem_cons_self, fun _ _ => along_of_forall fun l hl => h l (List.mem_cons_of_mem _ hl)⟩

/-- **The invariant rule**: what every step meeting `C` keeps, an execution along `C` keeps. -/
theorem exec_inv {I : σ → Prop} {C : σ → ι → Prop}
    (hstep : ∀ s l s', I s → C s l → step s l = some s' → I s') :
    ∀ {ls : List ι} {s s' : σ}, I s → Along step C s ls → exec step s ls = some s' → I s'
  | [], _, _, hI, _, he => by
    cases he; exact hI
  | l :: ls, s, s', hI, hC, he => by
    obtain ⟨t, ht, he⟩ := exec_cons.1 he
    exact exec_inv hstep (hstep s l t hI hC.1 ht) (hC.2 t ht) he

/-- The invariant rule along `C` where the invariant also sees the labels executed so far. -/
theorem exec_trace_along {I : List ι → σ → Prop} {C : σ → ι → Prop}
    (hstep : ∀ past s l s', I past s → C s l → step s l = some s' → I (past ++ [l]) s') :
    ∀ {ls : List ι} (past : List ι) {s s' : σ}, I past s → Along step C s ls →
      exec step s ls = some s' → I (past ++ ls) s'
  | [], past, _, _, hI, _, he => by
    cases he
    simpa using hI
  | l :: ls, past, s, s', hI, hC, he => by
    obtain ⟨t, ht, he⟩ := exec_cons.1 he
    simpa using exec_trace_along hstep (past ++ [l]) (hstep past s l t hI hC.1 ht) (hC.2 t ht) he

/-- The same without a condition. -/
theorem exec_trace_inv {I : List ι → σ → Prop}
    (hstep : ∀ past s l s', I past s → step s l = some s' → I (past ++ [l]) s') {ls : List ι}
    (past : List ι) {s s' : σ} (hI : I past s) (he : exec step s ls = some s') :
      I (past ++ ls) s' :=
  exec_trace_along (C := fun _ _ => True) (fun past s l s' hI _ => hstep past s l s' hI) past hI
    (along_of_forall fun _ _ => trivial) he

/-- **Progress**: where every step meeting `C` is enabled and keeps the invariant, an execution
along `C` reaches its end. -/
theorem exec_total {I : σ → Prop} {C : σ → ι → Prop}
    (hstep : ∀ s l, I s → C s l → ∃ s', step s l = some s' ∧ I s') :
    ∀ {ls : List ι} {s : σ}, I s → Along step C s ls → ∃ s', exec step s ls = some s' ∧ I s'
  | [], s, hI, _ => ⟨s, rfl, hI⟩
  | l :: ls, s, hI, hC => by
    obtain ⟨t, ht, hIt⟩ := hstep s l hI hC.1
    obtain ⟨s', he, hI'⟩ := exec_total hstep hIt (hC.2 t ht)
    exact ⟨s', exec_cons.2 ⟨t, ht, he⟩, hI'⟩

theorem along_and {C D : σ → ι → Prop} :
    ∀ {ls : List ι} {s : σ}, Along step C s ls → Along step D s ls →
      Along step (fun s l => C s l ∧ D s l) s ls
  | [], _, _, _ => trivial
  | _ :: _, _, hC, hD => ⟨⟨hC.1, hD.1⟩, fun s' hs => along_and (hC.2 s' hs) (hD.2 s' hs)⟩

/-- A condition that an invariant gives holds along every execution. -/
theorem along_of_inv {I : σ → Prop} {C D : σ → ι → Prop}
    (hstep : ∀ s l s', I s → D s l → step s l = some s' → I s')
    (hC : ∀ s l, I s → D s l → C s l) :
    ∀ {ls : List ι} {s : σ}, I s → Along step D s ls → Along step C s ls
  | [], _, _, _ => trivial
  | l :: _, s, hI, hD =>
    ⟨hC s l hI hD.1, fun s' hs => along_of_inv hstep hC (hstep s l s' hI hD.1 hs) (hD.2 s' hs)⟩

/-- **The exact rule**: where a step keeps `G` exactly when it meets `C`, an execution does so
exactly when it runs along `C`. -/
theorem exec_along_iff {I G : σ → Prop} {C : σ → ι → Prop}
    (hinv : ∀ s l s', I s → step s l = some s' → I s')
    (hstep : ∀ s l s', I s → step s l = some s' → (G s' ↔ G s ∧ C s l)) :
    ∀ {ls : List ι} {s s' : σ}, I s → exec step s ls = some s' →
      I s' ∧ (G s' ↔ G s ∧ Along step C s ls)
  | [], _, _, hI, he => by
    cases he
    exact ⟨hI, (and_iff_left trivial).symm⟩
  | l :: ls, s, s', hI, he => by
    obtain ⟨t, ht, he⟩ := exec_cons.1 he
    obtain ⟨hI', hiff⟩ := exec_along_iff hinv hstep (hinv s l t hI ht) he
    refine ⟨hI', hiff.trans ?_⟩
    rw [hstep s l t hI ht, and_assoc]
    refine and_congr_right fun _ => and_congr_right fun _ => ?_
    refine ⟨?_, ?_⟩
    · intro hrest t' ht'
      rw [ht] at ht'
      exact Option.some.inj ht' ▸ hrest
    · exact fun hrest => hrest t ht

end

section
variable {σ ι ω : Type*} (step : σ → ι → σ × List ω)

/-- The state after the inputs `is` and everything put out on the way. -/
def run : σ → List ι → σ × List ω
  | s, [] => (s, [])
  | s, i :: is => ((run (step s i).1 is).1, (step s i).2 ++ (run (step s i).1 is).2)

@[simp] theorem run_nil (s : σ) : run step s [] = (s, []) := rfl

theorem run_append (s : σ) :
    ∀ is js : List ι, run step s (is ++ js) =
      ((run step (run step s is).1 js).1, (run step s is).2 ++ (run step (run step s is).1 js).2) := by
  intro is
  induction is generalizing s with
  | nil => intro js; simp
  | cons i is ih => intro js; simp [run, ih, List.append_assoc]

/-- **The invariant rule** of a total machine. -/
theorem run_inv {I : σ → Prop} {step : σ → ι → σ × List ω} {is : List ι}
    (hstep : ∀ s i, i ∈ is → I s → I (step s i).1) {s : σ} (h : I s) : I (run step s is).1 := by
  induction is generalizing s with
  | nil => exact h
  | cons i is ih =>
    exact ih (fun s j hj => hstep s j (List.mem_cons_of_mem _ hj))
      (hstep s i List.mem_cons_self h)

/-- Every step of the run over `is` from `s` meets `C`. -/
def RunAlong (C : σ → ι → Prop) : σ → List ι → Prop
  | _, [] => True
  | s, i :: is => C s i ∧ RunAlong C (step s i).1 is

instance RunAlong.decidable {C : σ → ι → Prop} [∀ s i, Decidable (C s i)] :
    ∀ (is : List ι) (s : σ), Decidable (RunAlong step C s is)
  | [], _ => isTrue trivial
  | i :: is, s =>
    have : Decidable (RunAlong step C (step s i).1 is) := RunAlong.decidable is _
    inferInstanceAs (Decidable (C s i ∧ RunAlong step C (step s i).1 is))

theorem runAlong_append {C : σ → ι → Prop} {is js : List ι} {s : σ} :
    RunAlong step C s (is ++ js) ↔
      RunAlong step C s is ∧ RunAlong step C (run step s is).1 js := by
  induction is generalizing s with
  | nil => simp [RunAlong]
  | cons i is ih => simp only [List.cons_append, RunAlong, run, ih, and_assoc]

theorem runAlong_mono {C D : σ → ι → Prop} (h : ∀ s i, C s i → D s i) :
    ∀ {is : List ι} {s : σ}, RunAlong step C s is → RunAlong step D s is
  | [], _, _ => trivial
  | i :: _, s, hC => ⟨h s i hC.1, runAlong_mono h hC.2⟩

theorem runAlong_and {C : σ → ι → Prop} {D : ι → Prop} :
    ∀ {is : List ι} {s : σ}, RunAlong step C s is → (∀ i ∈ is, D i) →
      RunAlong step (fun s i => C s i ∧ D i) s is
  | [], _, _, _ => trivial
  | i :: _, _, hC, hD => ⟨⟨hC.1, hD i List.mem_cons_self⟩,
      runAlong_and hC.2 fun j hj => hD j (List.mem_cons_of_mem _ hj)⟩

/-- Two conditions that agree where an invariant holds agree along runs, if either of them keeps
it. -/
theorem runAlong_iff {I : σ → Prop} {C D : σ → ι → Prop} (hiff : ∀ s i, I s → (C s i ↔ D s i))
    (hstep : ∀ s i, I s → C s i → I (step s i).1) :
    ∀ {is : List ι} {s : σ}, I s → (RunAlong step C s is ↔ RunAlong step D s is)
  | [], _, _ => Iff.rfl
  | i :: is, s, hI => by
    refine ⟨?_, ?_⟩
    · rintro ⟨hC, hrest⟩
      exact ⟨(hiff s i hI).1 hC, (runAlong_iff hiff hstep (hstep s i hI hC)).1 hrest⟩
    · rintro ⟨hD, hrest⟩
      have hC := (hiff s i hI).2 hD
      exact ⟨hC, (runAlong_iff hiff hstep (hstep s i hI hC)).2 hrest⟩

/-- **The invariant rule** along a condition; `I` also sees what was put out so far. -/
theorem runAlong_inv {I : σ → List ω → Prop} {C : σ → ι → Prop}
    (hstep : ∀ s out i, I s out → C s i → I (step s i).1 (out ++ (step s i).2)) :
    ∀ {is : List ι} {s : σ} (out : List ω), I s out → RunAlong step C s is →
      I (run step s is).1 (out ++ (run step s is).2)
  | [], s, out, hI, _ => by simpa using hI
  | i :: is, s, out, hI, hC => by
    have := runAlong_inv hstep (out ++ (step s i).2) (hstep s out i hI hC.1) hC.2
    rwa [List.append_assoc] at this

/-- The invariant rule where the invariant also sees what was put out so far. -/
theorem run_out_inv {I : σ → List ω → Prop}
    (hstep : ∀ s out i, I s out → I (step s i).1 (out ++ (step s i).2)) :
    ∀ {is : List ι} {s : σ} (out : List ω), I s out → I (run step s is).1 (out ++ (run step s is).2)
  | [], s, out, hI => by simpa using hI
  | i :: is, s, out, hI => by
    rw [run, ← List.append_assoc]
    exact run_out_inv hstep _ (hstep s out i hI)

/-- A condition that an invariant gives holds along every run over inputs that meet `D`. -/
theorem runAlong_of_inv {I : σ → Prop} {C : σ → ι → Prop} {D : ι → Prop}
    (hinv : ∀ s i, D i → I s → I (step s i).1) (hC : ∀ s i, D i → I s → C s i) :
    ∀ {is : List ι} {s : σ}, I s → (∀ i ∈ is, D i) → RunAlong step C s is
  | [], _, _, _ => trivial
  | i :: _, s, hI, hD =>
    have hi := hD i List.mem_cons_self
    ⟨hC s i hi hI, runAlong_of_inv hinv hC (hinv s i hi hI) fun j hj =>
      hD j (List.mem_cons_of_mem i hj)⟩

/-- **The exact rule** of a total machine: where a step on an input that meets `D` keeps `G` exactly
when it meets `C`, a run over such inputs does so exactly when it runs along `C`. -/
theorem run_along_iff {I G : σ → Prop} {C : σ → ι → Prop} {D : ι → Prop}
    (hinv : ∀ s i, D i → I s → I (step s i).1)
    (hstep : ∀ s i, D i → I s → (G (step s i).1 ↔ G s ∧ C s i)) :
    ∀ {is : List ι} {s : σ}, I s → (∀ i ∈ is, D i) →
      (G (run step s is).1 ↔ G s ∧ RunAlong step C s is)
  | [], _, _, _ => (and_iff_left trivial).symm
  | i :: is, s, hI, hD => by
    have hi := hD i List.mem_cons_self
    have hrest := run_along_iff hinv hstep (hinv s i hi hI) fun j hj =>
      hD j (List.mem_cons_of_mem i hj)
    exact hrest.trans (by rw [hstep s i hi hI, and_assoc]; exact Iff.rfl)

/-- **The exact rule for every state of a run**: where a step from a state with `G` leads to one
with `G` exactly when it meets `C`, all states of a run have `G` exactly when the run is along
`C`. -/
theorem run_always_iff {I G : σ → Prop} {C : σ → ι → Prop}
    (hinv : ∀ s i, I s → I (step s i).1)
    (hstep : ∀ s i, I s → G s → (G (step s i).1 ↔ C s i)) :
    ∀ {is : List ι} {s : σ}, I s → G s →
      ((∀ earlier, earlier <+: is → G (run step s earlier).1) ↔ RunAlong step C s is)
  | [], s, _, hG => by
    refine iff_of_true (fun earlier h => ?_) trivial
    obtain rfl := List.prefix_nil.1 h
    exact hG
  | i :: is, s, hI, hG => by
    refine ⟨?_, ?_⟩
    · intro hall
      have hnext : G (step s i).1 := hall [i] (by simp)
      refine ⟨(hstep s i hI hG).1 hnext, (run_always_iff hinv hstep (hinv s i hI) hnext).1 ?_⟩
      exact fun earlier h => hall (i :: earlier) ((List.prefix_cons_inj i).2 h)
    · rintro ⟨hC, hrest⟩ earlier h
      have hnext : G (step s i).1 := (hstep s i hI hG).2 hC
      cases earlier with
      | nil => exact hG
      | cons j earlier =>
        obtain ⟨rfl, hrestPrefix⟩ := List.cons_prefix_cons.1 h
        exact (run_always_iff hinv hstep (hinv s j hI) hnext).2 hrest earlier hrestPrefix

end

section
variable {σ τ ι κ ω : Type*} {f : σ → ι → σ × List ω} {g : τ → κ → τ × List ω}

/-- **The simulation rule**: where every step of `f` meeting `C` is matched by the step of `g` on
the translated input, with the same outputs, so is every run of `f` along `C`. -/
theorem run_sim {R : σ → τ → Prop} {C : σ → ι → Prop} {tr : ι → κ}
    (hstep : ∀ s t i, R s t → C s i →
      R (f s i).1 (g t (tr i)).1 ∧ (f s i).2 = (g t (tr i)).2) :
    ∀ {is : List ι} {s : σ} {t : τ}, R s t → RunAlong f C s is →
      R (run f s is).1 (run g t (is.map tr)).1 ∧ (run f s is).2 = (run g t (is.map tr)).2
  | [], _, _, hR, _ => ⟨hR, rfl⟩
  | i :: is, s, t, hR, hC => by
    obtain ⟨hR', hout⟩ := hstep s t i hR hC.1
    obtain ⟨hend, houts⟩ := run_sim hstep hR' hC.2
    exact ⟨hend, by rw [List.map_cons, run, run, hout, houts]⟩

end

section
variable {σ τ ι ω ξ : Type*} (f : σ → ι → σ × List ω) (g : τ → ω → τ × List ξ)

/-- Two machines in a row: what a step of `f` puts out, `g` takes in before the next step. -/
def feed (s : σ × τ) (i : ι) : (σ × τ) × List ξ :=
  (((f s.1 i).1, (run g s.2 (f s.1 i).2).1), (run g s.2 (f s.1 i).2).2)

/-- A run of two machines in a row is a run of the first and then one of the second. -/
theorem run_feed (is : List ι) (s : σ) (t : τ) :
    run (feed f g) (s, t) is =
      (((run f s is).1, (run g t (run f s is).2).1), (run g t (run f s is).2).2) := by
  induction is generalizing s t with
  | nil => rfl
  | cons i is ih =>
    simp only [run, feed, run_append]
    rw [ih]

end

/-! ## Runs with pauses -/

section
variable {σ ι ω : Type*}

/-- A run over the inputs, with its outputs and its end, between whose steps the state may drift. -/
inductive Paced (step : σ → ι → σ × List ω) (drift : σ → σ → Prop) :
    σ → List ι → List ω → σ → Prop
  | done (s : σ) : Paced step drift s [] [] s
  | drift {s t u : σ} {is : List ι} {os : List ω} :
    drift s t → Paced step drift t is os u → Paced step drift s is os u
  | step {s u : σ} {i : ι} {is : List ι} {os : List ω} :
    Paced step drift (step s i).1 is os u → Paced step drift s (i :: is) ((step s i).2 ++ os) u

namespace Paced

variable {step : σ → ι → σ × List ω} {drift : σ → σ → Prop} {s u : σ} {i : ι} {is js : List ι}
  {os : List ω}

/-- A run without pauses before one with pauses. -/
theorem after_run : ∀ {is : List ι} {s : σ}, Paced step drift (run step s is).1 js os u →
    Paced step drift s (is ++ js) ((run step s is).2 ++ os) u
  | [], _, h => h
  | i :: is, s, h => by
    rw [List.cons_append, run, List.append_assoc]
    exact .step (after_run h)

/-- A run without pauses. -/
theorem of_run (s : σ) (is : List ι) :
    Paced step drift s is (run step s is).2 (run step s is).1 := by
  have h : Paced step drift s (is ++ []) ((run step s is).2 ++ []) (run step s is).1 :=
    after_run (.done _)
  rwa [List.append_nil, List.append_nil] at h

/-- Where no input is left, the state drifts. -/
theorem nil {I : σ → Prop} (h : Paced step drift s [] os u)
    (hdrift : ∀ s t, I s → drift s t → I t) (hI : I s) : os = [] ∧ I u := by
  generalize his : ([] : List ι) = is at h
  induction h with
  | done s => exact ⟨rfl, hI⟩
  | drift hst _ ih => exact ih (hdrift _ _ hI hst) his
  | step => cases his

/-- **The next step** is from a state to which the start has drifted. -/
theorem cons {I : σ → Prop} (h : Paced step drift s (i :: is) os u)
    (hdrift : ∀ s t, I s → drift s t → I t) (hI : I s) :
    ∃ t os', I t ∧ os = (step t i).2 ++ os' ∧ Paced step drift (step t i).1 is os' u := by
  generalize his : i :: is = is' at h
  induction h with
  | done => cases his
  | drift hst _ ih => exact ih (hdrift _ _ hI hst) his
  | step hrest =>
    cases his
    exact ⟨_, _, hI, rfl, hrest⟩

theorem append (h : Paced step drift s (is ++ js) os u) :
    ∃ t os₁ os₂, os = os₁ ++ os₂ ∧ Paced step drift s is os₁ t ∧ Paced step drift t js os₂ u := by
  generalize his : is ++ js = is' at h
  induction h generalizing is with
  | done s =>
    obtain ⟨rfl, rfl⟩ := List.append_eq_nil_iff.1 his
    exact ⟨s, [], [], rfl, .done s, .done s⟩
  | drift hst _ ih =>
    obtain ⟨t, os₁, os₂, rfl, h₁, h₂⟩ := ih his
    exact ⟨t, os₁, os₂, rfl, .drift hst h₁, h₂⟩
  | @step s u i is' os hrest ih =>
    cases is with
    | nil =>
      obtain rfl : js = i :: is' := his
      exact ⟨s, [], _, rfl, .done s, .step hrest⟩
    | cons j is =>
      obtain ⟨rfl, hrestIs⟩ := List.cons.inj his
      obtain ⟨t, os₁, os₂, rfl, h₁, h₂⟩ := ih hrestIs
      exact ⟨t, _, os₂, (List.append_assoc _ _ _).symm, .step h₁, h₂⟩

end Paced

end

end Machine
