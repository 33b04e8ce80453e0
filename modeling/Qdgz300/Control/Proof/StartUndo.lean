import Qdgz300.Control.Proof.CommandAck

/-!
# A failed start is not undone

`start` runs the start callbacks one after the other, then asks for the transition, and takes
nothing back when one of them fails or the transition is refused. With the history cleared before
the call, `last` afterwards tells what the call executed (`startModules_started_iff`);
`startedAfter` is what that leaves of the modules.
-/

namespace Qdgz300.Control.ControlPlane

/-- The loop of `start` executes start callbacks only. -/
theorem startModules_start (results : Nat → Bool) (ms : List ModuleHandle) (k : Nat)
    (last : Nat → Option Callback) (j : Nat) :
    (startModules results ms k last).1 j = last j ∨
      ∃ success, (startModules results ms k last).1 j = some (.start success) := by
  induction ms generalizing k last with
  | nil => exact .inl rfl
  | cons m ms ih =>
    have hupdate : ∀ success, Function.update last k (some (.start success)) j = last j ∨
        Function.update last k (some (.start success)) j = some (.start success) := by
      intro success
      by_cases hj : j = k
      · subst hj
        exact .inr (Function.update_self _ _ _)
      · exact .inl (Function.update_of_ne hj _ _)
    rw [startModules]
    split_ifs
    · rcases ih (k + 1) (Function.update last k (some (.start true))) with heq | hstart
      · rcases hupdate true with hsame | hnew
        · exact .inl (heq.trans hsame)
        · exact .inr ⟨true, heq.trans hnew⟩
      · exact .inr hstart
    · rcases hupdate false with hsame | hnew
      · exact .inl hsame
      · exact .inr ⟨false, hnew⟩
    · exact ih (k + 1) last

/-- The start callbacks of `ms` up to place `i` return true, `results` counted from `k`. -/
def UpTo (results : Nat → Bool) (ms : List ModuleHandle) (k i : Nat) : Prop :=
  ∀ j ≤ i, ∀ m, ms[j]? = some m → m.hasStart = true → results (k + j) = true

theorem upTo_cons (m : ModuleHandle) (ms : List ModuleHandle) (k i : Nat) :
    UpTo results (m :: ms) k (i + 1) ↔
      (m.hasStart = true → results k = true) ∧ UpTo results ms (k + 1) i := by
  refine ⟨fun h => ⟨h 0 (Nat.zero_le _) m rfl, fun j hj m' hget hstart => ?_⟩, ?_⟩
  · rw [Nat.add_assoc, Nat.add_comm 1 j]
    exact h (j + 1) (by omega) m' (by simpa using hget) hstart
  · rintro ⟨hhead, htail⟩ j hj m' hget hstart
    cases j with
    | zero =>
      obtain rfl : m = m' := by simpa using hget
      exact hhead hstart
    | succ j =>
      rw [Nat.add_comm j 1, ← Nat.add_assoc]
      exact htail j (by omega) m' (by simpa using hget) hstart

/-- The modules that the loop starts: those with a start callback before which none fails. -/
theorem startModules_started_iff (results : Nat → Bool) (ms : List ModuleHandle) (k i : Nat)
    (last : Nat → Option Callback) (hlast : last (k + i) = none) :
    (startModules results ms k last).1 (k + i) = some (.start true) ↔
      (∃ m, ms[i]? = some m ∧ m.hasStart = true) ∧ UpTo results ms k i := by
  induction ms generalizing k i last with
  | nil => simp [startModules, hlast]
  | cons m ms ih =>
    rw [startModules]
    cases i with
    | zero =>
      -- the tail does not touch the module itself
      have htail : ∀ last', (startModules results ms (k + 1) last').1 k = last' k := by
        intro last'
        obtain heq | ⟨i, -, hk, -⟩ := startModules_touched results ms (k + 1) last' k
        · exact heq
        · omega
      have hupTo : UpTo results (m :: ms) k 0 ↔ (m.hasStart = true → results k = true) := by
        refine ⟨fun h => h 0 (Nat.le_refl 0) m rfl, fun h j hj m' hget hstart => ?_⟩
        obtain rfl : j = 0 := by omega
        obtain rfl : m = m' := by simpa using hget
        exact h hstart
      rw [hupTo]
      split_ifs with hstart hres
      · simp [htail, hstart, hres]
      · simp [hstart, hres]
      · rw [Nat.add_zero] at hlast ⊢
        simp [htail, hlast, hstart]
    | succ i =>
      have hplace : k + (i + 1) = k + 1 + i := by omega
      have hne : k + (i + 1) ≠ k := by omega
      rw [upTo_cons, List.getElem?_cons_succ]
      split_ifs with hstart hres
      · rw [hplace, ih]
        · simp [hres]
        · rw [← hplace, Function.update_of_ne hne, hlast]
      · simp [hlast, hstart, hres]
      · rw [hplace, ih _ _ last (hplace ▸ hlast)]
        simp [hstart]

variable {s : ControlPlane} {results started : Nat → Bool}

/-- What a start leaves of the modules, where `started` are the started ones before it: a module
whose start callback succeeds is started, any other stays as it is. -/
def startedAfter (s : ControlPlane) (results : Nat → Bool) (started : Nat → Bool)
    (i : Nat) : Bool :=
  match ((start { s with last := fun _ => none } results).1).last i with
  | some (.start true) => true
  | some .stop => false
  | _ => started i

theorem start_last (s : ControlPlane) (results : Nat → Bool) :
    (s.start results).1.last = (startModules results s.modules 0 s.last).1 := by
  unfold start
  dsimp only
  split <;> rfl

/-- **What a start leaves of a module.** -/
theorem startedAfter_iff (i : Nat) :
    s.startedAfter results started i = true ↔ started i = true ∨
      (∃ m, s.modules[i]? = some m ∧ m.hasStart = true) ∧ UpTo results s.modules 0 i := by
  have hiff := startModules_started_iff results s.modules 0 i (fun _ => none) rfl
  have hstart := startModules_start results s.modules 0 (fun _ => none) i
  rw [Nat.zero_add] at hiff
  rw [startedAfter, start_last, ← hiff]
  rcases hstart with hnone | ⟨success, hsome⟩
  · simp [hnone]
  · cases success <;> simp [hsome]

theorem start_current (h : (s.start results).2 = false) :
    (s.start results).1.current = s.current := by
  by_cases hall : s.AllStart results
  · rw [start_ok hall] at h ⊢
    revert h
    unfold transition
    split <;> simp
  · rw [(start_fail hall).1]

/-- **When a failed start is undone**: the state of the system stays, and the modules are as they
were before exactly if those whose start callback succeeded in the call were started already. -/
theorem start_undone_iff (s : ControlPlane) (results started : Nat → Bool)
    (h : (s.start results).2 = false) :
    (∀ i < s.modules.length, s.startedAfter results started i = started i) ∧
        (s.start results).1.current = s.current ↔
      ∀ i m, s.modules[i]? = some m → m.hasStart = true → UpTo results s.modules 0 i →
        started i = true := by
  refine ⟨?_, ?_⟩
  · rintro ⟨hsame, -⟩ i m hget hstart hupTo
    rw [← hsame i (List.getElem?_eq_some_iff.1 hget).1]
    exact startedAfter_iff i |>.2 (.inr ⟨⟨m, hget, hstart⟩, hupTo⟩)
  · refine fun hstarted => ⟨fun i _ => ?_, start_current h⟩
    rw [Bool.eq_iff_iff, startedAfter_iff]
    refine ⟨?_, .inl⟩
    rintro (hbefore | ⟨⟨m, hget, hstart⟩, hupTo⟩)
    · exact hbefore
    · exact hstarted i m hget hstart hupTo

/-- A start in `Init`, refused, over a module that is started already. -/
theorem start_undone_init :
    (∀ i < 1, startedAfter (new [{}]) allSucceed (fun _ => true) i = true) ∧
      ((new [{}]).start allSucceed).1.current = .init :=
  (start_undone_iff (new [{}]) allSucceed (fun _ => true) (by decide)).2 fun _ _ _ _ _ => rfl

/-- Two failed starts that leave a module started: in `Init` the transition is refused, and in
`Standby` the second of two modules does not start. -/
theorem start_not_undone :
    ((new [{}]).start allSucceed).2 = false ∧
      startedAfter (new [{}]) allSucceed (fun _ => false) 0 = true ∧
    ((new [{}, {}]).boot.1.start fun i => i == 0).2 = false ∧
      startedAfter (new [{}, {}]).boot.1 (fun i => i == 0) (fun _ => false) 0 = true := by
  decide

end Qdgz300.Control.ControlPlane
