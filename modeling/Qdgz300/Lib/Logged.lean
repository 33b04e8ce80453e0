import Mathlib.Algebra.GroupWithZero.Nat
import Mathlib.Control.Monad.Writer

/-!
# Computations that log events

`Logged ε` is the writer monad over lists of events. `value` is what a computation returns and `log`
what it has logged, in order. `All P` says that every event logged meets `P`; `all_pure`, `all_emit`
and `all_bind` are its rules.
-/

universe u

/-- A computation that logs events. -/
abbrev Logged (ε : Type u) : Type u → Type u := Writer (List ε)

namespace Logged

variable {ε α β : Type u} {P Q : ε → Prop}

def value (x : Logged ε α) : α := (Id.run (WriterT.run x)).1

def log (x : Logged ε α) : List ε := (Id.run (WriterT.run x)).2

/-- Log one event. -/
def emit (e : ε) : Logged ε PUnit := tell [e]

@[simp] theorem value_pure (a : α) : value (pure a : Logged ε α) = a := rfl

@[simp] theorem value_bind (x : Logged ε α) (f : α → Logged ε β) :
    value (x >>= f) = value (f (value x)) := rfl

@[simp] theorem log_pure (a : α) : log (pure a : Logged ε α) = [] := rfl

@[simp] theorem log_emit (e : ε) : log (emit e) = [e] := rfl

@[simp] theorem log_bind (x : Logged ε α) (f : α → Logged ε β) :
    log (x >>= f) = log x ++ log (f (value x)) := rfl

/-- Every event logged meets `P`. -/
def All (P : ε → Prop) (x : Logged ε α) : Prop := ∀ e ∈ log x, P e

@[simp] theorem all_pure (a : α) : All P (pure a : Logged ε α) := by
  simp [All]

@[simp] theorem all_emit {e : ε} : All P (emit e) ↔ P e := by
  simp [All]

/-- **The rule of a sequence.** -/
@[simp] theorem all_bind {x : Logged ε α} {f : α → Logged ε β} :
    All P (x >>= f) ↔ All P x ∧ All P (f (value x)) := by
  simp [All, or_imp, forall_and]

theorem All.mono {x : Logged ε α} (h : All P x) (hPQ : ∀ e, P e → Q e) : All Q x :=
  fun e he => hPQ e (h e he)

end Logged
