import Mathlib.Algebra.GroupWithZero.Nat
import Mathlib.Data.List.Basic

/-!
# Ledgers of resources

A trace of takes and returns. `held` are the resources that were taken and not returned; `Proper`
says that every take is of a resource that is not held and every return of one that is. In a proper
trace what happened to a resource since it was last taken is nothing, and it is held, or exactly one
return (`Proper.fate`).
-/

namespace Ledger

/-- A resource is taken, or returned in the way `how`. -/
inductive Event (α κ : Type*) where
  | take (a : α)
  | give (a : α) (how : κ)
  deriving DecidableEq

variable {α κ : Type*}

/-- The resources returned in their order. -/
def gives (bs : List α) (how : κ) : List (Event α κ) := bs.map fun b => .give b how

variable [DecidableEq α]

/-- The resources held after an event. -/
def Event.after (held : List α) : Event α κ → List α
  | .take a => held ++ [a]
  | .give a _ => held.erase a

/-- The resources held after a trace that starts with `h`. -/
def heldFrom (h : List α) (trace : List (Event α κ)) : List α := trace.foldl Event.after h

/-- The resources held after a trace. -/
def held (trace : List (Event α κ)) : List α := heldFrom [] trace

/-- The event is possible where `h` is held. -/
def Event.Allowed (h : List α) : Event α κ → Prop
  | .take a => a ∉ h
  | .give a _ => a ∈ h

/-- Every event of the trace is possible when its turn comes. -/
def ProperFrom : List α → List (Event α κ) → Prop
  | _, [] => True
  | h, e :: es => e.Allowed h ∧ ProperFrom (e.after h) es

/-- Every take is of a resource that is not held, and every return of one that is. -/
def Proper (trace : List (Event α κ)) : Prop := ProperFrom [] trace

/-- The returns of `a` since it was last taken, after those in `past`. -/
def fateFrom (a : α) : List κ → List (Event α κ) → List κ
  | past, [] => past
  | past, .take b :: es => fateFrom a (if b = a then [] else past) es
  | past, .give b how :: es => fateFrom a (if b = a then past ++ [how] else past) es

/-- The returns of `a` since it was last taken. -/
def fate (a : α) (trace : List (Event α κ)) : List κ := fateFrom a [] trace

variable {h : List α} {trace es : List (Event α κ)} {a : α} {bs cs : List α} {how : κ}

theorem heldFrom_append : heldFrom h (trace ++ es) = heldFrom (heldFrom h trace) es :=
  List.foldl_append

theorem held_append : held (trace ++ es) = heldFrom (held trace) es := heldFrom_append

theorem properFrom_append :
    ProperFrom h (trace ++ es) ↔ ProperFrom h trace ∧ ProperFrom (heldFrom h trace) es := by
  induction trace generalizing h with
  | nil => exact (and_iff_right trivial).symm
  | cons e trace ih =>
    rw [List.cons_append, ProperFrom, ProperFrom, ih, and_assoc]
    rfl

theorem proper_append : Proper (trace ++ es) ↔ Proper trace ∧ ProperFrom (held trace) es :=
  properFrom_append

/-! ## Returning several resources -/

/-- The first of the held resources are returned in their order. -/
theorem heldFrom_give (how : κ) :
    heldFrom (bs ++ cs) (gives bs how) = cs := by
  induction bs with
  | nil => rfl
  | cons b bs ih =>
    have herase : ((b :: bs) ++ cs).erase b = bs ++ cs := List.erase_cons_head _ _
    exact (congrArg (heldFrom · _) herase).trans ih

theorem properFrom_give (how : κ) :
    ProperFrom (bs ++ cs) (gives bs how) := by
  induction bs with
  | nil => trivial
  | cons b bs ih =>
    refine ⟨List.mem_cons_self, ?_⟩
    have herase : ((b :: bs) ++ cs).erase b = bs ++ cs := List.erase_cons_head _ _
    change ProperFrom (((b :: bs) ++ cs).erase b) _
    rw [herase]
    exact ih

theorem heldFrom_give_all (how : κ) : heldFrom bs (gives bs how) = [] := by
  have h := @heldFrom_give α κ _ bs [] how
  rwa [List.append_nil] at h

theorem properFrom_give_all (how : κ) : ProperFrom bs (gives bs how) := by
  have h := @properFrom_give α κ _ bs [] how
  rwa [List.append_nil] at h

/-- Where nothing is held, a return changes nothing. -/
theorem heldFrom_nil_give (how : κ) :
    heldFrom [] (gives bs how) = [] := by
  induction bs with
  | nil => rfl
  | cons b bs ih => exact ih

/-- Where nothing is held, nothing can be returned. -/
theorem properFrom_nil_give (how : κ) :
    ProperFrom [] (gives bs how) ↔ bs = [] := by
  cases bs with
  | nil => exact ⟨fun _ => rfl, fun _ => trivial⟩
  | cons b bs =>
    constructor
    · rintro ⟨hmem, -⟩
      exact absurd hmem List.not_mem_nil
    · exact nofun

/-! ## What happened to a resource -/

/-- A resource is held and was not returned since it was taken, or it was returned once. -/
def Settled (a : α) (h : List α) (past : List κ) : Prop :=
  (a ∈ h ∧ past = []) ∨ (a ∉ h ∧ ∃ how, past = [how])

/-- From a settled resource on, or one that is not held and is taken later. -/
theorem ProperFrom.settled : ∀ {trace : List (Event α κ)} {h : List α} {past : List κ},
    ProperFrom h trace → h.Nodup → (Settled a h past ∨ a ∉ h ∧ .take a ∈ trace) →
    Settled a (heldFrom h trace) (fateFrom a past trace)
  | [], _, _, _, _, hcase => by
    rcases hcase with hsettled | ⟨-, hmem⟩
    · exact hsettled
    · cases hmem
  | .take b :: es, h, past, hproper, hnodup, hcase => by
    obtain ⟨hfresh, hproper⟩ := hproper
    have hnodup' : (h ++ [b]).Nodup :=
      List.nodup_append.2 ⟨hnodup, List.pairwise_singleton _ b, fun x hx y hy heq =>
        hfresh (List.mem_singleton.1 hy ▸ heq ▸ hx)⟩
    change Settled a (heldFrom (h ++ [b]) es) (fateFrom a (if b = a then [] else past) es)
    refine ProperFrom.settled hproper hnodup' ?_
    by_cases hb : b = a
    · subst hb
      rw [if_pos rfl]
      exact .inl (.inl ⟨List.mem_append_right _ List.mem_cons_self, rfl⟩)
    · have hmem : a ∈ h ++ [b] ↔ a ∈ h := by simp [Ne.symm hb]
      rw [if_neg hb]
      rcases hcase with hsettled | ⟨hnot, htake⟩
      · refine .inl ?_
        unfold Settled at hsettled ⊢
        rw [hmem]
        exact hsettled
      · refine .inr ⟨mt hmem.1 hnot, ?_⟩
        rcases List.mem_cons.1 htake with heq | htake
        · exact absurd (Event.take.inj heq).symm hb
        · exact htake
  | .give b how :: es, h, past, hproper, hnodup, hcase => by
    obtain ⟨hmem, hproper⟩ := hproper
    change Settled a (heldFrom (h.erase b) es)
      (fateFrom a (if b = a then past ++ [how] else past) es)
    refine ProperFrom.settled hproper (hnodup.erase b) ?_
    by_cases hb : b = a
    · subst hb
      have hnot : b ∉ h.erase b := hnodup.not_mem_erase
      rw [if_pos rfl]
      rcases hcase with (⟨-, rfl⟩ | ⟨hnot', -⟩) | ⟨hnot', -⟩
      · exact .inl (.inr ⟨hnot, how, rfl⟩)
      · exact absurd hmem hnot'
      · exact absurd hmem hnot'
    · have hmem' : a ∈ h.erase b ↔ a ∈ h := List.mem_erase_of_ne (Ne.symm hb)
      rw [if_neg hb]
      rcases hcase with hsettled | ⟨hnot, htake⟩
      · refine .inl ?_
        unfold Settled at hsettled ⊢
        rw [hmem']
        exact hsettled
      · refine .inr ⟨mt hmem'.1 hnot, ?_⟩
        rcases List.mem_cons.1 htake with heq | htake
        · cases heq
        · exact htake

/-- **What happened to a resource** since it was last taken: nothing, and it is held, or exactly one
return. -/
theorem Proper.fate (hproper : Proper trace) (htake : .take a ∈ trace) :
    (a ∈ held trace ∧ fate a trace = []) ∨ (a ∉ held trace ∧ ∃ how, fate a trace = [how]) :=
  ProperFrom.settled hproper List.nodup_nil (.inr ⟨List.not_mem_nil, htake⟩)

end Ledger
