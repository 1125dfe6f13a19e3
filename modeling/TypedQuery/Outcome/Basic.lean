import TypedQuery.Outcome.Failure

/-!
# Outcomes

An outcome is a value, or the failures that stood in its way.

* `combine`: the values of many outcomes, or all their failures in order;
* `combine_eq_done_iff`: when no outcome fails without a failure, the whole is done exactly if each
  part is.
-/

namespace TypedQuery

inductive Outcome (α : Type u)
  | done (value : α)
  | fail (failures : List Failure)

namespace Outcome

def isDone : Outcome α → Bool
  | .done _ => true
  | .fail _ => false

def failures : Outcome α → List Failure
  | .done _ => []
  | .fail fs => fs

def value? : Outcome α → Option α
  | .done v => some v
  | .fail _ => none

def map (f : α → β) : Outcome α → Outcome β
  | .done v => .done (f v)
  | .fail fs => .fail fs

/-- The value of an outcome, or the reasons of its failures as one text. -/
def unwrap : Outcome α → Except String α
  | .done v => .ok v
  | .fail fs => .error ("; ".intercalate (fs.map Failure.reason))

def unwrapOr (default : α) : Outcome α → α
  | .done v => v
  | .fail _ => default

/-! ## Many outcomes -/

/-- All values in order, or all failures in order if there is one. -/
def combine (outcomes : List (Outcome α)) : Outcome (List α) :=
  let failures := outcomes.flatMap Outcome.failures
  if failures.isEmpty then .done (outcomes.filterMap value?) else .fail failures

theorem combine_nil : combine ([] : List (Outcome α)) = .done [] := rfl

theorem combine_eq_done_iff {outcomes : List (Outcome α)}
    (h : ∀ o ∈ outcomes, o ≠ .fail []) (values : List α) :
    combine outcomes = .done values ↔ outcomes = values.map .done := by
  constructor
  · intro hc
    unfold combine at hc
    simp only at hc
    split at hc
    · next he =>
      obtain rfl := Outcome.done.inj hc
      rw [List.isEmpty_iff, List.flatMap_eq_nil_iff] at he
      clear hc
      induction outcomes with
      | nil => rfl
      | cons o rest ih =>
        have hrest := ih (fun o ho => h o (List.mem_cons_of_mem _ ho))
          (fun o ho => he o (List.mem_cons_of_mem _ ho))
        cases o with
        | done v => simpa [value?] using hrest
        | fail fs =>
          have : fs = [] := he (.fail fs) (List.mem_cons_self ..)
          exact absurd (by rw [this]) (h (.fail fs) (List.mem_cons_self ..))
    · cases hc
  · intro ho
    subst ho
    have hf : (values.map .done).flatMap Outcome.failures = ([] : List Failure) := by
      simp [List.flatMap_eq_nil_iff, Outcome.failures]
    have hv : (values.map .done).filterMap value? = values := by
      rw [List.filterMap_map, show (value? ∘ Outcome.done : α → Option α) = some from rfl,
        List.filterMap_some]
    simp [combine, hf, hv]

end Outcome

end TypedQuery
