import TypedQuery.Proofs.Coercion.Gather

/-!
# Many outcomes in one

What many outcomes come to is decided by their failures and not by the outcomes themselves. The two
differ for an outcome that fails without a failure, which leaves no trace among others.

* `Collects`: the values of many outcomes, or all their failures in order;
* `combine_eq_done_iff_failures`, `combine_eq_fail_iff`: what `combine` gives;
* `combine_collects`: it collects the outcomes unless all that fail do so without a failure;
* `combine_drops_fail`: where it does not.
-/

namespace TypedQuery.Outcome

variable {α : Type}

/-- The whole of many outcomes: done exactly if each of them is, with their values in order, else
failed with all their failures in order. -/
structure Collects (outcomes : List (Outcome α)) (whole : Outcome (List α)) : Prop where
  done : ∀ values, whole = .done values ↔ outcomes = values.map .done
  fail : ∀ fs, whole = .fail fs ↔
    (∃ o ∈ outcomes, o.isDone = false) ∧ fs = outcomes.flatMap failures

variable {outcomes : List (Outcome α)}

/-! ## All outcomes done -/

theorem failures_of_isDone {o : Outcome α} (h : o.isDone = true) : o.failures = [] := by
  cases o with
  | done v => rfl
  | fail fs => cases h

theorem eq_map_done_of_isDone (h : ∀ o ∈ outcomes, o.isDone = true) :
    outcomes = (outcomes.filterMap value?).map .done := by
  induction outcomes with
  | nil => rfl
  | cons o rest ih =>
    have hrest := ih fun o' ho' => h o' (List.mem_cons_of_mem _ ho')
    cases o with
    | done v => exact congrArg (.done v :: ·) hrest
    | fail fs => cases h (.fail fs) (List.mem_cons_self ..)

/-- Outcomes are done with some values exactly if all of them are done, with those values. -/
theorem eq_map_done_iff {values : List α} :
    outcomes = values.map .done ↔
      (∀ o ∈ outcomes, o.isDone = true) ∧ values = outcomes.filterMap value? := by
  constructor
  · rintro rfl
    have hvalue : (value? ∘ done : α → Option α) = some := rfl
    refine ⟨fun o ho => ?_, ?_⟩
    · obtain ⟨v, _, rfl⟩ := List.mem_map.mp ho
      rfl
    · rw [List.filterMap_map, hvalue, List.filterMap_some]
  · rintro ⟨hall, rfl⟩
    exact eq_map_done_of_isDone hall

/-! ## The whole -/

theorem combine_eq_done_iff_failures {values : List α} :
    combine outcomes = .done values ↔
      (∀ o ∈ outcomes, o.failures = []) ∧ values = outcomes.filterMap value? := by
  rw [← List.flatMap_eq_nil_iff]
  unfold combine
  cases outcomes.flatMap failures with
  | nil => simp [eq_comm]
  | cons f fs => simp

theorem combine_eq_fail_iff {fs : List Failure} :
    combine outcomes = .fail fs ↔
      (∃ o ∈ outcomes, o.failures ≠ []) ∧ fs = outcomes.flatMap failures := by
  have hsome : (∃ o ∈ outcomes, o.failures ≠ []) ↔ outcomes.flatMap failures ≠ [] := by
    simp [List.flatMap_eq_nil_iff]
  rw [hsome]
  unfold combine
  cases outcomes.flatMap failures with
  | nil => simp
  | cons f fs' => simp [eq_comm]

/-- The outcomes are collected exactly if those without a failure are those that are done. -/
theorem collects_combine_iff :
    Collects outcomes (combine outcomes) ↔
      ((∀ o ∈ outcomes, o.failures = []) → ∀ o ∈ outcomes, o.isDone = true) := by
  constructor
  · intro h hnone
    exact (eq_map_done_iff.mp ((h.done _).mp (combine_eq_done_iff_failures.mpr ⟨hnone, rfl⟩))).1
  · intro h
    have hdone : (∀ o ∈ outcomes, o.failures = []) ↔ ∀ o ∈ outcomes, o.isDone = true :=
      ⟨h, fun hall o ho => failures_of_isDone (hall o ho)⟩
    constructor
    · intro values
      rw [combine_eq_done_iff_failures, eq_map_done_iff, hdone]
    · intro fs
      have hfail : (∃ o ∈ outcomes, o.failures ≠ []) ↔ ∃ o ∈ outcomes, o.isDone = false := by
        simpa using not_congr hdone
      rw [combine_eq_fail_iff, hfail]

/-- **What many outcomes come to.** The whole is done exactly if no outcome has a failure, with the
values of those that are done; else it fails with all failures in order. So the outcomes are
collected exactly if, should one of them fail without a failure, another fails with one. -/
theorem combine_collects (outcomes : List (Outcome α)) :
    (∀ values, combine outcomes = .done values ↔
      (∀ o ∈ outcomes, o.failures = []) ∧ values = outcomes.filterMap value?) ∧
    (∀ fs, combine outcomes = .fail fs ↔
      (∃ o ∈ outcomes, o.failures ≠ []) ∧ fs = outcomes.flatMap failures) ∧
    (Collects outcomes (combine outcomes) ↔
      (.fail [] ∈ outcomes → ∃ o ∈ outcomes, o.failures ≠ [])) := by
  refine ⟨fun _ => combine_eq_done_iff_failures, fun _ => combine_eq_fail_iff, ?_⟩
  rw [collects_combine_iff]
  constructor
  · intro h hmem
    by_contra hnone
    have hdone := h (by simpa using hnone) _ hmem
    cases hdone
  · intro h hnone o ho
    cases o with
    | done v => rfl
    | fail fs =>
      obtain rfl : fs = [] := hnone _ ho
      obtain ⟨o', ho', hne⟩ := h ho
      exact absurd (hnone o' ho') hne

/-- Between two outcomes that are done, one that fails without a failure is passed over. -/
theorem combine_drops_fail :
    combine [.done 1, .fail [], .done 2] = .done [1, 2] ∧
      ¬ Collects [.done 1, .fail [], .done 2] (combine [.done 1, .fail [], .done 2]) := by
  have hwhole : combine [.done 1, .fail [], .done 2] = .done [1, 2] := rfl
  refine ⟨hwhole, fun h => ?_⟩
  have hlength := congrArg List.length ((h.done _).mp hwhole)
  cases hlength

end TypedQuery.Outcome
