import TypedQuery.Proofs.Coercion.Gather

/-!
# Relabelling failures

Two coercions are compared by what remains once their failures are relabelled.

* `Outcome.relabel`: an outcome with its failures replaced one by one;
* `gatherItems_relabel`, `gatherMembers_relabel`: parts are relabelled before or after they are
  gathered;
* `map_mapM_eq`: so are the steps of a traversal.
-/

namespace TypedQuery

namespace Outcome

variable {α β : Type} (φ : Failure → Failure)

/-- An outcome with its failures replaced one by one. -/
def relabel : Outcome α → Outcome α
  | .done v => .done v
  | .fail fs => .fail (fs.map φ)

theorem failures_relabel (o : Outcome α) : (o.relabel φ).failures = o.failures.map φ := by
  cases o <;> rfl

theorem value?_relabel (o : Outcome α) : (o.relabel φ).value? = o.value? := by
  cases o <;> rfl

theorem relabel_map (f : α → β) (o : Outcome α) : (o.map f).relabel φ = (o.relabel φ).map f := by
  cases o <;> rfl

theorem combine_relabel (outcomes : List (Outcome α)) :
    combine (outcomes.map (relabel φ)) = (combine outcomes).relabel φ := by
  have hf : (outcomes.map (relabel φ)).flatMap failures = (outcomes.flatMap failures).map φ := by
    rw [List.flatMap_map, List.map_flatMap]
    exact List.flatMap_congr fun o _ => failures_relabel φ o
  have hv : (outcomes.map (relabel φ)).filterMap value? = outcomes.filterMap value? := by
    rw [List.filterMap_map]
    exact List.filterMap_congr fun o _ => value?_relabel φ o
  unfold combine
  rw [hf, hv]
  cases outcomes.flatMap failures <;> rfl

end Outcome

namespace Coercion

variable (φ : Failure → Failure)

theorem gatherItems_relabel (outcomes : List (Outcome (Option Value))) :
    gatherItems (outcomes.map (Outcome.relabel φ)) = (gatherItems outcomes).relabel φ := by
  unfold gatherItems
  rw [Outcome.combine_relabel, Outcome.relabel_map]

theorem gatherMembers_relabel (outcomes : List (String × Outcome (Option Value))) :
    gatherMembers (outcomes.map fun o => (o.1, o.2.relabel φ)) =
      (gatherMembers outcomes).relabel φ := by
  have hnamed : (outcomes.map fun o => (o.1, o.2.relabel φ)).map
        (fun o => o.2.map fun v => v.map (o.1, ·)) =
      (outcomes.map fun o => o.2.map fun v => v.map (o.1, ·)).map (Outcome.relabel φ) := by
    rw [List.map_map, List.map_map]
    exact List.map_congr_left fun o _ => (Outcome.relabel_map φ _ o.2).symm
  have hgather : ∀ os : List (String × Outcome (Option Value)), gatherMembers os =
      (Outcome.combine (os.map fun o => o.2.map fun v => v.map (o.1, ·))).map
        fun members => members.filterMap fun m => m := fun _ => rfl
  rw [hgather, hgather, hnamed, Outcome.combine_relabel, Outcome.relabel_map]

theorem map_gatherItems_relabel (outcomes : Except Fault (List (Outcome (Option Value)))) :
    (outcomes.map gatherItems).map (Outcome.relabel φ) =
      (outcomes.map (List.map (Outcome.relabel φ))).map gatherItems := by
  cases outcomes with
  | error e => rfl
  | ok outcomes => exact congrArg Except.ok (gatherItems_relabel φ outcomes).symm

theorem map_gatherMembers_relabel {α : Type} (F : Members Value → α)
    (outcomes : Except Fault (List (String × Outcome (Option Value)))) :
    (outcomes.map fun os => (gatherMembers os).map F).map (Outcome.relabel φ) =
      (outcomes.map (List.map fun o => (o.1, o.2.relabel φ))).map
        fun os => (gatherMembers os).map F := by
  cases outcomes with
  | error e => rfl
  | ok outcomes =>
    refine congrArg Except.ok ?_
    rw [Outcome.relabel_map, ← gatherMembers_relabel]

end Coercion

section Traversal

variable {α β γ : Type}

theorem map_mapM_eq (f : α → Except Fault β) (B : β → γ) (xs : List α) :
    (xs.mapM f).map (List.map B) = xs.mapM fun x => (f x).map B := by
  induction xs with
  | nil => rfl
  | cons x xs ih =>
    rw [List.mapM_cons, List.mapM_cons, ← ih]
    cases f x with
    | error e => rfl
    | ok y => cases xs.mapM f <;> rfl

/-- Traversals whose steps agree up to `B` agree up to `B`, unless a step of the second shows
something without a text where the first does not. -/
theorem map_mapM_eq_or {f f' : α → Except Fault β} {B : β → γ} {xs : List α} {P : Prop}
    (h : ∀ x ∈ xs, (f x).map B = (f' x).map B ∨ f' x = .error .textless ∧ P) :
    (xs.mapM f).map (List.map B) = (xs.mapM f').map (List.map B) ∨
      xs.mapM f' = .error .textless ∧ P := by
  induction xs with
  | nil => exact Or.inl rfl
  | cons x xs ih =>
    rw [List.mapM_cons, List.mapM_cons]
    rcases h x (List.mem_cons_self ..) with hx | ⟨hx, hP⟩
    · cases hf : f x with
      | error e =>
        cases hf' : f' x with
        | error e' => simp_all [Except.map, bind, Except.bind]
        | ok y' => simp [hf, hf', Except.map] at hx
      | ok y =>
        cases hf' : f' x with
        | error e' => simp [hf, hf', Except.map] at hx
        | ok y' =>
          have hy : B y = B y' := by simpa [hf, hf', Except.map] using hx
          rcases ih fun z hz => h z (List.mem_cons_of_mem _ hz) with hxs | ⟨hxs, hP⟩
          · left
            cases hm : xs.mapM f <;> cases hm' : xs.mapM f' <;>
              simp_all [Except.map, bind, Except.bind, pure, Except.pure]
          · exact Or.inr ⟨by rw [hxs]; rfl, hP⟩
    · exact Or.inr ⟨by rw [hx]; rfl, hP⟩

end Traversal

end TypedQuery
