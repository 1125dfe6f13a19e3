import TypedQuery.Coercion.Arguments
import TypedQuery.Proofs.Coercion.Done
import TypedQuery.Proofs.Members

/-!
# Coerced arguments

* `mem_argumentsToCoerce`: which arguments are coerced, and from what;
* `coercePosition_cases`: what is coerced at a position;
* `coerceArguments_eq_done_iff`: all arguments are done exactly if each of them is;
* `ofAssignments_present`: the object of the arguments.
-/

namespace TypedQuery.Coercion

variable {ν : Type} {g : TypeGraph ν} {ctx : Context ν} {declared : Declared (Position ν)}
  {supplied : Members Raw} {enforce : Bool}

theorem mem_argumentsToCoerce {name : String} {position : Position ν} {raw : Raw} :
    (name, position, raw) ∈ argumentsToCoerce declared supplied enforce ↔
      (name, position) ∈ declared.entries ∧ raw = suppliedRaw supplied name ∧
        isWaived enforce position raw = false := by
  unfold argumentsToCoerce
  simp only [List.mem_filter, List.mem_map, Prod.mk.injEq, Bool.not_eq_true']
  constructor
  · rintro ⟨⟨⟨name, position⟩, hm, rfl, rfl, rfl⟩, hw⟩
    exact ⟨hm, rfl, hw⟩
  · rintro ⟨hm, rfl, hw⟩
    exact ⟨⟨(name, position), hm, rfl, rfl, rfl⟩, hw⟩

theorem keys_argumentsToCoerce_sublist (declared : Declared (Position ν)) (supplied : Members Raw)
    (enforce : Bool) :
    (Members.keys (argumentsToCoerce declared supplied enforce)).Sublist declared.names := by
  have h := (List.filter_sublist (p := fun a : String × Position ν × Raw =>
    !isWaived enforce a.2.1 a.2.2) (l := declared.entries.map fun f =>
      (f.1, f.2, suppliedRaw supplied f.1))).map Prod.fst
  rwa [List.map_map] at h

/-- At a position what is supplied is coerced, or the default where that is left in force. -/
theorem coercePosition_cases (g : TypeGraph ν) (ctx : Context ν) (position : Position ν)
    (raw : Raw) (path : Path) :
    (ctx.leavesDefault raw = true → position.fallback? = none) ∧
        coercePosition g ctx position raw path = coerce g ctx position.type raw path ∨
      ∃ v, ctx.leavesDefault raw = true ∧ position.fallback? = some v ∧
        coercePosition g ctx position raw path = coerce g ctx position.type (.external v) path := by
  unfold coercePosition
  rcases fallbackFor?_cases ctx position raw with ⟨hn, hl⟩ | ⟨v, hl, hv, hs⟩
  · exact Or.inl ⟨hl, by rw [hn]; rfl⟩
  · exact Or.inr ⟨v, hl, hv, by rw [hs]; rfl⟩

theorem coercePosition_ne_fail_nil (position : Position ν) (raw : Raw) (path : Path) :
    coercePosition g ctx position raw path ≠ .ok (.fail []) :=
  coerceAt_ne_fail_nil _ _ _

/-- A position with a default is never left absent. -/
theorem fallback?_of_coercePosition_done_none (hc : ctx.HasConstantDefaults)
    {position : Position ν} {raw : Raw} {path : Path}
    (h : coercePosition g ctx position raw path = .ok (.done none)) :
    position.fallback? = none := by
  rcases coercePosition_cases g ctx position raw path with ⟨hl, he⟩ | ⟨v, _, _, he⟩
  · rw [he] at h
    exact hl (leavesDefault_of_done_none hc h)
  · rw [he] at h
    obtain ⟨w, hw⟩ := exists_of_isConstant (Raw.isConstant_external v) h
    cases hw

/-! ## All arguments -/

theorem coerceArguments_eq (g : TypeGraph ν) (ctx : Context ν) (declared : Declared (Position ν))
    (supplied : Members Raw) (enforce : Bool) :
    coerceArguments g ctx declared supplied enforce =
      ((argumentsToCoerce declared supplied enforce).mapM fun a =>
        (coercePosition g ctx a.2.1 a.2.2 [.field a.1]).map (a.1, ·)).map fun outcomes =>
          (gatherMembers outcomes).map Value.ofAssignments := by
  have hstep : ∀ x : Coerced, ∀ name : String,
      (do let outcome ← x; return (name, outcome) : Except Fault _) = x.map (name, ·) := by
    intro x name
    cases x <;> rfl
  unfold coerceArguments
  simp only [hstep]
  cases (argumentsToCoerce declared supplied enforce).mapM fun a =>
    (coercePosition g ctx a.2.1 a.2.2 [.field a.1]).map (a.1, ·) <;> rfl

/-- The arguments are done if each of them is; those that are present are assigned. -/
theorem coerceArguments_eq_done_iff {v : Value} :
    coerceArguments g ctx declared supplied enforce = .ok (.done v) ↔
      ∃ values : List (String × Option Value),
        List.Forall₂ (fun a w => a.1 = w.1 ∧
            coercePosition g ctx a.2.1 a.2.2 [.field a.1] = .ok (.done w.2))
          (argumentsToCoerce declared supplied enforce) values ∧
        v = .ofAssignments (presentMembers values) := by
  simp only [coerceArguments_eq, map_eq_ok_iff, Outcome.map_eq_done_iff]
  constructor
  · rintro ⟨outcomes, hc, members, hm, rfl⟩
    obtain ⟨values, hf, rfl⟩ := (mapM_gatherMembers_eq_done_iff
      fun _ _ => coercePosition_ne_fail_nil _ _ _).mp ⟨outcomes, hc, hm⟩
    exact ⟨values, hf, rfl⟩
  · rintro ⟨values, hf, rfl⟩
    obtain ⟨outcomes, hc, hm⟩ := (mapM_gatherMembers_eq_done_iff
      fun _ _ => coercePosition_ne_fail_nil _ _ _).mpr ⟨values, hf, rfl⟩
    exact ⟨outcomes, hc, _, hm, rfl⟩

/-- Arguments have no outcome only as one of them has none. -/
theorem exists_of_coerceArguments_eq_error {e : Fault}
    (h : coerceArguments g ctx declared supplied enforce = .error e) :
    ∃ name position raw, (name, position, raw) ∈ argumentsToCoerce declared supplied enforce ∧
      coercePosition g ctx position raw [.field name] = .error e := by
  rw [coerceArguments_eq, map_eq_error_iff] at h
  obtain ⟨⟨name, position, raw⟩, ha, he⟩ := exists_of_mapM_eq_error h
  exact ⟨name, position, raw, ha, map_eq_error_iff.mp he⟩

/-- Without an argument of the reserved name, the object of the arguments has them as members. -/
theorem ofAssignments_present (hreserved : Members.reservedKey ∉ declared.names)
    {values : List (String × Option Value)}
    (h : (presentMembers values).keys.Sublist
      (Members.keys (argumentsToCoerce declared supplied enforce))) :
    Value.ofAssignments (presentMembers values) =
      .record (Members.ofList (presentMembers values)) := by
  refine Value.ofAssignments_eq_record fun a ha hname => hreserved ?_
  have hkeys := h.trans (keys_argumentsToCoerce_sublist declared supplied enforce)
  exact hname ▸ hkeys.subset (List.mem_map.mpr ⟨a, ha, rfl⟩)

end TypedQuery.Coercion
