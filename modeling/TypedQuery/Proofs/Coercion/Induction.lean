import TypedQuery.Coercion.Equations
import TypedQuery.Proofs.Coercion.Gather
import TypedQuery.Proofs.Coercion.Reference

/-!
# Induction along a coercion

A coercion goes from a reference to what it stands for, from a required type to the type inside,
from a list to its items, and from an object to what it holds under the names of the declared
fields or to their defaults.

* `coercion_induction`: what passes from all these to the whole holds of all coercions;
* `coerceField_cases`: what is coerced for a field;
* `exists_of_coerceItems_eq_error`, `exists_of_coerceFields_eq_error`: what leaves a list or an
  object without an outcome;
* `coerceAt_ne_fail_nil`: no coercion fails without a failure.
-/

namespace TypedQuery.Coercion

variable {ν : Type} (g : TypeGraph ν) (ctx : Context ν)

section Induction

variable {motive : Nat → Nat → TypeRef (TypeId ν) → Raw → Prop}
  (reference : ∀ hops defaults type name,
    (∀ h, hops = h + 1 → motive h defaults type (ctx.standFor name)) →
    motive hops defaults type (.variable name))
  (absent : ∀ hops defaults type, motive hops defaults type .absent)
  (null : ∀ hops defaults type raw, raw.isNull = true → motive hops defaults type raw)
  (required : ∀ hops defaults inner raw, isPresent raw = true →
    motive hops defaults inner raw → motive hops defaults (.required inner) raw)
  (list : ∀ hops defaults item raw, isPresent raw = true →
    (∀ items, raw.items? = some items → ∀ held ∈ items, motive hops defaults item held) →
    motive hops defaults (.list item) raw)
  (scalar : ∀ hops defaults id s raw, isPresent raw = true → g.describe id = .scalar s →
    motive hops defaults (.named id) raw)
  (enum : ∀ hops defaults id e raw, isPresent raw = true → g.describe id = .enum e →
    motive hops defaults (.named id) raw)
  (input : ∀ hops defaults id o raw, isPresent raw = true → g.describe id = .input o →
    (raw.isObject = true → ∀ f ∈ o.fields.entries,
      motive hops defaults f.2.type (raw.field f.1)) →
    (∀ f ∈ o.fields.entries, ∀ v, f.2.fallback? = some v → ∀ d, defaults = d + 1 →
      motive hops d f.2.type (.external v)) →
    motive hops defaults (.named id) raw)

include reference absent null required list scalar enum input

/-- What passes from the parts of a coercion to the whole holds of all coercions. -/
theorem coercion_induction (hops defaults : Nat) (type : TypeRef (TypeId ν)) (raw : Raw) :
    motive hops defaults type raw := by
  by_cases hp : isPresent raw = true
  · match type with
    | .required inner =>
      exact required _ _ _ _ hp (coercion_induction hops defaults inner raw)
    | .list item =>
      refine list _ _ _ _ hp fun items hitems held hheld => ?_
      have := Raw.sizeOf_lt_of_items? hitems hheld
      exact coercion_induction hops defaults item held
    | .named id =>
      cases hd : g.describe id with
      | scalar s => exact scalar _ _ _ s _ hp hd
      | enum e => exact enum _ _ _ e _ hp hd
      | input o =>
        refine input _ _ _ o _ hp hd (fun hobject f _ => ?_) fun f _ v _ d hdefaults => ?_
        · have := Raw.sizeOf_field_lt hobject f.1
          exact coercion_induction hops defaults f.2.type (raw.field f.1)
        · exact coercion_induction hops d f.2.type (.external v)
  · match raw with
    | .variable name =>
      exact reference _ _ _ _ fun h _ => coercion_induction h defaults type (ctx.standFor name)
    | .absent => exact absent _ _ _
    | .null => exact null _ _ _ _ rfl
    | .external v => exact null _ _ _ _ (by simpa [isPresent, Raw.isAbsent] using hp)
    | .int _ | .float _ | .string _ | .boolean _ | .enum _ | .list _ | .object _ =>
      exact absurd rfl hp
termination_by (hops, defaults, sizeOf raw, sizeOf type)
decreasing_by
  · exact Prod.Lex.right _ (Prod.Lex.right _ (Prod.Lex.right _ (by simp)))
  · exact Prod.Lex.right _ (Prod.Lex.right _ (Prod.Lex.left _ _ this))
  · exact Prod.Lex.right _ (Prod.Lex.right _ (Prod.Lex.left _ _ this))
  · exact Prod.Lex.right _ (Prod.Lex.left _ _ (by omega))
  · exact Prod.Lex.left _ _ (by omega)

end Induction

variable {g} {ctx} {hops defaults : Nat}

/-- The default of a field stands in where the object leaves it in force, if it has one. -/
theorem fallbackFor?_cases (ctx : Context ν) (position : Position ν) (raw : Raw) :
    fallbackFor? ctx position raw = none ∧
        (ctx.leavesDefault raw = true → position.fallback? = none) ∨
      ∃ v, ctx.leavesDefault raw = true ∧ position.fallback? = some v ∧
        fallbackFor? ctx position raw = some (.external v) := by
  unfold fallbackFor?
  cases hl : ctx.leavesDefault raw <;> cases hf : position.fallback? <;> simp

/-- For a field, what the object holds is coerced, or the default at the cost of one default. -/
theorem coerceField_cases (raw : Raw) (path : Path) (name : String) (position : Position ν) :
    (ctx.leavesDefault (raw.field name) = true → position.fallback? = none) ∧
        coerceField g ctx hops defaults raw path name position =
          coerceAt g ctx hops defaults position.type (raw.field name) (path ++ [.field name]) ∨
      ∃ v, position.fallback? = some v ∧
        (defaults = 0 ∧ coerceField g ctx hops defaults raw path name position = .error .endless ∨
          ∃ d, defaults = d + 1 ∧ coerceField g ctx hops defaults raw path name position =
            coerceAt g ctx hops d position.type (.external v) (path ++ [.field name])) := by
  rcases fallbackFor?_cases ctx position (raw.field name) with ⟨hn, hl⟩ | ⟨v, _, hv, hs⟩
  · exact Or.inl ⟨hl, by rw [coerceField, hn]⟩
  · refine Or.inr ⟨v, hv, ?_⟩
    cases defaults with
    | zero => exact Or.inl ⟨rfl, by rw [coerceField, hs]⟩
    | succ d => exact Or.inr ⟨d, rfl, by rw [coerceField, hs]⟩

/-! ## Having no outcome -/

/-- Items are left without an outcome by one of them. -/
theorem exists_of_coerceItems_eq_error {item : TypeRef (TypeId ν)} {items : List Raw} {path : Path}
    {e : Fault} (h : coerceItems g ctx hops defaults item items path = .error e) :
    ∃ held ∈ items, ∃ i,
      coerceAt g ctx hops defaults item held (path ++ [.index i]) = .error e := by
  obtain ⟨p, hp, he⟩ := exists_of_mapM_eq_error h
  exact ⟨p.1, List.fst_mem_of_mem_zipIdx hp, p.2, he⟩

/-- So are fields. -/
theorem exists_of_coerceFields_eq_error {raw : Raw} {fields : Members (Position ν)} {path : Path}
    {e : Fault} (h : coerceFields g ctx hops defaults raw fields path = .error e) :
    ∃ f ∈ fields, coerceField g ctx hops defaults raw path f.1 f.2 = .error e := by
  obtain ⟨f, hf, he⟩ := exists_of_mapM_eq_error h
  exact ⟨f, hf, map_eq_error_iff.mp he⟩

/-! ## Failing -/

theorem refuse_ne_done (raw : Raw) (failure : String → Failure) (v : Option Value) :
    refuse raw failure ≠ .ok (.done v) := by
  unfold refuse
  split <;> simp

theorem refuse_ne_fail_nil (raw : Raw) (failure : String → Failure) :
    refuse raw failure ≠ .ok (.fail []) := by
  unfold refuse
  split <;> simp

theorem judge_ne_fail_nil (s : Scalar) (raw : Raw) (path : Path) :
    judge s raw path ≠ .ok (.fail []) := by
  unfold judge
  split
  · simp
  · exact refuse_ne_fail_nil _ _
  · split
    · exact refuse_ne_fail_nil _ _
    · simp

theorem coerceScalar_ne_fail_nil (s : Scalar) (raw : Raw) (path : Path) :
    coerceScalar g ctx s raw path ≠ .ok (.fail []) := by
  unfold coerceScalar
  rcases ctx.inline g path raw with e | ⟨input, failures⟩
  · simp [bind, Except.bind]
  · cases failures with
    | nil => exact judge_ne_fail_nil s input path
    | cons f fs => simp [bind, Except.bind, pure, Except.pure]

theorem coerceEnum_ne_fail_nil (e : EnumType) (raw : Raw) (path : Path) :
    coerceEnum e raw path ≠ .ok (.fail []) := by
  unfold coerceEnum
  split
  · simp
  · exact refuse_ne_fail_nil _ _

/-- No coercion fails without a failure. -/
theorem coerceAt_ne_fail_nil (type : TypeRef (TypeId ν)) (raw : Raw) (path : Path) :
    coerceAt g ctx hops defaults type raw path ≠ .ok (.fail []) := by
  induction hops, defaults, type, raw using coercion_induction g ctx with
  | reference hops defaults type name ih =>
    rw [coerceAt_variable]
    cases hr : ctx.reading g name type path with
    | error failure => simp
    | ok stand =>
      obtain rfl := Context.reading_eq_ok g hr
      cases hops with
      | zero => simp
      | succ h => exact ih h rfl
  | absent hops defaults type =>
    rw [coerceAt_absent, missing]
    split <;> simp
  | null hops defaults type raw h =>
    rw [coerceAt_null _ _ _ _ h, nullValue]
    split <;> simp
  | required hops defaults inner raw hp ih =>
    rw [coerceAt_required _ _ _ _ hp]
    exact ih
  | list hops defaults item raw hp ih =>
    rw [coerceAt_list _ _ _ _ hp]
    split
    · exact refuse_ne_fail_nil _ _
    · rcases coerceItems g ctx hops defaults item _ path with e | outcomes
      · simp [Except.map]
      · simpa [Except.map] using gatherItems_ne_fail_nil outcomes
  | scalar hops defaults id s raw hp hs =>
    rw [coerceAt_scalar _ _ _ _ hp hs]
    exact coerceScalar_ne_fail_nil s raw path
  | enum hops defaults id e raw hp he =>
    rw [coerceAt_enum _ _ _ _ hp he]
    exact coerceEnum_ne_fail_nil e raw path
  | input hops defaults id o raw hp ho ih ihd =>
    rw [coerceAt_input _ _ _ _ hp ho]
    split
    · rcases coerceFields g ctx hops defaults raw o.fields.entries path with e | outcomes
      · simp [Except.map]
      · simpa [Except.map] using Outcome.map_ne_fail_nil (gatherMembers_ne_fail_nil outcomes) _
    · exact refuse_ne_fail_nil _ _

end TypedQuery.Coercion
