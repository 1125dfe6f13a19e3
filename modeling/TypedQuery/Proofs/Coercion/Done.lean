import TypedQuery.Proofs.Coercion.Induction

/-!
# When a coercion is done

One equivalence for each kind of position, read from the result to the parts.

* `coerceScalar_eq_done_iff`, `coerceEnum_eq_done_iff`: leaves;
* `coerceAt_list_eq_done_iff`, `coerceAt_input_eq_done_iff`: lists and objects, part by part;
* `coerceAt_variable_eq_done_iff`: references;
* `leavesDefault_of_done_none`: only where a default may stand in is a position left absent.
-/

namespace TypedQuery.Coercion

variable {ν : Type} {g : TypeGraph ν} {ctx : Context ν} {hops defaults : Nat}

/-! ## Leaves -/

theorem missing_eq_done_iff {type : TypeRef (TypeId ν)} {path : Path} {v : Option Value} :
    missing g type path = .done v ↔ type.isRequired = false ∧ v = none := by
  unfold missing
  cases type.isRequired <;> simp [eq_comm]

theorem nullValue_eq_done_iff {type : TypeRef (TypeId ν)} {path : Path} {v : Option Value} :
    nullValue g type path = .done v ↔ type.isRequired = false ∧ v = some .null := by
  unfold nullValue
  cases type.isRequired <;> simp [eq_comm]

theorem judge_eq_done_iff {s : Scalar} {raw : Raw} {path : Path} {v : Option Value} :
    judge s raw path = .ok (.done v) ↔ ∃ w, s.parse raw = .accepted w ∧ v = some w := by
  unfold judge
  cases hs : s.parse raw with
  | accepted w => simp [eq_comm]
  | rejected reason => simpa using refuse_ne_done raw _ v
  | thrown t =>
    dsimp only
    cases t.text? with
    | none => simp
    | some reason => simpa using refuse_ne_done raw _ v

/-- A scalar is done if nothing fails in its literal and it accepts what that stands for. -/
theorem coerceScalar_eq_done_iff {s : Scalar} {raw : Raw} {path : Path} {v : Option Value} :
    coerceScalar g ctx s raw path = .ok (.done v) ↔
      ∃ input w, ctx.inline g path raw = .ok (input, []) ∧ s.parse input = .accepted w ∧
        v = some w := by
  unfold coerceScalar
  rcases ctx.inline g path raw with e | ⟨input, failures⟩
  · simp [bind, Except.bind]
  · cases failures with
    | nil => simp [bind, Except.bind, judge_eq_done_iff]
    | cons f fs => simp [bind, Except.bind, pure, Except.pure]

theorem coerceEnum_eq_done_iff {e : EnumType} {raw : Raw} {path : Path} {v : Option Value} :
    coerceEnum e raw path = .ok (.done v) ↔
      ∃ w, (symbol? raw).bind e.valueOf? = some w ∧ v = some w := by
  unfold coerceEnum
  cases (symbol? raw).bind e.valueOf? with
  | none => simpa using refuse_ne_done raw _ v
  | some w => simp [eq_comm]

/-! ## Lists -/

theorem coerceItems_eq_ok_iff {item : TypeRef (TypeId ν)} {items : List Raw} {path : Path}
    {outcomes : List (Outcome (Option Value))} :
    coerceItems g ctx hops defaults item items path = .ok outcomes ↔
      List.Forall₂ (fun p o => coerceAt g ctx hops defaults item p.1 (path ++ [.index p.2]) = .ok o)
        items.zipIdx outcomes :=
  mapM_eq_ok_iff

theorem ne_fail_nil_of_coerceItems {item : TypeRef (TypeId ν)} {items : List Raw} {path : Path}
    {outcomes : List (Outcome (Option Value))}
    (h : coerceItems g ctx hops defaults item items path = .ok outcomes) :
    ∀ o ∈ outcomes, o ≠ .fail [] :=
  ne_fail_nil_of_forall₂ (coerceItems_eq_ok_iff.mp h) fun _ => coerceAt_ne_fail_nil _ _ _

/-- A list is done if its items are; the result has one item for each. -/
theorem coerceAt_list_eq_done_iff {raw : Raw} (hp : isPresent raw = true)
    {item : TypeRef (TypeId ν)} {path : Path} {v : Option Value} :
    coerceAt g ctx hops defaults (.list item) raw path = .ok (.done v) ↔
      ∃ items values, raw.items? = some items ∧
        List.Forall₂ (fun p w =>
            coerceAt g ctx hops defaults item p.1 (path ++ [.index p.2]) = .ok (.done w))
          items.zipIdx values ∧
        v = some (.list (values.map fun w => w.getD .null)) := by
  rw [coerceAt_list _ _ _ _ hp]
  cases hitems : raw.items? with
  | none => simpa using refuse_ne_done raw _ v
  | some items =>
    simp only [map_eq_ok_iff]
    constructor
    · rintro ⟨outcomes, hc, h⟩
      obtain ⟨values, rfl, hv⟩ := (gatherItems_eq_done_iff (ne_fail_nil_of_coerceItems hc)).mp h
      rw [coerceItems_eq_ok_iff, List.forall₂_map_right_iff] at hc
      exact ⟨items, values, rfl, hc, hv⟩
    · rintro ⟨_, values, hi, hf, rfl⟩
      obtain rfl := Option.some.inj hi
      have hc : coerceItems g ctx hops defaults item items path = .ok (values.map .done) :=
        coerceItems_eq_ok_iff.mpr (List.forall₂_map_right_iff.mpr hf)
      have hne := ne_fail_nil_of_coerceItems hc
      exact ⟨_, hc, (gatherItems_eq_done_iff hne).mpr ⟨values, rfl, rfl⟩⟩

/-! ## Objects -/

theorem coerceField_ne_fail_nil {raw : Raw} {path : Path} {name : String} {position : Position ν} :
    coerceField g ctx hops defaults raw path name position ≠ .ok (.fail []) := by
  rcases @coerceField_cases ν g ctx hops defaults raw path name position with
    ⟨_, h⟩ | ⟨v, _, ⟨_, h⟩ | ⟨d, _, h⟩⟩
  · rw [h]; exact coerceAt_ne_fail_nil _ _ _
  · rw [h]; simp
  · rw [h]; exact coerceAt_ne_fail_nil _ _ _

/-- An input object is done if its fields are; the result has the fields that are present. -/
theorem coerceAt_input_eq_done_iff {raw : Raw} (hp : isPresent raw = true) {id : TypeId ν}
    {o : InputObject ν} (ho : g.describe id = .input o) {path : Path} {v : Option Value} :
    coerceAt g ctx hops defaults (.named id) raw path = .ok (.done v) ↔
      ∃ values : List (String × Option Value), raw.isObject = true ∧
        List.Forall₂ (fun f w => f.1 = w.1 ∧
            coerceField g ctx hops defaults raw path f.1 f.2 = .ok (.done w.2))
          o.fields.entries values ∧
        v = some (.record (presentMembers values)) := by
  rw [coerceAt_input _ _ _ _ hp ho]
  cases hobject : raw.isObject with
  | false => simpa using refuse_ne_done raw _ v
  | true =>
    simp only [if_true, true_and, map_eq_ok_iff, Outcome.map_eq_done_iff]
    constructor
    · rintro ⟨outcomes, hc, members, hm, rfl⟩
      obtain ⟨values, hf, rfl⟩ := (mapM_gatherMembers_eq_done_iff
        fun _ _ => coerceField_ne_fail_nil).mp ⟨outcomes, hc, hm⟩
      exact ⟨values, hf, rfl⟩
    · rintro ⟨values, hf, rfl⟩
      obtain ⟨outcomes, hc, hm⟩ := (mapM_gatherMembers_eq_done_iff
        fun _ _ => coerceField_ne_fail_nil).mpr ⟨values, hf, rfl⟩
      exact ⟨outcomes, hc, _, hm, rfl⟩

/-! ## References -/

theorem coerceAt_variable_eq_done_iff {type : TypeRef (TypeId ν)} {name : String} {path : Path}
    {v : Option Value} :
    coerceAt g ctx hops defaults type (.variable name) path = .ok (.done v) ↔
      ∃ h, hops = h + 1 ∧ ctx.reading g name type path = .ok (ctx.standFor name) ∧
        coerceAt g ctx h defaults type (ctx.standFor name) path = .ok (.done v) := by
  rw [coerceAt_variable]
  cases hr : ctx.reading g name type path with
  | error failure => simp
  | ok stand =>
    obtain rfl := Context.reading_eq_ok g hr
    cases hops <;> simp

/-! ## Absence -/

/-- A present value is not coerced to nothing. -/
theorem exists_of_isPresent {type : TypeRef (TypeId ν)} {raw : Raw} (hp : isPresent raw = true)
    {path : Path} {v : Option Value}
    (h : coerceAt g ctx hops defaults type raw path = .ok (.done v)) : ∃ w, v = some w := by
  induction type with
  | required inner ih =>
    rw [coerceAt_required _ _ _ _ hp] at h
    exact ih h
  | list item =>
    obtain ⟨_, _, _, _, rfl⟩ := (coerceAt_list_eq_done_iff hp).mp h
    exact ⟨_, rfl⟩
  | named id =>
    cases hd : g.describe id with
    | scalar s =>
      rw [coerceAt_scalar _ _ _ _ hp hd] at h
      obtain ⟨_, w, _, _, rfl⟩ := coerceScalar_eq_done_iff.mp h
      exact ⟨w, rfl⟩
    | enum e =>
      rw [coerceAt_enum _ _ _ _ hp hd] at h
      obtain ⟨w, _, rfl⟩ := coerceEnum_eq_done_iff.mp h
      exact ⟨w, rfl⟩
    | input o =>
      obtain ⟨_, _, _, rfl⟩ := (coerceAt_input_eq_done_iff hp hd).mp h
      exact ⟨_, rfl⟩

/-- A constant value is not coerced to nothing. -/
theorem exists_of_isConstant {type : TypeRef (TypeId ν)} {raw : Raw} (hc : raw.IsConstant)
    {path : Path} {v : Option Value}
    (h : coerceAt g ctx hops defaults type raw path = .ok (.done v)) : ∃ w, v = some w := by
  cases hn : raw.isNull with
  | true =>
    rw [coerceAt_null _ _ _ _ hn, Except.ok.injEq, nullValue_eq_done_iff] at h
    exact ⟨_, h.2⟩
  | false =>
    exact exists_of_isPresent
      ((isPresent_iff raw).mpr ⟨hc.isSettled.ne_variable, hc.isAbsent_eq, hn⟩) h

/-- Only where a default may stand in is a position left absent. -/
theorem leavesDefault_of_done_none (hc : ctx.HasConstantDefaults) {type : TypeRef (TypeId ν)}
    {raw : Raw} {path : Path}
    (h : coerceAt g ctx hops defaults type raw path = .ok (.done none)) :
    ctx.leavesDefault raw = true := by
  match raw with
  | .variable name =>
    obtain ⟨hops, rfl, hr, h⟩ := coerceAt_variable_eq_done_iff.mp h
    rcases Context.standFor_absent_or_constant hc name with ha | hconst
    · exact Context.leavesDefault_of_reading g hc hr (by rw [ha]; rfl)
    · obtain ⟨w, hw⟩ := exists_of_isConstant hconst h
      cases hw
  | .absent => rfl
  | .null =>
    rw [coerceAt_null _ _ _ _ rfl, Except.ok.injEq, nullValue_eq_done_iff] at h
    cases h.2
  | .external v =>
    obtain ⟨w, hw⟩ := exists_of_isConstant (Raw.isConstant_external v) h
    cases hw
  | .int _ | .float _ | .string _ | .boolean _ | .enum _ | .list _ | .object _ =>
    obtain ⟨w, hw⟩ := exists_of_isPresent rfl h
    cases hw

end TypedQuery.Coercion
