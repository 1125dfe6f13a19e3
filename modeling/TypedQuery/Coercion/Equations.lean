import TypedQuery.Coercion.Basic

/-!
# Equations of coercion

The recursion of coercion, one equation for each kind of position. A raw value is *present* if it
is neither a reference, nor nothing, nor null; only present values are read through their type.

* `coerceAt_variable`, `coerceAt_absent`, `coerceAt_null`: positions without a present value;
* `coerceAt_required`, `coerceAt_list`, `coerceAt_scalar`, `coerceAt_enum`, `coerceAt_input`:
  present values, by type.
-/

namespace TypedQuery.Coercion

variable {ν : Type} (g : TypeGraph ν) (ctx : Context ν) (hops defaults : Nat)

/-- Whether a raw value is read through its type. -/
def isPresent : Raw → Bool
  | .variable _ => false
  | raw => !(raw.isAbsent || raw.isNull)

theorem isPresent_iff (raw : Raw) :
    isPresent raw = true ↔
      (∀ name, raw ≠ .variable name) ∧ raw.isAbsent = false ∧ raw.isNull = false := by
  cases raw <;> simp [isPresent]

/-! ## Positions without a present value -/

/-- A reference is coerced as what it stands for, at the cost of one hop. -/
theorem coerceAt_variable (type : TypeRef (TypeId ν)) (name : String) (path : Path) :
    coerceAt g ctx hops defaults type (.variable name) path =
      match ctx.reading g name type path with
      | .error failure => .ok (.fail [failure])
      | .ok stand =>
        match hops with
        | 0 => .error .endless
        | hops + 1 => coerceAt g ctx hops defaults type stand path := by
  cases h : ctx.reading g name type path with
  | error failure => simp [coerceAt, h]
  | ok stand => cases hops <;> simp [coerceAt, h]

theorem coerceAt_absent (type : TypeRef (TypeId ν)) (path : Path) :
    coerceAt g ctx hops defaults type .absent path = .ok (missing g type path) := by
  cases type with
  | _ =>
    rw [coerceAt]
    · rfl
    · intro name h
      cases h

theorem coerceAt_null {raw : Raw} (h : raw.isNull = true) (type : TypeRef (TypeId ν))
    (path : Path) : coerceAt g ctx hops defaults type raw path = .ok (nullValue g type path) := by
  have ha : raw.isAbsent = false := by
    cases raw <;> first | rfl | cases h
  cases type with
  | _ =>
    rw [coerceAt]
    · simp [ha, h]
    · intro name hn
      subst hn
      cases h

/-! ## Present values -/

theorem mapM_attach_zipIdx (items : List Raw) (f : Raw → Nat → Coerced) :
    (items.attach.zipIdx.mapM fun p => f p.1.1 p.2) = items.zipIdx.mapM fun p => f p.1 p.2 := by
  have h : items.zipIdx = items.attach.zipIdx.map fun p => (p.1.1, p.2) := by
    conv => lhs; rw [← List.attach_map_subtype_val items, List.zipIdx_map]
    rfl
  rw [h, List.mapM_map]
  rfl

/-- The items of a list are coerced one by one, each at its index. -/
def coerceItems (item : TypeRef (TypeId ν)) (items : List Raw) (path : Path) :
    Except Fault (List (Outcome (Option Value))) :=
  items.zipIdx.mapM fun p => coerceAt g ctx hops defaults item p.1 (path ++ [.index p.2])

theorem coerceAt_required {raw : Raw} (h : isPresent raw = true) (inner : TypeRef (TypeId ν))
    (path : Path) :
    coerceAt g ctx hops defaults (.required inner) raw path =
      coerceAt g ctx hops defaults inner raw path := by
  obtain ⟨hv, ha, hn⟩ := (isPresent_iff raw).1 h
  rw [coerceAt]
  · simp [ha, hn]
  · exact hv

theorem coerceAt_list {raw : Raw} (h : isPresent raw = true) (item : TypeRef (TypeId ν))
    (path : Path) :
    coerceAt g ctx hops defaults (.list item) raw path =
      match raw.items? with
      | none => refuse raw (.shapeMismatch path "a list" (g.print (.list item)))
      | some items => (coerceItems g ctx hops defaults item items path).map gatherItems := by
  obtain ⟨hv, ha, hn⟩ := (isPresent_iff raw).1 h
  rw [coerceAt]
  · simp only [ha, hn, if_false, Bool.false_eq_true]
    split
    · next hitems => simp [hitems]
    · next items hitems =>
      have hm := mapM_attach_zipIdx items fun (held : Raw) (i : Nat) =>
        coerceAt g ctx hops defaults item held (path ++ [Segment.index (i : Int)])
      simp only [hitems, coerceItems]
      rw [← hm]
      cases items.attach.zipIdx.mapM fun p =>
        coerceAt g ctx hops defaults item p.1.1 (path ++ [Segment.index (p.2 : Int)]) <;> rfl
  · exact hv

theorem coerceAt_scalar {raw : Raw} (h : isPresent raw = true) {id : TypeId ν} {s : Scalar}
    (hs : g.describe id = .scalar s) (path : Path) :
    coerceAt g ctx hops defaults (.named id) raw path = coerceScalar g ctx s raw path := by
  obtain ⟨hv, ha, hn⟩ := (isPresent_iff raw).1 h
  rw [coerceAt]
  · simp [ha, hn, hs]
  · exact hv

theorem coerceAt_enum {raw : Raw} (h : isPresent raw = true) {id : TypeId ν} {e : EnumType}
    (he : g.describe id = .enum e) (path : Path) :
    coerceAt g ctx hops defaults (.named id) raw path = coerceEnum e raw path := by
  obtain ⟨hv, ha, hn⟩ := (isPresent_iff raw).1 h
  rw [coerceAt]
  · simp [ha, hn, he]
  · exact hv

/-- A field is coerced as what the object holds, or as its default at the cost of one default. -/
def coerceField (raw : Raw) (path : Path) (name : String) (position : Position ν) : Coerced :=
  match fallbackFor? ctx position (raw.field name) with
  | none => coerceAt g ctx hops defaults position.type (raw.field name) (path ++ [.field name])
  | some value =>
    match defaults with
    | 0 => .error .endless
    | defaults + 1 => coerceAt g ctx hops defaults position.type value (path ++ [.field name])

/-- The fields of an input object are coerced one by one, in the order of their declaration. -/
def coerceFields (raw : Raw) (fields : Members (Position ν)) (path : Path) :
    Except Fault (List (String × Outcome (Option Value))) :=
  fields.mapM fun f => (coerceField g ctx hops defaults raw path f.1 f.2).map (f.1, ·)

theorem coerceAt_input {raw : Raw} (h : isPresent raw = true) {id : TypeId ν} {o : InputObject ν}
    (ho : g.describe id = .input o) (path : Path) :
    coerceAt g ctx hops defaults (.named id) raw path =
      if raw.isObject then
        (coerceFields g ctx hops defaults raw o.fields.entries path).map fun outcomes =>
          (gatherMembers outcomes).map fun members => some (.record members)
      else refuse raw (.shapeMismatch path "an input object" o.name) := by
  obtain ⟨hv, ha, hn⟩ := (isPresent_iff raw).1 h
  rw [coerceAt]
  · simp only [ha, hn, if_false, Bool.false_eq_true, ho]
    split
    · next hobject =>
      change Except.bind (coerceFields g ctx hops defaults raw o.fields.entries path) _ = _
      cases coerceFields g ctx hops defaults raw o.fields.entries path <;> rfl
    · simp [*]
  · exact hv

end TypedQuery.Coercion
