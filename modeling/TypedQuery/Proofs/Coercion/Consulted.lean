import TypedQuery.Coercion.Consulted
import TypedQuery.Proofs.Coercion.Arguments
import TypedQuery.Proofs.Coercion.Budget

/-!
# What a coercion consults

A coercion asks the input objects that it consults for their fields, and no others. So types that
differ only in the fields of other input objects make no difference to it, and may leave those
fields for later.

* `consultedAt_variable` and so on: what is consulted, one equation for each kind of position;
* `TypeGraph.MatchesOn`: type graphs that differ only in the fields of input objects outside a list;
* `coerceAt_matchesOn`: they coerce alike what consults only input objects of the list;
* `coercion_consults`: so they do with budgets of their own, for values, positions and arguments.
-/

namespace TypedQuery

variable {ν : Type}

/-- Type graphs that differ only in the fields of input objects that were not asked. -/
structure TypeGraph.MatchesOn (g g' : TypeGraph ν) (asked : List (TypeId ν)) : Prop where
  scalar : ∀ id s, g.describe id = .scalar s → g'.describe id = .scalar s
  enum : ∀ id e, g.describe id = .enum e → g'.describe id = .enum e
  input : ∀ id o, g.describe id = .input o →
    ∃ o', g'.describe id = .input o' ∧ o'.name = o.name ∧ (id ∈ asked → o' = o)

namespace TypeGraph.MatchesOn

variable {g g' : TypeGraph ν} {asked asked' : List (TypeId ν)}

theorem mono (h : g.MatchesOn g' asked) (hasked : asked' ⊆ asked) : g.MatchesOn g' asked' where
  scalar := h.scalar
  enum := h.enum
  input id o ho := by
    obtain ⟨o', ho', hname, hsame⟩ := h.input id o ho
    exact ⟨o', ho', hname, fun hid => hsame (hasked hid)⟩

theorem nameOf (h : g.MatchesOn g' asked) (id : TypeId ν) : g'.nameOf id = g.nameOf id := by
  unfold TypeGraph.nameOf
  cases hd : g.describe id with
  | scalar s => rw [h.scalar id s hd]
  | enum e => rw [h.enum id e hd]
  | input o =>
    obtain ⟨o', ho', hname, -⟩ := h.input id o hd
    rw [ho']
    exact hname

theorem print (h : g.MatchesOn g' asked) (type : TypeRef (TypeId ν)) :
    g'.print type = g.print type := by
  rw [TypeGraph.print, TypeGraph.print, funext h.nameOf]

theorem reading (h : g.MatchesOn g' asked) (ctx : Context ν) (name : String)
    (type : TypeRef (TypeId ν)) (path : Path) :
    ctx.reading g' name type path = ctx.reading g name type path := by
  simp only [Context.reading, h.print]

theorem inlineVariable (h : g.MatchesOn g' asked) (ctx : Context ν) (path : Path) (hops : Nat) :
    ctx.inlineVariable g' path hops = ctx.inlineVariable g path hops := by
  induction hops with
  | zero => rfl
  | succ hops ih =>
    funext name
    simp only [Context.inlineVariable, h.print, ih]

theorem coerceScalar (h : g.MatchesOn g' asked) (ctx : Context ν) (s : Scalar) (raw : Raw)
    (path : Path) :
    Coercion.coerceScalar g' ctx s raw path = Coercion.coerceScalar g ctx s raw path := by
  unfold Coercion.coerceScalar Context.inline
  rw [h.inlineVariable]

end TypeGraph.MatchesOn

namespace Coercion

variable {g g' : TypeGraph ν} {ctx : Context ν} {hops defaults : Nat}

/-! ## What is consulted -/

theorem consultedAt_variable {type : TypeRef (TypeId ν)} {name : String} {path : Path} {stand : Raw}
    (h : ctx.reading g name type path = .ok stand) :
    consultedAt g ctx (hops + 1) defaults type (.variable name) =
      consultedAt g ctx hops defaults type stand := by
  have hstart : ctx.reading g name type [] = .ok stand := by
    rw [← List.append_nil path, Context.reading_path] at h
    cases hr : ctx.reading g name type [] with
    | error failure => rw [hr] at h; cases h
    | ok stand' => rwa [hr] at h
  simp [consultedAt, hstart]

theorem consultedAt_required {raw : Raw} (h : isPresent raw = true) (inner : TypeRef (TypeId ν)) :
    consultedAt g ctx hops defaults (.required inner) raw =
      consultedAt g ctx hops defaults inner raw := by
  obtain ⟨hv, ha, hn⟩ := (isPresent_iff raw).mp h
  rw [consultedAt]
  · simp [ha, hn]
  · exact hv

theorem consultedAt_list {raw : Raw} (h : isPresent raw = true) (item : TypeRef (TypeId ν))
    {items : List Raw} (hitems : raw.items? = some items) :
    consultedAt g ctx hops defaults (.list item) raw =
      items.flatMap (consultedAt g ctx hops defaults item) := by
  obtain ⟨hv, ha, hn⟩ := (isPresent_iff raw).mp h
  rw [consultedAt]
  · simp only [ha, hn, Bool.or_self, if_false, Bool.false_eq_true]
    split
    · next hnone => rw [hitems] at hnone; cases hnone
    · next items' hsome =>
      obtain rfl := Option.some.inj (hitems.symm.trans hsome)
      conv => rhs; rw [← List.attach_map_subtype_val items, List.flatMap_map]
  · exact hv

/-- What a field consults: what the object holds does, or the default. -/
def consultedByField (g : TypeGraph ν) (ctx : Context ν) (hops defaults : Nat) (raw : Raw)
    (f : String × Position ν) : List (TypeId ν) :=
  match fallbackFor? ctx f.2 (raw.field f.1) with
  | none => consultedAt g ctx hops defaults f.2.type (raw.field f.1)
  | some value =>
    match defaults with
    | 0 => []
    | defaults + 1 => consultedAt g ctx hops defaults f.2.type value

theorem consultedAt_input {raw : Raw} (h : isPresent raw = true) (hobject : raw.isObject = true)
    {id : TypeId ν} {o : InputObject ν} (ho : g.describe id = .input o) :
    consultedAt g ctx hops defaults (.named id) raw =
      id :: o.fields.entries.flatMap (consultedByField g ctx hops defaults raw) := by
  obtain ⟨hv, ha, hn⟩ := (isPresent_iff raw).mp h
  rw [consultedAt]
  · simp only [ha, hn, Bool.or_self, if_false, Bool.false_eq_true, ho, hobject, dif_pos]
    rfl
  · exact hv

/-! ## Only what is consulted is asked -/

/-- Graphs that match on what is consulted coerce alike. -/
theorem coerceAt_matchesOn (type : TypeRef (TypeId ν)) (raw : Raw) (path : Path)
    (h : g.MatchesOn g' (consultedAt g ctx hops defaults type raw)) :
    coerceAt g' ctx hops defaults type raw path = coerceAt g ctx hops defaults type raw path := by
  induction hops, defaults, type, raw using coercion_induction g ctx generalizing path with
  | reference hops defaults type name ih =>
    rw [coerceAt_variable, coerceAt_variable, h.reading]
    cases hr : ctx.reading g name type path with
    | error failure => rfl
    | ok stand =>
      cases hops with
      | zero => rfl
      | succ hops =>
        rw [consultedAt_variable hr] at h
        obtain rfl := Context.reading_eq_ok g hr
        exact ih hops rfl path h
  | absent hops defaults type => rw [coerceAt_absent, coerceAt_absent, missing, missing, h.print]
  | null hops defaults type raw hn =>
    rw [coerceAt_null _ _ _ _ hn, coerceAt_null _ _ _ _ hn, nullValue, nullValue, h.print]
  | required hops defaults inner raw hp ih =>
    rw [consultedAt_required hp] at h
    rw [coerceAt_required _ _ _ _ hp, coerceAt_required _ _ _ _ hp]
    exact ih path h
  | list hops defaults item raw hp ih =>
    rw [coerceAt_list _ _ _ _ hp, coerceAt_list _ _ _ _ hp, h.print]
    cases hitems : raw.items? with
    | none => rfl
    | some items =>
      rw [consultedAt_list hp item hitems] at h
      refine congrArg (Except.map gatherItems) (mapM_congr fun p hpi => ?_)
      have hheld := List.fst_mem_of_mem_zipIdx hpi
      exact ih items hitems p.1 hheld _ (h.mono fun _ hid => List.mem_flatMap.mpr ⟨_, hheld, hid⟩)
  | scalar hops defaults id s raw hp hd =>
    rw [coerceAt_scalar _ _ _ _ hp hd, coerceAt_scalar _ _ _ _ hp (h.scalar id s hd),
      h.coerceScalar]
  | enum hops defaults id e raw hp hd =>
    rw [coerceAt_enum _ _ _ _ hp hd, coerceAt_enum _ _ _ _ hp (h.enum id e hd)]
  | input hops defaults id o raw hp ho ih ihd =>
    obtain ⟨o', ho', hname, hsame⟩ := h.input id o ho
    rw [coerceAt_input _ _ _ _ hp ho, coerceAt_input _ _ _ _ hp ho']
    split
    · next hobject =>
      -- an object that is asked for its fields is among those that are consulted
      rw [consultedAt_input hp hobject ho] at h
      obtain rfl := hsame (by rw [consultedAt_input hp hobject ho]; exact List.mem_cons_self ..)
      refine congrArg _ (mapM_congr fun f hf => congrArg _ ?_)
      have hfield : g.MatchesOn g' (consultedByField g ctx hops defaults raw f) :=
        h.mono fun _ hid => List.mem_cons_of_mem _ (List.mem_flatMap.mpr ⟨f, hf, hid⟩)
      rw [consultedByField] at hfield
      rcases fallbackFor?_cases ctx f.2 (raw.field f.1) with ⟨hn, _⟩ | ⟨v, _, hv, hn⟩
      · rw [coerceField, coerceField, hn]
        rw [hn] at hfield
        exact ih hobject f hf _ hfield
      · rw [coerceField, coerceField, hn]
        rw [hn] at hfield
        cases defaults with
        | zero => rfl
        | succ d => exact ihd f hf v hv d rfl _ hfield
    · rw [hname]

/-- A coercion that ends within a budget ends alike within all larger ones. -/
theorem coerceAt_add_defaults (type : TypeRef (TypeId ν)) (raw : Raw) (path : Path)
    (h : coerceAt g ctx hops defaults type raw path ≠ .error .endless) (extra : Nat) :
    coerceAt g ctx hops (defaults + extra) type raw path =
      coerceAt g ctx hops defaults type raw path := by
  induction extra with
  | zero => rfl
  | succ extra ih => exact (coerceAt_succ_defaults _ _ _ (ih ▸ h)).trans ih

theorem coerce_matchesOn (hs : ctx.HasSettledDefaults) (type : TypeRef (TypeId ν)) (raw : Raw)
    (path : Path) (h : g.MatchesOn g' (consulted g ctx type raw))
    (hend : coerce g ctx type raw path ≠ .error .endless) :
    coerce g' ctx type raw path = coerce g ctx type raw path := by
  have hbudget := coerceAt_matchesOn type raw path h
  calc coerce g' ctx type raw path
    _ = coerceAt g' ctx (hopBudget g ctx type) (defaultBudget g + defaultBudget g') type raw path :=
      (coerceAt_eq_coerce_of_le hs _ (Nat.le_add_left ..) type raw path).symm
    _ = coerceAt g' ctx (hopBudget g ctx type) (defaultBudget g) type raw path :=
      coerceAt_add_defaults _ _ _ (fun he => hend (hbudget.symm.trans he)) _
    _ = coerce g ctx type raw path := hbudget

/-- **Only what is consulted is asked.** A coercion that ends is the same in all type graphs that
differ only in the fields of input objects that it does not consult; so are the coercion of a
position and of the arguments of a field. -/
theorem coercion_consults (hs : ctx.HasSettledDefaults) :
    (∀ type raw path, g.MatchesOn g' (consulted g ctx type raw) →
      coerce g ctx type raw path ≠ .error .endless →
      coerce g' ctx type raw path = coerce g ctx type raw path) ∧
    (∀ position raw path, g.MatchesOn g' (consultedAtPosition g ctx position raw) →
      coercePosition g ctx position raw path ≠ .error .endless →
      coercePosition g' ctx position raw path = coercePosition g ctx position raw path) ∧
    ∀ declared supplied enforce,
      g.MatchesOn g' (consultedByArguments g ctx declared supplied enforce) →
      coerceArguments g ctx declared supplied enforce ≠ .error .endless →
      coerceArguments g' ctx declared supplied enforce =
        coerceArguments g ctx declared supplied enforce := by
  refine ⟨coerce_matchesOn hs, fun _ _ _ h => coerce_matchesOn hs _ _ _ h,
    fun declared supplied enforce h hend => ?_⟩
  rw [coerceArguments_eq] at hend
  rw [coerceArguments_eq, coerceArguments_eq]
  refine congrArg _ (mapM_congr_of_ne (fun a ha hne => ?_)
    fun he => hend (map_eq_error_iff.mpr he))
  have hargument : g.MatchesOn g' (consultedAtPosition g ctx a.2.1 a.2.2) :=
    h.mono fun _ hid => List.mem_flatMap.mpr ⟨a, ha, hid⟩
  exact congrArg _ (coerce_matchesOn hs _ _ _ hargument fun he => hne (map_eq_error_iff.mpr he))

end Coercion

end TypedQuery
