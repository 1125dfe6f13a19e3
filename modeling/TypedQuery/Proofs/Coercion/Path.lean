import TypedQuery.Coercion.Equations
import TypedQuery.Proofs.Coercion.Induction
import TypedQuery.Proofs.Coercion.Relabel

/-!
# Paths of failures

Where a position stands shows only in the paths of its failures.

* `Failure.under`: a failure of a position that stands at a path;
* `coerceAt_path`: to coerce at a path is to coerce at the root, the failures put under the path;
* `prefix_of_mem_failures`: all failures of a position lie under its path.
-/

namespace TypedQuery

/-- A failure of a position that stands at a path. -/
def Failure.under (path : Path) (f : Failure) : Failure := { f with path := path ++ f.path }

namespace Context

variable {ν : Type} {ctx : Context ν}

theorem reading_path (g : TypeGraph ν) (ctx : Context ν) (name : String)
    (type : TypeRef (TypeId ν)) (p q : Path) :
    ctx.reading g name type (p ++ q) = (ctx.reading g name type q).mapError (Failure.under p) := by
  unfold reading
  dsimp only
  split
  · split <;> rfl
  · split
    · rfl
    · split <;> rfl

section Inline

variable {look look' : String → Except Fault Inlined} {φ : Failure → Failure}

mutual

/-- The failures in a literal are those of its references. -/
theorem inlineWith_map (h : ∀ name, look' name = (look name).map fun r => (r.1, r.2.map φ))
    (raw : Raw) :
    inlineWith look' raw = (inlineWith look raw).map fun r => (r.1, r.2.map φ) := by
  match raw with
  | .list items =>
    rw [inlineWith, inlineWith, inlineItems_map h items]
    cases inlineItems look items <;> rfl
  | .object fields =>
    rw [inlineWith, inlineWith, inlineFields_map h fields]
    cases inlineFields look fields <;> rfl
  | .variable name => exact h name
  | .int _ | .float _ | .string _ | .boolean _ | .enum _ | .null | .absent | .external _ => rfl

theorem inlineItems_map (h : ∀ name, look' name = (look name).map fun r => (r.1, r.2.map φ))
    (items : List Raw) :
    inlineItems look' items = (inlineItems look items).map fun r => (r.1, r.2.map φ) := by
  match items with
  | [] => rfl
  | item :: rest =>
    rw [inlineItems, inlineItems, inlineWith_map h item, inlineItems_map h rest]
    cases inlineWith look item with
    | error e => rfl
    | ok r =>
      cases inlineItems look rest with
      | error e => rfl
      | ok s => simp [Except.map, bind, Except.bind, pure, Except.pure]

theorem inlineFields_map (h : ∀ name, look' name = (look name).map fun r => (r.1, r.2.map φ))
    (fields : List (String × Raw)) :
    inlineFields look' fields = (inlineFields look fields).map fun r => (r.1, r.2.map φ) := by
  match fields with
  | [] => rfl
  | (name, held) :: rest =>
    rw [inlineFields, inlineFields, inlineWith_map h held, inlineFields_map h rest]
    cases inlineWith look held with
    | error e => rfl
    | ok r =>
      cases inlineFields look rest with
      | error e => rfl
      | ok s => simp [Except.map, bind, Except.bind, pure, Except.pure]

end

end Inline

theorem inlineVariable_path (g : TypeGraph ν) (ctx : Context ν) (p q : Path) (hops : Nat)
    (name : String) :
    inlineVariable g ctx (p ++ q) hops name =
      (inlineVariable g ctx q hops name).map fun r => (r.1, r.2.map (Failure.under p)) := by
  induction hops generalizing name with
  | zero => rfl
  | succ hops ih =>
    unfold inlineVariable
    dsimp only
    split
    · next value _ =>
      cases value.isNull with
      | true =>
        simp only [if_true, Except.map, List.map_map]
        rfl
      | false => rfl
    · split
      · next literal _ => exact inlineWith_map ih literal
      · simp only [Except.map, List.map_map]
        rfl

theorem inline_path (g : TypeGraph ν) (ctx : Context ν) (p q : Path) (raw : Raw) :
    ctx.inline g (p ++ q) raw =
      (ctx.inline g q raw).map fun r => (r.1, r.2.map (Failure.under p)) :=
  inlineWith_map (inlineVariable_path g ctx p q _) raw

end Context

namespace Coercion

variable {ν : Type} {g : TypeGraph ν} {ctx : Context ν} {hops defaults : Nat}

/-- A coercion whose failures are put under a path. -/
def Coerced.under (path : Path) (x : Coerced) : Coerced :=
  x.map (Outcome.relabel (Failure.under path))

/-! ## Leaves -/

theorem missing_path (type : TypeRef (TypeId ν)) (p q : Path) :
    missing g type (p ++ q) = (missing g type q).relabel (Failure.under p) := by
  unfold missing
  split <;> rfl

theorem nullValue_path (type : TypeRef (TypeId ν)) (p q : Path) :
    nullValue g type (p ++ q) = (nullValue g type q).relabel (Failure.under p) := by
  unfold nullValue
  split <;> rfl

theorem refuse_path (raw : Raw) {failure failure' : String → Failure} {p : Path}
    (h : ∀ written, failure' written = (failure written).under p) :
    refuse raw failure' = Coerced.under p (refuse raw failure) := by
  unfold refuse
  split
  · rw [h]
    rfl
  · rfl

theorem judge_path (s : Scalar) (raw : Raw) (p q : Path) :
    judge s raw (p ++ q) = Coerced.under p (judge s raw q) := by
  unfold judge
  split
  · rfl
  · exact refuse_path raw fun _ => rfl
  · split
    · exact refuse_path raw fun _ => rfl
    · rfl

theorem coerceScalar_path (s : Scalar) (raw : Raw) (p q : Path) :
    coerceScalar g ctx s raw (p ++ q) = Coerced.under p (coerceScalar g ctx s raw q) := by
  rw [coerceScalar, coerceScalar, Context.inline_path]
  rcases ctx.inline g q raw with e | ⟨input, failures⟩
  · rfl
  · cases failures with
    | nil => exact judge_path s input p q
    | cons f fs => rfl

theorem coerceEnum_path (e : EnumType) (raw : Raw) (p q : Path) :
    coerceEnum e raw (p ++ q) = Coerced.under p (coerceEnum e raw q) := by
  unfold coerceEnum
  split
  · rfl
  · exact refuse_path raw fun _ => rfl

/-! ## Every position -/

theorem coerceField_path {raw : Raw} {f : String × Position ν} {p : Path}
    (held : ∀ q, coerceAt g ctx hops defaults f.2.type (raw.field f.1) (p ++ q) =
      Coerced.under p (coerceAt g ctx hops defaults f.2.type (raw.field f.1) q))
    (default : ∀ v, f.2.fallback? = some v → ∀ d, defaults = d + 1 → ∀ q,
      coerceAt g ctx hops d f.2.type (.external v) (p ++ q) =
        Coerced.under p (coerceAt g ctx hops d f.2.type (.external v) q)) (q : Path) :
    coerceField g ctx hops defaults raw (p ++ q) f.1 f.2 =
      Coerced.under p (coerceField g ctx hops defaults raw q f.1 f.2) := by
  unfold coerceField
  rcases fallbackFor?_cases ctx f.2 (raw.field f.1) with ⟨hn, _⟩ | ⟨v, _, hv, hn⟩
  · rw [hn, List.append_assoc]
    exact held _
  · rw [hn]
    cases defaults with
    | zero => rfl
    | succ d =>
      dsimp only
      rw [List.append_assoc]
      exact default v hv d rfl _

/-- **Coercion is equivariant in its path.** Where a position stands shows only in the paths of its
failures. -/
theorem coerceAt_path (type : TypeRef (TypeId ν)) (raw : Raw) (p q : Path) :
    coerceAt g ctx hops defaults type raw (p ++ q) =
      Coerced.under p (coerceAt g ctx hops defaults type raw q) := by
  induction hops, defaults, type, raw using coercion_induction g ctx generalizing q with
  | reference hops defaults type name ih =>
    rw [coerceAt_variable, coerceAt_variable, Context.reading_path]
    cases hr : ctx.reading g name type q with
    | error failure => rfl
    | ok stand =>
      obtain rfl := Context.reading_eq_ok g hr
      cases hops with
      | zero => rfl
      | succ h => exact ih h rfl q
  | absent hops defaults type =>
    rw [coerceAt_absent, coerceAt_absent, missing_path]
    rfl
  | null hops defaults type raw hn =>
    rw [coerceAt_null _ _ _ _ hn, coerceAt_null _ _ _ _ hn, nullValue_path]
    rfl
  | required hops defaults inner raw hp ih =>
    rw [coerceAt_required _ _ _ _ hp, coerceAt_required _ _ _ _ hp]
    exact ih q
  | list hops defaults item raw hp ih =>
    rw [coerceAt_list _ _ _ _ hp, coerceAt_list _ _ _ _ hp]
    cases hitems : raw.items? with
    | none => exact refuse_path raw fun _ => rfl
    | some items =>
      have hstep : coerceItems g ctx hops defaults item items (p ++ q) =
          (coerceItems g ctx hops defaults item items q).map
            (List.map (Outcome.relabel (Failure.under p))) := by
        unfold coerceItems
        rw [map_mapM_eq]
        refine mapM_congr fun x hx => ?_
        rw [List.append_assoc]
        exact ih items hitems x.1 (List.fst_mem_of_mem_zipIdx hx) _
      exact (congrArg _ hstep).trans (map_gatherItems_relabel _ _).symm
  | scalar hops defaults id s raw hp hs =>
    rw [coerceAt_scalar _ _ _ _ hp hs, coerceAt_scalar _ _ _ _ hp hs]
    exact coerceScalar_path s raw p q
  | enum hops defaults id e raw hp he =>
    rw [coerceAt_enum _ _ _ _ hp he, coerceAt_enum _ _ _ _ hp he]
    exact coerceEnum_path e raw p q
  | input hops defaults id o raw hp ho ih ihd =>
    rw [coerceAt_input _ _ _ _ hp ho, coerceAt_input _ _ _ _ hp ho]
    cases hobject : raw.isObject with
    | false => exact refuse_path raw fun _ => rfl
    | true =>
      have hstep : coerceFields g ctx hops defaults raw o.fields.entries (p ++ q) =
          (coerceFields g ctx hops defaults raw o.fields.entries q).map
            (List.map fun o => (o.1, o.2.relabel (Failure.under p))) := by
        unfold coerceFields
        rw [map_mapM_eq]
        refine mapM_congr fun f hf => ?_
        rw [coerceField_path (ih hobject f hf) (ihd f hf)]
        cases coerceField g ctx hops defaults raw q f.1 f.2 <;> rfl
      rw [if_pos rfl, if_pos rfl]
      exact (congrArg _ hstep).trans (map_gatherMembers_relabel _ _ _).symm

/-- To coerce at a path is to coerce at the root and to put the failures under the path. -/
theorem coerceAt_under (type : TypeRef (TypeId ν)) (raw : Raw) (path : Path) :
    coerceAt g ctx hops defaults type raw path =
      Coerced.under path (coerceAt g ctx hops defaults type raw []) := by
  rw [← coerceAt_path, List.append_nil]

/-- All failures of a position lie under its path. -/
theorem prefix_of_mem_failures {type : TypeRef (TypeId ν)} {raw : Raw} {path : Path}
    {o : Outcome (Option Value)} (h : coerceAt g ctx hops defaults type raw path = .ok o)
    {f : Failure} (hf : f ∈ o.failures) : path <+: f.path := by
  rw [coerceAt_under] at h
  obtain ⟨o', _, rfl⟩ := map_eq_ok_iff.mp h
  rw [Outcome.failures_relabel] at hf
  obtain ⟨f', _, rfl⟩ := List.mem_map.mp hf
  exact List.prefix_append path f'.path

end Coercion

end TypedQuery
