import TypedQuery.Coercion.Arguments

/-!
# Consulted input objects

An input object may compute its fields when they are first asked for. Coercion asks for them only
when an object stands where the type is expected; `consulted` lists the input objects that a
coercion asks. The recursion is that of `coerceAt`, and `coercion_consults` in
`TypedQuery.Proofs.Coercion.Consulted` relates the two: a coercion does not depend on the fields of
an input object that is not in the list.
-/

namespace TypedQuery.Coercion

variable {ν : Type}

/-- The input objects asked for their fields, with the budgets of `coerceAt`. -/
def consultedAt (g : TypeGraph ν) (ctx : Context ν) (hops defaults : Nat)
    (type : TypeRef (TypeId ν)) (raw : Raw) : List (TypeId ν) :=
  match raw with
  | .variable name =>
    match ctx.reading g name type [] with
    | .error _ => []
    | .ok stand =>
      match hops with
      | 0 => []
      | hops + 1 => consultedAt g ctx hops defaults type stand
  | raw =>
    if raw.isAbsent || raw.isNull then []
    else
      match type with
      | .required inner => consultedAt g ctx hops defaults inner raw
      | .list item =>
        match _hitems : raw.items? with
        | none => []
        | some items =>
          items.attach.flatMap fun ⟨held, _⟩ => consultedAt g ctx hops defaults item held
      | .named id =>
        match g.describe id with
        | .input o =>
          if _hobject : raw.isObject = true then
            id :: o.fields.entries.flatMap fun (name, position) =>
              match fallbackFor? ctx position (raw.field name) with
              | none => consultedAt g ctx hops defaults position.type (raw.field name)
              | some value =>
                match defaults with
                | 0 => []
                | defaults + 1 => consultedAt g ctx hops defaults position.type value
          else []
        | _ => []
termination_by (hops, defaults, sizeOf raw, sizeOf type)
decreasing_by
  · exact Prod.Lex.left _ _ (Nat.lt_succ_self _)
  · exact Prod.Lex.right _ (Prod.Lex.right _ (Prod.Lex.right _ (by simp)))
  · exact Prod.Lex.right _ (Prod.Lex.right _
      (Prod.Lex.left _ _ (Raw.sizeOf_lt_of_items? _hitems (by assumption))))
  · exact Prod.Lex.right _ (Prod.Lex.right _
      (Prod.Lex.left _ _ (Raw.sizeOf_field_lt _hobject name)))
  · exact Prod.Lex.right _ (Prod.Lex.left _ _ (Nat.lt_succ_self _))

/-- The input objects that the coercion of a raw value asks for their fields. -/
def consulted (g : TypeGraph ν) (ctx : Context ν) (type : TypeRef (TypeId ν)) (raw : Raw) :
    List (TypeId ν) :=
  consultedAt g ctx (hopBudget g ctx type) (defaultBudget g) type raw

/-- The input objects that are asked at a position with a default. -/
def consultedAtPosition (g : TypeGraph ν) (ctx : Context ν) (position : Position ν) (raw : Raw) :
    List (TypeId ν) :=
  consulted g ctx position.type ((fallbackFor? ctx position raw).getD raw)

/-- The input objects that are asked for the arguments of a field. -/
def consultedByArguments (g : TypeGraph ν) (ctx : Context ν) (declared : Declared (Position ν))
    (supplied : Members Raw) (enforce : Bool) : List (TypeId ν) :=
  (argumentsToCoerce declared supplied enforce).flatMap fun (_, position, raw) =>
    consultedAtPosition g ctx position raw

end TypedQuery.Coercion
