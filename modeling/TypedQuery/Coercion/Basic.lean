import TypedQuery.Coercion.Context

/-!
# Coercion

Coercion turns the raw value at a typed position into the value that a resolver receives. A
position where nothing was supplied is left *absent*, which differs from null. The failures of
sibling positions are all collected.

The recursion follows the raw value, which gets smaller, except where a reference is replaced by
what its variable stands for, or an absent field by its default. Both replacements are counted: a
chain of references, or of defaults, that is longer than the number of different ones repeats
itself and never ends. Such a coercion has no outcome.

* `coerceAt`: coercion with budgets for the replacements along each chain;
* `coerce`, `coercePosition`: coercion with budgets that every ending chain respects.
-/

namespace TypedQuery

/-- The outcome of coercing a position, `done none` if the position is absent, or why there is
none. -/
abbrev Coerced := Except Fault (Outcome (Option Value))

namespace Coercion

variable {ν : Type}

/-! ## Leaves -/

/-- A position without a value. -/
def missing (g : TypeGraph ν) (type : TypeRef (TypeId ν)) (path : Path) : Outcome (Option Value) :=
  if type.isRequired then .fail [.valueRequired path (g.print type) "nothing"] else .done none

/-- A position whose value is null. -/
def nullValue (g : TypeGraph ν) (type : TypeRef (TypeId ν)) (path : Path) :
    Outcome (Option Value) :=
  if type.isRequired then .fail [.valueRequired path (g.print type) "null"]
  else .done (some .null)

/-- Fails for a raw value that the failure shows. -/
def refuse (raw : Raw) (failure : String → Failure) : Coerced :=
  match raw.text? with
  | some written => .ok (.fail [failure written])
  | none => .error .textless

/-- A scalar reads a raw value without references; what it throws is a reason to reject. -/
def judge (s : Scalar) (raw : Raw) (path : Path) : Coerced :=
  match s.parse raw with
  | .accepted v => .ok (.done (some v))
  | .rejected reason => refuse raw fun written => .scalarRejected path s.name written reason
  | .thrown t =>
    match t.text? with
    | some reason => refuse raw fun written => .scalarRejected path s.name written reason
    | none => .error .textless

/-- A scalar reads what its literal stands for. -/
def coerceScalar (g : TypeGraph ν) (ctx : Context ν) (s : Scalar) (raw : Raw) (path : Path) :
    Coerced := do
  let (input, failures) ← ctx.inline g path raw
  if failures.isEmpty then judge s input path else return .fail failures

/-- The symbol that a raw value names: inline a bare one, from outside a string. -/
def symbol? : Raw → Option String
  | .enum symbol => some symbol
  | .external (.string symbol) => some symbol
  | _ => none

def coerceEnum (e : EnumType) (raw : Raw) (path : Path) : Coerced :=
  match (symbol? raw).bind e.valueOf? with
  | some value => .ok (.done (some value))
  | none => refuse raw (.unknownSymbol path e.name)

/-! ## Branches -/

/-- The list of the coerced items, in which an absent item is null. -/
def gatherItems (outcomes : List (Outcome (Option Value))) : Outcome (Option Value) :=
  (Outcome.combine outcomes).map fun values => some (.list (values.map fun v => v.getD .null))

/-- The members that are present among named outcomes. -/
def gatherMembers (outcomes : List (String × Outcome (Option Value))) : Outcome (Members Value) :=
  let named := outcomes.map fun (name, outcome) => outcome.map fun v => v.map (name, ·)
  (Outcome.combine named).map fun members => members.filterMap fun m => m

/-- What a field coerces to when its default stands in. -/
def fallbackFor? (ctx : Context ν) (position : Position ν) (raw : Raw) : Option Raw :=
  if ctx.leavesDefault raw then position.fallback?.map .external else none

/-! ## The recursion -/

/-- Coercion with at most `hops` references, and at most `defaults` defaults of fields, along each
chain. -/
def coerceAt (g : TypeGraph ν) (ctx : Context ν) (hops defaults : Nat)
    (type : TypeRef (TypeId ν)) (raw : Raw) (path : Path) : Coerced :=
  match raw with
  | .variable name =>
    match ctx.reading g name type path with
    | .error failure => .ok (.fail [failure])
    | .ok stand =>
      match hops with
      | 0 => .error .endless
      | hops + 1 => coerceAt g ctx hops defaults type stand path
  | raw =>
    if raw.isAbsent then .ok (missing g type path)
    else if raw.isNull then .ok (nullValue g type path)
    else
      match type with
      | .required inner => coerceAt g ctx hops defaults inner raw path
      | .list item =>
        match _hitems : raw.items? with
        | none => refuse raw (.shapeMismatch path "a list" (g.print (.list item)))
        | some items => do
          let outcomes ← items.attach.zipIdx.mapM fun ⟨⟨held, _⟩, i⟩ =>
            coerceAt g ctx hops defaults item held (path ++ [.index i])
          return gatherItems outcomes
      | .named id =>
        match g.describe id with
        | .scalar s => coerceScalar g ctx s raw path
        | .enum e => coerceEnum e raw path
        | .input o =>
          if _hobject : raw.isObject = true then do
            let outcomes ← o.fields.entries.mapM fun f =>
              Except.map (f.1, ·) <|
                match fallbackFor? ctx f.2 (raw.field f.1) with
                | none =>
                  coerceAt g ctx hops defaults f.2.type (raw.field f.1) (path ++ [.field f.1])
                | some value =>
                  match defaults with
                  | 0 => .error .endless
                  | defaults + 1 =>
                    coerceAt g ctx hops defaults f.2.type value (path ++ [.field f.1])
            return (gatherMembers outcomes).map fun members => some (.record members)
          else refuse raw (.shapeMismatch path "an input object" o.name)
termination_by (hops, defaults, sizeOf raw, sizeOf type)
decreasing_by
  · exact Prod.Lex.left _ _ (Nat.lt_succ_self _)
  · exact Prod.Lex.right _ (Prod.Lex.right _ (Prod.Lex.right _ (by simp)))
  · exact Prod.Lex.right _ (Prod.Lex.right _
      (Prod.Lex.left _ _ (Raw.sizeOf_lt_of_items? _hitems (by assumption))))
  · exact Prod.Lex.right _ (Prod.Lex.right _
      (Prod.Lex.left _ _ (Raw.sizeOf_field_lt _hobject f.1)))
  · exact Prod.Lex.right _ (Prod.Lex.left _ _ (Nat.lt_succ_self _))

/-! ## Budgets -/

/-- Along an ending chain no variable is read twice at one type, and every type that is met is a
level of the expected type or of the type of a field. -/
def hopBudget (g : TypeGraph ν) (ctx : Context ν) (type : TypeRef (TypeId ν)) : Nat :=
  ctx.definitions.length * (g.positions.foldl (fun n p => n + p.type.depth) type.depth) + 1

/-- Along an ending chain no default of a field stands in twice: defaults hold no references, so
the second time would be as the first. -/
def defaultBudget (g : TypeGraph ν) : Nat := g.positions.length

/-- The outcome of coercing a raw value to a type. -/
def coerce (g : TypeGraph ν) (ctx : Context ν) (type : TypeRef (TypeId ν)) (raw : Raw)
    (path : Path) : Coerced :=
  coerceAt g ctx (hopBudget g ctx type) (defaultBudget g) type raw path

/-- The outcome of coercing a raw value at a position, whose default stands in for what was not
supplied, but never for an explicit null. -/
def coercePosition (g : TypeGraph ν) (ctx : Context ν) (position : Position ν) (raw : Raw)
    (path : Path) : Coerced :=
  coerce g ctx position.type ((fallbackFor? ctx position raw).getD raw) path

/-- The outcome of coercing what a variable stands for. -/
def coerceVariable (g : TypeGraph ν) (ctx : Context ν) (name : String)
    (expected : TypeRef (TypeId ν)) (path : Path) : Coerced :=
  coerce g ctx expected (.variable name) path

end Coercion

end TypedQuery
