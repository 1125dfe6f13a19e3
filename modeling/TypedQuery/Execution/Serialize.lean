import TypedQuery.Types.Graph

/-!
# Writing results

`serialize` writes the value that a resolver gave for a field through the type of the field, or
tells why it has no form of that type.
-/

namespace TypedQuery

variable {ν : Type}

inductive SerializeError
  | nullForRequired (type : String)
  | listExpected (type : String)
  | unknownValue (enum : String) (value : Value)
  | inputObject (name : String)
  | scalar (t : Thrown)

/-- What a failing serialization throws. -/
def SerializeError.thrown : SerializeError → Thrown
  | .nullForRequired type => .error ("Cannot return null for non-nullable type " ++ type)
  | .listExpected type => .error ("Expected a list for type " ++ type)
  | .unknownValue enum value =>
    match value.text? with
    | some written => .error ("Enum " ++ enum ++ " cannot represent value " ++ written)
    | none => .textless
  | .inputObject name => .error ("Input object type " ++ name ++ " cannot be returned from a field")
  | .scalar t => t

/-- Writes a value through a named type. -/
def serializeNamed (g : TypeGraph ν) (id : TypeId ν) (v : Value) : Except SerializeError Value :=
  match g.describe id with
  | .input o => .error (.inputObject o.name)
  | .scalar s => if v.isNullish then .ok .null else (s.serialize v).mapError .scalar
  | .enum e =>
    if v.isNullish then .ok .null
    else
      match e.symbolOf? v with
      | some symbol => .ok (.string symbol)
      | none => .error (.unknownValue e.name v)

/-- Writes a value through a type. The empty slots of a list stay empty. -/
def serialize (g : TypeGraph ν) : TypeRef (TypeId ν) → Value → Except SerializeError Value
  | .required inner, v =>
    if v.isNullish then .error (.nullForRequired (g.print (.required inner)))
    else serialize g inner v
  | .list item, v =>
    if v.isNullish then .ok .null
    else
      match v with
      | .array _ slots => do
        let written ← slots.mapM fun
          | some held => some <$> serialize g item held
          | none => return none
        return .array none written
      | _ => .error (.listExpected (g.print (.list item)))
  | .named id, v => serializeNamed g id v

end TypedQuery
