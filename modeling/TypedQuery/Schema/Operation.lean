import TypedQuery.Coercion.Context
import TypedQuery.Query.Document
import TypedQuery.Schema.Basic

/-!
# Operations

`prepare` picks the operation of a document that is to run and gives its variables the types of the
schema, or tells why it cannot run.
-/

namespace TypedQuery

open Query (Document Operation OperationKind FieldSelection Selection VariableDeclaration)

variable {ν : Type}

/-- An operation that is ready to run. -/
structure Prepared (ν : Type) where
  name : Option String
  definitions : List (VariableDefinition ν)
  fields : List FieldSelection

/-- Why an operation cannot run. -/
inductive Rejection
  | unknownOperation (name : String)
  | noOperation
  | ambiguousOperation
  | unsupportedKind (kind : OperationKind)
  | unknownVariableType (name : String)
  | fragmentSelected
  deriving DecidableEq

def Rejection.message : Rejection → String
  | .unknownOperation name => "Unknown operation named \"" ++ name ++ "\""
  | .noOperation => "Must provide an operation"
  | .ambiguousOperation => "Must provide operation name if query contains multiple operations"
  | .unsupportedKind kind => "Only query operations are supported, got " ++ kind.word
  | .unknownVariableType name => "Variable \"$" ++ name ++ "\" has unknown type"
  | .fragmentSelected => "Only field selections are supported at the top level"

/-- The operation of a name, or the only one. -/
def selectOperation (document : Document) : Option String → Except Rejection Operation
  | some name =>
    match document.operations.find? fun o => o.name = some name with
    | some o => .ok o
    | none => .error (.unknownOperation name)
  | none =>
    match document.operations with
    | [o] => .ok o
    | [] => .error .noOperation
    | _ => .error .ambiguousOperation

/-- A declared variable with the type of the schema that it names. -/
def defineVariable (s : Schema ν) (v : VariableDeclaration) :
    Except Rejection (VariableDefinition ν) :=
  match s.resolve? v.type with
  | some type => .ok ⟨v.name, type, v.default⟩
  | none => .error (.unknownVariableType v.name)

def selectField : Selection → Except Rejection FieldSelection
  | .field f => .ok f
  | .fragment => .error .fragmentSelected

/-- The operation of a document that runs, which must be a query that selects fields only. -/
def prepare (s : Schema ν) (document : Document) (operationName : Option String) :
    Except Rejection (Prepared ν) := do
  let operation ← selectOperation document operationName
  if operation.kind ≠ .query then throw (.unsupportedKind operation.kind)
  let definitions ← operation.declarations.mapM (defineVariable s)
  let fields ← operation.selections.mapM selectField
  return ⟨operation.name, definitions, fields⟩

end TypedQuery
