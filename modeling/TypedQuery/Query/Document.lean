import TypedQuery.Members
import TypedQuery.Raw.Basic
import TypedQuery.Types.Reference

/-!
# Documents

A document holds operations. Of an operation only its top level matters: its variables, and the
fields that it selects. Fragments, directives, nested selections and definitions of a type system
have no further meaning.
-/

namespace TypedQuery.Query

inductive OperationKind
  | query
  | mutation
  | subscription
  deriving DecidableEq

def OperationKind.word : OperationKind → String
  | .query => "query"
  | .mutation => "mutation"
  | .subscription => "subscription"

def OperationKind.ofWord? (word : String) : Option OperationKind :=
  [OperationKind.query, .mutation, .subscription].find? fun k => k.word = word

/-- A selected field. Its arguments are a table: of two with one name the last counts. -/
structure FieldSelection where
  name : String
  /-- The name of the field in the response: its alias, or its own name. -/
  responseKey : String
  arguments : Members Raw

/-- A selected field, or a fragment. -/
inductive Selection
  | field (f : FieldSelection)
  | fragment

/-- A variable as an operation declares it, its type given by name. -/
structure VariableDeclaration where
  name : String
  type : TypeRef String
  default : Option Raw

structure Operation where
  kind : OperationKind
  name : Option String
  declarations : List VariableDeclaration
  selections : List Selection

/-- The definitions of a document. -/
inductive Definition
  | operation (o : Operation)
  | fragment
  | typeSystem

structure Document where
  definitions : List Definition

def Document.operations (d : Document) : List Operation :=
  d.definitions.filterMap fun
    | .operation o => some o
    | .fragment | .typeSystem => none

end TypedQuery.Query
