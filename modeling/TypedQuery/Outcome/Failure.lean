import TypedQuery.Outcome.Code

/-!
# Failures

A failure is a diagnostic at a path. A path leads from the name of an argument through fields and
list indices, and is empty for a failure of a resolver.
-/

namespace TypedQuery

-- powers are the same where algebra is imported and where it is not
attribute [local instance (2000)] instPowNat

inductive Segment
  | field (name : String)
  | index (i : Int)
  deriving DecidableEq

abbrev Path := List Segment

namespace Path

/-- The text of an index: its digits, as long as they determine it. -/
def indexText (i : Int) : String :=
  if i.natAbs < 2 ^ (53 : Nat) then toString i else (Number.ofInt i).text

/-- The text of a path after some text: fields are separated by points, indices stand in
brackets. -/
def formatAfter (written : String) : Path → String
  | [] => written
  | .field name :: rest =>
    formatAfter (if written.isEmpty then written ++ name else written ++ "." ++ name) rest
  | .index i :: rest => formatAfter (written ++ "[" ++ indexText i ++ "]") rest

def format (path : Path) : String := formatAfter "" path

end Path

structure Failure where
  code : Code
  path : Path
  params : List (String × Param)
  deriving DecidableEq

namespace Failure

def reason (f : Failure) : String := f.code.message f.params

/-- The reason of a failure, after its path if it has one. -/
def describe (f : Failure) : String :=
  if f.path.isEmpty then f.reason else f.path.format ++ ": " ++ f.reason

/-! ## The failures of coercion -/

/-- A variable that needs a value has none. -/
def missingVariable (path : Path) (name type : String) : Failure :=
  ⟨.missingVariable, path, [("name", .text name), ("type", .text type)]⟩

/-- A position that needs a value has `actual`. -/
def valueRequired (path : Path) (type actual : String) : Failure :=
  ⟨.valueRequired, path, [("type", .text type), ("actual", .text actual)]⟩

def scalarRejected (path : Path) (type value detail : String) : Failure :=
  ⟨.scalarRejected, path, [("type", .text type), ("value", .text value), ("detail", .text detail)]⟩

def unknownSymbol (path : Path) (type value : String) : Failure :=
  ⟨.unknownSymbol, path, [("type", .text type), ("value", .text value)]⟩

def shapeMismatch (path : Path) (expected type value : String) : Failure :=
  ⟨.shapeMismatch, path,
    [("expected", .text expected), ("type", .text type), ("value", .text value)]⟩

/-! ## The failures of resolvers -/

/-- The arguments lack what a resolver needs. -/
def argumentMismatch (reason : String) : Failure :=
  ⟨.argumentMismatch, [], [("reason", .text reason)]⟩

def resolverFailed (reason : String) : Failure :=
  ⟨.resolverFailed, [], [("reason", .text reason)]⟩

end Failure

end TypedQuery
