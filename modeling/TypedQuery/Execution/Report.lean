import TypedQuery.Outcome.Basic

/-!
# Errors of a response

A response reports an error of the whole request, or of one field. The failures of one field are
reported as a single error.
-/

namespace TypedQuery

/-- An error in a response. -/
inductive ResponseError
  | request (message : String)
  | field (message responseKey : String) (codes : Option (List Code))
  deriving DecidableEq

namespace ResponseError

def message : ResponseError → String
  | .request message => message
  | .field message _ _ => message

/-- An error of a field, with what went wrong. -/
def fieldMessage (fieldName detail : String) : String :=
  "Field \x60" ++ fieldName ++ "': " ++ detail

def ofField (fieldName detail responseKey : String) : ResponseError :=
  .field (fieldMessage fieldName detail) responseKey none

/-- All failures of a field in one error, with their codes. -/
def ofFailures (fieldName : String) (failures : List Failure) (responseKey : String) :
    ResponseError :=
  .field (fieldMessage fieldName ("; ".intercalate (failures.map Failure.describe))) responseKey
    (some (failures.map Failure.code))

end ResponseError

end TypedQuery
