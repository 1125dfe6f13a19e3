import TypedQuery.Number.Shortest

/-!
# Diagnostic codes

A diagnostic is a code with parameters; its message is the template of the code, filled with the
parameters one after the other.

* `Code`: the codes, with their kind and template;
* `fillFirst`: one parameter replaces the first place that names it;
* `Code.message`: the filled template.
-/

namespace TypedQuery

/-- Why a value could not be coerced, or why a resolver gave no result. -/
inductive Code
  | missingVariable
  | valueRequired
  | scalarRejected
  | unknownSymbol
  | shapeMismatch
  | argumentMismatch
  | resolverFailed
  deriving DecidableEq

/-- A parameter of a diagnostic. -/
inductive Param
  | text (s : String)
  | number (n : Number)
  deriving DecidableEq

def Param.toText : Param → String
  | .text s => s
  | .number n => n.text

namespace Code

/-! ## The table of codes -/

def all : List Code :=
  [.missingVariable, .valueRequired, .scalarRejected, .unknownSymbol, .shapeMismatch,
    .argumentMismatch, .resolverFailed]

def id : Code → String
  | .missingVariable => "C0100"
  | .valueRequired => "C0101"
  | .scalarRejected => "C0102"
  | .unknownSymbol => "C0103"
  | .shapeMismatch => "C0104"
  | .argumentMismatch => "R0200"
  | .resolverFailed => "R0201"

def kind : Code → String
  | .missingVariable => "missing-required-variable"
  | .valueRequired => "value-required"
  | .scalarRejected => "scalar-coercion-failed"
  | .unknownSymbol => "invalid-enum-value"
  | .shapeMismatch => "shape-mismatch"
  | .argumentMismatch => "resolution-argument-mismatch"
  | .resolverFailed => "resolver-failed"

def template : Code → String
  | .missingVariable => "Variable \"${name}\" of required type {type} was not provided"
  | .valueRequired => "Expected a value of non-null type {type}, found {actual}"
  | .scalarRejected => "Expected type {type}, found {value}: {detail}"
  | .unknownSymbol => "Value {value} does not exist in enum {type}"
  | .shapeMismatch => "Expected {expected} for type {type}, found {value}"
  | .argumentMismatch => "{reason}"
  | .resolverFailed => "{reason}"

def ofId? (id : String) : Option Code := all.find? (fun code => code.id = id)

theorem mem_all (code : Code) : code ∈ all := by cases code <;> decide

/-! ## Filling a template -/

/-- Replaces the first occurrence of a pattern. -/
def replaceFirst (pattern replacement : List Char) : List Char → List Char
  | [] => []
  | c :: rest =>
    if pattern.isPrefixOf (c :: rest) then replacement ++ (c :: rest).drop pattern.length
    else c :: replaceFirst pattern replacement rest

/-- The place that a parameter fills: its name in braces. -/
def placeOf (name : String) : List Char := '\x7b' :: name.toList ++ ['\x7d']

def fillFirst (text : List Char) (param : String × Param) : List Char :=
  replaceFirst (placeOf param.1) param.2.toText.toList text

/-- The template of a code with the first place of each parameter filled, in the order of the
parameters. What one parameter puts in is searched for the next. -/
def message (code : Code) (params : List (String × Param)) : String :=
  String.ofList (params.foldl fillFirst code.template.toList)

end Code

end TypedQuery
