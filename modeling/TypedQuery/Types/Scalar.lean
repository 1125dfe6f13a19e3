import TypedQuery.Number.Decimal
import TypedQuery.Raw.Plain
import TypedQuery.Raw.Text

/-!
# Scalars

A scalar reads raw values and writes results. Both may be user code, which may also throw.

* `Scalar`: a named scalar;
* `Scalar.ofPlain`: a scalar that reads the plain value of its input, however it was supplied;
* `Builtin`: the five scalars that every schema has.
-/

namespace TypedQuery

/-- What is thrown: an error with its message, any other value, or the error that a value without
a text was to be written. -/
inductive Thrown
  | error (message : String)
  | value (v : Value)
  | textless

def textlessMessage : String := "Cannot convert object to primitive value"

def Thrown.text? : Thrown → Option String
  | .error message => some message
  | .value v => v.text?
  | .textless => some textlessMessage

/-- What a scalar says of a raw value. -/
inductive Verdict
  | accepted (v : Value)
  | rejected (reason : String)
  | thrown (t : Thrown)

/-- A scalar accepts or rejects every raw value other than null, absence and a bare variable. -/
structure Scalar where
  name : String
  description : Option String
  parse : Raw → Verdict
  serialize : Value → Except Thrown Value

namespace Scalar

/-- A scalar that reads the plain value of its input, inline or from outside. -/
def ofPlain (name : String) (description : Option String) (parseValue : Value → Verdict)
    (serialize : Value → Except Thrown Value) : Scalar where
  name := name
  description := description
  parse raw := parseValue (raw.toValue [])
  serialize := serialize

end Scalar

/-! ## Built-in scalars -/

/-- The scalars that every schema has. -/
inductive Builtin
  | int
  | float
  | string
  | boolean
  | id
  deriving DecidableEq

namespace Builtin

def all : List Builtin := [.int, .float, .string, .boolean, .id]

theorem mem_all (b : Builtin) : b ∈ all := by cases b <;> decide

def name : Builtin → String
  | .int => "Int"
  | .float => "Float"
  | .string => "String"
  | .boolean => "Boolean"
  | .id => "ID"

def description : Builtin → Option String
  | .int => some "Signed 32-bit integer"
  | .float => some "Double-precision floating point number"
  | .string => none
  | .boolean => none
  | .id => some "Opaque identifier, written as a string or an integer"

def ofName? (name : String) : Option Builtin := all.find? (fun b => b.name = name)

/-! ### Reading -/

/-- Rejects a raw value, which the reason shows after some words. -/
def refuse (words : String) (raw : Raw) : Verdict :=
  match raw.text? with
  | some written => .rejected (words ++ written)
  | none => .thrown .textless

/-- An `Int` is an integer of 32 bits. -/
def parseIntNumber (raw : Raw) (n : Number) : Verdict :=
  if n.isInt32 then .accepted (.number n)
  else if n.isInteger then refuse "Int cannot represent non 32-bit signed integer value " raw
  else refuse "Int cannot represent non-integer value " raw

def parseInt : Raw → Verdict
  | .int numeral => parseIntNumber (.int numeral) (Number.ofNumeral numeral)
  | .external (.number n) => parseIntNumber (.external (.number n)) n
  | raw => refuse "Int cannot represent non-integer value " raw

/-- A `Float` is any numeral, or a finite number from outside. -/
def parseFloat : Raw → Verdict
  | .int numeral => .accepted (.number (Number.ofNumeral numeral))
  | .float numeral => .accepted (.number (Number.ofNumeral numeral))
  | .external (.number n) =>
    if n.isFinite then .accepted (.number n)
    else refuse "Float cannot represent non numeric value " (.external (.number n))
  | raw => refuse "Float cannot represent non numeric value " raw

def parseString : Raw → Verdict
  | .string s => .accepted (.string s)
  | .external (.string s) => .accepted (.string s)
  | raw => refuse "String cannot represent a non string value " raw

def parseBoolean : Raw → Verdict
  | .boolean b => .accepted (.boolean b)
  | .external (.boolean b) => .accepted (.boolean b)
  | raw => refuse "Boolean cannot represent a non boolean value " raw

/-- An `ID` is a string, or the text of an integer. -/
def parseId : Raw → Verdict
  | .string s => .accepted (.string s)
  | .int numeral => .accepted (.string numeral)
  | .external (.string s) => .accepted (.string s)
  | .external (.number n) =>
    if n.isInteger then .accepted (.string n.text)
    else refuse "ID cannot represent value " (.external (.number n))
  | raw => refuse "ID cannot represent value " raw

def parse : Builtin → Raw → Verdict
  | .int => parseInt
  | .float => parseFloat
  | .string => parseString
  | .boolean => parseBoolean
  | .id => parseId

/-! ### Writing -/

/-- The result that a built-in scalar writes for a value, if it can write it. -/
def write? : Builtin → Value → Option Value
  | .int, .number n => if n.isInt32 then some (.number n) else none
  | .float, .number n => if n.isFinite then some (.number n) else none
  | .string, .string s => some (.string s)
  | .string, .number n => some (.string n.text)
  | .string, .boolean b => some (.string (if b then "true" else "false"))
  | .boolean, .boolean b => some (.boolean b)
  | .id, .string s => some (.string s)
  | .id, .number n => if n.isInteger then some (.string n.text) else none
  | _, _ => none

def serialize (b : Builtin) (v : Value) : Except Thrown Value :=
  match b.write? v with
  | some result => .ok result
  | none =>
    match v.text? with
    | some written => .error (.error (b.name ++ " cannot represent value " ++ written))
    | none => .error .textless

def scalar (b : Builtin) : Scalar := ⟨b.name, b.description, b.parse, b.serialize⟩

end Builtin

end TypedQuery
