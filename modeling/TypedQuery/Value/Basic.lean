import TypedQuery.Members
import TypedQuery.Number.Basic

/-!
# Values

The untyped values that reach a query from outside (variables, defaults, results) and that coercion
produces.

* `Value`: the value domain;
* `isPlain`: the objects that are read member by member;
* `sameAs`: identity, which compares arrays and objects by their mark and not by what they hold.
-/

namespace TypedQuery

/-- What kind of object an object is: the root of all ancestries, a plain one, which has the root as
its only ancestor, one without any ancestor, or an instance of a class. -/
inductive Ancestry
  | root
  | plain
  | bare
  | classed
  deriving DecidableEq

/-- An array may have empty slots. An array or object that has an identity carries it as its mark.
An heir is an object that has another value as its ancestor. -/
inductive Value
  | undefined
  | null
  | boolean (b : Bool)
  | number (n : Number)
  | bigint (n : Int)
  | string (s : String)
  | array (mark : Option Nat) (slots : List (Option Value))
  | object (ancestry : Ancestry) (mark : Option Nat) (members : List (String × Value))
  | heir (ancestor : Value) (members : List (String × Value))

namespace Value

/-! ## Construction -/

/-- A new array without empty slots. -/
def list (items : List Value) : Value := .array none (items.map some)

/-- A new plain object of some members. -/
def record (members : Members Value) : Value := .object .plain none members

/-- Gives an array or object an identity. -/
def withMark (mark : Nat) : Value → Value
  | .array _ slots => .array (some mark) slots
  | .object ancestry _ members => .object ancestry (some mark) members
  | v => v

/-! ## Classification -/

def isUndefined : Value → Bool
  | .undefined => true
  | _ => false

def isNull : Value → Bool
  | .null => true
  | _ => false

/-- Null and undefined say that there is no value. -/
def isNullish : Value → Bool
  | .undefined | .null => true
  | _ => false

/-- The members of an object that is read member by member: neither an instance of a class nor an
heir of another value. -/
def plainMembers? : Value → Option (Members Value)
  | .object .classed .. => none
  | .object _ _ members => some members
  | _ => none

def isPlain (v : Value) : Bool := v.plainMembers?.isSome

/-- The members that an object has of its own. -/
def ownMembers : Value → Members Value
  | .object _ _ members => members
  | .heir _ members => members
  | _ => []

/-! ## Identity -/

/-- Whether two values are one. An array or object is one with another only if both carry the same
mark. -/
def sameAs : Value → Value → Bool
  | .undefined, .undefined => true
  | .null, .null => true
  | .boolean a, .boolean b => a == b
  | .number a, .number b => a.sameAs b
  | .bigint a, .bigint b => a == b
  | .string a, .string b => a == b
  | .array (some a) _, .array (some b) _ => a == b
  | .object _ (some a) _, .object _ (some b) _ => a == b
  | _, _ => false

end Value

end TypedQuery
