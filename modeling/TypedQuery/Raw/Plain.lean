import TypedQuery.Number.Decimal
import TypedQuery.Raw.Basic
import TypedQuery.Value.Ancestry

/-!
# Plain values of raw values

`toValue` is the value that a raw value spells when no type is known: numerals are numbers, enum
symbols are strings, lists are arrays, object literals are objects built field by field, and a
variable is read from the object of the supplied values.
-/

namespace TypedQuery.Raw

mutual

/-- The plain value of a raw value. -/
def toValue (supplied : Members Value) : Raw → Value
  | .int numeral => .number (Number.ofNumeral numeral)
  | .float numeral => .number (Number.ofNumeral numeral)
  | .string s => .string s
  | .boolean b => .boolean b
  | .enum symbol => .string symbol
  | .null => .null
  | .list items => .list (itemValues supplied items)
  | .object fields => .ofAssignments (fieldValues supplied fields)
  | .variable name => (Value.record supplied).read name
  | .absent => .undefined
  | .external v => v

def itemValues (supplied : Members Value) : List Raw → List Value
  | [] => []
  | item :: rest => item.toValue supplied :: itemValues supplied rest

def fieldValues (supplied : Members Value) : List (String × Raw) → List (String × Value)
  | [] => []
  | (name, raw) :: rest => (name, raw.toValue supplied) :: fieldValues supplied rest

end

end TypedQuery.Raw
