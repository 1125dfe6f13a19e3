import TypedQuery.Raw.Basic
import TypedQuery.Value.Text

/-!
# Texts of raw values

`text?` writes a raw value in query syntax, in one line. A literal is written as it reads; an
external value is written as far as it has a form in query syntax, and has no text only if it holds
an object without one.
-/

namespace TypedQuery.Raw

mutual

/-- The text of a raw value in query syntax. -/
def text? : Raw → Option String
  | .int numeral => some numeral
  | .float numeral => some numeral
  | .string s => some (Text.quote s)
  | .boolean b => some (if b then "true" else "false")
  | .enum symbol => some symbol
  | .null => some "null"
  | .list items => (itemTexts? items).map fun texts => "[" ++ ", ".intercalate texts ++ "]"
  | .object fields =>
    (fieldTexts? fields).map fun texts => "\x7b" ++ ", ".intercalate texts ++ "\x7d"
  | .variable name => some ("$" ++ name)
  | .absent => some "nothing"
  | .external v => v.literal?

def itemTexts? : List Raw → Option (List String)
  | [] => some []
  | item :: rest => do return (← item.text?) :: (← itemTexts? rest)

def fieldTexts? : List (String × Raw) → Option (List String)
  | [] => some []
  | (name, raw) :: rest => do return (name ++ ": " ++ (← raw.text?)) :: (← fieldTexts? rest)

end

end TypedQuery.Raw
