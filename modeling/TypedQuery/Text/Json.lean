import TypedQuery.Number.Decimal
import TypedQuery.Query.Quoted
import TypedQuery.Value.Basic

/-!
# JSON text

`readJson` reads a text that holds one JSON value. Of members with one key the last counts.

Readers take the text from where they start and give the text from where they end; none is a text
that is not JSON. Every level of nesting and every item takes a character, which bounds both.
-/

namespace TypedQuery.Text

/-- Reads something from the start of a text. -/
abbrev JsonReader (α : Type) := List Char → Option (α × List Char)

namespace Json

def isSpace (c : Char) : Bool := c == ' ' || c == '\t' || c == '\n' || c == '\r'

def skipSpace (text : List Char) : List Char := text.dropWhile isSpace

/-! ## Strings and numerals -/

def lettered? (c : Char) : Option Char := Query.letterEscape? c

/-- The character of an escape, after the backslash. Half a surrogate pair has no character of its
own and reads as the replacement character. -/
def escape? : JsonReader Char
  | 'u' :: rest =>
    match Query.fixedEscape? rest with
    | some r => some r
    | none => (Query.fourDigits? rest).map fun (_, last) => ('\uFFFD', last)
  | c :: rest => (lettered? c).map fun character => (character, rest)
  | [] => none

/-- What a string says from here to its closing quote, at most `n` characters with escapes. -/
def stringBodyWithin : Nat → JsonReader (List Char)
  | 0, _ => none
  | _, [] => none
  | n + 1, c :: rest =>
    if c = '"' then some ([], rest)
    else if c.toNat < 32 then none
    else do
      let (character, after) ← if c = '\\' then escape? rest else some (c, rest)
      let (body, last) ← stringBodyWithin n after
      return (character :: body, last)

def stringBody : JsonReader (List Char) := fun text => stringBodyWithin text.length text

def string? : JsonReader String
  | '"' :: rest => (stringBody rest).map fun (body, last) => (String.ofList body, last)
  | _ => none

/-- One digit or more. -/
def digits? (text : List Char) : Option (List Char × List Char) :=
  let (ds, rest) := Number.spanDigits text
  if ds.isEmpty then none else some (ds, rest)

def wholePart? : List Char → Option (List Char × List Char)
  | '0' :: rest => some (['0'], rest)
  | text => digits? text

def fractionPart? : List Char → Option (List Char × List Char)
  | '.' :: rest => (digits? rest).map fun (ds, last) => ('.' :: ds, last)
  | text => some ([], text)

def exponentPart? (text : List Char) : Option (List Char × List Char) :=
  match text with
  | c :: rest =>
    if c = 'e' ∨ c = 'E' then
      match rest with
      | '+' :: more => (digits? more).map fun (ds, last) => (c :: '+' :: ds, last)
      | '-' :: more => (digits? more).map fun (ds, last) => (c :: '-' :: ds, last)
      | _ => (digits? rest).map fun (ds, last) => (c :: ds, last)
    else some ([], text)
  | [] => some ([], [])

def number? (text : List Char) : Option (Number × List Char) := do
  let (minus, unsigned) :=
    match text with
    | '-' :: rest => (['-'], rest)
    | _ => ([], text)
  let (whole, afterWhole) ← wholePart? unsigned
  let (fraction, afterFraction) ← fractionPart? afterWhole
  let (exponent, rest) ← exponentPart? afterFraction
  return (Number.ofNumeral (String.ofList (minus ++ whole ++ fraction ++ exponent)), rest)

/-! ## Values -/

/-- Reads a fixed word. -/
def word? (word : String) (v : Value) (text : List Char) : Option (Value × List Char) :=
  if word.toList.isPrefixOf text then some (v, text.drop word.length) else none

/-- Items up to a closing character, separated by commas, after the first of them has begun. -/
def itemsWithin (close : Char) (item : JsonReader α) : Nat → JsonReader (List α)
  | 0, _ => none
  | n + 1, text => do
    let (x, rest) ← item text
    match skipSpace rest with
    | c :: more =>
      if c = close then return ([x], more)
      else if c = ',' then
        let (xs, last) ← itemsWithin close item n more
        return (x :: xs, last)
      else none
    | [] => none

/-- Items between an opening character, which has been read, and a closing one. -/
def enclosed (close : Char) (item : JsonReader α) : JsonReader (List α) := fun text =>
  match skipSpace text with
  | c :: rest =>
    if c = close then some ([], rest) else itemsWithin close item text.length (c :: rest)
  | [] => none

/-- A member of an object; `value` reads what it holds. -/
def member (value : JsonReader Value) : JsonReader (String × Value) := fun text => do
  let (key, rest) ← string? (skipSpace text)
  match skipSpace rest with
  | ':' :: more =>
    let (v, last) ← value more
    return ((key, v), last)
  | _ => none

/-- A value nested at most `depth` levels deep. -/
def valueWithin : Nat → JsonReader Value
  | 0, _ => none
  | depth + 1, text =>
    match skipSpace text with
    | '[' :: rest =>
      (enclosed ']' (valueWithin depth) rest).map fun (items, last) => (.list items, last)
    | '\x7b' :: rest =>
      (enclosed '\x7d' (member (valueWithin depth)) rest).map fun (entries, last) =>
        (.object .plain none (Members.ofList entries), last)
    | '"' :: rest => (stringBody rest).map fun (body, last) => (.string (String.ofList body), last)
    | 't' :: rest => word? "rue" (.boolean true) rest
    | 'f' :: rest => word? "alse" (.boolean false) rest
    | 'n' :: rest => word? "ull" .null rest
    | other => (number? other).map fun (n, last) => (.number n, last)

end Json

/-- The JSON value that a text holds. -/
def readJson (text : String) : Option Value :=
  match Json.valueWithin (text.length + 1) text.toList with
  | some (v, rest) => if (Json.skipSpace rest).isEmpty then some v else none
  | none => none

end TypedQuery.Text
