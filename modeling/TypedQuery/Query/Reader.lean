import TypedQuery.Query.Document
import TypedQuery.Query.Scan

/-!
# Reading query text

Readers consume tokens by recursive descent. Every repetition and every level of nesting takes a
token, so the number of tokens ahead bounds both.

* `value`, `typeReference`, `selections`: readers of parts of a text;
* `readAll`, `readValue`, `readType`: a whole text of a kind.
-/

namespace TypedQuery.Query

/-- Reads something from the tokens ahead. -/
abbrev Reader := StateT Tokens (Except SyntaxError)

namespace Reader

/-! ## Single tokens -/

/-- The token ahead, or the end of the text. A flaw of the text is met here. -/
def peek : Reader (Option Token) := do
  let tokens ← get
  match tokens.ahead, tokens.flaw with
  | token :: _, _ => return some token
  | [], none => return none
  | [], some e => throw e

/-- The token after the token ahead. -/
def peekSecond : Reader (Option Token) := do
  let tokens ← get
  match tokens.ahead.tail, tokens.flaw with
  | token :: _, _ => return some token
  | [], none => return none
  | [], some e => throw e

/-- Leaves the token ahead behind. -/
def advance : Reader Unit := modify fun tokens => { tokens with ahead := tokens.ahead.tail }

def unexpected : Reader α := do throw (.unexpected (← peek))

/-- Consumes a punctuator if it is ahead. -/
def skip (p : Punctuator) : Reader Bool := do
  if (← peek) = some (.punct p) then
    advance
    return true
  else return false

def expect (p : Punctuator) : Reader Unit := do
  unless ← skip p do throw (.expected (.punct p) (← peek))

def expectEnd : Reader Unit := do
  match ← peek with
  | none => return
  | found => throw (.expected .endOfText found)

def name : Reader String := do
  match ← peek with
  | some (.name text) =>
    advance
    return text
  | found => throw (.expected .name found)

def skipKeyword (word : String) : Reader Bool := do
  if (← peek) = some (.name word) then
    advance
    return true
  else return false

def expectKeyword (word : String) : Reader Unit := do
  unless ← skipKeyword word do throw (.expected (.keyword word) (← peek))

/-! ## Repetition -/

/-- How often a reader may be repeated, or nested in itself. -/
def room : Reader Nat := return (← get).ahead.length + 1

/-- Repeats a reader up to a closing punctuator, at most `n` times. -/
def untilClosedWithin (close : Punctuator) (item : Reader α) : Nat → Reader (List α)
  | 0 => unexpected
  | n + 1 => do
    if ← skip close then return []
    let x ← item
    return x :: (← untilClosedWithin close item n)

/-- None or more items up to a closing punctuator. -/
def untilClosed (close : Punctuator) (item : Reader α) : Reader (List α) := do
  untilClosedWithin close item (← room)

/-- One or more items up to a closing punctuator. -/
def someUntilClosed (close : Punctuator) (item : Reader α) : Reader (List α) := do
  let x ← item
  return x :: (← untilClosed close item)

/-- One or more items between punctuators. -/
def enclosed (opening close : Punctuator) (item : Reader α) : Reader (List α) := do
  expect opening
  someUntilClosed close item

/-- One or more items between punctuators, or none without them. -/
def optionallyEnclosed (opening close : Punctuator) (item : Reader α) : Reader (List α) := do
  if ← skip opening then someUntilClosed close item else return []

/-- At most `n` items with a separator between them. -/
def separatedWithin (separator : Punctuator) (item : Reader α) : Nat → Reader (List α)
  | 0 => unexpected
  | n + 1 => do
    let x ← item
    if ← skip separator then return x :: (← separatedWithin separator item n) else return [x]

/-- One or more items with a separator between them, which may also stand before the first. -/
def separated (separator : Punctuator) (item : Reader α) : Reader (List α) := do
  discard (skip separator)
  separatedWithin separator item (← room)

/-! ## Values -/

/-- The value that a name stands for. -/
def symbolValue (symbol : String) : Raw :=
  if symbol = "true" then .boolean true
  else if symbol = "false" then .boolean false
  else if symbol = "null" then .null
  else .enum symbol

/-- A reference to a variable, which has no place in a constant value. -/
def reference (constant : Bool) : Reader String := do
  if constant then
    let dollar ← peek
    advance
    match ← peek with
    | some (.name text) => throw (.variableInConstant text)
    | _ => throw (.unexpected dollar)
  else
    expect .dollar
    name

/-- A value nested at most `depth` levels deep. -/
def valueWithin (constant : Bool) : Nat → Reader Raw
  | 0 => unexpected
  | depth + 1 => do
    match ← peek with
    | some (.punct .bracketOpen) =>
      advance
      return .list (← untilClosed .bracketClose (valueWithin constant depth))
    | some (.punct .braceOpen) =>
      advance
      return .object (← untilClosed .braceClose do
        let key ← name
        expect .colon
        return (key, ← valueWithin constant depth))
    | some (.punct .dollar) => return .variable (← reference constant)
    | some (.name symbol) =>
      advance
      return symbolValue symbol
    | some (.int numeral) =>
      advance
      return .int numeral
    | some (.float numeral) =>
      advance
      return .float numeral
    | some (.string s) | some (.blockString s) =>
      advance
      return .string s
    | _ => unexpected

def value (constant : Bool) : Reader Raw := do valueWithin constant (← room)

def argument (constant : Bool) : Reader (String × Raw) := do
  let key ← name
  expect .colon
  return (key, ← value constant)

def arguments (constant : Bool) : Reader (List (String × Raw)) :=
  optionallyEnclosed .parenOpen .parenClose (argument constant)

/-! ## Types -/

/-- A type reference that has been read, as a demand for a value if it is marked as one. -/
def demanded (type : TypeRef String) : Reader (TypeRef String) := do
  if ← skip .bang then return .required type else return type

/-- A type reference nested at most `depth` levels deep. -/
def typeWithin : Nat → Reader (TypeRef String)
  | 0 => unexpected
  | depth + 1 => do
    if ← skip .bracketOpen then
      let item ← typeWithin depth
      expect .bracketClose
      demanded (.list item)
    else
      demanded (.named (← name))

def typeReference : Reader (TypeRef String) := do typeWithin (← room)

/-! ## Selections -/

def directivesWithin (constant : Bool) : Nat → Reader Unit
  | 0 => unexpected
  | n + 1 => do
    if ← skip .at then
      discard name
      discard (arguments constant)
      directivesWithin constant n

def directives (constant : Bool) : Reader Unit := do directivesWithin constant (← room)

def isNamed (text : String) : Option Token → Bool
  | some (.name s) | some (.string s) | some (.blockString s) => s = text
  | _ => false

/-- The name of a fragment, which is not `on`. -/
def fragmentName : Reader Unit := do
  if isNamed "on" (← peek) then unexpected else discard name

/-- What follows the spread of a fragment; `nested` reads its selections. -/
def fragment (nested : Reader Unit) : Reader Unit := do
  if ← skipKeyword "on" then
    discard name
    directives false
    nested
  else
    match ← peek with
    | some (.name _) =>
      fragmentName
      directives false
    | _ =>
      directives false
      nested

/-- A field; `nested` reads its selections. -/
def field (nested : Reader Unit) : Reader FieldSelection := do
  let first ← name
  let aliased ← skip .colon
  let fieldName ← if aliased then name else pure first
  let written ← arguments false
  directives false
  if (← peek) = some (.punct .braceOpen) then nested
  return ⟨fieldName, first, Members.tableOfList written⟩

/-- A selection; `nested` reads the selections inside it. -/
def selection (nested : Reader Unit) : Reader Selection := do
  if ← skip .spread then
    fragment nested
    return .fragment
  else return .field (← field nested)

/-- A selection set nested at most `depth` levels deep. -/
def selectionsWithin : Nat → Reader (List Selection)
  | 0 => unexpected
  | depth + 1 =>
    enclosed .braceOpen .braceClose (selection (discard (selectionsWithin depth)))

def selections : Reader (List Selection) := do selectionsWithin (← room)

end Reader

/-! ## Whole texts -/

/-- Reads a whole text. -/
def readAll (reader : Reader α) (text : String) : Except SyntaxError α :=
  (do
    let x ← reader
    Reader.expectEnd
    return x : Reader α).run' (tokens text.toList)

def readValue (text : String) : Except SyntaxError Raw := readAll (Reader.value false) text

def readType (text : String) : Except SyntaxError (TypeRef String) :=
  readAll Reader.typeReference text

end TypedQuery.Query
