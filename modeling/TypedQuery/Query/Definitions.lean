import TypedQuery.Query.Reader

/-!
# Reading definitions

A document is a sequence of definitions. Operations and fragments are told by their first word, as
are the definitions of a type system and its extensions, which are read over. A description may
stand before all of them, but for extensions and for a query without a word.

* `operation`, `fragmentDefinition`: what is executed;
* `typeParts`: what follows the name of a type, whether it is defined or extended;
* `definition`, `readDocument`: one definition, and a whole document.
-/

namespace TypedQuery.Query

/-! ## First words -/

inductive TypeKind
  | scalar
  | object
  | interface
  | union
  | enum
  | input

def TypeKind.word : TypeKind → String
  | .scalar => "scalar"
  | .object => "type"
  | .interface => "interface"
  | .union => "union"
  | .enum => "enum"
  | .input => "input"

/-- What the first word of a definition announces. -/
inductive Heading
  | operation (kind : OperationKind)
  | fragment
  | schema
  | type (kind : TypeKind)
  | directive

namespace Heading

def word : Heading → String
  | .operation kind => kind.word
  | .fragment => "fragment"
  | .schema => "schema"
  | .type kind => kind.word
  | .directive => "directive"

def all : List Heading :=
  [.operation .query, .operation .mutation, .operation .subscription, .fragment, .schema,
    .type .scalar, .type .object, .type .interface, .type .union, .type .enum, .type .input,
    .directive]

def ofWord? (word : String) : Option Heading := all.find? fun heading => heading.word = word

end Heading

/-- Where a directive may be placed. -/
def directiveLocations : List String :=
  ["QUERY", "MUTATION", "SUBSCRIPTION", "FIELD", "FRAGMENT_DEFINITION", "FRAGMENT_SPREAD",
    "INLINE_FRAGMENT", "VARIABLE_DEFINITION", "SCHEMA", "SCALAR", "OBJECT", "FIELD_DEFINITION",
    "ARGUMENT_DEFINITION", "INTERFACE", "UNION", "ENUM", "ENUM_VALUE", "INPUT_OBJECT",
    "INPUT_FIELD_DEFINITION"]

namespace Reader

/-! ## Descriptions -/

def isDescription : Option Token → Bool
  | some (.string _) | some (.blockString _) => true
  | _ => false

/-- Leaves a description behind, if one is ahead. -/
def description : Reader Unit := do
  if isDescription (← peek) then advance

/-! ## Operations and fragments -/

def variableDeclaration : Reader VariableDeclaration := do
  description
  expect .dollar
  let key ← name
  expect .colon
  let type ← typeReference
  let default ← if ← skip .equals then some <$> value true else pure none
  directives true
  return ⟨key, type, default⟩

def fragmentDefinition : Reader Unit := do
  fragmentName
  expectKeyword "on"
  discard name
  directives false
  discard selections

/-- An operation of a kind, after the word for it. -/
def operation (kind : OperationKind) : Reader Operation := do
  let key ←
    match ← peek with
    | some (.name text) =>
      advance
      pure (some text)
    | _ => pure none
  let declarations ← optionallyEnclosed .parenOpen .parenClose variableDeclaration
  directives false
  return ⟨kind, key, declarations, ← selections⟩

/-! ## Parts of type systems -/

/-- An argument, or a field of an input object. -/
def inputDeclaration : Reader Unit := do
  description
  discard name
  expect .colon
  discard typeReference
  if ← skip .equals then discard (value true)
  directives true

def argumentDeclarations : Reader Unit :=
  discard (optionallyEnclosed .parenOpen .parenClose inputDeclaration)

def fieldDeclaration : Reader Unit := do
  description
  discard name
  argumentDeclarations
  expect .colon
  discard typeReference
  directives true

/-- A symbol of an enum, which is none of the words for other values. -/
def symbolDeclaration : Reader Unit := do
  description
  let found ← peek
  if ["true", "false", "null"].any fun word => isNamed word found then
    throw (.reservedSymbol found)
  discard name
  directives true

/-- A name that is refused only after the token behind it has been looked at. -/
def nameThat (accepted : String → Bool) : Reader Unit := do
  let found ← peek
  let word ← name
  discard peek
  unless accepted word do throw (.unexpected found)

/-- The type of the root of the operations of a kind. -/
def rootDeclaration : Reader Unit := do
  nameThat fun word => (OperationKind.ofWord? word).isSome
  expect .colon
  discard name

def directiveLocation : Reader Unit := nameThat directiveLocations.contains

/-- Constant directives, and whether there are any. -/
def markings : Reader Bool := do
  let found ← peek
  directives true
  return found = some (.punct .at)

/-- Items in braces, and whether there are any. -/
def body (item : Reader Unit) : Reader Bool := do
  return !(← optionallyEnclosed .braceOpen .braceClose item).isEmpty

/-- What follows a word or a punctuator, and whether there is anything. -/
def following (announced : Reader Bool) (part : Reader Unit) : Reader Bool := do
  if ← announced then
    part
    return true
  else return false

def interfaces : TypeKind → Reader Bool
  | .object | .interface =>
    following (skipKeyword "implements") (discard (separated .amp name))
  | .scalar | .union | .enum | .input => return false

def members : TypeKind → Reader Bool
  | .scalar => return false
  | .object | .interface => body fieldDeclaration
  | .union => following (skip .equals) (discard (separated .pipe name))
  | .enum => body symbolDeclaration
  | .input => body inputDeclaration

/-- What follows the name of a type, and whether there is anything. -/
def typeParts (kind : TypeKind) : Reader Bool := do
  let inherits ← interfaces kind
  let marked ← markings
  let declares ← members kind
  return inherits || marked || declares

def schemaDefinition : Reader Unit := do
  directives true
  discard (enclosed .braceOpen .braceClose rootDeclaration)

def schemaParts : Reader Bool := do
  let marked ← markings
  let declares ← body rootDeclaration
  return marked || declares

def directiveDefinition : Reader Unit := do
  expect .at
  discard name
  argumentDeclarations
  discard (skipKeyword "repeatable")
  expectKeyword "on"
  discard (separated .pipe directiveLocation)

/-! ## Definitions -/

/-- A definition after its first word. -/
def headed : Heading → Reader Definition
  | .operation kind => return .operation (← operation kind)
  | .fragment => do
    fragmentDefinition
    return .fragment
  | .schema => do
    schemaDefinition
    return .typeSystem
  | .type kind => do
    discard name
    discard (typeParts kind)
    return .typeSystem
  | .directive => do
    directiveDefinition
    return .typeSystem

/-- Parts that there must be. -/
def extended (parts : Reader Bool) : Reader Definition := do
  if ← parts then return .typeSystem else unexpected

/-- An extension after the word for extensions. -/
def extension : Reader Definition := do
  match ← peek with
  | some (.name word) =>
    match Heading.ofWord? word with
    | some .schema =>
      advance
      extended schemaParts
    | some (.type kind) =>
      advance
      discard name
      extended (typeParts kind)
    | _ => unexpected
  | _ => unexpected

/-- A definition after a description, which is still ahead. -/
def described : Reader Definition := do
  match ← peekSecond with
  | some (.punct .braceOpen) => throw .describedShorthand
  | some (.name word) =>
    match Heading.ofWord? word with
    | some heading =>
      description
      advance
      headed heading
    | none => throw .describedOther
  | found => throw (.unexpected found)

def definition : Reader Definition := do
  match ← peek with
  | some (.punct .braceOpen) => return .operation ⟨.query, none, [], ← selections⟩
  | some (.string _) | some (.blockString _) => described
  | some (.name word) =>
    match Heading.ofWord? word with
    | some heading =>
      advance
      headed heading
    | none =>
      if word = "extend" then
        advance
        extension
      else unexpected
  | _ => unexpected

def definitionsWithin : Nat → Reader (List Definition)
  | 0 => unexpected
  | n + 1 => do
    let first ← definition
    match ← peek with
    | none => return [first]
    | some _ => return first :: (← definitionsWithin n)

def document : Reader Document := do return ⟨← definitionsWithin (← room)⟩

end Reader

def readDocument (text : String) : Except SyntaxError Document := readAll Reader.document text

end TypedQuery.Query
