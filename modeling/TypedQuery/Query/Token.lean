import TypedQuery.Text.Units

/-!
# Tokens of query text

* `Token`: punctuators, names, numerals and strings;
* `SyntaxError`: what can be wrong with query text, with its message;
* `Tokens`: the tokens of a text up to its end or its first flaw. A flaw matters only when a reader
  gets to it.
-/

namespace TypedQuery.Query

inductive Punctuator
  | bang
  | dollar
  | amp
  | parenOpen
  | parenClose
  | spread
  | colon
  | equals
  | at
  | bracketOpen
  | bracketClose
  | braceOpen
  | pipe
  | braceClose
  deriving DecidableEq

def Punctuator.text : Punctuator → String
  | .bang => "!"
  | .dollar => "$"
  | .amp => "&"
  | .parenOpen => "("
  | .parenClose => ")"
  | .spread => "..."
  | .colon => ":"
  | .equals => "="
  | .at => "@"
  | .bracketOpen => "["
  | .bracketClose => "]"
  | .braceOpen => "\x7b"
  | .pipe => "|"
  | .braceClose => "\x7d"

inductive Token
  | punct (p : Punctuator)
  | name (text : String)
  | int (numeral : String)
  | float (numeral : String)
  | string (s : String)
  | blockString (s : String)
  deriving DecidableEq

/-- How a message speaks of the token found, or of the end of the text. -/
def describe : Option Token → String
  | none => "<EOF>"
  | some (.punct p) => "\"" ++ p.text ++ "\""
  | some (.name text) => "Name \"" ++ text ++ "\""
  | some (.int numeral) => "Int \"" ++ numeral ++ "\""
  | some (.float numeral) => "Float \"" ++ numeral ++ "\""
  | some (.string s) => "String \"" ++ s ++ "\""
  | some (.blockString s) => "BlockString \"" ++ s ++ "\""

/-! ## Errors -/

/-- What a reader wants to find next. -/
inductive Expectation
  | punct (p : Punctuator)
  | name
  | keyword (word : String)
  | endOfText

def Expectation.text : Expectation → String
  | .punct p => "\"" ++ p.text ++ "\""
  | .name => "Name"
  | .keyword word => "\"" ++ word ++ "\""
  | .endOfText => "<EOF>"

inductive SyntaxError
  | singleQuote
  | unexpectedCharacter (c : Char)
  | digitAfterZero (next : Option Char)
  | digitExpected (next : Option Char)
  | unterminatedString
  | badEscape (text : List Char)
  | badUnicodeEscape (text : List Char)
  | expected (wanted : Expectation) (found : Option Token)
  | unexpected (found : Option Token)
  | variableInConstant (name : String)
  | reservedSymbol (found : Option Token)
  | describedShorthand
  | describedOther

/-- How a message shows a character, or the end of the text. -/
def showCharacter : Option Char → String
  | none => "<EOF>"
  | some c =>
    if c = '"' then "'\"'"
    else if 0x20 ≤ c.toNat ∧ c.toNat ≤ 0x7E then "\"" ++ c.toString ++ "\""
    else
      let hex := (Nat.toDigits 16 c.toNat).map Char.toUpper
      "U+" ++ String.ofList (List.replicate (4 - hex.length) '0' ++ hex)

namespace SyntaxError

def detail : SyntaxError → String
  | .singleQuote =>
    "Unexpected single quote character ('), did you mean to use a double quote (\")?"
  | .unexpectedCharacter c => "Unexpected character: " ++ showCharacter (some c) ++ "."
  | .digitAfterZero next =>
    "Invalid number, unexpected digit after 0: " ++ showCharacter next ++ "."
  | .digitExpected next =>
    "Invalid number, expected digit but got: " ++ showCharacter next ++ "."
  | .unterminatedString => "Unterminated string."
  | .badEscape text => "Invalid character escape sequence: \"" ++ String.ofList text ++ "\"."
  | .badUnicodeEscape text => "Invalid Unicode escape sequence: \"" ++ String.ofList text ++ "\"."
  | .expected wanted found => "Expected " ++ wanted.text ++ ", found " ++ describe found ++ "."
  | .unexpected found => "Unexpected " ++ describe found ++ "."
  | .variableInConstant name => "Unexpected variable \"$" ++ name ++ "\" in constant value."
  | .reservedSymbol found =>
    describe found ++ " is reserved and cannot be used for an enum value."
  | .describedShorthand =>
    "Unexpected description, descriptions are not supported on shorthand queries."
  | .describedOther => "Unexpected description, only GraphQL definitions support descriptions."

def message (e : SyntaxError) : String := "Syntax Error: " ++ e.detail

end SyntaxError

/-- The tokens that lie ahead, and the flaw of the text behind them, if there is one. -/
structure Tokens where
  ahead : List Token
  flaw : Option SyntaxError

namespace Tokens

def cons (token : Token) (rest : Tokens) : Tokens := { rest with ahead := token :: rest.ahead }

end Tokens

end TypedQuery.Query
