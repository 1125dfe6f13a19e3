import TypedQuery.Query.Token

/-!
# Strings in query text

A string stands between double quotes on one line, with escapes. A block string stands between
triple quotes; its lines lose the indentation that they share, and the blank lines at its ends.

* `stringBody`: what a string says, after its opening quote;
* `blockBody`, `dedent`: what a block string says, after its opening quotes;
* `length_stringBody_lt`, `length_blockBody_lt`: both read something.
-/

namespace TypedQuery.Query

open Text (takeUnits)

/-! ## Escapes -/

def hexValue? (c : Char) : Option Nat :=
  if '0' ≤ c ∧ c ≤ '9' then some (c.toNat - 48)
  else if 'a' ≤ c ∧ c ≤ 'f' then some (c.toNat - 87)
  else if 'A' ≤ c ∧ c ≤ 'F' then some (c.toNat - 55)
  else none

/-- The character of a code point, unless it is a surrogate or too large. -/
def scalar? (point : Nat) : Option Char :=
  if h : point.isValidChar then some (Char.ofNatAux point h) else none

/-- The number that four hexadecimal digits spell. -/
def fourDigits? : List Char → Option (Nat × List Char)
  | a :: b :: c :: d :: rest => do
    let a ← hexValue? a
    let b ← hexValue? b
    let c ← hexValue? c
    let d ← hexValue? d
    return (((a * 16 + b) * 16 + c) * 16 + d, rest)
  | _ => none

/-- A second escape of four digits that is the low half of a surrogate pair. -/
def lowSurrogate? : List Char → Option (Nat × List Char)
  | '\\' :: 'u' :: rest => do
    let (low, rest) ← fourDigits? rest
    if 0xDC00 ≤ low ∧ low ≤ 0xDFFF then return (low, rest) else none
  | _ => none

/-- The character of an escape of four digits, or of a surrogate pair of two of them. -/
def fixedEscape? (text : List Char) : Option (Char × List Char) := do
  let (point, rest) ← fourDigits? text
  match scalar? point with
  | some c => return (c, rest)
  | none =>
    if 0xD800 ≤ point ∧ point ≤ 0xDBFF then
      let (low, rest) ← lowSurrogate? rest
      let c ← scalar? (0x10000 + (point - 0xD800) * 0x400 + (low - 0xDC00))
      return (c, rest)
    else none

/-- The character of an escape in braces, of which `size` units are read and spell `point`. The
value is held in 32 bits with sign; reading stops when it turns negative, at a character that is no
digit, and at twelve units. A failure tells how many units were read. -/
def bracedEscape (size point : Nat) : List Char → Except Nat (Char × List Char)
  | [] => .error (if size < 12 then size + 1 else size)
  | c :: rest =>
    if 12 ≤ size then .error size
    else if c = '\x7d' then
      match scalar? point with
      | some character => if 5 ≤ size + 1 then .ok (character, rest) else .error (size + 1)
      | none => .error (size + 1)
    else
      match hexValue? c with
      | none => .error (size + 1)
      | some digit =>
        let next := (point * 16 + digit) % 4294967296
        if 2147483648 ≤ next then .error (size + 1) else bracedEscape (size + 1) next rest

/-- The character that one letter after a backslash stands for. -/
def letterEscape? (c : Char) : Option Char :=
  if c = '"' then some '"'
  else if c = '\\' then some '\\'
  else if c = '/' then some '/'
  else if c = 'b' then some '\x08'
  else if c = 'f' then some '\x0c'
  else if c = 'n' then some '\n'
  else if c = 'r' then some '\r'
  else if c = 't' then some '\t'
  else none

/-- The character of an escape, of which the text follows the backslash. -/
def escape (text : List Char) : Except SyntaxError (Char × List Char) :=
  match text with
  | 'u' :: '\x7b' :: rest =>
    match bracedEscape 3 0 rest with
    | .ok r => .ok r
    | .error size => .error (.badUnicodeEscape (takeUnits size ('\\' :: text)))
  | 'u' :: rest =>
    match fixedEscape? rest with
    | some r => .ok r
    | none => .error (.badUnicodeEscape (takeUnits 6 ('\\' :: text)))
  | c :: rest =>
    match letterEscape? c with
    | some character => .ok (character, rest)
    | none => .error (.badEscape (takeUnits 2 ('\\' :: text)))
  | [] => .error (.badEscape ['\\'])

theorem length_fourDigits? {text rest : List Char} {n : Nat}
    (h : fourDigits? text = some (n, rest)) : text.length = rest.length + 4 := by
  unfold fourDigits? at h
  split at h
  · simp only [Option.bind_eq_bind, Option.bind_eq_some_iff, Option.pure_def, Option.some.injEq,
      Prod.mk.injEq] at h
    obtain ⟨_, _, _, _, _, _, _, _, _, rfl⟩ := h
    rfl
  · cases h

theorem length_fixedEscape? {text rest : List Char} {c : Char}
    (h : fixedEscape? text = some (c, rest)) : rest.length < text.length := by
  unfold fixedEscape? at h
  simp only [Option.bind_eq_bind, Option.bind_eq_some_iff, Prod.exists] at h
  obtain ⟨point, after, hfour, h⟩ := h
  have hlength := length_fourDigits? hfour
  split at h
  · simp only [Option.pure_def, Option.some.injEq, Prod.mk.injEq] at h
    obtain ⟨_, rfl⟩ := h
    omega
  · split at h
    · simp only [Option.bind_eq_some_iff, Prod.exists] at h
      obtain ⟨low, last, hlow, h⟩ := h
      obtain ⟨_, _, h⟩ := h
      simp only [Option.pure_def, Option.some.injEq, Prod.mk.injEq] at h
      obtain ⟨_, rfl⟩ := h
      unfold lowSurrogate? at hlow
      split at hlow
      · simp only [Option.bind_eq_bind, Option.bind_eq_some_iff, Prod.exists] at hlow
        obtain ⟨_, _, hfour', hlow⟩ := hlow
        have := length_fourDigits? hfour'
        split at hlow
        · simp only [Option.pure_def, Option.some.injEq, Prod.mk.injEq] at hlow
          obtain ⟨_, rfl⟩ := hlow
          simp only [List.length_cons] at hlength
          omega
        · cases hlow
      · cases hlow
    · cases h

theorem length_bracedEscape {size point : Nat} {text rest : List Char} {c : Char}
    (h : bracedEscape size point text = .ok (c, rest)) : rest.length < text.length := by
  induction text generalizing size point with
  | nil => cases h
  | cons d text ih =>
    unfold bracedEscape at h
    split at h
    · cases h
    · split at h
      · split at h
        · split at h
          · cases h
            simp
          · cases h
        · cases h
      · split at h
        · cases h
        · simp only at h
          split at h
          · cases h
          · have := ih h
            simp only [List.length_cons]
            omega

theorem length_escape {text rest : List Char} {c : Char} (h : escape text = .ok (c, rest)) :
    rest.length < text.length := by
  unfold escape at h
  split at h
  · split at h
    · next heq =>
      cases h
      have := length_bracedEscape heq
      simp only [List.length_cons]
      omega
    · cases h
  · split at h
    · next heq =>
      cases h
      have := length_fixedEscape? heq
      simp only [List.length_cons]
      omega
    · cases h
  · split at h
    · cases h
      simp
    · cases h
  · cases h

/-! ## Strings -/

/-- What a string says from here to its closing quote, and what follows. -/
def stringBody (text : List Char) : Except SyntaxError (List Char × List Char) :=
  match text with
  | [] => .error .unterminatedString
  | c :: rest =>
    if c = '"' then .ok ([], rest)
    else if c = '\n' ∨ c = '\r' then .error .unterminatedString
    else if c = '\\' then
      match _h : escape rest with
      | .error e => .error e
      | .ok (character, after) =>
        match stringBody after with
        | .error e => .error e
        | .ok (body, last) => .ok (character :: body, last)
    else
      match stringBody rest with
      | .error e => .error e
      | .ok (body, last) => .ok (c :: body, last)
termination_by text.length
decreasing_by
  · have := length_escape _h
    simp only [List.length_cons]
    omega
  · simp

theorem length_stringBody_lt {text body rest : List Char} (h : stringBody text = .ok (body, rest)) :
    rest.length < text.length := by
  induction hn : text.length using Nat.strongRecOn generalizing text body with
  | ind n ih =>
    subst hn
    unfold stringBody at h
    split at h
    · cases h
    · next c tail =>
      simp only [List.length_cons] at ih ⊢
      split at h
      · cases h
        omega
      · split at h
        · cases h
        · split at h
          · split at h
            · cases h
            · next he =>
              have := length_escape he
              split at h
              · cases h
              · next hbody =>
                cases h
                have := ih _ (by omega) hbody rfl
                omega
          · split at h
            · cases h
            · next hbody =>
              cases h
              have := ih _ (by omega) hbody rfl
              omega

/-! ## Block strings -/

/-- The raw text of a block string from here to its closing quotes, and what follows. -/
def blockBody : List Char → Option (List Char × List Char)
  | [] => none
  | '"' :: '"' :: '"' :: rest => some ([], rest)
  | '\\' :: '"' :: '"' :: '"' :: rest =>
    (blockBody rest).map fun (body, last) => ('"' :: '"' :: '"' :: body, last)
  | c :: rest => (blockBody rest).map fun (body, last) => (c :: body, last)

theorem length_blockBody_lt {text body rest : List Char} (h : blockBody text = some (body, rest)) :
    rest.length < text.length := by
  induction text using blockBody.induct generalizing body with
  | case1 => cases h
  | case2 tail =>
    cases h
    simp only [List.length_cons]
    omega
  | case3 tail ih =>
    simp only [blockBody, Option.map_eq_some_iff, Prod.exists, Prod.mk.injEq] at h
    obtain ⟨body', last, hb, _, rfl⟩ := h
    have := ih hb
    simp only [List.length_cons]
    omega
  | case4 c tail h1 h2 ih =>
    rw [blockBody.eq_4 c tail h1 h2] at h
    simp only [Option.map_eq_some_iff, Prod.exists, Prod.mk.injEq] at h
    obtain ⟨body', last, hb, _, rfl⟩ := h
    have := ih hb
    simp only [List.length_cons]
    omega

/-- The lines of a text, which end at a line feed, a carriage return, or both in this order. -/
def lines : List Char → List (List Char)
  | [] => [[]]
  | '\r' :: '\n' :: rest => [] :: lines rest
  | c :: rest =>
    if c = '\n' ∨ c = '\r' then [] :: lines rest
    else
      match lines rest with
      | line :: more => (c :: line) :: more
      | [] => [[c]]

def isIndentation (c : Char) : Bool := c == ' ' || c == '\t'

def isBlankLine (line : List Char) : Bool := line.all isIndentation

/-- The least indentation of the lines that are not blank. -/
def commonIndentation (lines : List (List Char)) : Option Nat :=
  ((lines.filter fun line => !isBlankLine line).map fun line =>
    (line.takeWhile isIndentation).length).min?

/-- The lines of a block string: all but the first lose their common indentation, and blank lines
at either end are dropped. -/
def dedent : List (List Char) → List (List Char)
  | [] => []
  | first :: rest =>
    let cut := (commonIndentation rest).getD 0
    let all := first :: rest.map fun line => line.drop cut
    ((all.dropWhile isBlankLine).reverse.dropWhile isBlankLine).reverse

/-- What a block string says, from its raw text. -/
def blockText (raw : List Char) : List Char := ['\n'].intercalate (dedent (lines raw))

end TypedQuery.Query
