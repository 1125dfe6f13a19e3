import TypedQuery.Query.Quoted

/-!
# Scanning query text

`scan` takes one step from the start of a text: it skips something, reads a token, or finds a flaw.
`tokens` repeats it. Each step leaves a shorter text (`length_scan_lt`), so the repetition ends.
-/

namespace TypedQuery.Query

/-- One step of a scan. -/
inductive Step
  | finished
  | skipped (rest : List Char)
  | read (token : Token) (rest : List Char)
  | flawed (e : SyntaxError)

/-! ## Names and numerals -/

def isNameStart (c : Char) : Bool := c.isAlpha || c == '_'

def isNamePart (c : Char) : Bool := c.isAlphanum || c == '_'

/-- One digit or more. -/
def digits (text : List Char) : Except SyntaxError (List Char × List Char) :=
  match text.takeWhile Char.isDigit with
  | [] => .error (.digitExpected text.head?)
  | ds => .ok (ds, text.dropWhile Char.isDigit)

/-- Puts what was read before in front of what was read. -/
def readAfter (front : List Char) (part : List Char × List Char) : List Char × List Char :=
  (front ++ part.1, part.2)

def sign : List Char → List Char × List Char
  | '-' :: rest => (['-'], rest)
  | text => ([], text)

/-- The whole part of a numeral: a zero, or digits that do not start with one. -/
def wholePart (text : List Char) : Except SyntaxError (List Char × List Char) :=
  match text with
  | '0' :: rest =>
    match rest with
    | c :: _ => if c.isDigit then .error (.digitAfterZero (some c)) else .ok (['0'], rest)
    | [] => .ok (['0'], [])
  | _ => digits text

/-- The fraction of a numeral with its point, or nothing. -/
def fractionPart : List Char → Except SyntaxError (List Char × List Char)
  | '.' :: rest => (digits rest).map (readAfter ['.'])
  | text => .ok ([], text)

/-- The exponent of a numeral with its letter and sign, or nothing. -/
def exponentPart : List Char → Except SyntaxError (List Char × List Char)
  | c :: rest =>
    if c = 'e' ∨ c = 'E' then
      match rest with
      | s :: more =>
        if s = '+' ∨ s = '-' then (digits more).map (readAfter [c, s])
        else (digits rest).map (readAfter [c])
      | [] => .error (.digitExpected none)
    else .ok ([], c :: rest)
  | [] => .ok ([], [])

/-- A numeral must not run into a point or a name. -/
def endsNumeral : List Char → Bool
  | c :: _ => !(c == '.' || isNameStart c)
  | [] => true

/-- A numeral, which is an integer unless it has a fraction or an exponent. -/
def numeral (text : List Char) : Except SyntaxError (Token × List Char) := do
  let (minus, unsigned) := sign text
  let (whole, afterWhole) ← wholePart unsigned
  let (fraction, afterFraction) ← fractionPart afterWhole
  let (exponent, rest) ← exponentPart afterFraction
  if endsNumeral rest then
    let written := String.ofList (minus ++ whole ++ fraction ++ exponent)
    return (if fraction.isEmpty && exponent.isEmpty then .int written else .float written, rest)
  else throw (.digitExpected rest.head?)

/-! ## One step -/

def isIgnored (c : Char) : Bool :=
  c == '\uFEFF' || c == '\t' || c == ' ' || c == '\n' || c == '\r' || c == ','

/-- The punctuators of one character. -/
def punctuator? (c : Char) : Option Punctuator :=
  if c = '!' then some .bang
  else if c = '$' then some .dollar
  else if c = '&' then some .amp
  else if c = '(' then some .parenOpen
  else if c = ')' then some .parenClose
  else if c = ':' then some .colon
  else if c = '=' then some .equals
  else if c = '@' then some .at
  else if c = '[' then some .bracketOpen
  else if c = ']' then some .bracketClose
  else if c = '\x7b' then some .braceOpen
  else if c = '|' then some .pipe
  else if c = '\x7d' then some .braceClose
  else none

def ofExcept : Except SyntaxError (Token × List Char) → Step
  | .ok (token, rest) => .read token rest
  | .error e => .flawed e

/-- The string or block string after a double quote. -/
def quoted (rest : List Char) : Step :=
  match rest with
  | '"' :: '"' :: raw =>
    match blockBody raw with
    | some (body, last) => .read (.blockString (String.ofList (blockText body))) last
    | none => .flawed .unterminatedString
  | _ => ofExcept ((stringBody rest).map fun (body, last) => (.string (String.ofList body), last))

/-- One step from the start of a text. -/
def scan : List Char → Step
  | [] => .finished
  | '.' :: '.' :: '.' :: rest => .read (.punct .spread) rest
  | c :: rest =>
    if isIgnored c then .skipped rest
    else if c = '#' then .skipped (rest.dropWhile fun c => c ≠ '\n' ∧ c ≠ '\r')
    else if c = '"' then quoted rest
    else if isNameStart c then
      .read (.name (String.ofList (c :: rest.takeWhile isNamePart))) (rest.dropWhile isNamePart)
    else if c.isDigit ∨ c = '-' then ofExcept (numeral (c :: rest))
    else
      match punctuator? c with
      | some p => .read (.punct p) rest
      | none => .flawed (if c = '\'' then .singleQuote else .unexpectedCharacter c)

/-! ## Progress -/

theorem length_dropWhile_le (p : Char → Bool) (text : List Char) :
    (text.dropWhile p).length ≤ text.length :=
  (List.dropWhile_suffix p).length_le

theorem length_digits_lt {text ds rest : List Char} (h : digits text = .ok (ds, rest)) :
    rest.length < text.length := by
  unfold digits at h
  split at h
  · cases h
  · next hne =>
    cases h
    cases text with
    | nil => simp at hne
    | cons c tail =>
      by_cases hc : c.isDigit = true
      · rw [List.dropWhile_cons_of_pos hc]
        have := length_dropWhile_le Char.isDigit tail
        simp only [List.length_cons]
        omega
      · rw [List.takeWhile_cons_of_neg hc] at hne
        exact absurd rfl (hne)

theorem length_sign_le (text : List Char) : (sign text).2.length ≤ text.length := by
  unfold sign
  split <;> simp

theorem length_wholePart_lt {text ds rest : List Char} (h : wholePart text = .ok (ds, rest)) :
    rest.length < text.length := by
  unfold wholePart at h
  split at h
  · split at h
    · split at h
      · cases h
      · cases h
        simp
    · cases h
      simp
  · exact length_digits_lt h

theorem of_map_readAfter {r : Except SyntaxError (List Char × List Char)}
    {front ds rest : List Char}
    (h : r.map (readAfter front) = .ok (ds, rest)) : ∃ read, r = .ok (read, rest) := by
  cases r with
  | error e => cases h
  | ok p =>
    obtain ⟨a, b⟩ := p
    cases h
    exact ⟨a, rfl⟩

theorem length_fractionPart_le {text ds rest : List Char}
    (h : fractionPart text = .ok (ds, rest)) : rest.length ≤ text.length := by
  unfold fractionPart at h
  split at h
  · obtain ⟨_, h⟩ := of_map_readAfter h
    have := length_digits_lt h
    simp only [List.length_cons]
    omega
  · cases h
    exact Nat.le_refl _

theorem length_exponentPart_le {text ds rest : List Char}
    (h : exponentPart text = .ok (ds, rest)) : rest.length ≤ text.length := by
  unfold exponentPart at h
  split at h
  · split at h
    · split at h
      · split at h
        · obtain ⟨_, h⟩ := of_map_readAfter h
          have := length_digits_lt h
          simp only [List.length_cons]
          omega
        · obtain ⟨_, h⟩ := of_map_readAfter h
          have := length_digits_lt h
          simp only [List.length_cons] at this ⊢
          omega
      · cases h
    · cases h
      exact Nat.le_refl _
  · cases h
    exact Nat.le_refl _

theorem length_numeral_lt {text rest : List Char} {token : Token}
    (h : numeral text = .ok (token, rest)) : rest.length < text.length := by
  unfold numeral at h
  have hsign := length_sign_le text
  generalize sign text = s at h hsign
  obtain ⟨minus, unsigned⟩ := s
  cases hw : wholePart unsigned with
  | error e => simp [hw, bind, Except.bind] at h
  | ok w =>
    obtain ⟨whole, afterWhole⟩ := w
    have := length_wholePart_lt hw
    cases hf : fractionPart afterWhole with
    | error e => simp [hw, hf, bind, Except.bind] at h
    | ok f =>
      obtain ⟨fraction, afterFraction⟩ := f
      have := length_fractionPart_le hf
      cases he : exponentPart afterFraction with
      | error e => simp [hw, hf, he, bind, Except.bind] at h
      | ok e =>
        obtain ⟨exponent, last⟩ := e
        have := length_exponentPart_le he
        simp only [hw, hf, he, bind, Except.bind] at h
        split at h
        · cases h
          simp only at *
          omega
        · cases h

theorem length_quoted_lt {text rest : List Char} {token : Token}
    (h : quoted text = .read token rest) : rest.length < text.length + 1 := by
  unfold quoted at h
  split at h
  · split at h
    · next hb =>
      cases h
      have := length_blockBody_lt hb
      simp only [List.length_cons]
      omega
    · cases h
  · cases hs : stringBody text with
    | error e => rw [hs] at h; cases h
    | ok r =>
      obtain ⟨body, last⟩ := r
      rw [hs] at h
      cases h
      have := length_stringBody_lt hs
      omega

theorem length_ofExcept_numeral_lt {text rest : List Char} {token : Token}
    (h : ofExcept (numeral text) = .read token rest) : rest.length < text.length := by
  cases hn : numeral text with
  | error e => rw [hn] at h; cases h
  | ok r =>
    obtain ⟨t, last⟩ := r
    rw [hn] at h
    cases h
    exact length_numeral_lt hn

/-- A step leaves a shorter text. -/
theorem length_scan_lt {text rest : List Char}
    (h : scan text = .skipped rest ∨ ∃ token, scan text = .read token rest) :
    rest.length < text.length := by
  unfold scan at h
  split at h
  · rcases h with h | ⟨_, h⟩ <;> cases h
  · rcases h with h | ⟨_, h⟩ <;> cases h
    simp only [List.length_cons]
    omega
  · next c tail _ =>
    simp only [List.length_cons]
    split at h
    · rcases h with h | ⟨_, h⟩ <;> cases h
      omega
    split at h
    · rcases h with h | ⟨_, h⟩ <;> cases h
      have := length_dropWhile_le (fun c => decide (c ≠ '\n' ∧ c ≠ '\r')) tail
      omega
    split at h
    · rcases h with h | ⟨_, h⟩
      · unfold quoted ofExcept at h
        split at h <;> split at h <;> cases h
      · exact length_quoted_lt h
    split at h
    · rcases h with h | ⟨_, h⟩ <;> cases h
      have := length_dropWhile_le isNamePart tail
      omega
    split at h
    · rcases h with h | ⟨_, h⟩
      · unfold ofExcept at h
        split at h <;> cases h
      · exact length_ofExcept_numeral_lt h
    split at h
    · rcases h with h | ⟨_, h⟩ <;> cases h
      omega
    · rcases h with h | ⟨_, h⟩ <;> cases h

/-! ## All tokens -/

/-- The tokens of a text up to its end or its first flaw. -/
def tokens (text : List Char) : Tokens :=
  match _h : scan text with
  | .finished => ⟨[], none⟩
  | .skipped rest => tokens rest
  | .read token rest => (tokens rest).cons token
  | .flawed e => ⟨[], some e⟩
termination_by text.length
decreasing_by
  · exact length_scan_lt (.inl _h)
  · exact length_scan_lt (.inr ⟨_, _h⟩)

end TypedQuery.Query
