import TypedQuery.Proofs.Query.Names
import TypedQuery.Text.Quoted

/-!
# The spelling of tokens

A token that is written as it is read is read again from any text that goes on with a comma, a
colon or a closing bracket, or ends.

* `isIdentifier`: the names of query text;
* `numeral_append`, `stringBody_escape`: numerals and quoted strings, whatever follows;
* `Spells`: a text that reads as some tokens, whatever follows; `Spells.name`, `Spells.quote` and
  their like for one token each, `Spells.closed` and `Spells.separated` for sequences of them.
-/

namespace TypedQuery.Query

/-! ## What follows -/

section Ahead

variable {p : Char → Bool} {rest : List Char}

/-- A text ends, or goes on with a separator or a closing bracket. -/
def Stops (rest : List Char) : Prop :=
  ∀ c, rest.head? = some c → c = ',' ∨ c = ':' ∨ c = ']' ∨ c = '\x7d'

theorem Stops.endsAt (h : Stops rest)
    (hp : p ',' = false ∧ p ':' = false ∧ p ']' = false ∧ p '\x7d' = false) : EndsAt p rest := by
  intro c hc
  rcases h c hc with rfl | rfl | rfl | rfl
  · exact hp.1
  · exact hp.2.1
  · exact hp.2.2.1
  · exact hp.2.2.2

end Ahead

/-! ## Numerals -/

section Numerals

variable {whole fraction exponent ds rest : List Char}

theorem digits_append (h : AreDigits ds) (hr : EndsAt Char.isDigit rest) :
    digits (ds ++ rest) = .ok (ds, rest) := by
  obtain ⟨hne, hall⟩ := h
  unfold digits
  rw [takeWhile_append_of_endsAt hall hr, dropWhile_append_of_endsAt hall hr]
  split
  · exact absurd rfl hne
  · rfl

theorem wholePart_append (h : IsWhole whole) (hr : EndsAt Char.isDigit rest) :
    wholePart (whole ++ rest) = .ok (whole, rest) := by
  rcases h with rfl | ⟨hds, hzero⟩
  · cases rest with
    | nil => rfl
    | cons c rest => simp [wholePart, hr c rfl]
  · unfold wholePart
    split
    · next tail htext =>
      cases whole with
      | nil => exact absurd rfl hds.1
      | cons c ds =>
        obtain rfl := (List.cons.inj htext).1
        exact absurd rfl hzero
    · exact digits_append hds hr

theorem fractionPart_append (h : IsFraction fraction) (hr : EndsAt Char.isDigit rest)
    (hpoint : EndsAt (· == '.') rest) :
    fractionPart (fraction ++ rest) = .ok (fraction, rest) := by
  rcases h with rfl | ⟨ds, hds, rfl⟩
  · unfold fractionPart
    split
    · next tail htext =>
      cases htext
      exact absurd (hpoint '.' rfl) (by decide)
    · rfl
  · rw [List.cons_append, fractionPart, digits_append hds hr]
    rfl

theorem exponentPart_append (h : IsExponent exponent) (hr : EndsAt Char.isDigit rest)
    (hname : EndsAt isNameStart rest) :
    exponentPart (exponent ++ rest) = .ok (exponent, rest) := by
  rcases h with rfl | ⟨letter, ds, hletter, hds, rfl | ⟨s, hs, rfl⟩⟩
  · cases rest with
    | nil => rfl
    | cons c rest =>
      have hc : ¬(c = 'e' ∨ c = 'E') := by
        rintro (rfl | rfl)
        · exact absurd (hname _ rfl) (by decide)
        · exact absurd (hname _ rfl) (by decide)
      simp [exponentPart, hc]
  · have hd := digits_append hds hr
    cases ds with
    | nil => exact absurd rfl hds.1
    | cons d ds =>
      -- what follows the letter is a digit and no sign
      have hsign : ¬(d = '+' ∨ d = '-') := by
        have hdigit := hds.2 d (List.mem_cons_self ..)
        rintro (rfl | rfl)
        · exact absurd hdigit (by decide)
        · exact absurd hdigit (by decide)
      rw [List.cons_append] at hd
      simp only [List.cons_append, exponentPart, hletter, hsign, if_true, if_false, hd]
      rfl
  · simp only [List.cons_append, exponentPart, hletter, hs, if_true, digits_append hds hr]
    rfl

theorem sign_append {minus : List Char} (hminus : IsMinus minus) (hwhole : IsWhole whole)
    (rest : List Char) : sign (minus ++ (whole ++ rest)) = (minus, whole ++ rest) := by
  rcases hminus with rfl | rfl
  · obtain ⟨c, ds, hc, rfl⟩ := hwhole.exists_digit
    unfold sign
    split
    · next tail htext =>
      obtain rfl := (List.cons.inj htext).1
      exact absurd hc (by decide)
    · rfl
  · rfl

/-- A numeral is read in full, whatever it is followed by that is not part of it. -/
theorem numeral_append {minus : List Char} (hminus : IsMinus minus) (hwhole : IsWhole whole)
    (hfraction : IsFraction fraction) (hexponent : IsExponent exponent) (hr : Stops rest) :
    numeral (minus ++ whole ++ fraction ++ exponent ++ rest) =
      .ok (if fraction.isEmpty && exponent.isEmpty
        then .int (String.ofList (minus ++ whole ++ fraction ++ exponent))
        else .float (String.ofList (minus ++ whole ++ fraction ++ exponent)), rest) := by
  have hdigit : EndsAt Char.isDigit rest := hr.endsAt (by decide)
  have hname : EndsAt isNameStart rest := hr.endsAt (by decide)
  have hends : endsNumeral rest = true := by
    cases rest with
    | nil => rfl
    | cons c rest => rcases hr c rfl with rfl | rfl | rfl | rfl <;> rfl
  have htail : EndsAt Char.isDigit (exponent ++ rest) :=
    (hexponent.endsAt (by decide)).append hdigit
  have hpoint : EndsAt (· == '.') (exponent ++ rest) :=
    (hexponent.endsAt (by decide)).append (hr.endsAt (by decide))
  have hafter : EndsAt Char.isDigit (fraction ++ (exponent ++ rest)) :=
    (hfraction.endsAt (by decide)).append htail
  have hsign := sign_append hminus hwhole (fraction ++ (exponent ++ rest))
  have hw := wholePart_append hwhole hafter
  have hf := fractionPart_append hfraction htail hpoint
  have he := exponentPart_append hexponent hdigit hname
  simp only [List.append_assoc] at hsign ⊢
  simp only [numeral, hsign, hw, hf, he, bind, Except.bind, hends, if_true, pure, Except.pure,
    List.append_assoc]

end Numerals

/-! ## Quoted strings -/

section Strings

theorem scalar?_toNat (c : Char) : scalar? c.toNat = some c := by
  have hvalid : c.toNat.isValidChar := c.valid
  rw [scalar?, dif_pos hvalid]
  rfl

theorem hexValue?_hexDigit (n : Nat) (h : n < 16) : hexValue? (Text.hexDigit n) = some n := by
  revert n
  decide

theorem fixedEscape?_hexDigit {c : Char} (hc : c.toNat < 32) (rest : List Char) :
    fixedEscape? ('0' :: '0' :: Text.hexDigit (c.toNat / 16) :: Text.hexDigit (c.toNat % 16) ::
      rest) = some (c, rest) := by
  have hhigh := hexValue?_hexDigit (c.toNat / 16) (by omega)
  have hlow := hexValue?_hexDigit (c.toNat % 16) (by omega)
  have hzero : hexValue? '0' = some 0 := by decide
  have hpoint : ((0 * 16 + 0) * 16 + c.toNat / 16) * 16 + c.toNat % 16 = c.toNat := by omega
  simp only [fixedEscape?, fourDigits?, hzero, hhigh, hlow, Option.bind_eq_bind, Option.bind_some,
    Option.pure_def, hpoint, scalar?_toNat]

theorem escape_letter {letter c : Char} (hu : letter ≠ 'u') (hl : letterEscape? letter = some c)
    (text : List Char) : escape (letter :: text) = .ok (c, text) := by
  rw [escape.eq_3 _ _ (fun _ h => absurd h hu) hu, hl]

theorem escape_hexDigit {c : Char} (hc : c.toNat < 32) (text : List Char) :
    escape ('u' :: '0' :: '0' :: Text.hexDigit (c.toNat / 16) :: Text.hexDigit (c.toNat % 16) ::
      text) = .ok (c, text) := by
  have hbrace : ∀ tail, '0' :: '0' :: Text.hexDigit (c.toNat / 16) ::
      Text.hexDigit (c.toNat % 16) :: text ≠ '\x7b' :: tail := by
    intro tail he
    exact absurd (List.cons.inj he).1 (by decide)
  rw [escape.eq_2 _ hbrace, fixedEscape?_hexDigit hc]

theorem stringBody_backslash {c : Char} {text after body rest : List Char}
    (he : escape text = .ok (c, after)) (hb : stringBody after = .ok (body, rest)) :
    stringBody ('\\' :: text) = .ok (c :: body, rest) := by
  rw [stringBody, if_neg (by decide), if_neg (by decide), if_pos rfl]
  split
  · next herror => rw [he] at herror; cases herror
  · next character after' hok =>
    rw [he] at hok
    cases hok
    rw [hb]

theorem stringBody_plain {c : Char} {text body rest : List Char} (hquote : c ≠ '"')
    (hbackslash : c ≠ '\\') (hline : ¬(c = '\n' ∨ c = '\r'))
    (hb : stringBody text = .ok (body, rest)) :
    stringBody (c :: text) = .ok (c :: body, rest) := by
  rw [stringBody, if_neg hquote, if_neg hline, if_neg hbackslash, hb]

/-- A character is read from the way in which it is written. -/
theorem stringBody_cons (c : Char) {text body rest : List Char}
    (hb : stringBody text = .ok (body, rest)) :
    stringBody (Text.escape c ++ text) = .ok (c :: body, rest) := by
  have hletter : ∀ letter character, letter ≠ 'u' → letterEscape? letter = some character →
      stringBody ('\\' :: letter :: text) = .ok (character :: body, rest) :=
    fun letter character hu hl => stringBody_backslash (escape_letter hu hl text) hb
  unfold Text.escape
  split_ifs with hquote hbackslash hback hfeed hn hr htab hcontrol
  · exact hquote ▸ hletter '"' '"' (by decide) rfl
  · exact hbackslash ▸ hletter '\\' '\\' (by decide) rfl
  · exact hback ▸ hletter 'b' '\x08' (by decide) rfl
  · exact hfeed ▸ hletter 'f' '\x0c' (by decide) rfl
  · exact hn ▸ hletter 'n' '\n' (by decide) rfl
  · exact hr ▸ hletter 'r' '\r' (by decide) rfl
  · exact htab ▸ hletter 't' '\t' (by decide) rfl
  · exact stringBody_backslash (escape_hexDigit hcontrol text) hb
  · exact stringBody_plain hquote hbackslash (fun hline => hline.elim hn hr) hb

/-- A string is read back from its characters as they are written, up to its closing quote. -/
theorem stringBody_escape (body rest : List Char) :
    stringBody (body.flatMap Text.escape ++ '"' :: rest) = .ok (body, rest) := by
  induction body with
  | nil => rw [List.flatMap_nil, List.nil_append, stringBody, if_pos rfl]
  | cons c body ih =>
    rw [List.flatMap_cons, List.append_assoc]
    exact stringBody_cons c ih

/-- A written character does not start with a quote. -/
theorem escape_eq_cons (c : Char) : ∃ d tail, Text.escape c = d :: tail ∧ d ≠ '"' := by
  unfold Text.escape
  repeat' split
  all_goals exact ⟨_, _, rfl, by first | decide | assumption⟩

theorem quoted_escape (body : List Char) {rest : List Char} (hr : Stops rest) :
    quoted (body.flatMap Text.escape ++ '"' :: rest) =
      .read (.string (String.ofList body)) rest := by
  have hblock : ∀ raw, body.flatMap Text.escape ++ '"' :: rest ≠ '"' :: '"' :: raw := by
    intro raw he
    cases body with
    | nil =>
      have hstop := hr '"' (by rw [(List.cons.inj he).2]; rfl)
      revert hstop
      decide
    | cons c body =>
      obtain ⟨d, tail, hescape, hd⟩ := escape_eq_cons c
      rw [List.flatMap_cons, hescape] at he
      exact hd (List.cons.inj he).1
  unfold quoted
  split
  · next he => exact absurd he (hblock _)
  · rw [stringBody_escape]
    rfl

end Strings

/-! ## One token -/

/-- Whether a text is a name of query text: a letter or an underscore, and letters, digits and
underscores. -/
def isIdentifier (text : String) : Bool :=
  match text.toList with
  | c :: rest => isNameStart c && rest.all isNamePart
  | [] => false

theorem exists_of_isIdentifier {text : String} (h : isIdentifier text = true) :
    ∃ c rest, text.toList = c :: rest ∧ isNameStart c = true ∧ ∀ d ∈ rest, isNamePart d = true := by
  unfold isIdentifier at h
  split at h
  · next c rest htext =>
    rw [Bool.and_eq_true, List.all_eq_true] at h
    exact ⟨c, rest, htext, h.1, h.2⟩
  · cases h

/-- The characters that are skipped, or that start a comment, a string or a spread. -/
def markers : List Char := ['\uFEFF', '\t', ' ', '\n', '\r', ',', '#', '"', '.']

/-- Every other character starts a name, a numeral or a punctuator. -/
theorem scan_cons {c : Char} (h : c ∉ markers) (rest : List Char) :
    scan (c :: rest) =
      if isNameStart c then
        .read (.name (String.ofList (c :: rest.takeWhile isNamePart))) (rest.dropWhile isNamePart)
      else if c.isDigit ∨ c = '-' then ofExcept (numeral (c :: rest))
      else
        match punctuator? c with
        | some p => .read (.punct p) rest
        | none => .flawed (if c = '\'' then .singleQuote else .unexpectedCharacter c) := by
  simp only [markers, List.mem_cons, List.not_mem_nil, or_false, not_or] at h
  obtain ⟨h₁, h₂, h₃, h₄, h₅, h₆, hhash, hquote, hspread⟩ := h
  have hignored : isIgnored c = false := by simp [isIgnored, h₁, h₂, h₃, h₄, h₅, h₆]
  rw [scan.eq_3 _ _ fun _ hc => absurd hc hspread, hignored, if_neg hhash, if_neg hquote]
  rfl

theorem scan_name {c : Char} {text rest : List Char} (hc : isNameStart c = true)
    (htext : ∀ d ∈ text, isNamePart d = true) (hr : EndsAt isNamePart rest) :
    scan (c :: text ++ rest) = .read (.name (String.ofList (c :: text))) rest := by
  have hmarkers : (markers.all fun d => !isNameStart d) = true := by decide
  have hmarker : c ∉ markers := by
    intro hm
    have hnot := List.all_eq_true.mp hmarkers c hm
    rw [hc] at hnot
    cases hnot
  rw [List.cons_append, scan_cons hmarker, if_pos hc, takeWhile_append_of_endsAt htext hr,
    dropWhile_append_of_endsAt htext hr]

theorem scan_of_numeral {c : Char} {text rest : List Char} {token : Token}
    (hc : c.isDigit = true ∨ c = '-') (h : numeral (c :: text) = .ok (token, rest)) :
    scan (c :: text) = .read token rest := by
  have hmarkers : (markers.all fun d => !(d.isDigit || d == '-')) = true := by decide
  have hmarker : c ∉ markers := by
    intro hm
    have hnot := List.all_eq_true.mp hmarkers c hm
    rcases hc with hc | rfl
    · rw [hc] at hnot
      cases hnot
    · cases hnot
  have hname : isNameStart c = false := by
    rcases hc with hc | rfl
    · cases hn : isNameStart c with
      | false => rfl
      | true =>
        rw [isDigit_of_isNameStart hn] at hc
        cases hc
    · decide
  rw [scan_cons hmarker, if_neg (by simp [hname]), if_pos hc, h]
  rfl

theorem scan_numeral {minus whole fraction exponent rest : List Char} (hminus : IsMinus minus)
    (hwhole : IsWhole whole) (hfraction : IsFraction fraction) (hexponent : IsExponent exponent)
    (hr : Stops rest) :
    scan (minus ++ whole ++ fraction ++ exponent ++ rest) =
      .read (if fraction.isEmpty && exponent.isEmpty
        then .int (String.ofList (minus ++ whole ++ fraction ++ exponent))
        else .float (String.ofList (minus ++ whole ++ fraction ++ exponent))) rest := by
  have h := numeral_append hminus hwhole hfraction hexponent hr
  rcases hminus with rfl | rfl
  · obtain ⟨c, ds, hc, rfl⟩ := hwhole.exists_digit
    exact scan_of_numeral (Or.inl hc) h
  · exact scan_of_numeral (Or.inr rfl) h

theorem scan_quote (body : List Char) {rest : List Char} (hr : Stops rest) :
    scan ('"' :: body.flatMap Text.escape ++ ['"'] ++ rest) =
      .read (.string (String.ofList body)) rest := by
  rw [List.append_assoc, List.cons_append, List.singleton_append, scan.eq_3 _ _ (by simp)]
  exact quoted_escape body hr

/-! ## Texts -/

/-- Puts tokens in front of others. -/
def Tokens.append (front : List Token) (rest : Tokens) : Tokens :=
  { rest with ahead := front ++ rest.ahead }

/-- A text reads as some tokens, whatever it is followed by that stops them. -/
def Spells (text : List Char) (front : List Token) : Prop :=
  ∀ rest, Stops rest → tokens (text ++ rest) = (tokens rest).append front

theorem tokens_of_read {text rest : List Char} {token : Token} (h : scan text = .read token rest) :
    tokens text = (tokens rest).append [token] := by
  rw [tokens]
  split
  · next h' => rw [h] at h'; cases h'
  · next h' => rw [h] at h'; cases h'
  · next h' => rw [h] at h'; cases h'; rfl
  · next h' => rw [h] at h'; cases h'

theorem tokens_of_skipped {text rest : List Char} (h : scan text = .skipped rest) :
    tokens text = tokens rest := by
  rw [tokens]
  split
  · next h' => rw [h] at h'; cases h'
  · next h' => rw [h] at h'; cases h'; rfl
  · next h' => rw [h] at h'; cases h'
  · next h' => rw [h] at h'; cases h'

theorem tokens_nil : tokens [] = ⟨[], none⟩ := by
  rw [tokens]
  rfl

/-- A name ends where no character of a name follows. -/
theorem tokens_name {written : String} {rest : List Char} (h : isIdentifier written = true)
    (hr : EndsAt isNamePart rest) :
    tokens (written.toList ++ rest) = (tokens rest).append [.name written] := by
  obtain ⟨c, text, hwritten, hc, htext⟩ := exists_of_isIdentifier h
  obtain rfl : written = String.ofList (c :: text) := by rw [← hwritten, String.ofList_toList]
  rw [String.toList_ofList]
  exact tokens_of_read (scan_name hc htext hr)

theorem Tokens.append_append (front middle : List Token) (rest : Tokens) :
    (rest.append middle).append front = rest.append (front ++ middle) := by
  simp [Tokens.append]

namespace Spells

variable {text text' : List Char} {front front' : List Token}

theorem one {token : Token} (h : ∀ rest, Stops rest → scan (text ++ rest) = .read token rest) :
    Spells text [token] :=
  fun rest hr => tokens_of_read (h rest hr)

theorem name {written : String} (h : isIdentifier written = true) :
    Spells written.toList [.name written] :=
  fun _ hr => tokens_name h (hr.endsAt (by decide))

theorem quote (s : String) : Spells (Text.quote s).toList [.string s] := by
  rw [Text.quote, String.toList_ofList]
  refine one fun rest hr => ?_
  rw [scan_quote s.toList hr, String.ofList_toList]

theorem intNumeral {numeral : String} (h : IsIntNumeral numeral) :
    Spells numeral.toList [.int numeral] := by
  obtain ⟨minus, whole, hminus, hwhole, rfl⟩ := h
  rw [String.toList_ofList]
  refine one fun rest hr => ?_
  simpa using scan_numeral hminus hwhole (Or.inl rfl) (Or.inl rfl) hr

theorem floatNumeral {numeral : String} (h : IsFloatNumeral numeral) :
    Spells numeral.toList [.float numeral] := by
  obtain ⟨minus, whole, fraction, exponent, hminus, hwhole, hfraction, hexponent, hne, rfl⟩ := h
  have hempty : (fraction.isEmpty && exponent.isEmpty) = false := by
    cases fraction with
    | nil =>
      cases exponent with
      | nil => exact absurd rfl hne
      | cons _ _ => rfl
    | cons _ _ => rfl
  rw [String.toList_ofList]
  refine one fun rest hr => ?_
  rw [scan_numeral hminus hwhole hfraction hexponent hr, hempty]
  rfl

/-! ### Sequences -/

theorem nil : Spells [] [] := fun _ _ => rfl

/-- Between texts there is a separator that is skipped. -/
theorem append_separated (h : Spells text front) (h' : Spells text' front') :
    Spells (text ++ (',' :: ' ' :: text')) (front ++ front') := by
  intro rest hr
  have hcomma : Stops (',' :: ' ' :: text' ++ rest) := fun c hc => Or.inl (Option.some.inj hc).symm
  have hskip : tokens (',' :: ' ' :: text' ++ rest) = tokens (text' ++ rest) :=
    (tokens_of_skipped rfl).trans (tokens_of_skipped rfl)
  rw [List.append_assoc, h _ hcomma, hskip, h' rest hr, Tokens.append_append]

/-- A punctuator needs nothing to stop it. -/
theorem punct_cons {c : Char} {p : Punctuator}
    (hc : ∀ rest, scan (c :: rest) = .read (.punct p) rest) (h : Spells text front) :
    Spells (c :: text) (.punct p :: front) := by
  intro rest hr
  rw [List.cons_append, tokens_of_read (hc _), h rest hr, Tokens.append_append]
  rfl

/-- Separated texts between two punctuators, the second of which stops the last text. -/
theorem closed {c : Char} {p : Punctuator}
    (hc : ∀ rest, scan (c :: rest) = .read (.punct p) rest) (hstop : c = ']' ∨ c = '\x7d')
    (h : Spells text front) :
    Spells (text ++ [c]) (front ++ [.punct p]) := by
  intro rest _
  have hclose : Stops (c :: rest) := fun d hd => by
    obtain rfl := Option.some.inj hd
    exact Or.inr (Or.inr hstop)
  rw [List.append_assoc, List.singleton_append, h _ hclose, tokens_of_read (hc rest),
    Tokens.append_append]

/-- Texts with separators between them. -/
theorem separated {texts : List (List Char)} {fronts : List (List Token)}
    (h : List.Forall₂ Spells texts fronts) :
    Spells ([',', ' '].intercalate texts) fronts.flatten := by
  induction h with
  | nil => exact nil
  | cons h ht ih =>
    rw [List.flatten_cons]
    cases ht with
    | nil => simpa using h
    | cons h' ht' =>
      rw [List.intercalate_cons_cons, List.append_assoc]
      exact h.append_separated ih

/-- A colon ends a name, and the space after it is skipped. -/
theorem append_colon (h : Spells text front) (h' : Spells text' front') :
    Spells (text ++ (':' :: ' ' :: text')) (front ++ .punct .colon :: front') := by
  intro rest hr
  have hcolon : Stops (':' :: ' ' :: text' ++ rest) :=
    fun c hc => Or.inr (Or.inl (Option.some.inj hc).symm)
  have hread : tokens (':' :: ' ' :: text' ++ rest) =
      (tokens (' ' :: text' ++ rest)).append [.punct .colon] := tokens_of_read rfl
  have hskip : tokens (' ' :: text' ++ rest) = tokens (text' ++ rest) := tokens_of_skipped rfl
  rw [List.append_assoc, h _ hcolon, hread, hskip, h' rest hr, Tokens.append_append,
    Tokens.append_append]
  simp

end Spells

end TypedQuery.Query
