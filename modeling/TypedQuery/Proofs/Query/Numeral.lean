import TypedQuery.Proofs.Number.Integral
import TypedQuery.Query.Scan

/-!
# Numerals of query text

A numeral of query text is a sign or none, digits, and a fraction and an exponent or none. It names
a number or an infinity. A scan reads as integers nothing but integer tokens: what follows the
digits of an integer is no fraction and no exponent.

* `IsIntNumeral`, `IsFloatNumeral`, `IsNumeral`: the numerals of query text;
* `exists_ofDecimal`, `ofNumeral_ne_nan`: what they name;
* `digits_sound`, `wholePart_sound`: one digit or more;
* `isIntegerToken_of_numeral`, `isIntegerToken_of_scan`: one token;
* `scan_read_cases`, `forall_mem_tokens`: what one step of a scan reads, and what all of them read;
* `isIntegerToken_of_mem_tokens`: all tokens of a text.
-/

namespace TypedQuery.Query

/-! ## Forms of numerals -/

section Ahead

variable {p : Char → Bool} {front rest : List Char}

/-- A text does not go on with a character of a class. -/
def EndsAt (p : Char → Bool) (rest : List Char) : Prop := ∀ c, rest.head? = some c → p c = false

theorem takeWhile_append_of_endsAt (h : ∀ c ∈ front, p c = true) (hr : EndsAt p rest) :
    (front ++ rest).takeWhile p = front := by
  rw [List.takeWhile_append_of_pos h]
  cases rest with
  | nil => simp
  | cons c rest => simp [hr c rfl]

theorem dropWhile_append_of_endsAt (h : ∀ c ∈ front, p c = true) (hr : EndsAt p rest) :
    (front ++ rest).dropWhile p = rest := by
  rw [List.dropWhile_append_of_pos h]
  cases rest with
  | nil => rfl
  | cons c rest => simp [hr c rfl]

theorem EndsAt.append (hfront : EndsAt p front) (hrest : EndsAt p rest) :
    EndsAt p (front ++ rest) := by
  cases front with
  | nil => exact hrest
  | cons c front => exact hfront

end Ahead

def AreDigits (ds : List Char) : Prop := ds ≠ [] ∧ ∀ c ∈ ds, c.isDigit = true

/-- A zero, or digits that do not start with one. -/
def IsWhole (whole : List Char) : Prop := whole = ['0'] ∨ AreDigits whole ∧ whole.head? ≠ some '0'

/-- Nothing, or digits after a point. -/
def IsFraction (fraction : List Char) : Prop :=
  fraction = [] ∨ ∃ ds, AreDigits ds ∧ fraction = '.' :: ds

/-- Nothing, or digits after a letter and a sign or none. -/
def IsExponent (exponent : List Char) : Prop :=
  exponent = [] ∨ ∃ letter ds, (letter = 'e' ∨ letter = 'E') ∧ AreDigits ds ∧
    (exponent = letter :: ds ∨ ∃ s, (s = '+' ∨ s = '-') ∧ exponent = letter :: s :: ds)

def IsMinus (minus : List Char) : Prop := minus = [] ∨ minus = ['-']

/-- An integer as query text has it. -/
def IsIntNumeral (text : String) : Prop :=
  ∃ minus whole, IsMinus minus ∧ IsWhole whole ∧ text = String.ofList (minus ++ whole)

/-- A numeral with a fraction or an exponent, as query text has it. -/
def IsFloatNumeral (text : String) : Prop :=
  ∃ minus whole fraction exponent, IsMinus minus ∧ IsWhole whole ∧ IsFraction fraction ∧
    IsExponent exponent ∧ fraction ++ exponent ≠ [] ∧
    text = String.ofList (minus ++ whole ++ fraction ++ exponent)

def IsNumeral (text : String) : Prop := IsIntNumeral text ∨ IsFloatNumeral text

section Forms

variable {whole fraction exponent : List Char}

theorem IsFraction.endsAt (h : IsFraction fraction) {p : Char → Bool} (hp : p '.' = false) :
    EndsAt p fraction := by
  intro c hc
  rcases h with rfl | ⟨ds, _, rfl⟩
  · cases hc
  · obtain rfl := Option.some.inj hc
    exact hp

theorem IsExponent.endsAt (h : IsExponent exponent) {p : Char → Bool}
    (hp : p 'e' = false ∧ p 'E' = false) : EndsAt p exponent := by
  intro c hc
  rcases h with rfl | ⟨letter, ds, hletter, _, hexponent⟩
  · cases hc
  · have hhead : exponent.head? = some letter := by
      rcases hexponent with rfl | ⟨s, _, rfl⟩ <;> rfl
    obtain rfl := Option.some.inj (hhead.symm.trans hc)
    rcases hletter with rfl | rfl
    · exact hp.1
    · exact hp.2

/-- A whole part starts with a digit. -/
theorem IsWhole.exists_digit (h : IsWhole whole) :
    ∃ c ds, c.isDigit = true ∧ whole = c :: ds := by
  rcases h with rfl | ⟨⟨hne, hall⟩, _⟩
  · exact ⟨'0', [], by decide, rfl⟩
  · cases whole with
    | nil => exact absurd rfl hne
    | cons c ds => exact ⟨c, ds, hall c (List.mem_cons_self ..), rfl⟩

end Forms

/-! ## What numerals name -/

section Named

variable {whole fraction exponent : List Char} {text : String}

theorem AreDigits.fits {ds : List Char} (h : AreDigits ds) :
    ∀ c ∈ ds, Number.isNumeralCharacter c = true :=
  fun c hc => by simp [Number.isNumeralCharacter, h.2 c hc]

theorem IsWhole.areDigits (h : IsWhole whole) : AreDigits whole := by
  rcases h with rfl | ⟨hdigits, -⟩
  · exact ⟨List.cons_ne_nil _ _, List.forall_mem_singleton.mpr (by decide)⟩
  · exact hdigits

theorem IsFraction.fits (h : IsFraction fraction) :
    ∀ c ∈ fraction, Number.isNumeralCharacter c = true := by
  rcases h with rfl | ⟨ds, hds, rfl⟩
  · exact fun c hc => absurd hc List.not_mem_nil
  · exact List.forall_mem_cons.mpr ⟨by decide, hds.fits⟩

theorem IsExponent.fits (h : IsExponent exponent) :
    ∀ c ∈ exponent, Number.isNumeralCharacter c = true := by
  rcases h with rfl | ⟨letter, ds, hletter, hds, hexponent⟩
  · exact fun c hc => absurd hc List.not_mem_nil
  · have hfirst : Number.isNumeralCharacter letter = true := by
      rcases hletter with rfl | rfl <;> decide
    rcases hexponent with rfl | ⟨s, hs, rfl⟩
    · exact List.forall_mem_cons.mpr ⟨hfirst, hds.fits⟩
    · have hsign : Number.isNumeralCharacter s = true := by
        rcases hs with rfl | rfl <;> decide
      exact List.forall_mem_cons.mpr ⟨hfirst, List.forall_mem_cons.mpr ⟨hsign, hds.fits⟩⟩

theorem exists_wholeOf? {ds : List Char} (h : AreDigits ds) :
    ∃ n, Number.wholeOf? ds = some n :=
  ⟨_, if_pos ⟨h.1, List.all_eq_true.mpr h.2⟩⟩

theorem exists_exponentOf? (h : IsExponent exponent) :
    ∃ e, Number.exponentOf? exponent = some e := by
  rcases h with rfl | ⟨letter, ds, hletter, hds, rfl | ⟨s, hs, rfl⟩⟩
  · exact ⟨0, rfl⟩
  · obtain ⟨n, hn⟩ := exists_wholeOf? hds
    obtain ⟨d, rest, rfl⟩ := List.exists_cons_of_ne_nil hds.1
    have hd := hds.2 d (List.mem_cons_self ..)
    refine ⟨n, ?_⟩
    rw [Number.exponentOf?, if_pos hletter]
    · exact hn
    · exact fun _ heq => Number.ne_of_isDigit hd (by decide) (List.cons.inj heq).1
    · exact fun _ heq => Number.ne_of_isDigit hd (by decide) (List.cons.inj heq).1
  · obtain ⟨n, hn⟩ := exists_wholeOf? hds
    rcases hs with rfl | rfl
    · exact ⟨n, by simp [Number.exponentOf?, hletter, hn]⟩
    · exact ⟨-n, by simp [Number.exponentOf?, hletter, hn]⟩

/-- Digits, a fraction and an exponent name a decimal. -/
theorem ofUnsigned_eq (hwhole : AreDigits whole) (hfraction : IsFraction fraction)
    (hexponent : IsExponent exponent) (negative : Bool) :
    ∃ digits e, Number.ofUnsigned negative (whole ++ (fraction ++ exponent)) =
      .ofDecimal negative digits e := by
  obtain ⟨e, he⟩ := exists_exponentOf? hexponent
  have htail : EndsAt Char.isDigit exponent := hexponent.endsAt (by decide)
  have hspan : Number.spanDigits (whole ++ (fraction ++ exponent)) =
      (whole, fraction ++ exponent) := by
    have hafter := (hfraction.endsAt (by decide)).append htail
    rw [Number.spanDigits, takeWhile_append_of_endsAt hwhole.2 hafter,
      dropWhile_append_of_endsAt hwhole.2 hafter]
  rcases hfraction with rfl | ⟨ds, hds, rfl⟩
  · have hpoint : ∀ rest, exponent ≠ '.' :: rest := by
      rintro rest rfl
      exact absurd (hexponent.endsAt (p := (· == '.')) (by decide) '.' rfl) (by decide)
    refine ⟨Number.ofDigits whole, e, ?_⟩
    rw [Number.ofUnsigned, hspan, List.nil_append]
    simp [he, hwhole.1]
  · have hspan' : Number.spanDigits (ds ++ exponent) = (ds, exponent) := by
      rw [Number.spanDigits, takeWhile_append_of_endsAt hds.2 htail,
        dropWhile_append_of_endsAt hds.2 htail]
    refine ⟨Number.ofDigits (whole ++ ds), e - ds.length, ?_⟩
    rw [Number.ofUnsigned, hspan]
    simp [hspan', he, hwhole.1]

/-- A numeral of query text names a decimal. -/
theorem exists_ofDecimal (h : IsNumeral text) :
    ∃ negative digits e, Number.ofNumeral text = .ofDecimal negative digits e := by
  obtain ⟨minus, whole, fraction, exponent, hminus, hwhole, hfraction, hexponent, htext⟩ :
      ∃ minus whole fraction exponent, IsMinus minus ∧ IsWhole whole ∧ IsFraction fraction ∧
        IsExponent exponent ∧ text.toList = minus ++ (whole ++ (fraction ++ exponent)) := by
    rcases h with ⟨minus, whole, hminus, hwhole, rfl⟩ |
      ⟨minus, whole, fraction, exponent, hminus, hwhole, hfraction, hexponent, -, rfl⟩
    · exact ⟨minus, whole, [], [], hminus, hwhole, .inl rfl, .inl rfl, by simp⟩
    · exact ⟨minus, whole, fraction, exponent, hminus, hwhole, hfraction, hexponent, by simp⟩
  have hfits : ∀ c ∈ text.toList, Number.isNumeralCharacter c = true := by
    rw [htext]
    simp only [List.forall_mem_append]
    refine ⟨?_, hwhole.areDigits.fits, hfraction.fits, hexponent.fits⟩
    rcases hminus with rfl | rfl
    · exact fun c hc => absurd hc List.not_mem_nil
    · exact List.forall_mem_singleton.mpr (by decide)
  obtain ⟨c, ds, hc, rfl⟩ := hwhole.exists_digit
  have hsigned := Number.ofSigned_of_isDigit hc (ds ++ (fraction ++ exponent))
  have hne : text ≠ "" := by
    rintro rfl
    simp at htext
  rw [Number.ofNumeral_eq_ofSigned hne hfits, htext]
  rcases hminus with rfl | rfl
  · exact ⟨false, hsigned.1 ▸ ofUnsigned_eq hwhole.areDigits hfraction hexponent false⟩
  · exact ⟨true, hsigned.2 ▸ ofUnsigned_eq hwhole.areDigits hfraction hexponent true⟩

theorem ofNumeral_ne_nan (h : IsNumeral text) : Number.ofNumeral text ≠ .nan := by
  obtain ⟨negative, digits, e, hnumber⟩ := exists_ofDecimal h
  exact hnumber ▸ Number.ofDecimal_ne_nan negative digits e

end Named

/-! ## Reading digits -/

variable {text rest : List Char}

theorem digits_sound {ds : List Char} (h : digits text = .ok (ds, rest)) :
    ds ≠ [] ∧ ∀ c ∈ ds, c.isDigit = true := by
  unfold digits at h
  split at h
  · cases h
  · next hne =>
    cases h
    exact ⟨hne, fun c hc => List.mem_takeWhile_imp hc⟩

theorem wholePart_sound {ds : List Char} (h : wholePart text = .ok (ds, rest)) :
    ds ≠ [] ∧ ∀ c ∈ ds, c.isDigit = true := by
  have hzero : ['0'] ≠ [] ∧ ∀ c ∈ ['0'], c.isDigit = true :=
    ⟨List.cons_ne_nil _ _, fun c hc => List.mem_singleton.mp hc ▸ rfl⟩
  unfold wholePart at h
  split at h
  · split at h
    · split at h
      · cases h
      · cases h
        exact hzero
    · cases h
      exact hzero
  · exact digits_sound h

theorem sign_cases (text : List Char) : (sign text).1 = [] ∨ (sign text).1 = ['-'] := by
  unfold sign
  split
  · exact Or.inr rfl
  · exact Or.inl rfl

/-- A numeral is a sign or none, a whole part, and a fraction and an exponent; it is an integer if
both are empty. -/
theorem numeral_cases {token : Token} (h : numeral text = .ok (token, rest)) :
    ∃ whole after fraction exponent, wholePart (sign text).2 = .ok (whole, after) ∧
      token = if List.isEmpty fraction && List.isEmpty exponent
        then .int (String.ofList ((sign text).1 ++ whole ++ fraction ++ exponent))
        else .float (String.ofList ((sign text).1 ++ whole ++ fraction ++ exponent)) := by
  unfold numeral at h
  generalize sign text = s at h ⊢
  obtain ⟨minus, unsigned⟩ := s
  cases hw : wholePart unsigned with
  | error e => simp [hw, bind, Except.bind] at h
  | ok w =>
    obtain ⟨whole, afterWhole⟩ := w
    cases hf : fractionPart afterWhole with
    | error e => simp [hw, hf, bind, Except.bind] at h
    | ok f =>
      obtain ⟨fraction, afterFraction⟩ := f
      cases he : exponentPart afterFraction with
      | error e => simp [hw, hf, he, bind, Except.bind] at h
      | ok e =>
        obtain ⟨exponent, last⟩ := e
        simp only [hw, hf, he, bind, Except.bind] at h
        split at h
        · simp only [pure, Except.pure, Except.ok.injEq, Prod.mk.injEq] at h
          exact ⟨whole, afterWhole, fraction, exponent, rfl, h.1.symm⟩
        · cases h

/-- What is read as an integer is an integer token. -/
theorem isIntegerToken_of_numeral {written : String}
    (h : numeral text = .ok (.int written, rest)) : Number.IsIntegerToken written := by
  obtain ⟨whole, after, fraction, exponent, hw, htoken⟩ := numeral_cases h
  obtain ⟨hne, hdigits⟩ := wholePart_sound hw
  split at htoken
  · next hempty =>
    simp only [Bool.and_eq_true, List.isEmpty_iff] at hempty
    obtain ⟨rfl, rfl⟩ := hempty
    obtain rfl := Token.int.inj htoken
    refine ⟨whole, hne, hdigits, ?_⟩
    rcases sign_cases text with hs | hs
    · exact Or.inl (by simp [hs])
    · exact Or.inr (by simp [hs])
  · cases htoken

/-! ## Tokens -/

/-- What one step reads: a punctuator, a string, a name, or a numeral. -/
theorem scan_read_cases {token : Token} (h : scan text = .read token rest) :
    (∃ p, token = .punct p) ∨ (∃ written, token = .string written ∨ token = .blockString written) ∨
      (∃ (c : Char) (tail : List Char), isNameStart c = true ∧
        token = .name (String.ofList (c :: tail.takeWhile isNamePart))) ∨
      numeral text = .ok (token, rest) := by
  unfold scan at h
  split at h
  · cases h
  · cases h
    exact Or.inl ⟨_, rfl⟩
  · next c tail _ =>
    split at h
    · cases h
    split at h
    · cases h
    split at h
    · refine Or.inr (Or.inl ?_)
      unfold quoted at h
      split at h
      · split at h
        · cases h
          exact ⟨_, Or.inr rfl⟩
        · cases h
      · cases hs : stringBody tail with
        | error e => rw [hs] at h; cases h
        | ok r =>
          rw [hs] at h
          cases h
          exact ⟨_, Or.inl rfl⟩
    split at h
    · next hc =>
      cases h
      exact Or.inr (Or.inr (Or.inl ⟨c, tail, hc, rfl⟩))
    split at h
    · cases hn : numeral (c :: tail) with
      | error e => rw [hn] at h; cases h
      | ok r =>
        rw [hn] at h
        cases h
        exact Or.inr (Or.inr (Or.inr rfl))
    · cases hp : punctuator? c with
      | none => rw [hp] at h; cases h
      | some p =>
        rw [hp] at h
        cases h
        exact Or.inl ⟨p, rfl⟩

/-- What holds of whatever one step reads holds of all tokens of a text. -/
theorem forall_mem_tokens {P : Token → Prop}
    (hscan : ∀ text token rest, scan text = .read token rest → P token) :
    ∀ token ∈ (tokens text).ahead, P token := by
  fun_induction tokens text with
  | case1 text h => exact fun token ht => absurd ht List.not_mem_nil
  | case2 text rest h ih => exact ih
  | case3 text token rest h ih =>
    intro token' ht
    rcases List.mem_cons.mp ht with rfl | ht
    · exact hscan _ _ _ h
    · exact ih token' ht
  | case4 text e h => exact fun token ht => absurd ht List.not_mem_nil

theorem isIntegerToken_of_scan {written : String} (h : scan text = .read (.int written) rest) :
    Number.IsIntegerToken written := by
  rcases scan_read_cases h with ⟨p, hp⟩ | ⟨s, hs | hs⟩ | ⟨c, tail, _, hn⟩ | hn
  · cases hp
  · cases hs
  · cases hs
  · cases hn
  · exact isIntegerToken_of_numeral hn

/-- **Integers are integer tokens.** Every integer among the tokens of a text is digits, after a
minus sign or none. -/
theorem isIntegerToken_of_mem_tokens {written : String}
    (h : .int written ∈ (tokens text).ahead) : Number.IsIntegerToken written :=
  forall_mem_tokens (P := fun token => ∀ written, token = .int written →
    Number.IsIntegerToken written) (fun _ _ _ hscan _ ht => isIntegerToken_of_scan (ht ▸ hscan))
    _ h written rfl

end TypedQuery.Query
