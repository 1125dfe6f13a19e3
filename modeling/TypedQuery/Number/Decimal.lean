import TypedQuery.Number.Basic
import TypedQuery.Text.Blank

/-!
# Reading decimal numerals

A numeral names the number nearest to it; of two equally near the one of even rank, and infinity
beyond the largest finite magnitude. The rounding is exact arithmetic on natural numbers.

* `ofDecimal`: the number nearest to `± digits · 10 ^ exponent`;
* `ofNumeral`: the number that a text names, or NaN if it is no numeral;
* `nearestRank_units`: a magnitude that is a number is read as that number.
-/

namespace TypedQuery.Number

-- powers are the same where algebra is imported and where it is not
attribute [local instance (2000)] instPowNat

/-! ## Rounding -/

/-- The natural number nearest to `p / q`, an even one if two are equally near. -/
def roundHalfEven (p q : Nat) : Nat :=
  let down := p / q
  if 2 * (p % q) < q then down
  else if 2 * (p % q) = q then down + down % 2
  else down + 1

/-- The rank of the magnitude nearest to `p / q` units. The step between magnitudes around `p / q`
is `2 ^ k` units, and ranks count steps, so a carry into the next binade needs no extra case. -/
def nearestRank (p q : Nat) : Nat :=
  let k := Nat.log2 (p / q) - 52
  k * 2 ^ (52 : Nat) + roundHalfEven p (q * 2 ^ k)

theorem roundHalfEven_mul (n : Nat) {q : Nat} (hq : 0 < q) : roundHalfEven (n * q) q = n := by
  simp [roundHalfEven, Nat.mul_div_cancel _ hq, hq]

theorem nearestRank_units (rank : Nat) : nearestRank (units rank) 1 = rank := by
  unfold nearestRank units
  simp only [Nat.div_one, Nat.one_mul]
  split
  · next h =>
    have hk : Nat.log2 rank - 52 = 0 := by
      by_cases h0 : rank = 0
      · subst h0; decide
      · have := (Nat.log2_lt h0).2 h
        omega
    have := roundHalfEven_mul rank Nat.one_pos
    simp_all
  · next h =>
    have hmod := Nat.mod_lt rank (show 0 < 2 ^ (52 : Nat) by decide)
    have hdiv := Nat.div_add_mod rank (2 ^ (52 : Nat))
    have hpos : 1 ≤ rank / 2 ^ (52 : Nat) := (Nat.one_le_div_iff (by decide)).2 (by omega)
    generalize rank % 2 ^ (52 : Nat) = m at *
    generalize hd : rank / 2 ^ (52 : Nat) = d at *
    obtain ⟨e, rfl⟩ : ∃ e, d = e + 1 := ⟨d - 1, by omega⟩
    have hne : (2 ^ (52 : Nat) + m) * 2 ^ e ≠ 0 := by
      have := Nat.two_pow_pos e
      have : 0 < (2 ^ (52 : Nat) + m) * 2 ^ e := Nat.mul_pos (by omega) this
      omega
    have hlog : Nat.log2 ((2 ^ (52 : Nat) + m) * 2 ^ e) = 52 + e := by
      rw [Nat.log2_eq_iff hne]
      constructor
      · rw [Nat.pow_add]
        exact Nat.mul_le_mul_right _ (by omega)
      · rw [show 52 + e + 1 = 53 + e by omega, Nat.pow_add]
        exact Nat.mul_lt_mul_of_pos_right (by omega) (Nat.two_pow_pos e)
    rw [Nat.add_sub_cancel, hlog, show 52 + e - 52 = e by omega,
      roundHalfEven_mul _ (Nat.two_pow_pos e)]
    rw [Nat.mul_add] at hdiv
    omega

/-! ## Decimals -/

def ofDigits (digits : List Char) : Nat :=
  digits.foldl (fun n c => 10 * n + (c.toNat - '0'.toNat)) 0

/-- How many decimal digits a natural number has; zero has one. -/
def digitCount (n : Nat) : Nat := (Nat.toDigits 10 n).length

/-- The number nearest to `± digits · 10 ^ exponent`. Decimals of 310 and more places before the
point are infinite and those with 330 and more zeros after it vanish, so neither is worked out. -/
def ofDecimal (negative : Bool) (digits : Nat) (exponent : Int) : Number :=
  let places := digitCount digits + exponent
  if digits = 0 ∨ places < -330 then ofRank negative 0
  else if 310 < places then .infinite negative
  else
    ofRank negative <|
      nearestRank (digits * 10 ^ exponent.toNat * unitsPerOne) (10 ^ (-exponent).toNat)

def ofInt (n : Int) : Number := ofDecimal (n < 0) n.natAbs 0

/-! ## Numerals -/

/-- Splits a text after its leading digits. -/
def spanDigits (text : List Char) : List Char × List Char :=
  (text.takeWhile Char.isDigit, text.dropWhile Char.isDigit)

def wholeOf? (text : List Char) : Option Int :=
  if text ≠ [] ∧ text.all Char.isDigit then some (ofDigits text) else none

/-- The exponent at the end of a numeral: nothing, or a letter, a sign or none, and digits. -/
def exponentOf? : List Char → Option Int
  | [] => some 0
  | letter :: rest =>
    if letter = 'e' ∨ letter = 'E' then
      match rest with
      | '-' :: digits => (wholeOf? digits).map fun n => -n
      | '+' :: digits => wholeOf? digits
      | digits => wholeOf? digits
    else none

/-- The number of a numeral without sign: digits, with a point among them or none, and an exponent
or none. -/
def ofUnsigned (negative : Bool) (text : List Char) : Number :=
  let (whole, rest) := spanDigits text
  let (fraction, rest) :=
    match rest with
    | '.' :: rest => spanDigits rest
    | rest => ([], rest)
  match exponentOf? rest with
  | some exponent =>
    if whole ++ fraction = [] then .nan
    else ofDecimal negative (ofDigits (whole ++ fraction)) (exponent - fraction.length)
  | none => .nan

/-- The number of a decimal numeral, or of the word for infinity, after a sign or none. -/
def ofSigned (text : List Char) : Number :=
  let (negative, unsigned) :=
    match text with
    | '-' :: rest => (true, rest)
    | '+' :: rest => (false, rest)
    | rest => (false, rest)
  if unsigned = "Infinity".toList then .infinite negative else ofUnsigned negative unsigned

/-- The base that a letter after a zero announces. -/
def baseOf? (letter : Char) : Option Nat :=
  if letter = 'x' ∨ letter = 'X' then some 16
  else if letter = 'o' ∨ letter = 'O' then some 8
  else if letter = 'b' ∨ letter = 'B' then some 2
  else none

def digitOf? (base : Nat) (c : Char) : Option Nat :=
  let digit? :=
    if c.isDigit then some (c.toNat - '0'.toNat)
    else if 'a' ≤ c ∧ c ≤ 'f' then some (c.toNat - 'a'.toNat + 10)
    else if 'A' ≤ c ∧ c ≤ 'F' then some (c.toNat - 'A'.toNat + 10)
    else none
  digit?.filter (· < base)

/-- The number of one digit or more in a base. -/
def inBase (base : Nat) (text : List Char) : Number :=
  match text, text.mapM (digitOf? base) with
  | _ :: _, some digits => ofDecimal false (digits.foldl (fun n d => base * n + d) 0) 0
  | _, _ => .nan

/-- The number that a text names, between blanks: a decimal numeral, digits after a letter for their
base, or nothing, which is zero. Any other text names no number. -/
def ofNumeral (text : String) : Number :=
  match (Text.trim text).toList with
  | [] => zero
  | '0' :: letter :: rest =>
    match baseOf? letter with
    | some base => inBase base rest
    | none => ofSigned ('0' :: letter :: rest)
  | written => ofSigned written

end TypedQuery.Number
