import TypedQuery.Number.Decimal

/-!
# Writing numbers

A number is written with the fewest digits that read back as it, and of those with the digits
nearest to it. For each count of digits the decimals of that count form a grid; if one of them
reads back, so does one of the two grid points around the number, and only those two are tried.

* `shortest`: the digits and the place of the point;
* `text`: the written number.
-/

namespace TypedQuery.Number

-- powers are the same where algebra is imported and where it is not
attribute [local instance (2000)] instPowNat

/-! ## The interval that reads back -/

/-- Whether `c · 10 ^ t` reads back as the magnitude of a rank: it lies between the midpoints to
the neighbouring magnitudes, or on one of them if the rank is even. Twice the midpoints, in units,
are whole numbers. -/
def readsBack (rank c : Nat) (t : Int) : Bool :=
  let low := units (rank - 1) + units rank
  let high := units rank + units (rank + 1)
  let point := c * 10 ^ t.toNat * (2 * unitsPerOne)
  let scale := 10 ^ (-t).toNat
  if rank % 2 = 0 then low * scale ≤ point && point ≤ high * scale
  else low * scale < point && point < high * scale

/-- The exponent of ten of the leading digit of a positive magnitude. Shifting by 400 places first
makes the magnitude exceed one without touching its leading digit. -/
def leadingExponent (rank : Nat) : Int :=
  (digitCount (units rank * 10 ^ (400 : Nat) / unitsPerOne) : Int) - 401

/-- The point that reads back, among the two around a magnitude on the grid of the multiples of
`10 ^ t`; the nearer one if both do, and the even one of two equally near. -/
def gridPoint? (rank : Nat) (t : Int) : Option (Nat × Int) :=
  let numerator := units rank * 10 ^ (-t).toNat
  let denominator := unitsPerOne * 10 ^ t.toNat
  let down := numerator / denominator
  let lower := readsBack rank down t
  let upper := readsBack rank (down + 1) t
  if lower && upper then some (roundHalfEven numerator denominator, t)
  else if lower then some (down, t)
  else if upper then some (down + 1, t)
  else none

/-- The fewest digits that read back, as a whole number and the exponent of ten of its last digit.
Seventeen digits always suffice. -/
def shortest (rank : Nat) : Nat × Int :=
  let lead := leadingExponent rank
  match (List.range 17).findSome? fun (n : Nat) => gridPoint? rank (lead - n) with
  | some point => point
  | none => (units rank, 0)

/-! ## The written form -/

def zeros (n : Nat) : List Char := List.replicate n '0'

/-- The exponent of a numeral, always with a sign. -/
def exponentText (e : Int) : List Char :=
  'e' :: (if e < 0 then '-' else '+') :: Nat.toDigits 10 e.natAbs

/-- Writes digits whose first one has the given exponent of ten. Numbers from `10 ^ -6` up to but
not including `10 ^ 21` are written without an exponent. -/
def layout (digits : List Char) (exponent : Int) : List Char :=
  if 0 ≤ exponent ∧ exponent < 21 then
    let whole := exponent.toNat + 1
    if digits.length ≤ whole then digits ++ zeros (whole - digits.length)
    else digits.take whole ++ '.' :: digits.drop whole
  else if -7 < exponent ∧ exponent < 0 then
    '0' :: '.' :: zeros (-exponent - 1).toNat ++ digits
  else
    match digits with
    | [digit] => digit :: exponentText exponent
    | digit :: rest => digit :: '.' :: rest ++ exponentText exponent
    | [] => []

/-- The text of a positive magnitude. -/
def magnitudeText (rank : Nat) : List Char :=
  let (c, t) := shortest rank
  let digits := Nat.toDigits 10 c
  let significant := (digits.reverse.dropWhile (· == '0')).reverse
  layout significant (t + digits.length - 1)

/-- The text of a number. Zero has no sign. -/
def text : Number → String
  | .nan => "NaN"
  | .infinite negative => if negative then "-Infinity" else "Infinity"
  | .finite negative rank _ =>
    if rank = 0 then "0"
    else String.ofList (if negative then '-' :: magnitudeText rank else magnitudeText rank)

end TypedQuery.Number
