/-!
# Numbers

The numbers of the value domain are the binary floating-point numbers of 64 bits. A magnitude is
held as its rank among all magnitudes, zero having rank 0, so each number has one representation
and the order of magnitudes is the order of ranks. Every magnitude is a whole count of *units*, a
unit being the smallest positive magnitude.

* `units`: the magnitude of a rank, in units;
* `toInt?`: the integer that a number is, if it is one;
* `toLength`: the length that it gives;
* `sameAs`: the comparison of numbers as numbers, in which the two zeros agree and NaN agrees with
  nothing;
* `units_lt_units`: larger ranks are larger magnitudes.
-/

namespace TypedQuery

-- powers are the same where algebra is imported and where it is not
attribute [local instance (2000)] instPowNat

/-- The ranks below this one belong to finite magnitudes. -/
def rankBound : Nat := 2047 * 2 ^ (52 : Nat)

inductive Number
  | nan
  | infinite (negative : Bool)
  | finite (negative : Bool) (rank : Nat) (bounded : rank < rankBound)
  deriving DecidableEq

namespace Number

/-! ## Magnitudes -/

/-- Ranks in the first two binades are their own magnitude; each later binade doubles the step. -/
def units (rank : Nat) : Nat :=
  if rank < 2 ^ (52 : Nat) then rank
  else (2 ^ (52 : Nat) + rank % 2 ^ (52 : Nat)) * 2 ^ (rank / 2 ^ (52 : Nat) - 1)

/-- How many units make one. -/
def unitsPerOne : Nat := 2 ^ (1074 : Nat)

/-- The number of a sign and a rank; ranks that are no finite magnitude stand for infinity. -/
def ofRank (negative : Bool) (rank : Nat) : Number :=
  if bounded : rank < rankBound then .finite negative rank bounded else .infinite negative

def zero : Number := .finite false 0 (by decide)

def negate : Number → Number
  | .nan => .nan
  | .infinite s => .infinite !s
  | .finite s rank h => .finite (!s) rank h

/-! ## Classification -/

def isFinite : Number → Bool
  | .finite .. => true
  | _ => false

/-- The integer that a number is, if it is one; both zeros are 0. -/
def toInt? : Number → Option Int
  | .finite negative rank _ =>
    if units rank % unitsPerOne = 0 then
      let n : Int := units rank / unitsPerOne
      some (if negative then -n else n)
    else none
  | _ => none

def isInteger (n : Number) : Bool := n.toInt?.isSome

/-- Whether a number is an integer of 32 bits with sign. -/
def isInt32 (n : Number) : Bool :=
  match n.toInt? with
  | some i => -2147483648 ≤ i && i ≤ 2147483647
  | none => false

/-- The length that a number gives: its whole part, not below zero, nor beyond the integers that
numbers count one by one. -/
def toLength : Number → Nat
  | .finite false rank _ => min (units rank / unitsPerOne) 9007199254740991
  | .infinite false => 9007199254740991
  | _ => 0

/-- Equality of numbers as numbers: the zeros agree whatever their sign, and NaN has no equal. -/
def sameAs : Number → Number → Bool
  | .infinite s, .infinite t => s == t
  | .finite s r _, .finite t q _ => r == q && (s == t || r == 0)
  | _, _ => false

theorem sameAs_self_iff (n : Number) : n.sameAs n = true ↔ n ≠ .nan := by
  cases n <;> simp [sameAs]

theorem isInteger_of_isInt32 {n : Number} (h : n.isInt32 = true) : n.isInteger = true := by
  unfold isInt32 at h
  unfold isInteger
  split at h <;> simp_all

theorem isFinite_of_isInteger {n : Number} (h : n.isInteger = true) : n.isFinite = true := by
  cases n with
  | finite => rfl
  | _ => cases h

/-! ## Order of magnitudes -/

theorem units_lt_units {a b : Nat} (h : a < b) : units a < units b := by
  unfold units
  have hP : (0 : Nat) < 2 ^ (52 : Nat) := by decide
  generalize 2 ^ (52 : Nat) = P at *
  by_cases hb : b < P
  · rw [if_pos hb, if_pos (by omega)]
    exact h
  rw [if_neg hb]
  have ha' := Nat.mod_lt a hP
  have hb' := Nat.div_add_mod b P
  have hb1 : 1 ≤ b / P := (Nat.one_le_div_iff hP).2 (by omega)
  by_cases ha : a < P
  · rw [if_pos ha]
    calc a < P := ha
      _ ≤ (P + b % P) * 1 := by omega
      _ ≤ (P + b % P) * 2 ^ (b / P - 1) := Nat.mul_le_mul_left _ Nat.one_le_two_pow
  rw [if_neg ha]
  have hab : a / P ≤ b / P := Nat.div_le_div_right (by omega)
  rcases Nat.lt_or_eq_of_le hab with hlt | heq
  · have ha1 : 1 ≤ a / P := (Nat.one_le_div_iff hP).2 (by omega)
    calc (P + a % P) * 2 ^ (a / P - 1) < (2 * P) * 2 ^ (a / P - 1) :=
          Nat.mul_lt_mul_of_pos_right (by omega) (Nat.two_pow_pos _)
      _ = P * 2 ^ (a / P - 1 + 1) := by rw [Nat.pow_succ]; ac_rfl
      _ ≤ P * 2 ^ (b / P - 1) :=
          Nat.mul_le_mul_left _ (Nat.pow_le_pow_right (by decide) (by omega))
      _ ≤ (P + b % P) * 2 ^ (b / P - 1) := Nat.mul_le_mul_right _ (by omega)
  · have ha2 := Nat.div_add_mod a P
    rw [heq] at ha2 ⊢
    exact Nat.mul_lt_mul_of_pos_right (by omega) (Nat.two_pow_pos _)

end Number

end TypedQuery
