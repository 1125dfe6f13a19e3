import Mathlib.Data.List.TakeWhile
import TypedQuery.Number.Decimal

/-!
# Integer numerals name integers

The number nearest to an integer is an integer: where the step between magnitudes is at most one the
integer is itself a number, and where it is larger all magnitudes are integers.

* `units_binade`: the magnitude of a rank, counted from the start of its binade;
* `dvd_units_nearestRank`: rounding keeps a multiple of a power of two;
* `ofNumeral_eq_ofSigned`: what is written like a decimal numeral is read as one;
* `isInteger_ofNumeral`: what an integer token names is an integer, unless it is infinite.
-/

namespace TypedQuery.Number

-- powers are the same where algebra is imported and where it is not
attribute [local instance (2000)] instPowNat

/-! ## Rounding -/

theorem roundHalfEven_bounds (p q : Nat) :
    p / q ≤ roundHalfEven p q ∧ roundHalfEven p q ≤ p / q + 1 := by
  unfold roundHalfEven
  dsimp only
  split
  · omega
  · split <;> omega

/-- The magnitude of a rank, counted from the start of its binade; the end of a binade is the start
of the next. -/
theorem units_binade (k : Nat) {r : Nat} (hlow : 2 ^ (52 : Nat) ≤ r) (hhigh : r ≤ 2 ^ (53 : Nat)) :
    units (k * 2 ^ (52 : Nat) + r) = r * 2 ^ k := by
  have hnot : ¬ k * 2 ^ (52 : Nat) + r < 2 ^ (52 : Nat) := by omega
  rw [units, if_neg hnot]
  rcases Nat.lt_or_eq_of_le hhigh with hlt | rfl
  · have hdiv : (k * 2 ^ (52 : Nat) + r) / 2 ^ (52 : Nat) = k + 1 := by omega
    have hmod : (k * 2 ^ (52 : Nat) + r) % 2 ^ (52 : Nat) = r - 2 ^ (52 : Nat) := by omega
    have hr : 2 ^ (52 : Nat) + (r - 2 ^ (52 : Nat)) = r := by omega
    rw [hdiv, hmod, hr, Nat.add_sub_cancel]
  · have hdiv : (k * 2 ^ (52 : Nat) + 2 ^ (53 : Nat)) / 2 ^ (52 : Nat) = k + 2 := by omega
    have hmod : (k * 2 ^ (52 : Nat) + 2 ^ (53 : Nat)) % 2 ^ (52 : Nat) = 0 := by omega
    have hpow : 2 ^ (k + 1) = 2 * 2 ^ k := Nat.pow_succ'
    have hstep : 2 ^ (52 : Nat) * 2 = 2 ^ (53 : Nat) := by omega
    rw [hdiv, hmod, show k + 2 - 1 = k + 1 by omega, hpow, Nat.add_zero, ← Nat.mul_assoc, hstep]

/-- Rounding keeps a multiple of a power of two. -/
theorem dvd_units_nearestRank {n e : Nat} (hn : 0 < n) (he : 52 ≤ e) :
    2 ^ e ∣ units (nearestRank (n * 2 ^ e) 1) := by
  have hpos : 0 < n * 2 ^ e := Nat.mul_pos hn (Nat.two_pow_pos e)
  have hlog : e ≤ Nat.log2 (n * 2 ^ e) :=
    (Nat.le_log2 hpos.ne').mpr (Nat.le_mul_of_pos_left _ hn)
  unfold nearestRank
  simp only [Nat.div_one, Nat.one_mul]
  obtain ⟨k, hk⟩ : ∃ k, Nat.log2 (n * 2 ^ e) = 52 + k := ⟨_, (Nat.add_sub_of_le (by omega)).symm⟩
  have hlow : 2 ^ (52 : Nat) * 2 ^ k ≤ n * 2 ^ e := by
    rw [← Nat.pow_add, ← hk]
    exact Nat.log2_self_le hpos.ne'
  have hhigh : n * 2 ^ e < 2 ^ (53 : Nat) * 2 ^ k := by
    rw [← Nat.pow_add, show 53 + k = 52 + k + 1 by omega, ← hk]
    exact Nat.lt_log2_self
  rw [hk, Nat.add_sub_cancel_left]
  have hquot : 2 ^ (52 : Nat) ≤ n * 2 ^ e / 2 ^ k ∧ n * 2 ^ e / 2 ^ k < 2 ^ (53 : Nat) :=
    ⟨(Nat.le_div_iff_mul_le (Nat.two_pow_pos k)).mpr hlow,
      (Nat.div_lt_iff_lt_mul (Nat.two_pow_pos k)).mpr hhigh⟩
  obtain ⟨hdown, hup⟩ := roundHalfEven_bounds (n * 2 ^ e) (2 ^ k)
  rw [units_binade k (hquot.1.trans hdown) (by omega)]
  rcases Nat.le_total e k with hek | hke
  · exact Nat.dvd_mul_left_of_dvd (Nat.pow_dvd_pow 2 hek) _
  · -- the step is at most the power of two, so nothing is rounded
    have hsplit : n * 2 ^ e = n * 2 ^ (e - k) * 2 ^ k := by
      rw [Nat.mul_assoc, ← Nat.pow_add, Nat.sub_add_cancel hke]
    rw [hsplit, roundHalfEven_mul _ (Nat.two_pow_pos k), ← hsplit]
    exact Nat.dvd_mul_left _ _

/-! ## Integers -/

theorem isInteger_ofRank {negative : Bool} {rank : Nat}
    (h : (ofRank negative rank).isFinite = true) (hdvd : unitsPerOne ∣ units rank) :
    (ofRank negative rank).isInteger = true := by
  unfold ofRank at h ⊢
  split
  · rw [isInteger, toInt?, if_pos (Nat.mod_eq_zero_of_dvd hdvd)]
    rfl
  · next hbound => rw [dif_neg hbound] at h; cases h

theorem isInteger_ofDecimal {negative : Bool} {digits : Nat}
    (h : (ofDecimal negative digits 0).isFinite = true) :
    (ofDecimal negative digits 0).isInteger = true := by
  unfold ofDecimal at h ⊢
  dsimp only at h ⊢
  split
  · next hzero =>
    rw [if_pos hzero] at h
    exact isInteger_ofRank h (by simp [units])
  · next hzero =>
    rw [if_neg hzero] at h
    split
    · next hlarge => rw [if_pos hlarge] at h; cases h
    · next hlarge =>
      rw [if_neg hlarge] at h
      refine isInteger_ofRank h ?_
      have hdigits : 0 < digits := by omega
      obtain ⟨e, he, hone⟩ : ∃ e, 52 ≤ e ∧ unitsPerOne = 2 ^ e :=
        ⟨_, by decide, rfl⟩
      have hdvd : unitsPerOne ∣ units (nearestRank (digits * unitsPerOne) 1) := by
        rw [hone]
        exact dvd_units_nearestRank hdigits he
      simpa only [Int.toNat_zero, Int.neg_zero, Nat.pow_zero, Nat.mul_one] using hdvd

/-! ## Numerals -/

theorem ofRank_ne_nan (negative : Bool) (rank : Nat) : ofRank negative rank ≠ .nan := by
  unfold ofRank
  split <;> simp

theorem ofDecimal_ne_nan (negative : Bool) (digits : Nat) (exponent : Int) :
    ofDecimal negative digits exponent ≠ .nan := by
  unfold ofDecimal
  dsimp only
  split
  · exact ofRank_ne_nan _ _
  · split
    · simp
    · exact ofRank_ne_nan _ _

/-- The characters of decimal numerals. -/
def isNumeralCharacter (c : Char) : Bool :=
  c.isDigit || c == '-' || c == '+' || c == '.' || c == 'e' || c == 'E'

theorem toNat_of_isDigit {c : Char} (h : c.isDigit = true) : 48 ≤ c.toNat ∧ c.toNat ≤ 57 := by
  simpa [Char.isDigit, UInt32.le_iff_toNat_le] using h

theorem ne_of_isDigit {c other : Char} (h : c.isDigit = true) (hother : other.isDigit = false) :
    c ≠ other := by
  rintro rfl
  rw [h] at hother
  cases hother

theorem isBlank_of_isNumeralCharacter {c : Char} (h : isNumeralCharacter c = true) :
    Text.isBlank c = false := by
  simp only [isNumeralCharacter, Bool.or_eq_true, beq_iff_eq] at h
  obtain ((((hdigit | rfl) | rfl) | rfl) | rfl) | rfl := h
  · have hrange := toNat_of_isDigit hdigit
    simp only [Text.isBlank, Bool.or_eq_false_iff, Bool.and_eq_false_iff, decide_eq_false_iff_not,
      beq_eq_false_iff_ne]
    omega
  all_goals decide

theorem baseOf?_of_isNumeralCharacter {c : Char} (h : isNumeralCharacter c = true) :
    baseOf? c = none := by
  have hnone : ['x', 'X', 'o', 'O', 'b', 'B'].all (fun letter => !isNumeralCharacter letter) := by
    decide
  have hletter : ∀ letter ∈ ['x', 'X', 'o', 'O', 'b', 'B'], c ≠ letter := by
    rintro letter hmem rfl
    have hnot := List.all_eq_true.mp hnone c hmem
    rw [h] at hnot
    cases hnot
  simp only [List.forall_mem_cons] at hletter
  simp [baseOf?, hletter]

/-- What is written in the characters of decimal numerals is read as one. -/
theorem ofNumeral_eq_ofSigned {text : String} (hne : text ≠ "")
    (h : ∀ c ∈ text.toList, isNumeralCharacter c = true) :
    ofNumeral text = ofSigned text.toList := by
  rw [ofNumeral, Text.trim_eq_self fun c hc => isBlank_of_isNumeralCharacter (h c hc)]
  split
  · next hnil => exact absurd (String.toList_eq_nil_iff.mp hnil) hne
  · next letter rest hzero =>
    have hletter : isNumeralCharacter letter = true := h letter (by simp [hzero])
    rw [baseOf?_of_isNumeralCharacter hletter, hzero]
  · rfl

/-- What starts with a digit has no sign, and is not the word for infinity. -/
theorem ofSigned_of_isDigit {c : Char} (hc : c.isDigit = true) (rest : List Char) :
    ofSigned (c :: rest) = ofUnsigned false (c :: rest) ∧
      ofSigned ('-' :: c :: rest) = ofUnsigned true (c :: rest) := by
  have hword : c :: rest ≠ "Infinity".toList := fun h =>
    ne_of_isDigit hc (by decide) (List.cons.inj h).1
  constructor
  · have hminus : c ≠ '-' := ne_of_isDigit hc (by decide)
    have hplus : c ≠ '+' := ne_of_isDigit hc (by decide)
    unfold ofSigned
    split
    next negative unsigned heq =>
    split at heq
    · next hm => exact absurd (List.cons.inj hm).1 hminus
    · next hp => exact absurd (List.cons.inj hp).1 hplus
    · cases heq
      rw [if_neg hword]
  · simp only [ofSigned, if_neg hword]

/-! ## Tokens -/

/-- A minus sign or none, and digits. -/
def IsIntegerToken (text : String) : Prop :=
  ∃ digits : List Char, digits ≠ [] ∧ (∀ c ∈ digits, c.isDigit = true) ∧
    (text.toList = digits ∨ text.toList = '-' :: digits)

theorem ofUnsigned_digits {digits : List Char} (hne : digits ≠ [])
    (h : ∀ c ∈ digits, c.isDigit = true) (negative : Bool) :
    ofUnsigned negative digits = ofDecimal negative (ofDigits digits) 0 := by
  have hspan : spanDigits digits = (digits, []) := by
    rw [spanDigits, List.takeWhile_eq_self_iff.mpr h, List.dropWhile_eq_nil_iff.mpr h]
  simp [ofUnsigned, hspan, exponentOf?, hne]

theorem ofNumeral_of_isIntegerToken {text : String} (h : IsIntegerToken text) :
    ∃ negative digits, ofNumeral text = ofDecimal negative digits 0 := by
  obtain ⟨digits, hne, hdigits, htext⟩ := h
  have hcharacter : ∀ c ∈ digits, isNumeralCharacter c = true :=
    fun c hc => by simp [isNumeralCharacter, hdigits c hc]
  obtain ⟨c, rest, rfl⟩ := List.exists_cons_of_ne_nil hne
  have hsigned := ofSigned_of_isDigit (hdigits c (List.mem_cons_self ..)) rest
  rcases htext with htext | htext
  · refine ⟨false, ofDigits (c :: rest), ?_⟩
    rw [ofNumeral_eq_ofSigned (by rintro rfl; cases htext) (htext ▸ hcharacter), htext, hsigned.1,
      ofUnsigned_digits hne hdigits]
  · refine ⟨true, ofDigits (c :: rest), ?_⟩
    rw [ofNumeral_eq_ofSigned (by rintro rfl; cases htext)
      (htext ▸ List.forall_mem_cons.mpr ⟨by decide, hcharacter⟩), htext, hsigned.2,
      ofUnsigned_digits hne hdigits]

/-- What an integer token names is an integer, unless it is infinite. -/
theorem isInteger_ofNumeral {text : String} (h : IsIntegerToken text)
    (hfinite : (ofNumeral text).isFinite = true) : (ofNumeral text).isInteger = true := by
  obtain ⟨negative, digits, hnumber⟩ := ofNumeral_of_isIntegerToken h
  rw [hnumber] at hfinite ⊢
  exact isInteger_ofDecimal hfinite

end TypedQuery.Number
