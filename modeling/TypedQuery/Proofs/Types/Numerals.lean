import TypedQuery.Proofs.Query.Numeral
import TypedQuery.Proofs.Types.Builtin

/-!
# Numerals and numbers

A built-in scalar reads a numeral in one branch, the number that it names in another, and writes
numbers in a third. Where the branches agree:

* `isFinite_iff_of_isNumeral`: a numeral names a number or an infinity;
* `parse_external_of_isFinite`, `write?_of_parse_external`: what a scalar accepts it accepts from
  outside, and writes as it is;
* `accepted_iff_written`: whatever is accepted can be written and read again, but for infinities and
  what is no number;
* `parse_int_agree`: an integer and the number that it names are accepted alike, though the
  identifier that an integer is keeps its digits.
-/

namespace TypedQuery

/-! ## The numbers of numerals -/

namespace Number

theorem isFinite_iff {n : Number} :
    n.isFinite = true ↔ n ≠ .nan ∧ ∀ negative, n ≠ .infinite negative := by
  cases n <;> simp [isFinite]

/-- A numeral that does not name an infinity names a number. -/
theorem isFinite_iff_of_isNumeral {text : String} (h : Query.IsNumeral text) :
    (ofNumeral text).isFinite = true ↔ ∀ negative, ofNumeral text ≠ .infinite negative := by
  rw [isFinite_iff]
  exact and_iff_right (Query.ofNumeral_ne_nan h)

/-- No integer token is written like an infinity. -/
theorem not_isIntegerToken_infinite (negative : Bool) :
    ¬ IsIntegerToken (text (.infinite negative)) := by
  rintro ⟨digits, -, hdigits, htext⟩
  have hI : 'I' ∈ digits := by
    cases negative with
    | false =>
      obtain rfl : _ = digits := by simpa [text] using htext
      simp
    | true =>
      obtain rfl | rfl : _ = digits ∨ _ = digits := by simpa [text] using htext
      · simp
      · simp
  exact absurd (hdigits 'I' hI) (by decide)

end Number

/-! ## Verdicts -/

/-- Two verdicts accept one value, or both reject. -/
inductive Verdict.Agree : Verdict → Verdict → Prop
  | accepted (v : Value) : Agree (.accepted v) (.accepted v)
  | rejected (reason reason' : String) : Agree (.rejected reason) (.rejected reason')

theorem Verdict.Agree.eq {v w : Value} (h : Agree (.accepted v) (.accepted w)) : v = w := by
  cases h
  rfl

namespace Builtin

variable {b : Builtin} {raw : Raw} {v : Value}

/-! ## Accepted and written -/

/-- What a built-in scalar accepts it accepts again from outside, if all its numbers are finite. -/
theorem parse_external_of_isFinite (hv : ∀ n, v = .number n → n.isFinite = true)
    (h : b.parse raw = .accepted v) : b.parse (.external v) = .accepted v := by
  cases b with
  | int =>
    obtain ⟨n, hn, rfl, -⟩ := parseInt_eq_accepted_iff.mp h
    exact parseInt_eq_accepted_iff.mpr ⟨n, hn, rfl, Or.inr rfl⟩
  | float =>
    obtain ⟨n, rfl, -⟩ := parseFloat_eq_accepted_iff.mp h
    exact parseFloat_eq_accepted_iff.mpr ⟨n, rfl, Or.inr ⟨rfl, hv n rfl⟩⟩
  | string =>
    obtain ⟨s, rfl, -⟩ := parseString_eq_accepted_iff.mp h
    rfl
  | boolean =>
    obtain ⟨c, rfl, -⟩ := parseBoolean_eq_accepted_iff.mp h
    rfl
  | id =>
    obtain ⟨s, rfl, -⟩ := parseId_eq_accepted_iff.mp h
    rfl

/-- A built-in scalar writes what it accepts from outside, if it accepts it as it is. -/
theorem write?_of_parse_external (h : b.parse (.external v) = .accepted v) :
    b.write? v = some v := by
  cases b with
  | int =>
    obtain ⟨n, hn, rfl, -⟩ := parseInt_eq_accepted_iff.mp h
    simp [write?, hn]
  | float =>
    obtain ⟨n, rfl, ⟨_, ht, -⟩ | ⟨-, hn⟩⟩ := parseFloat_eq_accepted_iff.mp h
    · rcases ht with ht | ht <;> cases ht
    · simp [write?, hn]
  | string =>
    obtain ⟨s, rfl, -⟩ := parseString_eq_accepted_iff.mp h
    rfl
  | boolean =>
    obtain ⟨c, rfl, -⟩ := parseBoolean_eq_accepted_iff.mp h
    rfl
  | id =>
    obtain ⟨s, rfl, -⟩ := parseId_eq_accepted_iff.mp h
    rfl

theorem serialize_of_parse_external (h : b.parse (.external v) = .accepted v) :
    b.serialize v = .ok v := by
  simp [serialize, write?_of_parse_external h]

/-- Only what is written as a numeral is read as no finite number, and only where a `Float` is
expected. -/
theorem of_parse_not_isFinite {n : Number} (hn : n.isFinite = false)
    (h : b.parse raw = .accepted (.number n)) :
    b = .float ∧ ∃ t, (raw = .int t ∨ raw = .float t) ∧ Number.ofNumeral t = n := by
  cases b with
  | int =>
    obtain ⟨m, hm, hv, -⟩ := parseInt_eq_accepted_iff.mp h
    obtain rfl := Value.number.inj hv
    cases n with
    | finite => cases hn
    | nan => cases hm
    | infinite => cases hm
  | float =>
    obtain ⟨m, hv, ⟨t, ht, rfl⟩ | ⟨-, hm⟩⟩ := parseFloat_eq_accepted_iff.mp h
    · exact ⟨rfl, t, ht, (Value.number.inj hv).symm⟩
    · obtain rfl := Value.number.inj hv
      rw [hn] at hm
      cases hm
  | string =>
    obtain ⟨s, hv, -⟩ := parseString_eq_accepted_iff.mp h
    cases hv
  | boolean =>
    obtain ⟨c, hv, -⟩ := parseBoolean_eq_accepted_iff.mp h
    cases hv
  | id =>
    obtain ⟨s, hv, -⟩ := parseId_eq_accepted_iff.mp h
    cases hv

/-- From outside a `Float` is a finite number. -/
theorem parse_float_not_isFinite {n : Number} (h : n.isFinite = false) :
    float.parse (.external (.number n)) =
      .rejected ("Float cannot represent non numeric value " ++ n.text) := by
  have hparse : float.parse (.external (.number n)) =
      if n.isFinite then .accepted (.number n)
      else refuse "Float cannot represent non numeric value " (.external (.number n)) := rfl
  rw [hparse, h]
  rfl

/-- Nothing else is written as a `Float`. -/
theorem serialize_float_not_isFinite {n : Number} (h : n.isFinite = false) :
    float.serialize (.number n) =
      .error (.error ("Float cannot represent value " ++ n.text)) := by
  have hwrite : float.write? (.number n) = none := by simp [write?, h]
  rw [serialize, hwrite]
  rfl

/-- **What is accepted can be written.** Every value that a built-in scalar accepts is written, and
what is written is accepted from outside as that value, unless it is an infinity or NaN. Only a
`Float` accepts these: an infinity of a numeral beyond all numbers, and NaN of what is no numeral of
query text. It does not write them, nor accept them from outside. -/
theorem accepted_iff_written (h : b.parse raw = .accepted v) :
    ((∃ written, b.serialize v = .ok written ∧ b.parse (.external written) = .accepted v) ↔
        ∀ n, v = .number n → n.isFinite = true) ∧
      ∀ n, v = .number n → n.isFinite = false →
        b = .float ∧
        (∃ t, (raw = .int t ∨ raw = .float t) ∧ Number.ofNumeral t = n ∧
          (Query.IsNumeral t → ∃ negative, n = .infinite negative)) ∧
        b.serialize v = .error (.error ("Float cannot represent value " ++ n.text)) ∧
        b.parse (.external v) =
          .rejected ("Float cannot represent non numeric value " ++ n.text) := by
  refine ⟨⟨?_, fun hv => ?_⟩, ?_⟩
  · rintro ⟨written, hwritten, -⟩ n rfl
    by_contra hn
    rw [Bool.not_eq_true] at hn
    obtain ⟨rfl, -⟩ := of_parse_not_isFinite hn h
    rw [serialize_float_not_isFinite hn] at hwritten
    cases hwritten
  · have hagain := parse_external_of_isFinite hv h
    exact ⟨v, serialize_of_parse_external hagain, hagain⟩
  · rintro n rfl hn
    obtain ⟨rfl, t, ht, rfl⟩ := of_parse_not_isFinite hn h
    refine ⟨rfl, ⟨t, ht, rfl, fun hnumeral => ?_⟩, serialize_float_not_isFinite hn,
      parse_float_not_isFinite hn⟩
    by_contra hinfinite
    rw [(Number.isFinite_iff_of_isNumeral hnumeral).mpr (not_exists.mp hinfinite)] at hn
    cases hn

/-- The digits of an identifier, a small negative number, and a numeral beyond all numbers. -/
theorem accepted_iff_written_small :
    (∃ written, id.serialize (.string "90071992547409930000") = .ok written ∧
      id.parse (.external written) = .accepted (.string "90071992547409930000")) ∧
    (∃ written, float.serialize (.number (.ofNumeral "-2.5e-3")) = .ok written ∧
      float.parse (.external written) = .accepted (.number (.ofNumeral "-2.5e-3"))) ∧
    float.serialize (.number (.ofNumeral "1e400")) =
      .error (.error "Float cannot represent value Infinity") := by
  have hid : id.parse (.int "90071992547409930000") = .accepted (.string "90071992547409930000") :=
    rfl
  have hfloat : float.parse (.float "-2.5e-3") = .accepted (.number (.ofNumeral "-2.5e-3")) := rfl
  have hfinite : (Number.ofNumeral "-2.5e-3").isFinite = true := by decide +kernel
  have hlarge : float.parse (.float "1e400") = .accepted (.number (.ofNumeral "1e400")) := rfl
  have hinfinite : (Number.ofNumeral "1e400").isFinite = false := by decide +kernel
  have htext : (Number.ofNumeral "1e400").text = "Infinity" := by decide +kernel
  obtain ⟨-, -, hunwritten, -⟩ := (accepted_iff_written hlarge).2 _ rfl hinfinite
  refine ⟨(accepted_iff_written hid).1.mpr fun _ => nofun,
    (accepted_iff_written hfloat).1.mpr fun n hn => Value.number.inj hn ▸ hfinite, ?_⟩
  rw [hunwritten, htext]
  rfl

/-- A numeral beyond all numbers is accepted as an infinity, which cannot be written. -/
theorem accepted_unwritten_large :
    float.parse (.float "1e400") = .accepted (.number (.infinite false)) ∧
      float.serialize (.number (.infinite false)) =
        .error (.error "Float cannot represent value Infinity") := by
  have hlarge : Number.ofNumeral "1e400" = .infinite false := by decide +kernel
  exact ⟨congrArg (fun n => Verdict.accepted (.number n)) hlarge, serialize_float_not_isFinite rfl⟩

/-! ## Integers -/

/-- Rejections agree, whatever they show, if it has a text. -/
theorem refuse_agree {raw raw' : Raw} {written written' : String} (h : raw.text? = some written)
    (h' : raw'.text? = some written') (words words' : String) :
    (refuse words raw).Agree (refuse words' raw') := by
  rw [refuse, refuse, h, h']
  exact .rejected _ _

/-- Whether a number is an integer of 32 bits does not depend on how it is written. -/
theorem parseIntNumber_agree {raw raw' : Raw} {written written' : String}
    (h : raw.text? = some written) (h' : raw'.text? = some written') (n : Number) :
    (parseIntNumber raw n).Agree (parseIntNumber raw' n) := by
  unfold parseIntNumber
  split
  · exact .accepted _
  · split
    · exact refuse_agree h h' _ _
    · exact refuse_agree h h' _ _

variable {t : String}

/-- Where no identifier is expected, an integer is accepted like the number that it names. -/
theorem parse_int_agree_of_ne_id (hid : b ≠ .id)
    (hfloat : b = .float → (Number.ofNumeral t).isFinite = true) :
    (b.parse (.int t)).Agree (b.parse (.external (.number (.ofNumeral t)))) := by
  have ht : (Raw.int t).text? = some t := rfl
  have hn : (Raw.external (.number (.ofNumeral t))).text? = some (Number.ofNumeral t).text := rfl
  cases b with
  | int => exact parseIntNumber_agree ht hn _
  | float =>
    have hnumber : float.parse (.external (.number (.ofNumeral t))) =
        .accepted (.number (.ofNumeral t)) :=
      parseFloat_eq_accepted_iff.mpr ⟨_, rfl, Or.inr ⟨rfl, hfloat rfl⟩⟩
    rw [hnumber]
    exact .accepted _
  | string => exact refuse_agree ht hn _ _
  | boolean => exact refuse_agree ht hn _ _
  | id => exact absurd rfl hid

/-- The identifier that a number is has the text of the number. -/
theorem parse_id_number (h : Number.IsIntegerToken t) :
    id.parse (.external (.number (.ofNumeral t))) =
      if (Number.ofNumeral t).isFinite then .accepted (.string (Number.ofNumeral t).text)
      else .rejected ("ID cannot represent value " ++ (Number.ofNumeral t).text) := by
  split
  · next hfinite =>
    have hinteger := Number.isInteger_ofNumeral h hfinite
    exact parseId_eq_accepted_iff.mpr
      ⟨_, rfl, Or.inr (Or.inr (Or.inr ⟨_, rfl, hinteger, rfl⟩))⟩
  · next hinfinite =>
    have hnot : (Number.ofNumeral t).isInteger ≠ true :=
      fun hinteger => hinfinite (Number.isFinite_of_isInteger hinteger)
    exact if_neg hnot

/-- What the text of a number is compared with: a token that is written like the number it names
names no infinity. -/
theorem isFinite_of_text_eq (h : Number.IsIntegerToken t) (htext : (Number.ofNumeral t).text = t) :
    (Number.ofNumeral t).isFinite = true := by
  obtain ⟨negative, digits, hnumber⟩ := Number.ofNumeral_of_isIntegerToken h
  refine Number.isFinite_iff.mpr
    ⟨hnumber ▸ Number.ofDecimal_ne_nan negative digits 0, fun negative hinfinite => ?_⟩
  rw [← htext, hinfinite] at h
  exact Number.not_isIntegerToken_infinite negative h

/-- **Integers are accepted like numbers.** Every integer, of any length, and the number that it
names are both accepted as one value or both rejected: as an `Int`, a `String`, a `Boolean`, and as
a `Float` if the number is finite. As an identifier the integer is always accepted, with its own
digits; a finite number is accepted with the digits of the number, and an infinity rejected. So the
two agree as identifiers exactly if the integer is written like the number. -/
theorem parse_int_agree (h : Number.IsIntegerToken t) :
    (∀ b : Builtin, b ≠ .id → (b = .float → (Number.ofNumeral t).isFinite = true) →
      (b.parse (.int t)).Agree (b.parse (.external (.number (.ofNumeral t))))) ∧
    id.parse (.int t) = .accepted (.string t) ∧
    (id.parse (.external (.number (.ofNumeral t))) =
      if (Number.ofNumeral t).isFinite then .accepted (.string (Number.ofNumeral t).text)
      else .rejected ("ID cannot represent value " ++ (Number.ofNumeral t).text)) ∧
    ((id.parse (.int t)).Agree (id.parse (.external (.number (.ofNumeral t)))) ↔
      (Number.ofNumeral t).text = t) := by
  have hint : id.parse (.int t) = .accepted (.string t) := rfl
  refine ⟨fun b hid hfloat => parse_int_agree_of_ne_id hid hfloat, hint, parse_id_number h, ?_⟩
  rw [hint, parse_id_number h]
  constructor
  · intro hagree
    split at hagree
    · exact (Value.string.inj hagree.eq).symm
    · cases hagree
  · intro htext
    rw [if_pos (isFinite_of_text_eq h htext), htext]
    exact .accepted _

theorem isIntegerToken_least : Number.IsIntegerToken "-2147483648" :=
  ⟨"2147483648".toList, by decide, List.all_eq_true.mp (by decide), Or.inr rfl⟩

/-- The least integer of 32 bits. -/
theorem parse_int_agree_least :
    (int.parse (.int "-2147483648")).Agree
        (int.parse (.external (.number (.ofNumeral "-2147483648")))) ∧
      (id.parse (.int "-2147483648")).Agree
        (id.parse (.external (.number (.ofNumeral "-2147483648")))) := by
  have hall := parse_int_agree isIntegerToken_least
  exact ⟨hall.1 int (by decide) (by decide), hall.2.2.2.mpr (by decide +kernel)⟩

/-- An identifier of sixteen digits keeps its last digit only if it is written inline. -/
theorem parse_id_not_agree :
    Number.IsIntegerToken "9007199254740993" ∧
      id.parse (.int "9007199254740993") = .accepted (.string "9007199254740993") ∧
      id.parse (.external (.number (.ofNumeral "9007199254740993"))) =
        .accepted (.string "9007199254740992") ∧
      ¬ (id.parse (.int "9007199254740993")).Agree
        (id.parse (.external (.number (.ofNumeral "9007199254740993")))) := by
  have htoken : Number.IsIntegerToken "9007199254740993" :=
    ⟨"9007199254740993".toList, by decide, List.all_eq_true.mp (by decide), Or.inl rfl⟩
  have hfinite : (Number.ofNumeral "9007199254740993").isFinite = true := by decide +kernel
  have htext : (Number.ofNumeral "9007199254740993").text = "9007199254740992" := by
    decide +kernel
  have hnumber := parse_id_number htoken
  rw [if_pos hfinite, htext] at hnumber
  refine ⟨htoken, rfl, hnumber, fun hagree => ?_⟩
  rw [hnumber] at hagree
  exact absurd (Value.string.inj hagree.eq) (by decide)

end Builtin

end TypedQuery
