import TypedQuery.Types.Scalar

/-!
# What the built-in scalars accept

One equivalence for each built-in scalar: the literals and the external values that it reads, and
the value that it makes of them.

* `parseInt_eq_accepted_iff`, …, `parseId_eq_accepted_iff`: the five scalars;
* `isNullish_of_accepted`: none of them reads anything as null or undefined;
* `eq_textless_of_thrown`: none of them throws, unless it has to show what has no text.
-/

namespace TypedQuery.Builtin

variable {raw : Raw} {v : Value}

theorem refuse_ne_accepted (words : String) (raw : Raw) : refuse words raw ≠ .accepted v := by
  unfold refuse
  split <;> simp

theorem parseIntNumber_eq_accepted_iff {n : Number} :
    parseIntNumber raw n = .accepted v ↔ n.isInt32 = true ∧ v = .number n := by
  unfold parseIntNumber
  split
  · next h => simp only [h, Verdict.accepted.injEq, true_and, eq_comm]
  · next h => split <;> simp [h, refuse_ne_accepted]

theorem parseInt_eq_accepted_iff :
    parseInt raw = .accepted v ↔ ∃ n : Number, n.isInt32 = true ∧ v = .number n ∧
      ((∃ t, raw = .int t ∧ n = .ofNumeral t) ∨ raw = .external (.number n)) := by
  constructor
  · intro h
    unfold parseInt at h
    split at h
    · next t =>
      obtain ⟨hn, rfl⟩ := parseIntNumber_eq_accepted_iff.mp h
      exact ⟨_, hn, rfl, Or.inl ⟨t, rfl, rfl⟩⟩
    · next n =>
      obtain ⟨hn, rfl⟩ := parseIntNumber_eq_accepted_iff.mp h
      exact ⟨n, hn, rfl, Or.inr rfl⟩
    · exact absurd h (refuse_ne_accepted _ _)
  · rintro ⟨n, hn, rfl, ⟨t, rfl, rfl⟩ | rfl⟩
    · exact parseIntNumber_eq_accepted_iff.mpr ⟨hn, rfl⟩
    · exact parseIntNumber_eq_accepted_iff.mpr ⟨hn, rfl⟩

theorem parseFloat_eq_accepted_iff :
    parseFloat raw = .accepted v ↔ ∃ n : Number, v = .number n ∧
      ((∃ t, (raw = .int t ∨ raw = .float t) ∧ n = .ofNumeral t) ∨
        raw = .external (.number n) ∧ n.isFinite = true) := by
  constructor
  · intro h
    unfold parseFloat at h
    split at h
    · next t => exact ⟨_, (Verdict.accepted.inj h).symm, Or.inl ⟨t, Or.inl rfl, rfl⟩⟩
    · next t => exact ⟨_, (Verdict.accepted.inj h).symm, Or.inl ⟨t, Or.inr rfl, rfl⟩⟩
    · next n =>
      split at h
      · next hn => exact ⟨n, (Verdict.accepted.inj h).symm, Or.inr ⟨rfl, hn⟩⟩
      · exact absurd h (refuse_ne_accepted _ _)
    · exact absurd h (refuse_ne_accepted _ _)
  · rintro ⟨n, rfl, ⟨t, rfl | rfl, rfl⟩ | ⟨rfl, hn⟩⟩
    · rfl
    · rfl
    · simp [parseFloat, hn]

theorem parseString_eq_accepted_iff :
    parseString raw = .accepted v ↔
      ∃ s, v = .string s ∧ (raw = .string s ∨ raw = .external (.string s)) := by
  constructor
  · intro h
    unfold parseString at h
    split at h
    · next s => exact ⟨s, (Verdict.accepted.inj h).symm, Or.inl rfl⟩
    · next s => exact ⟨s, (Verdict.accepted.inj h).symm, Or.inr rfl⟩
    · exact absurd h (refuse_ne_accepted _ _)
  · rintro ⟨s, rfl, rfl | rfl⟩
    · rfl
    · rfl

theorem parseBoolean_eq_accepted_iff :
    parseBoolean raw = .accepted v ↔
      ∃ b, v = .boolean b ∧ (raw = .boolean b ∨ raw = .external (.boolean b)) := by
  constructor
  · intro h
    unfold parseBoolean at h
    split at h
    · next b => exact ⟨b, (Verdict.accepted.inj h).symm, Or.inl rfl⟩
    · next b => exact ⟨b, (Verdict.accepted.inj h).symm, Or.inr rfl⟩
    · exact absurd h (refuse_ne_accepted _ _)
  · rintro ⟨b, rfl, rfl | rfl⟩
    · rfl
    · rfl

theorem parseId_eq_accepted_iff :
    parseId raw = .accepted v ↔ ∃ s, v = .string s ∧
      (raw = .string s ∨ raw = .int s ∨ raw = .external (.string s) ∨
        ∃ n : Number, raw = .external (.number n) ∧ n.isInteger = true ∧ s = n.text) := by
  constructor
  · intro h
    unfold parseId at h
    split at h
    · next s => exact ⟨s, (Verdict.accepted.inj h).symm, Or.inl rfl⟩
    · next t => exact ⟨t, (Verdict.accepted.inj h).symm, Or.inr (Or.inl rfl)⟩
    · next s => exact ⟨s, (Verdict.accepted.inj h).symm, Or.inr (Or.inr (Or.inl rfl))⟩
    · next n =>
      split at h
      · next hn =>
        exact ⟨_, (Verdict.accepted.inj h).symm, Or.inr (Or.inr (Or.inr ⟨n, rfl, hn, rfl⟩))⟩
      · exact absurd h (refuse_ne_accepted _ _)
    · exact absurd h (refuse_ne_accepted _ _)
  · rintro ⟨s, rfl, rfl | rfl | rfl | ⟨n, rfl, hn, rfl⟩⟩
    · rfl
    · rfl
    · rfl
    · simp [parseId, hn]

/-- No built-in scalar reads anything as null or undefined. -/
theorem isNullish_of_accepted {b : Builtin} (h : b.parse raw = .accepted v) :
    v.isNullish = false := by
  cases b with
  | int =>
    obtain ⟨n, _, rfl, _⟩ := parseInt_eq_accepted_iff.mp h
    rfl
  | float =>
    obtain ⟨n, rfl, _⟩ := parseFloat_eq_accepted_iff.mp h
    rfl
  | string =>
    obtain ⟨s, rfl, _⟩ := parseString_eq_accepted_iff.mp h
    rfl
  | boolean =>
    obtain ⟨b, rfl, _⟩ := parseBoolean_eq_accepted_iff.mp h
    rfl
  | id =>
    obtain ⟨s, rfl, _⟩ := parseId_eq_accepted_iff.mp h
    rfl

/-! ## What they throw -/

theorem refuse_eq_thrown {words : String} {t : Thrown} (h : refuse words raw = .thrown t) :
    t = .textless := by
  unfold refuse at h
  split at h
  · cases h
  · exact (Verdict.thrown.inj h).symm

theorem parseIntNumber_eq_thrown {n : Number} {t : Thrown}
    (h : parseIntNumber raw n = .thrown t) : t = .textless := by
  unfold parseIntNumber at h
  split at h
  · cases h
  · split at h
    · exact refuse_eq_thrown h
    · exact refuse_eq_thrown h

/-- A built-in scalar throws only where it has to show what has no text. -/
theorem eq_textless_of_thrown {b : Builtin} {t : Thrown} (h : b.parse raw = .thrown t) :
    t = .textless := by
  cases b with
  | int =>
    replace h : parseInt raw = .thrown t := h
    unfold parseInt at h
    split at h
    · exact parseIntNumber_eq_thrown h
    · exact parseIntNumber_eq_thrown h
    · exact refuse_eq_thrown h
  | float =>
    replace h : parseFloat raw = .thrown t := h
    unfold parseFloat at h
    split at h
    · cases h
    · cases h
    · split at h
      · cases h
      · exact refuse_eq_thrown h
    · exact refuse_eq_thrown h
  | string =>
    replace h : parseString raw = .thrown t := h
    unfold parseString at h
    split at h
    · cases h
    · cases h
    · exact refuse_eq_thrown h
  | boolean =>
    replace h : parseBoolean raw = .thrown t := h
    unfold parseBoolean at h
    split at h
    · cases h
    · cases h
    · exact refuse_eq_thrown h
  | id =>
    replace h : parseId raw = .thrown t := h
    unfold parseId at h
    split at h
    · cases h
    · cases h
    · cases h
    · split at h
      · cases h
      · exact refuse_eq_thrown h
    · exact refuse_eq_thrown h

end TypedQuery.Builtin
