import TypedQuery.Outcome.Failure

/-!
# Texts of paths

The text of a path is read back in one way, as long as no name in it holds one of the marks that
start a segment.

* `Segment.IsPlain`: the segments whose text holds no mark but its own;
* `formatAfter_eq`: the text of a path is made of the marks and the bodies of its segments;
* `spell_injective`: these are told apart, segment by segment;
* `format_eq_iff`: so are the texts of paths, though a name that comes first has no mark.
-/

namespace TypedQuery

-- powers are the same where algebra is imported and where it is not
attribute [local instance (2000)] instPowNat

namespace Segment

/-- A name that is not empty and holds neither a point nor an opening bracket, or an index of a list
that numbers count exactly. -/
def IsPlain : Segment → Prop
  | .field name => name ≠ "" ∧ '.' ∉ name.toList ∧ '[' ∉ name.toList
  | .index i => 0 ≤ i ∧ i < 2 ^ (53 : Nat)

instance : DecidablePred IsPlain
  | .field name => inferInstanceAs (Decidable (name ≠ "" ∧ '.' ∉ name.toList ∧ '[' ∉ name.toList))
  | .index i => inferInstanceAs (Decidable (0 ≤ i ∧ i < 2 ^ (53 : Nat)))

/-! ## Marks and bodies -/

/-- Whether a character starts a segment. -/
def isMark (c : Char) : Bool := c = '.' || c = '['

/-- The character that starts a segment, unless it is the first of its path and a name. -/
def mark : Segment → Char
  | .field _ => '.'
  | .index _ => '['

/-- The text of a segment after its mark. -/
def body : Segment → List Char
  | .field name => name.toList
  | .index i => (Path.indexText i).toList ++ [']']

theorem isMark_mark (s : Segment) : isMark s.mark = true := by
  cases s <;> rfl

theorem isMark_eq_false_iff (c : Char) : isMark c = false ↔ c ≠ '.' ∧ c ≠ '[' := by
  simp [isMark]

theorem isMark_of_isDigit {c : Char} (h : c.isDigit = true) : isMark c = false := by
  refine (isMark_eq_false_iff c).mpr ⟨?_, ?_⟩
  · rintro rfl
    cases h
  · rintro rfl
    cases h

/-- A plain index is written with its digits. -/
theorem toList_indexText {i : Int} (h : (index i).IsPlain) :
    (Path.indexText i).toList = Nat.toDigits 10 i.toNat := by
  obtain ⟨hnonneg, hlt⟩ := h
  obtain ⟨n, rfl⟩ := Int.eq_ofNat_of_zero_le hnonneg
  have hsmall : (n : Int).natAbs < 2 ^ (53 : Nat) := by omega
  rw [Path.indexText, if_pos hsmall]
  exact Nat.toList_repr

/-- The body of a plain segment holds no mark. -/
theorem isMark_of_mem_body {s : Segment} (h : s.IsPlain) {c : Char} (hc : c ∈ s.body) :
    isMark c = false := by
  cases s with
  | field name =>
    obtain ⟨_, hpoint, hbracket⟩ := h
    refine (isMark_eq_false_iff c).mpr ⟨?_, ?_⟩
    · rintro rfl
      exact hpoint hc
    · rintro rfl
      exact hbracket hc
  | index i =>
    rw [body, toList_indexText h] at hc
    rcases List.mem_append.mp hc with hdigits | hclosing
    · exact isMark_of_isDigit (Nat.isDigit_of_mem_toDigits (by decide) (by decide) hdigits)
    · obtain rfl := List.mem_singleton.mp hclosing
      rfl

/-- The mark and the body determine a plain segment. -/
theorem eq_of_mark_of_body {s s' : Segment} (h : s.IsPlain) (h' : s'.IsPlain)
    (hmark : s.mark = s'.mark) (hbody : s.body = s'.body) : s = s' := by
  cases s with
  | field name =>
    cases s' with
    | field name' => exact congrArg field (String.toList_inj.mp hbody)
    | index i' => cases hmark
  | index i =>
    cases s' with
    | field name' => cases hmark
    | index i' =>
      rw [body, body, toList_indexText h, toList_indexText h'] at hbody
      have hdigits := List.append_cancel_right hbody
      have hnat : i.toNat = i'.toNat := by
        rw [← Nat.ofDigitChars_ten_toDigits (n := i.toNat), hdigits, Nat.ofDigitChars_ten_toDigits]
      obtain ⟨hnonneg, _⟩ := h
      obtain ⟨hnonneg', _⟩ := h'
      exact congrArg index (by omega)

end Segment

namespace Path

open Segment (isMark)

/-! ## Spelling a path -/

/-- The marks and bodies of the segments of a path. -/
def spell (path : Path) : List Char := path.flatMap fun s => s.mark :: s.body

theorem spell_cons (s : Segment) (rest : Path) :
    spell (s :: rest) = s.mark :: (s.body ++ spell rest) := rfl

/-- After a body the spelling of a path starts with a mark or ends. -/
theorem takeWhile_spell (path : Path) : (spell path).takeWhile (fun c => !isMark c) = [] := by
  cases path with
  | nil => rfl
  | cons s rest => rw [spell_cons, List.takeWhile_cons, Segment.isMark_mark]; rfl

/-- The first segment of a spelling ends where the next mark stands. -/
theorem takeWhile_body_append {s : Segment} (h : s.IsPlain) (rest : Path) :
    (s.body ++ spell rest).takeWhile (fun c => !isMark c) = s.body := by
  have hbody : ∀ c ∈ s.body, (!isMark c) = true := fun c hc => by
    rw [Segment.isMark_of_mem_body h hc]
    rfl
  rw [List.takeWhile_append_of_pos hbody, takeWhile_spell, List.append_nil]

/-- Paths of plain segments are told apart by their spelling. -/
theorem spell_injective {p q : Path} (hp : ∀ s ∈ p, s.IsPlain) (hq : ∀ s ∈ q, s.IsPlain)
    (h : spell p = spell q) : p = q := by
  induction p generalizing q with
  | nil =>
    cases q with
    | nil => rfl
    | cons s' rest' => cases h
  | cons s rest ih =>
    cases q with
    | nil => cases h
    | cons s' rest' =>
      have hs : s.IsPlain := hp s (List.mem_cons_self ..)
      have hs' : s'.IsPlain := hq s' (List.mem_cons_self ..)
      rw [spell_cons, spell_cons] at h
      obtain ⟨hmark, happend⟩ := List.cons.inj h
      -- both bodies reach up to the next mark in the same text
      have hbody : s.body = s'.body := by
        rw [← takeWhile_body_append hs rest, happend, takeWhile_body_append hs' rest']
      rw [hbody] at happend
      obtain rfl := Segment.eq_of_mark_of_body hs hs' hmark hbody
      obtain rfl := ih (fun x hx => hp x (List.mem_cons_of_mem _ hx))
        (fun x hx => hq x (List.mem_cons_of_mem _ hx)) (List.append_cancel_left happend)
      rfl

/-! ## Texts -/

/-- After some text the text of a path is its spelling. -/
theorem formatAfter_eq {written : String} (h : written ≠ "") (path : Path) :
    (formatAfter written path).toList = written.toList ++ spell path := by
  induction path generalizing written with
  | nil => exact (List.append_nil _).symm
  | cons s rest ih =>
    have hempty : written.isEmpty = false := by simpa using h
    cases s with
    | field name =>
      rw [formatAfter, hempty, if_neg Bool.false_ne_true, ih (by simp [h])]
      simp [spell_cons, Segment.mark, Segment.body]
    | index i =>
      rw [formatAfter, ih (by simp [h])]
      simp [spell_cons, Segment.mark, Segment.body]

/-- A text with the mark that a name lacks where it comes first. -/
def marked : List Char → List Char
  | [] => []
  | '[' :: rest => '[' :: rest
  | text => '.' :: text

/-- The text of a path of plain segments is its spelling but for that mark. -/
theorem marked_format {path : Path} (h : ∀ s ∈ path, s.IsPlain) :
    marked path.format.toList = spell path := by
  cases path with
  | nil => rfl
  | cons s rest =>
    cases s with
    | field name =>
      obtain ⟨hne, _, hbracket⟩ := h _ (List.mem_cons_self ..)
      have htext : (format (.field name :: rest)).toList = name.toList ++ spell rest := by
        rw [← formatAfter_eq hne]
        simp [format, formatAfter]
      rw [htext, spell_cons]
      cases hname : name.toList with
      | nil => exact absurd (String.toList_eq_nil_iff.mp hname) hne
      | cons c cs =>
        rw [hname] at hbracket
        have hc : c ≠ '[' := fun he => hbracket (he ▸ List.mem_cons_self ..)
        simp [marked, hc, Segment.mark, Segment.body, hname]
    | index i =>
      have htext : (format (.index i :: rest)).toList = spell (.index i :: rest) := by
        rw [format, formatAfter, formatAfter_eq (by simp)]
        simp [spell_cons, Segment.mark, Segment.body]
      rw [htext]
      rfl

/-- **Paths are told apart by their texts**, if no name in them is empty or holds a point or an
opening bracket, and no index is negative or beyond 2^53. -/
theorem format_eq_iff {p q : Path} (hp : ∀ s ∈ p, s.IsPlain) (hq : ∀ s ∈ q, s.IsPlain) :
    p.format = q.format ↔ p = q := by
  refine ⟨fun h => spell_injective hp hq ?_, fun h => h ▸ rfl⟩
  rw [← marked_format hp, ← marked_format hq, h]

/-- A name that looks like an index is not taken for one. -/
theorem format_eq_iff_numeral :
    (∀ s ∈ [Segment.index 1, .field "1", .field "0"], s.IsPlain) ∧
      (∀ s ∈ [Segment.index 1, .field "1", .index 0], s.IsPlain) ∧
      Path.format [.index 1, .field "1", .field "0"] ≠
        Path.format [.index 1, .field "1", .index 0] := by
  have hp : ∀ s ∈ [Segment.index 1, .field "1", .field "0"], s.IsPlain := by decide
  have hq : ∀ s ∈ [Segment.index 1, .field "1", .index 0], s.IsPlain := by decide
  exact ⟨hp, hq, fun h => absurd ((format_eq_iff hp hq).mp h) (by decide)⟩

/-- A name that holds a point reads like two. -/
example : Path.format [.field "a.b"] = Path.format [.field "a", .field "b"] := by
  decide

end Path

end TypedQuery
