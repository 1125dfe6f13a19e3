/-!
# Blank characters

* `isBlank`: the characters that are no part of a setting or a numeral when they stand around it;
* `trim`: a text without the blanks around it; `trim_eq_self`: it keeps a text without blanks;
* `isBlank_of_isWhitespace`: every white space character of ASCII is blank.
-/

namespace TypedQuery.Text

/-- The blanks and line ends of ASCII, the space separators of Unicode, its line and paragraph
separator, and the byte order mark. -/
def isBlank (c : Char) : Bool :=
  let n := c.toNat
  (9 ≤ n && n ≤ 13) || n == 32 || n == 0xA0 || n == 0x1680 || (0x2000 ≤ n && n ≤ 0x200A)
    || n == 0x2028 || n == 0x2029 || n == 0x202F || n == 0x205F || n == 0x3000 || n == 0xFEFF

def trim (s : String) : String :=
  String.ofList ((s.toList.dropWhile isBlank).reverse.dropWhile isBlank).reverse

theorem dropWhile_isBlank {text : List Char} (h : ∀ c ∈ text, isBlank c = false) :
    text.dropWhile isBlank = text := by
  cases text with
  | nil => rfl
  | cons c text => simp [h c (List.mem_cons_self ..)]

theorem trim_eq_self {s : String} (h : ∀ c ∈ s.toList, isBlank c = false) : trim s = s := by
  have hreverse : ∀ c ∈ s.toList.reverse, isBlank c = false :=
    fun c hc => h c (List.mem_reverse.mp hc)
  rw [trim, dropWhile_isBlank h, dropWhile_isBlank hreverse, List.reverse_reverse,
    String.ofList_toList]

theorem isBlank_of_isWhitespace {c : Char} (h : c.isWhitespace = true) : isBlank c = true := by
  simp only [Char.isWhitespace, Bool.or_eq_true, decide_eq_true_eq] at h
  rcases h with ((rfl | rfl) | rfl) | rfl <;> decide

end TypedQuery.Text
