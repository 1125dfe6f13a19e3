/-!
# Sixteen-bit units

Some texts are cut by their length in units of sixteen bits, of which a character takes one, or two
if it lies above U+FFFF.
-/

namespace TypedQuery.Text

def unitCount (c : Char) : Nat := if c.toNat < 0x10000 then 1 else 2

/-- The longest prefix that takes at most so many units. -/
def takeUnits : Nat → List Char → List Char
  | _, [] => []
  | n, c :: rest => if unitCount c ≤ n then c :: takeUnits (n - unitCount c) rest else []

theorem length_takeUnits_le (n : Nat) (text : List Char) : (takeUnits n text).length ≤ n := by
  induction text generalizing n with
  | nil => simp [takeUnits]
  | cons c rest ih =>
    unfold takeUnits
    have : 1 ≤ unitCount c := by unfold unitCount; split <;> omega
    split
    · have := ih (n - unitCount c)
      simp only [List.length_cons]
      omega
    · simp

end TypedQuery.Text
