import TypedQuery.Number.Shortest
import TypedQuery.Text.Quoted
import TypedQuery.Value.Ancestry

/-!
# Texts of values

A value has three texts:

* `text?`: bare, as a part of a sentence; an object need not have one, and the members of an heir of
  an array change the text of the array;
* `literal?`: in query syntax, as far as a value has one;
* `inspect`: as resolver messages quote it.
-/

namespace TypedQuery.Value

open Text (quote)

/-- The text of a value that holds no other. -/
def atomText : Value → String
  | .undefined => "undefined"
  | .null => "null"
  | .boolean b => if b then "true" else "false"
  | .number n => n.text
  | .bigint n => toString n
  | .string s => s
  | .array .. => ""
  | .object .. | .heir .. => "[object Object]"

/-! ## The bare text -/

/-- A member of this key hides the writer of an object, and the object has no text. -/
def writerKey : String := "toString"

/-- A member of this key hides what the writer of an array joins its items with. -/
def joinerKey : String := "join"

def hides (members : Members α) (key : String) : Bool := (members.get? key).isSome

/-- A value beside its bare text. -/
structure Held where
  value : Value
  text? : Option String

namespace Held

/-- The text as an item of an array, in which values that are none have no text. -/
def itemText? (held : Held) : Option String :=
  if held.value.isNullish then some "" else held.text?

/-- The length of a list, where the value stands for it. -/
def length? (held : Held) : Option Nat :=
  match held.value with
  | .undefined | .null => some 0
  | .boolean b => some b.toNat
  | .number n => some n.toLength
  | .bigint _ => none
  | .string _ | .array .. | .object .. | .heir .. =>
    held.text?.map fun text => (Number.ofNumeral text).toLength

end Held

/-- The texts of as many items as there are said to be: those of the slots of an array, but for the
items that members stand before. -/
def itemTexts (own : Members Held) (slots : List (Option String)) (length : Nat) :
    List (Option String) :=
  let inherited := slots.take length ++ List.replicate (length - slots.length) (some "")
  inherited.zipIdx.map fun (text?, k) => (own.get? (toString k)).elim text? Held.itemText?

/-- The text of an array with the texts of its slots, if members stand before its own. -/
def arrayText? (own : Members Held) (slots : List (Option String)) : Option String :=
  if hides own writerKey then none
  else if hides own joinerKey then some (atomText (.record []))
  else do
    let length ← (own.get? "length").elim (some slots.length) Held.length?
    let items ← (itemTexts own slots length).mapM id
    return ",".intercalate items

mutual

/-- The bare text of a value before whose members others stand. -/
def textBehind? (own : Members Held) : Value → Option String
  | .array _ slots => arrayText? own (slotTexts slots)
  | .object .bare _ _ => none
  | .object ancestry mark members =>
    if hides own writerKey || hides members writerKey then none
    else some (atomText (.object ancestry mark members))
  | .heir ancestor members => textBehind? (own ++ heldMembers members) ancestor
  | v => if hides own writerKey then none else some v.atomText

def slotTexts : List (Option Value) → List (Option String)
  | [] => []
  | none :: rest => some "" :: slotTexts rest
  | some v :: rest => Held.itemText? ⟨v, textBehind? [] v⟩ :: slotTexts rest

def heldMembers : List (String × Value) → Members Held
  | [] => []
  | (key, v) :: rest => (key, ⟨v, textBehind? [] v⟩) :: heldMembers rest

end

/-- The bare text of a value. An array lists the texts of its items, in which empty slots and
values that are none have no text. The writer of objects comes from the root of all ancestries. An
heir is written as its ancestor is, but that its own members stand before those of the ancestor. -/
def text? (v : Value) : Option String := textBehind? [] v

theorem itemTexts_nil (texts : List (Option String)) :
    itemTexts [] texts texts.length = texts := by
  simp [itemTexts, Members.get?]

theorem text?_array (mark : Option Nat) (slots : List (Option Value)) :
    text? (.array mark slots) = ((slotTexts slots).mapM id).map (",".intercalate ·) := by
  have hslots : text? (.array mark slots) =
      ((itemTexts [] (slotTexts slots) (slotTexts slots).length).mapM id).bind
        (some ∘ (",".intercalate ·)) := rfl
  rw [hslots, itemTexts_nil, Option.map_eq_bind]

/-! ## The text in query syntax -/

mutual

/-- The text of a value in query syntax; the instances of classes, and heirs, have only their bare
text. -/
def literal? : Value → Option String
  | .array _ slots => (slotLiterals? slots).map fun items => "[" ++ ", ".intercalate items ++ "]"
  | .object .classed mark members => text? (.object .classed mark members)
  | .object _ _ members =>
    (memberLiterals? members).map fun held => "\x7b" ++ ", ".intercalate held ++ "\x7d"
  | .string s => some (quote s)
  | v => v.text?

def slotLiterals? : List (Option Value) → Option (List String)
  | [] => some []
  | none :: rest => (slotLiterals? rest).map ("" :: ·)
  | some v :: rest => do return (← v.literal?) :: (← slotLiterals? rest)

def memberLiterals? : List (String × Value) → Option (List String)
  | [] => some []
  | (key, v) :: rest => do return (key ++ ": " ++ (← v.literal?)) :: (← memberLiterals? rest)

end

/-! ## The quoted text -/

mutual

/-- The text of a value as resolver messages quote it: objects are marked by a percent sign, and
null stands for undefined. -/
def inspect : Value → String
  | .array _ slots => "[" ++ ", ".intercalate (slotInspections slots) ++ "]"
  | .object _ _ members => "%\x7b" ++ ", ".intercalate (memberInspections members) ++ "\x7d"
  | .heir _ members => "%\x7b" ++ ", ".intercalate (memberInspections members) ++ "\x7d"
  | .string s => quote s
  | .undefined => "null"
  | v => v.atomText

def slotInspections : List (Option Value) → List String
  | [] => []
  | none :: rest => "" :: slotInspections rest
  | some v :: rest => v.inspect :: slotInspections rest

def memberInspections : List (String × Value) → List String
  | [] => []
  | (key, v) :: rest => (key ++ ": " ++ v.inspect) :: memberInspections rest

end

end TypedQuery.Value
