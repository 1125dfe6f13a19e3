import TypedQuery.Execution.Serialize
import TypedQuery.Proofs.Traversal

/-!
# What is written

When a value is written through a type, and as what: for each kind of type, and for a list slot by
slot.

* `writeSlot`, `serialize_array`: a list is written slot by slot;
* `serialize_required_eq_ok_iff`, `serialize_list_eq_ok_iff`, `serializeNamed_eq_ok_iff`: what is
  written, for each kind of type.
-/

namespace TypedQuery

variable {ν : Type} {g : TypeGraph ν} {v r : Value}

theorem serialize_required_eq_ok_iff {inner : TypeRef (TypeId ν)} :
    serialize g (.required inner) v = .ok r ↔
      v.isNullish = false ∧ serialize g inner v = .ok r := by
  rw [serialize]
  cases v.isNullish <;> simp

/-- Writes what stands in a slot. -/
def writeSlot (g : TypeGraph ν) (item : TypeRef (TypeId ν)) (slot : Option Value) :
    Except SerializeError (Option Value) :=
  slot.elim (.ok none) fun held => (serialize g item held).map some

/-- A list is written slot by slot, and its result carries no mark. -/
theorem serialize_array (item : TypeRef (TypeId ν)) (mark : Option Nat)
    (slots : List (Option Value)) :
    serialize g (.list item) (.array mark slots) =
      (slots.mapM (writeSlot g item)).map (.array none) := by
  simp only [serialize, Value.isNullish, Bool.false_eq_true, if_false]
  refine (congrArg (· >>= fun written => pure (Value.array none written))
    (mapM_congr fun slot _ => ?_ : _ = slots.mapM (writeSlot g item))).trans ?_
  · cases slot <;> rfl
  · cases slots.mapM (writeSlot g item) <;> rfl

theorem serialize_list_eq_ok_iff {item : TypeRef (TypeId ν)} :
    serialize g (.list item) v = .ok r ↔
      v.isNullish = true ∧ r = .null ∨
        ∃ mark slots written, v = .array mark slots ∧ r = .array none written ∧
          List.Forall₂ (fun slot w => writeSlot g item slot = .ok w) slots written := by
  cases v with
  | undefined | null => simp [serialize, Value.isNullish, eq_comm]
  | array mark slots =>
    rw [serialize_array, map_eq_ok_iff]
    simp only [mapM_eq_ok_iff, Value.isNullish, Bool.false_eq_true, false_and, false_or]
    constructor
    · rintro ⟨written, h, rfl⟩
      exact ⟨mark, slots, written, rfl, rfl, h⟩
    · rintro ⟨_, _, written, heq, rfl, h⟩
      obtain ⟨rfl, rfl⟩ := Value.array.inj heq
      exact ⟨written, h, rfl⟩
  | _ => simp [serialize, Value.isNullish]

theorem serializeNamed_eq_ok_iff {id : TypeId ν} :
    serializeNamed g id v = .ok r ↔
      (∀ o, g.describe id ≠ .input o) ∧ v.isNullish = true ∧ r = .null ∨
        v.isNullish = false ∧
          ((∃ s, g.describe id = .scalar s ∧ s.serialize v = .ok r) ∨
            ∃ e symbol, g.describe id = .enum e ∧ e.symbolOf? v = some symbol ∧
              r = .string symbol) := by
  unfold serializeNamed
  cases hd : g.describe id with
  | input o => simp
  | scalar s =>
    cases v.isNullish with
    | true => simp [eq_comm]
    | false => cases hs : s.serialize v <;> simp [Except.mapError, hs]
  | enum e =>
    cases v.isNullish with
    | true => simp [eq_comm]
    | false => cases he : e.symbolOf? v <;> simp [he, eq_comm]

end TypedQuery
