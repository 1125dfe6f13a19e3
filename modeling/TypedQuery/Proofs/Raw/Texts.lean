import TypedQuery.Proofs.Members
import TypedQuery.Proofs.Raw.Nodes

/-!
# Texts of what is inside

A raw value has a text only if everything that is read from it has one.

* `slotLiterals?_eq_none_iff`, `memberLiterals?_eq_none_iff`, `itemTexts?_eq_none_iff`,
  `fieldTexts?_eq_none_iff`: a sequence has a text exactly if each part has;
* `text?_item`, `text?_field`: the items of a list, and what an object holds.
-/

namespace TypedQuery

namespace Value

theorem slotLiterals?_eq_none_iff {slots : List (Option Value)} :
    slotLiterals? slots = none ↔ ∃ v, some v ∈ slots ∧ v.literal? = none := by
  induction slots with
  | nil => simp [slotLiterals?]
  | cons slot rest ih =>
    cases slot with
    | none => simp [slotLiterals?, ih]
    | some v =>
      simp only [List.mem_cons, Option.some.injEq, or_and_right, exists_or, exists_eq_left, ← ih]
      cases hv : v.literal? <;> cases hr : slotLiterals? rest <;>
        simp [slotLiterals?, hv, hr]

theorem memberLiterals?_eq_none_iff {members : Members Value} :
    memberLiterals? members = none ↔ ∃ m ∈ members, m.2.literal? = none := by
  induction members with
  | nil => simp [memberLiterals?]
  | cons m rest ih =>
    obtain ⟨key, v⟩ := m
    simp only [List.mem_cons, or_and_right, exists_or, exists_eq_left, ← ih]
    cases hv : v.literal? <;> cases hr : memberLiterals? rest <;>
      simp [memberLiterals?, hv, hr]

/-- What an object that is read member by member holds has a text if the object has one. -/
theorem literal?_member {v held : Value} {members : Members Value} {key : String}
    (hm : v.plainMembers? = some members) (hk : Members.get? members key = some held)
    (h : v.literal? ≠ none) : held.literal? ≠ none := by
  intro hnone
  refine h ?_
  have hmembers : memberLiterals? members = none :=
    memberLiterals?_eq_none_iff.mpr ⟨_, Members.mem_of_get? hk, hnone⟩
  match v with
  | .object .root _ _ | .object .plain _ _ | .object .bare _ _ =>
    obtain rfl := Option.some.inj hm
    simp only [literal?, hmembers, Option.map_none]
  | .object .classed _ _ | .undefined | .null | .boolean _ | .number _ | .bigint _ | .string _
  | .array .. | .heir .. => cases hm

end Value

namespace Raw

theorem itemTexts?_eq_none_iff {items : List Raw} :
    itemTexts? items = none ↔ ∃ item ∈ items, item.text? = none := by
  induction items with
  | nil => simp [itemTexts?]
  | cons item rest ih => rw [itemTexts?_cons_eq_none_iff, ih]; simp

theorem fieldTexts?_eq_none_iff {fields : List (String × Raw)} :
    fieldTexts? fields = none ↔ ∃ f ∈ fields, f.2.text? = none := by
  induction fields with
  | nil => simp [fieldTexts?]
  | cons f rest ih =>
    obtain ⟨name, held⟩ := f
    rw [fieldTexts?_cons_eq_none_iff, ih]
    simp

theorem text?_list_eq_none_iff {items : List Raw} :
    (list items).text? = none ↔ ∃ item ∈ items, item.text? = none := by
  rw [text?, Option.map_eq_none_iff, itemTexts?_eq_none_iff]

theorem text?_object_eq_none_iff {fields : List (String × Raw)} :
    (object fields).text? = none ↔ ∃ f ∈ fields, f.2.text? = none := by
  rw [text?, Option.map_eq_none_iff, fieldTexts?_eq_none_iff]

theorem text?_ofValue {v : Value} (h : v.literal? ≠ none) : (ofValue v).text? ≠ none := by
  cases v with
  | undefined => exact Option.some_ne_none _
  | _ => exact h

/-! ## What is read from a raw value -/

theorem text?_item {raw item : Raw} {items : List Raw} (hitems : raw.items? = some items)
    (hi : item ∈ items) (h : raw.text? ≠ none) : item.text? ≠ none := by
  unfold items? at hitems
  split at hitems
  · obtain rfl := Option.some.inj hitems
    exact fun hnone => h (text?_list_eq_none_iff.mpr ⟨item, hi, hnone⟩)
  · next mark slots =>
    obtain rfl := Option.some.inj hitems
    obtain ⟨slot, hslot, rfl⟩ := List.mem_map.mp hi
    cases slot with
    | none => exact Option.some_ne_none _
    | some v =>
      refine text?_ofValue fun hnone => h ?_
      rw [text?, Value.literal?, Option.map_eq_none_iff, Value.slotLiterals?_eq_none_iff]
      exact ⟨v, hslot, hnone⟩
  · cases hitems

theorem text?_field {raw : Raw} (h : raw.text? ≠ none) (name : String) :
    (raw.field name).text? ≠ none := by
  unfold field field?
  split
  · next fields =>
    cases hf : lastField? name fields with
    | none => exact Option.some_ne_none _
    | some held =>
      exact fun hnone => h (text?_object_eq_none_iff.mpr ⟨_, lastField?_mem hf, hnone⟩)
  · next v =>
    cases hm : v.plainMembers? with
    | none => exact Option.some_ne_none _
    | some members =>
      cases hk : Members.get? members name with
      | none => simp [hk, text?]
      | some held =>
        have hheld := text?_ofValue (Value.literal?_member hm hk h)
        simpa [hk] using hheld
  · exact Option.some_ne_none _

end Raw

end TypedQuery
