import TypedQuery.Proofs.Members
import TypedQuery.Proofs.Number.Integral
import TypedQuery.Proofs.Raw.Nodes
import TypedQuery.Number.Shortest
import TypedQuery.Raw.Plain

/-!
# Reading the plain values of literals

The plain value of a literal is read as the literal is, list by list and object by object.

* `IsFaithful`: the literals whose numerals are written as numbers are;
* `items?_toValue`, `field_toValue`, `isObject_toValue`: lists and objects.
-/

namespace TypedQuery.Raw

/-! ## Faithful literals -/

/-- A node of query text whose plain value keeps what is written: numerals name finite numbers, that
of an integer is an integer token and names a number that is written like it, and no field of an
object has the reserved name. -/
def IsFaithfulNode : Raw → Prop
  | .int numeral => Number.IsIntegerToken numeral ∧ (Number.ofNumeral numeral).isFinite = true ∧
      (Number.ofNumeral numeral).text = numeral
  | .float numeral => (Number.ofNumeral numeral).isFinite = true
  | .object fields => ∀ f ∈ fields, f.1 ≠ Members.reservedKey
  | .variable _ | .absent | .external _ => False
  | .string _ | .boolean _ | .enum _ | .null | .list _ => True

/-- A literal, without references and absences, whose plain value keeps what is written. -/
def IsFaithful (raw : Raw) : Prop := ∀ n ∈ raw.nodes, n.IsFaithfulNode

theorem IsFaithful.node {raw : Raw} (h : raw.IsFaithful) : raw.IsFaithfulNode :=
  h raw (mem_nodes_self raw)

theorem IsFaithful.isConstant {raw : Raw} (h : raw.IsFaithful) : raw.IsConstant := by
  intro n hn
  have hnode := h n hn
  cases n <;> first | exact ⟨rfl, rfl⟩ | exact hnode.elim

theorem IsFaithful.of_items? {raw item : Raw} {items : List Raw} (h : raw.IsFaithful)
    (hitems : raw.items? = some items) (hi : item ∈ items) : item.IsFaithful := by
  match raw with
  | .list items' =>
    obtain rfl := Option.some.inj hitems
    intro n hn
    exact h n (by rw [nodes]; exact List.mem_cons_of_mem _ (mem_itemNodes.mpr ⟨item, hi, hn⟩))
  | .external _ => exact h.node.elim
  | .int _ | .float _ | .string _ | .boolean _ | .enum _ | .null | .absent | .object _
  | .variable _ => cases hitems

theorem IsFaithful.of_lastField? {fields : List (String × Raw)} {name : String} {held : Raw}
    (h : (object fields).IsFaithful) (hf : lastField? name fields = some held) :
    held.IsFaithful := by
  intro n hn
  refine h n ?_
  rw [nodes]
  exact List.mem_cons_of_mem _ (mem_fieldNodes.mpr ⟨_, lastField?_mem hf, hn⟩)

/-! ## Plain values -/

theorem itemValues_eq_map (supplied : Members Value) (items : List Raw) :
    itemValues supplied items = items.map (toValue supplied) := by
  induction items with
  | nil => rfl
  | cons item rest ih => rw [itemValues, ih, List.map_cons]

theorem fieldValues_eq_map (supplied : Members Value) (fields : List (String × Raw)) :
    fieldValues supplied fields = fields.map fun f => (f.1, f.2.toValue supplied) := by
  induction fields with
  | nil => rfl
  | cons f rest ih => rw [fieldValues, ih, List.map_cons]

theorem get?_fieldValues (supplied : Members Value) (fields : List (String × Raw))
    (name : String) :
    Members.get? (fieldValues supplied fields).reverse name =
      (lastField? name fields).map (toValue supplied) := by
  induction fields with
  | nil => rfl
  | cons f rest ih =>
    obtain ⟨n, held⟩ := f
    rw [fieldValues, List.reverse_cons, Members.get?_append, ih, lastField?]
    cases lastField? name rest with
    | some r => rfl
    | none => by_cases h : n = name <;> simp [Members.get?, h]

variable {raw : Raw}

theorem toValue_object {fields : List (String × Raw)} (h : (object fields).IsFaithful) :
    (object fields).toValue [] = .record (Members.ofList (fieldValues [] fields)) := by
  rw [toValue]
  refine Value.ofAssignments_eq_record fun a ha => ?_
  rw [fieldValues_eq_map] at ha
  obtain ⟨f, hf, rfl⟩ := List.mem_map.mp ha
  exact h.node f hf

/-- A literal never spells undefined. -/
theorem ofValue_toValue (h : raw.IsFaithful) :
    ofValue (raw.toValue []) = .external (raw.toValue []) := by
  match raw with
  | .object fields => rw [toValue_object h]; rfl
  | .variable _ | .absent | .external _ => exact h.node.elim
  | .int _ | .float _ | .string _ | .boolean _ | .enum _ | .null | .list _ => rfl

theorem isNull_toValue (h : raw.IsFaithful) :
    (external (raw.toValue [])).isNull = raw.isNull := by
  match raw with
  | .object fields => rw [toValue_object h]; rfl
  | .variable _ | .absent | .external _ => exact h.node.elim
  | .int _ | .float _ | .string _ | .boolean _ | .enum _ | .null | .list _ => rfl

theorem items?_toValue (h : raw.IsFaithful) :
    (external (raw.toValue [])).items? =
      raw.items?.map fun items => items.map fun item => .external (item.toValue []) := by
  match raw with
  | .list items =>
    simp only [toValue, Value.list, items?, itemValues_eq_map, List.map_map, Option.map_some]
    refine congrArg some (List.map_congr_left fun item hi => ?_)
    exact ofValue_toValue (h.of_items? rfl hi)
  | .object fields => rw [toValue_object h]; rfl
  | .variable _ | .absent | .external _ => exact h.node.elim
  | .int _ | .float _ | .string _ | .boolean _ | .enum _ | .null => rfl

theorem isObject_toValue (h : raw.IsFaithful) :
    (external (raw.toValue [])).isObject = raw.isObject := by
  match raw with
  | .object fields => rw [toValue_object h]; rfl
  | .variable _ | .absent | .external _ => exact h.node.elim
  | .int _ | .float _ | .string _ | .boolean _ | .enum _ | .null | .list _ => rfl

/-- Under a name both hold nothing, or the plain value holds that of what the literal holds: of
repeated fields the last. -/
theorem field_toValue (h : raw.IsFaithful) (name : String) :
    (external (raw.toValue [])).field name = raw.field name ∨
      (raw.field name).IsFaithful ∧
        (external (raw.toValue [])).field name = .external ((raw.field name).toValue []) := by
  match raw with
  | .object fields =>
    have hget : (external ((object fields).toValue [])).field name =
        (((lastField? name fields).map (toValue [])).map ofValue).getD .absent := by
      rw [toValue_object h, ← get?_fieldValues, ← Members.get?_ofList]
      rfl
    have hfield : (object fields).field name = (lastField? name fields).getD .absent := rfl
    rw [hget, hfield]
    cases hf : lastField? name fields with
    | none => exact Or.inl rfl
    | some held =>
      have hheld := h.of_lastField? hf
      exact Or.inr ⟨hheld, ofValue_toValue hheld⟩
  | .variable _ | .absent | .external _ => exact h.node.elim
  | .int _ | .float _ | .string _ | .boolean _ | .enum _ | .null | .list _ => exact Or.inl rfl

end TypedQuery.Raw
