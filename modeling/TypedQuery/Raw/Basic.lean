import TypedQuery.Value.Basic

/-!
# Raw values

What stands at a position before coercion: a literal of query text, a reference to a variable,
nothing at all, or an external value (one of a variable or a default).

* `Raw`: the raw values;
* `items?`, `field`: lists and objects, read in the same way whether written inline or supplied from
  outside;
* `sizeOf_lt_of_items?`, `sizeOf_field_lt`: what is read from a raw value is smaller than it.
-/

namespace TypedQuery

inductive Raw
  | int (numeral : String)
  | float (numeral : String)
  | string (s : String)
  | boolean (b : Bool)
  | enum (symbol : String)
  | null
  | list (items : List Raw)
  | object (fields : List (String × Raw))
  | variable (name : String)
  | absent
  | external (v : Value)

namespace Raw

/-! ## Construction and classification -/

/-- The raw form of an external value; undefined says that nothing was supplied. -/
def ofValue : Value → Raw
  | .undefined => .absent
  | v => .external v

/-- The raw form of an array slot, in which an empty slot supplies nothing. -/
def ofSlot : Option Value → Raw
  | some v => ofValue v
  | none => .absent

/-- An explicit null, inline or from outside. -/
def isNull : Raw → Bool
  | .null | .external .null => true
  | _ => false

def isAbsent : Raw → Bool
  | .absent => true
  | _ => false

/-! ## Reading lists and objects -/

/-- The items of a list. -/
def items? : Raw → Option (List Raw)
  | .list items => some items
  | .external (.array _ slots) => some (slots.map ofSlot)
  | _ => none

/-- The last field of a name. -/
def lastField? (name : String) : List (String × Raw) → Option Raw
  | [] => none
  | f :: rest =>
    match lastField? name rest with
    | some raw => some raw
    | none => if f.1 = name then some f.2 else none

/-- What an object holds under a name, if the raw value is an object: the last of the fields of
that name, or the member, or nothing. -/
def field? (name : String) : Raw → Option Raw
  | .object fields => some ((lastField? name fields).getD .absent)
  | .external v =>
    v.plainMembers?.map fun members => ((Members.get? members name).map ofValue).getD .absent
  | _ => none

/-- What an object holds under a name; what is no object holds nothing. -/
def field (name : String) (raw : Raw) : Raw := (raw.field? name).getD .absent

def isObject : Raw → Bool
  | .object _ => true
  | .external v => v.isPlain
  | _ => false

theorem isObject_iff_field? (raw : Raw) (name : String) :
    raw.isObject = true ↔ (raw.field? name).isSome = true := by
  cases raw <;> simp [isObject, field?, Value.isPlain]

/-! ## Sizes -/

theorem sizeOf_absent : sizeOf Raw.absent = 1 := rfl

theorem sizeOf_ofValue_le (v : Value) : sizeOf (ofValue v) ≤ 1 + sizeOf v := by
  unfold ofValue
  split <;> simp

theorem sizeOf_ofSlot_le (slot : Option Value) : sizeOf (ofSlot slot) ≤ 1 + sizeOf slot := by
  cases slot with
  | none => simp [ofSlot]
  | some v =>
    have := sizeOf_ofValue_le v
    simp only [ofSlot, Option.some.sizeOf_spec]
    omega

theorem sizeOf_lt_of_items? {raw item : Raw} {items : List Raw} (h : raw.items? = some items)
    (hi : item ∈ items) : sizeOf item < sizeOf raw := by
  unfold items? at h
  split at h
  · obtain rfl := Option.some.inj h
    have := List.sizeOf_lt_of_mem hi
    simp only [Raw.list.sizeOf_spec]
    omega
  · obtain rfl := Option.some.inj h
    obtain ⟨slot, hs, rfl⟩ := List.mem_map.1 hi
    have := List.sizeOf_lt_of_mem hs
    have := sizeOf_ofSlot_le slot
    simp only [Raw.external.sizeOf_spec, Value.array.sizeOf_spec]
    omega
  · cases h

theorem sizeOf_lt_of_lastField? {name : String} {fields : List (String × Raw)} {raw : Raw}
    (h : lastField? name fields = some raw) : sizeOf raw < sizeOf fields := by
  induction fields with
  | nil => cases h
  | cons f rest ih =>
    obtain ⟨n, r⟩ := f
    unfold lastField? at h
    split at h
    · next hrest =>
      obtain rfl := Option.some.inj h
      have := ih hrest
      simp only [List.cons.sizeOf_spec]
      omega
    · split at h
      · obtain rfl := Option.some.inj h
        simp only [List.cons.sizeOf_spec, Prod.mk.sizeOf_spec]
        omega
      · cases h

theorem sizeOf_lt_of_get? {key : String} {members : List (String × Value)} {v : Value}
    (h : Members.get? members key = some v) : sizeOf v < sizeOf members := by
  induction members with
  | nil => cases h
  | cons m rest ih =>
    obtain ⟨k, w⟩ := m
    unfold Members.get? at h
    simp only [List.cons.sizeOf_spec, Prod.mk.sizeOf_spec]
    split at h
    · obtain rfl := Option.some.inj h
      show sizeOf w < _
      omega
    · have := ih h
      omega

theorem sizeOf_member_lt (key : String) (members : List (String × Value)) :
    sizeOf (((Members.get? members key).map ofValue).getD .absent) < 2 + sizeOf members := by
  cases h : Members.get? members key with
  | none =>
    simp only [Option.map_none, Option.getD_none, sizeOf_absent]
    omega
  | some v =>
    have := sizeOf_lt_of_get? h
    have := sizeOf_ofValue_le v
    simp only [Option.map_some, Option.getD_some]
    omega

theorem sizeOf_lt_of_plainMembers? {v : Value} {members : Members Value}
    (h : v.plainMembers? = some members) : 2 + sizeOf members ≤ sizeOf v := by
  unfold Value.plainMembers? at h
  split at h
  · cases h
  · obtain rfl := Option.some.inj h
    next ancestry mark _ _ =>
      simp only [Value.object.sizeOf_spec]
      have : 0 < sizeOf ancestry := by cases ancestry <;> decide
      omega
  · cases h

theorem sizeOf_lt_of_field? {name : String} {raw held : Raw} (h : raw.field? name = some held) :
    sizeOf held < sizeOf raw := by
  unfold field? at h
  split at h
  · next fields =>
    obtain rfl := Option.some.inj h
    simp only [Raw.object.sizeOf_spec]
    cases hf : lastField? name fields with
    | none =>
      have : 0 < sizeOf fields := by cases fields <;> simp +arith
      simp only [Option.getD_none, sizeOf_absent]
      omega
    | some r =>
      have := sizeOf_lt_of_lastField? hf
      simp only [Option.getD_some]
      omega
  · next v =>
    obtain ⟨members, hm, rfl⟩ := Option.map_eq_some_iff.1 h
    have := sizeOf_lt_of_plainMembers? hm
    have := sizeOf_member_lt name members
    simp only [Raw.external.sizeOf_spec]
    omega
  · cases h

theorem sizeOf_field_lt {raw : Raw} (h : raw.isObject = true) (name : String) :
    sizeOf (raw.field name) < sizeOf raw := by
  obtain ⟨held, hf⟩ := Option.isSome_iff_exists.1 ((isObject_iff_field? raw name).1 h)
  rw [field, hf]
  exact sizeOf_lt_of_field? hf

end Raw

end TypedQuery
