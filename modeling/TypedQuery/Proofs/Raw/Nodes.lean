import TypedQuery.Raw.Text

/-!
# Nodes of raw values

A raw value is a tree of literals; an external value is a leaf of it.

* `nodes`: the raw values that a raw value is made of, itself included;
* `IsSettled`, `IsConstant`: no node is a reference, and no node is absent either;
* `substitute`: each reference replaced by what it stands for;
* `items?_substitute`, `field_substitute`: lists and objects with their references replaced;
* `text?_substitute_eq_none_iff`: replacing references takes the text away exactly if something has
  none that a reference stands for.
-/

namespace TypedQuery.Raw

/-! ## Nodes -/

mutual

/-- A raw value and all raw values written inside it. -/
def nodes : Raw → List Raw
  | .list items => .list items :: itemNodes items
  | .object fields => .object fields :: fieldNodes fields
  | raw => [raw]

def itemNodes : List Raw → List Raw
  | [] => []
  | item :: rest => item.nodes ++ itemNodes rest

def fieldNodes : List (String × Raw) → List Raw
  | [] => []
  | (_, held) :: rest => held.nodes ++ fieldNodes rest

end

theorem mem_nodes_self (raw : Raw) : raw ∈ raw.nodes := by
  cases raw <;> simp [nodes]

theorem mem_itemNodes {items : List Raw} {node : Raw} :
    node ∈ itemNodes items ↔ ∃ item ∈ items, node ∈ item.nodes := by
  induction items with
  | nil => simp [itemNodes]
  | cons item rest ih => simp [itemNodes, ih]

theorem mem_fieldNodes {fields : List (String × Raw)} {node : Raw} :
    node ∈ fieldNodes fields ↔ ∃ f ∈ fields, node ∈ f.2.nodes := by
  induction fields with
  | nil => simp [fieldNodes]
  | cons f rest ih =>
    obtain ⟨name, held⟩ := f
    simp [fieldNodes, ih]

theorem lastField?_mem {name : String} {fields : List (String × Raw)} {held : Raw}
    (h : lastField? name fields = some held) : (name, held) ∈ fields := by
  induction fields with
  | nil => cases h
  | cons f rest ih =>
    unfold lastField? at h
    split at h
    · next hrest =>
      obtain rfl := Option.some.inj h
      exact List.mem_cons_of_mem _ (ih hrest)
    · split at h
      · next hname =>
        obtain rfl := Option.some.inj h
        subst hname
        exact List.mem_cons_self ..
      · cases h

/-- The items of a list are written inside it, or are slots of an external array. -/
theorem nodes_of_items? {raw item : Raw} {items : List Raw} (h : raw.items? = some items)
    (hi : item ∈ items) : (∀ n ∈ item.nodes, n ∈ raw.nodes) ∨ ∃ slot, item = ofSlot slot := by
  unfold items? at h
  split at h
  · obtain rfl := Option.some.inj h
    refine Or.inl fun n hn => ?_
    rw [nodes, List.mem_cons]
    exact Or.inr (mem_itemNodes.mpr ⟨item, hi, hn⟩)
  · obtain rfl := Option.some.inj h
    obtain ⟨slot, _, rfl⟩ := List.mem_map.mp hi
    exact Or.inr ⟨slot, rfl⟩
  · cases h

/-- What an object holds is written inside it, or is a member of an external object, or nothing. -/
theorem nodes_of_field (name : String) (raw : Raw) :
    (∀ n ∈ (raw.field name).nodes, n ∈ raw.nodes) ∨ ∃ slot, raw.field name = ofSlot slot := by
  unfold field field?
  split
  · next fields =>
    cases hf : lastField? name fields with
    | none => exact Or.inr ⟨none, rfl⟩
    | some held =>
      refine Or.inl fun n hn => ?_
      rw [nodes, List.mem_cons]
      exact Or.inr (mem_fieldNodes.mpr ⟨_, lastField?_mem hf, hn⟩)
  · next v =>
    refine Or.inr ?_
    cases v.plainMembers? with
    | none => exact ⟨none, rfl⟩
    | some members =>
      cases hm : Members.get? members name with
      | none => exact ⟨none, by simp [hm, ofSlot]⟩
      | some w => exact ⟨some w, by simp [hm, ofSlot]⟩
  · exact Or.inr ⟨none, rfl⟩

/-! ## Settled and constant raw values -/

def isReference : Raw → Bool
  | .variable _ => true
  | _ => false

/-- No node is a reference. -/
def IsSettled (raw : Raw) : Prop := ∀ n ∈ raw.nodes, n.isReference = false

/-- No node is a reference or absent. -/
def IsConstant (raw : Raw) : Prop := ∀ n ∈ raw.nodes, n.isReference = false ∧ n.isAbsent = false

theorem IsConstant.isSettled {raw : Raw} (h : raw.IsConstant) : raw.IsSettled :=
  fun n hn => (h n hn).1

theorem IsConstant.isAbsent_eq {raw : Raw} (h : raw.IsConstant) : raw.isAbsent = false :=
  (h raw (mem_nodes_self raw)).2

theorem IsSettled.ne_variable {raw : Raw} (h : raw.IsSettled) (name : String) :
    raw ≠ .variable name := by
  rintro rfl
  exact Bool.noConfusion (h _ (mem_nodes_self _))

theorem isSettled_ofSlot (slot : Option Value) : (ofSlot slot).IsSettled := by
  unfold ofSlot ofValue
  intro n hn
  split at hn
  · split at hn <;> simp_all [nodes, isReference]
  · simp_all [nodes, isReference]

theorem isConstant_external (v : Value) : (external v).IsConstant := by
  intro n hn
  simp_all [nodes, isReference, isAbsent]

theorem IsSettled.field {raw : Raw} (h : raw.IsSettled) (name : String) :
    (raw.field name).IsSettled := by
  rcases nodes_of_field name raw with hn | ⟨slot, hs⟩
  · exact fun n hm => h n (hn n hm)
  · rw [hs]; exact isSettled_ofSlot slot

theorem variable_mem_of_items? {raw item : Raw} {items : List Raw} {name : String}
    (h : raw.items? = some items) (hi : item ∈ items) (hn : .variable name ∈ item.nodes) :
    .variable name ∈ raw.nodes := by
  rcases nodes_of_items? h hi with hm | ⟨slot, rfl⟩
  · exact hm _ hn
  · exact Bool.noConfusion (isSettled_ofSlot slot _ hn)

theorem variable_mem_of_field {raw : Raw} {key name : String}
    (hn : .variable name ∈ (raw.field key).nodes) : .variable name ∈ raw.nodes := by
  rcases nodes_of_field key raw with hm | ⟨slot, hs⟩
  · exact hm _ hn
  · exact Bool.noConfusion (isSettled_ofSlot slot _ (hs ▸ hn))

/-! ## Substitution -/

mutual

/-- Replaces every reference in a raw value. -/
def substitute (stand : String → Raw) : Raw → Raw
  | .variable name => stand name
  | .list items => .list (substituteItems stand items)
  | .object fields => .object (substituteFields stand fields)
  | raw => raw

def substituteItems (stand : String → Raw) : List Raw → List Raw
  | [] => []
  | item :: rest => item.substitute stand :: substituteItems stand rest

def substituteFields (stand : String → Raw) : List (String × Raw) → List (String × Raw)
  | [] => []
  | (name, held) :: rest => (name, held.substitute stand) :: substituteFields stand rest

end

variable (stand : String → Raw)

theorem substituteItems_eq_map (items : List Raw) :
    substituteItems stand items = items.map (substitute stand) := by
  induction items with
  | nil => rfl
  | cons item rest ih => simp [substituteItems, ih]

mutual

/-- Nothing changes where every reference is replaced by itself. -/
theorem substitute_eq_self {raw : Raw}
    (h : ∀ name, .variable name ∈ raw.nodes → stand name = .variable name) :
    raw.substitute stand = raw := by
  match raw with
  | .list items =>
    rw [Raw.substitute, substituteItems_eq_self
      fun name hn => h name (by rw [nodes]; exact List.mem_cons_of_mem _ hn)]
  | .object fields =>
    rw [Raw.substitute, substituteFields_eq_self
      fun name hn => h name (by rw [nodes]; exact List.mem_cons_of_mem _ hn)]
  | .variable name => exact h name (mem_nodes_self _)
  | .int _ | .float _ | .string _ | .boolean _ | .enum _ | .null | .absent | .external _ => rfl

theorem substituteItems_eq_self {items : List Raw}
    (h : ∀ name, .variable name ∈ itemNodes items → stand name = .variable name) :
    substituteItems stand items = items := by
  match items with
  | [] => rfl
  | item :: rest =>
    rw [substituteItems, substitute_eq_self fun name hn => h name (List.mem_append_left _ hn),
      substituteItems_eq_self fun name hn => h name (List.mem_append_right _ hn)]

theorem substituteFields_eq_self {fields : List (String × Raw)}
    (h : ∀ name, .variable name ∈ fieldNodes fields → stand name = .variable name) :
    substituteFields stand fields = fields := by
  match fields with
  | [] => rfl
  | (_, held) :: rest =>
    rw [substituteFields, substitute_eq_self fun name hn => h name (List.mem_append_left _ hn),
      substituteFields_eq_self fun name hn => h name (List.mem_append_right _ hn)]

end

theorem IsSettled.variable_notMem {raw : Raw} (h : raw.IsSettled) (name : String) :
    .variable name ∉ raw.nodes :=
  fun hn => Bool.noConfusion (h _ hn)

/-- Without references nothing is replaced. -/
theorem IsSettled.substitute_eq {raw : Raw} (h : raw.IsSettled) : raw.substitute stand = raw :=
  substitute_eq_self stand fun name hn => absurd hn (h.variable_notMem name)

/-- The items of a list, its references replaced. -/
theorem items?_substitute {raw : Raw} (h : raw.isReference = false) :
    (raw.substitute stand).items? = raw.items?.map fun items => items.map (substitute stand) := by
  match raw with
  | .list items => simp [substitute, items?, substituteItems_eq_map]
  | .external v =>
    cases v with
    | array mark slots =>
      simp only [substitute, items?, Option.map_some, List.map_map, Option.some.injEq]
      refine (List.map_congr_left fun slot _ => ?_).symm
      exact (isSettled_ofSlot slot).substitute_eq stand
    | _ => rfl
  | .variable _ => cases h
  | .int _ | .float _ | .string _ | .boolean _ | .enum _ | .null | .absent | .object _ => rfl

theorem lastField?_substitute (name : String) (fields : List (String × Raw)) :
    lastField? name (substituteFields stand fields) =
      (lastField? name fields).map (substitute stand) := by
  induction fields with
  | nil => rfl
  | cons f rest ih =>
    obtain ⟨n, held⟩ := f
    simp only [substituteFields, lastField?, ih]
    cases lastField? name rest with
    | some r => rfl
    | none => by_cases h : n = name <;> simp [h]

/-- What an object holds, its references replaced. -/
theorem field_substitute {raw : Raw} (h : raw.isReference = false) (name : String) :
    (raw.substitute stand).field name = (raw.field name).substitute stand := by
  match raw with
  | .object fields =>
    simp only [substitute, field, field?, lastField?_substitute]
    cases lastField? name fields <;> rfl
  | .external v =>
    have hs := ((isConstant_external v).isSettled.field name).substitute_eq stand
    rw [hs]
    rfl
  | .variable _ => cases h
  | .int _ | .float _ | .string _ | .boolean _ | .enum _ | .null | .absent | .list _ => rfl

theorem isObject_substitute {raw : Raw} (h : raw.isReference = false) :
    (raw.substitute stand).isObject = raw.isObject := by
  cases raw <;> first | rfl | cases h

/-! ## Texts -/

theorem itemTexts?_cons_eq_none_iff (item : Raw) (rest : List Raw) :
    itemTexts? (item :: rest) = none ↔ item.text? = none ∨ itemTexts? rest = none := by
  cases hi : item.text? <;> cases hr : itemTexts? rest <;>
    simp [itemTexts?, hi, hr]

theorem fieldTexts?_cons_eq_none_iff (name : String) (held : Raw) (rest : List (String × Raw)) :
    fieldTexts? ((name, held) :: rest) = none ↔ held.text? = none ∨ fieldTexts? rest = none := by
  cases hh : held.text? <;> cases hr : fieldTexts? rest <;>
    simp [fieldTexts?, hh, hr]

mutual

/-- Replacing references takes the text away exactly if something has none that a reference
stands for. -/
theorem text?_substitute_eq_none_iff (raw : Raw) :
    (raw.substitute stand).text? = none ↔
      raw.text? = none ∨ ∃ name, .variable name ∈ raw.nodes ∧ (stand name).text? = none := by
  match raw with
  | .list items =>
    simp only [substitute, text?, Option.map_eq_none_iff, nodes, List.mem_cons, reduceCtorEq,
      false_or]
    exact itemTexts?_substitute_eq_none_iff items
  | .object fields =>
    simp only [substitute, text?, Option.map_eq_none_iff, nodes, List.mem_cons, reduceCtorEq,
      false_or]
    exact fieldTexts?_substitute_eq_none_iff fields
  | .variable name => simp [substitute, text?, nodes]
  | .int _ | .float _ | .string _ | .boolean _ | .enum _ | .null | .absent | .external _ =>
    simp [substitute, text?, nodes]

theorem itemTexts?_substitute_eq_none_iff (items : List Raw) :
    itemTexts? (substituteItems stand items) = none ↔
      itemTexts? items = none ∨
        ∃ name, .variable name ∈ itemNodes items ∧ (stand name).text? = none := by
  match items with
  | [] => simp [substituteItems, itemTexts?, itemNodes]
  | item :: rest =>
    rw [substituteItems, itemTexts?_cons_eq_none_iff, itemTexts?_cons_eq_none_iff,
      text?_substitute_eq_none_iff item, itemTexts?_substitute_eq_none_iff rest]
    simp only [itemNodes, List.mem_append, or_and_right, exists_or]
    exact or_or_or_comm

theorem fieldTexts?_substitute_eq_none_iff (fields : List (String × Raw)) :
    fieldTexts? (substituteFields stand fields) = none ↔
      fieldTexts? fields = none ∨
        ∃ name, .variable name ∈ fieldNodes fields ∧ (stand name).text? = none := by
  match fields with
  | [] => simp [substituteFields, fieldTexts?, fieldNodes]
  | (_, held) :: rest =>
    rw [substituteFields, fieldTexts?_cons_eq_none_iff, fieldTexts?_cons_eq_none_iff,
      text?_substitute_eq_none_iff held, fieldTexts?_substitute_eq_none_iff rest]
    simp only [fieldNodes, List.mem_append, or_and_right, exists_or]
    exact or_or_or_comm

end

end TypedQuery.Raw
