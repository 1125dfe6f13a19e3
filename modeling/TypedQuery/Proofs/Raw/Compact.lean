import TypedQuery.Proofs.Raw.Nodes
import TypedQuery.Raw.Plain

/-!
# Compact literals

A literal whose references are replaced may hold absences: those of variables that have no value.
It is compact once null stands for them in lists, and the fields that hold them are dropped.

* `nodes_substitute`: what a literal is made of once its references are replaced;
* `compact`, `isConstant_compact`: without references and absences at any depth;
* `toValue_substitute`: to replace references first, or to look them up in the supplied values,
  gives one plain value.
-/

namespace TypedQuery.Raw

/-! ## Substitution -/

section Substitution

variable {stand : String → Raw}

theorem substituteFields_eq_map (fields : List (String × Raw)) :
    substituteFields stand fields = fields.map fun f => (f.1, f.2.substitute stand) := by
  induction fields with
  | nil => rfl
  | cons f rest ih => rw [substituteFields, ih, List.map_cons]

mutual

/-- Once references are replaced, a literal is made of what it was made of, and of what stands for
the references. -/
theorem nodes_substitute {P : Raw → Prop} {raw : Raw}
    (h : ∀ n ∈ raw.nodes, n.isReference = false → P (n.substitute stand))
    (hstand : ∀ name, .variable name ∈ raw.nodes → ∀ n ∈ (stand name).nodes, P n) :
    ∀ n ∈ (raw.substitute stand).nodes, P n := by
  match raw with
  | .list items =>
    have hself := h _ (mem_nodes_self _) rfl
    rw [nodes, List.forall_mem_cons] at h
    simp only [nodes, List.mem_cons, reduceCtorEq, false_or] at hstand
    rw [substitute, nodes, List.forall_mem_cons]
    exact ⟨hself, itemNodes_substitute h.2 hstand⟩
  | .object fields =>
    have hself := h _ (mem_nodes_self _) rfl
    rw [nodes, List.forall_mem_cons] at h
    simp only [nodes, List.mem_cons, reduceCtorEq, false_or] at hstand
    rw [substitute, nodes, List.forall_mem_cons]
    exact ⟨hself, fieldNodes_substitute h.2 hstand⟩
  | .variable name => exact hstand name (mem_nodes_self _)
  | .int _ | .float _ | .string _ | .boolean _ | .enum _ | .null | .absent | .external _ =>
    intro n hn
    obtain rfl := List.mem_singleton.mp hn
    exact h _ (mem_nodes_self _) rfl

theorem itemNodes_substitute {P : Raw → Prop} {items : List Raw}
    (h : ∀ n ∈ itemNodes items, n.isReference = false → P (n.substitute stand))
    (hstand : ∀ name, .variable name ∈ itemNodes items → ∀ n ∈ (stand name).nodes, P n) :
    ∀ n ∈ itemNodes (substituteItems stand items), P n := by
  match items with
  | [] => exact fun n hn => absurd hn List.not_mem_nil
  | item :: rest =>
    rw [substituteItems, itemNodes, List.forall_mem_append]
    exact ⟨nodes_substitute (fun n hn => h n (List.mem_append_left _ hn))
        fun name hn => hstand name (List.mem_append_left _ hn),
      itemNodes_substitute (fun n hn => h n (List.mem_append_right _ hn))
        fun name hn => hstand name (List.mem_append_right _ hn)⟩

theorem fieldNodes_substitute {P : Raw → Prop} {fields : List (String × Raw)}
    (h : ∀ n ∈ fieldNodes fields, n.isReference = false → P (n.substitute stand))
    (hstand : ∀ name, .variable name ∈ fieldNodes fields → ∀ n ∈ (stand name).nodes, P n) :
    ∀ n ∈ fieldNodes (substituteFields stand fields), P n := by
  match fields with
  | [] => exact fun n hn => absurd hn List.not_mem_nil
  | (_, held) :: rest =>
    rw [substituteFields, fieldNodes, List.forall_mem_append]
    exact ⟨nodes_substitute (fun n hn => h n (List.mem_append_left _ hn))
        fun name hn => hstand name (List.mem_append_left _ hn),
      fieldNodes_substitute (fun n hn => h n (List.mem_append_right _ hn))
        fun name hn => hstand name (List.mem_append_right _ hn)⟩

end

theorem isReference_substitute {raw : Raw} (h : raw.isReference = false) :
    (raw.substitute stand).isReference = false := by
  cases raw <;> first | rfl | cases h

/-- A literal is settled by what holds no references. -/
theorem isSettled_substitute {raw : Raw}
    (hstand : ∀ name, .variable name ∈ raw.nodes → (stand name).IsSettled) :
    (raw.substitute stand).IsSettled :=
  nodes_substitute (fun _ _ hn => isReference_substitute hn) hstand

/-- A literal without absences becomes constant if what stands for its references is. -/
theorem isConstant_substitute {raw : Raw} (h : ∀ n ∈ raw.nodes, n.isAbsent = false)
    (hstand : ∀ name, .variable name ∈ raw.nodes → (stand name).IsConstant) :
    (raw.substitute stand).IsConstant := by
  refine nodes_substitute (fun n hn hreference => ⟨isReference_substitute hreference, ?_⟩) hstand
  have ha := h n hn
  cases n <;> first | rfl | exact Bool.noConfusion ha | exact Bool.noConfusion hreference

end Substitution

/-! ## Compact literals -/

mutual

/-- Null takes the place of the absent items of lists, and absent fields are dropped. -/
def compact : Raw → Raw
  | .list items => .list (compactItems items)
  | .object fields => .object (compactFields fields)
  | raw => raw

def compactItems : List Raw → List Raw
  | [] => []
  | item :: rest => (if item.isAbsent then .null else item.compact) :: compactItems rest

def compactFields : List (String × Raw) → List (String × Raw)
  | [] => []
  | (name, held) :: rest =>
    if held.isAbsent then compactFields rest else (name, held.compact) :: compactFields rest

end

theorem compactItems_eq_map (items : List Raw) :
    compactItems items = items.map fun item => if item.isAbsent then .null else item.compact := by
  induction items with
  | nil => rfl
  | cons item rest ih => rw [compactItems, ih, List.map_cons]

theorem compactFields_eq_map (fields : List (String × Raw)) :
    compactFields fields =
      (fields.filter fun f => !f.2.isAbsent).map fun f => (f.1, f.2.compact) := by
  induction fields with
  | nil => rfl
  | cons f rest ih =>
    obtain ⟨name, held⟩ := f
    rw [compactFields, ih, List.filter_cons]
    cases held.isAbsent <;> rfl

@[simp]
theorem isAbsent_compact (raw : Raw) : raw.compact.isAbsent = raw.isAbsent := by
  cases raw <;> rfl

mutual

/-- Unless a literal is itself absent, nothing in it is once it is compact. -/
theorem isConstant_compact {raw : Raw} (h : raw.IsSettled) (ha : raw.isAbsent = false) :
    raw.compact.IsConstant := by
  match raw with
  | .list items =>
    rw [IsSettled, nodes, List.forall_mem_cons] at h
    rw [compact, IsConstant, nodes, List.forall_mem_cons]
    exact ⟨⟨rfl, rfl⟩, isConstant_compactItems h.2⟩
  | .object fields =>
    rw [IsSettled, nodes, List.forall_mem_cons] at h
    rw [compact, IsConstant, nodes, List.forall_mem_cons]
    exact ⟨⟨rfl, rfl⟩, isConstant_compactFields h.2⟩
  | .int _ | .float _ | .string _ | .boolean _ | .enum _ | .null | .absent | .external _
  | .variable _ =>
    intro n hn
    obtain rfl := List.mem_singleton.mp hn
    exact ⟨h _ (mem_nodes_self _), ha⟩

theorem isConstant_compactItems {items : List Raw}
    (h : ∀ n ∈ itemNodes items, n.isReference = false) :
    ∀ n ∈ itemNodes (compactItems items), n.isReference = false ∧ n.isAbsent = false := by
  match items with
  | [] => exact fun n hn => absurd hn List.not_mem_nil
  | item :: rest =>
    rw [itemNodes, List.forall_mem_append] at h
    rw [compactItems, itemNodes, List.forall_mem_append]
    refine ⟨?_, isConstant_compactItems h.2⟩
    cases ha : item.isAbsent with
    | true => simp [nodes, isReference, isAbsent]
    | false => exact isConstant_compact h.1 ha

theorem isConstant_compactFields {fields : List (String × Raw)}
    (h : ∀ n ∈ fieldNodes fields, n.isReference = false) :
    ∀ n ∈ fieldNodes (compactFields fields), n.isReference = false ∧ n.isAbsent = false := by
  match fields with
  | [] => exact fun n hn => absurd hn List.not_mem_nil
  | (name, held) :: rest =>
    rw [fieldNodes, List.forall_mem_append] at h
    rw [compactFields]
    cases ha : held.isAbsent with
    | true => exact isConstant_compactFields h.2
    | false =>
      rw [if_neg Bool.false_ne_true, fieldNodes, List.forall_mem_append]
      exact ⟨isConstant_compact h.1 ha, isConstant_compactFields h.2⟩

end

mutual

/-- A constant literal is compact. -/
theorem IsConstant.compact_eq {raw : Raw} (h : raw.IsConstant) : raw.compact = raw := by
  match raw with
  | .list items =>
    rw [IsConstant, nodes, List.forall_mem_cons] at h
    rw [compact, compactItems_eq_self h.2]
  | .object fields =>
    rw [IsConstant, nodes, List.forall_mem_cons] at h
    rw [compact, compactFields_eq_self h.2]
  | .int _ | .float _ | .string _ | .boolean _ | .enum _ | .null | .absent | .external _
  | .variable _ => rfl

theorem compactItems_eq_self {items : List Raw}
    (h : ∀ n ∈ itemNodes items, n.isReference = false ∧ n.isAbsent = false) :
    compactItems items = items := by
  match items with
  | [] => rfl
  | item :: rest =>
    rw [itemNodes, List.forall_mem_append] at h
    have hitem : item.IsConstant := h.1
    rw [compactItems, hitem.isAbsent_eq, hitem.compact_eq, compactItems_eq_self h.2]
    rfl

theorem compactFields_eq_self {fields : List (String × Raw)}
    (h : ∀ n ∈ fieldNodes fields, n.isReference = false ∧ n.isAbsent = false) :
    compactFields fields = fields := by
  match fields with
  | [] => rfl
  | (_, held) :: rest =>
    rw [fieldNodes, List.forall_mem_append] at h
    have hheld : held.IsConstant := h.1
    rw [compactFields, hheld.isAbsent_eq, hheld.compact_eq, compactFields_eq_self h.2]
    rfl

end

/-! ## Plain values -/

section PlainValue

variable {stand : String → Raw} {supplied supplied' : Members Value}

mutual

/-- The plain value of a literal does not depend on when its references are replaced. -/
theorem toValue_substitute {raw : Raw}
    (h : ∀ name, .variable name ∈ raw.nodes →
      (stand name).toValue supplied' = (Value.record supplied).read name) :
    (raw.substitute stand).toValue supplied' = raw.toValue supplied := by
  match raw with
  | .list items =>
    simp only [nodes, List.mem_cons, reduceCtorEq, false_or] at h
    rw [substitute, toValue, toValue, itemValues_substitute h]
  | .object fields =>
    simp only [nodes, List.mem_cons, reduceCtorEq, false_or] at h
    rw [substitute, toValue, toValue, fieldValues_substitute h]
  | .variable name =>
    rw [substitute, toValue]
    exact h name (mem_nodes_self _)
  | .int _ | .float _ | .string _ | .boolean _ | .enum _ | .null | .absent | .external _ => rfl

theorem itemValues_substitute {items : List Raw}
    (h : ∀ name, .variable name ∈ itemNodes items →
      (stand name).toValue supplied' = (Value.record supplied).read name) :
    itemValues supplied' (substituteItems stand items) = itemValues supplied items := by
  match items with
  | [] => rfl
  | item :: rest =>
    rw [substituteItems, itemValues, itemValues,
      toValue_substitute fun name hn => h name (List.mem_append_left _ hn),
      itemValues_substitute fun name hn => h name (List.mem_append_right _ hn)]

theorem fieldValues_substitute {fields : List (String × Raw)}
    (h : ∀ name, .variable name ∈ fieldNodes fields →
      (stand name).toValue supplied' = (Value.record supplied).read name) :
    fieldValues supplied' (substituteFields stand fields) = fieldValues supplied fields := by
  match fields with
  | [] => rfl
  | (_, held) :: rest =>
    rw [substituteFields, fieldValues, fieldValues,
      toValue_substitute fun name hn => h name (List.mem_append_left _ hn),
      fieldValues_substitute fun name hn => h name (List.mem_append_right _ hn)]

end

end PlainValue

end TypedQuery.Raw
