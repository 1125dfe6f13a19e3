import TypedQuery.Proofs.Coercion.Conformance
import TypedQuery.Proofs.Raw.Plain
import TypedQuery.Proofs.Types.Reach

/-!
# Literals are coerced like their plain values

What is written in a query and what is supplied from outside are read by different branches of every
scalar, enum, list and object. A literal that is coerced is coerced to the same value if its plain
value is supplied instead.

* `ReadsPlainly`: the types that know of no scalar that tells the two apart;
* `parse_toValue`: scalars;
* `coerceAt_toValue`, `coerce_toValue`: all types.
-/

namespace TypedQuery

/-! ## Scalars -/

/-- What a built-in scalar accepts of a literal it accepts of the plain value. -/
theorem Builtin.parse_toValue {b : Builtin} {raw : Raw} (hl : raw.IsFaithful) {v : Value}
    (h : b.parse raw = .accepted v) : b.parse (.external (raw.toValue [])) = .accepted v := by
  cases b with
  | int =>
    obtain ⟨n, hn, rfl, ⟨t, rfl, rfl⟩ | rfl⟩ := parseInt_eq_accepted_iff.mp h
    · exact parseInt_eq_accepted_iff.mpr ⟨_, hn, rfl, Or.inr rfl⟩
    · exact hl.node.elim
  | float =>
    obtain ⟨n, rfl, ⟨t, rfl | rfl, rfl⟩ | ⟨rfl, _⟩⟩ := parseFloat_eq_accepted_iff.mp h
    · exact parseFloat_eq_accepted_iff.mpr ⟨_, rfl, Or.inr ⟨rfl, hl.node.2.1⟩⟩
    · exact parseFloat_eq_accepted_iff.mpr ⟨_, rfl, Or.inr ⟨rfl, hl.node⟩⟩
    · exact hl.node.elim
  | string =>
    obtain ⟨s, rfl, rfl | rfl⟩ := parseString_eq_accepted_iff.mp h
    · rfl
    · exact hl.node.elim
  | boolean =>
    obtain ⟨b, rfl, rfl | rfl⟩ := parseBoolean_eq_accepted_iff.mp h
    · rfl
    · exact hl.node.elim
  | id =>
    obtain ⟨s, rfl, rfl | rfl | rfl | ⟨n, rfl, _⟩⟩ := parseId_eq_accepted_iff.mp h
    · rfl
    · -- the numeral is an integer, and that integer is written like the numeral
      obtain ⟨htoken, hfinite, htext⟩ := hl.node
      refine parseId_eq_accepted_iff.mpr ⟨s, rfl, Or.inr (Or.inr (Or.inr ⟨_, rfl, ?_, ?_⟩))⟩
      · exact Number.isInteger_ofNumeral htoken hfinite
      · exact htext.symm
    · exact hl.node.elim
    · exact hl.node.elim

/-- The scalars that do not tell a literal from its plain value: those that are built in, and those
that read plain values only. -/
inductive Scalar.ReadsPlain : Scalar → Prop
  | builtin (b : Builtin) : ReadsPlain b.scalar
  | ofPlain (name : String) (description : Option String) (parseValue : Value → Verdict)
      (serialize : Value → Except Thrown Value) :
      ReadsPlain (.ofPlain name description parseValue serialize)

theorem Scalar.ReadsPlain.parse_toValue {s : Scalar} (hs : s.ReadsPlain) {raw : Raw}
    (hl : raw.IsFaithful) {v : Value} (h : s.parse raw = .accepted v) :
    s.parse (.external (raw.toValue [])) = .accepted v := by
  cases hs with
  | builtin b => exact Builtin.parse_toValue hl h
  | ofPlain name description parseValue serialize => exact h

namespace TypeGraph

variable {ν : Type} (g : TypeGraph ν)

/-- The scalars of a type, at any depth, do not tell a literal from its plain value. -/
def ReadsPlainly (type : TypeRef (TypeId ν)) : Prop :=
  ∀ id s, g.Reaches type.base id → g.describe id = .scalar s → s.ReadsPlain

variable {g}

theorem ReadsPlainly.of_field {id : TypeId ν} {o : InputObject ν} {f : String × Position ν}
    (h : g.ReadsPlainly (.named id)) (ho : g.describe id = .input o)
    (hf : f ∈ o.fields.entries) : g.ReadsPlainly f.2.type :=
  fun id' s hr => h id' s (.field ho hf hr)

end TypeGraph

namespace Coercion

variable {ν : Type} {g : TypeGraph ν} {ctx : Context ν} {hops defaults : Nat} {raw : Raw}

/-! ## Positions -/

theorem isPresent_toValue (hl : raw.IsFaithful) (hp : isPresent raw = true) :
    isPresent (.external (raw.toValue [])) = true := by
  obtain ⟨_, _, hn⟩ := (isPresent_iff raw).mp hp
  refine (isPresent_iff _).mpr ⟨?_, rfl, (Raw.isNull_toValue hl).trans hn⟩
  intro name h
  cases h

theorem symbol?_toValue (hl : raw.IsFaithful) {symbol : String}
    (h : symbol? raw = some symbol) : symbol? (.external (raw.toValue [])) = some symbol := by
  unfold symbol? at h
  split at h
  · exact h
  · exact hl.node.elim
  · cases h

theorem fallbackFor?_eq_none (hl : raw.IsFaithful) (position : Position ν) :
    fallbackFor? ctx position raw = none := by
  match raw with
  | .variable _ | .absent | .external _ => exact hl.node.elim
  | .int _ | .float _ | .string _ | .boolean _ | .enum _ | .null | .list _ | .object _ => rfl

/-- What a literal holds under the name of a field is coerced like what its plain value holds. -/
theorem coerceField_toValue (hl : raw.IsFaithful) {path : Path} {name : String}
    {position : Position ν} {v : Option Value}
    (held : (raw.field name).IsFaithful →
      coerceAt g ctx hops defaults position.type (raw.field name) (path ++ [.field name]) =
        .ok (.done v) →
      coerceAt g ctx hops defaults position.type (.external ((raw.field name).toValue []))
        (path ++ [.field name]) = .ok (.done v))
    (h : coerceField g ctx hops defaults raw path name position = .ok (.done v)) :
    coerceField g ctx hops defaults (.external (raw.toValue [])) path name position =
      .ok (.done v) := by
  rcases Raw.field_toValue hl name with hsame | ⟨hfaithful, hplain⟩
  · rw [coerceField, hsame]
    exact h
  · rw [coerceField, fallbackFor?_eq_none hfaithful] at h
    rw [coerceField, hplain]
    exact held hfaithful h

/-! ## Types -/

/-- A literal that is coerced is coerced like its plain value. -/
theorem coerceAt_toValue {type : TypeRef (TypeId ν)} (ht : g.ReadsPlainly type)
    (hl : raw.IsFaithful) {path : Path} {v : Option Value}
    (h : coerceAt g ctx hops defaults type raw path = .ok (.done v)) :
    coerceAt g ctx hops defaults type (.external (raw.toValue [])) path = .ok (.done v) := by
  induction hops, defaults, type, raw using coercion_induction g ctx generalizing path v with
  | reference hops defaults type name ih => exact hl.node.elim
  | absent hops defaults type => exact hl.node.elim
  | null hops defaults type raw hn =>
    rw [coerceAt_null _ _ _ _ hn] at h
    rw [coerceAt_null _ _ _ _ ((Raw.isNull_toValue hl).trans hn)]
    exact h
  | required hops defaults inner raw hp ih =>
    rw [coerceAt_required _ _ _ _ hp] at h
    rw [coerceAt_required _ _ _ _ (isPresent_toValue hl hp)]
    exact ih ht hl h
  | list hops defaults item raw hp ih =>
    obtain ⟨items, values, hitems, hvalues, rfl⟩ := (coerceAt_list_eq_done_iff hp).mp h
    have hplain := Raw.items?_toValue hl
    rw [hitems, Option.map_some] at hplain
    refine (coerceAt_list_eq_done_iff (isPresent_toValue hl hp)).mpr
      ⟨_, values, hplain, ?_, rfl⟩
    rw [List.zipIdx_map, List.forall₂_map_left_iff]
    refine forall₂_imp_of_mem hvalues ?_
    rintro ⟨held, i⟩ hheld w hdone
    have hheld := List.fst_mem_of_mem_zipIdx hheld
    exact ih items hitems held hheld ht (hl.of_items? hitems hheld) hdone
  | scalar hops defaults id s raw hp hs =>
    rw [coerceAt_scalar _ _ _ _ hp hs] at h
    rw [coerceAt_scalar _ _ _ _ (isPresent_toValue hl hp) hs]
    obtain ⟨input, w, hinput, hw, rfl⟩ := coerceScalar_eq_done_iff.mp h
    -- nothing is inlined in a literal without references, nor in a value
    obtain ⟨rfl, _⟩ := Prod.mk.inj
      (Except.ok.inj ((Context.inlineWith_constant raw hl.isConstant).symm.trans hinput))
    exact coerceScalar_eq_done_iff.mpr
      ⟨_, w, rfl, (ht id s (.self id) hs).parse_toValue hl hw, rfl⟩
  | enum hops defaults id e raw hp he =>
    rw [coerceAt_enum _ _ _ _ hp he] at h
    rw [coerceAt_enum _ _ _ _ (isPresent_toValue hl hp) he]
    obtain ⟨w, hw, rfl⟩ := coerceEnum_eq_done_iff.mp h
    obtain ⟨symbol, hsymbol, hvalue⟩ := Option.bind_eq_some_iff.mp hw
    exact coerceEnum_eq_done_iff.mpr
      ⟨w, Option.bind_eq_some_iff.mpr ⟨symbol, symbol?_toValue hl hsymbol, hvalue⟩, rfl⟩
  | input hops defaults id o raw hp ho ih ihd =>
    obtain ⟨values, hobject, hvalues, rfl⟩ := (coerceAt_input_eq_done_iff hp ho).mp h
    refine (coerceAt_input_eq_done_iff (isPresent_toValue hl hp) ho).mpr
      ⟨values, (Raw.isObject_toValue hl).trans hobject, ?_, rfl⟩
    refine forall₂_imp_of_mem hvalues ?_
    rintro f hf w ⟨hname, hdone⟩
    exact ⟨hname, coerceField_toValue hl
      (fun hfaithful => ih hobject f hf (ht.of_field ho hf) hfaithful) hdone⟩

/-- **A literal is coerced like its plain value.** Where all scalars of a type are built in or read
plain values only, a literal without references that is coerced is coerced to the same value if its
plain value is supplied from outside, in every context. -/
theorem coerce_toValue {type : TypeRef (TypeId ν)} (ht : g.ReadsPlainly type)
    (hl : raw.IsFaithful) {path : Path} {v : Option Value}
    (h : coerce g ctx type raw path = .ok (.done v)) :
    coerce g ctx type (.external (raw.toValue [])) path = .ok (.done v) :=
  coerceAt_toValue ht hl h

/-! ## Boxes and identifiers -/

theorem boxes_readsPlainly (type : TypeRef (TypeId BoxType)) : boxes.ReadsPlainly type := by
  intro id s _ hs
  cases id with
  | builtin b =>
    obtain rfl := NamedType.scalar.inj hs
    exact .builtin b
  | declared n => cases n <;> cases hs

/-- A box in whose literal the label is written twice. -/
def relabelledBox : Raw :=
  .object [("label", .string "small"), ("unit", .enum "INCH"), ("label", .string "large")]

theorem relabelledBox_isFaithful : relabelledBox.IsFaithful := by
  intro n hn
  simp only [relabelledBox, Raw.nodes, Raw.fieldNodes, List.mem_cons, List.mem_append,
    List.not_mem_nil, or_false] at hn
  rcases hn with rfl | rfl | rfl | rfl
  · rintro f hf
    simp only [List.mem_cons, List.not_mem_nil, or_false] at hf
    rcases hf with rfl | rfl | rfl <;> decide
  all_goals trivial

theorem coerce_relabelledBox :
    coerce boxes labelled (.named (.declared .box)) relabelledBox [] =
      .ok (.done (some (.record [("label", .string "large"), ("unit", .string "INCH")]))) := by
  refine (coerceAt_input_eq_done_iff rfl rfl).mpr
    ⟨[("label", some (.string "large")), ("unit", some (.string "INCH"))], rfl,
      .cons ⟨rfl, ?_⟩ (.cons ⟨rfl, ?_⟩ .nil), rfl⟩
  · exact (coerceAt_required _ _ _ _ rfl _ _).trans ((coerceAt_scalar _ _ _ _ rfl rfl _).trans rfl)
  · exact (coerceAt_enum _ _ _ _ rfl rfl _).trans rfl

/-- Identifiers, one of them written as an integer. -/
def identifiers : Raw := .list [.int "7", .string "a"]

theorem identifiers_isFaithful : identifiers.IsFaithful := by
  intro n hn
  simp only [identifiers, Raw.nodes, Raw.itemNodes, List.mem_cons, List.mem_append,
    List.not_mem_nil, or_false] at hn
  rcases hn with rfl | rfl | rfl
  · trivial
  · refine ⟨⟨['7'], List.cons_ne_nil _ _, fun c hc => ?_, Or.inl rfl⟩, ?_, ?_⟩
    · rw [List.mem_singleton.mp hc]
      rfl
    · decide +kernel
    · decide +kernel
  · trivial

theorem coerce_identifiers :
    coerce boxes labelled (.list (.named (.builtin .id))) identifiers [] =
      .ok (.done (some (.list [.string "7", .string "a"]))) := by
  refine (coerceAt_list_eq_done_iff rfl).mpr
    ⟨_, [some (.string "7"), some (.string "a")], rfl, .cons ?_ (.cons ?_ .nil), rfl⟩
  · exact (coerceAt_scalar _ _ _ _ rfl rfl _).trans rfl
  · exact (coerceAt_scalar _ _ _ _ rfl rfl _).trans rfl

theorem coerce_toValue_box :
    (coerce boxes labelled (.named (.declared .box)) relabelledBox [] =
        .ok (.done (some (.record [("label", .string "large"), ("unit", .string "INCH")]))) ∧
      coerce boxes labelled (.named (.declared .box)) (.external (relabelledBox.toValue [])) [] =
        .ok (.done (some (.record [("label", .string "large"), ("unit", .string "INCH")])))) ∧
      coerce boxes labelled (.list (.named (.builtin .id))) identifiers [] =
        .ok (.done (some (.list [.string "7", .string "a"]))) ∧
      coerce boxes labelled (.list (.named (.builtin .id)))
          (.external (.list [.number (.ofNumeral "7"), .string "a"])) [] =
        .ok (.done (some (.list [.string "7", .string "a"]))) :=
  ⟨⟨coerce_relabelledBox,
      coerce_toValue (boxes_readsPlainly _) relabelledBox_isFaithful coerce_relabelledBox⟩,
    coerce_identifiers,
    coerce_toValue (boxes_readsPlainly _) identifiers_isFaithful coerce_identifiers⟩

end Coercion

end TypedQuery
