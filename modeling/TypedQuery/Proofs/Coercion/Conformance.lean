import TypedQuery.Proofs.Coercion.Arguments
import TypedQuery.Proofs.Types.Builtin

/-!
# Coerced values conform to their types

* `Conforms`: what a resolver may rely on about the value of a position;
* `coerceAt_conforms`: a coercion that is done gives a value of its type;
* `coercion_sound`: so do all arguments, among which none is missing that must be there;
* `boxes`: a graph and a coercion over it.
-/

namespace TypedQuery

/-- No scalar accepts anything as null or undefined, and no symbol stands for them. -/
structure TypeGraph.YieldsValues {ν : Type} (g : TypeGraph ν) : Prop where
  scalar : ∀ n s, g.declared n = .scalar s →
    ∀ raw v, s.parse raw = .accepted v → v.isNullish = false
  enum : ∀ n e, g.declared n = .enum e → ∀ symbol v, (symbol, v) ∈ e.values → v.isNullish = false

namespace Coercion

variable {ν : Type} {g : TypeGraph ν} {ctx : Context ν} {hops defaults : Nat}

/-! ## Conforming -/

/-- A value, or its absence, conforms to a type. Only a required type excludes absence and null.
The members of an object are fields in the order of their declaration; those that are required or
have a default are there. -/
inductive Conforms (g : TypeGraph ν) : TypeRef (TypeId ν) → Option Value → Prop
  | absent {type} (h : type.isRequired = false) : Conforms g type none
  | null {type} (h : type.isRequired = false) : Conforms g type (some .null)
  | required {inner v} (hn : v.isNullish = false) (h : Conforms g inner (some v)) :
      Conforms g (.required inner) (some v)
  | scalar {id s raw v} (hs : g.describe id = .scalar s) (h : s.parse raw = .accepted v) :
      Conforms g (.named id) (some v)
  | enum {id e symbol v} (he : g.describe id = .enum e) (h : (symbol, v) ∈ e.values) :
      Conforms g (.named id) (some v)
  | list {item vs} (h : ∀ v ∈ vs, Conforms g item (some v)) :
      Conforms g (.list item) (some (.list vs))
  | input {id o members} (ho : g.describe id = .input o)
      (keys : (Members.keys members).Sublist o.fields.names)
      (values : ∀ f ∈ o.fields.entries, ∀ v, (f.1, v) ∈ members → Conforms g f.2.type (some v))
      (given : ∀ f ∈ o.fields.entries,
        f.2.type.isRequired = true ∨ f.2.fallback?.isSome = true → f.1 ∈ members.keys) :
      Conforms g (.named id) (some (.record members))

theorem Conforms.not_required {type : TypeRef (TypeId ν)} (h : Conforms g type none) :
    type.isRequired = false := by
  cases h with
  | absent h => exact h

/-- In a list an absent item becomes null, which its type allows as well. -/
theorem Conforms.getD_null {type : TypeRef (TypeId ν)} {v : Option Value} (h : Conforms g type v) :
    Conforms g type (some (v.getD .null)) := by
  cases v with
  | none => exact .null h.not_required
  | some v => exact h

/-! ## Values -/

theorem isNullish_of_scalar (hg : g.YieldsValues) {id : TypeId ν} {s : Scalar}
    (hs : g.describe id = .scalar s) {raw : Raw} {v : Value} (h : s.parse raw = .accepted v) :
    v.isNullish = false := by
  cases id with
  | builtin b =>
    obtain rfl := NamedType.scalar.inj hs
    exact Builtin.isNullish_of_accepted h
  | declared n => exact hg.scalar n s hs raw v h

theorem isNullish_of_enum (hg : g.YieldsValues) {id : TypeId ν} {e : EnumType}
    (he : g.describe id = .enum e) {symbol : String} {v : Value} (h : (symbol, v) ∈ e.values) :
    v.isNullish = false := by
  cases id with
  | builtin b => cases he
  | declared n => exact hg.enum n e he symbol v h

theorem mem_of_valueOf? {e : EnumType} {symbol : String} {v : Value}
    (h : e.valueOf? symbol = some v) : (symbol, v) ∈ e.values := by
  obtain ⟨⟨s, w⟩, hf, rfl⟩ := Option.map_eq_some_iff.mp h
  have hs : s = symbol := by simpa using List.find?_some hf
  exact hs ▸ List.mem_of_find?_eq_some hf

/-- What is present is coerced to a value, not to null. -/
theorem isNullish_of_isPresent (hg : g.YieldsValues) {type : TypeRef (TypeId ν)} {raw : Raw}
    (hp : isPresent raw = true) {path : Path} {v : Value}
    (h : coerceAt g ctx hops defaults type raw path = .ok (.done (some v))) :
    v.isNullish = false := by
  induction type with
  | required inner ih =>
    rw [coerceAt_required _ _ _ _ hp] at h
    exact ih h
  | list item =>
    obtain ⟨_, _, _, _, hv⟩ := (coerceAt_list_eq_done_iff hp).mp h
    obtain rfl := Option.some.inj hv
    rfl
  | named id =>
    cases hd : g.describe id with
    | scalar s =>
      rw [coerceAt_scalar _ _ _ _ hp hd] at h
      obtain ⟨_, w, _, hw, hv⟩ := coerceScalar_eq_done_iff.mp h
      obtain rfl := Option.some.inj hv
      exact isNullish_of_scalar hg hd hw
    | enum e =>
      rw [coerceAt_enum _ _ _ _ hp hd] at h
      obtain ⟨w, hw, hv⟩ := coerceEnum_eq_done_iff.mp h
      obtain rfl := Option.some.inj hv
      obtain ⟨symbol, _, hs⟩ := Option.bind_eq_some_iff.mp hw
      exact isNullish_of_enum hg hd (mem_of_valueOf? hs)
    | input o =>
      obtain ⟨_, _, _, hv⟩ := (coerceAt_input_eq_done_iff hp hd).mp h
      obtain rfl := Option.some.inj hv
      rfl

/-! ## Fields -/

/-- A field with a default is never left absent. -/
theorem fallback?_of_coerceField_done_none (hc : ctx.HasConstantDefaults) {raw : Raw} {path : Path}
    {name : String} {position : Position ν}
    (h : coerceField g ctx hops defaults raw path name position = .ok (.done none)) :
    position.fallback? = none := by
  rcases @coerceField_cases ν g ctx hops defaults raw path name position with
    ⟨hl, he⟩ | ⟨v, _, ⟨_, he⟩ | ⟨d, _, he⟩⟩
  · rw [he] at h
    exact hl (leavesDefault_of_done_none hc h)
  · rw [he] at h
    cases h
  · rw [he] at h
    obtain ⟨w, hw⟩ := exists_of_isConstant (Raw.isConstant_external v) h
    cases hw

/-! ## Soundness -/

/-- What a coercion gives conforms to its type. -/
theorem coerceAt_conforms (hg : g.YieldsValues) (hc : ctx.HasConstantDefaults)
    {type : TypeRef (TypeId ν)} {raw : Raw} {path : Path} {v : Option Value}
    (h : coerceAt g ctx hops defaults type raw path = .ok (.done v)) : Conforms g type v := by
  induction hops, defaults, type, raw using coercion_induction g ctx generalizing path v with
  | reference hops defaults type name ih =>
    obtain ⟨hops, rfl, _, h⟩ := coerceAt_variable_eq_done_iff.mp h
    exact ih hops rfl h
  | absent hops defaults type =>
    rw [coerceAt_absent, Except.ok.injEq, missing_eq_done_iff] at h
    obtain ⟨hr, rfl⟩ := h
    exact .absent hr
  | null hops defaults type raw hn =>
    rw [coerceAt_null _ _ _ _ hn, Except.ok.injEq, nullValue_eq_done_iff] at h
    obtain ⟨hr, rfl⟩ := h
    exact .null hr
  | required hops defaults inner raw hp ih =>
    rw [coerceAt_required _ _ _ _ hp] at h
    obtain ⟨w, rfl⟩ := exists_of_isPresent hp h
    exact .required (isNullish_of_isPresent hg hp h) (ih h)
  | list hops defaults item raw hp ih =>
    obtain ⟨items, values, hitems, hvalues, rfl⟩ := (coerceAt_list_eq_done_iff hp).mp h
    refine .list fun v hv => ?_
    obtain ⟨w, hw, rfl⟩ := List.mem_map.mp hv
    obtain ⟨⟨held, i⟩, hheld, hw⟩ := exists_left_of_forall₂ hvalues hw
    exact (ih items hitems held (List.fst_mem_of_mem_zipIdx hheld) hw).getD_null
  | scalar hops defaults id s raw hp hs =>
    rw [coerceAt_scalar _ _ _ _ hp hs] at h
    obtain ⟨input, w, _, hw, rfl⟩ := coerceScalar_eq_done_iff.mp h
    exact .scalar hs hw
  | enum hops defaults id e raw hp he =>
    rw [coerceAt_enum _ _ _ _ hp he] at h
    obtain ⟨w, hw, rfl⟩ := coerceEnum_eq_done_iff.mp h
    obtain ⟨symbol, _, hs⟩ := Option.bind_eq_some_iff.mp hw
    exact .enum he (mem_of_valueOf? hs)
  | input hops defaults id o raw hp ho ih ihd =>
    obtain ⟨values, hobject, hvalues, rfl⟩ := (coerceAt_input_eq_done_iff hp ho).mp h
    have hfield : ∀ f ∈ o.fields.entries, ∀ v,
        coerceField g ctx hops defaults raw path f.1 f.2 = .ok (.done v) →
          Conforms g f.2.type v := by
      intro f hf v h
      rcases @coerceField_cases ν g ctx hops defaults raw path f.1 f.2 with
        ⟨_, he⟩ | ⟨w, hw, ⟨_, he⟩ | ⟨d, hd, he⟩⟩
      · exact ih hobject f hf (he ▸ h)
      · rw [he] at h
        cases h
      · exact ihd f hf w hw d hd (he ▸ h)
    refine .input ho (keys_present_sublist hvalues) ?_ ?_
    · intro f hf v hv
      exact hfield f hf _ (of_mem_present o.fields.distinct hvalues hf hv)
    · intro f hf hgiven
      refine mem_keys_present hvalues hf fun hnone => ?_
      rcases hgiven with hr | hd
      · rw [(hfield f hf none hnone).not_required] at hr
        cases hr
      · rw [fallback?_of_coerceField_done_none hc hnone] at hd
        cases hd

theorem coercePosition_conforms (hg : g.YieldsValues) (hc : ctx.HasConstantDefaults)
    {position : Position ν} {raw : Raw} {path : Path} {v : Option Value}
    (h : coercePosition g ctx position raw path = .ok (.done v)) :
    Conforms g position.type v :=
  coerceAt_conforms hg hc h

/-- Coerced arguments conform to what is declared, and those that must be there are. -/
theorem coerceArguments_conform (hg : g.YieldsValues) (hc : ctx.HasConstantDefaults)
    {declared : Declared (Position ν)} {supplied : Members Raw} {enforce : Bool} {v : Value}
    (hreserved : Members.reservedKey ∉ declared.names)
    (h : coerceArguments g ctx declared supplied enforce = .ok (.done v)) :
    ∃ members, v = .record members ∧ members.keys.Nodup ∧
      (∀ m ∈ members, ∃ position, (m.1, position) ∈ declared.entries ∧
        Conforms g position.type (some m.2)) ∧
      ∀ f ∈ declared.entries, f.2.fallback?.isSome = true ∨ f.2.type.isRequired = true ∧
        (enforce = true ∨ (suppliedRaw supplied f.1).isAbsent = false) → f.1 ∈ members.keys := by
  obtain ⟨values, hvalues, rfl⟩ := coerceArguments_eq_done_iff.mp h
  have hkeys := keys_present_sublist hvalues
  refine ⟨_, ofAssignments_present hreserved hkeys, Members.nodup_keys_ofList _, ?_, ?_⟩
  · rintro ⟨name, w⟩ hm
    have hpresent := Members.mem_of_mem_ofList hm
    obtain ⟨⟨_, position, raw⟩, harg, rfl, hdone⟩ :=
      exists_left_of_forall₂ hvalues (mem_presentMembers.mp hpresent)
    exact ⟨position, (mem_argumentsToCoerce.mp harg).1, coercePosition_conforms hg hc hdone⟩
  · rintro ⟨name, position⟩ hf hgiven
    have hwaived : isWaived enforce position (suppliedRaw supplied name) = false := by
      rcases hgiven with hd | ⟨_, he | ha⟩
      · simp [isWaived, Option.isNone_eq_false_iff.mpr hd]
      · simp [isWaived, he]
      · simp [isWaived, ha]
    have harg : (name, position, suppliedRaw supplied name) ∈
        argumentsToCoerce declared supplied enforce :=
      mem_argumentsToCoerce.mpr ⟨hf, rfl, hwaived⟩
    refine Members.mem_keys_ofList.mpr (mem_keys_present hvalues harg fun hnone => ?_)
    rcases hgiven with hd | ⟨hr, _⟩
    · rw [fallback?_of_coercePosition_done_none hc hnone] at hd
      cases hd
    · rw [(coercePosition_conforms hg hc hnone).not_required] at hr
      cases hr

/-- **Soundness of coercion.** What a coercion gives conforms to its type, at every type and from
every raw value; so do the arguments of a resolver, all of them declared, and among them is every
one that has a default or that is required, unless it was left out and that is allowed. -/
theorem coercion_sound (hg : g.YieldsValues) (hc : ctx.HasConstantDefaults) :
    (∀ type raw path v, coerce g ctx type raw path = .ok (.done v) → Conforms g type v) ∧
      ∀ (declared : Declared (Position ν)) (supplied : Members Raw) (enforce : Bool) (v : Value),
        Members.reservedKey ∉ declared.names →
        coerceArguments g ctx declared supplied enforce = .ok (.done v) →
        ∃ members, v = .record members ∧ members.keys.Nodup ∧
          (∀ m ∈ members, ∃ position, (m.1, position) ∈ declared.entries ∧
            Conforms g position.type (some m.2)) ∧
          ∀ f ∈ declared.entries, f.2.fallback?.isSome = true ∨ f.2.type.isRequired = true ∧
            (enforce = true ∨ (suppliedRaw supplied f.1).isAbsent = false) →
            f.1 ∈ members.keys :=
  ⟨fun _ _ _ _ h => coerceAt_conforms hg hc h,
    fun _ _ _ _ hreserved h => coerceArguments_conform hg hc hreserved h⟩

/-! ## A graph of boxes -/

inductive BoxType
  | unit
  | box
  deriving DecidableEq

/-- Boxes have a label, and a unit that is centimetres unless said otherwise. -/
def boxes : TypeGraph BoxType where
  declared
    | .unit => .enum (.ofNames "Unit" ["CM", "INCH"])
    | .box => .input
      { name := "Box"
        fields := ⟨[("label", ⟨.required (.named (.builtin .string)), none⟩),
          ("unit", ⟨.named (.declared .unit), some (.string "CM")⟩)], by decide⟩
        unreserved := by decide }
  all := [.unit, .box]
  mem_all n := by cases n <;> decide

theorem boxes_yieldsValues : boxes.YieldsValues where
  scalar n s h := by cases n <;> cases h
  enum n e h symbol v hv := by
    cases n with
    | unit =>
      obtain rfl := NamedType.enum.inj h
      obtain ⟨s, _, he⟩ := List.mem_map.mp hv
      cases he
      rfl
    | box => cases h

/-- An operation whose variable has a default. -/
def labelled : Context BoxType :=
  ⟨[], [⟨"label", .named (.builtin .string), some (.string "small")⟩]⟩

theorem labelled_hasConstantDefaults : labelled.HasConstantDefaults := by
  intro name literal h
  have hl : literal = .string "small" := by
    by_cases hn : "label" = name
    · simp [Context.default?, Context.definition?, labelled, hn] at h
      exact h.symm
    · simp [Context.default?, Context.definition?, labelled, hn] at h
  subst hl
  intro n hn
  simp_all [Raw.nodes, Raw.isReference, Raw.isAbsent]

theorem coerceAt_box (hops defaults : Nat) (path : Path) :
    coerceAt boxes labelled (hops + 1) (defaults + 1) (.named (.declared .box))
        (.object [("label", .variable "label")]) path =
      .ok (.done (some (.record [("label", .string "small"), ("unit", .string "CM")]))) := by
  refine (coerceAt_input_eq_done_iff rfl rfl).mpr
    ⟨[("label", some (.string "small")), ("unit", some (.string "CM"))], rfl,
      .cons ⟨rfl, ?_⟩ (.cons ⟨rfl, ?_⟩ .nil), rfl⟩
  · refine coerceAt_variable_eq_done_iff.mpr ⟨_, rfl, rfl, ?_⟩
    exact (coerceAt_required _ _ _ _ rfl _ _).trans ((coerceAt_scalar _ _ _ _ rfl rfl _).trans rfl)
  · exact (coerceAt_enum _ _ _ _ rfl rfl _).trans rfl

theorem coerce_box (path : Path) :
    coerce boxes labelled (.named (.declared .box)) (.object [("label", .variable "label")]) path =
      .ok (.done (some (.record [("label", .string "small"), ("unit", .string "CM")]))) :=
  coerceAt_box _ _ path

/-- The arguments of a field: a box, a unit with a default, and a required address. -/
def boxArguments : Declared (Position BoxType) :=
  ⟨[("box", ⟨.required (.named (.declared .box)), none⟩),
    ("unit", ⟨.named (.declared .unit), some (.string "INCH")⟩),
    ("address", ⟨.required (.named (.builtin .string)), none⟩)], by decide⟩

/-- The default stands in, and the address is waived. -/
theorem coerceArguments_box :
    coerceArguments boxes labelled boxArguments
        [("box", .object [("label", .variable "label")])] false =
      .ok (.done (.record
        [("box", .record [("label", .string "small"), ("unit", .string "CM")]),
          ("unit", .string "INCH")])) := by
  refine coerceArguments_eq_done_iff.mpr
    ⟨[("box", some (.record [("label", .string "small"), ("unit", .string "CM")])),
      ("unit", some (.string "INCH"))], .cons ⟨rfl, ?_⟩ (.cons ⟨rfl, ?_⟩ .nil), rfl⟩
  · exact (coerceAt_required _ _ _ _ rfl _ _).trans (coerceAt_box _ _ _)
  · exact (coerceAt_enum _ _ _ _ rfl rfl _).trans rfl

/-- A box, and the arguments of a field that takes one. -/
theorem coercion_sound_box :
    (coerce boxes labelled (.named (.declared .box)) (.object [("label", .variable "label")]) [] =
        .ok (.done (some (.record [("label", .string "small"), ("unit", .string "CM")]))) ∧
      Conforms boxes (.named (.declared .box))
        (some (.record [("label", .string "small"), ("unit", .string "CM")]))) ∧
    ∃ members : Members Value,
      coerceArguments boxes labelled boxArguments
          [("box", .object [("label", .variable "label")])] false = .ok (.done (.record members)) ∧
        (∀ m ∈ members, ∃ position, (m.1, position) ∈ boxArguments.entries ∧
          Conforms boxes position.type (some m.2)) ∧
        "box" ∈ members.keys ∧ "unit" ∈ members.keys := by
  obtain ⟨hvalue, harguments⟩ := coercion_sound boxes_yieldsValues labelled_hasConstantDefaults
  refine ⟨⟨coerce_box [], hvalue _ _ _ _ (coerce_box [])⟩, ?_⟩
  obtain ⟨members, hmembers, -, hconform, hpresent⟩ :=
    harguments boxArguments _ _ _ (by decide) coerceArguments_box
  refine ⟨members, hmembers ▸ coerceArguments_box, hconform, ?_, ?_⟩
  · exact hpresent ("box", _) (.head _) (.inr ⟨rfl, .inr rfl⟩)
  · exact hpresent ("unit", _) (.tail _ (.head _)) (.inl rfl)

end Coercion

end TypedQuery
