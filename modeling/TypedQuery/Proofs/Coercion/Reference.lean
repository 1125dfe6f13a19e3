import TypedQuery.Coercion.Basic
import TypedQuery.Proofs.Raw.Nodes

/-!
# What references stand for

A reference is read in three places: at a typed position, inside the literal of a scalar, and where
it is decided whether a default stands in. All three see the same raw value, `standFor`.

* `reading_cases`: at a typed position a reference is read as that, or fails for lack of a value;
* `inlineWith_substitute`, `inlineVariable_eq`: inside a literal it is replaced by that;
* `leavesDefault_eq`: a default stands in exactly where that is absent.
-/

namespace TypedQuery

namespace Context

variable {ν : Type} (g : TypeGraph ν) (ctx : Context ν)

/-- What a variable stands for: its supplied value, else its default, else nothing. -/
def standFor (name : String) : Raw :=
  match ctx.supplied? name with
  | some value => .external value
  | none => (ctx.default? name).getD .absent

/-- The type that decides whether a variable must have a value. -/
def declaredType (name : String) (expected : TypeRef (TypeId ν)) : TypeRef (TypeId ν) :=
  ((ctx.definition? name).map (·.type)).getD expected

/-- The defaults of variables hold no references. -/
def HasSettledDefaults : Prop :=
  ∀ name literal, ctx.default? name = some literal → literal.IsSettled

/-- The defaults of variables hold neither references nor absences. -/
def HasConstantDefaults : Prop :=
  ∀ name literal, ctx.default? name = some literal → literal.IsConstant

/-- A variable that is declared with a required type is not supplied as null, and has a supplied
value or a default. -/
def GivesRequired : Prop :=
  ∀ name d, ctx.definition? name = some d → d.type.isRequired = true →
    ctx.supplied? name ≠ some .null ∧ (ctx.supplied? name ≠ none ∨ ctx.default? name ≠ none)

variable {ctx}

theorem HasConstantDefaults.settled (h : ctx.HasConstantDefaults) : ctx.HasSettledDefaults :=
  fun name literal hd => (h name literal hd).isSettled

theorem standFor_supplied {name : String} {value : Value} (h : ctx.supplied? name = some value) :
    ctx.standFor name = .external value := by
  simp [standFor, h]

theorem standFor_default {name : String} {literal : Raw} (h : ctx.supplied? name = none)
    (hd : ctx.default? name = some literal) : ctx.standFor name = literal := by
  simp [standFor, h, hd]

theorem standFor_none {name : String} (h : ctx.supplied? name = none)
    (hd : ctx.default? name = none) : ctx.standFor name = .absent := by
  simp [standFor, h, hd]

theorem isSettled_standFor (h : ctx.HasSettledDefaults) (name : String) :
    (ctx.standFor name).IsSettled := by
  cases hs : ctx.supplied? name with
  | some value =>
    rw [standFor_supplied hs]
    exact (Raw.isConstant_external value).isSettled
  | none =>
    cases hd : ctx.default? name with
    | some literal =>
      rw [standFor_default hs hd]
      exact h name literal hd
    | none =>
      rw [standFor_none hs hd]
      exact Raw.isSettled_ofSlot none

/-- Once references are replaced, none is left. -/
theorem isReference_substitute (h : ctx.HasSettledDefaults) (raw : Raw) :
    (raw.substitute ctx.standFor).isReference = false := by
  match raw with
  | .variable name => exact isSettled_standFor h name _ (Raw.mem_nodes_self _)
  | .int _ | .float _ | .string _ | .boolean _ | .enum _ | .null | .absent | .external _
  | .list _ | .object _ => rfl

/-- With constant defaults, a variable stands for something absent only if it has no value. -/
theorem isAbsent_standFor_iff (h : ctx.HasConstantDefaults) (name : String) :
    (ctx.standFor name).isAbsent = true ↔ ctx.supplied? name = none ∧ ctx.default? name = none := by
  cases hs : ctx.supplied? name with
  | some value => simp [standFor_supplied hs, Raw.isAbsent]
  | none =>
    cases hd : ctx.default? name with
    | some literal => simp [standFor_default hs hd, (h name literal hd).isAbsent_eq]
    | none => simp [standFor_none hs hd, Raw.isAbsent]

/-- With constant defaults, a variable stands for nothing or for something constant. -/
theorem standFor_absent_or_constant (h : ctx.HasConstantDefaults) (name : String) :
    ctx.standFor name = .absent ∨ (ctx.standFor name).IsConstant := by
  cases hs : ctx.supplied? name with
  | some value =>
    rw [standFor_supplied hs]
    exact Or.inr (Raw.isConstant_external value)
  | none =>
    cases hd : ctx.default? name with
    | some literal =>
      rw [standFor_default hs hd]
      exact Or.inr (h name literal hd)
    | none => exact Or.inl (standFor_none hs hd)

/-! ## At typed positions -/

/-- A reference is read as what it stands for, unless its variable must have a value and is null or
has none. -/
theorem reading_cases (name : String) (type : TypeRef (TypeId ν)) (path : Path) :
    ctx.reading g name type path = .ok (ctx.standFor name) ∨
      (ctx.declaredType name type).isRequired = true ∧
        (ctx.supplied? name = some .null ∧
            ctx.reading g name type path =
              .error (.valueRequired path (g.print (ctx.declaredType name type)) "null") ∨
          ctx.supplied? name = none ∧ ctx.default? name = none ∧
            ctx.reading g name type path =
              .error (.missingVariable path name (g.print (ctx.declaredType name type)))) := by
  unfold reading declaredType standFor
  cases hs : ctx.supplied? name with
  | some value =>
    cases hr : (((ctx.definition? name).map (·.type)).getD type).isRequired <;>
      cases value <;> simp [Value.isNull, hr]
  | none =>
    cases hd : ctx.default? name with
    | some literal => simp
    | none =>
      cases hr : (((ctx.definition? name).map (·.type)).getD type).isRequired <;> simp [hr]

theorem reading_eq_ok {name : String} {type : TypeRef (TypeId ν)} {path : Path} {stand : Raw}
    (h : ctx.reading g name type path = .ok stand) : stand = ctx.standFor name := by
  rcases reading_cases g name type path with ho | ⟨_, ⟨_, he⟩ | ⟨_, _, he⟩⟩
  · rw [h] at ho
    exact Except.ok.inj ho
  · rw [h] at he; cases he
  · rw [h] at he; cases he

/-- Reading fails only for null or for nothing. -/
theorem standFor_of_reading_error {name : String} {type : TypeRef (TypeId ν)} {path : Path}
    {failure : Failure} (h : ctx.reading g name type path = .error failure) :
    failure.path = path ∧
      (ctx.standFor name = .external .null ∨ ctx.standFor name = .absent) := by
  rcases reading_cases g name type path with ho | ⟨_, ⟨hs, he⟩ | ⟨hs, hd, he⟩⟩
  · rw [h] at ho; cases ho
  · rw [h] at he
    obtain rfl := Except.error.inj he
    exact ⟨rfl, Or.inl (standFor_supplied hs)⟩
  · rw [h] at he
    obtain rfl := Except.error.inj he
    exact ⟨rfl, Or.inr (standFor_none hs hd)⟩

/-! ## Where defaults are chosen -/

/-- A reference leaves the default of its position in force exactly if its variable has no value
and need not have one. -/
theorem standsEmpty_variable_iff (name : String) :
    ctx.standsEmpty (.variable name) = true ↔
      ctx.supplied? name = none ∧ ctx.default? name = none ∧
        ∀ d, ctx.definition? name = some d → d.type.isRequired = false := by
  cases hd : ctx.definition? name <;>
    simp [standsEmpty, default?, hd, Option.isNone_iff_eq_none]

theorem leavesDefault_of_not_reference {raw : Raw} (h : raw.isReference = false) :
    ctx.leavesDefault raw = raw.isAbsent := by
  cases raw <;> first | rfl | cases h

/-- What is read as absent leaves the default of its position in force. -/
theorem leavesDefault_of_reading {name : String} {type : TypeRef (TypeId ν)} {path : Path}
    (hc : ctx.HasConstantDefaults) {stand : Raw} (h : ctx.reading g name type path = .ok stand)
    (ha : stand.isAbsent = true) : ctx.leavesDefault (.variable name) = true := by
  rw [reading_eq_ok g h, isAbsent_standFor_iff hc] at ha
  obtain ⟨hs, hd⟩ := ha
  have hempty : ctx.standsEmpty (.variable name) = true := by
    refine (standsEmpty_variable_iff name).mpr ⟨hs, hd, fun d hdef => ?_⟩
    cases hr : d.type.isRequired with
    | false => rfl
    | true => simp [reading, hs, hd, hdef, hr] at h
  simp [leavesDefault, hempty]

/-- If the required variables among them are given, defaults stand in exactly where nothing stands
once references are replaced. -/
theorem leavesDefault_eq (hc : ctx.HasConstantDefaults) {raw : Raw}
    (hr : ∀ name, .variable name ∈ raw.nodes → ∀ d, ctx.definition? name = some d →
      d.type.isRequired = true → ctx.supplied? name ≠ none ∨ ctx.default? name ≠ none) :
    ctx.leavesDefault raw = (raw.substitute ctx.standFor).isAbsent := by
  match raw with
  | .variable name =>
    rw [Raw.substitute, Bool.eq_iff_iff, isAbsent_standFor_iff hc]
    simp only [leavesDefault, Raw.isAbsent, Bool.false_or, standsEmpty_variable_iff]
    refine ⟨fun h => ⟨h.1, h.2.1⟩, fun h => ⟨h.1, h.2, fun d hd => ?_⟩⟩
    cases hreq : d.type.isRequired with
    | false => rfl
    | true =>
      rcases hr name (Raw.mem_nodes_self _) d hd hreq with hs | hs
      · exact absurd h.1 hs
      · exact absurd h.2 hs
  | .int _ | .float _ | .string _ | .boolean _ | .enum _ | .null | .absent | .external _
  | .list _ | .object _ => rfl

/-! ## Inside the literals of scalars -/

section Inline

variable {look look' : String → Except Fault Inlined} {stand : String → Raw}

mutual

/-- Inside a literal a reference may be replaced before or while the literal is read. -/
theorem inlineWith_substitute (raw : Raw)
    (h : ∀ name, .variable name ∈ raw.nodes → look name = inlineWith look' (stand name)) :
    inlineWith look raw = inlineWith look' (raw.substitute stand) := by
  match raw with
  | .list items =>
    rw [Raw.substitute, inlineWith, inlineWith, inlineItems_substitute items
      fun name hn => h name (by rw [Raw.nodes]; exact List.mem_cons_of_mem _ hn)]
  | .object fields =>
    rw [Raw.substitute, inlineWith, inlineWith, inlineFields_substitute fields
      fun name hn => h name (by rw [Raw.nodes]; exact List.mem_cons_of_mem _ hn)]
  | .variable name =>
    rw [Raw.substitute, inlineWith]
    exact h name (Raw.mem_nodes_self _)
  | .int _ | .float _ | .string _ | .boolean _ | .enum _ | .null | .absent | .external _ => rfl

theorem inlineItems_substitute (items : List Raw)
    (h : ∀ name, .variable name ∈ Raw.itemNodes items →
      look name = inlineWith look' (stand name)) :
    inlineItems look items = inlineItems look' (Raw.substituteItems stand items) := by
  match items with
  | [] => rfl
  | item :: rest =>
    rw [Raw.substituteItems, inlineItems, inlineItems,
      inlineWith_substitute item fun name hn => h name (List.mem_append_left _ hn),
      inlineItems_substitute rest fun name hn => h name (List.mem_append_right _ hn)]

theorem inlineFields_substitute (fields : List (String × Raw))
    (h : ∀ name, .variable name ∈ Raw.fieldNodes fields →
      look name = inlineWith look' (stand name)) :
    inlineFields look fields = inlineFields look' (Raw.substituteFields stand fields) := by
  match fields with
  | [] => rfl
  | (_, held) :: rest =>
    rw [Raw.substituteFields, inlineFields, inlineFields,
      inlineWith_substitute held fun name hn => h name (List.mem_append_left _ hn),
      inlineFields_substitute rest fun name hn => h name (List.mem_append_right _ hn)]

end

/-- A literal is read in one way wherever its references are read in one way. -/
theorem inlineWith_congr {raw : Raw}
    (h : ∀ name, .variable name ∈ raw.nodes → look name = look' name) :
    inlineWith look raw = inlineWith look' raw := by
  have hs : inlineWith look raw = inlineWith look' (raw.substitute .variable) :=
    inlineWith_substitute raw h
  rwa [Raw.substitute_eq_self _ fun _ _ => rfl] at hs

/-- Without references it does not matter what they stand for. -/
theorem inlineWith_settled {raw : Raw} (h : raw.IsSettled) :
    inlineWith look raw = inlineWith look' raw :=
  inlineWith_congr fun name hn => absurd hn (h.variable_notMem name)

mutual

/-- A constant literal is read as it is. -/
theorem inlineWith_constant (raw : Raw) (h : raw.IsConstant) :
    inlineWith look raw = .ok (raw, []) := by
  match raw with
  | .list items =>
    rw [inlineWith, inlineItems_constant items
      fun n hn => h n (by rw [Raw.nodes]; exact List.mem_cons_of_mem _ hn)]
    rfl
  | .object fields =>
    rw [inlineWith, inlineFields_constant fields
      fun n hn => h n (by rw [Raw.nodes]; exact List.mem_cons_of_mem _ hn)]
    rfl
  | .variable name => exact absurd rfl (h.isSettled.ne_variable name)
  | .int _ | .float _ | .string _ | .boolean _ | .enum _ | .null | .absent | .external _ => rfl

theorem inlineItems_constant (items : List Raw)
    (h : ∀ n ∈ Raw.itemNodes items, n.isReference = false ∧ n.isAbsent = false) :
    inlineItems look items = .ok (items, []) := by
  match items with
  | [] => rfl
  | item :: rest =>
    have hi : item.IsConstant := fun n hn => h n (List.mem_append_left _ hn)
    rw [inlineItems, inlineWith_constant item hi,
      inlineItems_constant rest fun n hn => h n (List.mem_append_right _ hn)]
    simp [bind, Except.bind, pure, Except.pure, hi.isAbsent_eq]

theorem inlineFields_constant (fields : List (String × Raw))
    (h : ∀ n ∈ Raw.fieldNodes fields, n.isReference = false ∧ n.isAbsent = false) :
    inlineFields look fields = .ok (fields, []) := by
  match fields with
  | [] => rfl
  | (name, held) :: rest =>
    have hf : held.IsConstant := fun n hn => h n (List.mem_append_left _ hn)
    rw [inlineFields, inlineWith_constant held hf,
      inlineFields_constant rest fun n hn => h n (List.mem_append_right _ hn)]
    simp [bind, Except.bind, pure, Except.pure, hf.isAbsent_eq]

end

end Inline

/-- The required type that a variable is declared with, if it is. -/
def requiredType? (ctx : Context ν) (name : String) : Option (TypeRef (TypeId ν)) :=
  ((ctx.definition? name).map (·.type)).filter TypeRef.isRequired

theorem requiredType?_eq_some_iff {name : String} {type : TypeRef (TypeId ν)} :
    ctx.requiredType? name = some type ↔
      ∃ d, ctx.definition? name = some d ∧ d.type = type ∧ type.isRequired = true := by
  simp only [requiredType?, Option.filter_eq_some_iff, Option.map_eq_some_iff]
  refine ⟨?_, ?_⟩
  · rintro ⟨⟨d, hd, rfl⟩, hr⟩
    exact ⟨d, hd, rfl, hr⟩
  · rintro ⟨d, hd, rfl, hr⟩
    exact ⟨⟨d, hd, rfl⟩, hr⟩

/-- The failures told for a reference inside a literal. -/
def lackOf (g : TypeGraph ν) (ctx : Context ν) (path : Path) (name : String) : List Failure :=
  let required := (ctx.requiredType? name).toList
  match ctx.supplied? name with
  | some value =>
    if value.isNull then required.map fun type => .valueRequired path (g.print type) "null" else []
  | none =>
    match ctx.default? name with
    | some _ => []
    | none => required.map fun type => .missingVariable path name (g.print type)

theorem path_of_mem_lackOf {path : Path} {name : String} {f : Failure}
    (h : f ∈ ctx.lackOf g path name) : f.path = path := by
  unfold lackOf at h
  split at h
  · split at h
    · obtain ⟨type, _, rfl⟩ := List.mem_map.mp h
      rfl
    · cases h
  · split at h
    · cases h
    · obtain ⟨type, _, rfl⟩ := List.mem_map.mp h
      rfl

/-- Nothing is lacking of a variable that is given if it is required. -/
theorem lackOf_eq_nil {name : String}
    (hr : ∀ d, ctx.definition? name = some d → d.type.isRequired = true →
      ctx.supplied? name ≠ some .null ∧ (ctx.supplied? name ≠ none ∨ ctx.default? name ≠ none))
    (path : Path) : ctx.lackOf g path name = [] := by
  cases hq : ctx.requiredType? name with
  | none =>
    unfold lackOf
    split
    · simp [hq]
    · split <;> simp [hq]
  | some type =>
    obtain ⟨d, hd, rfl, hreq⟩ := requiredType?_eq_some_iff.mp hq
    obtain ⟨hnull, hgiven⟩ := hr d hd hreq
    unfold lackOf
    split
    · next value hs =>
      have hn : value.isNull = false := by
        cases value <;> first | rfl | exact absurd hs hnull
      simp [hn]
    · next hs =>
      split
      · rfl
      · next hdef => exact absurd hdef (hgiven.resolve_left fun h => h hs)

/-- Inside a literal a reference is replaced by what it stands for. -/
theorem inlineVariable_eq (hc : ctx.HasConstantDefaults) (path : Path) (hops : Nat)
    (name : String) :
    inlineVariable g ctx path (hops + 1) name =
      .ok (ctx.standFor name, ctx.lackOf g path name) := by
  unfold inlineVariable lackOf requiredType?
  cases hs : ctx.supplied? name with
  | some value => simp [standFor_supplied hs]
  | none =>
    cases hd : ctx.default? name with
    | some literal =>
      have hliteral := hc name literal hd
      simp [standFor_default hs hd, inlineWith_constant literal hliteral]
    | none => simp [standFor_none hs hd]

/-- If required variables are given, a scalar reads a literal as the one in which references are
replaced, in any context. -/
theorem inline_substitute (hc : ctx.HasConstantDefaults) (hr : ctx.GivesRequired)
    (ctx' : Context ν) (path : Path) (raw : Raw) :
    ctx.inline g path raw = ctx'.inline g path (raw.substitute ctx.standFor) := by
  refine inlineWith_substitute raw fun name _ => ?_
  rw [inlineVariable_eq g hc, lackOf_eq_nil g (hr name)]
  rcases standFor_absent_or_constant hc name with ha | hconst
  · rw [ha]; rfl
  · exact (inlineWith_constant _ hconst).symm

end Context

end TypedQuery
