import TypedQuery.Proofs.Coercion.Conformance

/-!
# Coercion depends on declared fields only

Of an object that stands where an input object is expected, only what it holds under the names of
the declared fields matters: keys that are not declared, the order of the keys, and fields that are
written again later change neither a value nor a failure.

* `declaredValue`, `declaredPart`: a value, or a raw value, reduced at every depth to its declared
  fields, in the order of their declaration;
* `items?_declaredPart`, `field_declaredPart`: what is read from the part that is kept;
* `coerceAt_declaredPart`: the part that is kept is coerced like the whole;
* `coerce_declared`: so are values and arguments.
-/

namespace TypedQuery

/-! ## The last field of a name -/

theorem Raw.lastField?_eq_get? (name : String) (fields : List (String × Raw)) :
    lastField? name fields = Members.get? fields.reverse name := by
  induction fields with
  | nil => rfl
  | cons f rest ih =>
    rw [lastField?, ih, List.reverse_cons, Members.get?_append]
    cases Members.get? rest.reverse name <;> rfl

/-- Under distinct names the first field of a name is the last one. -/
theorem Raw.lastField?_eq_get?_of_nodup {fields : List (String × Raw)}
    (h : (Members.keys fields).Nodup) (name : String) :
    lastField? name fields = Members.get? fields name := by
  have hreverse : (Members.keys fields.reverse).Nodup := by
    rw [Members.keys, List.map_reverse]
    exact List.nodup_reverse.mpr h
  refine Option.ext fun held => ?_
  rw [lastField?_eq_get?, Members.get?_eq_some_iff hreverse, Members.get?_eq_some_iff h,
    List.mem_reverse]

theorem Value.isNullish_of_plainMembers? {v : Value} {members : Members Value}
    (h : v.plainMembers? = some members) : v.isNullish = false := by
  cases v <;> first | rfl | cases h

namespace TypeGraph

variable {ν : Type} (g : TypeGraph ν)

/-! ## The declared part -/

/-- A value without the members that its type does not declare, at any depth. The declared members
are kept in the order of their declaration. -/
def declaredValue (type : TypeRef (TypeId ν)) (v : Value) : Value :=
  match type with
  | .required inner => declaredValue inner v
  | .list item =>
    match v with
    | .array _ slots =>
      .array none (slots.attach.map fun slot =>
        slot.1.attach.map fun held => declaredValue item held.1)
    | v => v
  | .named id =>
    match g.describe id, _hmembers : v.plainMembers? with
    | .input o, some members =>
      .record (o.fields.entries.filterMap fun f =>
        (members.get? f.1).attach.map fun held => (f.1, declaredValue f.2.type held.1))
    | _, _ => v
termination_by (sizeOf v, sizeOf type)
decreasing_by
  · exact Prod.Lex.right _ (by simp)
  · have hslot := List.sizeOf_lt_of_mem slot.2
    have hheld : sizeOf slot.1 = 1 + sizeOf held.1 := by
      simpa using congrArg sizeOf held.2
    refine Prod.Lex.left _ _ ?_
    simp only [Value.array.sizeOf_spec]
    omega
  · have hheld := Raw.sizeOf_lt_of_get? held.2
    have hall := Raw.sizeOf_lt_of_plainMembers? _hmembers
    exact Prod.Lex.left _ _ (by omega)

/-- A raw value without the fields that its type does not declare, at any depth. Of the declared
fields those written last are kept, in the order of their declaration. -/
def declaredPart (type : TypeRef (TypeId ν)) (raw : Raw) : Raw :=
  match type, raw with
  | .required inner, raw => declaredPart inner raw
  | .list item, .list items => .list (items.attach.map fun held => declaredPart item held.1)
  | .named id, .object fields =>
    match g.describe id with
    | .input o =>
      .object (o.fields.entries.filterMap fun f =>
        (Raw.lastField? f.1 fields).attach.map fun held => (f.1, declaredPart f.2.type held.1))
    | _ => .object fields
  | type, .external v => .external (g.declaredValue type v)
  | _, raw => raw
termination_by (sizeOf raw, sizeOf type)
decreasing_by
  · exact Prod.Lex.right _ (by simp)
  · have hheld := List.sizeOf_lt_of_mem held.2
    refine Prod.Lex.left _ _ ?_
    simp only [Raw.list.sizeOf_spec]
    omega
  · have hheld := Raw.sizeOf_lt_of_lastField? held.2
    refine Prod.Lex.left _ _ ?_
    simp only [Raw.object.sizeOf_spec]
    omega

/-! ## Equations -/

theorem declaredValue_required (inner : TypeRef (TypeId ν)) (v : Value) :
    g.declaredValue (.required inner) v = g.declaredValue inner v := by
  rw [declaredValue]

theorem declaredValue_array (item : TypeRef (TypeId ν)) (mark : Option Nat)
    (slots : List (Option Value)) :
    g.declaredValue (.list item) (.array mark slots) =
      .array none (slots.map fun slot => slot.map (g.declaredValue item)) := by
  rw [declaredValue]
  simp

theorem declaredValue_list_of_ne (item : TypeRef (TypeId ν)) {v : Value}
    (h : ∀ mark slots, v ≠ .array mark slots) : g.declaredValue (.list item) v = v := by
  rw [declaredValue]
  exact h

/-- Only an object where an input object is expected is reduced by a named type. -/
theorem declaredValue_named_cases (id : TypeId ν) (v : Value) :
    ((∀ o, g.describe id = .input o → v.plainMembers? = none) ∧
        g.declaredValue (.named id) v = v) ∨
      ∃ o members, g.describe id = .input o ∧ v.plainMembers? = some members ∧
        g.declaredValue (.named id) v =
          .record (o.fields.entries.filterMap fun f =>
            ((members.get? f.1).map (g.declaredValue f.2.type)).map (f.1, ·)) := by
  rw [declaredValue]
  split
  · next o members ho hm =>
    exact Or.inr ⟨o, members, ho, hm, by simp [Option.map_map, Function.comp_def]⟩
  · next h =>
    refine Or.inl ⟨fun o ho => ?_, rfl⟩
    cases hm : v.plainMembers? with
    | none => rfl
    | some members => exact absurd hm (h o members ho)

theorem isNullish_declaredValue (type : TypeRef (TypeId ν)) (v : Value) :
    (g.declaredValue type v).isNullish = v.isNullish := by
  induction type with
  | required inner ih => rw [declaredValue_required, ih]
  | list item =>
    match v with
    | .array mark slots => rw [declaredValue_array]; rfl
    | .undefined | .null | .boolean _ | .number _ | .bigint _ | .string _ | .object .. | .heir .. =>
      rw [declaredValue_list_of_ne _ _ (by simp)]
  | named id =>
    rcases g.declaredValue_named_cases id v with ⟨_, he⟩ | ⟨o, members, _, hm, he⟩
    · rw [he]
    · rw [he, Value.isNullish_of_plainMembers? hm]
      rfl

/-- Null and undefined declare nothing. -/
theorem declaredValue_of_isNullish (type : TypeRef (TypeId ν)) {v : Value}
    (h : v.isNullish = true) : g.declaredValue type v = v := by
  induction type with
  | required inner ih => rw [declaredValue_required, ih]
  | list item => exact declaredValue_list_of_ne _ _ fun mark slots he => by rw [he] at h; cases h
  | named id =>
    rcases g.declaredValue_named_cases id v with ⟨_, he⟩ | ⟨o, members, _, hm, _⟩
    · exact he
    · rw [Value.isNullish_of_plainMembers? hm] at h
      cases h

theorem declaredPart_required (inner : TypeRef (TypeId ν)) (raw : Raw) :
    g.declaredPart (.required inner) raw = g.declaredPart inner raw := by
  rw [declaredPart]

theorem declaredPart_list (item : TypeRef (TypeId ν)) (items : List Raw) :
    g.declaredPart (.list item) (.list items) = .list (items.map (g.declaredPart item)) := by
  rw [declaredPart]
  simp

theorem declaredPart_object {id : TypeId ν} {o : InputObject ν} (ho : g.describe id = .input o)
    (fields : List (String × Raw)) :
    g.declaredPart (.named id) (.object fields) =
      .object (o.fields.entries.filterMap fun f =>
        ((Raw.lastField? f.1 fields).map (g.declaredPart f.2.type)).map (f.1, ·)) := by
  rw [declaredPart]
  simp [ho, Option.map_map, Function.comp_def]

theorem declaredPart_external (type : TypeRef (TypeId ν)) (v : Value) :
    g.declaredPart type (.external v) = .external (g.declaredValue type v) := by
  induction type with
  | required inner ih => rw [declaredPart_required, declaredValue_required, ih]
  | list item =>
    rw [declaredPart]
    simp
  | named id =>
    rw [declaredPart]
    simp

/-- Nothing is taken from a raw value that is not read through its type. -/
theorem declaredPart_of_not_present (type : TypeRef (TypeId ν)) {raw : Raw}
    (h : Coercion.isPresent raw = false) : g.declaredPart type raw = raw := by
  match raw with
  | .external v =>
    have hn : v.isNullish = true := by
      cases v <;> first | rfl | cases h
    rw [declaredPart_external, declaredValue_of_isNullish g type hn]
  | .null | .absent | .variable _ =>
    induction type with
    | required inner ih => rw [declaredPart_required, ih]
    | list item => rw [declaredPart] <;> simp
    | named id => rw [declaredPart] <;> simp
  | .int _ | .float _ | .string _ | .boolean _ | .enum _ | .list _ | .object _ => cases h

theorem declaredPart_list_of_items? (item : TypeRef (TypeId ν)) {raw : Raw}
    (h : raw.items? = none) : g.declaredPart (.list item) raw = raw := by
  match raw with
  | .external v =>
    rw [declaredPart_external, declaredValue_list_of_ne]
    rintro mark slots rfl
    cases h
  | .list items => cases h
  | .int _ | .float _ | .string _ | .boolean _ | .enum _ | .null | .absent | .variable _
  | .object _ => rw [declaredPart] <;> simp

theorem declaredPart_of_not_object (id : TypeId ν) {raw : Raw} (h : raw.isObject = false) :
    g.declaredPart (.named id) raw = raw := by
  match raw with
  | .external v =>
    rw [declaredPart_external]
    rcases g.declaredValue_named_cases id v with ⟨_, he⟩ | ⟨o, members, _, hm, _⟩
    · rw [he]
    · rw [Raw.isObject, Value.isPlain, hm] at h
      cases h
  | .object fields => cases h
  | .int _ | .float _ | .string _ | .boolean _ | .enum _ | .null | .absent | .variable _
  | .list _ => rw [declaredPart] <;> simp

theorem declaredPart_of_not_input {id : TypeId ν} (h : ∀ o, g.describe id ≠ .input o) (raw : Raw) :
    g.declaredPart (.named id) raw = raw := by
  match raw with
  | .external v =>
    rw [declaredPart_external]
    rcases g.declaredValue_named_cases id v with ⟨_, he⟩ | ⟨o, _, ho, _⟩
    · rw [he]
    · exact absurd ho (h o)
  | .object fields =>
    rw [declaredPart]
    split
    · next o ho => exact absurd ho (h o)
    · rfl
  | .int _ | .float _ | .string _ | .boolean _ | .enum _ | .null | .absent | .variable _
  | .list _ => rw [declaredPart] <;> simp

/-! ## What is read from the declared part -/

theorem isPresent_declaredPart (type : TypeRef (TypeId ν)) {raw : Raw}
    (h : Coercion.isPresent raw = true) : Coercion.isPresent (g.declaredPart type raw) = true := by
  induction type with
  | required inner ih => rwa [declaredPart_required]
  | list item =>
    cases hitems : raw.items? with
    | none => rwa [declaredPart_list_of_items? g item hitems]
    | some items =>
      match raw with
      | .list _ => rw [declaredPart_list]; rfl
      | .external (.array ..) => rw [declaredPart_external, declaredValue_array]; rfl
  | named id =>
    cases hobject : raw.isObject with
    | false => rwa [declaredPart_of_not_object g id hobject]
    | true =>
      cases hd : g.describe id with
      | scalar _ | enum _ => rwa [declaredPart_of_not_input g (by simp [hd])]
      | input o =>
        match raw with
        | .object _ => rw [g.declaredPart_object hd]; rfl
        | .external v =>
          rw [declaredPart_external]
          rcases g.declaredValue_named_cases id v with ⟨_, he⟩ | ⟨_, _, _, _, he⟩
          · rwa [he]
          · rw [he]
            rfl

theorem ofValue_declaredValue (type : TypeRef (TypeId ν)) (v : Value) :
    Raw.ofValue (g.declaredValue type v) = g.declaredPart type (Raw.ofValue v) := by
  have hof : ∀ w : Value, w.isNullish = false → Raw.ofValue w = .external w := by
    intro w hw
    cases w <;> first | rfl | cases hw
  cases hn : v.isNullish with
  | true =>
    rw [declaredValue_of_isNullish g type hn, declaredPart_of_not_present]
    cases v <;> first | rfl | cases hn
  | false => rw [hof v hn, declaredPart_external, hof _ (g.isNullish_declaredValue type v ▸ hn)]

theorem ofSlot_declaredValue (type : TypeRef (TypeId ν)) (slot : Option Value) :
    Raw.ofSlot (slot.map (g.declaredValue type)) = g.declaredPart type (Raw.ofSlot slot) := by
  cases slot with
  | none => exact (g.declaredPart_of_not_present type rfl).symm
  | some v => exact g.ofValue_declaredValue type v

/-- The items of the part that is kept of a list are what is kept of its items. -/
theorem items?_declaredPart (item : TypeRef (TypeId ν)) (raw : Raw) :
    (g.declaredPart (.list item) raw).items? =
      raw.items?.map fun items => items.map (g.declaredPart item) := by
  cases hitems : raw.items? with
  | none => rw [declaredPart_list_of_items? g item hitems, hitems]; rfl
  | some items =>
    match raw with
    | .list items' =>
      obtain rfl := Option.some.inj hitems
      rw [declaredPart_list]
      rfl
    | .external (.array mark slots) =>
      obtain rfl := Option.some.inj hitems
      rw [declaredPart_external, declaredValue_array]
      simp only [Raw.items?, Option.map_some, List.map_map, Option.some.injEq]
      exact List.map_congr_left fun slot _ => g.ofSlot_declaredValue item slot

section Input

variable {id : TypeId ν} {o : InputObject ν} (ho : g.describe id = .input o)
include ho

theorem isObject_declaredPart {raw : Raw} (h : raw.isObject = true) :
    (g.declaredPart (.named id) raw).isObject = true := by
  match raw with
  | .object fields => rw [g.declaredPart_object ho]; rfl
  | .external v =>
    obtain ⟨members, hm⟩ := Option.isSome_iff_exists.mp h
    rw [declaredPart_external]
    rcases g.declaredValue_named_cases id v with ⟨hn, _⟩ | ⟨o', members', _, _, he⟩
    · rw [hn o ho] at hm
      cases hm
    · rw [he]
      rfl

/-- What the part that is kept of an object holds under a declared name is what is kept of what the
object holds. -/
theorem field_declaredPart {raw : Raw} (h : raw.isObject = true) {f : String × Position ν}
    (hf : f ∈ o.fields.entries) :
    (g.declaredPart (.named id) raw).field f.1 = g.declaredPart f.2.type (raw.field f.1) := by
  match raw with
  | .object fields =>
    rw [g.declaredPart_object ho, Raw.field, Raw.field?, Option.getD_some,
      Raw.lastField?_eq_get?_of_nodup (Members.nodup_keys_filterMap o.fields.distinct _),
      Members.get?_filterMap o.fields.distinct _ hf, Raw.field, Raw.field?, Option.getD_some]
    cases Raw.lastField? f.1 fields with
    | none => exact (g.declaredPart_of_not_present f.2.type rfl).symm
    | some held => rfl
  | .external v =>
    obtain ⟨members, hm⟩ := Option.isSome_iff_exists.mp h
    rw [declaredPart_external]
    rcases g.declaredValue_named_cases id v with ⟨hn, _⟩ | ⟨o', members', ho', hm', he⟩
    · rw [hn o ho] at hm
      cases hm
    · obtain rfl := NamedType.input.inj (ho.symm.trans ho')
      rw [he, Raw.field, Raw.field?, Raw.field, Raw.field?, hm']
      simp only [Value.record, Value.plainMembers?, Option.map_some, Option.getD_some,
        Members.get?_filterMap o.fields.distinct _ hf]
      cases Members.get? members' f.1 with
      | none => exact (g.declaredPart_of_not_present f.2.type rfl).symm
      | some held => exact g.ofValue_declaredValue f.2.type held

end Input

end TypeGraph

/-! ## Coercion -/

namespace Coercion

variable {ν : Type} {g : TypeGraph ν} {ctx : Context ν} {hops defaults : Nat}

theorem leavesDefault_declaredPart (type : TypeRef (TypeId ν)) (raw : Raw) :
    ctx.leavesDefault (g.declaredPart type raw) = ctx.leavesDefault raw := by
  cases hp : isPresent raw with
  | false => rw [g.declaredPart_of_not_present type hp]
  | true =>
    have hleaves : ∀ r : Raw, isPresent r = true → ctx.leavesDefault r = false := by
      intro r hr
      cases r <;> first | rfl | cases hr
    rw [hleaves raw hp, hleaves _ (g.isPresent_declaredPart type hp)]

/-- What is kept of what a field is given is coerced like the whole, or the default stands in for
both. -/
theorem coerceField_declaredPart {id : TypeId ν} {o : InputObject ν}
    (ho : g.describe id = .input o) {raw : Raw} (h : raw.isObject = true)
    {f : String × Position ν} (hf : f ∈ o.fields.entries) (path : Path)
    (held : coerceAt g ctx hops defaults f.2.type (g.declaredPart f.2.type (raw.field f.1))
        (path ++ [.field f.1]) =
      coerceAt g ctx hops defaults f.2.type (raw.field f.1) (path ++ [.field f.1])) :
    coerceField g ctx hops defaults (g.declaredPart (.named id) raw) path f.1 f.2 =
      coerceField g ctx hops defaults raw path f.1 f.2 := by
  have hfallback : fallbackFor? ctx f.2 (g.declaredPart f.2.type (raw.field f.1)) =
      fallbackFor? ctx f.2 (raw.field f.1) := by
    rw [fallbackFor?, fallbackFor?, leavesDefault_declaredPart]
  rw [coerceField, coerceField, g.field_declaredPart ho h hf, hfallback, held]

/-- The declared part is coerced like the whole. -/
theorem coerceAt_declaredPart (type : TypeRef (TypeId ν)) (raw : Raw) (path : Path) :
    coerceAt g ctx hops defaults type (g.declaredPart type raw) path =
      coerceAt g ctx hops defaults type raw path := by
  induction hops, defaults, type, raw using coercion_induction g ctx generalizing path with
  | reference hops defaults type name ih => rw [g.declaredPart_of_not_present type rfl]
  | absent hops defaults type => rw [g.declaredPart_of_not_present type rfl]
  | null hops defaults type raw hn =>
    have hp : isPresent raw = false := by
      cases raw <;> first | rfl | simp [isPresent, hn]
    rw [g.declaredPart_of_not_present type hp]
  | required hops defaults inner raw hp ih =>
    rw [g.declaredPart_required, coerceAt_required _ _ _ _ hp,
      coerceAt_required _ _ _ _ (g.isPresent_declaredPart inner hp)]
    exact ih path
  | list hops defaults item raw hp ih =>
    cases hitems : raw.items? with
    | none => rw [g.declaredPart_list_of_items? item hitems]
    | some items =>
      rw [coerceAt_list _ _ _ _ hp, coerceAt_list _ _ _ _ (g.isPresent_declaredPart _ hp),
        g.items?_declaredPart, hitems]
      refine congrArg (Except.map gatherItems) ?_
      rw [coerceItems, coerceItems, List.zipIdx_map, List.mapM_map]
      refine mapM_congr fun p hpi => ?_
      exact ih items hitems p.1 (List.fst_mem_of_mem_zipIdx hpi) _
  | scalar hops defaults id s raw hp hs => rw [g.declaredPart_of_not_input (by simp [hs])]
  | enum hops defaults id e raw hp he => rw [g.declaredPart_of_not_input (by simp [he])]
  | input hops defaults id o raw hp ho ih ihd =>
    cases hobject : raw.isObject with
    | false => rw [g.declaredPart_of_not_object id hobject]
    | true =>
      rw [coerceAt_input _ _ _ _ hp ho,
        coerceAt_input _ _ _ _ (g.isPresent_declaredPart _ hp) ho, if_pos hobject,
        if_pos (g.isObject_declaredPart ho hobject)]
      refine congrArg _ (mapM_congr fun f hf => congrArg _ ?_)
      exact coerceField_declaredPart ho hobject hf path (ih hobject f hf _)

/-! ## Arguments -/

/-- Arguments depend on what is supplied under declared names. -/
theorem coerceArguments_congr {declared : Declared (Position ν)} {supplied supplied' : Members Raw}
    (h : ∀ name ∈ declared.names, supplied.get? name = supplied'.get? name) (enforce : Bool) :
    coerceArguments g ctx declared supplied enforce =
      coerceArguments g ctx declared supplied' enforce := by
  have hto : argumentsToCoerce declared supplied enforce =
      argumentsToCoerce declared supplied' enforce := by
    unfold argumentsToCoerce suppliedRaw
    refine congrArg _ (List.map_congr_left fun f hf => ?_)
    simp only [h f.1 (List.mem_map_of_mem hf)]
  rw [coerceArguments, coerceArguments, hto]

/-- **Only what is declared matters.** Coercion cannot tell a raw value from its declared part, nor
two raw values that have the same declared part: it gives both the same value, or fails for both in
the same way. Arguments change neither with what is supplied under other names nor with the order in
which they are supplied. -/
theorem coerce_declared (g : TypeGraph ν) (ctx : Context ν) :
    (∀ (type : TypeRef (TypeId ν)) (raw : Raw) (path : Path),
      coerce g ctx type (g.declaredPart type raw) path = coerce g ctx type raw path) ∧
    (∀ (type : TypeRef (TypeId ν)) (raw raw' : Raw) (path : Path),
      g.declaredPart type raw = g.declaredPart type raw' →
        coerce g ctx type raw path = coerce g ctx type raw' path) ∧
    ∀ (declared : Declared (Position ν)) (supplied : Members Raw) (enforce : Bool),
      coerceArguments g ctx declared (supplied.filter fun m => m.1 ∈ declared.names) enforce =
          coerceArguments g ctx declared supplied enforce ∧
        ∀ supplied', supplied.keys.Nodup → supplied.Perm supplied' →
          coerceArguments g ctx declared supplied' enforce =
            coerceArguments g ctx declared supplied enforce := by
  have hpart : ∀ (type : TypeRef (TypeId ν)) (raw : Raw) (path : Path),
      coerce g ctx type (g.declaredPart type raw) path = coerce g ctx type raw path :=
    fun type raw path => coerceAt_declaredPart type raw path
  refine ⟨hpart, fun type raw raw' path h => ?_, fun declared supplied enforce => ⟨?_, ?_⟩⟩
  · rw [← hpart type raw, h, hpart type raw']
  · exact coerceArguments_congr (fun name hname => supplied.get?_filter hname) enforce
  · intro supplied' hn hp
    exact (coerceArguments_congr (fun name _ => Members.get?_perm hn hp name) enforce).symm

/-! ## A box with more than is declared -/

/-- An operation that does not get the variable it needs. -/
def lacking : Context BoxType := ⟨[], [⟨"gone", .required (.named (.builtin .string)), none⟩]⟩

/-- A box in whose literal the unit comes first and is written twice, and with a colour, which boxes
do not have. -/
def paintedBox : Raw :=
  .object [("unit", .enum "CM"), ("colour", .variable "gone"), ("label", .string "large"),
    ("unit", .enum "INCH")]

def plainBox : Raw := .object [("label", .string "large"), ("unit", .enum "INCH")]

theorem declaredPart_box (fields : List (String × Raw)) (label unit : Raw)
    (hlabel : Raw.lastField? "label" fields = some label) (hl : label.isObject = false)
    (hunit : Raw.lastField? "unit" fields = some unit) :
    boxes.declaredPart (.named (.declared .box)) (.object fields) =
      .object [("label", label), ("unit", unit)] := by
  have hbox : boxes.declaredPart (.named (.declared .box)) (.object fields) = _ :=
    boxes.declaredPart_object rfl fields
  rw [hbox]
  simp only [List.filterMap_cons, List.filterMap_nil, hlabel, hunit, Option.map_some,
    TypeGraph.declaredPart_required, boxes.declaredPart_of_not_object _ hl]
  rw [boxes.declaredPart_of_not_input (by intro o h; cases h)]

theorem declaredPart_paintedBox :
    boxes.declaredPart (.named (.declared .box)) paintedBox = plainBox :=
  declaredPart_box _ _ _ rfl rfl rfl

theorem coerce_plainBox (path : Path) :
    coerce boxes lacking (.named (.declared .box)) plainBox path =
      .ok (.done (some (.record [("label", .string "large"), ("unit", .string "INCH")]))) := by
  refine (coerceAt_input_eq_done_iff rfl rfl).mpr
    ⟨[("label", some (.string "large")), ("unit", some (.string "INCH"))], rfl,
      .cons ⟨rfl, ?_⟩ (.cons ⟨rfl, ?_⟩ .nil), rfl⟩
  · exact (coerceAt_required _ _ _ _ rfl _ _).trans ((coerceAt_scalar _ _ _ _ rfl rfl _).trans rfl)
  · exact (coerceAt_enum _ _ _ _ rfl rfl _).trans rfl

/-- A resolver that takes a box. -/
def takesBox : Declared (Position BoxType) :=
  ⟨[("box", ⟨.named (.declared .box), none⟩)], by decide⟩

theorem coerce_declared_painted :
    boxes.declaredPart (.named (.declared .box)) paintedBox =
        boxes.declaredPart (.named (.declared .box)) plainBox ∧
      coerce boxes lacking (.named (.declared .box)) paintedBox [] =
        .ok (.done (some (.record [("label", .string "large"), ("unit", .string "INCH")]))) ∧
      coerceArguments boxes lacking takesBox [("colour", .variable "gone"), ("box", paintedBox)]
          true =
        coerceArguments boxes lacking takesBox [("box", paintedBox)] true ∧
      coerceArguments boxes lacking takesBox [("box", paintedBox), ("colour", .variable "gone")]
          true =
        coerceArguments boxes lacking takesBox [("colour", .variable "gone"), ("box", paintedBox)]
          true := by
  have hplain : boxes.declaredPart (.named (.declared .box)) plainBox = plainBox :=
    declaredPart_box _ _ _ rfl rfl rfl
  have hsame := declaredPart_paintedBox.trans hplain.symm
  obtain ⟨-, hpart, harguments⟩ := coerce_declared boxes lacking
  refine ⟨hsame, ?_, ?_, ?_⟩
  · rw [hpart _ _ _ _ hsame, coerce_plainBox]
  · exact (harguments takesBox [("colour", .variable "gone"), ("box", paintedBox)] true).1.symm
  · exact (harguments takesBox [("colour", .variable "gone"), ("box", paintedBox)] true).2 _
      (by decide) (List.Perm.swap _ _ _)

end Coercion

end TypedQuery
