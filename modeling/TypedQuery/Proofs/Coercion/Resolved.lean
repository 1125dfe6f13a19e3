import TypedQuery.Proofs.Coercion.Budget
import TypedQuery.Proofs.Raw.Compact

/-!
# Resolved literals

While a literal is made ready for a scalar, its references are replaced and the failures met are
collected. This is to replace all references at once and to compact the result.

* `WrittenAt`: what is written in a literal, and where;
* `resolve`, `lacking`: the literal that a scalar reads, and the failures told instead;
* `inline_eq`, `coerce_resolve`: a scalar reads the one unless there are the others;
* `isConstant_resolve`: neither references nor absences are left in the literal;
* `writtenAt_resolve`: what is not left out is found where it was written.
-/

namespace TypedQuery

open Coercion (isPresent)

/-! ## What is written in a literal -/

/-- A raw value is written in another at a trail of indices and names. -/
inductive Raw.WrittenAt : Raw → Path → Raw → Prop
  | here (raw : Raw) : WrittenAt raw [] raw
  | item {items : List Raw} {i : Nat} {item held : Raw} {trail : Path}
      (h : items[i]? = some item) (hw : WrittenAt item trail held) :
      WrittenAt (.list items) (.index i :: trail) held
  | field {fields : List (String × Raw)} {name : String} {inside held : Raw} {trail : Path}
      (h : (name, inside) ∈ fields) (hw : WrittenAt inside trail held) :
      WrittenAt (.object fields) (.field name :: trail) held

namespace Raw

variable {raw held : Raw} {trail : Path}

theorem WrittenAt.isAbsent_eq (h : raw.WrittenAt trail held) (ha : held.isAbsent = false) :
    raw.isAbsent = false := by
  cases h with
  | here => exact ha
  | item => rfl
  | field => rfl

theorem WrittenAt.isPresent (h : raw.WrittenAt trail held) (ht : trail ≠ []) :
    Coercion.isPresent raw = true := by
  cases h with
  | here => exact absurd rfl ht
  | item => rfl
  | field => rfl

/-- What is written in a literal is made of nodes of that. -/
theorem WrittenAt.nodes_subset (h : raw.WrittenAt trail held) : held.nodes ⊆ raw.nodes := by
  induction h with
  | here raw => exact List.Subset.refl _
  | item hi _ ih =>
    intro n hn
    rw [nodes, List.mem_cons, mem_itemNodes]
    exact Or.inr ⟨_, List.mem_of_getElem? hi, ih hn⟩
  | field hm _ ih =>
    intro n hn
    rw [nodes, List.mem_cons, mem_fieldNodes]
    exact Or.inr ⟨_, hm, ih hn⟩

/-- Where something is written, that is found with its references replaced. -/
theorem WrittenAt.substitute (h : raw.WrittenAt trail held) (stand : String → Raw) :
    (raw.substitute stand).WrittenAt trail (held.substitute stand) := by
  induction h with
  | here raw => exact .here _
  | item hi _ ih =>
    rw [Raw.substitute, substituteItems_eq_map]
    exact .item (by rw [List.getElem?_map, hi, Option.map_some]) ih
  | field hm _ ih =>
    rw [Raw.substitute, substituteFields_eq_map]
    exact .field (List.mem_map.mpr ⟨_, hm, rfl⟩) ih

/-- So is what is not absent, in a compact literal. -/
theorem WrittenAt.compact (h : raw.WrittenAt trail held) (ha : held.isAbsent = false) :
    raw.compact.WrittenAt trail held.compact := by
  induction h with
  | here raw => exact .here _
  | item hi hw ih =>
    rw [Raw.compact, compactItems_eq_map]
    refine .item ?_ (ih ha)
    rw [List.getElem?_map, hi, Option.map_some, if_neg (by rw [hw.isAbsent_eq ha]; exact nofun)]
  | field hm hw ih =>
    rw [Raw.compact, compactFields_eq_map]
    refine .field (List.mem_map.mpr ⟨_, List.mem_filter.mpr ⟨hm, ?_⟩, rfl⟩) (ih ha)
    rw [hw.isAbsent_eq ha]
    rfl

end Raw

namespace Context

variable {ν : Type} (g : TypeGraph ν) (ctx : Context ν)

/-! ## What a literal is read as -/

/-- A literal, its references replaced and what is absent then left out. -/
def resolve (raw : Raw) : Raw := (raw.substitute ctx.standFor).compact

/-- The failures of a node, if that is a reference. -/
def tellNode (tell : String → List Failure) : Raw → List Failure
  | .variable name => tell name
  | _ => []

/-- The failures told for the references in a literal, in their order. -/
def lacking (path : Path) (raw : Raw) : List Failure :=
  raw.nodes.flatMap (tellNode (ctx.lackOf g path))

section Inline

variable {look : String → Except Fault Inlined} {stand : String → Raw}
  {tell : String → List Failure}

mutual

/-- To replace references one by one is to replace all and then to compact. -/
theorem inlineWith_eq (hlook : ∀ name, look name = .ok (stand name, tell name))
    (hstand : ∀ name, (stand name).compact = stand name) (raw : Raw) :
    inlineWith look raw =
      .ok ((raw.substitute stand).compact, raw.nodes.flatMap (tellNode tell)) := by
  match raw with
  | .list items =>
    rw [inlineWith, inlineItems_eq hlook hstand items, Raw.substitute, Raw.compact, Raw.nodes,
      List.flatMap_cons]
    rfl
  | .object fields =>
    rw [inlineWith, inlineFields_eq hlook hstand fields, Raw.substitute, Raw.compact, Raw.nodes,
      List.flatMap_cons]
    rfl
  | .variable name => simp [inlineWith, hlook, Raw.substitute, hstand, Raw.nodes, tellNode]
  | .int _ | .float _ | .string _ | .boolean _ | .enum _ | .null | .absent | .external _ => rfl

theorem inlineItems_eq (hlook : ∀ name, look name = .ok (stand name, tell name))
    (hstand : ∀ name, (stand name).compact = stand name) (items : List Raw) :
    inlineItems look items =
      .ok (Raw.compactItems (Raw.substituteItems stand items),
        (Raw.itemNodes items).flatMap (tellNode tell)) := by
  match items with
  | [] => rfl
  | item :: rest =>
    rw [inlineItems, inlineWith_eq hlook hstand item, inlineItems_eq hlook hstand rest,
      Raw.substituteItems, Raw.compactItems, Raw.itemNodes, List.flatMap_append,
      ← Raw.isAbsent_compact]
    rfl

theorem inlineFields_eq (hlook : ∀ name, look name = .ok (stand name, tell name))
    (hstand : ∀ name, (stand name).compact = stand name) (fields : List (String × Raw)) :
    inlineFields look fields =
      .ok (Raw.compactFields (Raw.substituteFields stand fields),
        (Raw.fieldNodes fields).flatMap (tellNode tell)) := by
  match fields with
  | [] => rfl
  | (name, held) :: rest =>
    rw [inlineFields, inlineWith_eq hlook hstand held, inlineFields_eq hlook hstand rest,
      Raw.substituteFields, Raw.compactFields, Raw.fieldNodes, List.flatMap_append,
      ← Raw.isAbsent_compact]
    rfl

end

end Inline

variable {ctx} {path : Path} {raw : Raw}

theorem compact_standFor (hc : ctx.HasConstantDefaults) (name : String) :
    (ctx.standFor name).compact = ctx.standFor name := by
  rcases standFor_absent_or_constant hc name with ha | hconst
  · rw [ha]
    rfl
  · exact hconst.compact_eq

theorem resolve_variable (hc : ctx.HasConstantDefaults) (name : String) :
    ctx.resolve (.variable name) = ctx.standFor name :=
  compact_standFor hc name

/-- A literal is read as the resolved one, beside the failures of its references. -/
theorem inline_eq (hc : ctx.HasConstantDefaults) (path : Path) (raw : Raw) :
    ctx.inline g path raw = .ok (ctx.resolve raw, ctx.lacking g path raw) :=
  inlineWith_eq (fun name => inlineVariable_eq g hc path _ name) (compact_standFor hc) raw

/-- Neither references nor absences are left, at any depth. -/
theorem isConstant_resolve (hc : ctx.HasConstantDefaults) (hp : isPresent raw = true) :
    (ctx.resolve raw).IsConstant := by
  have hsettled : (raw.substitute ctx.standFor).IsSettled :=
    Raw.isSettled_substitute fun name _ => isSettled_standFor hc.settled name
  refine Raw.isConstant_compact hsettled ?_
  cases raw <;> first | rfl | cases hp

theorem lacking_eq_nil_iff :
    ctx.lacking g path raw = [] ↔
      ∀ name, .variable name ∈ raw.nodes → ctx.lackOf g path name = [] := by
  rw [lacking, List.flatMap_eq_nil_iff]
  refine ⟨fun h name hn => h _ hn, fun h n hn => ?_⟩
  match n with
  | .variable name => exact h name hn
  | .int _ | .float _ | .string _ | .boolean _ | .enum _ | .null | .absent | .external _
  | .list _ | .object _ => rfl

/-- What is lacking in a literal is told at its position. -/
theorem path_of_mem_lacking {f : Failure} (h : f ∈ ctx.lacking g path raw) : f.path = path := by
  obtain ⟨n, -, hf⟩ := List.mem_flatMap.mp h
  match n with
  | .variable name => exact path_of_mem_lackOf g hf
  | .int _ | .float _ | .string _ | .boolean _ | .enum _ | .null | .absent | .external _
  | .list _ | .object _ => exact absurd hf List.not_mem_nil

/-- What is not left out is found where it was written. -/
theorem writtenAt_resolve {trail : Path} {held : Raw} (h : raw.WrittenAt trail held)
    (ha : (held.substitute ctx.standFor).isAbsent = false) :
    (ctx.resolve raw).WrittenAt trail (ctx.resolve held) :=
  (h.substitute ctx.standFor).compact ha

end Context

namespace Coercion

variable {ν : Type} {g : TypeGraph ν} {ctx : Context ν}

/-- A literal is judged by what its scalar says of the resolved one, unless something is lacking. -/
theorem coerce_resolve (hc : ctx.HasConstantDefaults) {id : TypeId ν} {s : Scalar}
    (hs : g.describe id = .scalar s) {raw : Raw} (hp : isPresent raw = true) (path : Path) :
    coerce g ctx (.named id) raw path =
      if (ctx.lacking g path raw).isEmpty then judge s (ctx.resolve raw) path
      else .ok (.fail (ctx.lacking g path raw)) := by
  rw [coerce_scalar hp hs, coerceScalar, Context.inline_eq g hc]
  rfl

end Coercion

end TypedQuery
