import TypedQuery.Outcome.Basic
import TypedQuery.Types.Graph

/-!
# Schemas

A schema holds the fields of a query type and an index, by name, of the types that they reach.

* `QueryField`, `Resolver`: a field, with what resolves it;
* `collect`: the index of the types reached from some types, in the order in which they are met;
* `Schema.define`: a schema, unless two types share a name or a field returns an input object;
* `Schema.resolve?`: the type that a written type reference means.
-/

namespace TypedQuery

variable {ν : Type}

/-! ## Fields -/

/-- What a resolver is told besides the arguments. -/
structure ResolveInfo where
  fieldName : String
  responseKey : String
  supplied : Members Value

/-- How a resolver ends. -/
inductive Resolution
  | returned (outcome : Outcome Value)
  | thrown (t : Thrown)

/-- The reply of a resolver, given at once or promised. -/
structure Reply where
  promised : Bool
  resolution : Resolution

/-- A resolver is given an object of the arguments. -/
abbrev Resolver := Value → ResolveInfo → Reply

/-- A field of the query type. -/
structure QueryField (ν : Type) where
  type : TypeRef (TypeId ν)
  args : Declared (Position ν)
  resolve : Resolver

/-! ## The index of types -/

/-- Types by name, in the order in which they were met. -/
abbrev TypeIndex (ν : Type) := Members (TypeId ν)

inductive SchemaError
  | sharedName (name : String)
  | inputReturned (field type : String)
  deriving DecidableEq

def SchemaError.message : SchemaError → String
  | .sharedName name => "Schema defines two different types named \"" ++ name ++ "\""
  | .inputReturned field type =>
    "Field \"" ++ field ++ "\" cannot return input object type \"" ++ type ++ "\""

/-- Why there is no schema, and what was indexed before. -/
structure SchemaFault (ν : Type) where
  error : SchemaError
  indexed : TypeIndex ν

/-- The types of a graph whose names are not indexed yet. -/
def unindexed (g : TypeGraph ν) (index : TypeIndex ν) : List (TypeId ν) :=
  g.ids.filter fun id => g.nameOf id ∉ index.keys

theorem keys_append (index : TypeIndex ν) (name : String) (id : TypeId ν) :
    Members.keys (index ++ [(name, id)]) = index.keys ++ [name] := by
  simp [Members.keys]

theorem get?_eq_none_iff (index : Members α) (name : String) :
    index.get? name = none ↔ name ∉ index.keys := by
  induction index with
  | nil => simp [Members.get?, Members.keys]
  | cons m rest ih =>
    unfold Members.get?
    split
    · next h => simp [Members.keys, h]
    · next h =>
      rw [ih]
      simp only [Members.keys, List.map_cons, List.mem_cons, not_or]
      exact ⟨fun hr => ⟨fun he => h he.symm, hr⟩, fun hr => hr.2⟩

theorem length_unindexed_lt (g : TypeGraph ν) {index : TypeIndex ν} {id : TypeId ν}
    (h : index.get? (g.nameOf id) = none) :
    (unindexed g (index ++ [(g.nameOf id, id)])).length < (unindexed g index).length := by
  have hnew := (get?_eq_none_iff index (g.nameOf id)).1 h
  unfold unindexed
  rw [keys_append]
  have hsub : (g.ids.filter fun i => g.nameOf i ∉ index.keys ++ [g.nameOf id]) =
      ((g.ids.filter fun i => g.nameOf i ∉ index.keys).filter fun i =>
        g.nameOf i ≠ g.nameOf id) := by
    rw [List.filter_filter]
    refine List.filter_congr fun i _ => ?_
    simp only [List.mem_append, List.mem_singleton, not_or, Bool.decide_and, ne_eq]
    rw [Bool.and_comm]
  rw [hsub]
  refine List.length_filter_lt_length_iff_exists.2 ⟨id, ?_, by simp⟩
  exact List.mem_filter.2 ⟨g.mem_ids id, by simpa using hnew⟩

/-- Indexes the pending types and all types that they reach. -/
def collect [DecidableEq ν] (g : TypeGraph ν) (index : TypeIndex ν) (pending : List (TypeId ν)) :
    Except (SchemaFault ν) (TypeIndex ν) :=
  match pending with
  | [] => .ok index
  | id :: rest =>
    match _h : index.get? (g.nameOf id) with
    | some known =>
      if known = id then collect g index rest
      else .error ⟨.sharedName (g.nameOf id), index⟩
    | none =>
      collect g (index ++ [(g.nameOf id, id)])
        ((g.describe id).positions.map (fun p => p.type.base) ++ rest)
termination_by ((unindexed g index).length, pending.length)
decreasing_by
  · exact Prod.Lex.right _ (by simp)
  · exact Prod.Lex.left _ _ (length_unindexed_lt g _h)

/-! ## Schemas -/

structure Schema (ν : Type) where
  graph : TypeGraph ν
  query : Declared (QueryField ν)
  index : TypeIndex ν

namespace Schema

/-- Indexes the types of a field, which must not return an input object. -/
def collectField [DecidableEq ν] (g : TypeGraph ν) (index : TypeIndex ν) (name : String)
    (field : QueryField ν) : Except (SchemaFault ν) (TypeIndex ν) :=
  match g.describe field.type.base with
  | .input o => .error ⟨.inputReturned name o.name, index⟩
  | _ =>
    collect g index (field.type.base :: field.args.entries.map fun a => a.2.type.base)

/-- The schema of some fields; `extra` types are indexed even if no field reaches them. -/
def define [DecidableEq ν] (g : TypeGraph ν) (query : Declared (QueryField ν))
    (extra : List (TypeId ν)) : Except (SchemaFault ν) (Schema ν) := do
  let base ← collect g [] (Builtin.all.map .builtin ++ extra)
  let index ← query.entries.foldlM (fun index f => collectField g index f.1 f.2) base
  return ⟨g, query, index⟩

/-- The type that a written type reference means, if its name is indexed. -/
def resolve? (s : Schema ν) (type : TypeRef String) : Option (TypeRef (TypeId ν)) :=
  type.mapOption s.index.get?

end Schema

/-- The indexed input objects, all of which are asked for their fields when they are indexed. -/
def TypeIndex.inputObjects (g : TypeGraph ν) (index : TypeIndex ν) : List (TypeId ν) :=
  (index.map Prod.snd).filter fun id =>
    match g.describe id with
    | .input _ => true
    | _ => false

end TypedQuery
