import TypedQuery.Types.Reference
import TypedQuery.Types.Scalar

/-!
# Type graphs

Named types refer to each other through the fields of input objects, possibly in cycles. A type
graph holds the types declared under some identification `ν`; the built-in scalars are in every
graph.

* `TypeId`, `NamedType`, `TypeGraph`: identified types, their descriptions, and the graph of them;
* `Position`: a place that takes a value, with its type and default;
* `TypeGraph.print`: a type reference in query syntax.
-/

namespace TypedQuery

/-- What identifies a named type: two types of one name may be declared apart. -/
inductive TypeId (ν : Type)
  | builtin (b : Builtin)
  | declared (n : ν)
  deriving DecidableEq

/-- A place that takes a value: an argument, or a field of an input object. -/
structure Position (ν : Type) where
  type : TypeRef (TypeId ν)
  /-- The default as declared; undefined is no default. -/
  default : Option Value

namespace Position

/-- The value that stands in when nothing is supplied. -/
def fallback? (p : Position ν) : Option Value :=
  match p.default with
  | some .undefined => none
  | default => default

end Position

/-! ## Named types -/

/-- The symbols of an enum, each with its internal value. -/
structure EnumType where
  name : String
  values : List (String × Value)

namespace EnumType

/-- An enum whose internal values are its symbols. -/
def ofNames (name : String) (symbols : List String) : EnumType :=
  ⟨name, symbols.map fun s => (s, .string s)⟩

/-- The internal value of a symbol. -/
def valueOf? (e : EnumType) (symbol : String) : Option Value :=
  (e.values.find? (fun v => v.1 = symbol)).map Prod.snd

/-- The first symbol of an internal value. -/
def symbolOf? (e : EnumType) (value : Value) : Option String :=
  (e.values.find? (fun v => v.2.sameAs value)).map Prod.fst

end EnumType

/-- An input object; none of its fields has the reserved name. -/
structure InputObject (ν : Type) where
  name : String
  fields : Declared (Position ν)
  unreserved : Members.reservedKey ∉ fields.names

def InputObject.ofList (name : String) (fields : List (String × Position ν)) : InputObject ν :=
  ⟨name, Declared.unreservedOfList fields, Declared.reserved_notMem_unreservedOfList fields⟩

inductive NamedType (ν : Type)
  | scalar (s : Scalar)
  | enum (e : EnumType)
  | input (o : InputObject ν)

namespace NamedType

def name : NamedType ν → String
  | .scalar s => s.name
  | .enum e => e.name
  | .input o => o.name

/-- The positions inside a named type. -/
def positions : NamedType ν → List (Position ν)
  | .input o => o.fields.entries.map Prod.snd
  | _ => []

end NamedType

/-! ## Graphs -/

/-- Finitely many declared types. -/
structure TypeGraph (ν : Type) where
  declared : ν → NamedType ν
  all : List ν
  mem_all : ∀ n, n ∈ all

namespace TypeGraph

variable {ν : Type}

def describe (g : TypeGraph ν) : TypeId ν → NamedType ν
  | .builtin b => .scalar b.scalar
  | .declared n => g.declared n

def nameOf (g : TypeGraph ν) (id : TypeId ν) : String := (g.describe id).name

/-- A type reference in query syntax. -/
def print (g : TypeGraph ν) (type : TypeRef (TypeId ν)) : String := (type.map g.nameOf).render

/-- All types of the graph, the built-in scalars first. -/
def ids (g : TypeGraph ν) : List (TypeId ν) :=
  Builtin.all.map .builtin ++ g.all.map .declared

theorem mem_ids (g : TypeGraph ν) (id : TypeId ν) : id ∈ g.ids := by
  cases id with
  | builtin b => exact List.mem_append_left _ (List.mem_map_of_mem (Builtin.mem_all b))
  | declared n => exact List.mem_append_right _ (List.mem_map_of_mem (g.mem_all n))

/-- The positions inside all types of the graph. -/
def positions (g : TypeGraph ν) : List (Position ν) :=
  g.all.flatMap fun n => (g.declared n).positions

end TypeGraph

end TypedQuery
