/-!
# Type references

A type reference is a named type, wrapped in lists and in demands for a value. References are
written in query syntax, `[Int!]!` for instance, over the names of types, and used over whatever
identifies a type.

* `TypeRef`: the references over some identification of types;
* `render`: the reference in query syntax;
* `base`: the named type inside.
-/

namespace TypedQuery

inductive TypeRef (α : Type u)
  | named (base : α)
  | list (item : TypeRef α)
  | required (inner : TypeRef α)
  deriving DecidableEq

namespace TypeRef

def isRequired : TypeRef α → Bool
  | .required _ => true
  | _ => false

def base : TypeRef α → α
  | .named base => base
  | .list item => item.base
  | .required inner => inner.base

/-- The number of levels of a reference. -/
def depth : TypeRef α → Nat
  | .named _ => 1
  | .list item => item.depth + 1
  | .required inner => inner.depth + 1

def map (f : α → β) : TypeRef α → TypeRef β
  | .named base => .named (f base)
  | .list item => .list (item.map f)
  | .required inner => .required (inner.map f)

/-- Replaces the named type, if there is one to replace it by. -/
def mapOption (f : α → Option β) : TypeRef α → Option (TypeRef β)
  | .named base => (f base).map .named
  | .list item => (item.mapOption f).map .list
  | .required inner => (inner.mapOption f).map .required

def render : TypeRef String → String
  | .named name => name
  | .list item => "[" ++ item.render ++ "]"
  | .required inner => inner.render ++ "!"

theorem base_map (f : α → β) (type : TypeRef α) : (type.map f).base = f type.base := by
  induction type with
  | named => rfl
  | list item ih => exact ih
  | required inner ih => exact ih

end TypeRef

end TypedQuery
