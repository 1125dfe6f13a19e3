import TypedQuery.Proofs.Coercion.Parts

/-!
# Walks through a type

A path walks through a type: an index leads into a list, the name of a declared field into an input
object, and demands for a value are passed on the way.

* `TypeGraph.typeAt?`: the type where a path ends;
* `Meets`: what a coercion meets along a path, at every depth and through every reference;
  `Meets.typeAt?_eq`: these paths walk through the type;
* `TypeGraph.Precedes`: paths in the order of items and of declared fields;
  `pairwise_before_parts`: the parts of a position come in this order.
-/

namespace TypedQuery

variable {ν : Type}

namespace TypeGraph

/-- The named type that a type is, apart from demands for a value. -/
def named? (g : TypeGraph ν) (type : TypeRef (TypeId ν)) : Option (NamedType ν) :=
  match type.core with
  | .named id => some (g.describe id)
  | _ => none

/-- The type one step inside a type. -/
def inside? (g : TypeGraph ν) (type : TypeRef (TypeId ν)) : Segment → Option (TypeRef (TypeId ν))
  | .index _ =>
    match type.core with
    | .list item => some item
    | _ => none
  | .field name =>
    match g.named? type with
    | some (.input o) => (o.fields.get? name).map (·.type)
    | _ => none

/-- The type where a path ends that starts at a type. -/
def typeAt? (g : TypeGraph ν) (type : TypeRef (TypeId ν)) : Path → Option (TypeRef (TypeId ν))
  | [] => some type
  | step :: path => (g.inside? type step).bind fun inner => g.typeAt? inner path

/-- Of two steps from a type one comes first: items by their indices, fields as they are
declared. -/
inductive Before (g : TypeGraph ν) (type : TypeRef (TypeId ν)) : Segment → Segment → Prop
  | items {item : TypeRef (TypeId ν)} {i j : Nat} (hcore : type.core = .list item) (hij : i < j) :
      Before g type (.index i) (.index j)
  | fields {o : InputObject ν} {name name' : String} (ho : g.named? type = some (.input o))
      (hnames : [name, name'].Sublist o.fields.names) :
      Before g type (.field name) (.field name')

/-- Of two paths through a type one comes first: where they part, it takes the earlier step. -/
inductive Precedes (g : TypeGraph ν) : TypeRef (TypeId ν) → Path → Path → Prop
  | part {type : TypeRef (TypeId ν)} {step step' : Segment} (h : g.Before type step step')
      (path path' : Path) : Precedes g type (step :: path) (step' :: path')
  | inside {type inner : TypeRef (TypeId ν)} {step : Segment} {path path' : Path}
      (hstep : g.inside? type step = some inner) (h : Precedes g inner path path') :
      Precedes g type (step :: path) (step :: path')

variable {g : TypeGraph ν} {type : TypeRef (TypeId ν)}

theorem named?_of_describe {id : TypeId ν} {described : NamedType ν}
    (h : g.describe id = described) : g.named? (.named id) = some described :=
  congrArg some h

theorem Before.ne {step step' : Segment} (h : g.Before type step step') : step ≠ step' := by
  cases h with
  | items hcore hij =>
    intro he
    have := Segment.index.inj he
    omega
  | @fields o name name' ho hnames =>
    have hdistinct : [name, name'].Nodup := hnames.nodup o.fields.distinct
    intro he
    simp [Segment.field.inj he] at hdistinct

/-- No path comes before itself. -/
theorem Precedes.ne {path path' : Path} (h : g.Precedes type path path') : path ≠ path' := by
  induction h with
  | part h path path' => exact fun he => h.ne (List.cons.inj he).1
  | inside hstep h ih => exact fun he => ih (List.cons.inj he).2

theorem Before.required {step step' : Segment} (h : g.Before type step step') :
    g.Before (.required type) step step' := by
  cases h with
  | items hcore hij => exact .items hcore hij
  | fields ho hnames => exact .fields ho hnames

/-- Demands for a value do not change the order of paths. -/
theorem Precedes.required {path path' : Path} (h : g.Precedes type path path') :
    g.Precedes (.required type) path path' := by
  cases h with
  | part h path path' => exact .part h.required path path'
  | inside hstep h => exact .inside hstep h

end TypeGraph

namespace Coercion

variable {g : TypeGraph ν} {ctx : Context ν} {type : TypeRef (TypeId ν)} {raw : Raw}

/-! ## The steps to parts -/

/-- The parts of a position are a step inside its type. -/
theorem inside?_of_mem_parts {part : Part ν} (h : part ∈ parts g ctx type raw) :
    g.inside? type part.step = some part.type := by
  unfold parts partsOf at h
  split at h
  · next item hcore =>
    obtain ⟨p, _, rfl⟩ := List.mem_map.mp h
    simp [TypeGraph.inside?, itemPart, hcore]
  · next id hcore =>
    split at h
    · next o ho =>
      split at h
      · obtain ⟨f, hf, rfl⟩ := List.mem_map.mp h
        have hget : o.fields.get? f.1 = some f.2 :=
          (Members.get?_eq_some_iff o.fields.distinct).mpr hf
        simp [TypeGraph.inside?, TypeGraph.named?, fieldPart, hcore, ho, hget]
      · cases h
    · cases h
  · cases h

/-- The parts of a position come in the order of their steps. -/
theorem pairwise_before_parts (g : TypeGraph ν) (ctx : Context ν) (type : TypeRef (TypeId ν))
    (raw : Raw) :
    (parts g ctx type raw).Pairwise fun part part' => g.Before type part.step part'.step := by
  unfold parts partsOf
  split
  · next item hcore =>
    rw [List.pairwise_map]
    have hindices : ((((ctx.stand raw).items?.getD []).zipIdx).map Prod.snd).Pairwise (· < ·) := by
      rw [List.zipIdx_map_snd]
      exact List.pairwise_lt_range'
    exact (List.pairwise_map.mp hindices).imp fun hij => .items hcore hij
  · next id hcore =>
    split
    · next o ho =>
      split
      · rw [List.pairwise_map, List.pairwise_iff_forall_sublist]
        intro f f' hsub
        have hnamed : g.named? type = some (.input o) := by simp [TypeGraph.named?, hcore, ho]
        exact .fields hnamed (hsub.map Prod.fst)
      · exact List.Pairwise.nil
    · exact List.Pairwise.nil
  · exact List.Pairwise.nil

/-! ## What is met -/

/-- What a coercion meets along a path: a reference and what it stands for at one place, and the
parts of a position one step further. -/
inductive Meets (g : TypeGraph ν) (ctx : Context ν) :
    TypeRef (TypeId ν) → Raw → Path → TypeRef (TypeId ν) → Raw → Prop
  | here (type : TypeRef (TypeId ν)) (raw : Raw) : Meets g ctx type raw [] type raw
  | stand {type type' : TypeRef (TypeId ν)} {name : String} {path : Path} {raw' : Raw}
      (h : Meets g ctx type (ctx.standFor name) path type' raw') :
      Meets g ctx type (.variable name) path type' raw'
  | step {type type' : TypeRef (TypeId ν)} {raw raw' : Raw} {part : Part ν} {path : Path}
      (hpart : part ∈ parts g ctx type raw) (h : Meets g ctx part.type part.raw path type' raw') :
      Meets g ctx type raw (part.step :: path) type' raw'

theorem Meets.typeAt?_eq {path : Path} {type' : TypeRef (TypeId ν)} {raw' : Raw}
    (h : Meets g ctx type raw path type' raw') : g.typeAt? type path = some type' := by
  induction h with
  | here type raw => rfl
  | stand h ih => exact ih
  | step hpart h ih => rw [TypeGraph.typeAt?, inside?_of_mem_parts hpart, Option.bind_some, ih]

end Coercion

end TypedQuery
