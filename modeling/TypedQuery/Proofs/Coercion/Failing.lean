import TypedQuery.Proofs.Coercion.Pointing

/-!
# What a failing coercion tells

The failures of a coercion come from a few places, which lie at the position that is coerced or
further inside.

* `Refuses`: what is told of a present value at its own position;
* `IsTold`: all that a coercion tells, of whatever stands at a position;
* `refuses_or_inside`: what is not told of a present value itself is told of something inside it;
* `isTold_of_mem_failures`, `isTold_of_mem_arguments`: no other failures are told.
-/

namespace TypedQuery

namespace Coercion

variable {ν : Type} {g : TypeGraph ν} {ctx : Context ν}

/-- What is told of a present value at its own position. The first two are told of references inside
the literal of a scalar, whose variables are declared with required types. -/
inductive Refuses (g : TypeGraph ν) (ctx : Context ν) (path : Path) : Failure → Prop
  | missingVariable {name : String} {d : VariableDefinition ν}
      (hd : ctx.definition? name = some d) (hr : d.type.isRequired = true) :
      Refuses g ctx path (.missingVariable path name (g.print d.type))
  | nullVariable {name : String} {d : VariableDefinition ν}
      (hd : ctx.definition? name = some d) (hr : d.type.isRequired = true) :
      Refuses g ctx path (.valueRequired path (g.print d.type) "null")
  | scalar (s : Scalar) (written detail : String) :
      Refuses g ctx path (.scalarRejected path s.name written detail)
  | enum (e : EnumType) (written : String) : Refuses g ctx path (.unknownSymbol path e.name written)
  | list (item : TypeRef (TypeId ν)) (written : String) :
      Refuses g ctx path (.shapeMismatch path "a list" (g.print (.list item)) written)
  | input (o : InputObject ν) (written : String) :
      Refuses g ctx path (.shapeMismatch path "an input object" o.name written)

/-- All that a coercion tells. -/
inductive IsTold (g : TypeGraph ν) (ctx : Context ν) : Failure → Prop
  | refused {path : Path} {f : Failure} (h : Refuses g ctx path f) : IsTold g ctx f
  | missingVariable (path : Path) (name : String) (type : TypeRef (TypeId ν)) :
      IsTold g ctx (.missingVariable path name (g.print type))
  | nothing (path : Path) (type : TypeRef (TypeId ν)) :
      IsTold g ctx (.valueRequired path (g.print type) "nothing")
  | null (path : Path) (type : TypeRef (TypeId ν)) :
      IsTold g ctx (.valueRequired path (g.print type) "null")

variable {type : TypeRef (TypeId ν)} {raw : Raw} {path : Path} {f : Failure}

/-! ## What points at a place is told -/

theorem Unmet.refuses {name : String} (h : Unmet g ctx path name f) : Refuses g ctx path f := by
  cases h with
  | missing hd hr hs hdefault => exact .missingVariable hd hr
  | null hd hr hs => exact .nullVariable hd hr

/-- At a present value nothing points that does not refuse it. -/
theorem PointsAt.refuses (hp : isPresent raw = true) (h : PointsAt g ctx path type raw f) :
    Refuses g ctx path f := by
  cases h with
  | scalar hs written detail => exact .scalar _ written detail
  | enum he written => exact .enum _ written
  | list hcore written => exact .list _ written
  | input ho written => exact .input _ written
  | nothing ht hr | unsupplied ht hr =>
    rw [hr] at hp
    cases hp
  | null ht hr =>
    rw [hp] at hr
    cases hr
  | reference hr h => exact h.refuses
  | literal hs hr h =>
    obtain ⟨_, _, h⟩ := h
    exact h.refuses

theorem PointsAt.isTold (h : PointsAt g ctx path type raw f) : IsTold g ctx f := by
  cases h with
  | scalar hs written detail => exact .refused (.scalar _ written detail)
  | enum he written => exact .refused (.enum _ written)
  | list hcore written => exact .refused (.list _ written)
  | input ho written => exact .refused (.input _ written)
  | nothing ht hr => exact .nothing path type
  | null ht hr => exact .null path type
  | unsupplied ht hr => exact .missingVariable path _ type
  | reference hr h => exact .refused h.refuses
  | literal hs hr h =>
    obtain ⟨_, _, h⟩ := h
    exact .refused h.refuses

/-! ## Every position -/

variable {hops defaults : Nat} {o : Outcome (Option Value)}

/-- What is not told of a present value itself is told of something inside it. -/
theorem refuses_or_inside (hp : isPresent raw = true)
    (h : coerceAt g ctx hops defaults type raw path = .ok o) (hf : f ∈ o.failures) :
    Refuses g ctx path f ∨ ∃ step, (path ++ [step]) <+: f.path := by
  obtain ⟨inner, type', raw', hmeets, hpoints⟩ := (located_failures h).points f hf
  cases hmeets with
  | here => exact Or.inl (List.append_nil path ▸ hpoints.refuses hp)
  | stand => cases hp
  | @step _ _ _ _ part inner hpart hmeets =>
    refine Or.inr ⟨part.step, inner, ?_⟩
    rw [hpoints.path_eq, List.append_assoc, List.singleton_append]

/-- A coercion tells nothing else. -/
theorem isTold_of_mem_failures (h : coerceAt g ctx hops defaults type raw path = .ok o)
    (hf : f ∈ o.failures) : IsTold g ctx f := by
  obtain ⟨_, _, _, _, hpoints⟩ := (located_failures h).points f hf
  exact hpoints.isTold

theorem isTold_of_mem_arguments {declared : Declared (Position ν)} {supplied : Members Raw}
    {enforce : Bool} {o : Outcome Value}
    (h : coerceArguments g ctx declared supplied enforce = .ok o) {f : Failure}
    (hf : f ∈ o.failures) : IsTold g ctx f := by
  rw [coerceArguments_eq] at h
  obtain ⟨os, hos, rfl⟩ := map_eq_ok_iff.mp h
  rw [Outcome.failures_map, failures_gatherMembers] at hf
  obtain ⟨o', ho', hf⟩ := List.mem_flatMap.mp hf
  obtain ⟨a, _, -, ha⟩ := exists_left_of_forall₂ (mapM_named_eq_ok_iff.mp hos) ho'
  exact isTold_of_mem_failures ha hf

end Coercion

end TypedQuery
