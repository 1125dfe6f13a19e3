import TypedQuery.Coercion.Basic

/-!
# Arguments

The arguments of a field are coerced independently of each other and assembled for its resolver.

* `coerceArguments`: the present arguments, or all failures;
* `isWaived`: the missing arguments that are left for the resolver to miss.
-/

namespace TypedQuery.Coercion

variable {ν : Type}

/-- The raw value supplied for an argument. -/
def suppliedRaw (supplied : Members Raw) (name : String) : Raw := (supplied.get? name).getD .absent

/-- Unless required arguments are enforced, one without a default that is not supplied is left out
instead of failing. -/
def isWaived (enforce : Bool) (position : Position ν) (raw : Raw) : Bool :=
  !enforce && raw.isAbsent && position.fallback?.isNone && position.type.isRequired

/-- The declared arguments that are coerced, with the raw values supplied for them. -/
def argumentsToCoerce (declared : Declared (Position ν)) (supplied : Members Raw)
    (enforce : Bool) : List (String × Position ν × Raw) :=
  let all := declared.entries.map fun (name, position) =>
    (name, position, suppliedRaw supplied name)
  all.filter fun (_, position, raw) => !isWaived enforce position raw

/-- The arguments for a resolver: an object to which those that are present after coercion have
been assigned. -/
def coerceArguments (g : TypeGraph ν) (ctx : Context ν) (declared : Declared (Position ν))
    (supplied : Members Raw) (enforce : Bool) : Except Fault (Outcome Value) := do
  let outcomes ← (argumentsToCoerce declared supplied enforce).mapM fun (name, position, raw) => do
    let outcome ← coercePosition g ctx position raw [.field name]
    return (name, outcome)
  return (gatherMembers outcomes).map Value.ofAssignments

end TypedQuery.Coercion
