import TypedQuery.Proofs.Coercion.Agreement
import TypedQuery.Proofs.Coercion.Arguments
import TypedQuery.Proofs.Coercion.Conformance

/-!
# Variables that matter

The outcome of a coercion depends on the variables that its raw value refers to, and on no others.

* `coerce_agree`, `coercePosition_agree`, `coerceArguments_agree`: contexts that say the same of
  these variables coerce alike, a raw value, a position and all arguments;
* `Context.supply`: a context in which one more value is supplied, or none any more;
* `coercion_reads_references`: what is supplied for other variables does not matter.
-/

namespace TypedQuery

variable {ν : Type} {g : TypeGraph ν} {ctx ctx' : Context ν}

/-- A context in which a value is supplied for a variable, or none if it is undefined. -/
def Context.supply (ctx : Context ν) (name : String) (v : Value) : Context ν :=
  { ctx with supplied := Members.put ctx.supplied name v }

theorem Context.agrees_supply {name name' : String} (h : name ≠ name') (ctx : Context ν)
    (v : Value) : ctx.Agrees (ctx.supply name v) name' := by
  refine ⟨?_, rfl⟩
  rw [supplied?, supplied?, supply, Members.get?_put, if_neg h]

namespace Coercion

/-! ## One position -/

theorem coerce_agree (hs : ctx.HasSettledDefaults) {raw : Raw}
    (h : ∀ name, .variable name ∈ raw.nodes → ctx.Agrees ctx' name) (type : TypeRef (TypeId ν))
    (path : Path) : coerce g ctx type raw path = coerce g ctx' type raw path :=
  coerceAt_agree hs (fun name hn => ⟨h name hn, Nat.succ_ne_zero _, Nat.succ_ne_zero _⟩) path

/-- The default of a position stands in alike, and holds no references. -/
theorem coercePosition_agree (hs : ctx.HasSettledDefaults) {raw : Raw}
    (h : ∀ name, .variable name ∈ raw.nodes → ctx.Agrees ctx' name) (position : Position ν)
    (path : Path) :
    coercePosition g ctx position raw path = coercePosition g ctx' position raw path := by
  have hfallback : fallbackFor? ctx' position raw = fallbackFor? ctx position raw := by
    rw [fallbackFor?, fallbackFor?, Context.leavesDefault_agree h]
  rw [coercePosition, coercePosition, hfallback]
  refine coerce_agree hs (fun name hn => ?_) position.type path
  rcases fallbackFor?_cases ctx position raw with ⟨hnone, _⟩ | ⟨v, _, _, hsome⟩
  · rw [hnone] at hn
    exact h name hn
  · rw [hsome] at hn
    exact absurd hn ((Raw.isConstant_external v).isSettled.variable_notMem name)

/-! ## All arguments -/

/-- What is supplied for an argument is one of the supplied raw values, or nothing. -/
theorem variable_mem_of_suppliedRaw {supplied : Members Raw} {key name : String}
    (h : .variable name ∈ (suppliedRaw supplied key).nodes) :
    ∃ a ∈ supplied, .variable name ∈ a.2.nodes := by
  unfold suppliedRaw at h
  cases hget : supplied.get? key with
  | some raw =>
    rw [hget] at h
    exact ⟨(key, raw), Members.mem_of_get? hget, h⟩
  | none =>
    rw [hget] at h
    exact absurd h ((Raw.isSettled_ofSlot none).variable_notMem name)

theorem coerceArguments_agree (hs : ctx.HasSettledDefaults) {supplied : Members Raw}
    (h : ∀ a ∈ supplied, ∀ name, .variable name ∈ a.2.nodes → ctx.Agrees ctx' name)
    (declared : Declared (Position ν)) (enforce : Bool) :
    coerceArguments g ctx declared supplied enforce =
      coerceArguments g ctx' declared supplied enforce := by
  rw [coerceArguments_eq, coerceArguments_eq]
  refine congrArg _ (mapM_congr fun a ha => congrArg _ ?_)
  obtain ⟨_, hraw, _⟩ := mem_argumentsToCoerce.mp ha
  refine coercePosition_agree hs (fun name hn => ?_) a.2.1 _
  rw [hraw] at hn
  obtain ⟨b, hb, hn⟩ := variable_mem_of_suppliedRaw hn
  exact h b hb name hn

/-! ## Other variables -/

/-- **Only the variables that are referred to matter.** If no default of a variable refers to
another one, two contexts that say the same of all variables in a raw value coerce it alike, and
two that say the same of all variables in the supplied arguments coerce these alike, failures and
all. So a value supplied for another variable, of whatever kind, changes nothing. -/
theorem coercion_reads_references (hs : ctx.HasSettledDefaults) :
    (∀ ctx' type raw path, (∀ name, .variable name ∈ raw.nodes → ctx.Agrees ctx' name) →
      coerce g ctx type raw path = coerce g ctx' type raw path) ∧
    (∀ ctx' declared supplied enforce,
      (∀ a ∈ supplied, ∀ name, .variable name ∈ a.2.nodes → ctx.Agrees ctx' name) →
      coerceArguments g ctx declared supplied enforce =
        coerceArguments g ctx' declared supplied enforce) ∧
    ∀ declared supplied enforce name v, (∀ a ∈ supplied, .variable name ∉ a.2.nodes) →
      coerceArguments g (ctx.supply name v) declared supplied enforce =
        coerceArguments g ctx declared supplied enforce := by
  refine ⟨fun ctx' type raw path h => coerce_agree hs h type path,
    fun ctx' declared supplied enforce h => coerceArguments_agree hs h declared enforce,
    fun declared supplied enforce name v h => ?_⟩
  refine (coerceArguments_agree hs (fun a ha name' hn => ?_) declared enforce).symm
  refine Context.agrees_supply (fun he => ?_) ctx v
  exact h a ha (he ▸ hn)

/-- A box is made from the label alone, though a number is supplied for its unit. -/
theorem coercion_reads_references_unit :
    coerceArguments boxes (labelled.supply "unit" (.bigint 3))
        (.ofList [("box", ⟨.named (.declared .box), none⟩)])
        [("box", .object [("label", .variable "label")])] true =
      .ok (.done (.record [("box",
        .record [("label", .string "small"), ("unit", .string "CM")])])) := by
  have hdefaults := labelled_hasConstantDefaults.settled
  refine ((coercion_reads_references (g := boxes) hdefaults).2.2 _ _ true _ _ ?_).trans ?_
  · intro a ha hn
    obtain rfl := List.mem_singleton.mp ha
    simp [Raw.nodes, Raw.fieldNodes] at hn
  · refine coerceArguments_eq_done_iff.mpr ⟨[("box",
      some (.record [("label", .string "small"), ("unit", .string "CM")]))], ?_, rfl⟩
    exact .cons ⟨rfl, coerce_box _⟩ .nil

end Coercion

end TypedQuery
