import TypedQuery.Proofs.Coercion.Induction

/-!
# Contexts that agree

A coercion depends on its context only through the variables that its raw value refers to.

* `Context.Agrees`: two contexts say the same of a variable;
* `coerceAt_agree`: if they do so for all variables in a raw value, it is coerced alike in both;
* `coerceAt_settled`: without references the context does not matter;
* `coerceAt_hops`: neither does the budget of references, as long as there is one.
-/

namespace TypedQuery

namespace Context

variable {ν : Type} {ctx ctx' : Context ν} {name : String}

/-- Two contexts say the same of a variable. -/
def Agrees (ctx ctx' : Context ν) (name : String) : Prop :=
  ctx.supplied? name = ctx'.supplied? name ∧ ctx.definition? name = ctx'.definition? name

theorem Agrees.refl (ctx : Context ν) (name : String) : ctx.Agrees ctx name := ⟨rfl, rfl⟩

theorem Agrees.default? (h : ctx.Agrees ctx' name) : ctx.default? name = ctx'.default? name := by
  rw [Context.default?, Context.default?, h.2]

theorem Agrees.reading (h : ctx.Agrees ctx' name) (g : TypeGraph ν) (type : TypeRef (TypeId ν))
    (path : Path) : ctx.reading g name type path = ctx'.reading g name type path := by
  rw [Context.reading, Context.reading, h.1, h.2, h.default?]

theorem Agrees.inlineVariable (hs : ctx.HasSettledDefaults) (h : ctx.Agrees ctx' name)
    (g : TypeGraph ν) (path : Path) (hops hops' : Nat) :
    inlineVariable g ctx path (hops + 1) name = inlineVariable g ctx' path (hops' + 1) name := by
  rw [Context.inlineVariable, Context.inlineVariable, h.1, h.2, ← h.default?]
  cases ctx'.supplied? name with
  | some value => rfl
  | none =>
    cases hd : ctx.default? name with
    | some literal => exact inlineWith_settled (hs name literal hd)
    | none => rfl

/-- Defaults stand in alike. -/
theorem leavesDefault_agree {raw : Raw}
    (h : ∀ name, .variable name ∈ raw.nodes → ctx.Agrees ctx' name) :
    ctx.leavesDefault raw = ctx'.leavesDefault raw := by
  match raw with
  | .variable name =>
    obtain ⟨hs, hd⟩ := h name (Raw.mem_nodes_self _)
    rw [leavesDefault, leavesDefault, standsEmpty, standsEmpty, hs, hd]
  | .int _ | .float _ | .string _ | .boolean _ | .enum _ | .null | .absent | .external _
  | .list _ | .object _ => rfl

/-- Literals are read alike. -/
theorem inline_agree (g : TypeGraph ν) (hs : ctx.HasSettledDefaults) {raw : Raw}
    (h : ∀ name, .variable name ∈ raw.nodes → ctx.Agrees ctx' name) (path : Path) :
    ctx.inline g path raw = ctx'.inline g path raw :=
  inlineWith_congr fun name hn => (h name hn).inlineVariable hs g path _ _

end Context

namespace Coercion

variable {ν : Type} {g : TypeGraph ν} {ctx ctx' : Context ν} {hops hops' defaults : Nat}

/-- In contexts that agree on the variables of a raw value it is coerced alike, whatever the
budgets of references are, as long as each has one for the references that there are. -/
theorem coerceAt_agree (hs : ctx.HasSettledDefaults) {type : TypeRef (TypeId ν)} {raw : Raw}
    (h : ∀ name, .variable name ∈ raw.nodes → ctx.Agrees ctx' name ∧ hops ≠ 0 ∧ hops' ≠ 0)
    (path : Path) :
    coerceAt g ctx hops defaults type raw path = coerceAt g ctx' hops' defaults type raw path := by
  induction hops, defaults, type, raw using coercion_induction g ctx generalizing hops' path with
  | reference hops defaults type name ih =>
    obtain ⟨ha, hh, hh'⟩ := h name (Raw.mem_nodes_self _)
    obtain ⟨hops, rfl⟩ := Nat.exists_eq_succ_of_ne_zero hh
    obtain ⟨hops', rfl⟩ := Nat.exists_eq_succ_of_ne_zero hh'
    rw [coerceAt_variable, coerceAt_variable, ← ha.reading]
    cases hr : ctx.reading g name type path with
    | error failure => rfl
    | ok stand =>
      obtain rfl := Context.reading_eq_ok g hr
      have hstand := Context.isSettled_standFor hs name
      exact ih hops rfl (fun n hn => absurd hn (hstand.variable_notMem n)) path
  | absent hops defaults type => rw [coerceAt_absent, coerceAt_absent]
  | null hops defaults type raw hn => rw [coerceAt_null _ _ _ _ hn, coerceAt_null _ _ _ _ hn]
  | required hops defaults inner raw hp ih =>
    rw [coerceAt_required _ _ _ _ hp, coerceAt_required _ _ _ _ hp]
    exact ih h path
  | list hops defaults item raw hp ih =>
    rw [coerceAt_list _ _ _ _ hp, coerceAt_list _ _ _ _ hp]
    cases hitems : raw.items? with
    | none => rfl
    | some items =>
      refine congrArg (Except.map gatherItems) (mapM_congr fun p hpi => ?_)
      have hi := List.fst_mem_of_mem_zipIdx hpi
      exact ih items hitems p.1 hi
        (fun n hn => h n (Raw.variable_mem_of_items? hitems hi hn)) _
  | scalar hops defaults id s raw hp hd =>
    rw [coerceAt_scalar _ _ _ _ hp hd, coerceAt_scalar _ _ _ _ hp hd, coerceScalar, coerceScalar,
      Context.inline_agree g hs fun n hn => (h n hn).1]
  | enum hops defaults id e raw hp hd =>
    rw [coerceAt_enum _ _ _ _ hp hd, coerceAt_enum _ _ _ _ hp hd]
  | input hops defaults id o raw hp ho ih ihd =>
    rw [coerceAt_input _ _ _ _ hp ho, coerceAt_input _ _ _ _ hp ho]
    split
    · next hobject =>
      refine congrArg _ (mapM_congr fun f hf => congrArg _ ?_)
      have hheld : ∀ name, .variable name ∈ (raw.field f.1).nodes →
          ctx.Agrees ctx' name ∧ hops ≠ 0 ∧ hops' ≠ 0 :=
        fun n hn => h n (Raw.variable_mem_of_field hn)
      have hfallback : fallbackFor? ctx' f.2 (raw.field f.1) =
          fallbackFor? ctx f.2 (raw.field f.1) := by
        rw [fallbackFor?, fallbackFor?, Context.leavesDefault_agree fun n hn => (hheld n hn).1]
      rw [coerceField, coerceField, hfallback]
      rcases fallbackFor?_cases ctx f.2 (raw.field f.1) with ⟨hn, _⟩ | ⟨v, _, hv, hn⟩
      · rw [hn]
        exact ih hobject f hf hheld _
      · rw [hn]
        cases defaults with
        | zero => rfl
        | succ d =>
          have hsettled := (Raw.isConstant_external v).isSettled
          exact ihd f hf v hv d rfl (fun n hn => absurd hn (hsettled.variable_notMem n)) _
    · rfl

/-- Without references the context does not matter. -/
theorem coerceAt_settled (hs : ctx.HasSettledDefaults) {type : TypeRef (TypeId ν)} {raw : Raw}
    (h : raw.IsSettled) (path : Path) :
    coerceAt g ctx hops defaults type raw path = coerceAt g ctx' hops' defaults type raw path :=
  coerceAt_agree hs (fun name hn => absurd hn (h.variable_notMem name)) path

/-- What variables stand for holds no references, so one hop is as good as many. -/
theorem coerceAt_hops (hs : ctx.HasSettledDefaults) (type : TypeRef (TypeId ν)) (raw : Raw)
    (path : Path) (hops hops' : Nat) :
    coerceAt g ctx (hops + 1) defaults type raw path =
      coerceAt g ctx (hops' + 1) defaults type raw path :=
  coerceAt_agree hs (fun name _ => ⟨.refl ctx name, Nat.succ_ne_zero _, Nat.succ_ne_zero _⟩) path

end Coercion

end TypedQuery
