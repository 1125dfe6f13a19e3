import TypedQuery.Proofs.Coercion.Agreement
import TypedQuery.Proofs.Coercion.Conformance
import TypedQuery.Proofs.Coercion.Relabel

/-!
# Deferred and eager resolution of variables

References are replaced where coercion meets them. To replace them all beforehand makes no
difference, but for the texts of failures: a reference always has a text, what it stands for need
not have one.

* `SameResult`: two coercions give one value, or fail at the same paths;
* `coerceAt_substitute`: coercion of a raw value and of what it stands for;
* `coerce_substitute_or`: they have the same result, or the second has to show what has no text;
* `coerce_substitute_mute`: which happens.
-/

namespace TypedQuery

/-- A failure of which only the path is kept. -/
def Failure.bare (f : Failure) : Failure := ⟨.valueRequired, f.path, []⟩

theorem Failure.map_bare_eq_iff {fs gs : List Failure} :
    fs.map bare = gs.map bare ↔ fs.map Failure.path = gs.map Failure.path := by
  constructor
  · intro h
    have hp := congrArg (List.map Failure.path) h
    rwa [List.map_map, List.map_map] at hp
  · intro h
    have hp := congrArg (List.map fun path : Path => (⟨.valueRequired, path, []⟩ : Failure)) h
    rwa [List.map_map, List.map_map] at hp

namespace Coercion

variable {ν : Type} {g : TypeGraph ν} {ctx : Context ν} {hops defaults : Nat}

/-! ## Results -/

/-- Both coercions are done with one value, or fail at the same paths, or have no outcome for one
reason. -/
inductive SameResult : Coerced → Coerced → Prop
  | done (v : Option Value) : SameResult (.ok (.done v)) (.ok (.done v))
  | fail {fs gs : List Failure} (h : fs.map Failure.path = gs.map Failure.path) :
      SameResult (.ok (.fail fs)) (.ok (.fail gs))
  | fault (e : Fault) : SameResult (.error e) (.error e)

theorem sameResult_iff {x y : Coerced} :
    SameResult x y ↔
      x.map (Outcome.relabel Failure.bare) = y.map (Outcome.relabel Failure.bare) := by
  constructor
  · intro h
    cases h with
    | done v => rfl
    | fail h =>
      have hfailures := Failure.map_bare_eq_iff.mpr h
      exact congrArg (fun fs => (.ok (.fail fs) : Coerced)) hfailures
    | fault e => rfl
  · intro h
    match x, y with
    | .ok (.done v), .ok (.done w) =>
      obtain rfl : v = w := by simpa [Except.map, Outcome.relabel] using h
      exact .done v
    | .ok (.fail fs), .ok (.fail gs) =>
      have hb : fs.map Failure.bare = gs.map Failure.bare := by
        simpa only [Except.map, Outcome.relabel, Except.ok.injEq, Outcome.fail.injEq] using h
      exact .fail (Failure.map_bare_eq_iff.mp hb)
    | .error e, .error e' =>
      obtain rfl := Except.error.inj h
      exact .fault e
    | .ok (.done _), .ok (.fail _) => simp [Except.map, Outcome.relabel] at h
    | .ok (.fail _), .ok (.done _) => simp [Except.map, Outcome.relabel] at h
    | .ok _, .error _ => cases h
    | .error _, .ok _ => cases h

/-- A raw value refers to a variable that stands for something without a text. -/
def HidesText (ctx : Context ν) (raw : Raw) : Prop :=
  ∃ name, .variable name ∈ raw.nodes ∧ (ctx.standFor name).text? = none

/-- The result of `x` is that of `y`, or `y` has to show something without a text that `raw` only
refers to. -/
def SameOrTextless (ctx : Context ν) (raw : Raw) (x y : Coerced) : Prop :=
  x.map (Outcome.relabel Failure.bare) = y.map (Outcome.relabel Failure.bare) ∨
    y = .error .textless ∧ HidesText ctx raw

theorem SameOrTextless.of_eq {raw : Raw} {x y : Coerced} (h : x = y) :
    SameOrTextless ctx raw x y :=
  Or.inl (by rw [h])

/-- What something inside hides, the whole hides. -/
theorem SameOrTextless.of_inside {raw held : Raw} {x y : Coerced}
    (h : SameOrTextless ctx held x y)
    (hinside : ∀ name, .variable name ∈ held.nodes → .variable name ∈ raw.nodes) :
    SameOrTextless ctx raw x y := by
  refine h.imp_right ?_
  rintro ⟨he, name, hn, ht⟩
  exact ⟨he, name, hinside name hn, ht⟩

theorem SameOrTextless.named {raw : Raw} {x y : Coerced} (h : SameOrTextless ctx raw x y)
    (name : String) :
    (x.map (name, ·)).map (fun o => (o.1, o.2.relabel Failure.bare)) =
        (y.map (name, ·)).map (fun o => (o.1, o.2.relabel Failure.bare)) ∨
      y.map (name, ·) = .error .textless ∧ HidesText ctx raw := by
  have hnamed : ∀ z : Coerced,
      (z.map (name, ·)).map (fun o => (o.1, o.2.relabel Failure.bare)) =
        (z.map (Outcome.relabel Failure.bare)).map (name, ·) := by
    intro z
    cases z <;> rfl
  rcases h with h | ⟨rfl, hlost⟩
  · left
    rw [hnamed, hnamed, h]
  · exact Or.inr ⟨rfl, hlost⟩

theorem coerceItems_map (f : Raw → Raw) (item : TypeRef (TypeId ν)) (items : List Raw)
    (path : Path) :
    coerceItems g ctx hops defaults item (items.map f) path =
      items.zipIdx.mapM fun p =>
        coerceAt g ctx hops defaults item (f p.1) (path ++ [.index p.2]) := by
  rw [coerceItems, List.zipIdx_map, List.mapM_map]
  rfl

/-! ## Leaves -/

theorem isPresent_substitute {raw : Raw} (stand : String → Raw) (h : isPresent raw = true) :
    isPresent (raw.substitute stand) = true := by
  cases raw <;> first | exact h | cases h

theorem isReference_of_isPresent {raw : Raw} (h : isPresent raw = true) :
    raw.isReference = false := by
  cases raw <;> first | rfl | cases h

/-- A raw value is refused like what it stands for, if that has a text. -/
theorem refuse_substitute (ctx : Context ν) (raw : Raw) {path : Path} {failure : String → Failure}
    (hpath : ∀ written, (failure written).path = path) :
    SameOrTextless ctx raw (refuse raw failure) (refuse (raw.substitute ctx.standFor) failure) := by
  have htext := Raw.text?_substitute_eq_none_iff ctx.standFor raw
  cases hs : (raw.substitute ctx.standFor).text? with
  | none =>
    rcases htext.mp hs with hn | hlost
    · exact Or.inl (by rw [refuse, refuse, hs, hn])
    · exact Or.inr ⟨by rw [refuse, hs], hlost⟩
  | some written =>
    cases hn : raw.text? with
    | none =>
      rw [htext.mpr (Or.inl hn)] at hs
      cases hs
    | some written' =>
      left
      simp [refuse, hs, hn, Except.map, Outcome.relabel, Failure.bare, hpath]

theorem symbol?_substitute {raw : Raw} (stand : String → Raw) (h : isPresent raw = true) :
    symbol? (raw.substitute stand) = symbol? raw := by
  cases raw <;> first | rfl | cases h

/-! ## References -/

/-- If required variables are given, a reference fails only where a value is expected. -/
theorem isRequired_of_reading_error (hr : ctx.GivesRequired) {name : String}
    {type : TypeRef (TypeId ν)} {path : Path} {failure : Failure}
    (h : ctx.reading g name type path = .error failure) : type.isRequired = true := by
  have hdeclared : (ctx.declaredType name type).isRequired = true ∧
      (ctx.supplied? name = some .null ∨
        ctx.supplied? name = none ∧ ctx.default? name = none) := by
    rcases Context.reading_cases g name type path with ho | ⟨hd, ⟨hs, _⟩ | ⟨hs, hn, _⟩⟩
    · rw [h] at ho; cases ho
    · exact ⟨hd, Or.inl hs⟩
    · exact ⟨hd, Or.inr ⟨hs, hn⟩⟩
  obtain ⟨hd, hlack⟩ := hdeclared
  cases hdef : ctx.definition? name with
  | none => simpa [Context.declaredType, hdef] using hd
  | some d =>
    have hreq : d.type.isRequired = true := by simpa [Context.declaredType, hdef] using hd
    obtain ⟨hnull, hgiven⟩ := hr name d hdef hreq
    rcases hlack with hs | ⟨hs, hn⟩
    · exact absurd hs hnull
    · exact absurd hgiven (by simp [hs, hn])

theorem coerceAt_variable_substitute (hc : ctx.HasConstantDefaults) (hr : ctx.GivesRequired)
    (hops hops' : Nat) (type : TypeRef (TypeId ν)) (name : String) (path : Path) :
    (coerceAt g ctx (hops + 1) defaults type (.variable name) path).map
        (Outcome.relabel Failure.bare) =
      (coerceAt g .empty hops' defaults type (ctx.standFor name) path).map
        (Outcome.relabel Failure.bare) := by
  rw [coerceAt_variable]
  cases hread : ctx.reading g name type path with
  | error failure =>
    have htype := isRequired_of_reading_error hr hread
    obtain ⟨hpath, hs | hs⟩ := Context.standFor_of_reading_error g hread
    · rw [hs, coerceAt_null _ _ _ _ rfl, nullValue, if_pos htype]
      simp [Except.map, Outcome.relabel, Failure.bare, Failure.valueRequired, hpath]
    · rw [hs, coerceAt_absent, missing, if_pos htype]
      simp [Except.map, Outcome.relabel, Failure.bare, Failure.valueRequired, hpath]
  | ok stand =>
    obtain rfl := Context.reading_eq_ok g hread
    exact congrArg _ (coerceAt_settled hc.settled (Context.isSettled_standFor hc.settled name) path)

/-! ## Fields -/

/-- A default stands in for what is supplied exactly where it stands in for what that stands for. -/
theorem fallbackFor?_substitute (hc : ctx.HasConstantDefaults) (hr : ctx.GivesRequired)
    (position : Position ν) (raw : Raw) :
    fallbackFor? .empty position (raw.substitute ctx.standFor) =
      fallbackFor? ctx position raw := by
  have hnot := Context.isReference_substitute hc.settled raw
  rw [fallbackFor?, fallbackFor?,
    Context.leavesDefault_eq hc fun name _ d hd hreq => (hr name d hd hreq).2,
    Context.leavesDefault_of_not_reference hnot]

theorem coerceField_substitute (hc : ctx.HasConstantDefaults) (hr : ctx.GivesRequired)
    (hops' : Nat) {raw : Raw} (hnot : raw.isReference = false) {path : Path} {name : String}
    {position : Position ν}
    (held : SameOrTextless ctx raw
      (coerceAt g ctx hops defaults position.type (raw.field name) (path ++ [.field name]))
      (coerceAt g .empty hops' defaults position.type ((raw.field name).substitute ctx.standFor)
        (path ++ [.field name]))) :
    SameOrTextless ctx raw (coerceField g ctx hops defaults raw path name position)
      (coerceField g .empty hops' defaults (raw.substitute ctx.standFor) path name position) := by
  rw [coerceField, coerceField, Raw.field_substitute ctx.standFor hnot,
    fallbackFor?_substitute hc hr]
  rcases fallbackFor?_cases ctx position (raw.field name) with ⟨hn, _⟩ | ⟨v, _, _, hn⟩
  · rw [hn]
    exact held
  · rw [hn]
    cases defaults with
    | zero => exact .of_eq rfl
    | succ d =>
      exact .of_eq (coerceAt_settled hc.settled (Raw.isConstant_external v).isSettled _)

/-! ## Every position -/

/-- **Deferred resolution is eager resolution.** A raw value is coerced like what it stands for, if
required variables are given, or the failures of what it stands for have to show something that has
no text. -/
theorem coerceAt_substitute (hc : ctx.HasConstantDefaults) (hr : ctx.GivesRequired)
    (hhops : hops ≠ 0) (hops' : Nat) (type : TypeRef (TypeId ν)) (raw : Raw) (path : Path) :
    SameOrTextless ctx raw (coerceAt g ctx hops defaults type raw path)
      (coerceAt g .empty hops' defaults type (raw.substitute ctx.standFor) path) := by
  induction hops, defaults, type, raw using coercion_induction g ctx generalizing path with
  | reference hops defaults type name ih =>
    obtain ⟨hops, rfl⟩ := Nat.exists_eq_succ_of_ne_zero hhops
    exact Or.inl (coerceAt_variable_substitute hc hr hops hops' type name path)
  | absent hops defaults type =>
    rw [show Raw.absent.substitute ctx.standFor = .absent from rfl, coerceAt_absent,
      coerceAt_absent]
    exact .of_eq rfl
  | null hops defaults type raw hn =>
    have hs : raw.substitute ctx.standFor = raw := by
      cases raw <;> first | rfl | cases hn
    rw [hs, coerceAt_null _ _ _ _ hn, coerceAt_null _ _ _ _ hn]
    exact .of_eq rfl
  | required hops defaults inner raw hp ih =>
    rw [coerceAt_required _ _ _ _ hp,
      coerceAt_required _ _ _ _ (isPresent_substitute ctx.standFor hp)]
    exact ih hhops path
  | list hops defaults item raw hp ih =>
    rw [coerceAt_list _ _ _ _ hp, coerceAt_list _ _ _ _ (isPresent_substitute ctx.standFor hp),
      Raw.items?_substitute ctx.standFor (isReference_of_isPresent hp)]
    cases hitems : raw.items? with
    | none => exact refuse_substitute ctx raw fun _ => rfl
    | some items =>
      have hstep : ∀ p ∈ items.zipIdx, SameOrTextless ctx raw
          (coerceAt g ctx hops defaults item p.1 (path ++ [.index p.2]))
          (coerceAt g .empty hops' defaults item (p.1.substitute ctx.standFor)
            (path ++ [.index p.2])) := by
        intro p hpi
        have hi := List.fst_mem_of_mem_zipIdx hpi
        exact (ih items hitems p.1 hi hhops _).of_inside fun _ hn =>
          Raw.variable_mem_of_items? hitems hi hn
      rw [Option.map_some]
      dsimp only
      rw [coerceItems_map]
      rcases map_mapM_eq_or hstep with h | ⟨he, hlost⟩
      · left
        rw [map_gatherItems_relabel, map_gatherItems_relabel, ← h]
        rfl
      · exact Or.inr ⟨congrArg (Except.map gatherItems) he, hlost⟩
  | scalar hops defaults id s raw hp hs =>
    rw [coerceAt_scalar _ _ _ _ hp hs,
      coerceAt_scalar _ _ _ _ (isPresent_substitute ctx.standFor hp) hs, coerceScalar, coerceScalar,
      Context.inline_substitute g hc hr .empty]
    exact .of_eq rfl
  | enum hops defaults id e raw hp he =>
    rw [coerceAt_enum _ _ _ _ hp he,
      coerceAt_enum _ _ _ _ (isPresent_substitute ctx.standFor hp) he, coerceEnum, coerceEnum,
      symbol?_substitute ctx.standFor hp]
    cases (symbol? raw).bind e.valueOf? with
    | some v => exact .of_eq rfl
    | none => exact refuse_substitute ctx raw fun _ => rfl
  | input hops defaults id o raw hp ho ih ihd =>
    have hnot := isReference_of_isPresent hp
    rw [coerceAt_input _ _ _ _ hp ho,
      coerceAt_input _ _ _ _ (isPresent_substitute ctx.standFor hp) ho,
      Raw.isObject_substitute ctx.standFor hnot]
    cases hobject : raw.isObject with
    | false => exact refuse_substitute ctx raw fun _ => rfl
    | true =>
      have hfield : ∀ f ∈ o.fields.entries, SameOrTextless ctx raw
          (coerceField g ctx hops defaults raw path f.1 f.2)
          (coerceField g .empty hops' defaults (raw.substitute ctx.standFor) path f.1 f.2) := by
        intro f hf
        refine coerceField_substitute hc hr hops' hnot ?_
        exact (ih hobject f hf hhops _).of_inside fun _ hn => Raw.variable_mem_of_field hn
      have hstep : ∀ f ∈ o.fields.entries, _ := fun f hf => (hfield f hf).named f.1
      rw [if_pos rfl, if_pos rfl]
      rcases map_mapM_eq_or hstep with h | ⟨he, hlost⟩
      · left
        rw [map_gatherMembers_relabel, map_gatherMembers_relabel]
        exact congrArg _ h
      · exact Or.inr ⟨congrArg (Except.map _) he, hlost⟩

theorem SameOrTextless.sameResult {raw : Raw} {x y : Coerced} (h : SameOrTextless ctx raw x y) :
    SameResult x y ∨ y = .error .textless ∧ HidesText ctx raw :=
  h.imp_left sameResult_iff.mpr

theorem coercePosition_substitute (hc : ctx.HasConstantDefaults) (hr : ctx.GivesRequired)
    (position : Position ν) (raw : Raw) (path : Path) :
    SameOrTextless ctx raw (coercePosition g ctx position raw path)
      (coercePosition g .empty position (raw.substitute ctx.standFor) path) := by
  rw [coercePosition, coercePosition, fallbackFor?_substitute hc hr]
  rcases fallbackFor?_cases ctx position raw with ⟨hn, _⟩ | ⟨v, _, _, hn⟩
  · rw [hn]
    exact coerceAt_substitute hc hr (Nat.succ_ne_zero _) _ _ _ _
  · rw [hn]
    exact .of_eq (coerceAt_settled hc.settled (Raw.isConstant_external v).isSettled _)

/-- **Deferred resolution is eager resolution.** If defaults are constant and required variables
are given, a raw value has the same result in its context as what it stands for has in none, except
where the latter has to show something without a text that the raw value only refers to. -/
theorem coerce_substitute_or (hc : ctx.HasConstantDefaults) (hr : ctx.GivesRequired) :
    (∀ (type : TypeRef (TypeId ν)) (raw : Raw) (path : Path),
      SameResult (coerce g ctx type raw path)
          (coerce g .empty type (raw.substitute ctx.standFor) path) ∨
        coerce g .empty type (raw.substitute ctx.standFor) path = .error .textless ∧
          HidesText ctx raw) ∧
      ∀ (position : Position ν) (raw : Raw) (path : Path),
        SameResult (coercePosition g ctx position raw path)
            (coercePosition g .empty position (raw.substitute ctx.standFor) path) ∨
          coercePosition g .empty position (raw.substitute ctx.standFor) path = .error .textless ∧
            HidesText ctx raw :=
  ⟨fun type raw path =>
      (coerceAt_substitute hc hr (Nat.succ_ne_zero _) _ type raw path).sameResult,
    fun position raw path => (coercePosition_substitute hc hr position raw path).sameResult⟩

theorem labelled_givesRequired : labelled.GivesRequired := by
  intro name d hd hr
  by_cases hn : "label" = name
  · simp [Context.definition?, labelled, hn] at hd
    subst hd
    cases hr
  · simp [Context.definition?, labelled, hn] at hd

theorem coerce_substitute_label :
    SameResult
      (coerce boxes labelled (.named (.declared .box)) (.object [("label", .variable "label")]) [])
      (coerce boxes .empty (.named (.declared .box)) (.object [("label", .string "small")]) []) := by
  have hall := coerce_substitute_or (g := boxes) labelled_hasConstantDefaults
    labelled_givesRequired
  rcases hall.1 (.named (.declared .box)) (.object [("label", .variable "label")]) [] with
    h | ⟨_, name, hn, ht⟩
  · exact h
  · have hname : name = "label" := by simpa [Raw.nodes, Raw.fieldNodes] using hn
    subst hname
    cases ht

/-! ## What has no text -/

/-- An instance of a class that hides its writer. -/
def mute : Value := .object .classed none [("toString", .number (.ofInt 1))]

/-- A request that supplies it. -/
def supplyingMute : Context BoxType := ⟨[("x", mute)], []⟩

/-- A list is no symbol. The failure can show the reference in it, but not what it stands for. -/
theorem coerce_substitute_mute :
    supplyingMute.HasConstantDefaults ∧ supplyingMute.GivesRequired ∧
      coerce boxes supplyingMute (.named (.declared .unit)) (.list [.variable "x"]) [] =
        .ok (.fail [.unknownSymbol [] "Unit" "[$x]"]) ∧
      ¬ SameResult
        (coerce boxes supplyingMute (.named (.declared .unit)) (.list [.variable "x"]) [])
        (coerce boxes .empty (.named (.declared .unit))
          ((Raw.list [.variable "x"]).substitute supplyingMute.standFor) []) := by
  have hleft : coerce boxes supplyingMute (.named (.declared .unit)) (.list [.variable "x"]) [] =
      .ok (.fail [.unknownSymbol [] "Unit" "[$x]"]) :=
    (coerceAt_enum _ _ _ _ rfl rfl _).trans rfl
  have hright : coerce boxes .empty (.named (.declared .unit))
      ((Raw.list [.variable "x"]).substitute supplyingMute.standFor) [] = .error .textless :=
    (coerceAt_enum _ _ _ _ rfl rfl _).trans rfl
  refine ⟨fun _ _ h => ?_, fun _ _ h => ?_, hleft, ?_⟩
  · cases h
  · cases h
  · rw [hleft, hright]
    intro h
    cases h

end Coercion

end TypedQuery
