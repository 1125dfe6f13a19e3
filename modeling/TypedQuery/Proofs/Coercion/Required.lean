import TypedQuery.Proofs.Coercion.Conformance
import TypedQuery.Proofs.Coercion.Resolved

/-!
# Required variables

A variable that is declared with a required type must have a value other than null. Its supplied
value is held to that at typed positions and inside the literals of scalars; its default is not.

* `HasValue`, `FallsToNull`: a variable has a value; its value is a default that is null;
* `coerce_writtenAt`: inside a literal, what a required variable stands for takes its place;
* `coerceVariable_required`: a required variable is never null nor nothing, unless its default is
  null.
-/

namespace TypedQuery

namespace Context

/-! ## Values of variables -/

variable {ν : Type} {g : TypeGraph ν} {ctx : Context ν} {name : String}

/-- A variable is supplied, and not as null, or has a default. -/
def HasValue (ctx : Context ν) (name : String) : Prop :=
  ctx.supplied? name ≠ some .null ∧ (ctx.supplied? name ≠ none ∨ ctx.default? name ≠ none)

/-- A variable is not supplied, and its default is null. -/
def FallsToNull (ctx : Context ν) (name : String) : Prop :=
  ctx.supplied? name = none ∧ ∃ literal, ctx.default? name = some literal ∧ literal.isNull = true

/-- A variable that has a value stands for one, which is null only if its default is. -/
theorem HasValue.standFor (hc : ctx.HasConstantDefaults) (h : ctx.HasValue name) :
    (ctx.standFor name).isAbsent = false ∧
      ((ctx.standFor name).isNull = true → ctx.FallsToNull name) := by
  obtain ⟨hnull, hgiven⟩ := h
  cases hs : ctx.supplied? name with
  | some value =>
    rw [standFor_supplied hs]
    refine ⟨rfl, fun hn => absurd hs ?_⟩
    cases value <;> first | exact hnull | cases hn
  | none =>
    obtain ⟨literal, hd⟩ := Option.ne_none_iff_exists'.mp (hgiven.resolve_left fun h => h hs)
    rw [standFor_default hs hd]
    exact ⟨(hc name literal hd).isAbsent_eq, fun hn => ⟨hs, literal, hd, hn⟩⟩

section Required

variable {d : VariableDefinition ν} (hd : ctx.definition? name = some d)
  (hreq : d.type.isRequired = true)
include hd hreq

/-- At a typed position a required variable is read only if it has a value. -/
theorem hasValue_of_reading {type : TypeRef (TypeId ν)} {path : Path} {stand : Raw}
    (h : ctx.reading g name type path = .ok stand) : ctx.HasValue name := by
  unfold reading at h
  simp only [hd, Option.map_some, Option.getD_some, hreq, Bool.and_true] at h
  refine ⟨fun hs => ?_, ?_⟩
  · simp [hs, Value.isNull] at h
  · by_contra hnone
    simp only [not_or, not_not] at hnone
    simp [hnone.1, hnone.2] at h

/-- Inside a literal nothing is lacking only if it has a value. -/
theorem hasValue_of_lackOf {path : Path} (h : ctx.lackOf g path name = []) :
    ctx.HasValue name := by
  have hq : ctx.requiredType? name = some d.type :=
    requiredType?_eq_some_iff.mpr ⟨d, hd, rfl, hreq⟩
  unfold lackOf at h
  simp only [hq, Option.toList_some, List.map_cons, List.map_nil] at h
  refine ⟨fun hs => ?_, ?_⟩
  · simp [hs, Value.isNull] at h
  · by_contra hnone
    simp only [not_or, not_not] at hnone
    simp [hnone.1, hnone.2] at h

end Required

end Context

namespace Coercion

variable {ν : Type} {g : TypeGraph ν} {ctx : Context ν} {name : String}

/-- What stands at a position becomes null only if it is null. -/
theorem coerce_done_cases (hg : g.YieldsValues) {type : TypeRef (TypeId ν)} {raw : Raw}
    (hv : ∀ n, raw ≠ .variable n) (ha : raw.isAbsent = false) {path : Path} {v : Option Value}
    (h : coerce g ctx type raw path = .ok (.done v)) :
    (∃ w, v = some w ∧ w.isNullish = false) ∨
      raw.isNull = true ∧ type.isRequired = false ∧ v = some .null := by
  cases hn : raw.isNull with
  | true =>
    rw [coerce_null hn, Except.ok.injEq, nullValue_eq_done_iff] at h
    exact Or.inr ⟨rfl, h⟩
  | false =>
    have hp : isPresent raw = true := (isPresent_iff raw).mpr ⟨hv, ha, hn⟩
    obtain ⟨w, rfl⟩ := exists_of_isPresent hp h
    exact Or.inl ⟨w, rfl, isNullish_of_isPresent hg hp h⟩

theorem coerceVariable_of_fallsToNull (hc : ctx.HasConstantDefaults) (h : ctx.FallsToNull name)
    (expected : TypeRef (TypeId ν)) (path : Path) :
    coerceVariable g ctx name expected path = .ok (nullValue g expected path) := by
  obtain ⟨hs, literal, hd, hn⟩ := h
  have hr : ctx.reading g name expected path = .ok literal := by
    simp [Context.reading, hs, hd]
  rw [coerceVariable, coerce_variable hc.settled, hr]
  exact coerce_null hn expected path

section Required

variable {d : VariableDefinition ν} (hd : ctx.definition? name = some d)
  (hreq : d.type.isRequired = true)
include hd hreq

/-- At a typed position a required variable becomes null only if its default is null. -/
theorem coerceVariable_done_cases (hg : g.YieldsValues) (hc : ctx.HasConstantDefaults)
    {expected : TypeRef (TypeId ν)} {path : Path} {v : Option Value}
    (h : coerceVariable g ctx name expected path = .ok (.done v)) :
    (∃ w, v = some w ∧ w.isNullish = false) ∨
      ctx.FallsToNull name ∧ expected.isRequired = false ∧ v = some .null := by
  rw [coerceVariable, coerce_variable hc.settled] at h
  cases hr : ctx.reading g name expected path with
  | error failure => simp [hr] at h
  | ok stand =>
    rw [hr] at h
    have hvalue := Context.hasValue_of_reading hd hreq hr
    obtain rfl := Context.reading_eq_ok g hr
    obtain ⟨ha, hnull⟩ := hvalue.standFor hc
    have hsettled := Context.isSettled_standFor hc.settled name
    exact (coerce_done_cases hg hsettled.ne_variable ha h).imp_right
      fun ⟨hn, hrest⟩ => ⟨hnull hn, hrest⟩

/-- Inside a literal that a scalar reads, a required variable makes the coercion fail, or gives the
scalar what it stands for, which is null only if its default is. -/
theorem coerce_writtenAt (hc : ctx.HasConstantDefaults) {id : TypeId ν} {s : Scalar}
    (hs : g.describe id = .scalar s) {raw : Raw} {trail : Path}
    (h : raw.WrittenAt trail (.variable name)) (ht : trail ≠ []) (path : Path) :
    (∃ fs, fs ≠ [] ∧ coerce g ctx (.named id) raw path = .ok (.fail fs)) ∨
      ∃ input, coerce g ctx (.named id) raw path = judge s input path ∧
        input.WrittenAt trail (ctx.standFor name) ∧ (ctx.standFor name).isAbsent = false ∧
        ((ctx.standFor name).isNull = true → ctx.FallsToNull name) := by
  rw [coerce_resolve hc hs (h.isPresent ht)]
  cases hlack : ctx.lacking g path raw with
  | cons f fs => exact Or.inl ⟨f :: fs, List.cons_ne_nil _ _, rfl⟩
  | nil =>
    have hnone : ctx.lackOf g path name = [] :=
      (Context.lacking_eq_nil_iff g).mp hlack name (h.nodes_subset (Raw.mem_nodes_self _))
    obtain ⟨ha, hnull⟩ := (Context.hasValue_of_lackOf hd hreq hnone).standFor hc
    have hwritten := Context.writtenAt_resolve h ha
    rw [Context.resolve_variable hc] at hwritten
    exact Or.inr ⟨ctx.resolve raw, rfl, hwritten, ha, hnull⟩

end Required

/-- **Required variables have values.** A variable that is declared with a required type never
becomes nothing, and becomes null only if it is not supplied and its default is null, at any
position whose type allows null; and a reference to it at any depth in the literal of a scalar makes
the coercion fail, or gives the scalar in its place what the variable stands for, which is null in
that case only. -/
theorem coerceVariable_required (hg : g.YieldsValues) (hc : ctx.HasConstantDefaults)
    {d : VariableDefinition ν} (hd : ctx.definition? name = some d)
    (hreq : d.type.isRequired = true) :
    (∀ expected path v, coerceVariable g ctx name expected path = .ok (.done v) →
      (∃ w, v = some w ∧ w.isNullish = false) ∨
        ctx.FallsToNull name ∧ expected.isRequired = false ∧ v = some .null) ∧
    (∀ expected path, ctx.FallsToNull name →
      coerceVariable g ctx name expected path = .ok (nullValue g expected path)) ∧
    ∀ id s raw trail path, g.describe id = .scalar s → trail ≠ [] →
      raw.WrittenAt trail (.variable name) →
      (∃ fs, fs ≠ [] ∧ coerce g ctx (.named id) raw path = .ok (.fail fs)) ∨
        ∃ input, coerce g ctx (.named id) raw path = judge s input path ∧
          input.WrittenAt trail (ctx.standFor name) ∧ (ctx.standFor name).isAbsent = false ∧
          ((ctx.standFor name).isNull = true → ctx.FallsToNull name) :=
  ⟨fun _ _ _ h => coerceVariable_done_cases hd hreq hg hc h,
    fun expected path h => coerceVariable_of_fallsToNull hc h expected path,
    fun _ _ _ _ path hs ht h => coerce_writtenAt hd hreq hc hs h ht path⟩

/-! ## A required variable with a default -/

/-- A scalar that takes any value as it is. -/
def anyScalar : Scalar :=
  .ofPlain "Any" none (fun v => if v.isNullish then .rejected "nothing" else .accepted v) .ok

def anything : TypeGraph Unit where
  declared _ := .scalar anyScalar
  all := [()]
  mem_all n := List.mem_singleton_self n

theorem anything_yieldsValues : anything.YieldsValues where
  scalar n s h raw v hv := by
    obtain rfl := NamedType.scalar.inj h
    unfold anyScalar Scalar.ofPlain at hv
    dsimp only at hv
    split at hv
    · cases hv
    · next hn =>
      obtain rfl := Verdict.accepted.inj hv
      simpa using hn
  enum n e h := by cases h

/-- An operation whose variable is required and has a default. -/
def defaulting (default : Raw) : Context Unit :=
  ⟨[], [⟨"x", .required (.named (.builtin .string)), some default⟩]⟩

theorem defaulting_hasConstantDefaults {default : Raw} (h : default.IsConstant) :
    (defaulting default).HasConstantDefaults := by
  intro name literal hd
  by_cases hn : "x" = name
  · simp [Context.default?, Context.definition?, defaulting, hn] at hd
    rwa [← hd]
  · simp [Context.default?, Context.definition?, defaulting, hn] at hd

theorem coerceVariable_required_small :
    coerceVariable anything (defaulting (.string "small")) "x" (.named (.builtin .string)) [] ≠
        .ok (.done (some .null)) ∧
      ∃ input, coerce anything (defaulting (.string "small")) (.named (.declared ()))
          (.object [("a", .list [.variable "x"])]) [] = judge anyScalar input [] ∧
        input.WrittenAt [.field "a", .index 0] (.string "small") := by
  have hc : (defaulting (.string "small")).HasConstantDefaults := by
    refine defaulting_hasConstantDefaults fun n hn => ?_
    obtain rfl := List.mem_singleton.mp hn
    exact ⟨rfl, rfl⟩
  have hd : (defaulting (.string "small")).definition? "x" =
      some ⟨"x", .required (.named (.builtin .string)), some (.string "small")⟩ := rfl
  have hall := coerceVariable_required anything_yieldsValues hc hd rfl
  refine ⟨fun h => ?_, ?_⟩
  · rcases hall.1 _ _ _ h with ⟨w, hw, hn⟩ | ⟨⟨_, literal, hd, hnull⟩, _⟩
    · obtain rfl := Option.some.inj hw
      cases hn
    · obtain rfl := Option.some.inj hd
      cases hnull
  · have hwritten : (Raw.object [("a", .list [.variable "x"])]).WrittenAt
        [.field "a", .index 0] (.variable "x") :=
      .field (List.mem_singleton_self _) (.item rfl (.here _))
    have hdone : coerce anything (defaulting (.string "small")) (.named (.declared ()))
        (.object [("a", .list [.variable "x"])]) [] =
          .ok (.done (some (.record [("a", .list [.string "small"])]))) :=
      (coerce_scalar rfl rfl _).trans rfl
    rcases hall.2.2 (.declared ()) anyScalar _ _ [] rfl (List.cons_ne_nil _ _) hwritten with
      ⟨fs, _, hfail⟩ | ⟨input, hinput, hw, _⟩
    · cases hdone.symm.trans hfail
    · exact ⟨input, hinput, hw⟩

/-- If its default is null, it becomes null, also in the literal that a scalar reads. -/
theorem coerceVariable_required_null :
    (defaulting .null).HasConstantDefaults ∧
      (defaulting .null).definition? "x" =
        some ⟨"x", .required (.named (.builtin .string)), some .null⟩ ∧
      coerceVariable anything (defaulting .null) "x" (.named (.builtin .string)) [] =
        .ok (.done (some .null)) ∧
      coerce anything (defaulting .null) (.named (.declared ())) (.list [.variable "x"]) [] =
        .ok (.done (some (.list [.null]))) := by
  have hc : (defaulting .null).HasConstantDefaults := by
    refine defaulting_hasConstantDefaults fun n hn => ?_
    obtain rfl := List.mem_singleton.mp hn
    exact ⟨rfl, rfl⟩
  refine ⟨hc, rfl, ?_, ?_⟩
  · exact (coerce_variable hc.settled _ _ _).trans (coerce_null rfl _ _)
  · exact (coerce_scalar rfl rfl _).trans rfl

end Coercion

end TypedQuery
