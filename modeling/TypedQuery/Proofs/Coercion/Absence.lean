import TypedQuery.Proofs.Coercion.Arguments
import TypedQuery.Proofs.Coercion.Failing
import TypedQuery.Proofs.Coercion.Required

/-!
# Absence

Whether a default stands in is decided before anything is coerced, by the look of the raw value.
That decision foretells how the raw value alone would be coerced.

* `Lacks`, `FindsNothing`: the raw value alone comes to nothing, or fails for want of a value;
* `IsNullGiven`: an explicit null, whichever way it was given;
* `findsNothing_iff`: a default stands in exactly for what comes to nothing;
* `absence_foretold`: so a position with a default is never left absent, and keeps every null.
-/

namespace TypedQuery.Coercion

variable {ν : Type}

/-! ## Coming to nothing -/

/-- The failure of a required type that finds nothing, or a variable that is not declared. -/
def Lacks (g : TypeGraph ν) (ctx : Context ν) (type : TypeRef (TypeId ν)) (path : Path)
    (f : Failure) : Prop :=
  f = .valueRequired path (g.print type) "nothing" ∨
    ∃ name, ctx.definition? name = none ∧ f = .missingVariable path name (g.print type)

/-- A raw value comes to nothing, or at a required type fails for want of a value. -/
def FindsNothing (g : TypeGraph ν) (ctx : Context ν) (type : TypeRef (TypeId ν)) (raw : Raw)
    (path : Path) : Prop :=
  coerce g ctx type raw path = .ok (.done none) ∨
    type.isRequired = true ∧
      ∃ f, coerce g ctx type raw path = .ok (.fail [f]) ∧ Lacks g ctx type path f

variable {g : TypeGraph ν} {ctx : Context ν} {type : TypeRef (TypeId ν)} {raw : Raw} {path : Path}

theorem Lacks.path_eq {f : Failure} (h : Lacks g ctx type path f) : f.path = path := by
  rcases h with rfl | ⟨name, _, rfl⟩ <;> rfl

theorem not_lacks_null {shown : String} :
    ¬ Lacks g ctx type path (.valueRequired path shown "null") := by
  rintro (h | ⟨name, _, h⟩)
  · simp [Failure.valueRequired] at h
  · cases h

theorem definition?_of_lacks {name shown : String}
    (h : Lacks g ctx type path (.missingVariable path name shown)) :
    ctx.definition? name = none := by
  rcases h with h | ⟨name', hnone, h⟩
  · cases h
  · simp only [Failure.missingVariable, Failure.mk.injEq, List.cons.injEq, Prod.mk.injEq,
      Param.text.injEq] at h
    obtain ⟨-, -, ⟨-, rfl⟩, -⟩ := h
    exact hnone

/-- Nothing that is told of a present value tells of a lack. -/
theorem Lacks.not_refuses {f : Failure} (h : Lacks g ctx type path f) :
    ¬ Refuses g ctx path f := by
  intro hr
  cases hr with
  | missingVariable hd hreq => cases (definition?_of_lacks h).symm.trans hd
  | nullVariable hd hreq => exact not_lacks_null h
  | _ => rcases h with h | ⟨_, _, h⟩ <;> cases h

theorem findsNothing_of_fail {f : Failure} (h : coerce g ctx type raw path = .ok (.fail [f])) :
    FindsNothing g ctx type raw path ↔ type.isRequired = true ∧ Lacks g ctx type path f := by
  simp [FindsNothing, h]

theorem findsNothing_absent : FindsNothing g ctx type .absent path := by
  have h := coerce_absent g ctx type path
  unfold missing at h
  cases hreq : type.isRequired with
  | false =>
    rw [hreq] at h
    exact Or.inl h
  | true =>
    rw [hreq] at h
    exact (findsNothing_of_fail h).mpr ⟨hreq, Or.inl rfl⟩

theorem not_findsNothing_of_isNull (hn : raw.isNull = true) :
    ¬ FindsNothing g ctx type raw path := by
  have h : coerce g ctx type raw path = .ok (nullValue g type path) := coerce_null hn type path
  unfold nullValue at h
  split at h
  · rw [findsNothing_of_fail h]
    exact fun hlacks => not_lacks_null hlacks.2
  · simp [FindsNothing, h]

/-- A present value is found: what fails in it is told of itself or of something inside it. -/
theorem not_findsNothing_of_isPresent (hp : isPresent raw = true) :
    ¬ FindsNothing g ctx type raw path := by
  rintro (h | ⟨_, f, h, hlacks⟩)
  · obtain ⟨w, hw⟩ := exists_of_isPresent hp h
    cases hw
  · rcases refuses_or_inside hp h (List.mem_singleton_self f) with hr | ⟨step, hinside⟩
    · exact hlacks.not_refuses hr
    · have hle := hinside.length_le
      rw [hlacks.path_eq, List.length_append, List.length_singleton] at hle
      omega

theorem not_findsNothing_of_isConstant (hc : raw.IsConstant) :
    ¬ FindsNothing g ctx type raw path := by
  cases hn : raw.isNull with
  | true => exact not_findsNothing_of_isNull hn
  | false =>
    exact not_findsNothing_of_isPresent
      ((isPresent_iff raw).mpr ⟨hc.isSettled.ne_variable, hc.isAbsent_eq, hn⟩)

/-! ## References -/

/-- What a reference is read as decides whether it finds something. -/
theorem findsNothing_variable_of_reading (hc : ctx.HasConstantDefaults) {name : String}
    (hr : ctx.reading g name type path = .ok (ctx.standFor name)) :
    FindsNothing g ctx type (.variable name) path ↔ ctx.standsEmpty (.variable name) = true := by
  have hcoerce : coerce g ctx type (.variable name) path =
      coerce g ctx type (ctx.standFor name) path := by
    rw [coerce_variable hc.settled, hr]
  have hsame : FindsNothing g ctx type (.variable name) path ↔
      FindsNothing g ctx type (ctx.standFor name) path := by
    rw [FindsNothing, FindsNothing, hcoerce]
  rw [hsame]
  rcases Context.standFor_absent_or_constant hc name with ha | hconst
  · rw [ha]
    exact iff_of_true findsNothing_absent
      (Context.leavesDefault_of_reading g hc hr (by rw [ha]; rfl))
  · refine iff_of_false (not_findsNothing_of_isConstant hconst) fun h => ?_
    obtain ⟨hs, hd, _⟩ := (Context.standsEmpty_variable_iff name).mp h
    cases hconst.isAbsent_eq.symm.trans ((Context.isAbsent_standFor_iff hc name).mpr ⟨hs, hd⟩)

/-- A reference finds nothing exactly if its variable has neither value nor default, and is not
declared with a required type. -/
theorem findsNothing_variable_iff (hc : ctx.HasConstantDefaults) (name : String) :
    FindsNothing g ctx type (.variable name) path ↔ ctx.standsEmpty (.variable name) = true := by
  have hcoerce := coerce_variable (g := g) hc.settled type name path
  rcases Context.reading_cases g name type path with hr | ⟨hreq, ⟨hs, hr⟩ | ⟨hs, hd, hr⟩⟩
  · exact findsNothing_variable_of_reading hc hr
  · rw [hr] at hcoerce
    rw [findsNothing_of_fail hcoerce, Context.standsEmpty_variable_iff]
    exact iff_of_false (fun h => not_lacks_null h.2) fun h => by cases hs.symm.trans h.1
  · rw [hr] at hcoerce
    rw [findsNothing_of_fail hcoerce, Context.standsEmpty_variable_iff]
    cases hdef : ctx.definition? name with
    | none =>
      -- of an undeclared variable the expected type is required
      have htype : ctx.declaredType name type = type := by simp [Context.declaredType, hdef]
      rw [htype] at hreq ⊢
      exact iff_of_true ⟨hreq, Or.inr ⟨name, hdef, rfl⟩⟩ ⟨hs, hd, fun d h => by cases h⟩
    | some d =>
      have htype : ctx.declaredType name type = d.type := by simp [Context.declaredType, hdef]
      rw [htype] at hreq
      refine iff_of_false (fun h => ?_) fun h => ?_
      · cases hdef.symm.trans (definition?_of_lacks h.2)
      · cases hreq.symm.trans (h.2.2 d rfl)

/-- A default stands in exactly for what comes to nothing. -/
theorem findsNothing_iff (hc : ctx.HasConstantDefaults) :
    FindsNothing g ctx type raw path ↔ ctx.leavesDefault raw = true := by
  match raw with
  | .variable name => exact findsNothing_variable_iff hc name
  | .absent => exact iff_of_true findsNothing_absent rfl
  | .null => exact iff_of_false (not_findsNothing_of_isNull rfl) Bool.noConfusion
  | .external v =>
    exact iff_of_false (not_findsNothing_of_isConstant (Raw.isConstant_external v)) Bool.noConfusion
  | .int _ | .float _ | .string _ | .boolean _ | .enum _ | .list _ | .object _ =>
    exact iff_of_false (not_findsNothing_of_isPresent rfl) Bool.noConfusion

/-- A required type is never left absent. -/
theorem isRequired_of_done_none (hc : ctx.HasConstantDefaults)
    (h : coerce g ctx type raw path = .ok (.done none)) : type.isRequired = false := by
  have hl := leavesDefault_of_done_none hc h
  match raw with
  | .absent =>
    rw [coerce_absent, Except.ok.injEq, missing_eq_done_iff] at h
    exact h.1
  | .variable name =>
    obtain ⟨_, _, _, h⟩ := coerceAt_variable_eq_done_iff.mp h
    rcases Context.standFor_absent_or_constant hc name with ha | hconst
    · rw [ha, coerceAt_absent, Except.ok.injEq, missing_eq_done_iff] at h
      exact h.1
    · obtain ⟨w, hw⟩ := exists_of_isConstant hconst h
      cases hw
  | .int _ | .float _ | .string _ | .boolean _ | .enum _ | .null | .list _ | .object _
  | .external _ => cases hl

/-! ## Nulls -/

/-- An explicit null: inline, supplied for a variable, or the default of one. -/
inductive IsNullGiven (ctx : Context ν) : Raw → Prop
  | inline {raw : Raw} (h : raw.isNull = true) : IsNullGiven ctx raw
  | supplied {name : String} (h : ctx.supplied? name = some .null) :
      IsNullGiven ctx (.variable name)
  | fallen {name : String} (h : ctx.FallsToNull name) : IsNullGiven ctx (.variable name)

/-- The outcome of a null: null where it is allowed, else one failure that tells of it. -/
def IsNullOutcome (g : TypeGraph ν) (path : Path) (o : Coerced) : Prop :=
  o = .ok (.done (some .null)) ∨
    ∃ declared : TypeRef (TypeId ν), declared.isRequired = true ∧
      o = .ok (.fail [.valueRequired path (g.print declared) "null"])

theorem isNullOutcome_nullValue (g : TypeGraph ν) (type : TypeRef (TypeId ν)) (path : Path) :
    IsNullOutcome g path (.ok (nullValue g type path)) := by
  unfold nullValue
  cases hreq : type.isRequired with
  | false => exact Or.inl rfl
  | true => exact Or.inr ⟨type, hreq, rfl⟩

theorem IsNullGiven.leavesDefault_eq (h : IsNullGiven ctx raw) : ctx.leavesDefault raw = false := by
  rw [← Bool.not_eq_true]
  intro hl
  cases h with
  | inline hn =>
    match raw with
    | .null | .external .null => cases hl
  | supplied hs => cases hs.symm.trans ((Context.standsEmpty_variable_iff _).mp hl).1
  | fallen hf =>
    obtain ⟨_, literal, hd, _⟩ := hf
    cases hd.symm.trans ((Context.standsEmpty_variable_iff _).mp hl).2.1

theorem IsNullGiven.isNullOutcome (hc : ctx.HasConstantDefaults) (h : IsNullGiven ctx raw) :
    IsNullOutcome g path (coerce g ctx type raw path) := by
  cases h with
  | inline hn =>
    rw [coerce_null hn]
    exact isNullOutcome_nullValue g type path
  | fallen hf =>
    have hv := coerceVariable_of_fallsToNull (g := g) hc hf type path
    rw [coerceVariable] at hv
    rw [hv]
    exact isNullOutcome_nullValue g type path
  | @supplied name hs =>
    rw [coerce_variable hc.settled]
    rcases Context.reading_cases g name type path with hr | ⟨hreq, ⟨_, hr⟩ | ⟨hnone, _, _⟩⟩
    · rw [hr, Context.standFor_supplied hs]
      dsimp only
      rw [coerce_null rfl]
      exact isNullOutcome_nullValue g type path
    · rw [hr]
      exact Or.inr ⟨_, hreq, rfl⟩
    · cases hs.symm.trans hnone

/-! ## Positions with defaults -/

section Position

variable {position : Position ν} {d : Value} (hd : position.fallback? = some d)
include hd

theorem fallbackFor?_eq_some_iff :
    fallbackFor? ctx position raw = some (.external d) ↔ ctx.leavesDefault raw = true := by
  cases hl : ctx.leavesDefault raw <;> simp [fallbackFor?, hl, hd]

theorem coercePosition_of_leavesDefault (hl : ctx.leavesDefault raw = true) :
    coercePosition g ctx position raw path = coerce g ctx position.type (.external d) path := by
  simp [coercePosition, fallbackFor?, hl, hd]

end Position

theorem coercePosition_of_not_leavesDefault {position : Position ν}
    (hl : ctx.leavesDefault raw = false) :
    coercePosition g ctx position raw path = coerce g ctx position.type raw path := by
  simp [coercePosition, fallbackFor?, hl]

/-- **Absence is foretold.** Where null is allowed, a raw value comes to nothing exactly if it is
absent or a reference that stands for nothing; at a required type it then fails for want of a value.
So at a position with a default nothing is left absent, the default stands in exactly for what comes
to nothing by itself, and never for an explicit null. -/
theorem absence_foretold (hc : ctx.HasConstantDefaults) (raw : Raw) (path : Path) :
    (∀ type : TypeRef (TypeId ν), type.isRequired = false →
      (coerce g ctx type raw path = .ok (.done none) ↔
        raw.isAbsent = true ∨ ctx.standsEmpty raw = true)) ∧
    (∀ type : TypeRef (TypeId ν), type.isRequired = true →
      raw.isAbsent = true ∨ ctx.standsEmpty raw = true →
        ∃ f, coerce g ctx type raw path = .ok (.fail [f]) ∧ Lacks g ctx type path f) ∧
    ∀ (position : Position ν) (d : Value), position.fallback? = some d →
      coercePosition g ctx position raw path ≠ .ok (.done none) ∧
      (fallbackFor? ctx position raw = some (.external d) ↔
        FindsNothing g ctx position.type raw path) ∧
      (FindsNothing g ctx position.type raw path →
        coercePosition g ctx position raw path =
          coerce g ctx position.type (.external d) path) ∧
      (¬ FindsNothing g ctx position.type raw path →
        coercePosition g ctx position raw path = coerce g ctx position.type raw path) ∧
      (IsNullGiven ctx raw →
        coercePosition g ctx position raw path = coerce g ctx position.type raw path ∧
          IsNullOutcome g path (coercePosition g ctx position raw path)) := by
  have hiff : ∀ type : TypeRef (TypeId ν), FindsNothing g ctx type raw path ↔
      raw.isAbsent = true ∨ ctx.standsEmpty raw = true := by
    intro type
    rw [findsNothing_iff hc, Context.leavesDefault, Bool.or_eq_true]
  refine ⟨fun type hreq => ?_, fun type hreq hnothing => ?_, fun position d hd => ?_⟩
  · rw [← hiff type, FindsNothing, hreq]
    simp
  · rcases (hiff type).mpr hnothing with h | ⟨_, h⟩
    · cases hreq.symm.trans (isRequired_of_done_none hc h)
    · exact h
  · have hfinds : FindsNothing g ctx position.type raw path ↔ ctx.leavesDefault raw = true :=
      findsNothing_iff hc
    refine ⟨fun h => ?_, ?_, fun h => ?_, fun h => ?_, fun h => ?_⟩
    · cases hd.symm.trans (fallback?_of_coercePosition_done_none hc h)
    · rw [fallbackFor?_eq_some_iff hd, hfinds]
    · exact coercePosition_of_leavesDefault hd (hfinds.mp h)
    · exact coercePosition_of_not_leavesDefault (Bool.eq_false_iff.mpr fun hl => h (hfinds.mpr hl))
    · have heq : coercePosition g ctx position raw path = coerce g ctx position.type raw path :=
        coercePosition_of_not_leavesDefault h.leavesDefault_eq
      exact ⟨heq, heq ▸ h.isNullOutcome hc⟩

/-- A position whose default is a word. -/
def small (type : TypeRef (TypeId Unit)) : Position Unit := ⟨type, some (.string "small")⟩

/-- The default stands in where an undeclared variable alone fails, but not where a declared one has
null as its default. -/
theorem absence_foretold_small :
    coerce anything (defaulting .null) (.required (.named (.builtin .string))) (.variable "y") [] =
        .ok (.fail [.missingVariable [] "y" "String!"]) ∧
      coercePosition anything (defaulting .null) (small (.required (.named (.builtin .string))))
          (.variable "y") [] = .ok (.done (some (.string "small"))) ∧
      coercePosition anything (defaulting .null) (small (.named (.builtin .string)))
          (.variable "x") [] = .ok (.done (some .null)) := by
  have hc : (defaulting .null).HasConstantDefaults := by
    refine defaulting_hasConstantDefaults fun n hn => ?_
    obtain rfl := List.mem_singleton.mp hn
    exact ⟨rfl, rfl⟩
  obtain ⟨-, hlacks, hy⟩ := absence_foretold (g := anything) hc (.variable "y") []
  obtain ⟨-, -, hx⟩ := absence_foretold (g := anything) hc (.variable "x") []
  obtain ⟨-, -, hstands, -⟩ := hy (small (.required (.named (.builtin .string)))) _ rfl
  obtain ⟨-, -, -, -, hkeeps⟩ := hx (small (.named (.builtin .string))) _ rfl
  refine ⟨coerce_variable hc.settled _ _ _, ?_, ?_⟩
  · refine (hstands (Or.inr ⟨rfl, hlacks _ rfl (Or.inr rfl)⟩)).trans ?_
    exact (coerce_required hc.settled rfl _ _).trans ((coerce_scalar rfl rfl _).trans rfl)
  · refine (hkeeps (.fallen ⟨rfl, .null, rfl, rfl⟩)).1.trans ?_
    exact (coerce_variable hc.settled _ _ _).trans (coerce_null rfl _ _)

end TypedQuery.Coercion
