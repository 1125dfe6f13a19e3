import TypedQuery.Execution.Run
import TypedQuery.Proofs.Coercion.Gather

/-!
# How a field ends

A selected field has six ends: it is unknown, its arguments are refused, its resolver throws or
fails, what it returns cannot be written, or it can. Each gives one result, under the response key.

* `FieldEnds`: the ends, with what the field logs;
* `FieldStops`: why a field has no end;
* `runField_eq_ok_iff`, `runField_eq_error_iff`: a field runs to one of its ends, or stops.
-/

namespace TypedQuery

open Query (FieldSelection)

variable {ν : Type}

/-! ## Results -/

/-- The response key in the path of an error. -/
def ResponseError.responseKey? : ResponseError → Option String
  | .request _ => none
  | .field _ responseKey _ => some responseKey

/-- The response key under which a result is reported. -/
def FieldResult.responseKey? : FieldResult → Option String
  | .data responseKey _ => some responseKey
  | .error e => e.responseKey?

/-- A field whose arguments fail. -/
def refusedField (selection : FieldSelection) (failures : List Failure) : FieldRun :=
  let e := ResponseError.ofFailures selection.name failures selection.responseKey
  ⟨.error e, [failureEntry "argument coercion failed for" selection.name e], []⟩

/-- The result of a resolver that fails, with its entry. -/
def failedResult (selection : FieldSelection) (failures : List Failure) : FieldResult × Log :=
  let e := ResponseError.ofFailures selection.name failures selection.responseKey
  (.error e, [failureEntry "resolver failed for" selection.name e])

/-- The result of a value that cannot be written, with its entry. -/
def unwrittenResult (selection : FieldSelection) (detail : String) : FieldResult × Log :=
  let e := ResponseError.ofField selection.name detail selection.responseKey
  (.error e, [failureEntry "serialization failed for" selection.name e])

/-- The reply of a field to its coerced arguments. -/
def QueryField.reply (field : QueryField ν) (ctx : Context ν) (selection : FieldSelection)
    (args : Value) : Reply :=
  field.resolve args ⟨selection.name, selection.responseKey, ctx.supplied⟩

/-- A field whose resolver has replied. -/
def answeredField (reply : Reply) (selection : FieldSelection) (args : Value)
    (end_ : FieldResult × Log) : FieldRun :=
  let coerced : LogEntry :=
    ⟨.debug, "coerced arguments for \"" ++ selection.name ++ "\"", some [("args", args)]⟩
  if reply.endsAtOnce then ⟨end_.1, coerced :: end_.2, []⟩ else ⟨end_.1, [coerced], end_.2⟩

@[simp]
theorem result_answeredField (reply : Reply) (selection : FieldSelection) (args : Value)
    (end_ : FieldResult × Log) : (answeredField reply selection args end_).result = end_.1 := by
  unfold answeredField
  dsimp only
  split <;> rfl

/-! ## Ends -/

section Ends

variable (s : Schema ν) (ctx : Context ν) (enforce : Bool) (selection : FieldSelection)

/-- A selected field is known, and its arguments are coerced. -/
structure IsCalled (field : QueryField ν) (args : Value) : Prop where
  known : s.query.get? selection.name = some field
  coerced : Coercion.coerceArguments s.graph ctx field.args selection.arguments enforce =
    .ok (.done args)

/-- How a selected field ends. -/
inductive FieldEnds : FieldRun → Prop
  | unknown (h : s.query.get? selection.name = none) : FieldEnds (unknownField selection)
  | refused {field : QueryField ν} {failures : List Failure}
      (known : s.query.get? selection.name = some field)
      (h : Coercion.coerceArguments s.graph ctx field.args selection.arguments enforce =
        .ok (.fail failures)) : FieldEnds (refusedField selection failures)
  | thrown {field : QueryField ν} {args : Value} {t : Thrown} {reason : String}
      (called : IsCalled s ctx enforce selection field args)
      (h : (field.reply ctx selection args).resolution = .thrown t)
      (text : t.text? = some reason) :
      FieldEnds (answeredField (field.reply ctx selection args) selection args
        (failedResult selection [.resolverFailed reason]))
  | failed {field : QueryField ν} {args : Value} {failures : List Failure}
      (called : IsCalled s ctx enforce selection field args)
      (h : (field.reply ctx selection args).resolution = .returned (.fail failures)) :
      FieldEnds (answeredField (field.reply ctx selection args) selection args
        (failedResult selection failures))
  | unwritten {field : QueryField ν} {args v : Value} {e : SerializeError} {detail : String}
      (called : IsCalled s ctx enforce selection field args)
      (h : (field.reply ctx selection args).resolution = .returned (.done v))
      (unwritten : serialize s.graph field.type v = .error e)
      (text : e.thrown.text? = some detail) :
      FieldEnds (answeredField (field.reply ctx selection args) selection args
        (unwrittenResult selection detail))
  | written {field : QueryField ν} {args v w : Value}
      (called : IsCalled s ctx enforce selection field args)
      (h : (field.reply ctx selection args).resolution = .returned (.done v))
      (written : serialize s.graph field.type v = .ok w) :
      FieldEnds (answeredField (field.reply ctx selection args) selection args
        (.data selection.responseKey w, []))

/-- Why a selected field has no end: its arguments have no outcome, or what is thrown has no
text. -/
inductive FieldStops : Fault → Prop
  | arguments {field : QueryField ν} {e : Fault} (known : s.query.get? selection.name = some field)
      (h : Coercion.coerceArguments s.graph ctx field.args selection.arguments enforce =
        .error e) : FieldStops e
  | thrown {field : QueryField ν} {args : Value} {t : Thrown}
      (called : IsCalled s ctx enforce selection field args)
      (h : (field.reply ctx selection args).resolution = .thrown t) (text : t.text? = none) :
      FieldStops .textless
  | unwritten {field : QueryField ν} {args v : Value} {e : SerializeError}
      (called : IsCalled s ctx enforce selection field args)
      (h : (field.reply ctx selection args).resolution = .returned (.done v))
      (unwritten : serialize s.graph field.type v = .error e) (text : e.thrown.text? = none) :
      FieldStops .textless

end Ends

variable {s : Schema ν} {ctx : Context ν} {enforce : Bool} {selection : FieldSelection}

/-- Every end is reported under the response key. -/
theorem FieldEnds.responseKey?_eq {run : FieldRun} (h : FieldEnds s ctx enforce selection run) :
    run.result.responseKey? = some selection.responseKey := by
  cases h with
  | unknown => rfl
  | refused => rfl
  | thrown => rw [result_answeredField]; rfl
  | failed => rw [result_answeredField]; rfl
  | unwritten => rw [result_answeredField]; rfl
  | written => rw [result_answeredField]; rfl

/-! ## Running -/

/-- A field that is known and whose arguments are coerced runs as its resolver replies. -/
theorem IsCalled.runField_eq {field : QueryField ν} {args : Value}
    (h : IsCalled s ctx enforce selection field args) :
    runField s ctx enforce selection =
      (field.reply ctx selection args).resolution.outcome >>= fun outcome =>
        (finishField s.graph field selection outcome).map
          (answeredField (field.reply ctx selection args) selection args) := by
  unfold runField
  rw [h.known]
  dsimp only
  rw [h.coerced]
  change resolveField s.graph ctx field selection args = _
  refine bind_congr fun outcome => ?_
  cases finishField s.graph field selection outcome <;> rfl

/-- A resolver has an outcome unless it throws what has no text. -/
theorem outcome_cases (resolution : Resolution) :
    (∃ outcome, resolution = .returned outcome ∧ resolution.outcome = .ok outcome) ∨
      ∃ t, resolution = .thrown t ∧
        ((∃ reason, t.text? = some reason ∧
            resolution.outcome = .ok (.fail [.resolverFailed reason])) ∨
          t.text? = none ∧ resolution.outcome = .error .textless) := by
  cases resolution with
  | returned outcome => exact Or.inl ⟨outcome, rfl, rfl⟩
  | thrown t =>
    refine Or.inr ⟨t, rfl, ?_⟩
    cases ht : t.text? with
    | some reason => exact Or.inl ⟨reason, rfl, by simp [Resolution.outcome, ht]⟩
    | none => exact Or.inr ⟨rfl, by simp [Resolution.outcome, ht]⟩

/-- A returned value is written, or it cannot be, which is told unless that has no text. -/
theorem finishField_done_cases (g : TypeGraph ν) (field : QueryField ν)
    (selection : FieldSelection) (v : Value) :
    (∃ w, serialize g field.type v = .ok w ∧
        finishField g field selection (.done v) = .ok (.data selection.responseKey w, [])) ∨
      ∃ e, serialize g field.type v = .error e ∧
        ((∃ detail, e.thrown.text? = some detail ∧
            finishField g field selection (.done v) = .ok (unwrittenResult selection detail)) ∨
          e.thrown.text? = none ∧ finishField g field selection (.done v) = .error .textless) := by
  cases hs : serialize g field.type v with
  | ok w => exact Or.inl ⟨w, rfl, by simp [finishField, hs]⟩
  | error e =>
    refine Or.inr ⟨e, rfl, ?_⟩
    cases ht : e.thrown.text? with
    | some detail => exact Or.inl ⟨detail, rfl, by simp [finishField, hs, ht, unwrittenResult]⟩
    | none => exact Or.inr ⟨rfl, by simp [finishField, hs, ht]⟩

/-- A selected field runs to one of its ends, or stops. -/
theorem runField_cases (s : Schema ν) (ctx : Context ν) (enforce : Bool)
    (selection : FieldSelection) :
    (∃ run, runField s ctx enforce selection = .ok run ∧ FieldEnds s ctx enforce selection run) ∨
      ∃ e, runField s ctx enforce selection = .error e ∧
        FieldStops s ctx enforce selection e := by
  -- down the branches of a run, at each of which it ends, stops or goes on
  cases hf : s.query.get? selection.name with
  | none => exact Or.inl ⟨_, by simp [runField, hf], .unknown hf⟩
  | some field =>
    cases ha : Coercion.coerceArguments s.graph ctx field.args selection.arguments enforce with
    | error e =>
      exact Or.inr ⟨e, by simp [runField, hf, ha, bind, Except.bind], .arguments hf ha⟩
    | ok outcome =>
      cases outcome with
      | fail failures =>
        refine Or.inl ⟨_, ?_, .refused hf ha⟩
        simp [runField, hf, ha, bind, Except.bind, pure, Except.pure, refusedField]
      | done args =>
        have called : IsCalled s ctx enforce selection field args := ⟨hf, ha⟩
        rw [called.runField_eq]
        rcases outcome_cases (field.reply ctx selection args).resolution with
          ⟨outcome, hr, ho⟩ | ⟨t, hr, ⟨reason, ht, ho⟩ | ⟨ht, ho⟩⟩
        · rw [ho]
          cases outcome with
          | fail failures => exact Or.inl ⟨_, rfl, .failed called hr⟩
          | done v =>
            rcases finishField_done_cases s.graph field selection v with
              ⟨w, hw, he⟩ | ⟨e, hw, ⟨detail, ht, he⟩ | ⟨ht, he⟩⟩
            · exact Or.inl ⟨_, congrArg (Except.map _) he, .written called hr hw⟩
            · exact Or.inl ⟨_, congrArg (Except.map _) he, .unwritten called hr hw ht⟩
            · exact Or.inr ⟨_, congrArg (Except.map _) he, .unwritten called hr hw ht⟩
        · rw [ho]
          exact Or.inl ⟨_, rfl, .thrown called hr ht⟩
        · rw [ho]
          exact Or.inr ⟨_, rfl, .thrown called hr ht⟩

theorem FieldEnds.runField_eq {run : FieldRun} (h : FieldEnds s ctx enforce selection run) :
    runField s ctx enforce selection = .ok run := by
  cases h with
  | unknown h => simp [runField, h]
  | refused known h =>
    simp [runField, known, h, bind, Except.bind, pure, Except.pure, refusedField]
  | thrown called h text =>
    rw [called.runField_eq, h, Resolution.outcome, text]
    rfl
  | failed called h =>
    rw [called.runField_eq, h]
    rfl
  | unwritten called h unwritten text =>
    rw [called.runField_eq, h]
    simp [Resolution.outcome, bind, Except.bind, finishField, unwritten, text, Except.map,
      unwrittenResult]
  | written called h written =>
    rw [called.runField_eq, h]
    simp [Resolution.outcome, bind, Except.bind, finishField, written, Except.map]

theorem FieldStops.runField_eq {e : Fault} (h : FieldStops s ctx enforce selection e) :
    runField s ctx enforce selection = .error e := by
  cases h with
  | arguments known h => simp [runField, known, h, bind, Except.bind]
  | thrown called h text =>
    rw [called.runField_eq, h, Resolution.outcome, text]
    rfl
  | unwritten called h unwritten text =>
    rw [called.runField_eq, h]
    simp [Resolution.outcome, bind, Except.bind, finishField, unwritten, text, Except.map]

theorem runField_eq_ok_iff {run : FieldRun} :
    runField s ctx enforce selection = .ok run ↔ FieldEnds s ctx enforce selection run := by
  refine ⟨fun h => ?_, FieldEnds.runField_eq⟩
  rcases runField_cases s ctx enforce selection with ⟨run', hr, hends⟩ | ⟨e, he, _⟩
  · rw [h] at hr
    obtain rfl := Except.ok.inj hr
    exact hends
  · rw [h] at he
    cases he

theorem runField_eq_error_iff {e : Fault} :
    runField s ctx enforce selection = .error e ↔ FieldStops s ctx enforce selection e := by
  refine ⟨fun h => ?_, FieldStops.runField_eq⟩
  rcases runField_cases s ctx enforce selection with ⟨run, hr, _⟩ | ⟨e', he, hstops⟩
  · rw [h] at hr
    cases hr
  · rw [h] at he
    obtain rfl := Except.error.inj he
    exact hstops

end TypedQuery
