import Mathlib.Data.List.Perm.Basic
import Mathlib.Logic.Relation
import TypedQuery.Proofs.Execution.Isolation

/-!
# What a request logs

Each field logs how it ends, beside the result that it has, and the log of a request agrees with
its response: there is one entry of severity `info` for each error.

* `Records`: what each end of a field logs;
* `Underway`: fields that run side by side, whose ends come in any order;
* `Underway.Accounts`: what every step of such a run keeps of what the fields log;
* `LogAgrees`: a log agrees with the errors of a response;
* `recorded`: what a log of a threshold records of a request;
* `run_logs`: what is recorded of every request.
-/

namespace TypedQuery

open Query (Document FieldSelection)

variable {ν : Type} {s : Schema ν} {ctx : Context ν} {enforce : Bool}

/-! ## One field -/

/-- What a field logs, in its order. -/
def FieldRun.log (run : FieldRun) : Log := run.logAtOnce ++ run.logLater

/-- The entry that shows the arguments of a field. -/
def coercedEntry (selection : FieldSelection) (args : Value) : LogEntry :=
  ⟨.debug, "coerced arguments for \"" ++ selection.name ++ "\"", some [("args", args)]⟩

theorem log_answeredField (reply : Reply) (selection : FieldSelection) (args : Value)
    (end_ : FieldResult × Log) :
    (answeredField reply selection args end_).log = coercedEntry selection args :: end_.2 := by
  unfold answeredField
  dsimp only
  split
  · exact List.append_nil _
  · rfl

/-- A resolver has returned a value, and that has a written form. -/
def IsWritten (g : TypeGraph ν) (field : QueryField ν) (reply : Reply) (written : Value) : Prop :=
  ∃ v, reply.resolution = .returned (.done v) ∧ serialize g field.type v = .ok written

section Records

variable (s : Schema ν) (ctx : Context ν) (enforce : Bool) (selection : FieldSelection)

/-- What a selected field logs beside its result: one entry if it is unknown or its arguments fail;
else its arguments, and then an entry exactly if its resolver or the writing of its value fails. An
entry for a failure holds the message of the error, but for an unknown field. -/
inductive Records (run : FieldRun) : Prop
  | unknown {e : ResponseError} {message : String}
      (known : s.query.get? selection.name = none) (result : run.result = .error e)
      (log : run.log = [⟨.info, message, none⟩])
  | refused {field : QueryField ν} {failures : List Failure} {e : ResponseError} {message : String}
      (known : s.query.get? selection.name = some field)
      (failed : Coercion.coerceArguments s.graph ctx field.args selection.arguments enforce =
        .ok (.fail failures)) (result : run.result = .error e)
      (log : run.log = [⟨.info, message, some [("message", .string e.message)]⟩])
  | written {field : QueryField ν} {args v : Value}
      (called : IsCalled s ctx enforce selection field args)
      (succeeded : IsWritten s.graph field (field.reply ctx selection args) v)
      (result : run.result = .data selection.responseKey v)
      (log : run.log = [coercedEntry selection args])
  | failed {field : QueryField ν} {args : Value} {e : ResponseError} {message : String}
      (called : IsCalled s ctx enforce selection field args)
      (failed : ∀ v, ¬ IsWritten s.graph field (field.reply ctx selection args) v)
      (result : run.result = .error e)
      (log : run.log = [coercedEntry selection args,
        ⟨.info, message, some [("message", .string e.message)]⟩])

end Records

section Records

variable {selection : FieldSelection} {run : FieldRun}

/-- Each end of a field logs so. -/
theorem FieldEnds.records (h : FieldEnds s ctx enforce selection run) :
    Records s ctx enforce selection run := by
  cases h with
  | unknown h => exact .unknown h rfl rfl
  | refused known h => exact .refused known h rfl rfl
  | thrown called h text =>
    refine .failed called ?_ (result_answeredField ..) (log_answeredField ..)
    rintro w ⟨v, hv, _⟩
    cases h.symm.trans hv
  | failed called h =>
    refine .failed called ?_ (result_answeredField ..) (log_answeredField ..)
    rintro w ⟨v, hv, _⟩
    cases h.symm.trans hv
  | unwritten called h unwritten text =>
    refine .failed called ?_ (result_answeredField ..) (log_answeredField ..)
    rintro w ⟨v', hv, hw⟩
    cases h.symm.trans hv
    cases unwritten.symm.trans hw
  | written called h written =>
    exact .written called ⟨_, h, written⟩ (result_answeredField ..) (log_answeredField ..)

/-- A field logs entries of the two most verbose severities only. -/
theorem Records.severity (h : Records s ctx enforce selection run) :
    ∀ entry ∈ run.log, entry.severity = .info ∨ entry.severity = .debug := by
  cases h with
  | unknown _ _ log => simp [log]
  | refused _ _ _ log => simp [log]
  | written _ _ _ log => simp [log, coercedEntry]
  | failed _ _ _ log => simp [log, coercedEntry]

/-- Whether an entry is of severity `info`. -/
def LogEntry.isInfo (entry : LogEntry) : Bool := entry.severity = .info

/-- A field logs one entry of severity `info` for its error, and none if it has no error. -/
theorem Records.countP_isInfo (h : Records s ctx enforce selection run) :
    run.log.countP LogEntry.isInfo = (Response.errorOf run.result).toList.length := by
  cases h with
  | unknown _ result log => rw [result, log]; rfl
  | refused _ _ result log => rw [result, log]; rfl
  | written _ _ result log => rw [result, log]; rfl
  | failed _ _ result log => rw [result, log]; rfl

end Records

/-! ## Fields side by side -/

/-- Fields under way: those whose end is awaited, and what has been logged. -/
structure Underway where
  awaited : List FieldRun
  log : Log

namespace Underway

/-- One of the awaited fields ends and logs the rest. -/
inductive Step : Underway → Underway → Prop
  | ends (before after : List FieldRun) (run : FieldRun) (log : Log) :
      Step ⟨before ++ run :: after, log⟩ ⟨before ++ after, log ++ run.logLater⟩

/-- Before any end, each field has logged what it logs at once. -/
def start (fields : List FieldRun) : Underway := ⟨fields, fields.flatMap FieldRun.logAtOnce⟩

/-- A log accounts for fields: together with what the awaited ones are yet to log it holds what the
fields log, and nothing else, each in its order. -/
structure Accounts (fields : List FieldRun) (u : Underway) : Prop where
  whole : (u.log ++ u.awaited.flatMap FieldRun.logLater).Perm (fields.flatMap FieldRun.log)
  own : ∀ run ∈ fields, run.log.Sublist u.log ∨ run ∈ u.awaited ∧ run.logAtOnce.Sublist u.log

variable {fields : List FieldRun} {u u' : Underway}

theorem accounts_start (fields : List FieldRun) : Accounts fields (start fields) where
  whole := List.flatMap_append_perm fields FieldRun.logAtOnce FieldRun.logLater
  own _ hrun := Or.inr ⟨hrun, List.sublist_flatten_of_mem (List.mem_map_of_mem hrun)⟩

theorem Accounts.step (h : Accounts fields u) (hstep : Step u u') : Accounts fields u' := by
  obtain ⟨before, after, run, log⟩ := hstep
  constructor
  · have hrest : ((before ++ run :: after).flatMap FieldRun.logLater).Perm
        (run.logLater ++ (before ++ after).flatMap FieldRun.logLater) :=
      List.perm_middle.flatMap_right FieldRun.logLater
    rw [List.append_assoc]
    exact (hrest.symm.append_left log).trans h.whole
  · intro other hother
    rcases h.own other hother with hdone | ⟨hawaited, honce⟩
    · exact Or.inl (hdone.trans (List.sublist_append_left ..))
    · -- of fields that ran alike only one ends, but then the entries of all are in the log
      rcases List.mem_cons.mp (List.perm_middle.mem_iff.mp hawaited) with rfl | hrest
      · exact Or.inl (honce.append (List.Sublist.refl _))
      · exact Or.inr ⟨hrest, honce.trans (List.sublist_append_left ..)⟩

theorem Accounts.of_start (h : Relation.ReflTransGen Step (start fields) u) :
    Accounts fields u := by
  induction h with
  | refl => exact accounts_start fields
  | tail _ hstep ih => exact ih.step hstep

/-- Ends that come in the order of the fields. -/
theorem ends_in_order (fields : List FieldRun) (log : Log) :
    Relation.ReflTransGen Step ⟨fields, log⟩ ⟨[], log ++ fields.flatMap FieldRun.logLater⟩ := by
  induction fields generalizing log with
  | nil =>
    rw [List.flatMap_nil, List.append_nil]
  | cons run rest ih =>
    rw [List.flatMap_cons, ← List.append_assoc]
    exact .head (.ends [] rest run log) (ih _)

end Underway

/-- A log that fields leave behind when they run side by side. -/
def IsLogOf (fields : List FieldRun) (log : Log) : Prop :=
  Relation.ReflTransGen Underway.Step (Underway.start fields) ⟨[], log⟩

/-- A log of fields agrees with the errors of their response. Each field has its entries there, in
its order, and there are no others; none warns or reports an error of the program, and there is one
of severity `info` for each error of the response. -/
structure LogAgrees (fields : List FieldRun) (errors : List ResponseError) (log : Log) : Prop where
  own : ∀ run ∈ fields, run.log.Sublist log
  whole : log.Perm (fields.flatMap FieldRun.log)
  quiet : ∀ entry ∈ log, entry.severity ≠ .warn ∧ entry.severity ≠ .error
  infos : log.countP LogEntry.isInfo = errors.length

section Agreement

variable {selections : List FieldSelection} {fields : List FieldRun}
  (h : List.Forall₂ (Records s ctx enforce) selections fields)
include h

theorem countP_isInfo_flatMap :
    (fields.flatMap FieldRun.log).countP LogEntry.isInfo = (errorsOf fields).length := by
  induction h with
  | nil => rfl
  | cons hrun _ ih =>
    rw [List.flatMap_cons, List.countP_append, hrun.countP_isInfo, ih, errorsOf_cons,
      List.length_append]

/-- Whatever the order of the ends, the log agrees with the response. -/
theorem logAgrees_of_isLogOf {log : Log} (hlog : IsLogOf fields log) :
    LogAgrees fields (errorsOf fields) log := by
  -- at the end no field is awaited, so the log holds all that there was to log
  have hacc := Underway.Accounts.of_start hlog
  have hwhole : log.Perm (fields.flatMap FieldRun.log) := by
    simpa using hacc.whole
  refine ⟨fun run hrun => ?_, hwhole, fun entry hentry => ?_, ?_⟩
  · exact (hacc.own run hrun).resolve_right fun ⟨hmem, _⟩ => List.not_mem_nil hmem
  · obtain ⟨run, hrun, hmem⟩ := List.mem_flatMap.mp (hwhole.subset hentry)
    obtain ⟨selection, _, hrec⟩ := exists_left_of_forall₂ h hrun
    rcases hrec.severity entry hmem with hs | hs <;> rw [hs] <;> exact ⟨by decide, by decide⟩
  · rw [hwhole.countP_eq, countP_isInfo_flatMap h]

end Agreement

/-! ## Thresholds -/

/-- The response to a request, and what a log of a threshold records of it, entry by entry. -/
def recorded (s : Schema ν) (enforce : Bool) (threshold : String) (request : Request) :
    Except Fault (Response × Log) :=
  (run s enforce request).map fun answer =>
    (answer.1, answer.2.foldl (Log.record threshold) [])

theorem recorded_eq (threshold : String) (request : Request) :
    recorded s enforce threshold request = (run s enforce request).map fun answer =>
      (answer.1, answer.2.atThreshold threshold) := by
  simp only [recorded, Log.foldl_record, List.nil_append]

theorem atThreshold_debug (log : Log) : log.atThreshold "debug" = log := by
  refine List.filter_eq_self.mpr fun entry _ => ?_
  cases entry.severity <;> decide

theorem recorded_debug (request : Request) :
    recorded s enforce "debug" request = run s enforce request := by
  simp only [recorded_eq, atThreshold_debug]
  cases run s enforce request <;> rfl

/-! ## Requests -/

/-- **The log agrees with the response.** A request that fails before any field runs records one
warning and nothing else. Any other request has a response unless one of its fields stops; then each
of its fields records how it ends, the errors of the response are those of the fields, and the log
agrees with them, as does every log that the fields leave behind when they end in another order. A
log of another threshold records the entries that the threshold lets pass, in the same order, and
the response is the same. -/
theorem run_logs (s : Schema ν) (enforce : Bool) (request : Request) :
    (∀ e, request.source.document? = .error e →
      recorded s enforce "debug" request =
        .ok (.ofRequestError e.message, [⟨.warn, "rejected query: " ++ e.message, none⟩])) ∧
    (∀ document rejection, request.source.document? = .ok document →
      prepare s document request.operationName = .error rejection →
        recorded s enforce "debug" request =
          .ok (.ofRequestError rejection.message,
            [⟨.warn, "rejected operation: " ++ rejection.message, none⟩])) ∧
    (∀ document prepared, request.source.document? = .ok document →
      prepare s document request.operationName = .ok prepared →
        ((∃ answer, recorded s enforce "debug" request = .ok answer) ↔
          ∀ selection ∈ prepared.fields, ∀ e,
            ¬ FieldStops s (request.context prepared) enforce selection e) ∧
        ∀ response log, recorded s enforce "debug" request = .ok (response, log) →
          ∃ fields,
            List.Forall₂ (Records s (request.context prepared) enforce) prepared.fields fields ∧
            response.errors = errorsOf fields ∧ IsLogOf fields log ∧
            ∀ other, IsLogOf fields other → LogAgrees fields response.errors other) ∧
    ∀ threshold, recorded s enforce threshold request =
      (recorded s enforce "debug" request).map fun answer =>
        (answer.1, answer.2.filter fun entry => entry.severity.passes threshold) := by
  simp only [recorded_debug]
  refine ⟨fun e he => ?_, fun document rejection hd hp => ?_, fun document prepared hd hp => ?_,
    fun threshold => recorded_eq threshold request⟩
  · simp only [run, he, refused]
  · simp only [run, hd, hp, refused]
  · rw [run_eq_runFields hd hp]
    refine ⟨exists_runFields_iff, fun response log h => ?_⟩
    obtain ⟨fields, hends, rfl, rfl⟩ := runFields_eq_ok_iff.mp h
    have hrecords := hends.imp fun _ _ hend => hend.records
    exact ⟨fields, hrecords, rfl, Underway.ends_in_order fields _,
      fun other hother => logAgrees_of_isLogOf hrecords hother⟩

/-- Of two fields one is unknown, and it logs the one entry for an error. -/
theorem run_logs_aliased : ∃ response log fields,
    recorded greetings false "debug" aliased = .ok (response, log) ∧
      List.Forall₂ (Records greetings .empty false) [⟨"hello", "a", []⟩, ⟨"bye", "b", []⟩] fields ∧
      response.errors = [.ofField "bye" "not defined on the query type" "b"] ∧
      LogAgrees fields response.errors log ∧ log.countP LogEntry.isInfo = 1 := by
  obtain ⟨⟨response, log⟩, hrun, hresponse⟩ := map_eq_ok_iff.mp run_aliased
  have hrecorded : recorded greetings false "debug" aliased = .ok (response, log) := by
    rw [recorded_debug, hrun]
  obtain ⟨fields, hrecords, _, hlog, hall⟩ :=
    ((run_logs greetings false aliased).2.2.1 _ _ document?_aliased rfl).2 response log hrecorded
  have hagrees := hall log hlog
  have herrors : response.errors = [.ofField "bye" "not defined on the query type" "b"] :=
    congrArg Response.errors hresponse
  exact ⟨response, log, fields, hrecorded, hrecords, herrors, hagrees,
    by rw [hagrees.infos, herrors]; rfl⟩

/-! ## A field that logs nothing -/

/-- A query for a greeting at times that a variable gives, and for another greeting. -/
def greetingsAt : Document :=
  ⟨[.operation ⟨.query, none, [⟨"x", .list (.named "Int"), none⟩],
    [.field greetingAtHidden, .field ⟨"hello", "b", []⟩]⟩]⟩

def preparedGreetings : Prepared Empty :=
  ⟨none, [⟨"x", .list (.named (.builtin .int)), none⟩],
    [greetingAtHidden, ⟨"hello", "b", []⟩]⟩

/-- A request that supplies an instance that hides its writer as the times. -/
def atHiddenTimes : Request := ⟨.document greetingsAt, [("x", Coercion.mute)], none⟩

/-- Without defaults of variables there are none to settle. -/
theorem atHiddenTimes_hasSettledDefaults :
    (atHiddenTimes.context preparedGreetings).HasSettledDefaults := by
  intro name literal h
  obtain ⟨d, hd, hdefault⟩ := Option.bind_eq_some_iff.mp h
  obtain rfl := List.mem_singleton.mp (List.mem_of_find?_eq_some hd)
  cases hdefault

/-- Its argument is no list, but that cannot be told: the field logs nothing, nor is there a
response to the request. -/
theorem run_logs_hidden :
    atHiddenTimes.source.document? = .ok greetingsAt ∧
      prepare greetings greetingsAt atHiddenTimes.operationName = .ok preparedGreetings ∧
      runField greetings (atHiddenTimes.context preparedGreetings) false greetingAtHidden =
        .error .textless ∧
      recorded greetings false "debug" atHiddenTimes = .error .textless := by
  have hs := atHiddenTimes_hasSettledDefaults
  have hlist : Coercion.coerce greetings.graph (atHiddenTimes.context preparedGreetings)
      (.list (.named (.builtin .int))) (.external Coercion.mute) [.field "times"] =
        .error .textless :=
    (Coercion.coerce_list hs rfl _ _).trans rfl
  have hvariable := (Coercion.coerce_variable hs _ "x" _).trans hlist
  have hstops : FieldStops greetings (atHiddenTimes.context preparedGreetings) false
      greetingAtHidden .textless := by
    refine .arguments rfl (bind_eq_error_iff.mpr (Or.inl ?_))
    exact bind_eq_error_iff.mpr (Or.inl (bind_eq_error_iff.mpr (Or.inl hvariable)))
  have hdocument : atHiddenTimes.source.document? = .ok greetingsAt := rfl
  have hprepare : prepare greetings greetingsAt atHiddenTimes.operationName =
      .ok preparedGreetings := rfl
  have hfields : runFields greetings (atHiddenTimes.context preparedGreetings) false
      preparedGreetings.fields = .error .textless :=
    bind_eq_error_iff.mpr (Or.inl (bind_eq_error_iff.mpr (Or.inl hstops.runField_eq)))
  refine ⟨hdocument, hprepare, hstops.runField_eq, ?_⟩
  rw [recorded_debug, run_eq_runFields hdocument hprepare, hfields]

end TypedQuery
