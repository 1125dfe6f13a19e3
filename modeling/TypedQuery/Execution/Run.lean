import TypedQuery.Coercion.Arguments
import TypedQuery.Execution.Log
import TypedQuery.Execution.Report
import TypedQuery.Execution.Serialize
import TypedQuery.Query.Definitions
import TypedQuery.Schema.Operation

/-!
# Running queries

The top-level fields of a query run independently of each other: a field that fails adds one error
and no data.

* `runField`: one field, with what it logs before and after its resolver has replied;
* `Response.ofFields`: the response to the fields that have run;
* `run`: the response to a request, with its log.
-/

namespace TypedQuery

open Query (Document FieldSelection)

variable {ν : Type}

/-! ## One field -/

/-- What a field adds to a response. -/
inductive FieldResult
  | data (responseKey : String) (v : Value)
  | error (e : ResponseError)

/-- A field that has run. What it logs at once comes before what any field logs later. -/
structure FieldRun where
  result : FieldResult
  logAtOnce : Log
  logLater : Log

/-- The entry that goes with an error of a field. -/
def failureEntry (what fieldName : String) (e : ResponseError) : LogEntry :=
  ⟨.info, what ++ " \"" ++ fieldName ++ "\"", some [("message", .string e.message)]⟩

/-- A field of a name that the query type does not have. -/
def unknownField (selection : FieldSelection) : FieldRun :=
  ⟨.error (.ofField selection.name "not defined on the query type" selection.responseKey),
    [⟨.info, "unknown field \"" ++ selection.name ++ "\"", none⟩], []⟩

/-- What a resolver's end says of its field; what it throws is a failure. -/
def Resolution.outcome : Resolution → Except Fault (Outcome Value)
  | .returned outcome => .ok outcome
  | .thrown t =>
    match t.text? with
    | some reason => .ok (.fail [.resolverFailed reason])
    | none => .error .textless

/-- Whether a resolver ends before the next field starts: only if it throws without a promise. -/
def Reply.endsAtOnce (reply : Reply) : Bool :=
  match reply.promised, reply.resolution with
  | false, .thrown _ => true
  | _, _ => false

/-- What an outcome adds to the response, and the entry that goes with it. -/
def finishField (g : TypeGraph ν) (field : QueryField ν) (selection : FieldSelection) :
    Outcome Value → Except Fault (FieldResult × Log)
  | .fail failures =>
    let e := ResponseError.ofFailures selection.name failures selection.responseKey
    .ok (.error e, [failureEntry "resolver failed for" selection.name e])
  | .done v =>
    match serialize g field.type v with
    | .ok written => .ok (.data selection.responseKey written, [])
    | .error e =>
      match e.thrown.text? with
      | some detail =>
        let e := ResponseError.ofField selection.name detail selection.responseKey
        .ok (.error e, [failureEntry "serialization failed for" selection.name e])
      | none => .error .textless

/-- Resolves a field with its coerced arguments. -/
def resolveField (g : TypeGraph ν) (ctx : Context ν) (field : QueryField ν)
    (selection : FieldSelection) (args : Value) : Except Fault FieldRun := do
  let coerced : LogEntry :=
    ⟨.debug, "coerced arguments for \"" ++ selection.name ++ "\"", some [("args", args)]⟩
  let reply := field.resolve args ⟨selection.name, selection.responseKey, ctx.supplied⟩
  let (result, log) ← finishField g field selection (← reply.resolution.outcome)
  return if reply.endsAtOnce then ⟨result, coerced :: log, []⟩ else ⟨result, [coerced], log⟩

/-- Runs a selected field. -/
def runField (s : Schema ν) (ctx : Context ν) (enforce : Bool) (selection : FieldSelection) :
    Except Fault FieldRun :=
  match s.query.get? selection.name with
  | none => .ok (unknownField selection)
  | some field => do
    match ← Coercion.coerceArguments s.graph ctx field.args selection.arguments enforce with
    | .done args => resolveField s.graph ctx field selection args
    | .fail failures =>
      let e := ResponseError.ofFailures selection.name failures selection.responseKey
      return ⟨.error e, [failureEntry "argument coercion failed for" selection.name e], []⟩

/-! ## Responses -/

/-- There is no data only if the request failed before any field ran. -/
structure Response where
  data : Option (Members Value)
  errors : List ResponseError

namespace Response

/-- The response to a request that cannot run. -/
def ofRequestError (message : String) : Response := ⟨none, [.request message]⟩

def dataOf : FieldResult → Option (String × Value)
  | .data key v => some (key, v)
  | .error _ => none

def errorOf : FieldResult → Option ResponseError
  | .data .. => none
  | .error e => some e

/-- The data of the fields that succeeded, assigned to their response keys, and the errors of those
that failed. -/
def ofFields (results : List FieldResult) : Response :=
  ⟨some (Value.ofAssignments (results.filterMap dataOf)).ownMembers, results.filterMap errorOf⟩

end Response

/-- Runs selected fields. -/
def runFields (s : Schema ν) (ctx : Context ν) (enforce : Bool)
    (selections : List FieldSelection) : Except Fault (Response × Log) := do
  let fields ← selections.mapM (runField s ctx enforce)
  return (Response.ofFields (fields.map FieldRun.result),
    fields.flatMap FieldRun.logAtOnce ++ fields.flatMap FieldRun.logLater)

/-! ## Requests -/

/-- A query as text, or read before. -/
inductive Source
  | text (text : String)
  | document (d : Document)

structure Request where
  source : Source
  supplied : Members Value
  operationName : Option String

def Source.document? : Source → Except Query.SyntaxError Document
  | .text written => Query.readDocument written
  | .document d => .ok d

def refused (what message : String) : Response × Log :=
  (Response.ofRequestError message, [⟨.warn, what ++ message, none⟩])

/-- The response to a request, with its whole log, unless a coercion or a message fails to end in
one. -/
def run (s : Schema ν) (enforce : Bool) (request : Request) : Except Fault (Response × Log) :=
  match request.source.document? with
  | .error e => .ok (refused "rejected query: " e.message)
  | .ok document =>
    match prepare s document request.operationName with
    | .error rejection => .ok (refused "rejected operation: " rejection.message)
    | .ok prepared =>
      runFields s ⟨request.supplied, prepared.definitions⟩ enforce prepared.fields

end TypedQuery
