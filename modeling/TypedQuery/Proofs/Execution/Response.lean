import Mathlib
import TypedQuery.Proofs.Execution.Field
import TypedQuery.Proofs.Value.Assignment

/-!
# What a response reports

The fields of a query are run one by one, and a response reports each of them. An error is listed
for each field that fails; the results of the others are assigned to their response keys, so that of
fields under one key the last prevails, and none under the reserved key is sure to be reported.

* `runFields_eq_ok_iff`: a query has a response exactly if each field has an end;
* `entriesOf`, `errorsOf`: what the fields that have run contribute to the response;
* `perm_responseKeys`: each contributes once, under its response key;
* `run_accounts`: what is reported in the response to a request.
-/

namespace TypedQuery

open Query (FieldSelection Document)

variable {ν : Type} {s : Schema ν} {ctx : Context ν} {enforce : Bool}

/-! ## Contributions -/

/-- The entries that the fields that succeeded contribute to the data. -/
def entriesOf (fields : List FieldRun) : List (String × Value) :=
  fields.filterMap fun run => Response.dataOf run.result

/-- The errors of the fields that failed. -/
def errorsOf (fields : List FieldRun) : List ResponseError :=
  fields.filterMap fun run => Response.errorOf run.result

theorem ofFields_eq (fields : List FieldRun) :
    Response.ofFields (fields.map FieldRun.result) =
      ⟨some (Value.ofAssignments (entriesOf fields)).ownMembers, errorsOf fields⟩ := by
  simp [Response.ofFields, entriesOf, errorsOf, List.filterMap_map]

theorem mem_errorsOf {fields : List FieldRun} {e : ResponseError} :
    e ∈ errorsOf fields ↔ ∃ run ∈ fields, run.result = .error e := by
  simp only [errorsOf, List.mem_filterMap]
  refine exists_congr fun run => and_congr_right fun _ => ?_
  cases run.result <;> simp [Response.errorOf]

theorem entriesOf_cons (run : FieldRun) (rest : List FieldRun) :
    entriesOf (run :: rest) = (Response.dataOf run.result).toList ++ entriesOf rest := by
  unfold entriesOf
  cases h : Response.dataOf run.result <;> simp [h]

theorem errorsOf_cons (run : FieldRun) (rest : List FieldRun) :
    errorsOf (run :: rest) = (Response.errorOf run.result).toList ++ errorsOf rest := by
  unfold errorsOf
  cases h : Response.errorOf run.result <;> simp [h]

/-- Each field contributes once, under its response key. -/
theorem perm_responseKeys (fields : List FieldRun) :
    ((Members.keys (entriesOf fields)).map some ++
        (errorsOf fields).map ResponseError.responseKey?).Perm
      (fields.map fun run => run.result.responseKey?) := by
  induction fields with
  | nil => exact List.Perm.refl _
  | cons run rest ih =>
    rw [entriesOf_cons, errorsOf_cons, List.map_cons]
    cases run.result with
    | data key v => exact ih.cons (some key)
    | error e => exact List.perm_middle.trans (ih.cons e.responseKey?)

section Ends

variable {selections : List FieldSelection} {fields : List FieldRun}
  (h : List.Forall₂ (FieldEnds s ctx enforce) selections fields)
include h

theorem responseKeys_of_ends :
    (fields.map fun run => run.result.responseKey?) =
      selections.map fun selection => some selection.responseKey := by
  induction h with
  | nil => rfl
  | cons hends _ ih => rw [List.map_cons, List.map_cons, ih, hends.responseKey?_eq]

/-- The keys of the data and the keys in the paths of the errors are the response keys. -/
theorem perm_responseKeys_of_ends :
    ((Members.keys (entriesOf fields)).map some ++
        (errorsOf fields).map ResponseError.responseKey?).Perm
      ((selections.map FieldSelection.responseKey).map some) := by
  have hperm := perm_responseKeys fields
  rwa [responseKeys_of_ends h, ← Function.comp_def some, ← List.map_map] at hperm

theorem mem_responseKeys_of_mem_entriesOf {key : String}
    (hk : key ∈ Members.keys (entriesOf fields)) :
    key ∈ selections.map FieldSelection.responseKey := by
  have hmem := (perm_responseKeys_of_ends h).subset
    (List.mem_append_left _ (List.mem_map_of_mem (f := some) hk))
  simpa using hmem

variable (hdistinct : (selections.map FieldSelection.responseKey).Nodup)
include hdistinct

theorem nodup_keys_entriesOf : (Members.keys (entriesOf fields)).Nodup := by
  have hnodup := (perm_responseKeys_of_ends h).nodup_iff.mpr
    (hdistinct.map fun _ _ => Option.some.inj)
  exact (List.nodup_append.mp hnodup).1.of_map

/-- Under distinct response keys, no error is about a key of the data. -/
theorem responseKey?_notMem_entriesOf {e : ResponseError} (he : e ∈ errorsOf fields) {key : String}
    (hkey : e.responseKey? = some key) : key ∉ Members.keys (entriesOf fields) := by
  have hnodup := (perm_responseKeys_of_ends h).nodup_iff.mpr
    (hdistinct.map fun _ _ => Option.some.inj)
  intro hk
  exact (List.nodup_append.mp hnodup).2.2 _ (List.mem_map_of_mem hk) _
    (List.mem_map.mpr ⟨e, he, hkey⟩) rfl

end Ends

/-! ## Running fields -/

theorem runFields_eq_ok_iff {selections : List FieldSelection} {response : Response} {log : Log} :
    runFields s ctx enforce selections = .ok (response, log) ↔
      ∃ fields, List.Forall₂ (FieldEnds s ctx enforce) selections fields ∧
        response = ⟨some (Value.ofAssignments (entriesOf fields)).ownMembers, errorsOf fields⟩ ∧
        log = fields.flatMap FieldRun.logAtOnce ++ fields.flatMap FieldRun.logLater := by
  unfold runFields
  rw [bind_eq_ok_iff]
  refine exists_congr fun fields => ?_
  rw [mapM_eq_ok_iff, ofFields_eq]
  simp only [runField_eq_ok_iff, pure, Except.pure, Except.ok.injEq, Prod.mk.injEq]
  exact and_congr_right fun _ => and_congr eq_comm eq_comm

/-- Fields have a response exactly if none of them stops. -/
theorem exists_runFields_iff {selections : List FieldSelection} :
    (∃ r, runFields s ctx enforce selections = .ok r) ↔
      ∀ selection ∈ selections, ∀ e, ¬ FieldStops s ctx enforce selection e := by
  constructor
  · rintro ⟨⟨response, log⟩, hr⟩ selection hsel e hstops
    obtain ⟨fields, hends, _⟩ := runFields_eq_ok_iff.mp hr
    obtain ⟨run, _, hrun⟩ := exists_right_of_forall₂ hends hsel
    cases hrun.runField_eq.symm.trans hstops.runField_eq
  · intro h
    cases hr : runFields s ctx enforce selections with
    | ok r => exact ⟨r, rfl⟩
    | error e =>
      rcases bind_eq_error_iff.mp hr with he | ⟨_, _, he⟩
      · obtain ⟨selection, hsel, hstops⟩ := exists_of_mapM_eq_error he
        exact absurd (runField_eq_error_iff.mp hstops) (h selection hsel e)
      · cases he

/-! ## Requests -/

/-- The context in which the fields of a request run. -/
def Request.context (request : Request) (prepared : Prepared ν) : Context ν :=
  ⟨request.supplied, prepared.definitions⟩

section Requests

variable {request : Request} {document : Document} {prepared : Prepared ν}

theorem run_eq_runFields (hd : request.source.document? = .ok document)
    (hp : prepare s document request.operationName = .ok prepared) :
    run s enforce request = runFields s (request.context prepared) enforce prepared.fields := by
  simp only [run, hd, hp]
  rfl

end Requests

theorem ownMembers_eq_ofList {selections : List FieldSelection} {fields : List FieldRun}
    (h : List.Forall₂ (FieldEnds s ctx enforce) selections fields)
    (hreserved : Members.reservedKey ∉ selections.map FieldSelection.responseKey) :
    (Value.ofAssignments (entriesOf fields)).ownMembers = Members.ofList (entriesOf fields) := by
  rw [Value.ofAssignments_eq_record]
  · rfl
  · intro a ha hkey
    exact hreserved (hkey ▸ mem_responseKeys_of_mem_entriesOf h (Members.mem_keys_of_mem ha))

/-- **Every field is accounted for.** A request that can run has a response unless one of its fields
stops. In the response each field that failed has one error, and the errors are in the order of the
fields; under a key that is not reserved is the value of the last field of that key that succeeded,
and there are no other keys. If no two response keys are the same and none is reserved, each field
that succeeded is in the data, and no key of the data is in the path of an error. -/
theorem run_accounts {request : Request} {document : Document} {prepared : Prepared ν}
    (hd : request.source.document? = .ok document)
    (hp : prepare s document request.operationName = .ok prepared) :
    ((∃ r, run s enforce request = .ok r) ↔ ∀ selection ∈ prepared.fields, ∀ e,
      ¬ FieldStops s (request.context prepared) enforce selection e) ∧
    ∀ response log, run s enforce request = .ok (response, log) → ∃ fields data,
      List.Forall₂ (fun selection run =>
        FieldEnds s (request.context prepared) enforce selection run ∧
          run.result.responseKey? = some selection.responseKey) prepared.fields fields ∧
      response.data = some data ∧ response.errors = errorsOf fields ∧
      (∀ key, key ≠ Members.reservedKey →
        data.get? key = Members.get? (entriesOf fields).reverse key) ∧
      (∀ key ∈ data.keys, key ∈ Members.keys (entriesOf fields)) ∧
      ((prepared.fields.map FieldSelection.responseKey).Nodup →
        Members.reservedKey ∉ prepared.fields.map FieldSelection.responseKey →
        (∀ entry ∈ entriesOf fields, entry ∈ data) ∧
          ∀ e ∈ response.errors, ∀ key, e.responseKey? = some key → key ∉ data.keys) := by
  rw [run_eq_runFields hd hp]
  refine ⟨exists_runFields_iff, fun response log h => ?_⟩
  obtain ⟨fields, hends, rfl, _⟩ := runFields_eq_ok_iff.mp h
  refine ⟨fields, _, hends.imp fun _ _ he => ⟨he, he.responseKey?_eq⟩, rfl, rfl,
    fun key hkey => Value.get?_ofAssignments hkey _,
    fun key hkey => Value.mem_keys_ofAssignments hkey, fun hdistinct hreserved => ?_⟩
  rw [ownMembers_eq_ofList hends hreserved]
  have hperm := Members.ofList_perm (nodup_keys_entriesOf hends hdistinct)
  refine ⟨fun entry he => hperm.symm.subset he, fun e he key hkey hk => ?_⟩
  exact responseKey?_notMem_entriesOf hends hdistinct he hkey (Members.mem_keys_ofList.mp hk)

/-! ## A schema of greetings -/

/-- The graph of the built-in scalars alone. -/
def scalarsOnly : TypeGraph Empty where
  declared := Empty.elim
  all := []
  mem_all := fun n => n.elim

/-- A field that greets, whatever it is given. -/
def greeting (args : Declared (Position Empty)) : QueryField Empty :=
  ⟨.named (.builtin .string), args, fun _ _ => ⟨false, .returned (.done (.string "hello"))⟩⟩

/-- Greetings, at no time or at some times of a day. -/
def greetings : Schema Empty where
  graph := scalarsOnly
  query := ⟨[("hello", greeting .empty),
    ("helloAt", greeting ⟨[("times", ⟨.list (.named (.builtin .int)), none⟩)], by decide⟩)],
    (by decide : ["hello", "helloAt"].Nodup)⟩
  index := Builtin.all.map fun b => (b.name, .builtin b)

/-- Such a schema can be defined. -/
theorem define_greetings :
    Schema.define scalarsOnly greetings.query [] = .ok greetings := by
  cbv

/-- Of two fields, one with an alias, one is unknown. -/
def aliased : Request := ⟨.text "\x7b a: hello b: bye \x7d", [], none⟩

theorem run_aliased : (run greetings false aliased).map Prod.fst =
    .ok ⟨some [("a", .string "hello")],
      [.ofField "bye" "not defined on the query type" "b"]⟩ := by
  cbv

theorem document?_aliased : aliased.source.document? =
    .ok ⟨[.operation ⟨.query, none, [],
      [.field ⟨"hello", "a", []⟩, .field ⟨"bye", "b", []⟩]⟩]⟩ := by
  cbv

theorem run_accounts_aliased : ∃ response log fields data,
    run greetings false aliased = .ok (response, log) ∧ response.data = some data ∧
      response.errors = errorsOf fields ∧ (∀ entry ∈ entriesOf fields, entry ∈ data) ∧
      ∀ e ∈ response.errors, ∀ key, e.responseKey? = some key → key ∉ data.keys := by
  obtain ⟨⟨response, log⟩, hrun, _⟩ := map_eq_ok_iff.mp run_aliased
  obtain ⟨fields, data, _, hdata, herrors, _, _, hdistinct⟩ :=
    (run_accounts document?_aliased rfl).2 response log hrun
  obtain ⟨hentries, hkeys⟩ := hdistinct (by decide) (by decide)
  exact ⟨response, log, fields, data, hrun, hdata, herrors, hentries, hkeys⟩

/-- A field under the reserved key succeeds, but no response reports it. Under a key that is given
twice, one response reports both a value and an error. -/
theorem run_accounts_reserved :
    Schema.define scalarsOnly greetings.query [] = .ok greetings ∧
      (runField greetings .empty false ⟨"hello", "__proto__", []⟩).map FieldRun.result =
        .ok (.data "__proto__" (.string "hello")) ∧
      (run greetings false ⟨.text "\x7b __proto__: hello \x7d", [], none⟩).map Prod.fst =
        .ok ⟨some [], []⟩ ∧
      (run greetings false ⟨.text "\x7b a: hello a: bye \x7d", [], none⟩).map Prod.fst =
        .ok ⟨some [("a", .string "hello")],
          [.ofField "bye" "not defined on the query type" "a"]⟩ := by
  refine ⟨define_greetings, ?_, ?_, ?_⟩
  · cbv
  · cbv
  · cbv

end TypedQuery
