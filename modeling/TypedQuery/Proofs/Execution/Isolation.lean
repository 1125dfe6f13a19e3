import TypedQuery.Proofs.Coercion.Substitution
import TypedQuery.Proofs.Coercion.Termination
import TypedQuery.Proofs.Execution.Response
import TypedQuery.Proofs.Query.Names

/-!
# Fields in isolation

No field knows of the others of its query. The response to some fields and then some others is made
of the responses to the former and to the latter, as long as every field has an end.

* `Schema.CanTell`, `not_fieldStops`: where coercion ends and whatever a field may have to show has
  a text, every field has an end;
* `runFields_append`: the response to the whole is made of the responses to its parts;
* `runFields_partition`: each response key is in the data or in the path of an error;
* `fields_isolated`: both, and when there is a response.
-/

namespace TypedQuery

open Query (FieldSelection)

variable {ν : Type} {s : Schema ν} {ctx : Context ν} {enforce : Bool}

/-! ## Fields that have an end -/

/-- The coercion of arguments ends, and whatever a field may have to show has a text. -/
structure Schema.CanTell (s : Schema ν) (ctx : Context ν) : Prop where
  leadAway : s.graph.DefaultsLeadAway
  settled : ctx.HasSettledDefaults
  told : ctx.CanTell s.graph
  fallback : ∀ f ∈ s.query.entries, ∀ a ∈ f.2.args.entries, a.2.ShowsDefault
  thrown : ∀ f ∈ s.query.entries, ∀ args info t,
    (f.2.resolve args info).resolution = .thrown t → t.text? ≠ none
  unwritten : ∀ f ∈ s.query.entries, ∀ args info v e,
    (f.2.resolve args info).resolution = .returned (.done v) →
      serialize s.graph f.2.type v = .error e → e.thrown.text? ≠ none

/-- Then no field stops whose arguments have a text. -/
theorem not_fieldStops (hs : s.CanTell ctx) {selection : FieldSelection}
    (h : ∀ a ∈ selection.arguments, a.2.text? ≠ none) (e : Fault) :
    ¬ FieldStops s ctx enforce selection e := by
  intro hstops
  cases hstops with
  | arguments known he =>
    have hf := Members.mem_of_get? known
    obtain ⟨o, ho⟩ := Coercion.exists_ok
      (Coercion.coerceArguments_ne_endless hs.leadAway hs.settled _ selection.arguments enforce)
      (Coercion.coerceArguments_ne_textless hs.told (hs.fallback _ hf) h enforce)
    cases ho.symm.trans he
  | thrown called ht text =>
    exact hs.thrown _ (Members.mem_of_get? called.known) _ _ _ ht text
  | unwritten called hv he text =>
    exact hs.unwritten _ (Members.mem_of_get? called.known) _ _ _ _ hv he text

/-! ## Parts of a query -/

/-- No two fields share a response key, and none has the reserved one. -/
structure AreSeparate (selections : List FieldSelection) : Prop where
  distinct : (selections.map FieldSelection.responseKey).Nodup
  unreserved : Members.reservedKey ∉ selections.map FieldSelection.responseKey

theorem AreSeparate.sublist {xs ys : List FieldSelection} (h : AreSeparate ys)
    (hsub : xs.Sublist ys) : AreSeparate xs where
  distinct := h.distinct.sublist (hsub.map _)
  unreserved hmem := h.unreserved ((hsub.map _).subset hmem)

theorem entriesOf_append (fields others : List FieldRun) :
    entriesOf (fields ++ others) = entriesOf fields ++ entriesOf others :=
  List.filterMap_append

theorem errorsOf_append (fields others : List FieldRun) :
    errorsOf (fields ++ others) = errorsOf fields ++ errorsOf others :=
  List.filterMap_append

section Ends

variable {selections : List FieldSelection} {fields : List FieldRun}
  (h : List.Forall₂ (FieldEnds s ctx enforce) selections fields)
include h

theorem errorsOf_ne_nil_iff :
    errorsOf fields ≠ [] ↔ ∃ selection ∈ selections, ∃ run e,
      FieldEnds s ctx enforce selection run ∧ run.result = .error e := by
  constructor
  · intro hne
    obtain ⟨e, he⟩ := List.exists_mem_of_ne_nil _ hne
    obtain ⟨run, hrun, hr⟩ := mem_errorsOf.mp he
    obtain ⟨selection, hsel, hends⟩ := exists_left_of_forall₂ h hrun
    exact ⟨selection, hsel, run, e, hends, hr⟩
  · rintro ⟨selection, hsel, run, e, hends, hr⟩
    obtain ⟨run', hrun, hends'⟩ := exists_right_of_forall₂ h hsel
    obtain rfl := Except.ok.inj (hends.runField_eq.symm.trans hends'.runField_eq)
    exact List.ne_nil_of_mem (mem_errorsOf.mpr ⟨_, hrun, hr⟩)

variable (hsep : AreSeparate selections)
include hsep

/-- Under separate response keys, the data is what the fields contribute. -/
theorem ownMembers_perm :
    (Value.ofAssignments (entriesOf fields)).ownMembers.Perm (entriesOf fields) := by
  rw [ownMembers_eq_ofList h hsep.unreserved]
  exact Members.ofList_perm (nodup_keys_entriesOf h hsep.distinct)

/-- If moreover none of them is an array index, it is so in order. -/
theorem ownMembers_eq_entriesOf
    (hi : ∀ selection ∈ selections, Members.arrayIndex? selection.responseKey = none) :
    (Value.ofAssignments (entriesOf fields)).ownMembers = entriesOf fields := by
  rw [ownMembers_eq_ofList h hsep.unreserved]
  refine Members.ofList_eq_self (nodup_keys_entriesOf h hsep.distinct) fun key hk => ?_
  obtain ⟨selection, hsel, rfl⟩ := List.mem_map.mp (mem_responseKeys_of_mem_entriesOf h hk)
  exact hi selection hsel

end Ends

theorem exists_parts {xs ys : List FieldSelection} {fields : List FieldRun}
    (h : List.Forall₂ (FieldEnds s ctx enforce) (xs ++ ys) fields) :
    ∃ first second, List.Forall₂ (FieldEnds s ctx enforce) xs first ∧
      List.Forall₂ (FieldEnds s ctx enforce) ys second ∧ fields = first ++ second := by
  have hfirst := List.forall₂_take_append _ _ _ h.flip
  have hsecond := List.forall₂_drop_append _ _ _ h.flip
  exact ⟨_, _, hfirst.flip, hsecond.flip, (List.take_append_drop _ _).symm⟩

/-! ## The whole and its parts -/

/-- The parts of a query that has a response have responses, and these make up the whole. -/
theorem runFields_append {xs ys : List FieldSelection} (hsep : AreSeparate (xs ++ ys))
    {response : Response} {log : Log}
    (hrun : runFields s ctx enforce (xs ++ ys) = .ok (response, log)) :
    ∃ first second firstLog secondLog firstData secondData data,
      runFields s ctx enforce xs = .ok (first, firstLog) ∧ first.data = some firstData ∧
      runFields s ctx enforce ys = .ok (second, secondLog) ∧ second.data = some secondData ∧
      response.data = some data ∧ data.Perm (firstData ++ secondData) ∧
      ((∀ selection ∈ xs ++ ys, Members.arrayIndex? selection.responseKey = none) →
        data = firstData ++ secondData) ∧
      response.errors = first.errors ++ second.errors := by
  obtain ⟨fields, hends, rfl, _⟩ := runFields_eq_ok_iff.mp hrun
  -- how a field ends says nothing of its siblings, so the same ends serve the parts
  obtain ⟨first, second, hfirst, hsecond, rfl⟩ := exists_parts hends
  have hx : AreSeparate xs := hsep.sublist (List.sublist_append_left _ _)
  have hy : AreSeparate ys := hsep.sublist (List.sublist_append_right _ _)
  have hparts := (ownMembers_perm hfirst hx).append (ownMembers_perm hsecond hy)
  rw [← entriesOf_append] at hparts
  refine ⟨_, _, _, _, _, _, _, runFields_eq_ok_iff.mpr ⟨first, hfirst, rfl, rfl⟩, rfl,
    runFields_eq_ok_iff.mpr ⟨second, hsecond, rfl, rfl⟩, rfl, rfl,
    (ownMembers_perm hends hsep).trans hparts.symm, fun hi => ?_, errorsOf_append first second⟩
  rw [ownMembers_eq_entriesOf hends hsep hi, entriesOf_append,
    ownMembers_eq_entriesOf hfirst hx fun x hm => hi x (List.mem_append_left _ hm),
    ownMembers_eq_entriesOf hsecond hy fun y hm => hi y (List.mem_append_right _ hm)]

/-- Each response key is either a key of the data or in the path of an error, and there is an error
exactly if a field fails. -/
theorem runFields_partition {selections : List FieldSelection} (hsep : AreSeparate selections)
    {response : Response} {log : Log}
    (hrun : runFields s ctx enforce selections = .ok (response, log)) :
    ∃ data, response.data = some data ∧
      (data.keys.map some ++ response.errors.map ResponseError.responseKey?).Perm
        ((selections.map FieldSelection.responseKey).map some) ∧
      (response.errors ≠ [] ↔ ∃ selection ∈ selections, ∃ run e,
        FieldEnds s ctx enforce selection run ∧ run.result = .error e) := by
  obtain ⟨fields, hends, rfl, _⟩ := runFields_eq_ok_iff.mp hrun
  have hkeys := (((ownMembers_perm hends hsep).map Prod.fst).map some).append_right
    ((errorsOf fields).map ResponseError.responseKey?)
  exact ⟨_, rfl, hkeys.trans (perm_responseKeys_of_ends hends), errorsOf_ne_nil_iff hends⟩

/-- **Fields do not disturb each other.** Take some fields and some others, under response keys that
are separate. They have a response exactly if each of them has an end, as it has where all that
there is to show has a text. Then both parts have a response too; the data and the errors of the
whole are those of its parts, the data in order if no response key is an array index, as none is
that is read from a text. There is data in any case, an error exactly if a field fails, and each
response key is either a key of the data or in the path of an error. -/
theorem fields_isolated {xs ys : List FieldSelection} (hsep : AreSeparate (xs ++ ys)) :
    ((∃ r, runFields s ctx enforce (xs ++ ys) = .ok r) ↔
      ∀ selection ∈ xs ++ ys, ∀ e, ¬ FieldStops s ctx enforce selection e) ∧
    (s.CanTell ctx → (∀ selection ∈ xs ++ ys, ∀ a ∈ selection.arguments, a.2.text? ≠ none) →
      ∃ r, runFields s ctx enforce (xs ++ ys) = .ok r) ∧
    (∀ response log, runFields s ctx enforce (xs ++ ys) = .ok (response, log) →
      (∃ first second firstLog secondLog firstData secondData data,
        runFields s ctx enforce xs = .ok (first, firstLog) ∧ first.data = some firstData ∧
        runFields s ctx enforce ys = .ok (second, secondLog) ∧ second.data = some secondData ∧
        response.data = some data ∧ data.Perm (firstData ++ secondData) ∧
        ((∀ selection ∈ xs ++ ys, Members.arrayIndex? selection.responseKey = none) →
          data = firstData ++ secondData) ∧
        response.errors = first.errors ++ second.errors) ∧
      ∃ data, response.data = some data ∧
        (data.keys.map some ++ response.errors.map ResponseError.responseKey?).Perm
          (((xs ++ ys).map FieldSelection.responseKey).map some) ∧
        (response.errors ≠ [] ↔ ∃ selection ∈ xs ++ ys, ∃ run e,
          FieldEnds s ctx enforce selection run ∧ run.result = .error e)) ∧
    ∀ text document operationName prepared, Query.readDocument text = .ok document →
      prepare s document operationName = .ok prepared →
        ∀ selection ∈ prepared.fields, Members.arrayIndex? selection.responseKey = none := by
  refine ⟨exists_runFields_iff, fun hs h => ?_,
    fun response log hrun => ⟨runFields_append hsep hrun, runFields_partition hsep hrun⟩,
    fun text document operationName prepared hread hprepare selection hsel => ?_⟩
  · exact exists_runFields_iff.mpr fun selection hsel => not_fieldStops hs (h selection hsel)
  · exact (isName_of_prepare hread hprepare selection hsel).arrayIndex?_eq_none

/-! ## Greetings in isolation -/

theorem exists_greeting {f : String × QueryField Empty} (hf : f ∈ greetings.query.entries) :
    ∃ args, f.2 = greeting args ∧ ∀ a ∈ args.entries, a.2.fallback? = none := by
  rcases List.mem_cons.mp hf with rfl | hf
  · exact ⟨_, rfl, fun a ha => absurd ha List.not_mem_nil⟩
  · obtain rfl := List.mem_singleton.mp hf
    refine ⟨_, rfl, fun a ha => ?_⟩
    obtain rfl := List.mem_singleton.mp ha
    rfl

theorem greetings_canTell : greetings.CanTell .empty where
  leadAway := by
    rintro (b | n) o ho
    · cases ho
    · exact n.elim
  settled _ _ h := by cases h
  told := ⟨fun n => n.elim, fun _ => Option.some_ne_none _, fun _ h => absurd h List.not_mem_nil⟩
  fallback := by
    intro f hf a ha v hv
    obtain ⟨args, hargs, hnone⟩ := exists_greeting hf
    rw [hargs] at ha
    rw [hnone a ha] at hv
    cases hv
  thrown := by
    intro f hf args info t ht
    obtain ⟨_, hargs, _⟩ := exists_greeting hf
    rw [hargs] at ht
    cases ht
  unwritten := by
    intro f hf args info v e hv he
    obtain ⟨_, hargs, _⟩ := exists_greeting hf
    rw [hargs] at hv he
    obtain rfl := Outcome.done.inj (Resolution.returned.inj hv)
    cases he

theorem fields_isolated_greetings :
    ∃ response log first firstLog second secondLog firstData secondData,
      runFields greetings .empty true [⟨"hello", "a", []⟩, ⟨"bye", "b", []⟩] =
        .ok (response, log) ∧
      runFields greetings .empty true [⟨"hello", "a", []⟩] = .ok (first, firstLog) ∧
      runFields greetings .empty true [⟨"bye", "b", []⟩] = .ok (second, secondLog) ∧
      first.data = some firstData ∧ second.data = some secondData ∧
      response = ⟨some (firstData ++ secondData), first.errors ++ second.errors⟩ := by
  have hsep : AreSeparate ([⟨"hello", "a", []⟩] ++ [⟨"bye", "b", []⟩]) := ⟨by decide, by decide⟩
  obtain ⟨_, hend, hparts, _⟩ :=
    @fields_isolated Empty greetings .empty true [⟨"hello", "a", []⟩] [⟨"bye", "b", []⟩] hsep
  obtain ⟨⟨⟨found, errors⟩, log⟩, hrun⟩ := hend greetings_canTell (by decide)
  obtain ⟨⟨first, second, firstLog, secondLog, firstData, secondData, data, hx, hdx, hy, hdy, hd, _,
    hdata, herrors⟩, _⟩ := hparts _ _ hrun
  have hi : data = firstData ++ secondData := hdata (by decide)
  dsimp only at hd herrors
  exact ⟨_, log, first, firstLog, second, secondLog, firstData, secondData, hrun, hx, hy, hdx, hdy,
    by rw [hd, herrors, hi]⟩

/-- A request that supplies an instance that hides its writer. -/
def supplyingHidden : Context Empty := ⟨[("x", Coercion.mute)], []⟩

/-- A greeting at such times, which it takes for no list, but cannot show. -/
def greetingAtHidden : FieldSelection := ⟨"helloAt", "a", [("times", .variable "x")]⟩

theorem fieldStops_greetingAtHidden :
    FieldStops greetings supplyingHidden false greetingAtHidden .textless := by
  have hs : supplyingHidden.HasSettledDefaults := fun _ _ h => by cases h
  have hlist : Coercion.coerce greetings.graph supplyingHidden (.list (.named (.builtin .int)))
      (.external Coercion.mute) [.field "times"] = .error .textless :=
    (Coercion.coerce_list hs rfl _ _).trans rfl
  have hvariable := (Coercion.coerce_variable hs _ "x" _).trans hlist
  refine .arguments rfl (bind_eq_error_iff.mpr (Or.inl ?_))
  exact bind_eq_error_iff.mpr (Or.inl (bind_eq_error_iff.mpr (Or.inl hvariable)))

/-- A failure that cannot be shown leaves the other field without a response. -/
theorem fields_isolated_hidden :
    AreSeparate ([greetingAtHidden] ++ [⟨"hello", "b", []⟩]) ∧
      (runFields greetings supplyingHidden false [⟨"hello", "b", []⟩]).map Prod.fst =
        .ok ⟨some [("b", .string "hello")], []⟩ ∧
      runFields greetings supplyingHidden false ([greetingAtHidden] ++ [⟨"hello", "b", []⟩]) =
        .error .textless := by
  refine ⟨⟨by decide, by decide⟩, rfl, ?_⟩
  have hfirst := fieldStops_greetingAtHidden.runField_eq
  exact bind_eq_error_iff.mpr (Or.inl (bind_eq_error_iff.mpr (Or.inl hfirst)))

end TypedQuery
