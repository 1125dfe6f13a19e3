import TypedQuery.Proofs.Coercion.Failing
import TypedQuery.Proofs.Coercion.Required
import TypedQuery.Proofs.Outcome.Template

/-!
# The reasons of failures

* `Failure.filled`: the template of a failure with all its places filled at once;
* `Failure.Nests`: a parameter of a failure holds the place of a later one;
* `Failure.QuotesParams`: when the reason of a failure is the filled template, and what it is else;
* `coerce_quotesParams`: all that a coercion tells quotes its parameters so;
* `coerce_quotesParams_detail`: a rejected text that holds a place.
-/

namespace TypedQuery

open Code Template

namespace Failure

def filled (f : Failure) : String := String.ofList (render f.params f.code.pieces)

/-- A parameter holds the place of a later one, and stands ahead of it. -/
def Nests (f : Failure) : Prop := Template.Nests f.code.places f.params

/-- The names that are told, of variables and of types, hold no open brace. -/
def HasPlainNames (f : Failure) : Prop :=
  ∀ p ∈ f.params, p.1 = "name" ∨ p.1 = "type" → '\x7b' ∉ p.2.toText.toList

/-- A failure has a parameter for each place. Its reason is the template with all of them filled at
once, unless parameters nest. With plain names only a rejected value can hold a place, that of the
detail: then the detail is put into the value and its own place is left. -/
structure QuotesParams (f : Failure) : Prop where
  complete : (Members.keys f.params).Perm f.code.places
  filled : ¬ f.Nests → f.reason = f.filled
  nests : f.HasPlainNames → f.Nests →
    ∃ path type value detail, f = .scalarRejected path type value detail ∧
      placeOf "detail" <:+: value.toList ∧
      f.reason = "Expected type " ++ type ++ ", found " ++
        String.ofList (replaceFirst (placeOf "detail") detail.toList value.toList) ++
          ": \x7bdetail\x7d"

theorem QuotesParams.of_not_nests {f : Failure}
    (hcomplete : (Members.keys f.params).Perm f.code.places)
    (h : f.HasPlainNames → ¬ f.Nests) : f.QuotesParams where
  complete := hcomplete
  filled := message_eq_render hcomplete
  nests hplain hnests := absurd hnests (h hplain)

section

variable (path : Path) (name type value detail : String)

theorem quotesParams_missingVariable : (missingVariable path name type).QuotesParams := by
  refine .of_not_nests (places_eq .missingVariable ▸ .refl _) fun hplain => ?_
  have hname : '\x7b' ∉ name.toList := hplain _ (List.mem_cons_self ..) (Or.inl rfl)
  exact not_nests_of_dropLast (List.forall_mem_singleton.mpr hname)

theorem quotesParams_valueRequired : (valueRequired path type value).QuotesParams := by
  refine .of_not_nests (places_eq .valueRequired ▸ .refl _) fun hplain => ?_
  have htype : '\x7b' ∉ type.toList := hplain _ (List.mem_cons_self ..) (Or.inr rfl)
  exact not_nests_of_dropLast (List.forall_mem_singleton.mpr htype)

/-- The value is filled in last, and stands ahead of the type. -/
theorem quotesParams_unknownSymbol : (unknownSymbol path type value).QuotesParams := by
  refine .of_not_nests (places_eq .unknownSymbol ▸ .swap _ _ _) fun _ => ?_
  rw [Nests, unknownSymbol, nests_cons_iff, nests_cons_iff]
  rintro (⟨q, hq, hplaces, _⟩ | ⟨q, hq, _⟩ | h)
  · obtain rfl := List.mem_singleton.mp hq
    rw [places_eq] at hplaces
    exact absurd hplaces (by decide : ¬ ["type", "value"].Sublist ["value", "type"])
  · cases hq
  · exact not_nests_nil _ h

theorem quotesParams_shapeMismatch {expected : String} (hexpected : '\x7b' ∉ expected.toList) :
    (shapeMismatch path expected type value).QuotesParams := by
  refine .of_not_nests (places_eq .shapeMismatch ▸ .refl _) fun hplain => ?_
  have htype : '\x7b' ∉ type.toList :=
    hplain ("type", .text type) (List.mem_cons_of_mem _ (List.mem_cons_self ..)) (Or.inr rfl)
  exact not_nests_of_dropLast
    (List.forall_mem_cons.mpr ⟨hexpected, List.forall_mem_singleton.mpr htype⟩)

/-- Under a plain type only the value of a rejection can hold a place, that of the detail. -/
theorem nests_scalarRejected_iff (htype : '\x7b' ∉ type.toList) :
    (scalarRejected path type value detail).Nests ↔ placeOf "detail" <:+: value.toList := by
  rw [Nests, scalarRejected, nests_cons_iff, nests_cons_iff, nests_cons_iff]
  constructor
  · rintro (⟨q, _, _, hinside⟩ | ⟨q, hq, _, hinside⟩ | ⟨q, hq, _⟩ | h)
    · exact absurd hinside (not_placeOf_infix_of_notMem htype)
    · obtain rfl := List.mem_singleton.mp hq
      exact hinside
    · cases hq
    · exact absurd h (not_nests_nil _)
  · intro h
    refine Or.inr (Or.inl ⟨("detail", .text detail), List.mem_singleton_self _, ?_, h⟩)
    rw [places_eq]
    exact (by decide : ["value", "detail"].Sublist ["type", "value", "detail"])

/-- The type and the value are filled in before the detail. -/
theorem foldl_fillFirst_scalarRejected (htype : '\x7b' ∉ type.toList) :
    [("type", .text type), ("value", .text value)].foldl fillFirst
        Code.scalarRejected.template.toList =
      "Expected type ".toList ++ type.toList ++ ", found ".toList ++
        (value.toList ++ ": \x7bdetail\x7d".toList) := by
  have hplaces : ∀ p ∈ [("type", Param.text type), ("value", .text value)],
      p.1 ∈ Code.scalarRejected.places := by
    rw [places_eq]
    simp
  have hnests : ¬ Template.Nests Code.scalarRejected.places
      [("type", .text type), ("value", .text value)] :=
    not_nests_of_dropLast (List.forall_mem_singleton.mpr htype)
  have hkeys : (Members.keys [("type", Param.text type), ("value", .text value)]).Nodup := by
    simp [Members.keys]
  rw [foldl_fillFirst_template hkeys hplaces hnests, List.append_assoc, List.append_assoc]
  rfl

/-- If the value holds the place of the detail, the detail is put there, and its own place is
left. -/
theorem reason_scalarRejected_of_infix (htype : '\x7b' ∉ type.toList)
    (hvalue : placeOf "detail" <:+: value.toList) :
    (scalarRejected path type value detail).reason =
      "Expected type " ++ type ++ ", found " ++
        String.ofList (replaceFirst (placeOf "detail") detail.toList value.toList) ++
          ": \x7bdetail\x7d" := by
  have hahead : '\x7b' ∉ "Expected type ".toList ++ type.toList ++ ", found ".toList := by
    simp only [List.mem_append, not_or]
    exact ⟨⟨by decide, htype⟩, by decide⟩
  have hsplit : (scalarRejected path type value detail).params =
      [("type", .text type), ("value", .text value)] ++ [("detail", .text detail)] := rfl
  rw [reason, message, hsplit, List.foldl_append, scalarRejected,
    foldl_fillFirst_scalarRejected type value htype, List.foldl_cons, List.foldl_nil, fillFirst,
    Param.toText, replaceFirst_append_of_notMem hahead,
    replaceFirst_append_of_infix (placeOf_ne_nil _) hvalue]
  simp only [String.ofList_append, String.ofList_toList, String.append_assoc]

theorem quotesParams_scalarRejected : (scalarRejected path type value detail).QuotesParams where
  complete := places_eq .scalarRejected ▸ .refl _
  filled := message_eq_render (places_eq .scalarRejected ▸ .refl _)
  nests hplain hnests := by
    have htype : '\x7b' ∉ type.toList := hplain _ (List.mem_cons_self ..) (Or.inr rfl)
    have hvalue := (nests_scalarRejected_iff path type value detail htype).mp hnests
    exact ⟨path, type, value, detail, rfl, hvalue,
      reason_scalarRejected_of_infix path type value detail htype hvalue⟩

end

end Failure

namespace Coercion

variable {ν : Type} {g : TypeGraph ν} {ctx : Context ν}

theorem Refuses.quotesParams {path : Path} {f : Failure} (h : Refuses g ctx path f) :
    f.QuotesParams := by
  cases h with
  | missingVariable => exact Failure.quotesParams_missingVariable ..
  | nullVariable => exact Failure.quotesParams_valueRequired ..
  | scalar => exact Failure.quotesParams_scalarRejected ..
  | enum => exact Failure.quotesParams_unknownSymbol ..
  | list => exact Failure.quotesParams_shapeMismatch _ _ _ (by decide)
  | input => exact Failure.quotesParams_shapeMismatch _ _ _ (by decide)

theorem IsTold.quotesParams {f : Failure} (h : IsTold g ctx f) : f.QuotesParams := by
  cases h with
  | refused h => exact h.quotesParams
  | missingVariable => exact Failure.quotesParams_missingVariable ..
  | nothing => exact Failure.quotesParams_valueRequired ..
  | null => exact Failure.quotesParams_valueRequired ..

/-- **Reasons quote their parameters.** Whatever a coercion tells, of a value or of arguments, has a
parameter for each place of its template, and its reason is the template with all of them filled at
once, unless one holds the place of a later one. With plain names that is the value of a rejection,
with the place of the detail in it. -/
theorem coerce_quotesParams (g : TypeGraph ν) (ctx : Context ν) :
    (∀ (type : TypeRef (TypeId ν)) (raw : Raw) (path : Path) (o : Outcome (Option Value)),
      coerce g ctx type raw path = .ok o → ∀ f ∈ o.failures, f.QuotesParams) ∧
    ∀ (declared : Declared (Position ν)) (supplied : Members Raw) (enforce : Bool)
      (o : Outcome Value), coerceArguments g ctx declared supplied enforce = .ok o →
        ∀ f ∈ o.failures, f.QuotesParams :=
  ⟨fun _ _ _ _ h _ hf => (isTold_of_mem_failures h hf).quotesParams,
    fun _ _ _ _ h _ hf => (isTold_of_mem_arguments h hf).quotesParams⟩

/-! ## Texts that are no numbers -/

/-- What is told of a text where a number is expected. -/
def notInt (written : String) : Failure :=
  .scalarRejected [] "Int" written ("Int cannot represent non-integer value " ++ written)

theorem coerce_quotesParams_small :
    coerce anything .empty (.named (.builtin .int)) (.string "small") [] =
        .ok (.fail [notInt "\"small\""]) ∧
      (notInt "\"small\"").reason =
        "Expected type Int, found \"small\": Int cannot represent non-integer value \"small\"" := by
  have hfail : coerce anything .empty (.named (.builtin .int)) (.string "small") [] =
      .ok (.fail [notInt "\"small\""]) := (coerce_scalar rfl rfl _).trans rfl
  obtain ⟨hall, -⟩ := coerce_quotesParams anything .empty
  have hquotes := hall _ _ _ _ hfail _ (List.mem_singleton_self _)
  refine ⟨hfail, (hquotes.filled fun hnests => ?_).trans rfl⟩
  have hinside := (Failure.nests_scalarRejected_iff _ _ _ _ (by decide)).mp hnests
  exact not_placeOf_infix_of_notMem (by decide) hinside

/-- A text that holds a place gets the detail put into it. -/
theorem coerce_quotesParams_detail :
    coerce anything .empty (.named (.builtin .int)) (.string "\x7bdetail\x7d") [] =
        .ok (.fail [notInt "\"\x7bdetail\x7d\""]) ∧
      (notInt "\"\x7bdetail\x7d\"").reason ≠ (notInt "\"\x7bdetail\x7d\"").filled := by
  refine ⟨(coerce_scalar rfl rfl _).trans rfl, ?_⟩
  have hreason : (notInt "\"\x7bdetail\x7d\"").reason =
      "Expected type Int, found \"Int cannot represent non-integer value \"\x7bdetail\x7d\"\": " ++
        "\x7bdetail\x7d" := rfl
  have hfilled : (notInt "\"\x7bdetail\x7d\"").filled =
      "Expected type Int, found \"\x7bdetail\x7d\": " ++
        "Int cannot represent non-integer value \"\x7bdetail\x7d\"" := rfl
  rw [hreason, hfilled]
  decide

end Coercion

end TypedQuery
