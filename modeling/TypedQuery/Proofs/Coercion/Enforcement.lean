import TypedQuery.Proofs.Coercion.Arguments
import TypedQuery.Proofs.Coercion.Locality
import TypedQuery.Proofs.Coercion.Required

/-!
# Enforcing required arguments

Without enforcement the required arguments that are omitted are left out instead of failing. Nothing
else changes: the two ways of coercing arguments differ by the failures of those.

* `omitted`, `others`: the arguments that are left out, and the rest;
* `missingArgument`: what enforcement tells of an omitted argument;
* `exists_filter_flatMap`: what comes from some of the parts, among what comes from all;
* `coerceArguments_enforced`: enforcement adds those failures, each once, and nothing else;
* `coerceArguments_enforced_mute`: what happens if another argument cannot be shown.
-/

namespace TypedQuery

/-! ## Parts of a traversal -/

/-- What comes from some of the parts can be picked out of what comes from all, if what comes from
a part tells whether it is one of them. -/
theorem exists_filter_flatMap {α β γ : Type} {R : α → β → Prop} {p : α → Bool} {q : γ → Bool}
    {tell : β → List γ} {xs : List α} {ys : List β} (h : List.Forall₂ R xs ys)
    (hq : ∀ x ∈ xs, ∀ y, R x y → ∀ f ∈ tell y, q f = p x) :
    ∃ zs, List.Forall₂ R (xs.filter p) zs ∧ (ys.flatMap tell).filter q = zs.flatMap tell := by
  induction h with
  | nil => exact ⟨[], .nil, rfl⟩
  | @cons x y xs ys hxy _ ih =>
    obtain ⟨zs, hzs, hfilter⟩ := ih fun x hx => hq x (List.mem_cons_of_mem _ hx)
    have hown := hq x (List.mem_cons_self ..) y hxy
    rw [List.flatMap_cons, List.filter_append, hfilter]
    cases hp : p x with
    | true =>
      refine ⟨y :: zs, ?_, ?_⟩
      · rw [List.filter_cons_of_pos hp]
        exact .cons hxy hzs
      · rw [List.flatMap_cons, List.filter_eq_self.mpr fun f hf => (hown f hf).trans hp]
    | false =>
      refine ⟨zs, ?_, ?_⟩
      · rwa [List.filter_cons_of_neg (by simp [hp])]
      · rw [List.filter_eq_nil_iff.mpr fun f hf => by simp [hown f hf, hp], List.nil_append]

theorem flatMap_eq_map_of_forall₂ {α β γ : Type} {R : α → β → Prop} {tell : β → List γ}
    {f : α → γ} {xs : List α} {ys : List β} (h : List.Forall₂ R xs ys)
    (hf : ∀ x ∈ xs, ∀ y, R x y → tell y = [f x]) : ys.flatMap tell = xs.map f := by
  induction h with
  | nil => rfl
  | @cons x y xs ys hxy _ ih =>
    rw [List.flatMap_cons, hf x (List.mem_cons_self ..) y hxy,
      ih fun x hx => hf x (List.mem_cons_of_mem _ hx), List.map_cons, List.singleton_append]

/-- Parts that succeed do not change how a traversal fails. -/
theorem mapM_filter_eq_error_iff {ε α β : Type} {f : α → Except ε β} {p : α → Bool} {xs : List α}
    (h : ∀ x ∈ xs, p x = false → ∃ y, f x = .ok y) {e : ε} :
    (xs.filter p).mapM f = .error e ↔ xs.mapM f = .error e := by
  induction xs with
  | nil => rfl
  | cons x xs ih =>
    have ih := ih fun y hy => h y (List.mem_cons_of_mem _ hy)
    cases hp : p x with
    | true =>
      rw [List.filter_cons_of_pos hp, List.mapM_cons, List.mapM_cons]
      simp only [bind_eq_error_iff, ih, pure, Except.pure, reduceCtorEq, and_false, exists_false,
        or_false]
    | false =>
      obtain ⟨y, hy⟩ := h x (List.mem_cons_self ..) hp
      rw [List.filter_cons_of_neg (by simp [hp]), ih, List.mapM_cons, hy]
      simp only [bind_eq_error_iff, pure, Except.pure, reduceCtorEq, and_false, exists_false,
        or_false, false_or, Except.ok.injEq, exists_eq_left']

theorem Outcome.eq_done_of_failures {α : Type} {o : Outcome α} (hne : o ≠ .fail [])
    (h : o.failures = []) : ∃ v, o = .done v := by
  cases o with
  | done v => exact ⟨v, rfl⟩
  | fail fs => exact absurd (congrArg Outcome.fail h) hne

theorem Outcome.eq_fail_of_failures {α : Type} {o : Outcome α} (h : o.failures ≠ []) :
    o = .fail o.failures := by
  cases o with
  | done v => exact absurd rfl h
  | fail fs => rfl

namespace Coercion

variable {ν : Type} {g : TypeGraph ν} {ctx : Context ν} {declared : Declared (Position ν)}
  {supplied : Members Raw}

/-! ## Omitted arguments -/

/-- Whether an argument is required and has no default, and nothing or an absence is supplied. -/
def isOmitted (supplied : Members Raw) (argument : String × Position ν) : Bool :=
  argument.2.type.isRequired && argument.2.fallback?.isNone &&
    (supplied.get? argument.1).all Raw.isAbsent

def omitted (declared : Declared (Position ν)) (supplied : Members Raw) :
    List (String × Position ν) :=
  declared.entries.filter (isOmitted supplied)

/-- The declarations of the arguments that are not omitted. -/
def others (declared : Declared (Position ν)) (supplied : Members Raw) : Declared (Position ν) where
  entries := declared.entries.filter fun a => !isOmitted supplied a
  distinct := (List.filter_sublist.map Prod.fst).nodup declared.distinct

/-- What enforcement tells of an omitted argument. -/
def missingArgument (g : TypeGraph ν) (argument : String × Position ν) : Failure :=
  .valueRequired [.field argument.1] (g.print argument.2.type) "nothing"

theorem isOmitted_iff {argument : String × Position ν} :
    isOmitted supplied argument = true ↔
      argument.2.type.isRequired = true ∧ argument.2.fallback? = none ∧
        suppliedRaw supplied argument.1 = .absent := by
  have habsent : (supplied.get? argument.1).all Raw.isAbsent = true ↔
      suppliedRaw supplied argument.1 = .absent := by
    rw [suppliedRaw]
    cases supplied.get? argument.1 with
    | none => simp
    | some raw => cases raw <;> simp [Raw.isAbsent]
  simp [isOmitted, habsent, and_assoc]

/-- Only omitted arguments are waived. -/
theorem isWaived_false_eq (argument : String × Position ν) :
    isWaived false argument.2 (suppliedRaw supplied argument.1) = isOmitted supplied argument := by
  rw [Bool.eq_iff_iff, isOmitted_iff, isWaived]
  cases suppliedRaw supplied argument.1 <;> simp [Raw.isAbsent, and_comm]

theorem coercePosition_of_isOmitted {argument : String × Position ν}
    (h : isOmitted supplied argument = true) :
    coercePosition g ctx argument.2 (suppliedRaw supplied argument.1) [.field argument.1] =
      .ok (.fail [missingArgument g argument]) := by
  obtain ⟨hreq, hfallback, habsent⟩ := isOmitted_iff.mp h
  have hnone : fallbackFor? ctx argument.2 .absent = none := by simp [fallbackFor?, hfallback]
  rw [habsent, coercePosition, hnone, Option.getD_none, coerce_absent, missing, if_pos hreq,
    missingArgument]

/-! ## With and without enforcement -/

/-- The outcome of one argument. -/
def coerceArgument (g : TypeGraph ν) (ctx : Context ν) (supplied : Members Raw)
    (argument : String × Position ν) : Coerced :=
  coercePosition g ctx argument.2 (suppliedRaw supplied argument.1) [.field argument.1]

def IsOutcomeOf (g : TypeGraph ν) (ctx : Context ν) (supplied : Members Raw)
    (argument : String × Position ν) (outcome : String × Outcome (Option Value)) : Prop :=
  argument.1 = outcome.1 ∧ coerceArgument g ctx supplied argument = .ok outcome.2

theorem argumentsToCoerce_true (declared : Declared (Position ν)) (supplied : Members Raw) :
    argumentsToCoerce declared supplied true =
      declared.entries.map fun a => (a.1, a.2, suppliedRaw supplied a.1) :=
  List.filter_eq_self.mpr fun _ _ => rfl

/-- Without enforcement the arguments that are not omitted are coerced. -/
theorem argumentsToCoerce_false (declared : Declared (Position ν)) (supplied : Members Raw) :
    argumentsToCoerce declared supplied false =
      argumentsToCoerce (others declared supplied) supplied true := by
  rw [argumentsToCoerce_true, argumentsToCoerce, List.filter_map]
  refine congrArg _ (List.filter_congr fun a _ => ?_)
  exact congrArg not (isWaived_false_eq a)

theorem coerceArguments_false (declared : Declared (Position ν)) (supplied : Members Raw) :
    coerceArguments g ctx declared supplied false =
      coerceArguments g ctx (others declared supplied) supplied true := by
  rw [coerceArguments_eq, coerceArguments_eq, argumentsToCoerce_false]

theorem coerceArguments_true (declared : Declared (Position ν)) (supplied : Members Raw) :
    coerceArguments g ctx declared supplied true =
      (declared.entries.mapM fun a => (coerceArgument g ctx supplied a).map (a.1, ·)).map
        fun outcomes => (gatherMembers outcomes).map Value.ofAssignments := by
  rw [coerceArguments_eq, argumentsToCoerce_true, List.mapM_map]
  rfl

theorem coerceArguments_true_eq_ok_iff {o : Outcome Value} :
    coerceArguments g ctx declared supplied true = .ok o ↔
      ∃ outcomes, List.Forall₂ (IsOutcomeOf g ctx supplied) declared.entries outcomes ∧
        (gatherMembers outcomes).map Value.ofAssignments = o := by
  rw [coerceArguments_true, map_eq_ok_iff]
  refine exists_congr fun outcomes => and_congr_left fun _ => ?_
  exact mapM_named_eq_ok_iff

/-- The omitted arguments have outcomes, so what leaves all without one is among the others. -/
theorem coerceArguments_others_eq_error_iff {e : Fault} :
    coerceArguments g ctx (others declared supplied) supplied true = .error e ↔
      coerceArguments g ctx declared supplied true = .error e := by
  rw [coerceArguments_true, coerceArguments_true, map_eq_error_iff, map_eq_error_iff]
  refine mapM_filter_eq_error_iff fun a _ hp => ⟨(a.1, .fail [missingArgument g a]), ?_⟩
  rw [coerceArgument, coercePosition_of_isOmitted (by simpa using hp)]
  rfl

/-- What is told of an argument is told under its name. -/
theorem prefix_of_mem_coerceArgument {a : String × Position ν} {o : Outcome (Option Value)}
    (h : coerceArgument g ctx supplied a = .ok o) {f : Failure} (hf : f ∈ o.failures) :
    [.field a.1] <+: f.path :=
  prefix_of_mem_failures h hf

/-- What is told of two arguments differs. -/
theorem eq_of_shared_path {a b : String × Position ν} (ha : a ∈ declared.entries)
    (hb : b ∈ declared.entries) {path : Path} (hpa : [.field a.1] <+: path)
    (hpb : [.field b.1] <+: path) : a = b := by
  have hname : Segment.field a.1 = .field b.1 := @step_unique [] path _ _ hpa hpb
  exact List.inj_on_of_nodup_map declared.distinct ha hb (Segment.field.inj hname)

/-- Whether a failure tells of an omitted argument. -/
def tellsOfOmitted (declared : Declared (Position ν)) (supplied : Members Raw) (f : Failure) :
    Bool :=
  (omitted declared supplied).any fun a => f.liesUnder [.field a.1]

/-- What is told of an argument tells of an omitted one exactly if the argument is. -/
theorem tellsOfOmitted_eq {a : String × Position ν} (ha : a ∈ declared.entries) {f : Failure}
    (hunder : [.field a.1] <+: f.path) :
    tellsOfOmitted declared supplied f = isOmitted supplied a := by
  rw [Bool.eq_iff_iff, tellsOfOmitted, List.any_eq_true]
  constructor
  · rintro ⟨b, hb, hbunder⟩
    obtain ⟨hb, homitted⟩ := List.mem_filter.mp hb
    rwa [eq_of_shared_path ha hb hunder (Failure.liesUnder_iff.mp hbunder)]
  · intro h
    exact ⟨a, List.mem_filter.mpr ⟨ha, h⟩, Failure.liesUnder_iff.mpr hunder⟩

section Failures

variable {outcomes : List (String × Outcome (Option Value))}
  (h : List.Forall₂ (IsOutcomeOf g ctx supplied) declared.entries outcomes)
include h

/-- Of each omitted argument its lack is told, and nothing else. -/
theorem filter_tellsOfOmitted :
    (outcomes.flatMap fun o => o.2.failures).filter (tellsOfOmitted declared supplied) =
      (omitted declared supplied).map (missingArgument g) := by
  obtain ⟨told, htold, hfilter⟩ : ∃ told,
      List.Forall₂ (IsOutcomeOf g ctx supplied) (omitted declared supplied) told ∧
        (outcomes.flatMap fun o => o.2.failures).filter (tellsOfOmitted declared supplied) =
          told.flatMap fun o => o.2.failures :=
    exists_filter_flatMap h fun _ ha _ ho _ hf =>
      tellsOfOmitted_eq ha (prefix_of_mem_coerceArgument ho.2 hf)
  rw [hfilter]
  refine flatMap_eq_map_of_forall₂ htold fun a ha o ⟨_, ho⟩ => ?_
  rw [coerceArgument, coercePosition_of_isOmitted (List.mem_filter.mp ha).2] at ho
  rw [← Except.ok.inj ho, Outcome.failures]

/-- What else is told is told of the others. -/
theorem exists_filter_not_tellsOfOmitted :
    ∃ rest, List.Forall₂ (IsOutcomeOf g ctx supplied) (others declared supplied).entries rest ∧
      (outcomes.flatMap fun o => o.2.failures).filter
          (fun f => !tellsOfOmitted declared supplied f) =
        rest.flatMap fun o => o.2.failures :=
  exists_filter_flatMap h fun _ ha _ ho _ hf =>
    congrArg _ (tellsOfOmitted_eq ha (prefix_of_mem_coerceArgument ho.2 hf))

end Failures

theorem failures_ofAssignments_gather (outcomes : List (String × Outcome (Option Value))) :
    ((gatherMembers outcomes).map Value.ofAssignments).failures =
      outcomes.flatMap fun o => o.2.failures := by
  rw [Outcome.failures_map, failures_gatherMembers]

/-- **What enforcement changes.** Without omitted arguments nothing. Without enforcement the others
are coerced alone, and have no outcome exactly if all arguments have none, for the same reason. If
each of the others has an outcome and an argument is omitted, enforcement fails: of each omitted
argument its lack is told, once, and what else is told, in order, is what is told without
enforcement, which is done if that is nothing. -/
theorem coerceArguments_enforced (g : TypeGraph ν) (ctx : Context ν)
    (declared : Declared (Position ν)) (supplied : Members Raw) :
    (omitted declared supplied = [] →
      coerceArguments g ctx declared supplied true =
        coerceArguments g ctx declared supplied false) ∧
    coerceArguments g ctx declared supplied false =
      coerceArguments g ctx (others declared supplied) supplied true ∧
    (∀ e, coerceArguments g ctx declared supplied true = .error e ↔
      coerceArguments g ctx declared supplied false = .error e) ∧
    (omitted declared supplied ≠ [] →
      (∀ a ∈ (others declared supplied).entries, ∃ o, coerceArgument g ctx supplied a = .ok o) →
      ∃ fs o, coerceArguments g ctx declared supplied true = .ok (.fail fs) ∧
        coerceArguments g ctx declared supplied false = .ok o ∧
        fs.filter (tellsOfOmitted declared supplied) =
          (omitted declared supplied).map (missingArgument g) ∧
        fs.filter (fun f => !tellsOfOmitted declared supplied f) = o.failures ∧
        (o.failures = [] → ∃ v, o = .done v)) := by
  refine ⟨fun hnone => ?_, coerceArguments_false declared supplied, fun e => ?_,
    fun hsome hothers => ?_⟩
  · have hall : (others declared supplied).entries = declared.entries :=
      List.filter_eq_self.mpr fun a ha => by
        simpa using List.filter_eq_nil_iff.mp hnone a ha
    rw [coerceArguments_false, coerceArguments_true, coerceArguments_true, hall]
  · rw [coerceArguments_false, coerceArguments_others_eq_error_iff]
  · have houtcomes : ∀ a ∈ declared.entries, ∃ o, IsOutcomeOf g ctx supplied a o := by
      intro a ha
      cases hp : isOmitted supplied a with
      | true => exact ⟨(a.1, _), rfl, coercePosition_of_isOmitted hp⟩
      | false =>
        obtain ⟨o, ho⟩ := hothers a (List.mem_filter.mpr ⟨ha, by simp [hp]⟩)
        exact ⟨(a.1, o), rfl, ho⟩
    obtain ⟨outcomes, h⟩ := exists_forall₂ houtcomes
    obtain ⟨rest, hrest, hfilter⟩ := exists_filter_not_tellsOfOmitted h
    have hlacks := filter_tellsOfOmitted h
    have hfails : ((gatherMembers outcomes).map Value.ofAssignments).failures ≠ [] := by
      intro hnil
      rw [← failures_ofAssignments_gather, hnil, List.filter_nil] at hlacks
      exact hsome (List.map_eq_nil_iff.mp hlacks.symm)
    refine ⟨outcomes.flatMap fun o => o.2.failures, (gatherMembers rest).map Value.ofAssignments,
      ?_, ?_, hlacks, ?_, ?_⟩
    · refine coerceArguments_true_eq_ok_iff.mpr ⟨outcomes, h, ?_⟩
      rw [Outcome.eq_fail_of_failures hfails, failures_ofAssignments_gather]
    · rw [coerceArguments_false]
      exact coerceArguments_true_eq_ok_iff.mpr ⟨rest, hrest, rfl⟩
    · rw [hfilter, failures_ofAssignments_gather]
    · exact Outcome.eq_done_of_failures
        (Outcome.map_ne_fail_nil (gatherMembers_ne_fail_nil rest) _)

/-! ## A required number and a list of labels -/

/-- The arguments of a field that takes a number and, perhaps, labels. -/
def numbered : Declared (Position Unit) :=
  .ofList [("number", ⟨.required (.named (.builtin .int)), none⟩),
    ("labels", ⟨.list (.named (.builtin .string)), none⟩)]

theorem others_numbered (raw : Raw) :
    omitted numbered [("labels", raw)] =
        [("number", ⟨.required (.named (.builtin .int)), none⟩)] ∧
      (others numbered [("labels", raw)]).entries =
        [("labels", ⟨.list (.named (.builtin .string)), none⟩)] :=
  ⟨rfl, rfl⟩

/-- A truth value is no list of labels, and no number is given. -/
theorem coerceArguments_enforced_numbered :
    ∃ fs, coerceArguments anything .empty numbered [("labels", .boolean true)] true =
        .ok (.fail fs) ∧
      fs.filter (tellsOfOmitted numbered [("labels", .boolean true)]) =
        [.valueRequired [.field "number"] "Int!" "nothing"] := by
  have hs : Context.HasSettledDefaults (.empty : Context Unit) := fun _ _ h => by cases h
  obtain ⟨homitted, hothers⟩ := others_numbered (.boolean true)
  have hall := coerceArguments_enforced anything .empty numbered [("labels", .boolean true)]
  obtain ⟨fs, o, hfail, -, hlacks, -⟩ := hall.2.2.2 (homitted ▸ List.cons_ne_nil _ _) fun a ha => by
    rw [hothers, List.mem_singleton] at ha
    subst ha
    exact ⟨_, (coerce_list hs rfl _ _).trans rfl⟩
  exact ⟨fs, hfail, hlacks⟩

/-- An instance that hides its writer is no list of labels either, but cannot be shown. -/
theorem coerceArguments_enforced_mute :
    omitted numbered [("labels", .external mute)] ≠ [] ∧
      coerceArguments anything .empty numbered [("labels", .external mute)] true =
        .error .textless := by
  have hs : Context.HasSettledDefaults (.empty : Context Unit) := fun _ _ h => by cases h
  obtain ⟨homitted, hothers⟩ := others_numbered (.external mute)
  have hlabels : coerceArgument anything .empty [("labels", .external mute)]
      ("labels", ⟨.list (.named (.builtin .string)), none⟩) = .error .textless :=
    (coerce_list hs rfl _ _).trans rfl
  refine ⟨homitted ▸ List.cons_ne_nil _ _, coerceArguments_others_eq_error_iff.mp ?_⟩
  rw [coerceArguments_true, hothers, List.mapM_cons, hlabels]
  rfl

end Coercion

end TypedQuery
