import Mathlib.Data.List.Nodup
import TypedQuery.Coercion.Basic
import TypedQuery.Proofs.Members
import TypedQuery.Proofs.Traversal

/-!
# Gathering the outcomes of parts

Coercion visits the parts of a list or of an object one after the other and gathers what it got.

* `failures_gatherItems`, `failures_gatherMembers`: no failure is lost and none is added;
* `gatherItems_eq_done_iff`, `gatherMembers_eq_done_iff`: the whole is done exactly if each part is;
* `mapM_gatherMembers_eq_done_iff`: the same for parts that are visited and gathered;
* `keys_present_sublist`, `of_mem_present`, `mem_keys_present`: the members that are gathered.
-/

namespace TypedQuery

/-! ## Outcomes -/

namespace Outcome

variable {α β : Type}

theorem failures_map (f : α → β) (o : Outcome α) : (o.map f).failures = o.failures := by
  cases o <;> rfl

theorem map_ne_fail_nil {o : Outcome α} (h : o ≠ .fail []) (f : α → β) : o.map f ≠ .fail [] := by
  cases o with
  | done v => simp [map]
  | fail fs => simpa [map] using h

theorem map_eq_done_iff {f : α → β} {o : Outcome α} {w : β} :
    o.map f = .done w ↔ ∃ v, o = .done v ∧ f v = w := by
  cases o <;> simp [map]

theorem failures_combine (outcomes : List (Outcome α)) :
    (combine outcomes).failures = outcomes.flatMap failures := by
  unfold combine
  cases h : outcomes.flatMap failures <;> rfl

theorem combine_ne_fail_nil (outcomes : List (Outcome α)) : combine outcomes ≠ .fail [] := by
  unfold combine
  cases h : outcomes.flatMap failures <;> simp

end Outcome

/-- Steps that never fail without a failure leave none such behind. -/
theorem ne_fail_nil_of_forall₂ {α β : Type} {f : α → Except Fault (Outcome β)} {xs : List α}
    {os : List (Outcome β)} (h : List.Forall₂ (fun x o => f x = .ok o) xs os)
    (hne : ∀ x, f x ≠ .ok (.fail [])) : ∀ o ∈ os, o ≠ .fail [] := by
  rintro o ho rfl
  obtain ⟨x, _, hx⟩ := exists_left_of_forall₂ h ho
  exact hne x hx

/-! ## Items and members -/

namespace Coercion

theorem failures_gatherItems (outcomes : List (Outcome (Option Value))) :
    (gatherItems outcomes).failures = outcomes.flatMap Outcome.failures := by
  rw [gatherItems, Outcome.failures_map, Outcome.failures_combine]

theorem failures_gatherMembers (outcomes : List (String × Outcome (Option Value))) :
    (gatherMembers outcomes).failures = outcomes.flatMap fun o => o.2.failures := by
  simp only [gatherMembers, Outcome.failures_map, Outcome.failures_combine, List.flatMap_map]

theorem gatherItems_ne_fail_nil (outcomes : List (Outcome (Option Value))) :
    gatherItems outcomes ≠ .fail [] :=
  Outcome.map_ne_fail_nil (Outcome.combine_ne_fail_nil _) _

theorem gatherMembers_ne_fail_nil (outcomes : List (String × Outcome (Option Value))) :
    gatherMembers outcomes ≠ .fail [] :=
  Outcome.map_ne_fail_nil (Outcome.combine_ne_fail_nil _) _

/-- Items give a list exactly if each of them is done; the list has as many, and null for the
absent ones. -/
theorem gatherItems_eq_done_iff {outcomes : List (Outcome (Option Value))}
    (h : ∀ o ∈ outcomes, o ≠ .fail []) {v : Option Value} :
    gatherItems outcomes = .done v ↔
      ∃ values : List (Option Value), outcomes = values.map .done ∧
        v = some (.list (values.map fun w => w.getD .null)) := by
  unfold gatherItems
  rw [Outcome.map_eq_done_iff]
  constructor
  · rintro ⟨values, hv, rfl⟩
    exact ⟨values, (Outcome.combine_eq_done_iff h values).mp hv, rfl⟩
  · rintro ⟨values, hv, rfl⟩
    exact ⟨values, (Outcome.combine_eq_done_iff h values).mpr hv, rfl⟩

theorem named_eq_done_iff (outcomes : List (String × Outcome (Option Value)))
    (named : List (Option (String × Value))) :
    (outcomes.map fun o => o.2.map fun v => v.map (o.1, ·)) = named.map .done ↔
      ∃ values : List (String × Option Value), outcomes = values.map (fun w => (w.1, .done w.2)) ∧
        named = values.map fun w => w.2.map (w.1, ·) := by
  induction outcomes generalizing named with
  | nil => simp
  | cons o rest ih =>
    obtain ⟨name, o⟩ := o
    constructor
    · intro h
      obtain ⟨m, named, rfl⟩ : ∃ m ms, named = m :: ms := by
        cases named with
        | nil => simp at h
        | cons m ms => exact ⟨m, ms, rfl⟩
      rw [List.map_cons, List.map_cons, List.cons.injEq, Outcome.map_eq_done_iff] at h
      obtain ⟨⟨v, rfl, rfl⟩, hrest⟩ := h
      obtain ⟨values, rfl, rfl⟩ := (ih named).mp hrest
      exact ⟨(name, v) :: values, rfl, rfl⟩
    · rintro ⟨values, hv, rfl⟩
      rw [hv]
      simp [Outcome.map]

/-- The members that are present among named values. -/
def presentMembers (values : List (String × Option Value)) : Members Value :=
  values.filterMap fun w => w.2.map (w.1, ·)

/-- Named outcomes give members exactly if each of them is done; the absent ones are left out. -/
theorem gatherMembers_eq_done_iff {outcomes : List (String × Outcome (Option Value))}
    (h : ∀ o ∈ outcomes, o.2 ≠ .fail []) {members : Members Value} :
    gatherMembers outcomes = .done members ↔
      ∃ values : List (String × Option Value), outcomes = values.map (fun w => (w.1, .done w.2)) ∧
        members = presentMembers values := by
  have hnamed : ∀ o ∈ outcomes.map (fun o => o.2.map fun v => v.map (o.1, ·)),
      o ≠ .fail [] := by
    intro o ho
    obtain ⟨o', ho', rfl⟩ := List.mem_map.mp ho
    exact Outcome.map_ne_fail_nil (h o' ho') _
  unfold gatherMembers
  rw [Outcome.map_eq_done_iff]
  constructor
  · rintro ⟨named, hn, rfl⟩
    obtain ⟨values, rfl, rfl⟩ :=
      (named_eq_done_iff _ named).mp ((Outcome.combine_eq_done_iff hnamed named).mp hn)
    exact ⟨values, rfl, by simp [presentMembers, List.filterMap_map]⟩
  · rintro ⟨values, rfl, rfl⟩
    refine ⟨_, (Outcome.combine_eq_done_iff hnamed _).mpr
      ((named_eq_done_iff _ _).mpr ⟨values, rfl, rfl⟩), ?_⟩
    simp [presentMembers, List.filterMap_map]

section Named

variable {α : Type} {F : String × α → Coerced} {xs : List (String × α)}

theorem mapM_named_eq_ok_iff {outcomes : List (String × Outcome (Option Value))} :
    (xs.mapM fun x => (F x).map (x.1, ·)) = .ok outcomes ↔
      List.Forall₂ (fun x o => x.1 = o.1 ∧ F x = .ok o.2) xs outcomes := by
  rw [mapM_eq_ok_iff]
  refine iff_of_eq (congrArg (fun R => List.Forall₂ R xs outcomes) ?_)
  funext x o
  obtain ⟨name, o⟩ := o
  cases F x <;> simp [Except.map]

/-- Named parts give members exactly if each of them is done. -/
theorem mapM_gatherMembers_eq_done_iff (h : ∀ x ∈ xs, F x ≠ .ok (.fail []))
    {members : Members Value} :
    (∃ outcomes, (xs.mapM fun x => (F x).map (x.1, ·)) = .ok outcomes ∧
        gatherMembers outcomes = .done members) ↔
      ∃ values : List (String × Option Value),
        List.Forall₂ (fun x w => x.1 = w.1 ∧ F x = .ok (.done w.2)) xs values ∧
        members = presentMembers values := by
  have hne : ∀ outcomes, (xs.mapM fun x => (F x).map (x.1, ·)) = .ok outcomes →
      ∀ o ∈ outcomes, o.2 ≠ .fail [] := by
    intro outcomes hok o ho hnil
    obtain ⟨x, hx, _, hf⟩ := exists_left_of_forall₂ (mapM_named_eq_ok_iff.mp hok) ho
    exact h x hx (hnil ▸ hf)
  constructor
  · rintro ⟨outcomes, hc, hd⟩
    obtain ⟨values, rfl, rfl⟩ := (gatherMembers_eq_done_iff (hne _ hc)).mp hd
    rw [mapM_named_eq_ok_iff, List.forall₂_map_right_iff] at hc
    exact ⟨values, hc, rfl⟩
  · rintro ⟨values, hf, rfl⟩
    have hc : (xs.mapM fun x => (F x).map (x.1, ·)) =
        .ok (values.map fun w => (w.1, .done w.2)) :=
      mapM_named_eq_ok_iff.mpr (List.forall₂_map_right_iff.mpr hf)
    exact ⟨_, hc, (gatherMembers_eq_done_iff (hne _ hc)).mpr ⟨values, rfl, rfl⟩⟩

end Named

theorem mem_presentMembers {values : List (String × Option Value)} {name : String} {v : Value} :
    (name, v) ∈ presentMembers values ↔ (name, some v) ∈ values := by
  simp [presentMembers]

/-- Under distinct names, what is gathered of a part is read under its name. -/
theorem get?_presentMembers {values : List (String × Option Value)}
    (hn : (values.map Prod.fst).Nodup) {name : String} {w : Option Value}
    (h : (name, w) ∈ values) : Members.get? (presentMembers values) name = w := by
  have hfun : ∀ w', (name, w') ∈ values → w' = w := fun w' hw' =>
    congrArg Prod.snd (List.inj_on_of_nodup_map hn hw' h rfl)
  cases hget : Members.get? (presentMembers values) name with
  | some v => exact hfun _ (mem_presentMembers.mp (Members.mem_of_get? hget))
  | none =>
    cases w with
    | none => rfl
    | some v =>
      refine absurd ?_ (Members.get?_eq_none_iff.mp hget)
      exact Members.mem_keys_of_mem (mem_presentMembers.mpr h)

section Present

variable {α : Type} {entries : List (String × α)} {values : List (String × Option Value)}
  {R : String × α → String × Option Value → Prop}

/-- What is gathered keeps the order in which it is declared. -/
theorem keys_present_sublist
    (h : List.Forall₂ (fun f w => f.1 = w.1 ∧ R f w) entries values) :
    (presentMembers values).keys.Sublist (Members.keys entries) := by
  induction h with
  | nil => exact List.Sublist.refl _
  | @cons f w fs ws hr _ ih =>
    obtain ⟨name, v⟩ := w
    obtain ⟨rfl, -⟩ := hr
    cases v with
    | none => exact ih.cons f.1
    | some v => exact ih.cons_cons f.1

theorem of_mem_present (hn : (Members.keys entries).Nodup)
    (h : List.Forall₂ (fun f w => f.1 = w.1 ∧ R f w) entries values) {f : String × α}
    (hf : f ∈ entries) {v : Value} (hv : (f.1, v) ∈ presentMembers values) :
    R f (f.1, some v) := by
  obtain ⟨f', hf', hname, hr⟩ := exists_left_of_forall₂ h (mem_presentMembers.mp hv)
  obtain rfl := List.inj_on_of_nodup_map hn hf' hf hname
  exact hr

theorem mem_keys_present (h : List.Forall₂ (fun f w => f.1 = w.1 ∧ R f w) entries values)
    {f : String × α} (hf : f ∈ entries) (hr : ¬ R f (f.1, none)) :
    f.1 ∈ (presentMembers values).keys := by
  obtain ⟨⟨name, v⟩, hw, rfl, hv⟩ := exists_right_of_forall₂ h hf
  cases v with
  | none => exact absurd hv hr
  | some v => exact List.mem_map.mpr ⟨_, mem_presentMembers.mpr hw, rfl⟩

end Present

end Coercion

end TypedQuery
