import TypedQuery.Proofs.Coercion.Parts
import TypedQuery.Proofs.Coercion.Substitution

/-!
# Coercion is local

What a coercion says of a position inside is what the coercion of that position alone says.

* `SubPosition`: the positions inside a position, however deep;
* `coerce_part`: one step inside;
* `coerce_subPosition`: at every depth the failures are those of the position, in order, and its
  value stands in its place;
* `coerce_done_iff`: the whole is done exactly if everything inside is and nothing fails in itself;
* `hasTextlessLeaf_of_coerceAt`: what cannot be shown is in a leaf;
* `coerce_local`: all this together, and `coerce_local_mute`: what happens otherwise.
-/

namespace TypedQuery

/-- Whether a failure lies under a path. -/
def Failure.liesUnder (path : Path) (f : Failure) : Bool := path.isPrefixOf f.path

theorem Failure.liesUnder_iff {path : Path} {f : Failure} :
    f.liesUnder path = true ↔ path <+: f.path :=
  List.isPrefixOf_iff_prefix

theorem append_prefix_left {p q r : Path} (h : (p ++ q) <+: r) : p <+: r :=
  (List.prefix_append p q).trans h

/-- From one path no two steps lead towards the same place. -/
theorem step_unique {path r : Path} {step step' : Segment} (h : (path ++ [step]) <+: r)
    (h' : (path ++ [step']) <+: r) : step = step' := by
  obtain ⟨rest, rfl⟩ := h
  obtain ⟨rest', h'⟩ := h'
  rw [List.append_assoc, List.append_assoc] at h'
  exact ((List.cons.inj (List.append_cancel_left h')).1).symm

/-! ## Lists of outcomes -/

theorem Outcome.eq_map_done {α : Type} {os : List (Outcome α)}
    (h : os.flatMap failures = []) (hne : ∀ o ∈ os, o ≠ .fail []) :
    ∃ ws : List α, os = ws.map .done := by
  induction os with
  | nil => exact ⟨[], rfl⟩
  | cons o os ih =>
    rw [List.flatMap_cons, List.append_eq_nil_iff] at h
    obtain ⟨ws, rfl⟩ := ih h.2 fun o ho => hne o (List.mem_cons_of_mem _ ho)
    cases o with
    | done w => exact ⟨w :: ws, rfl⟩
    | fail fs => exact absurd (congrArg Outcome.fail h.1) (hne _ (List.mem_cons_self ..))

namespace Coercion

theorem mapM_eq_ok_map_done {α β : Type} {f : α → Except Fault (Outcome β)} {xs : List α}
    (h : ∀ x ∈ xs, ∃ w, f x = .ok (.done w)) :
    ∃ ws : List β, xs.mapM f = .ok (ws.map .done) ∧ ws.length = xs.length := by
  induction xs with
  | nil => exact ⟨[], rfl, rfl⟩
  | cons x xs ih =>
    obtain ⟨w, hw⟩ := h x (List.mem_cons_self ..)
    obtain ⟨ws, hws, hlength⟩ := ih fun y hy => h y (List.mem_cons_of_mem _ hy)
    exact ⟨w :: ws, mapM_cons_eq_ok_iff.mpr ⟨_, _, hw, hws, rfl⟩, by simp [hlength]⟩

variable {ν : Type} {g : TypeGraph ν} {ctx : Context ν}

theorem coercePart_ne_fail_nil (path : Path) (part : Part ν) :
    coercePart g ctx path part ≠ .ok (.fail []) :=
  coerceAt_ne_fail_nil _ _ _

/-- Of the failures of all parts, those under the path of one part are its own. -/
theorem filter_failures_of_parts {path : Path} {ps : List (Part ν)}
    {os : List (Outcome (Option Value))}
    (h : List.Forall₂ (fun part o => coercePart g ctx path part = .ok o) ps os)
    (hn : (ps.map Part.step).Nodup) {part : Part ν} (hpart : part ∈ ps) :
    ∃ o, coercePart g ctx path part = .ok o ∧
      (os.flatMap Outcome.failures).filter (Failure.liesUnder (path ++ [part.step])) =
        o.failures := by
  induction h with
  | nil => cases hpart
  | @cons p o ps os ho hos ih =>
    rw [List.map_cons, List.nodup_cons] at hn
    obtain ⟨hp, hps⟩ := hn
    rw [List.flatMap_cons, List.filter_append]
    rcases List.mem_cons.mp hpart with rfl | hpart
    · refine ⟨o, ho, ?_⟩
      have hown : o.failures.filter (Failure.liesUnder (path ++ [part.step])) = o.failures :=
        List.filter_eq_self.mpr fun f hf => Failure.liesUnder_iff.mpr (prefix_of_mem_failures ho hf)
      have hothers : (os.flatMap Outcome.failures).filter
          (Failure.liesUnder (path ++ [part.step])) = [] := by
        refine List.filter_eq_nil_iff.mpr fun f hf hunder => hp ?_
        obtain ⟨o', ho', hf⟩ := List.mem_flatMap.mp hf
        obtain ⟨p', hp', hcoerce⟩ := exists_left_of_forall₂ hos ho'
        have hstep : part.step = p'.step :=
          step_unique (Failure.liesUnder_iff.mp hunder) (prefix_of_mem_failures hcoerce hf)
        exact hstep ▸ List.mem_map_of_mem hp'
      rw [hown, hothers, List.append_nil]
    · obtain ⟨o', ho', hfilter⟩ := ih hps hpart
      refine ⟨o', ho', ?_⟩
      have hother : o.failures.filter (Failure.liesUnder (path ++ [part.step])) = [] := by
        refine List.filter_eq_nil_iff.mpr fun f hf hunder => hp ?_
        have hstep : p.step = part.step :=
          step_unique (prefix_of_mem_failures ho hf) (Failure.liesUnder_iff.mp hunder)
        exact hstep ▸ List.mem_map_of_mem hpart
      rw [hother, List.nil_append, hfilter]

/-! ## One step inside -/

/-- What a coercion says of a part is what the coercion of the part alone says. -/
theorem coerce_part (hc : ctx.HasConstantDefaults) {type : TypeRef (TypeId ν)} {raw : Raw}
    {path : Path} {o : Outcome (Option Value)} (h : coerce g ctx type raw path = .ok o)
    {part : Part ν} (hpart : part ∈ parts g ctx type raw) :
    ∃ o', coercePart g ctx path part = .ok o' ∧
      o.failures.filter (Failure.liesUnder (path ++ [part.step])) = o'.failures ∧
      ∀ v, o = .done v → ∃ x w, v = some x ∧ o' = .done w ∧
        x.child? part.step = appearance [part.step] w := by
  rcases coerce_shape hc type raw path with ⟨hnone, _⟩ | ⟨gather, hgather, hcoerce⟩
  · rw [hnone] at hpart
    cases hpart
  · rw [hcoerce] at h
    obtain ⟨os, hos, rfl⟩ := map_eq_ok_iff.mp h
    rw [mapM_eq_ok_iff] at hos
    have hlength := hos.length_eq.symm
    obtain ⟨o', ho', hfilter⟩ := filter_failures_of_parts hos (nodup_steps g ctx type raw) hpart
    refine ⟨o', ho', (hgather.failures os hlength) ▸ hfilter, fun v hv => ?_⟩
    have hne := ne_fail_nil_of_forall₂ hos (coercePart_ne_fail_nil path)
    obtain ⟨ws, rfl⟩ := Outcome.eq_map_done (by rw [← hgather.failures os hlength, hv]; rfl) hne
    rw [List.length_map] at hlength
    obtain ⟨x, hx, hchild⟩ := hgather.done ws hlength
    rw [List.forall₂_map_right_iff] at hos
    have hboth := List.Forall₂.mp (fun _ _ => And.intro) hos hchild
    obtain ⟨w, _, hw, hplace⟩ := exists_right_of_forall₂ hboth hpart
    obtain rfl := Except.ok.inj (ho'.symm.trans hw)
    exact ⟨x, w, Outcome.done.inj (hv.symm.trans hx), rfl, hplace⟩

/-- If all parts are done, only the position itself can stand in the way. -/
theorem isLeafResult_of_parts_done (hc : ctx.HasConstantDefaults) {type : TypeRef (TypeId ν)}
    {raw : Raw} {path : Path}
    (h : ∀ part ∈ parts g ctx type raw, ∃ w, coercePart g ctx path part = .ok (.done w)) :
    IsLeafResult path (coerce g ctx type raw path) := by
  rcases coerce_shape hc type raw path with ⟨_, hleaf⟩ | ⟨gather, hgather, hcoerce⟩
  · exact hleaf
  · obtain ⟨ws, hws, hlength⟩ := mapM_eq_ok_map_done h
    obtain ⟨v, hv, _⟩ := hgather.done ws hlength
    exact Or.inl ⟨some v, by rw [hcoerce, hws]; exact congrArg _ hv⟩

/-! ## Every depth -/

/-- The positions inside a position, each with the path that leads to it. -/
inductive SubPosition (g : TypeGraph ν) (ctx : Context ν) :
    TypeRef (TypeId ν) → Raw → Path → TypeRef (TypeId ν) → Raw → Prop
  | here (type : TypeRef (TypeId ν)) (raw : Raw) : SubPosition g ctx type raw [] type raw
  | step {type : TypeRef (TypeId ν)} {raw : Raw} {part : Part ν} {path : Path}
      {type' : TypeRef (TypeId ν)} {raw' : Raw} (hpart : part ∈ parts g ctx type raw)
      (h : SubPosition g ctx part.type part.raw path type' raw') :
      SubPosition g ctx type raw (part.step :: path) type' raw'

/-- What a value holds at the end of a path. -/
def valueAt : Option Value → Path → Option Value
  | v, [] => v
  | v, step :: path => valueAt (v.bind (·.child? step)) path

/-- At every depth the failures are those of the position alone, and its value has its place. -/
theorem coerce_subPosition (hc : ctx.HasConstantDefaults) {type type' : TypeRef (TypeId ν)}
    {raw raw' : Raw} {path inner : Path} {o : Outcome (Option Value)}
    (h : coerce g ctx type raw path = .ok o) (hsub : SubPosition g ctx type raw inner type' raw') :
    ∃ o', coerce g ctx type' raw' (path ++ inner) = .ok o' ∧
      o.failures.filter (Failure.liesUnder (path ++ inner)) = o'.failures ∧
      ∀ v, o = .done v → ∃ w, o' = .done w ∧ valueAt v inner = appearance inner w := by
  induction hsub generalizing path o with
  | here type raw =>
    rw [List.append_nil]
    refine ⟨o, h, ?_, fun v hv => ⟨v, hv, rfl⟩⟩
    exact List.filter_eq_self.mpr fun f hf =>
      Failure.liesUnder_iff.mpr (prefix_of_mem_failures h hf)
  | @step type raw part inner type' raw' hpart hsub ih =>
    obtain ⟨o₁, ho₁, hfilter₁, hdone₁⟩ := coerce_part hc h hpart
    obtain ⟨o', ho', hfilter', hdone'⟩ := ih ho₁
    rw [List.append_assoc, List.singleton_append] at ho' hfilter'
    refine ⟨o', ho', ?_, fun v hv => ?_⟩
    · rw [← hfilter', ← hfilter₁, List.filter_filter]
      refine List.filter_congr fun f _ => ?_
      cases hunder : f.liesUnder (path ++ part.step :: inner) with
      | false => rfl
      | true =>
        have hstep : f.liesUnder (path ++ [part.step]) = true := by
          rw [Failure.liesUnder_iff] at hunder ⊢
          refine append_prefix_left (q := inner) ?_
          simpa using hunder
        simp [hstep]
    · obtain ⟨x, w₁, rfl, hw₁, hchild⟩ := hdone₁ v hv
      obtain ⟨w, hw, hvalue⟩ := hdone' w₁ hw₁
      refine ⟨w, hw, ?_⟩
      change valueAt (x.child? part.step) inner = _
      rw [hchild]
      cases hsub with
      | here => exact congrArg _ hvalue
      | step hpart' hsub' =>
        obtain ⟨_, _, _, hdone₂⟩ := coerce_part hc ho₁ hpart'
        obtain ⟨x₁, _, rfl, _⟩ := hdone₂ w₁ hw₁
        rw [appearance_some, hvalue, appearance_cons (List.cons_ne_nil _ _)]

/-! ## What cannot be shown -/

/-- A leaf inside a position has to show something that has no text. -/
def HasTextlessLeaf (g : TypeGraph ν) (ctx : Context ν) (type : TypeRef (TypeId ν)) (raw : Raw)
    (path : Path) : Prop :=
  ∃ inner type' raw', SubPosition g ctx type raw inner type' raw' ∧
    parts g ctx type' raw' = [] ∧ coerce g ctx type' raw' (path ++ inner) = .error .textless

theorem HasTextlessLeaf.here {type : TypeRef (TypeId ν)} {raw : Raw} {path : Path}
    (hparts : parts g ctx type raw = []) (h : coerce g ctx type raw path = .error .textless) :
    HasTextlessLeaf g ctx type raw path :=
  ⟨[], type, raw, .here type raw, hparts, by rwa [List.append_nil]⟩

theorem HasTextlessLeaf.of_part {type : TypeRef (TypeId ν)} {raw : Raw} {path : Path}
    {part : Part ν} (hpart : part ∈ parts g ctx type raw)
    (h : HasTextlessLeaf g ctx part.type part.raw (path ++ [part.step])) :
    HasTextlessLeaf g ctx type raw path := by
  obtain ⟨inner, type', raw', hsub, hparts, hcoerce⟩ := h
  rw [List.append_assoc, List.singleton_append] at hcoerce
  exact ⟨part.step :: inner, type', raw', .step hpart hsub, hparts, hcoerce⟩

theorem HasTextlessLeaf.congr {type type₂ : TypeRef (TypeId ν)} {raw raw₂ : Raw} {path : Path}
    (hparts : parts g ctx type raw = parts g ctx type₂ raw₂)
    (hcoerce : coerce g ctx type raw path = coerce g ctx type₂ raw₂ path)
    (h : HasTextlessLeaf g ctx type₂ raw₂ path) : HasTextlessLeaf g ctx type raw path := by
  obtain ⟨inner, type', raw', hsub, hleaf, htext⟩ := h
  cases hsub with
  | here =>
    rw [List.append_nil] at htext
    exact .here (hparts.trans hleaf) (hcoerce.trans htext)
  | step hpart hsub => exact ⟨_, _, _, .step (hparts ▸ hpart) hsub, hleaf, htext⟩

/-- If a coercion cannot show something, neither can one of the leaves inside. -/
theorem hasTextlessLeaf_of_coerceAt (hc : ctx.HasConstantDefaults) {hops defaults : Nat}
    {type : TypeRef (TypeId ν)} {raw : Raw} {path : Path}
    (h : coerceAt g ctx hops defaults type raw path = .error .textless) :
    HasTextlessLeaf g ctx type raw path := by
  induction hops, defaults, type, raw using coercion_induction g ctx generalizing path with
  | reference hops defaults type name ih =>
    rw [coerceAt_variable] at h
    have hcoerce := coerce_variable (g := g) hc.settled type name path
    cases hr : ctx.reading g name type path with
    | error failure =>
      rw [hr] at h
      cases h
    | ok stand =>
      rw [hr] at h hcoerce
      obtain rfl := Context.reading_eq_ok g hr
      cases hops with
      | zero => cases h
      | succ hops => exact .congr (parts_variable hc.settled type name) hcoerce (ih hops rfl h)
  | absent hops defaults type =>
    rw [coerceAt_absent] at h
    cases h
  | null hops defaults type raw hn =>
    rw [coerceAt_null _ _ _ _ hn] at h
    cases h
  | required hops defaults inner raw hp ih =>
    rw [coerceAt_required _ _ _ _ hp] at h
    have hparts : parts g ctx (.required inner) raw = parts g ctx inner raw := rfl
    exact .congr hparts (coerce_required hc.settled hp inner path) (ih h)
  | list hops defaults item raw hp ih =>
    rw [coerceAt_list _ _ _ _ hp] at h
    have hparts : parts g ctx (.list item) raw = _ := parts_list hp item
    have hcoerce := coerce_list (g := g) hc.settled hp item path
    cases hitems : raw.items? with
    | none =>
      rw [hitems] at h hparts hcoerce
      exact .here hparts (hcoerce.trans h)
    | some items =>
      rw [hitems] at h hparts
      obtain ⟨p, hpi, hitem⟩ := exists_of_mapM_eq_error (map_eq_error_iff.mp h)
      have hpart : itemPart item p ∈ parts g ctx (.list item) raw :=
        hparts ▸ List.mem_map_of_mem hpi
      exact .of_part hpart (ih items hitems p.1 (List.fst_mem_of_mem_zipIdx hpi) hitem)
  | scalar hops defaults id s raw hp hd =>
    rw [coerceAt_scalar _ _ _ _ hp hd] at h
    exact .here (parts_scalar hp hd) ((coerce_scalar hp hd path).trans h)
  | enum hops defaults id e raw hp hd =>
    rw [coerceAt_enum _ _ _ _ hp hd] at h
    exact .here (parts_enum hp hd) ((coerce_enum hp hd path).trans h)
  | input hops defaults id o raw hp hd ih ihd =>
    rw [coerceAt_input _ _ _ _ hp hd] at h
    have hparts : parts g ctx (.named id) raw = _ := parts_input hp hd
    have hcoerce := coerce_input (g := g) hc.settled hp hd path
    cases hobject : raw.isObject with
    | false =>
      rw [hobject] at h hparts hcoerce
      exact .here hparts (hcoerce.trans h)
    | true =>
      rw [hobject, if_pos rfl] at h hparts
      obtain ⟨f, hf, hfield⟩ := exists_of_mapM_eq_error (map_eq_error_iff.mp h)
      rw [map_eq_error_iff, coerceField] at hfield
      have hpart : fieldPart ctx raw f ∈ parts g ctx (.named id) raw :=
        hparts ▸ List.mem_map_of_mem hf
      refine .of_part hpart ?_
      unfold fieldPart
      rcases fallbackFor?_cases ctx f.2 (raw.field f.1) with ⟨hn, _⟩ | ⟨v, _, hv, hn⟩
      · rw [hn] at hfield ⊢
        exact ih hobject f hf hfield
      · rw [hn] at hfield ⊢
        cases defaults with
        | zero => cases hfield
        | succ d => exact ihd f hf v hv d rfl hfield

/-! ## Locality -/

/-- The whole is done exactly if everything inside is done, nothing fails at its own path, and
nothing is left that cannot be shown. -/
theorem coerce_done_iff (hc : ctx.HasConstantDefaults) (type : TypeRef (TypeId ν)) (raw : Raw)
    (path : Path) :
    (∃ v, coerce g ctx type raw path = .ok (.done v)) ↔
      (∀ inner type' raw', inner ≠ [] → SubPosition g ctx type raw inner type' raw' →
        ∃ w, coerce g ctx type' raw' (path ++ inner) = .ok (.done w)) ∧
      (∀ o, coerce g ctx type raw path = .ok o → ∀ f ∈ o.failures, f.path ≠ path) ∧
      coerce g ctx type raw path ≠ .error .textless := by
  constructor
  · rintro ⟨v, hv⟩
    refine ⟨fun inner type' raw' _ hsub => ?_, fun o ho f hf => ?_, ?_⟩
    · obtain ⟨o', ho', _, hdone⟩ := coerce_subPosition hc hv hsub
      obtain ⟨w, rfl, _⟩ := hdone v rfl
      exact ⟨w, ho'⟩
    · obtain rfl := Except.ok.inj (hv.symm.trans ho)
      cases hf
    · rw [hv]
      exact fun h => nomatch h
  · rintro ⟨hinside, hown, htext⟩
    have hparts : ∀ part ∈ parts g ctx type raw,
        ∃ w, coercePart g ctx path part = .ok (.done w) := fun part hpart =>
      hinside [part.step] _ _ (List.cons_ne_nil _ _) (.step hpart (.here _ _))
    rcases isLeafResult_of_parts_done hc hparts with hdone | ⟨fs, hfail, f, hf, hpath⟩ | ht
    · exact hdone
    · exact absurd hpath (hown _ hfail f hf)
    · exact absurd ht htext

/-- **Coercion is local.** Where a coercion has an outcome, the failures under the path of a
position inside, at any depth, are in order those of the position alone, no failing is without a
failure, and the values stand in their places; the whole is done exactly if everything inside is
done and nothing fails in itself, and lists keep their length. Only a leaf that has to show what
has no text leaves the whole without an outcome where it would otherwise have one. -/
theorem coerce_local (hc : ctx.HasConstantDefaults) (type : TypeRef (TypeId ν)) (raw : Raw)
    (path : Path) :
    (∀ o, coerce g ctx type raw path = .ok o → o ≠ .fail [] ∧
      ∀ inner type' raw', SubPosition g ctx type raw inner type' raw' →
        ∃ o', coerce g ctx type' raw' (path ++ inner) = .ok o' ∧
          o.failures.filter (Failure.liesUnder (path ++ inner)) = o'.failures ∧
          ∀ v, o = .done v → ∃ w, o' = .done w ∧ valueAt v inner = appearance inner w) ∧
    ((∃ v, coerce g ctx type raw path = .ok (.done v)) ↔
      (∀ inner type' raw', inner ≠ [] → SubPosition g ctx type raw inner type' raw' →
        ∃ w, coerce g ctx type' raw' (path ++ inner) = .ok (.done w)) ∧
      (∀ o, coerce g ctx type raw path = .ok o → ∀ f ∈ o.failures, f.path ≠ path) ∧
      coerce g ctx type raw path ≠ .error .textless) ∧
    (∀ item items v, type.core = .list item → (ctx.stand raw).items? = some items →
      coerce g ctx type raw path = .ok (.done v) →
      ∃ vs, v = some (.list vs) ∧ vs.length = items.length) ∧
    (coerce g ctx type raw path = .error .textless → HasTextlessLeaf g ctx type raw path) := by
  refine ⟨fun o ho => ⟨?_, fun inner type' raw' hsub => ?_⟩, ?_, ?_, ?_⟩
  · rintro rfl
    exact coerceAt_ne_fail_nil _ _ _ ho
  · exact coerce_subPosition hc ho hsub
  · exact coerce_done_iff hc type raw path
  · exact fun item items v htype hitems h => length_of_coerce_list hc.settled htype hitems h
  · exact hasTextlessLeaf_of_coerceAt hc

theorem mem_parts_box :
    (⟨.field "label", .required (.named (.builtin .string)), .variable "label"⟩ : Part BoxType) ∈
      parts boxes labelled (.named (.declared .box)) (.object [("label", .variable "label")]) :=
  List.mem_cons_self ..

theorem coerce_local_label :
    coerce boxes labelled (.required (.named (.builtin .string))) (.variable "label")
      [.field "label"] = .ok (.done (some (.string "small"))) := by
  obtain ⟨_, hinside⟩ := (coerce_local labelled_hasConstantDefaults _ _ _).1 _ (coerce_box [])
  obtain ⟨o', ho', _, hdone⟩ := hinside [.field "label"] _ _ (.step mem_parts_box (.here _ _))
  obtain ⟨w, rfl, hw⟩ := hdone _ rfl
  have hlabel : w = some (.string "small") := hw.symm
  rw [hlabel] at ho'
  exact ho'

/-- The failure of the second item is lost, as that of the first cannot be shown. -/
theorem coerce_local_mute :
    SubPosition boxes .empty (.list (.list (.named (.builtin .int))))
        (.external (.list [mute, .boolean true])) [.index 1] (.list (.named (.builtin .int)))
        (.external (.boolean true)) ∧
      coerce boxes .empty (.list (.named (.builtin .int))) (.external (.boolean true)) [.index 1] =
        .ok (.fail [.shapeMismatch [.index 1] "a list" "[Int]" "true"]) ∧
      coerce boxes .empty (.list (.list (.named (.builtin .int))))
        (.external (.list [mute, .boolean true])) [] = .error .textless := by
  have hs : Context.HasSettledDefaults (.empty : Context BoxType) := fun _ _ h => by cases h
  have hfirst : coerce boxes .empty (.list (.named (.builtin .int))) (.external mute) [.index 0] =
      .error .textless := (coerce_list hs rfl _ _).trans rfl
  have hpart : (⟨.index 1, .list (.named (.builtin .int)), .external (.boolean true)⟩ :
      Part BoxType) ∈ parts boxes .empty (.list (.list (.named (.builtin .int))))
        (.external (.list [mute, .boolean true])) :=
    List.mem_cons_of_mem _ (List.mem_cons_self ..)
  refine ⟨.step hpart (.here _ _), (coerce_list hs rfl _ _).trans rfl, ?_⟩
  rw [coerce_list hs rfl]
  refine map_eq_error_iff.mpr ?_
  change List.mapM _ (_ :: _) = _
  rw [List.mapM_cons]
  exact congrArg (fun x : Coerced => x >>= _) hfirst

end Coercion

end TypedQuery
