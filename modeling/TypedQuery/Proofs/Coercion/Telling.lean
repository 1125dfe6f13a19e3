import TypedQuery.Proofs.Coercion.Arguments
import TypedQuery.Proofs.Coercion.Budget
import TypedQuery.Proofs.Raw.Texts
import TypedQuery.Proofs.Types.Builtin

/-!
# What can be told

A failure shows the raw value that it is about. If everything that a coercion may have to show has
a text, no failure goes untold.

* `CanTell`: what scalars throw, what variables stand for and what is declared as a default has a
  text;
* `text?_inline`: then so has the input of every scalar;
* `coerceAt_ne_textless`, `coerceArguments_ne_textless`: and no coercion is stopped for want of a
  text.
-/

namespace TypedQuery

/-- If a position has a default, the default has a text. -/
def Position.ShowsDefault {ν : Type} (position : Position ν) : Prop :=
  ∀ v, position.fallback? = some v → v.literal? ≠ none

namespace Context

open Raw (text?_list_eq_none_iff text?_object_eq_none_iff)

section Inline

variable {look : String → Except Fault Inlined}

mutual

/-- A literal keeps its text if everything that takes the place of a reference has one. -/
theorem text?_inlineWith (hlook : ∀ name r, look name = .ok r → r.1.text? ≠ none) {raw : Raw}
    (h : raw.text? ≠ none) {r : Inlined} (hr : inlineWith look raw = .ok r) :
    r.1.text? ≠ none := by
  match raw with
  | .list items =>
    rw [inlineWith] at hr
    obtain ⟨p, hp, rfl⟩ := map_eq_ok_iff.mp hr
    have hitems : ∀ item ∈ items, item.text? ≠ none :=
      fun item hi hnone => h (text?_list_eq_none_iff.mpr ⟨item, hi, hnone⟩)
    intro hnone
    obtain ⟨item, hi, hnone⟩ := text?_list_eq_none_iff.mp hnone
    exact text?_inlineItems hlook hitems hp item hi hnone
  | .object fields =>
    rw [inlineWith] at hr
    obtain ⟨p, hp, rfl⟩ := map_eq_ok_iff.mp hr
    have hfields : ∀ f ∈ fields, f.2.text? ≠ none :=
      fun f hf hnone => h (text?_object_eq_none_iff.mpr ⟨f, hf, hnone⟩)
    intro hnone
    obtain ⟨f, hf, hnone⟩ := text?_object_eq_none_iff.mp hnone
    exact text?_inlineFields hlook hfields hp f hf hnone
  | .variable name => exact hlook name r hr
  | .int _ | .float _ | .string _ | .boolean _ | .enum _ | .null | .absent | .external _ =>
    obtain rfl := Except.ok.inj hr
    exact h

theorem text?_inlineItems (hlook : ∀ name r, look name = .ok r → r.1.text? ≠ none)
    {items : List Raw} (h : ∀ item ∈ items, item.text? ≠ none) {p : List Raw × List Failure}
    (hp : inlineItems look items = .ok p) : ∀ item ∈ p.1, item.text? ≠ none := by
  match items with
  | [] =>
    obtain rfl := Except.ok.inj hp
    exact fun item hi => absurd hi List.not_mem_nil
  | item :: rest =>
    rw [inlineItems] at hp
    obtain ⟨r, hr, hp⟩ := bind_eq_ok_iff.mp hp
    obtain ⟨q, hq, hp⟩ := bind_eq_ok_iff.mp hp
    obtain rfl := Except.ok.inj hp
    intro item' hi
    rcases List.mem_cons.mp hi with rfl | hi
    · split
      · exact Option.some_ne_none _
      · exact text?_inlineWith hlook (h item (List.mem_cons_self ..)) hr
    · exact text?_inlineItems hlook (fun i hi => h i (List.mem_cons_of_mem _ hi)) hq item' hi

theorem text?_inlineFields (hlook : ∀ name r, look name = .ok r → r.1.text? ≠ none)
    {fields : List (String × Raw)} (h : ∀ f ∈ fields, f.2.text? ≠ none)
    {p : List (String × Raw) × List Failure} (hp : inlineFields look fields = .ok p) :
    ∀ f ∈ p.1, f.2.text? ≠ none := by
  match fields with
  | [] =>
    obtain rfl := Except.ok.inj hp
    exact fun f hf => absurd hf List.not_mem_nil
  | (name, held) :: rest =>
    rw [inlineFields] at hp
    obtain ⟨r, hr, hp⟩ := bind_eq_ok_iff.mp hp
    obtain ⟨q, hq, hp⟩ := bind_eq_ok_iff.mp hp
    obtain rfl := Except.ok.inj hp
    have hrest := text?_inlineFields hlook (fun f hf => h f (List.mem_cons_of_mem _ hf)) hq
    intro f hf
    dsimp only at hf
    split at hf
    · exact hrest f hf
    · rcases List.mem_cons.mp hf with rfl | hf
      · exact text?_inlineWith hlook (h _ (List.mem_cons_self ..)) hr
      · exact hrest f hf

end

mutual

/-- A literal is without an end only as one of its references is. -/
theorem exists_of_inlineWith_eq_error {raw : Raw} {e : Fault}
    (h : inlineWith look raw = .error e) :
    ∃ name, .variable name ∈ raw.nodes ∧ look name = .error e := by
  match raw with
  | .list items =>
    rw [inlineWith, map_eq_error_iff] at h
    obtain ⟨name, hn, he⟩ := exists_of_inlineItems_eq_error h
    exact ⟨name, by rw [Raw.nodes]; exact List.mem_cons_of_mem _ hn, he⟩
  | .object fields =>
    rw [inlineWith, map_eq_error_iff] at h
    obtain ⟨name, hn, he⟩ := exists_of_inlineFields_eq_error h
    exact ⟨name, by rw [Raw.nodes]; exact List.mem_cons_of_mem _ hn, he⟩
  | .variable name => exact ⟨name, Raw.mem_nodes_self _, h⟩
  | .int _ | .float _ | .string _ | .boolean _ | .enum _ | .null | .absent | .external _ => cases h

theorem exists_of_inlineItems_eq_error {items : List Raw} {e : Fault}
    (h : inlineItems look items = .error e) :
    ∃ name, .variable name ∈ Raw.itemNodes items ∧ look name = .error e := by
  match items with
  | [] => cases h
  | item :: rest =>
    rw [inlineItems, bind_eq_error_iff] at h
    rcases h with h | ⟨r, _, h⟩
    · obtain ⟨name, hn, he⟩ := exists_of_inlineWith_eq_error h
      exact ⟨name, List.mem_append_left _ hn, he⟩
    · rcases bind_eq_error_iff.mp h with h | ⟨_, _, h⟩
      · obtain ⟨name, hn, he⟩ := exists_of_inlineItems_eq_error h
        exact ⟨name, List.mem_append_right _ hn, he⟩
      · cases h

theorem exists_of_inlineFields_eq_error {fields : List (String × Raw)} {e : Fault}
    (h : inlineFields look fields = .error e) :
    ∃ name, .variable name ∈ Raw.fieldNodes fields ∧ look name = .error e := by
  match fields with
  | [] => cases h
  | (_, held) :: rest =>
    rw [inlineFields, bind_eq_error_iff] at h
    rcases h with h | ⟨r, _, h⟩
    · obtain ⟨name, hn, he⟩ := exists_of_inlineWith_eq_error h
      exact ⟨name, List.mem_append_left _ hn, he⟩
    · rcases bind_eq_error_iff.mp h with h | ⟨_, _, h⟩
      · obtain ⟨name, hn, he⟩ := exists_of_inlineFields_eq_error h
        exact ⟨name, List.mem_append_right _ hn, he⟩
      · cases h

end

end Inline

variable {ν : Type} {g : TypeGraph ν} {ctx : Context ν}

/-- Whatever a coercion may have to show has a text. -/
structure CanTell (g : TypeGraph ν) (ctx : Context ν) : Prop where
  thrown : ∀ n s, g.declared n = .scalar s → ∀ raw t, s.parse raw = .thrown t → t.text? ≠ none
  stand : ∀ name, (ctx.standFor name).text? ≠ none
  fallback : ∀ position ∈ g.positions, position.ShowsDefault

theorem CanTell.text?_of_thrown (ht : ctx.CanTell g) {id : TypeId ν} {s : Scalar}
    (hs : g.describe id = .scalar s) {raw : Raw} {t : Thrown} (h : s.parse raw = .thrown t) :
    t.text? ≠ none := by
  cases id with
  | builtin b =>
    obtain rfl := NamedType.scalar.inj hs
    obtain rfl := Builtin.eq_textless_of_thrown h
    exact Option.some_ne_none _
  | declared n => exact ht.thrown n s hs raw t h

theorem text?_inlineVariable (ht : ctx.CanTell g) {path : Path} {hops : Nat} {name : String}
    {r : Inlined} (hr : inlineVariable g ctx path hops name = .ok r) : r.1.text? ≠ none := by
  induction hops generalizing name r with
  | zero => cases hr
  | succ hops ih =>
    have hstand := ht.stand name
    unfold inlineVariable at hr
    dsimp only at hr
    split at hr
    · next value hs =>
      obtain rfl := Except.ok.inj hr
      rwa [standFor_supplied hs] at hstand
    · next hs =>
      split at hr
      · next literal hd =>
        rw [standFor_default hs hd] at hstand
        exact text?_inlineWith (fun _ _ => ih) hstand hr
      · obtain rfl := Except.ok.inj hr
        exact Option.some_ne_none _

theorem text?_inline (ht : ctx.CanTell g) {path : Path} {raw : Raw} (h : raw.text? ≠ none)
    {r : Inlined} (hr : ctx.inline g path raw = .ok r) : r.1.text? ≠ none :=
  text?_inlineWith (fun _ _ => text?_inlineVariable ht) h hr

/-- A literal whose references cannot all be replaced is without an end, not without a text. -/
theorem inlineVariable_ne_textless (path : Path) (hops : Nat) (name : String) :
    inlineVariable g ctx path hops name ≠ .error .textless := by
  induction hops generalizing name with
  | zero => simp [inlineVariable]
  | succ hops ih =>
    intro he
    unfold inlineVariable at he
    dsimp only at he
    split at he
    · cases he
    · split at he
      · obtain ⟨name', _, he⟩ := exists_of_inlineWith_eq_error he
        exact ih name' he
      · cases he

theorem inline_ne_textless (path : Path) (raw : Raw) :
    ctx.inline g path raw ≠ .error .textless := by
  intro he
  obtain ⟨name, _, he⟩ := exists_of_inlineWith_eq_error he
  exact inlineVariable_ne_textless path _ name he

end Context

namespace Coercion

variable {ν : Type} {g : TypeGraph ν} {ctx : Context ν} {hops defaults : Nat}

/-! ## Leaves -/

theorem refuse_ne_error {raw : Raw} (h : raw.text? ≠ none) (failure : String → Failure)
    (e : Fault) : refuse raw failure ≠ .error e := by
  obtain ⟨written, hw⟩ := Option.ne_none_iff_exists'.mp h
  rw [refuse, hw]
  simp

theorem judge_ne_error {id : TypeId ν} {s : Scalar} (ht : ctx.CanTell g)
    (hs : g.describe id = .scalar s) {raw : Raw} (h : raw.text? ≠ none) (path : Path) (e : Fault) :
    judge s raw path ≠ .error e := by
  unfold judge
  split
  · simp
  · exact refuse_ne_error h _ e
  · next t hthrown =>
    obtain ⟨reason, hreason⟩ := Option.ne_none_iff_exists'.mp (ht.text?_of_thrown hs hthrown)
    rw [hreason]
    exact refuse_ne_error h _ e

theorem coerceScalar_ne_textless {id : TypeId ν} {s : Scalar} (ht : ctx.CanTell g)
    (hs : g.describe id = .scalar s) {raw : Raw} (h : raw.text? ≠ none) (path : Path) :
    coerceScalar g ctx s raw path ≠ .error .textless := by
  intro he
  rcases bind_eq_error_iff.mp he with he | ⟨r, hr, he⟩
  · exact Context.inline_ne_textless path raw he
  · dsimp only at he
    split at he
    · exact judge_ne_error ht hs (Context.text?_inline ht h hr) path _ he
    · cases he

theorem coerceEnum_ne_error {raw : Raw} (h : raw.text? ≠ none) (en : EnumType) (path : Path)
    (e : Fault) : coerceEnum en raw path ≠ .error e := by
  unfold coerceEnum
  split
  · simp
  · exact refuse_ne_error h _ e

/-! ## Every position -/

/-- If whatever may have to be shown has a text, no coercion is stopped for want of one. -/
theorem coerceAt_ne_textless (ht : ctx.CanTell g) (type : TypeRef (TypeId ν)) {raw : Raw}
    (h : raw.text? ≠ none) (path : Path) :
    coerceAt g ctx hops defaults type raw path ≠ .error .textless := by
  induction hops, defaults, type, raw using coercion_induction g ctx generalizing path with
  | reference hops defaults type name ih =>
    rw [coerceAt_variable]
    cases hr : ctx.reading g name type path with
    | error failure => simp
    | ok stand =>
      obtain rfl := Context.reading_eq_ok g hr
      cases hops with
      | zero => simp
      | succ hops => exact ih hops rfl (ht.stand name) path
  | absent hops defaults type =>
    rw [coerceAt_absent]
    simp
  | null hops defaults type raw hn =>
    rw [coerceAt_null _ _ _ _ hn]
    simp
  | required hops defaults inner raw hp ih =>
    rw [coerceAt_required _ _ _ _ hp]
    exact ih h path
  | list hops defaults item raw hp ih =>
    rw [coerceAt_list _ _ _ _ hp]
    cases hitems : raw.items? with
    | none => exact refuse_ne_error h _ _
    | some items =>
      intro he
      obtain ⟨held, hi, _, he⟩ := exists_of_coerceItems_eq_error (map_eq_error_iff.mp he)
      exact ih items hitems held hi (Raw.text?_item hitems hi h) _ he
  | scalar hops defaults id s raw hp hs =>
    rw [coerceAt_scalar _ _ _ _ hp hs]
    exact coerceScalar_ne_textless ht hs h path
  | enum hops defaults id e raw hp he =>
    rw [coerceAt_enum _ _ _ _ hp he]
    exact coerceEnum_ne_error h e path _
  | input hops defaults id o raw hp ho ih ihd =>
    rw [coerceAt_input _ _ _ _ hp ho]
    split
    · next hobject =>
      intro he
      obtain ⟨f, hf, he⟩ := exists_of_coerceFields_eq_error (map_eq_error_iff.mp he)
      rcases coerceField_cases raw path f.1 f.2 with ⟨_, hc⟩ | ⟨v, hv, ⟨_, hc⟩ | ⟨d, hd, hc⟩⟩
      · exact ih hobject f hf (Raw.text?_field h f.1) _ (hc.symm.trans he)
      · cases hc.symm.trans he
      · exact ihd f hf v hv d hd (ht.fallback f.2 (mem_positions ho hf) v hv) _ (hc.symm.trans he)
    · exact refuse_ne_error h _ _

theorem coercePosition_ne_textless (ht : ctx.CanTell g) {position : Position ν}
    (hd : position.ShowsDefault) {raw : Raw} (h : raw.text? ≠ none) (path : Path) :
    coercePosition g ctx position raw path ≠ .error .textless := by
  rcases coercePosition_cases g ctx position raw path with ⟨_, he⟩ | ⟨v, _, hv, he⟩
  · rw [he]
    exact coerceAt_ne_textless ht _ h path
  · have hshown : (Raw.external v).text? ≠ none := hd v hv
    rw [he]
    exact coerceAt_ne_textless ht _ hshown path

theorem text?_suppliedRaw {supplied : Members Raw} (h : ∀ m ∈ supplied, m.2.text? ≠ none)
    (name : String) : (suppliedRaw supplied name).text? ≠ none := by
  unfold suppliedRaw
  cases hm : supplied.get? name with
  | none => exact Option.some_ne_none _
  | some raw => exact h _ (Members.mem_of_get? hm)

theorem coerceArguments_ne_textless (ht : ctx.CanTell g) {declared : Declared (Position ν)}
    (hd : ∀ f ∈ declared.entries, f.2.ShowsDefault) {supplied : Members Raw}
    (h : ∀ m ∈ supplied, m.2.text? ≠ none) (enforce : Bool) :
    coerceArguments g ctx declared supplied enforce ≠ .error .textless := by
  intro he
  obtain ⟨name, position, raw, ha, he⟩ := exists_of_coerceArguments_eq_error he
  obtain ⟨hf, rfl, _⟩ := mem_argumentsToCoerce.mp ha
  exact coercePosition_ne_textless ht (hd _ hf) (text?_suppliedRaw h name) _ he

end Coercion

end TypedQuery
