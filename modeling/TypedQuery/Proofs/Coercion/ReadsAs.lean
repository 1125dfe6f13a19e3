import TypedQuery.Proofs.Coercion.Conformance
import TypedQuery.Proofs.Types.Numerals

/-!
# Values from outside

A value that coercion gives may be supplied again. What it is then coerced to depends on its type
only: an external value holds no references, so the context is not consulted.

* `HasFiniteNumerals`: raw values and contexts whose numerals name numbers, which is to say no
  infinities if they are numerals of query text (`hasFiniteNumerals_iff`);
* `parse_external_of_parse`: what a built-in scalar accepts of these, it accepts again from outside;
* `ReadsAs`: a value is coerced to another, whatever the request, with one lemma for each kind of
  type.
-/

namespace TypedQuery

/-! ## Numerals -/

/-- Every numeral inside a raw value names a number. -/
def Raw.HasFiniteNumerals (raw : Raw) : Prop :=
  ∀ text, .int text ∈ raw.nodes ∨ .float text ∈ raw.nodes →
    (Number.ofNumeral text).isFinite = true

/-- So does every numeral inside the default of a variable. -/
def Context.HasFiniteNumerals {ν : Type} (ctx : Context ν) : Prop :=
  ∀ name literal, ctx.default? name = some literal → literal.HasFiniteNumerals

/-- Numerals of query text name numbers, unless they are beyond all numbers. -/
theorem Raw.hasFiniteNumerals_iff {raw : Raw}
    (h : ∀ text, .int text ∈ raw.nodes ∨ .float text ∈ raw.nodes → Query.IsNumeral text) :
    raw.HasFiniteNumerals ↔ ∀ text, .int text ∈ raw.nodes ∨ .float text ∈ raw.nodes →
      ∀ negative, Number.ofNumeral text ≠ .infinite negative :=
  forall₂_congr fun text ht => Number.isFinite_iff_of_isNumeral (h text ht)

theorem Raw.hasFiniteNumerals_ofSlot (slot : Option Value) : (ofSlot slot).HasFiniteNumerals := by
  intro text h
  rcases slot with _ | v
  · simp [ofSlot, nodes] at h
  · cases v <;> simp [ofSlot, ofValue, nodes] at h

theorem Raw.HasFiniteNumerals.of_items? {raw item : Raw} {items : List Raw}
    (h : raw.HasFiniteNumerals) (hitems : raw.items? = some items) (hi : item ∈ items) :
    item.HasFiniteNumerals := by
  rcases nodes_of_items? hitems hi with hn | ⟨slot, rfl⟩
  · exact fun text ht => h text (ht.imp (hn _) (hn _))
  · exact hasFiniteNumerals_ofSlot slot

/-- So are those inside what an object holds. -/
theorem Raw.HasFiniteNumerals.of_field {raw : Raw} (h : raw.HasFiniteNumerals) (name : String) :
    (raw.field name).HasFiniteNumerals := by
  rcases nodes_of_field name raw with hn | ⟨slot, hs⟩
  · exact fun text ht => h text (ht.imp (hn _) (hn _))
  · exact hs ▸ hasFiniteNumerals_ofSlot slot

theorem Context.HasFiniteNumerals.standFor {ν : Type} {ctx : Context ν} (h : ctx.HasFiniteNumerals)
    (name : String) : (ctx.standFor name).HasFiniteNumerals := by
  unfold Context.standFor
  cases ctx.supplied? name with
  | some value => simp [Raw.HasFiniteNumerals, Raw.nodes]
  | none =>
    cases hd : ctx.default? name with
    | some literal => exact h name literal hd
    | none => exact Raw.hasFiniteNumerals_ofSlot none

/-! ## Built-in scalars -/

namespace Builtin

variable {b : Builtin} {raw : Raw} {v : Value}

/-- What a built-in scalar accepts, it accepts again from outside. -/
theorem parse_external_of_parse (hraw : raw.HasFiniteNumerals) (h : b.parse raw = .accepted v) :
    b.parse (.external v) = .accepted v := by
  refine parse_external_of_isFinite ?_ h
  rintro n rfl
  by_contra hn
  obtain ⟨-, text, ht, rfl⟩ := of_parse_not_isFinite (Bool.not_eq_true _ ▸ hn) h
  refine hn (hraw text ?_)
  rcases ht with rfl | rfl
  · exact Or.inl (Raw.mem_nodes_self _)
  · exact Or.inr (Raw.mem_nodes_self _)

/-- No built-in scalar accepts a list or an object that is written inline. -/
theorem parse_list_ne_accepted (items : List Raw) : b.parse (.list items) ≠ .accepted v := by
  cases b <;> exact refuse_ne_accepted _ _

theorem parse_object_ne_accepted (fields : List (String × Raw)) :
    b.parse (.object fields) ≠ .accepted v := by
  cases b <;> exact refuse_ne_accepted _ _

end Builtin

namespace Coercion

variable {ν : Type} {g : TypeGraph ν} {ctx : Context ν}

/-- What a built-in scalar accepts is what stands at its position: inside a list or an object, which
it does not accept, references would have been replaced. -/
theorem parse_of_coerceScalar {b : Builtin} {raw : Raw} (hp : isPresent raw = true) {path : Path}
    {w : Option Value} (h : coerceScalar g ctx b.scalar raw path = .ok (.done w)) :
    ∃ v, w = some v ∧ b.parse raw = .accepted v := by
  obtain ⟨input, v, hinline, hv, rfl⟩ := coerceScalar_eq_done_iff.mp h
  refine ⟨v, rfl, ?_⟩
  match raw with
  | .list items =>
    obtain ⟨r, -, hr⟩ := map_eq_ok_iff.mp hinline
    obtain rfl := congrArg Prod.fst hr
    exact absurd hv (Builtin.parse_list_ne_accepted _)
  | .object fields =>
    obtain ⟨r, -, hr⟩ := map_eq_ok_iff.mp hinline
    obtain rfl := congrArg Prod.fst hr
    exact absurd hv (Builtin.parse_object_ne_accepted _)
  | .variable _ | .absent => cases hp
  | .int _ | .float _ | .string _ | .boolean _ | .enum _ | .null | .external _ =>
    obtain rfl := congrArg Prod.fst (Except.ok.inj hinline)
    exact hv

/-! ## Reading values -/

/-- A value is coerced to another, whatever the request. -/
def ReadsAs (g : TypeGraph ν) (type : TypeRef (TypeId ν)) (held v : Value) : Prop :=
  held.isUndefined = false ∧
    ∀ ctx hops defaults path,
      coerceAt g ctx hops defaults type (.external held) path = .ok (.done (some v))

variable {type item inner : TypeRef (TypeId ν)} {held v : Value}

theorem readsAs_null (h : type.isRequired = false) : ReadsAs g type .null .null := by
  refine ⟨rfl, fun ctx hops defaults path => ?_⟩
  rw [coerceAt_null _ _ _ _ rfl, nullValue_eq_done_iff.mpr ⟨h, rfl⟩]

/-- Null is read as nothing but null, where that is allowed. -/
theorem ReadsAs.of_null (h : ReadsAs g type .null v) : type.isRequired = false ∧ v = .null := by
  have hread := h.2 .empty 0 0 []
  rw [coerceAt_null _ _ _ _ rfl, Except.ok.injEq, nullValue_eq_done_iff] at hread
  exact ⟨hread.1, Option.some.inj hread.2⟩

theorem isPresent_external {v : Value} (h : v.isNull = false) : isPresent (.external v) = true := by
  cases v <;> first | rfl | cases h

theorem ReadsAs.required (hv : v.isNullish = false) (h : ReadsAs g inner held v) :
    ReadsAs g (.required inner) held v := by
  have hnull : held.isNull = false := by
    cases held with
    | null =>
      obtain rfl := h.of_null.2
      cases hv
    | _ => rfl
  refine ⟨h.1, fun ctx hops defaults path => ?_⟩
  rw [coerceAt_required _ _ _ _ (isPresent_external hnull), h.2]

/-- What is not undefined is supplied. -/
theorem ReadsAs.ofValue_eq (h : ReadsAs g type held v) : Raw.ofValue held = .external held := by
  cases held with
  | undefined => cases h.1
  | _ => rfl

/-- A list is read item by item. -/
theorem ReadsAs.list {helds vs : List Value} (h : List.Forall₂ (ReadsAs g item) helds vs) :
    ReadsAs g (.list item) (.list helds) (.list vs) := by
  refine ⟨rfl, fun ctx hops defaults path => ?_⟩
  have hitems : (Raw.external (.list helds)).items? = some (helds.map .external) := by
    refine congrArg some ?_
    rw [List.map_map]
    refine List.map_congr_left fun held hheld => ?_
    obtain ⟨v, -, hread⟩ := exists_right_of_forall₂ h hheld
    exact hread.ofValue_eq
  refine (coerceAt_list_eq_done_iff rfl).mpr
    ⟨_, vs.map some, hitems, ?_, by simp [Function.comp_def]⟩
  rw [List.forall₂_map_right_iff, List.zipIdx_map, List.forall₂_map_left_iff]
  have hindexed : List.Forall₂ _ (helds.zipIdx.map Prod.fst) vs :=
    (List.zipIdx_map_fst 0 helds).symm ▸ h
  exact (List.forall₂_map_left_iff.mp hindexed).imp fun p v hread => hread.2 ctx hops defaults _

section Named

variable {id : TypeId ν}

theorem readsAs_scalar {s : Scalar} (hs : g.describe id = .scalar s)
    (hheld : held.isNullish = false) (h : s.parse (.external held) = .accepted v) :
    ReadsAs g (.named id) held v := by
  have hpresent : held.isUndefined = false ∧ held.isNull = false := by
    cases held <;> first | exact ⟨rfl, rfl⟩ | cases hheld
  refine ⟨hpresent.1, fun ctx hops defaults path => ?_⟩
  rw [coerceAt_scalar _ _ _ _ (isPresent_external hpresent.2) hs]
  exact coerceScalar_eq_done_iff.mpr ⟨_, v, rfl, h, rfl⟩

theorem readsAs_enum {e : EnumType} (he : g.describe id = .enum e) {symbol : String}
    (h : e.valueOf? symbol = some v) : ReadsAs g (.named id) (.string symbol) v := by
  refine ⟨rfl, fun ctx hops defaults path => ?_⟩
  rw [coerceAt_enum _ _ _ _ rfl he]
  exact coerceEnum_eq_done_iff.mpr ⟨v, h, rfl⟩

/-- An object is read field by field. A field that it lacks stays away, if it need not be there and
has no default. -/
theorem readsAs_input {o : InputObject ν} (ho : g.describe id = .input o)
    {values : List (String × Option Value)}
    (h : List.Forall₂ (fun f w => f.1 = w.1 ∧
        (w.2 = none → f.2.fallback? = none ∧ f.2.type.isRequired = false) ∧
        ∀ v, w.2 = some v → ReadsAs g f.2.type v v) o.fields.entries values) :
    ReadsAs g (.named id) (.record (presentMembers values)) (.record (presentMembers values)) := by
  have hnames : List.Forall₂ (· = ·) o.fields.names (values.map Prod.fst) :=
    List.forall₂_map_left_iff.mpr (List.forall₂_map_right_iff.mpr (h.imp fun _ _ => And.left))
  have hdistinct : (values.map Prod.fst).Nodup :=
    (List.forall₂_eq_eq_eq ▸ hnames : o.fields.names = _) ▸ o.fields.distinct
  refine ⟨rfl, fun ctx hops defaults path => ?_⟩
  refine (coerceAt_input_eq_done_iff rfl ho).mpr ⟨values, rfl, ?_, rfl⟩
  refine (forall₂_imp_of_mem h.flip ?_).flip
  rintro ⟨name, w⟩ hw f ⟨rfl, hnone, hsome⟩
  have hfield : (Raw.external (.record (presentMembers values))).field f.1 =
      (w.map .ofValue).getD .absent := by
    rw [← get?_presentMembers hdistinct hw]
    rfl
  refine ⟨rfl, ?_⟩
  rw [coerceField, hfield]
  cases w with
  | none =>
    obtain ⟨hfallback, hrequired⟩ := hnone rfl
    have hnot : fallbackFor? ctx f.2 .absent = none := by simp [fallbackFor?, hfallback]
    simp [hnot, coerceAt_absent, missing, hrequired]
  | some v =>
    have hread := hsome v rfl
    rw [Option.map_some, Option.getD_some, hread.ofValue_eq]
    exact hread.2 ctx hops defaults _

end Named

end Coercion

end TypedQuery
