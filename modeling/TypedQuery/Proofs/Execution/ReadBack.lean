import TypedQuery.Proofs.Coercion.ReadsAs
import TypedQuery.Proofs.Execution.Written

/-!
# Results read back

The result that is written for a coerced value is coerced to that value again, wherever it is
supplied. This takes types without input objects whose scalars are built in and whose enums tell
their internal values apart, and numerals that name numbers.

* `EnumType.IsReversible`, `TypeGraph.IsReversible`: the conditions on types;
* `symbolOf?_of_mem`, `valueOf?_of_mem`: symbols and internal values lead to each other;
* `ReadsBack`: a value that is written and read back, with one lemma for each kind of type;
* `serialize_coerced`: coerced values are.
-/

namespace TypedQuery

/-! ## Enums -/

/-- No symbol stands for two internal values and no internal value has two symbols. -/
structure EnumType.IsReversible (e : EnumType) : Prop where
  symbols : (e.values.map Prod.fst).Nodup
  plain : ∀ m ∈ e.values,
    (∃ s, m.2 = .string s) ∨ (∃ b, m.2 = .boolean b) ∨ ∃ n, n ≠ Number.nan ∧ m.2 = .number n
  apart : e.values.Pairwise fun m m' => m.2.sameAs m'.2 = false

namespace EnumType

variable {e : EnumType} (h : e.IsReversible) {symbol : String} {v : Value}
  (hm : (symbol, v) ∈ e.values)
include h hm

theorem isNullish_of_mem : v.isNullish = false := by
  rcases h.plain _ hm with ⟨s, hv⟩ | ⟨b, hv⟩ | ⟨n, -, hv⟩ <;> exact congrArg Value.isNullish hv

theorem sameAs_self_of_mem : v.sameAs v = true := by
  obtain ⟨s, rfl⟩ | ⟨b, rfl⟩ | ⟨n, hn, rfl⟩ := h.plain _ hm
  · exact beq_self_eq_true s
  · exact beq_self_eq_true b
  · exact (Number.sameAs_self_iff n).mpr hn

/-- A symbol leads to its internal value, as no entry before it has the same symbol. -/
theorem valueOf?_of_mem : e.valueOf? symbol = some v := by
  obtain ⟨before, after, hsplit⟩ := List.append_of_mem hm
  have hsymbols := h.symbols
  rw [hsplit, List.map_append, List.map_cons] at hsymbols
  have hfind : e.values.find? (fun m => m.1 = symbol) = some (symbol, v) := by
    refine List.find?_eq_some_iff_append.mpr ⟨by simp, before, after, hsplit, fun m hmem => ?_⟩
    have hne : m.1 ≠ symbol := (List.nodup_append.mp hsymbols).2.2 m.1 (List.mem_map_of_mem hmem)
      symbol (List.mem_cons_self ..)
    simpa using hne
  rw [valueOf?, hfind]
  rfl

/-- An internal value leads to its symbol, as no entry before it has the same value. -/
theorem symbolOf?_of_mem : e.symbolOf? v = some symbol := by
  obtain ⟨before, after, hsplit⟩ := List.append_of_mem hm
  have hapart := h.apart
  rw [hsplit, List.pairwise_append] at hapart
  have hfind : e.values.find? (fun m => m.2.sameAs v) = some (symbol, v) := by
    refine List.find?_eq_some_iff_append.mpr
      ⟨sameAs_self_of_mem h hm, before, after, hsplit, fun m hmem => ?_⟩
    have hdiffer : m.2.sameAs v = false := hapart.2.2 m hmem _ (List.mem_cons_self ..)
    simpa using hdiffer
  rw [symbolOf?, hfind]
  rfl

end EnumType

/-- A type inside whose lists and demands stands a built-in scalar or a reversible enum. -/
def TypeGraph.IsReversible {ν : Type} (g : TypeGraph ν) (type : TypeRef (TypeId ν)) : Prop :=
  (∃ b : Builtin, g.describe type.base = .scalar b.scalar) ∨
    ∃ e, g.describe type.base = .enum e ∧ e.IsReversible

theorem TypeGraph.IsReversible.not_input {ν : Type} {g : TypeGraph ν} {type : TypeRef (TypeId ν)}
    (h : g.IsReversible type) (o : InputObject ν) : g.describe type.base ≠ .input o := by
  rcases h with ⟨b, hb⟩ | ⟨e, he, -⟩
  · simp [hb]
  · simp [he]

namespace Coercion

variable {ν : Type} {g : TypeGraph ν} {ctx : Context ν}

/-! ## Reading back -/

/-- A value is written as a result that is coerced to that value, whatever the request. -/
def ReadsBack (g : TypeGraph ν) (type : TypeRef (TypeId ν)) (v : Value) : Prop :=
  ∃ result, serialize g type v = .ok result ∧ result.isUndefined = false ∧
    ∀ ctx hops defaults path,
      coerceAt g ctx hops defaults type (.external result) path = .ok (.done (some v))

theorem readsBack_null {type : TypeRef (TypeId ν)} (hd : ∀ o, g.describe type.base ≠ .input o)
    (h : type.isRequired = false) : ReadsBack g type .null := by
  refine ⟨.null, ?_, readsAs_null h⟩
  cases type with
  | required inner => cases h
  | list item => rfl
  | named id =>
    unfold serialize serializeNamed
    cases hdescribe : g.describe id with
    | scalar s => rfl
    | enum e => rfl
    | input o => exact absurd hdescribe (hd o)

/-- What is not null is not written as null either. -/
theorem ReadsBack.required {inner : TypeRef (TypeId ν)} {v : Value} (hv : v.isNullish = false)
    (h : ReadsBack g inner v) : ReadsBack g (.required inner) v := by
  obtain ⟨result, hwritten, hread⟩ := h
  exact ⟨result, serialize_required_eq_ok_iff.mpr ⟨hv, hwritten⟩, ReadsAs.required hv hread⟩

/-- A list is written item by item, and read back item by item. -/
theorem ReadsBack.list {item : TypeRef (TypeId ν)} {vs : List Value}
    (h : ∀ v ∈ vs, ReadsBack g item v) : ReadsBack g (.list item) (.list vs) := by
  obtain ⟨results, hresults⟩ : ∃ results, List.Forall₂ (fun v result =>
      serialize g item v = .ok result ∧ ReadsAs g item result v) vs results := exists_forall₂ h
  have hwritten : List.Forall₂ (fun slot result => writeSlot g item slot = .ok result)
      (vs.map some) (results.map some) := by
    rw [List.forall₂_map_left_iff, List.forall₂_map_right_iff]
    exact hresults.imp fun v result hr => map_eq_ok_iff.mpr ⟨result, hr.1, rfl⟩
  refine ⟨.list results, ?_, ReadsAs.list (hresults.flip.imp fun _ _ => And.right)⟩
  exact serialize_list_eq_ok_iff.mpr (Or.inr ⟨_, _, _, rfl, rfl, hwritten⟩)

theorem readsBack_builtin {id : TypeId ν} {b : Builtin} (hd : g.describe id = .scalar b.scalar)
    {v : Value} (h : b.parse (.external v) = .accepted v) : ReadsBack g (.named id) v := by
  have hv := Builtin.isNullish_of_accepted h
  refine ⟨v, ?_, readsAs_scalar hd hv h⟩
  exact serializeNamed_eq_ok_iff.mpr
    (Or.inr ⟨hv, Or.inl ⟨_, hd, Builtin.serialize_of_parse_external h⟩⟩)

theorem readsBack_enum {id : TypeId ν} {e : EnumType} (hd : g.describe id = .enum e)
    (he : e.IsReversible) {symbol : String} {v : Value} (hm : (symbol, v) ∈ e.values) :
    ReadsBack g (.named id) v := by
  refine ⟨.string symbol, ?_, readsAs_enum hd (EnumType.valueOf?_of_mem he hm)⟩
  exact serializeNamed_eq_ok_iff.mpr (Or.inr ⟨EnumType.isNullish_of_mem he hm,
    Or.inr ⟨e, symbol, hd, EnumType.symbolOf?_of_mem he hm, rfl⟩⟩)

/-- A coercion to a reversible type gives a value that reads back, or nothing, in whose place a
list holds null; and what is present is not coerced to null. -/
theorem readsBack_of_coerceAt {hops defaults : Nat} (hc : ctx.HasFiniteNumerals)
    {type : TypeRef (TypeId ν)} (ht : g.IsReversible type) {raw : Raw}
    (hraw : raw.HasFiniteNumerals) {path : Path} {w : Option Value}
    (h : coerceAt g ctx hops defaults type raw path = .ok (.done w)) :
    ReadsBack g type (w.getD .null) ∧
      (isPresent raw = true → (w.getD .null).isNullish = false) := by
  induction hops, defaults, type, raw using coercion_induction g ctx generalizing path w with
  | reference hops defaults type name ih =>
    obtain ⟨hops, rfl, -, h⟩ := coerceAt_variable_eq_done_iff.mp h
    exact ⟨(ih hops rfl ht (hc.standFor name) h).1, fun hp => Bool.noConfusion hp⟩
  | absent hops defaults type =>
    rw [coerceAt_absent, Except.ok.injEq, missing_eq_done_iff] at h
    obtain ⟨hr, rfl⟩ := h
    exact ⟨readsBack_null ht.not_input hr, fun hp => Bool.noConfusion hp⟩
  | null hops defaults type raw hn =>
    rw [coerceAt_null _ _ _ _ hn, Except.ok.injEq, nullValue_eq_done_iff] at h
    obtain ⟨hr, rfl⟩ := h
    refine ⟨readsBack_null ht.not_input hr, fun hp => ?_⟩
    rw [((isPresent_iff raw).mp hp).2.2] at hn
    cases hn
  | required hops defaults inner raw hp ih =>
    rw [coerceAt_required _ _ _ _ hp] at h
    obtain ⟨hinner, hv⟩ := ih ht hraw h
    obtain ⟨v, rfl⟩ := exists_of_isPresent hp h
    exact ⟨.required (hv hp) hinner, hv⟩
  | list hops defaults item raw hp ih =>
    obtain ⟨items, values, hitems, hvalues, rfl⟩ := (coerceAt_list_eq_done_iff hp).mp h
    refine ⟨.list fun v hv => ?_, fun _ => rfl⟩
    obtain ⟨w, hw, rfl⟩ := List.mem_map.mp hv
    obtain ⟨⟨held, i⟩, hheld, hw⟩ := exists_left_of_forall₂ hvalues hw
    have hmem := List.fst_mem_of_mem_zipIdx hheld
    exact (ih items hitems held hmem ht (hraw.of_items? hitems hmem) hw).1
  | scalar hops defaults id s raw hp hs =>
    rw [coerceAt_scalar _ _ _ _ hp hs] at h
    rcases ht with ⟨b, hb⟩ | ⟨e, he, -⟩
    · obtain rfl := NamedType.scalar.inj (hs.symm.trans hb)
      obtain ⟨v, rfl, hv⟩ := parse_of_coerceScalar hp h
      exact ⟨readsBack_builtin hs (Builtin.parse_external_of_parse hraw hv),
        fun _ => Builtin.isNullish_of_accepted hv⟩
    · cases hs.symm.trans he
  | enum hops defaults id e raw hp he =>
    rw [coerceAt_enum _ _ _ _ hp he] at h
    obtain ⟨v, hv, rfl⟩ := coerceEnum_eq_done_iff.mp h
    obtain ⟨symbol, -, hsymbol⟩ := Option.bind_eq_some_iff.mp hv
    rcases ht with ⟨b, hb⟩ | ⟨e', he', hreversible⟩
    · cases he.symm.trans hb
    · obtain rfl := NamedType.enum.inj (he.symm.trans he')
      have hm := mem_of_valueOf? hsymbol
      exact ⟨readsBack_enum he hreversible hm, fun _ => EnumType.isNullish_of_mem hreversible hm⟩
  | input hops defaults id o raw hp ho ih ihd => exact absurd ho (ht.not_input o)

/-- **Writing inverts coercion.** Every value of a reversible type that a coercion gives can be
written, and what is written is coerced to that value, in this request and in any other. -/
theorem serialize_coerced (hc : ctx.HasFiniteNumerals) {type : TypeRef (TypeId ν)}
    (ht : g.IsReversible type) {raw : Raw} (hraw : raw.HasFiniteNumerals) {path : Path} {v : Value}
    (h : coerce g ctx type raw path = .ok (.done (some v))) :
    ∃ result, serialize g type v = .ok result ∧
      ∀ ctx path, coerce g ctx type (.external result) path = .ok (.done (some v)) := by
  obtain ⟨result, hwritten, -, hread⟩ := (readsBack_of_coerceAt hc ht hraw h).1
  exact ⟨result, hwritten, fun ctx path => hread ctx _ _ path⟩

/-! ## Levels -/

/-- The high level has the symbol of the low one as its internal value. -/
def levels : TypeGraph Unit where
  declared _ := .enum ⟨"Level", [("LOW", .number .zero), ("HIGH", .string "LOW")]⟩
  all := [()]
  mem_all _ := List.mem_cons_self ..

theorem levels_isReversible (id : TypeId Unit) : levels.IsReversible (.list (.named id)) := by
  cases id with
  | builtin b => exact Or.inl ⟨b, rfl⟩
  | declared n =>
    refine Or.inr ⟨_, rfl, by decide, ?_, ?_⟩
    · simp [Number.zero]
    · simp [Value.sameAs]

/-- An operation with two variables that have defaults. -/
def leveled : Context Unit :=
  ⟨[], [⟨"level", .named (.declared ()), some (.enum "HIGH")⟩,
    ⟨"count", .named (.builtin .float), some (.int "7")⟩]⟩

theorem finite_numerals {text : String} (h : text = "0.5" ∨ text = "7") :
    (Number.ofNumeral text).isFinite = true := by
  rcases h with rfl | rfl <;> decide +kernel

theorem leveled_hasFiniteNumerals : leveled.HasFiniteNumerals := by
  intro name literal h text ht
  obtain ⟨d, hd, hliteral⟩ := Option.bind_eq_some_iff.mp h
  have hmem := List.mem_reverse.mp (List.mem_of_find?_eq_some hd)
  simp only [leveled, List.mem_cons, List.not_mem_nil, or_false] at hmem
  rcases hmem with rfl | rfl
  · obtain rfl := Option.some.inj hliteral
    simp [Raw.nodes] at ht
  · obtain rfl := Option.some.inj hliteral
    exact finite_numerals (Or.inr (by simpa [Raw.nodes] using ht))

theorem coerce_levels :
    coerce levels leveled (.list (.named (.declared ())))
        (.list [.enum "LOW", .variable "level", .variable "unknown"]) [] =
      .ok (.done (some (.list [.number .zero, .string "LOW", .null]))) := by
  refine (coerceAt_list_eq_done_iff rfl).mpr
    ⟨_, [some (.number .zero), some (.string "LOW"), none], rfl,
      .cons ?_ (.cons ?_ (.cons ?_ .nil)), rfl⟩
  · exact (coerceAt_enum _ _ _ _ rfl rfl _).trans rfl
  · exact coerceAt_variable_eq_done_iff.mpr
      ⟨_, rfl, rfl, (coerceAt_enum _ _ _ _ rfl rfl _).trans rfl⟩
  · exact coerceAt_variable_eq_done_iff.mpr ⟨_, rfl, rfl, coerceAt_absent _ _ _ _ _ _⟩

theorem coerce_counts :
    coerce levels leveled (.list (.named (.builtin .float)))
        (.list [.float "0.5", .variable "count"]) [] =
      .ok (.done (some (.list [.number (.ofNumeral "0.5"), .number (.ofNumeral "7")]))) := by
  refine (coerceAt_list_eq_done_iff rfl).mpr
    ⟨_, [some (.number (.ofNumeral "0.5")), some (.number (.ofNumeral "7"))], rfl,
      .cons ?_ (.cons ?_ .nil), rfl⟩
  · exact (coerceAt_scalar _ _ _ _ rfl rfl _).trans rfl
  · exact coerceAt_variable_eq_done_iff.mpr
      ⟨_, rfl, rfl, (coerceAt_scalar _ _ _ _ rfl rfl _).trans rfl⟩

theorem serialize_coerced_levels :
    (∃ result, serialize levels (.list (.named (.declared ())))
        (.list [.number .zero, .string "LOW", .null]) = .ok result ∧
      ∀ ctx path, coerce levels ctx (.list (.named (.declared ()))) (.external result) path =
        .ok (.done (some (.list [.number .zero, .string "LOW", .null])))) ∧
    ∃ result, serialize levels (.list (.named (.builtin .float)))
        (.list [.number (.ofNumeral "0.5"), .number (.ofNumeral "7")]) = .ok result ∧
      ∀ ctx path, coerce levels ctx (.list (.named (.builtin .float))) (.external result) path =
        .ok (.done (some (.list [.number (.ofNumeral "0.5"), .number (.ofNumeral "7")]))) := by
  refine ⟨serialize_coerced leveled_hasFiniteNumerals (levels_isReversible _) ?_ coerce_levels,
    serialize_coerced leveled_hasFiniteNumerals (levels_isReversible _) ?_ coerce_counts⟩
  · intro text ht
    simp [Raw.nodes, Raw.itemNodes] at ht
  · intro text ht
    exact finite_numerals (Or.inl (by simpa [Raw.nodes, Raw.itemNodes] using ht))

end Coercion

end TypedQuery
