import TypedQuery.Proofs.Coercion.ReadsAs
import TypedQuery.Proofs.Types.Reach

/-!
# Coercion is idempotent

A coerced value that is supplied again is coerced to itself: defaults have been filled in, absent
fields have gone, absent items are null, and identifiers are strings. This takes types whose scalars
are built in and whose symbols stand for themselves, and numerals that name numbers.

* `TypeGraph.IsVerbatim`: the condition on types, which passes to the types of fields;
* `readsAs_self_of_coerceAt`: what a coercion gives reads as itself;
* `coerce_idempotent`: in every other request and at every other path.
-/

namespace TypedQuery

/-- The scalars that a type leads to are built in, and the symbols of its enums stand for
themselves. -/
structure TypeGraph.IsVerbatim {ν : Type} (g : TypeGraph ν) (base : TypeId ν) : Prop where
  scalar : ∀ id s, g.Reaches base id → g.describe id = .scalar s → ∃ b : Builtin, s = b.scalar
  enum : ∀ id e, g.Reaches base id → g.describe id = .enum e → ∀ m ∈ e.values, m.2 = .string m.1

theorem TypeGraph.IsVerbatim.of_field {ν : Type} {g : TypeGraph ν} {id : TypeId ν}
    {o : InputObject ν} {f : String × Position ν} (h : g.IsVerbatim id)
    (ho : g.describe id = .input o) (hf : f ∈ o.fields.entries) : g.IsVerbatim f.2.type.base where
  scalar id' s hr := h.scalar id' s (.field ho hf hr)
  enum id' e hr := h.enum id' e (.field ho hf hr)

namespace Coercion

variable {ν : Type} {g : TypeGraph ν} {ctx : Context ν} {hops defaults : Nat}

/-- A coercion to a verbatim type gives a value that reads as itself, or nothing, in whose place a
list holds null; and what is present is not coerced to null. -/
theorem readsAs_self_of_coerceAt (hc : ctx.HasConstantDefaults) (hn : ctx.HasFiniteNumerals)
    {type : TypeRef (TypeId ν)} (ht : g.IsVerbatim type.base) {raw : Raw}
    (hraw : raw.HasFiniteNumerals) {path : Path} {w : Option Value}
    (h : coerceAt g ctx hops defaults type raw path = .ok (.done w)) :
    ReadsAs g type (w.getD .null) (w.getD .null) ∧
      (isPresent raw = true → (w.getD .null).isNullish = false) := by
  induction hops, defaults, type, raw using coercion_induction g ctx generalizing path w with
  | reference hops defaults type name ih =>
    obtain ⟨hops, rfl, -, h⟩ := coerceAt_variable_eq_done_iff.mp h
    exact ⟨(ih hops rfl ht (hn.standFor name) h).1, fun hp => Bool.noConfusion hp⟩
  | absent hops defaults type =>
    rw [coerceAt_absent, Except.ok.injEq, missing_eq_done_iff] at h
    obtain ⟨hr, rfl⟩ := h
    exact ⟨readsAs_null hr, fun hp => Bool.noConfusion hp⟩
  | null hops defaults type raw hnull =>
    rw [coerceAt_null _ _ _ _ hnull, Except.ok.injEq, nullValue_eq_done_iff] at h
    obtain ⟨hr, rfl⟩ := h
    refine ⟨readsAs_null hr, fun hp => ?_⟩
    rw [((isPresent_iff raw).mp hp).2.2] at hnull
    cases hnull
  | required hops defaults inner raw hp ih =>
    rw [coerceAt_required _ _ _ _ hp] at h
    obtain ⟨hinner, hv⟩ := ih ht hraw h
    exact ⟨.required (hv hp) hinner, hv⟩
  | list hops defaults item raw hp ih =>
    obtain ⟨items, values, hitems, hvalues, rfl⟩ := (coerceAt_list_eq_done_iff hp).mp h
    refine ⟨.list (List.forall₂_same.mpr fun v hv => ?_), fun _ => rfl⟩
    obtain ⟨w, hw, rfl⟩ := List.mem_map.mp hv
    obtain ⟨⟨held, i⟩, hheld, hw⟩ := exists_left_of_forall₂ hvalues hw
    have hmem := List.fst_mem_of_mem_zipIdx hheld
    exact (ih items hitems held hmem ht (hraw.of_items? hitems hmem) hw).1
  | scalar hops defaults id s raw hp hs =>
    rw [coerceAt_scalar _ _ _ _ hp hs] at h
    obtain ⟨b, rfl⟩ := ht.scalar id s (.self id) hs
    obtain ⟨v, rfl, hv⟩ := parse_of_coerceScalar hp h
    have hnullish := Builtin.isNullish_of_accepted hv
    exact ⟨readsAs_scalar hs hnullish (Builtin.parse_external_of_parse hraw hv), fun _ => hnullish⟩
  | enum hops defaults id e raw hp he =>
    rw [coerceAt_enum _ _ _ _ hp he] at h
    obtain ⟨v, hv, rfl⟩ := coerceEnum_eq_done_iff.mp h
    obtain ⟨symbol, -, hsymbol⟩ := Option.bind_eq_some_iff.mp hv
    obtain rfl : v = .string symbol := ht.enum id e (.self id) he _ (mem_of_valueOf? hsymbol)
    exact ⟨readsAs_enum he hsymbol, fun _ => rfl⟩
  | input hops defaults id o raw hp ho ih ihd =>
    obtain ⟨values, hobject, hvalues, rfl⟩ := (coerceAt_input_eq_done_iff hp ho).mp h
    have hfield : ∀ f ∈ o.fields.entries, ∀ w,
        coerceField g ctx hops defaults raw path f.1 f.2 = .ok (.done w) →
          ReadsAs g f.2.type (w.getD .null) (w.getD .null) := by
      intro f hf w h
      rcases @coerceField_cases ν g ctx hops defaults raw path f.1 f.2 with
        ⟨_, he⟩ | ⟨v, hv, ⟨_, he⟩ | ⟨d, hd, he⟩⟩
      · exact (ih hobject f hf (ht.of_field ho hf) (hraw.of_field f.1) (he ▸ h)).1
      · rw [he] at h
        cases h
      · have hfinite : (Raw.external v).HasFiniteNumerals := by
          simp [Raw.HasFiniteNumerals, Raw.nodes]
        exact (ihd f hf v hv d hd (ht.of_field ho hf) hfinite (he ▸ h)).1
    refine ⟨readsAs_input ho (forall₂_imp_of_mem hvalues ?_), fun _ => rfl⟩
    rintro f hf ⟨name, w⟩ ⟨hname, hw⟩
    have hread := hfield f hf w hw
    refine ⟨hname, ?_, ?_⟩
    · rintro rfl
      exact ⟨fallback?_of_coerceField_done_none hc hw, hread.of_null.1⟩
    · rintro v rfl
      exact hread

/-- **Coercion is idempotent.** A value that a coercion gives is coerced to itself if it is supplied
from outside, in this request and in any other. -/
theorem coerce_idempotent (hc : ctx.HasConstantDefaults) (hn : ctx.HasFiniteNumerals)
    {type : TypeRef (TypeId ν)} (ht : g.IsVerbatim type.base) {raw : Raw}
    (hraw : raw.HasFiniteNumerals) {path : Path} {v : Value}
    (h : coerce g ctx type raw path = .ok (.done (some v))) (ctx' : Context ν) (path' : Path) :
    coerce g ctx' type (.external v) path' = .ok (.done (some v)) :=
  (readsAs_self_of_coerceAt hc hn ht hraw h).1.2 ctx' _ _ path'

/-! ## Folders -/

inductive FolderType
  | kind
  | folder
  deriving DecidableEq

/-- Folders have an identifier and a kind, which is HOME unless said otherwise, and hold folders. -/
def folders : TypeGraph FolderType where
  declared
    | .kind => .enum (.ofNames "Kind" ["HOME", "WORK"])
    | .folder => .input
      { name := "Folder"
        fields := ⟨[("id", ⟨.required (.named (.builtin .id)), none⟩),
          ("kind", ⟨.named (.declared .kind), some (.string "HOME")⟩),
          ("inside", ⟨.list (.named (.declared .folder)), none⟩)], by decide⟩
        unreserved := by decide }
  all := [.kind, .folder]
  mem_all n := by cases n <;> decide

theorem folders_isVerbatim (base : TypeId FolderType) : folders.IsVerbatim base where
  scalar id s _ hs := by
    cases id with
    | builtin b => exact ⟨b, (NamedType.scalar.inj hs).symm⟩
    | declared n => cases n <;> cases hs
  enum id e _ he m hm := by
    cases id with
    | builtin b => cases he
    | declared n =>
      cases n with
      | kind =>
        obtain rfl := NamedType.enum.inj he
        obtain ⟨s, -, rfl⟩ := List.mem_map.mp hm
        rfl
      | folder => cases he

/-- An operation whose variable has a default. -/
def filed : Context FolderType :=
  ⟨[], [⟨"number", .named (.builtin .id), some (.int "8")⟩]⟩

theorem default?_filed {name : String} {literal : Raw}
    (h : filed.default? name = some literal) : literal = .int "8" := by
  obtain ⟨d, hd, hliteral⟩ := Option.bind_eq_some_iff.mp h
  obtain rfl := List.mem_singleton.mp (List.mem_reverse.mp (List.mem_of_find?_eq_some hd))
  exact (Option.some.inj hliteral).symm

theorem filed_hasConstantDefaults : filed.HasConstantDefaults := by
  intro name literal h n hn
  obtain rfl := default?_filed h
  obtain rfl := List.mem_singleton.mp hn
  exact ⟨rfl, rfl⟩

theorem hasFiniteNumerals_int {text : String} (h : (Number.ofNumeral text).isFinite = true) :
    (Raw.int text).HasFiniteNumerals := by
  intro text' ht
  obtain rfl : text' = text := by simpa [Raw.nodes] using ht
  exact h

theorem filed_hasFiniteNumerals : filed.HasFiniteNumerals := by
  intro name literal h
  obtain rfl := default?_filed h
  exact hasFiniteNumerals_int (by decide +kernel)

/-- A folder that holds another, whose number is a variable, and one that is left out. -/
def folder : Raw :=
  .object [("id", .int "7"),
    ("inside", .list [.object [("id", .variable "number"), ("kind", .enum "WORK")],
      .variable "other"])]

theorem folder_hasFiniteNumerals : folder.HasFiniteNumerals := by
  intro text ht
  obtain rfl : text = "7" := by
    simpa [folder, Raw.nodes, Raw.fieldNodes, Raw.itemNodes] using ht
  decide +kernel

def coercedFolder : Value :=
  .record [("id", .string "7"), ("kind", .string "HOME"),
    ("inside", .list [.record [("id", .string "8"), ("kind", .string "WORK")], .null])]

theorem coerce_folder (path : Path) :
    coerce folders filed (.named (.declared .folder)) folder path =
      .ok (.done (some coercedFolder)) := by
  refine (coerceAt_input_eq_done_iff rfl rfl).mpr ⟨[("id", some (.string "7")),
    ("kind", some (.string "HOME")),
    ("inside", some (.list [.record [("id", .string "8"), ("kind", .string "WORK")], .null]))], rfl,
    .cons ⟨rfl, ?_⟩ (.cons ⟨rfl, ?_⟩ (.cons ⟨rfl, ?_⟩ .nil)), rfl⟩
  · exact (coerceAt_required _ _ _ _ rfl _ _).trans ((coerceAt_scalar _ _ _ _ rfl rfl _).trans rfl)
  · exact (coerceAt_enum _ _ _ _ rfl rfl _).trans rfl
  · refine (coerceAt_list_eq_done_iff rfl).mpr
      ⟨_, [some (.record [("id", .string "8"), ("kind", .string "WORK")]), none], rfl,
        .cons ?_ (.cons ?_ .nil), rfl⟩
    · refine (coerceAt_input_eq_done_iff rfl rfl).mpr ⟨[("id", some (.string "8")),
        ("kind", some (.string "WORK")), ("inside", none)], rfl,
        .cons ⟨rfl, ?_⟩ (.cons ⟨rfl, ?_⟩ (.cons ⟨rfl, ?_⟩ .nil)), rfl⟩
      · refine coerceAt_variable_eq_done_iff.mpr ⟨_, rfl, rfl, ?_⟩
        exact (coerceAt_required _ _ _ _ rfl _ _).trans
          ((coerceAt_scalar _ _ _ _ rfl rfl _).trans rfl)
      · exact (coerceAt_enum _ _ _ _ rfl rfl _).trans rfl
      · exact coerceAt_absent _ _ _ _ _ _
    · exact coerceAt_variable_eq_done_iff.mpr ⟨_, rfl, rfl, coerceAt_absent _ _ _ _ _ _⟩

theorem coerce_idempotent_folder :
    coerce folders filed (.named (.declared .folder)) folder [] =
        .ok (.done (some coercedFolder)) ∧
      coerce folders .empty (.named (.declared .folder)) (.external coercedFolder) [.index 3] =
        .ok (.done (some coercedFolder)) :=
  ⟨coerce_folder [], coerce_idempotent filed_hasConstantDefaults filed_hasFiniteNumerals
    (folders_isVerbatim _) folder_hasFiniteNumerals (coerce_folder []) .empty [.index 3]⟩

end Coercion

end TypedQuery
