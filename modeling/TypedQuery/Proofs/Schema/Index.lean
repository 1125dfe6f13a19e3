import Mathlib.Data.List.Permutation
import TypedQuery.Proofs.Members
import TypedQuery.Proofs.Traversal
import TypedQuery.Proofs.Types.Reach
import TypedQuery.Schema.Basic

/-!
# The index of a schema

A schema indexes the types that are reached from the built-in scalars, from extra types, and from
the types of its fields and of their arguments. Types may lead to each other in cycles.

* `Schema.starts`, `TypeGraph.IsReached`: what a schema starts from, and what is reached from it;
* `SchemaRefusal`: the two reasons for which there is no schema;
* `Explores`: what holds of an index while some types are pending, kept by each step (`known`,
  `new`) and by a run (`of_collect`, `of_collectFields`);
* `define_index`: there is a schema unless there is a reason against it, and its index then holds
  the reached types and no others.
-/

namespace TypedQuery

variable {ν : Type}

/-- The types that a field returns or takes. -/
def QueryField.bases (field : QueryField ν) : List (TypeId ν) :=
  field.type.base :: field.args.entries.map fun a => a.2.type.base

/-- What a schema starts from. -/
def Schema.starts (query : Declared (QueryField ν)) (extra : List (TypeId ν)) : List (TypeId ν) :=
  Builtin.all.map .builtin ++ extra ++ query.entries.flatMap fun f => f.2.bases

/-- Whether some of the types that are started from leads to a type. -/
def TypeGraph.IsReached (g : TypeGraph ν) (starts : List (TypeId ν)) (id : TypeId ν) : Prop :=
  ∃ start ∈ starts, g.Reaches start id

theorem TypeGraph.IsReached.mono {g : TypeGraph ν} {starts starts' : List (TypeId ν)}
    {id : TypeId ν} (h : g.IsReached starts id) (hsub : starts ⊆ starts') :
    g.IsReached starts' id := by
  obtain ⟨start, hstart, hr⟩ := h
  exact ⟨start, hsub hstart, hr⟩

/-- What is reached leads to the types of its fields. -/
theorem TypeGraph.IsReached.of_mem_positions {g : TypeGraph ν} {starts : List (TypeId ν)}
    {id : TypeId ν} (h : g.IsReached starts id) {p : Position ν}
    (hp : p ∈ (g.describe id).positions) : g.IsReached starts p.type.base := by
  obtain ⟨start, hstart, hr⟩ := h
  cases hd : g.describe id with
  | scalar s =>
    rw [hd] at hp
    cases hp
  | enum e =>
    rw [hd] at hp
    cases hp
  | input o =>
    rw [hd] at hp
    obtain ⟨f, hf, rfl⟩ := List.mem_map.mp hp
    exact ⟨start, hstart, hr.trans (.of_field hd hf)⟩

/-- Why there is no schema: a field returns an input object, or two types that are reached have one
name. -/
inductive SchemaRefusal (g : TypeGraph ν) (starts : List (TypeId ν))
    (fields : Members (QueryField ν)) : SchemaError → Prop
  | inputReturned {f o} (hf : f ∈ fields) (ho : g.describe f.2.type.base = .input o) :
      SchemaRefusal g starts fields (.inputReturned f.1 o.name)
  | sharedName {id id'} (h : g.IsReached starts id) (h' : g.IsReached starts id')
      (hne : id ≠ id') (hname : g.nameOf id = g.nameOf id') :
      SchemaRefusal g starts fields (.sharedName (g.nameOf id))

theorem SchemaRefusal.mono {g : TypeGraph ν} {starts starts' : List (TypeId ν)}
    {fields fields' : Members (QueryField ν)} {error : SchemaError}
    (h : SchemaRefusal g starts fields error) (hstarts : starts ⊆ starts')
    (hfields : fields ⊆ fields') : SchemaRefusal g starts' fields' error := by
  cases h with
  | inputReturned hf ho => exact .inputReturned (hfields hf) ho
  | sharedName h h' hne hname => exact .sharedName (h.mono hstarts) (h'.mono hstarts) hne hname

/-! ## Exploring -/

/-- The types of an index. -/
def TypeIndex.ids (index : TypeIndex ν) : List (TypeId ν) := index.map Prod.snd

/-- While types are pending, an index holds types under their names. All types that are met, indexed
or pending, are reached; what is started from is met, and so is what indexed types lead to. -/
structure Explores (g : TypeGraph ν) (starts : List (TypeId ν)) (index : TypeIndex ν)
    (pending : List (TypeId ν)) : Prop where
  distinct : index.keys.Nodup
  named : ∀ e ∈ index, g.nameOf e.2 = e.1
  reached : ∀ id ∈ index.ids ++ pending, g.IsReached starts id
  covered : starts ⊆ index.ids ++ pending
  closed : ∀ id ∈ index.ids, ∀ p ∈ (g.describe id).positions,
    p.type.base ∈ index.ids ++ pending

namespace Explores

variable {g : TypeGraph ν} {starts : List (TypeId ν)} {index : TypeIndex ν}
  {pending : List (TypeId ν)} {id : TypeId ν}

/-! ### Steps -/

/-- At first nothing is indexed. -/
theorem init (g : TypeGraph ν) (starts : List (TypeId ν)) : Explores g starts [] starts where
  distinct := List.nodup_nil
  named _ he := absurd he List.not_mem_nil
  reached id hid := ⟨id, hid, .self id⟩
  covered _ hid := hid
  closed _ hid := absurd hid List.not_mem_nil

/-- A pending type that is indexed is done. -/
theorem known (h : Explores g starts index (id :: pending)) (hid : id ∈ index.ids) :
    Explores g starts index pending := by
  have hmet : index.ids ++ id :: pending ⊆ index.ids ++ pending := by
    intro id' hid'
    rcases List.mem_append.mp hid' with hi | hp
    · exact List.mem_append_left _ hi
    · rcases List.mem_cons.mp hp with rfl | hp
      · exact List.mem_append_left _ hid
      · exact List.mem_append_right _ hp
  have hpending : index.ids ++ pending ⊆ index.ids ++ id :: pending := by
    intro id' hid'
    exact (List.mem_append.mp hid').elim (List.mem_append_left _)
      fun hp => List.mem_append_right _ (List.mem_cons_of_mem _ hp)
  exact
    { distinct := h.distinct
      named := h.named
      reached := fun id' hid' => h.reached id' (hpending hid')
      covered := fun id' hid' => hmet (h.covered hid')
      closed := fun id' hid' p hp => hmet (h.closed id' hid' p hp) }

/-- A pending type whose name is free is indexed, and what it leads to becomes pending. -/
theorem new (h : Explores g starts index (id :: pending))
    (hfree : index.get? (g.nameOf id) = none) :
    Explores g starts (index ++ [(g.nameOf id, id)])
      ((g.describe id).positions.map (fun p => p.type.base) ++ pending) := by
  have hids : TypeIndex.ids (index ++ [(g.nameOf id, id)]) = index.ids ++ [id] := by
    simp [TypeIndex.ids]
  have hmet : index.ids ++ id :: pending ⊆ index.ids ++ [id] ++
      ((g.describe id).positions.map (fun p => p.type.base) ++ pending) := by
    intro id' hid'
    simp only [List.mem_append, List.mem_cons, List.not_mem_nil, or_false] at hid' ⊢
    tauto
  have hid : g.IsReached starts id :=
    h.reached id (List.mem_append_right _ (List.mem_cons_self ..))
  constructor
  · rw [Members.keys_concat, List.nodup_append]
    refine ⟨h.distinct, List.pairwise_singleton _ _, ?_⟩
    intro name hname name' hsingle he
    obtain rfl := List.mem_singleton.mp hsingle
    rw [he] at hname
    exact Members.get?_eq_none_iff.mp hfree hname
  · intro e he
    rcases List.mem_append.mp he with he | he
    · exact h.named e he
    · rw [List.mem_singleton.mp he]
  · rw [hids]
    intro id' hid'
    simp only [List.mem_append, List.mem_singleton, List.mem_map] at hid'
    rcases hid' with (hi | rfl) | ⟨p, hp, rfl⟩ | hpending
    · exact h.reached id' (List.mem_append_left _ hi)
    · exact hid
    · exact hid.of_mem_positions hp
    · exact h.reached id' (List.mem_append_right _ (List.mem_cons_of_mem _ hpending))
  · rw [hids]
    exact fun id' hid' => hmet (h.covered hid')
  · rw [hids]
    intro id' hid' p hp
    rcases List.mem_append.mp hid' with hid' | hid'
    · exact hmet (h.closed id' hid' p hp)
    · obtain rfl := List.mem_singleton.mp hid'
      exact List.mem_append_right _ (List.mem_append_left _ (List.mem_map_of_mem hp))

/-- Further types may be started from. -/
theorem start (h : Explores g starts index []) (more : List (TypeId ν)) :
    Explores g (starts ++ more) index more where
  distinct := h.distinct
  named := h.named
  reached id hid := by
    rcases List.mem_append.mp hid with hi | hm
    · exact (h.reached id (List.mem_append_left _ hi)).mono (List.subset_append_left ..)
    · exact ⟨id, List.mem_append_right _ hm, .self id⟩
  covered id hid := by
    rcases List.mem_append.mp hid with hs | hm
    · have hi := h.covered hs
      rw [List.append_nil] at hi
      exact List.mem_append_left _ hi
    · exact List.mem_append_right _ hm
  closed id hid p hp := by
    have hi := h.closed id hid p hp
    rw [List.append_nil] at hi
    exact List.mem_append_left _ hi

/-! ### Runs -/

theorem mem_ids_of_get? {name : String} (h : index.get? name = some id) : id ∈ index.ids :=
  List.mem_map.mpr ⟨_, Members.mem_of_get? h, rfl⟩

/-- A run indexes all that is pending, or meets two types of one name. -/
theorem of_collect [DecidableEq ν] (h : Explores g starts index pending)
    (fields : Members (QueryField ν)) :
    (∀ index', collect g index pending = .ok index' → Explores g starts index' []) ∧
      ∀ fault, collect g index pending = .error fault →
        SchemaRefusal g starts fields fault.error := by
  fun_induction collect g index pending with
  | case1 index =>
    refine ⟨fun index' hok => ?_, fun fault herror => ?_⟩
    · obtain rfl := Except.ok.inj hok
      exact h
    · cases herror
  | case2 index id pending hknown ih => exact ih (h.known (mem_ids_of_get? hknown))
  | case3 index id pending known hknown hne =>
    refine ⟨fun index' hok => ?_, fun fault herror => ?_⟩
    · cases hok
    · obtain rfl := Except.error.inj herror
      have hname : g.nameOf known = g.nameOf id := h.named _ (Members.mem_of_get? hknown)
      have hreached := h.reached known (List.mem_append_left _ (mem_ids_of_get? hknown))
      have hid := h.reached id (List.mem_append_right _ (List.mem_cons_self ..))
      exact .sharedName hid hreached (Ne.symm hne) hname.symm
  | case4 index id pending hfree ih => exact ih (h.new hfree)

/-- A field that does not return an input object has its types indexed. -/
theorem collectField_cases [DecidableEq ν] (g : TypeGraph ν) (index : TypeIndex ν) (name : String)
    (field : QueryField ν) :
    (∃ o, g.describe field.type.base = .input o ∧
        Schema.collectField g index name field = .error ⟨.inputReturned name o.name, index⟩) ∨
      (∀ o, g.describe field.type.base ≠ .input o) ∧
        Schema.collectField g index name field = collect g index field.bases := by
  unfold Schema.collectField
  cases hd : g.describe field.type.base with
  | input o => exact Or.inl ⟨o, rfl, rfl⟩
  | scalar _ | enum _ => exact Or.inr ⟨fun o => nofun, rfl⟩

/-- A run over fields indexes all their types, unless one of them returns an input object or two
types have one name. -/
theorem of_collectFields [DecidableEq ν] (h : Explores g starts index [])
    (fields : Members (QueryField ν)) :
    (∀ index', fields.foldlM (fun index f => Schema.collectField g index f.1 f.2) index =
        .ok index' →
      Explores g (starts ++ fields.flatMap fun f => f.2.bases) index' [] ∧
        ∀ f ∈ fields, ∀ o, g.describe f.2.type.base ≠ .input o) ∧
      ∀ fault, fields.foldlM (fun index f => Schema.collectField g index f.1 f.2) index =
          .error fault →
        SchemaRefusal g (starts ++ fields.flatMap fun f => f.2.bases) fields fault.error := by
  induction fields generalizing starts index with
  | nil =>
    refine ⟨fun index' hok => ?_, fun fault herror => ?_⟩
    · obtain rfl := Except.ok.inj hok
      exact ⟨h.start [], fun f hf => absurd hf List.not_mem_nil⟩
    · cases herror
  | cons f rest ih =>
    have hall : starts ++ (f :: rest).flatMap (fun f => f.2.bases) =
        starts ++ f.2.bases ++ rest.flatMap fun f => f.2.bases := by simp
    rw [hall, List.foldlM_cons]
    rcases collectField_cases g index f.1 f.2 with ⟨o, ho, hfield⟩ | ⟨hinput, hfield⟩
    · refine ⟨fun index' hok => ?_, fun fault herror => ?_⟩
      · rw [hfield] at hok
        cases hok
      · rw [hfield] at herror
        obtain rfl := Except.error.inj herror
        exact .inputReturned (List.mem_cons_self ..) ho
    · obtain ⟨hcollected, hfault⟩ := (h.start f.2.bases).of_collect (f :: rest)
      rw [hfield]
      refine ⟨fun index' hok => ?_, fun fault herror => ?_⟩
      · obtain ⟨index₁, hindex₁, hrest⟩ := bind_eq_ok_iff.mp hok
        obtain ⟨hexplores, hinputs⟩ := (ih (hcollected index₁ hindex₁)).1 index' hrest
        exact ⟨hexplores, List.forall_mem_cons.mpr ⟨hinput, hinputs⟩⟩
      · rcases bind_eq_error_iff.mp herror with herror | ⟨index₁, hindex₁, hrest⟩
        · exact (hfault fault herror).mono (List.subset_append_left ..) (List.Subset.refl _)
        · exact ((ih (hcollected index₁ hindex₁)).2 fault hrest).mono (List.Subset.refl _)
            (List.subset_cons_self ..)

/-! ### What has been explored -/

section Done

variable (h : Explores g starts index [])
include h

/-- Once nothing is pending, the index holds exactly what is reached. -/
theorem mem_ids_iff : id ∈ index.ids ↔ g.IsReached starts id := by
  refine ⟨fun hid => h.reached id (List.mem_append_left _ hid), ?_⟩
  rintro ⟨start, hstart, hr⟩
  have hmet : start ∈ index.ids := by simpa using h.covered hstart
  clear hstart
  induction hr with
  | self => exact hmet
  | field ho hf _ ih =>
    refine ih ?_
    have hp := h.closed _ hmet _ (by rw [ho]; exact List.mem_map_of_mem hf)
    simpa using hp

/-- Each under its name. -/
theorem get?_eq_some_iff {name : String} :
    index.get? name = some id ↔ g.IsReached starts id ∧ g.nameOf id = name := by
  rw [Members.get?_eq_some_iff h.distinct, ← h.mem_ids_iff]
  constructor
  · intro he
    exact ⟨List.mem_map.mpr ⟨_, he, rfl⟩, h.named _ he⟩
  · rintro ⟨hid, rfl⟩
    obtain ⟨e, he, rfl⟩ := List.mem_map.mp hid
    rwa [h.named e he]

/-- No two types that are reached have one name. -/
theorem eq_of_nameOf_eq {id' : TypeId ν} (hid : g.IsReached starts id)
    (hid' : g.IsReached starts id') (hname : g.nameOf id = g.nameOf id') : id = id' := by
  have hget := h.get?_eq_some_iff.mpr ⟨hid, rfl⟩
  rw [h.get?_eq_some_iff.mpr ⟨hid', hname.symm⟩] at hget
  exact (Option.some.inj hget).symm

end Done

end Explores

/-! ## Schemas -/

section Define

variable [DecidableEq ν] {g : TypeGraph ν} {query : Declared (QueryField ν)}
  {extra : List (TypeId ν)}

theorem explores_of_define {s : Schema ν} (h : Schema.define g query extra = .ok s) :
    s.graph = g ∧ s.query = query ∧ Explores g (Schema.starts query extra) s.index [] ∧
      ∀ f ∈ query.entries, ∀ o, g.describe f.2.type.base ≠ .input o := by
  obtain ⟨base, hbase, h⟩ := bind_eq_ok_iff.mp h
  obtain ⟨index, hindex, h⟩ := bind_eq_ok_iff.mp h
  obtain rfl := Except.ok.inj h
  have hexplores := ((Explores.init g _).of_collect query.entries).1 base hbase
  exact ⟨rfl, rfl, (hexplores.of_collectFields query.entries).1 index hindex⟩

theorem refusal_of_define {fault : SchemaFault ν}
    (h : Schema.define g query extra = .error fault) :
    SchemaRefusal g (Schema.starts query extra) query.entries fault.error := by
  have hinit := (Explores.init g (Builtin.all.map .builtin ++ extra)).of_collect query.entries
  rcases bind_eq_error_iff.mp h with h | ⟨base, hbase, h⟩
  · exact (hinit.2 fault h).mono (List.subset_append_left ..) (List.Subset.refl _)
  · rcases bind_eq_error_iff.mp h with h | ⟨index, _, h⟩
    · exact ((hinit.1 base hbase).of_collectFields query.entries).2 fault h
    · cases h

/-- Where there is a schema, there is no reason against it. -/
theorem not_refusal_of_define {s : Schema ν} (h : Schema.define g query extra = .ok s)
    (error : SchemaError) : ¬ SchemaRefusal g (Schema.starts query extra) query.entries error := by
  obtain ⟨-, -, hexplores, hinputs⟩ := explores_of_define h
  rintro (⟨hf, ho⟩ | ⟨hid, hid', hne, hname⟩)
  · exact hinputs _ hf _ ho
  · exact hne (hexplores.eq_of_nameOf_eq hid hid' hname)

/-- **The index is complete, closed and consistent.** Of any types, cyclic or not, and any fields
there is a schema exactly if there is no reason against it, and an error tells such a reason. The
index of a schema leads from a name to a type exactly if that type is reached and has that name, so
the types of the fields of indexed input objects are indexed. -/
theorem define_index (g : TypeGraph ν) (query : Declared (QueryField ν))
    (extra : List (TypeId ν)) :
    ((∃ fault, Schema.define g query extra = .error fault) ↔
      ∃ error, SchemaRefusal g (Schema.starts query extra) query.entries error) ∧
    (∀ fault, Schema.define g query extra = .error fault →
      SchemaRefusal g (Schema.starts query extra) query.entries fault.error) ∧
    ∀ s, Schema.define g query extra = .ok s →
      s.graph = g ∧ s.query = query ∧ s.index.keys.Nodup ∧
      (∀ name id, s.index.get? name = some id ↔
        g.IsReached (Schema.starts query extra) id ∧ g.nameOf id = name) ∧
      ∀ name id o, s.index.get? name = some id → g.describe id = .input o →
        ∀ f ∈ o.fields.entries,
          s.index.get? (g.nameOf f.2.type.base) = some f.2.type.base := by
  refine ⟨⟨?_, ?_⟩, fun fault h => refusal_of_define h, fun s h => ?_⟩
  · rintro ⟨fault, h⟩
    exact ⟨_, refusal_of_define h⟩
  · rintro ⟨error, hrefusal⟩
    cases h : Schema.define g query extra with
    | error fault => exact ⟨fault, rfl⟩
    | ok s => exact absurd hrefusal (not_refusal_of_define h error)
  · obtain ⟨hgraph, hquery, hexplores, -⟩ := explores_of_define h
    refine ⟨hgraph, hquery, hexplores.distinct, fun name id => hexplores.get?_eq_some_iff, ?_⟩
    intro name id o hid ho f hf
    have hreached := (hexplores.get?_eq_some_iff.mp hid).1
    refine hexplores.get?_eq_some_iff.mpr ⟨hreached.of_mem_positions ?_, rfl⟩
    rw [ho]
    exact List.mem_map_of_mem hf

end Define

/-! ## Twins -/

/-- Two nodes of different names that lead to each other, and a third with the name of the
second. -/
def twins : TypeGraph (Fin 3) where
  declared n := .input
    { name := if n = 0 then "Left" else "Right"
      fields := ⟨[("next", ⟨.named (.declared (if n = 0 then 1 else 0)), none⟩)],
        (by decide : ["next"].Nodup)⟩
      unreserved := (by decide : Members.reservedKey ∉ ["next"]) }
  all := [0, 1, 2]
  mem_all := by decide

theorem exists_schema_twins : ∃ s, Schema.define twins .empty [.declared 0] = .ok s := by
  have hok : (Schema.define twins .empty [.declared 0]).isOk = true := by cbv
  cases h : Schema.define twins .empty [.declared 0] with
  | ok s => exact ⟨s, rfl⟩
  | error fault =>
    rw [h] at hok
    cases hok

theorem twins_reaches : twins.Reaches (.declared 0) (.declared 1) :=
  .of_field (f := ("next", ⟨.named (.declared 1), none⟩)) rfl (List.mem_singleton_self _)

theorem define_index_twins :
    (∃ s, Schema.define twins .empty [.declared 0] = .ok s ∧
      s.index.get? "Right" = some (.declared 1) ∧ s.index.get? "Left" = some (.declared 0)) ∧
    ∃ fault, Schema.define twins .empty [.declared 0, .declared 2] = .error fault := by
  constructor
  · obtain ⟨s, hs⟩ := exists_schema_twins
    obtain ⟨-, -, -, hget, hclosed⟩ := (define_index twins .empty [.declared 0]).2.2 s hs
    have hright : s.index.get? "Right" = some (.declared 1) :=
      (hget _ _).mpr ⟨⟨.declared 0, by decide, twins_reaches⟩, rfl⟩
    exact ⟨s, hs, hright, hclosed _ _ _ hright rfl _ (List.mem_singleton_self _)⟩
  · have hleft : twins.IsReached (Schema.starts .empty [.declared 0, .declared 2]) (.declared 1) :=
      ⟨.declared 0, by decide, twins_reaches⟩
    have hright : twins.IsReached (Schema.starts .empty [.declared 0, .declared 2]) (.declared 2) :=
      ⟨.declared 2, by decide, .self _⟩
    exact (define_index twins .empty [.declared 0, .declared 2]).1.mpr
      ⟨_, .sharedName hleft hright (by decide) rfl⟩

end TypedQuery
