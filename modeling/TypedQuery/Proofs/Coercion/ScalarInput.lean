import TypedQuery.Proofs.Coercion.Done
import TypedQuery.Proofs.Coercion.Required

/-!
# What scalars read

A scalar reads the resolved literal, whatever was written with references.

* `resolve_list`, `resolve_object`: null in lists, and no field in objects, for what leaves the
  default of a position in force;
* `Supplies`, `toValue_resolve`: if all variables are supplied, the plain value of the resolved
  literal is that of the literal together with the supplied values;
* `scalar_reads_resolved`: what a scalar reads, and when a scalar of plain values accepts it.
-/

namespace TypedQuery

namespace Context

variable {ν : Type} (g : TypeGraph ν) {ctx : Context ν} {path : Path} {raw : Raw}

/-! ## What is left out -/

/-- Where nothing is lacking, what leaves a default in force is what becomes absent. -/
theorem leavesDefault_of_lackOf (hc : ctx.HasConstantDefaults)
    (h : ∀ name, .variable name ∈ raw.nodes → ctx.lackOf g path name = []) :
    ctx.leavesDefault raw = (raw.substitute ctx.standFor).isAbsent :=
  leavesDefault_eq hc fun name hn _ hd hreq => (hasValue_of_lackOf hd hreq (h name hn)).2

/-- In lists null takes the place of what leaves a default in force. -/
theorem resolve_list (hc : ctx.HasConstantDefaults) {items : List Raw}
    (h : ∀ name, .variable name ∈ (Raw.list items).nodes → ctx.lackOf g path name = []) :
    ctx.resolve (.list items) =
      .list (items.map fun item => if ctx.leavesDefault item then .null else ctx.resolve item) := by
  rw [resolve, Raw.substitute, Raw.compact, Raw.compactItems_eq_map, Raw.substituteItems_eq_map,
    List.map_map]
  refine congrArg Raw.list (List.map_congr_left fun item hitem => ?_)
  have hinside : ∀ name, .variable name ∈ item.nodes → ctx.lackOf g path name = [] :=
    fun name hn => h name (Raw.variable_mem_of_items? rfl hitem hn)
  rw [leavesDefault_of_lackOf g hc hinside]
  rfl

/-- Objects drop it. -/
theorem resolve_object (hc : ctx.HasConstantDefaults) {fields : List (String × Raw)}
    (h : ∀ name, .variable name ∈ (Raw.object fields).nodes → ctx.lackOf g path name = []) :
    ctx.resolve (.object fields) =
      .object ((fields.filter fun f => !ctx.leavesDefault f.2).map
        fun f => (f.1, ctx.resolve f.2)) := by
  have hfilter : (fields.filter fun f => !ctx.leavesDefault f.2) =
      fields.filter fun f => !(f.2.substitute ctx.standFor).isAbsent := by
    refine List.filter_congr fun f hf => ?_
    have hinside : ∀ name, .variable name ∈ f.2.nodes → ctx.lackOf g path name = [] :=
      fun name hn => h name (by simpa [Raw.nodes] using Raw.mem_fieldNodes.mpr ⟨f, hf, hn⟩)
    rw [leavesDefault_of_lackOf g hc hinside]
  rw [resolve, Raw.substitute, Raw.compact, Raw.compactFields_eq_map, Raw.substituteFields_eq_map,
    List.filter_map, List.map_map, hfilter]
  rfl

/-! ## Supplied variables -/

/-- A variable has a supplied value, which is not null if it is declared with a required type. -/
def Supplies (ctx : Context ν) (name : String) : Prop :=
  ∃ value, ctx.supplied? name = some value ∧
    ∀ d, ctx.definition? name = some d → d.type.isRequired = true → value ≠ .null

theorem Supplies.lackOf_eq_nil {name : String} (h : ctx.Supplies name) :
    ctx.lackOf g path name = [] := by
  obtain ⟨value, hvalue, hnull⟩ := h
  refine Context.lackOf_eq_nil g (fun d hd hreq => ⟨?_, Or.inl ?_⟩) path
  · rw [hvalue]
    exact fun hs => hnull d hd hreq (Option.some.inj hs)
  · rw [hvalue]
    exact Option.some_ne_none value

/-- A supplied value is a member of the supplied values, also under the reserved key. -/
theorem read_supplied {name : String} {value : Value} (h : ctx.supplied? name = some value) :
    (Value.record ctx.supplied).read name = value := by
  have hget : ctx.supplied.get? name = some value := by
    unfold supplied? at h
    split at h
    · cases h
    · exact h
  unfold Value.read
  rw [if_neg]
  · simp [Value.record, Value.member?, hget]
  · rintro ⟨rfl, hreserved⟩
    simp [Value.record, Value.namesAncestor, Value.hasMember, hget] at hreserved

/-- If a literal holds no absences and all its variables are supplied, it is resolved once they are
replaced, and its plain value is that together with the supplied values. -/
theorem toValue_resolve (ha : ∀ n ∈ raw.nodes, n.isAbsent = false)
    (h : ∀ name, .variable name ∈ raw.nodes → ctx.Supplies name) :
    (ctx.resolve raw).toValue [] = raw.toValue ctx.supplied := by
  have hstand : ∀ name, .variable name ∈ raw.nodes →
      ctx.standFor name = .external ((Value.record ctx.supplied).read name) := by
    intro name hn
    obtain ⟨value, hvalue, -⟩ := h name hn
    rw [read_supplied hvalue, standFor_supplied hvalue]
  have hconstant : (raw.substitute ctx.standFor).IsConstant :=
    Raw.isConstant_substitute ha fun name hn => hstand name hn ▸ Raw.isConstant_external _
  rw [resolve, hconstant.compact_eq]
  refine Raw.toValue_substitute fun name hn => ?_
  rw [hstand name hn]
  rfl

end Context

namespace Coercion

variable {ν : Type} {g : TypeGraph ν} {ctx : Context ν}

/-- **Scalars read resolved literals.** Unless a reference in it lacks a value, a literal is judged
by what its scalar says of the resolved literal, which holds neither references nor absences at any
depth: in its lists null takes the place of absences and of the variables that have no value and
need none, and its objects drop their fields. If nothing in the literal is absent and its variables
are supplied, a scalar of plain values accepts what it says of the plain value of the literal
together with the supplied values. -/
theorem scalar_reads_resolved (hc : ctx.HasConstantDefaults) {id : TypeId ν} {s : Scalar}
    (hs : g.describe id = .scalar s) {raw : Raw} (hp : isPresent raw = true) (path : Path) :
    coerce g ctx (.named id) raw path =
        (if (ctx.lacking g path raw).isEmpty then judge s (ctx.resolve raw) path
          else .ok (.fail (ctx.lacking g path raw))) ∧
      (ctx.resolve raw).IsConstant ∧
      (ctx.lacking g path raw = [] →
        (∀ trail items, raw.WrittenAt trail (.list items) →
          (ctx.resolve raw).WrittenAt trail (.list (items.map fun item =>
            if ctx.leavesDefault item then .null else ctx.resolve item))) ∧
        ∀ trail fields, raw.WrittenAt trail (.object fields) →
          (ctx.resolve raw).WrittenAt trail (.object
            ((fields.filter fun f => !ctx.leavesDefault f.2).map
              fun f => (f.1, ctx.resolve f.2)))) ∧
      ∀ name description parseValue serialize, s = .ofPlain name description parseValue serialize →
        (∀ n ∈ raw.nodes, n.isAbsent = false) →
        (∀ name, .variable name ∈ raw.nodes → ctx.Supplies name) →
        ∀ v, coerce g ctx (.named id) raw path = .ok (.done (some v)) ↔
          parseValue (raw.toValue ctx.supplied) = .accepted v := by
  refine ⟨coerce_resolve hc hs hp path, Context.isConstant_resolve hc hp, fun hnone => ⟨?_, ?_⟩, ?_⟩
  · intro trail items hw
    have hinside := fun name hn =>
      (Context.lacking_eq_nil_iff g).mp hnone name (hw.nodes_subset hn)
    exact Context.resolve_list g hc hinside ▸ Context.writtenAt_resolve hw rfl
  · intro trail fields hw
    have hinside := fun name hn =>
      (Context.lacking_eq_nil_iff g).mp hnone name (hw.nodes_subset hn)
    exact Context.resolve_object g hc hinside ▸ Context.writtenAt_resolve hw rfl
  · rintro name description parseValue serialize rfl ha hsupplied v
    have hnone : ctx.lacking g path raw = [] :=
      (Context.lacking_eq_nil_iff g).mpr fun name hn => (hsupplied name hn).lackOf_eq_nil g
    rw [coerce_resolve hc hs hp, hnone, List.isEmpty_nil, if_pos rfl, judge_eq_done_iff]
    simp only [Scalar.ofPlain, Context.toValue_resolve ha hsupplied, Option.some.injEq,
      exists_eq_right']

/-! ## A literal of which a part is left out -/

/-- An operation of two variables, of which one is supplied. -/
def smallSupplied : Context Unit :=
  ⟨[("x", .string "small")],
    [⟨"x", .required (.named (.builtin .string)), none⟩, ⟨"y", .named (.builtin .string), none⟩]⟩

theorem smallSupplied_hasConstantDefaults : smallSupplied.HasConstantDefaults := by
  intro name literal h
  obtain ⟨d, hd, hliteral⟩ := Option.bind_eq_some_iff.mp h
  have hmem := List.mem_reverse.mp (List.mem_of_find?_eq_some hd)
  simp only [smallSupplied, List.mem_cons, List.not_mem_nil, or_false] at hmem
  rcases hmem with rfl | rfl <;> cases hliteral

/-- A literal whose list refers to both variables, and whose last field is dropped. -/
def readsBoth : Raw :=
  .object [("a", .list [.variable "x", .variable "y"]), ("b", .variable "y")]

/-- A literal that refers to the supplied variable only. -/
def readsSmall : Raw := .object [("a", .list [.variable "x"])]

theorem supplies_of_mem_readsSmall {name : String} (h : .variable name ∈ readsSmall.nodes) :
    smallSupplied.Supplies name := by
  obtain rfl : name = "x" := by
    simpa [readsSmall, Raw.nodes, Raw.fieldNodes, Raw.itemNodes] using h
  exact ⟨.string "small", rfl, fun _ _ _ => nofun⟩

theorem scalar_reads_resolved_small :
    coerce anything smallSupplied (.named (.declared ())) readsBoth [] =
        judge anyScalar (.object [("a", .list [.external (.string "small"), .null])]) [] ∧
      (smallSupplied.resolve readsBoth).WrittenAt [.field "a"]
        (.list [.external (.string "small"), .null]) ∧
      coerce anything smallSupplied (.named (.declared ())) readsSmall [] =
        .ok (.done (some (.record [("a", .list [.string "small"])]))) := by
  have hall := fun raw hp =>
    @scalar_reads_resolved Unit anything smallSupplied smallSupplied_hasConstantDefaults
      (.declared ()) anyScalar rfl raw hp []
  obtain ⟨hjudged, -, hleft, -⟩ := hall readsBoth rfl
  obtain ⟨-, -, -, hplain⟩ := hall readsSmall rfl
  have hwritten : readsBoth.WrittenAt [.field "a"] (.list [.variable "x", .variable "y"]) :=
    .field (List.mem_cons_self ..) (.here _)
  have habsent : ∀ n ∈ readsSmall.nodes, n.isAbsent = false := by
    simp [readsSmall, Raw.nodes, Raw.fieldNodes, Raw.itemNodes, Raw.isAbsent]
  refine ⟨hjudged.trans rfl, (hleft rfl).1 _ _ hwritten, ?_⟩
  exact (hplain _ _ _ _ rfl habsent (fun _ => supplies_of_mem_readsSmall) _).mpr rfl

end Coercion

end TypedQuery
