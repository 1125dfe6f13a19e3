import Mathlib.Data.List.Permutation
import TypedQuery.Proofs.Coercion.Arguments
import TypedQuery.Proofs.Coercion.Substitution
import TypedQuery.Proofs.Coercion.Telling
import TypedQuery.Schema.Basic

/-!
# Coercion ends

Types may be recursive. What keeps a coercion going without an end are defaults only: each step
that puts no default in place takes a part of the raw value, and what a variable stands for refers
to no other variable.

* `coerceAt_ne_endless`: where defaults lead away from the objects that declare them, a budget of
  the defaults ahead suffices;
* `coercion_ends`: then every coercion has an outcome, unless it has to show what has no text;
* `nodes`: a recursive type, and a default for which no coercion of it ends.
-/

namespace TypedQuery

namespace Context

variable {ν : Type} {g : TypeGraph ν} {ctx : Context ν}

/-- A reference inside a literal is replaced in one hop. -/
theorem inlineVariable_ne_error (hs : ctx.HasSettledDefaults) (path : Path) (hops : Nat)
    (name : String) (e : Fault) : inlineVariable g ctx path (hops + 1) name ≠ .error e := by
  intro he
  unfold inlineVariable at he
  dsimp only at he
  split at he
  · cases he
  · split at he
    · next literal hd =>
      obtain ⟨name', hn, _⟩ := exists_of_inlineWith_eq_error he
      exact (hs name literal hd).variable_notMem name' hn
    · cases he

theorem inline_ne_error (hs : ctx.HasSettledDefaults) (path : Path) (raw : Raw) (e : Fault) :
    ctx.inline g path raw ≠ .error e := by
  intro he
  obtain ⟨name, _, he⟩ := exists_of_inlineWith_eq_error he
  exact inlineVariable_ne_error hs path _ name e he

end Context

namespace Coercion

variable {ν : Type} {g : TypeGraph ν} {ctx : Context ν} {hops defaults : Nat}

/-! ## Leaves -/

theorem refuse_ne_endless (raw : Raw) (failure : String → Failure) :
    refuse raw failure ≠ .error .endless := by
  unfold refuse
  split <;> simp

theorem judge_ne_endless (s : Scalar) (raw : Raw) (path : Path) :
    judge s raw path ≠ .error .endless := by
  unfold judge
  split
  · simp
  · exact refuse_ne_endless _ _
  · split
    · exact refuse_ne_endless _ _
    · simp

theorem coerceScalar_ne_endless (hs : ctx.HasSettledDefaults) (s : Scalar) (raw : Raw)
    (path : Path) : coerceScalar g ctx s raw path ≠ .error .endless := by
  intro he
  rcases bind_eq_error_iff.mp he with he | ⟨r, _, he⟩
  · exact Context.inline_ne_error hs path raw _ he
  · dsimp only at he
    split at he
    · exact judge_ne_endless s _ path he
    · cases he

theorem coerceEnum_ne_endless (e : EnumType) (raw : Raw) (path : Path) :
    coerceEnum e raw path ≠ .error .endless := by
  unfold coerceEnum
  split
  · simp
  · exact refuse_ne_endless _ _

/-! ## Every position -/

/-- A coercion ends within a budget of one hop and of the defaults ahead: behind each default that
stands in there are fewer. -/
theorem coerceAt_ne_endless (hg : g.DefaultsLeadAway) (hs : ctx.HasSettledDefaults)
    {type : TypeRef (TypeId ν)} {raw : Raw} (hd : g.defaultsAhead type.base ≤ defaults)
    (hh : ∀ name, .variable name ∈ raw.nodes → hops ≠ 0) (path : Path) :
    coerceAt g ctx hops defaults type raw path ≠ .error .endless := by
  induction hops, defaults, type, raw using coercion_induction g ctx generalizing path with
  | reference hops defaults type name ih =>
    rw [coerceAt_variable]
    cases hr : ctx.reading g name type path with
    | error failure => simp
    | ok stand =>
      obtain rfl := Context.reading_eq_ok g hr
      cases hops with
      | zero => exact absurd rfl (hh name (Raw.mem_nodes_self _))
      | succ hops =>
        have hsettled := Context.isSettled_standFor hs name
        exact ih hops rfl hd (fun name' hn => absurd hn (hsettled.variable_notMem name')) path
  | absent hops defaults type =>
    rw [coerceAt_absent]
    simp
  | null hops defaults type raw hn =>
    rw [coerceAt_null _ _ _ _ hn]
    simp
  | required hops defaults inner raw hp ih =>
    rw [coerceAt_required _ _ _ _ hp]
    exact ih hd hh path
  | list hops defaults item raw hp ih =>
    rw [coerceAt_list _ _ _ _ hp]
    cases hitems : raw.items? with
    | none => exact refuse_ne_endless _ _
    | some items =>
      intro he
      obtain ⟨held, hi, _, he⟩ := exists_of_coerceItems_eq_error (map_eq_error_iff.mp he)
      have hinside : ∀ name, .variable name ∈ held.nodes → hops ≠ 0 := fun name hn =>
        hh name (Raw.variable_mem_of_items? hitems hi hn)
      exact ih items hitems held hi hd hinside _ he
  | scalar hops defaults id s raw hp hscalar =>
    rw [coerceAt_scalar _ _ _ _ hp hscalar]
    exact coerceScalar_ne_endless hs s raw path
  | enum hops defaults id e raw hp he =>
    rw [coerceAt_enum _ _ _ _ hp he]
    exact coerceEnum_ne_endless e raw path
  | input hops defaults id o raw hp ho ih ihd =>
    rw [coerceAt_input _ _ _ _ hp ho]
    split
    · next hobject =>
      intro he
      obtain ⟨f, hf, he⟩ := exists_of_coerceFields_eq_error (map_eq_error_iff.mp he)
      rcases coerceField_cases raw path f.1 f.2 with ⟨_, hc⟩ | ⟨v, hv, hdefault⟩
      · have hahead := TypeGraph.defaultsAhead_le_of_reaches (.of_field ho hf)
        exact ih hobject f hf (Nat.le_trans hahead hd)
          (fun name hn => hh name (Raw.variable_mem_of_field hn)) _ (hc.symm.trans he)
      · -- a default is larger than what it stands in for; only the defaults ahead are fewer
        have hahead : g.defaultsAhead f.2.type.base < defaults :=
          Nat.lt_of_lt_of_le (TypeGraph.defaultsAhead_lt hg ho hf (by simp [hv])) hd
        rcases hdefault with ⟨hzero, _⟩ | ⟨d, hsucc, hc⟩
        · omega
        · have hconstant := Raw.isConstant_external v
          exact ihd f hf v hv d hsucc (by omega)
            (fun name hn => absurd hn (hconstant.isSettled.variable_notMem name)) _
            (hc.symm.trans he)
    · exact refuse_ne_endless _ _

theorem coerce_ne_endless (hg : g.DefaultsLeadAway) (hs : ctx.HasSettledDefaults)
    (type : TypeRef (TypeId ν)) (raw : Raw) (path : Path) :
    coerce g ctx type raw path ≠ .error .endless :=
  coerceAt_ne_endless hg hs (g.defaultsAhead_le_length _) (fun _ _ => Nat.succ_ne_zero _) path

theorem coerceArguments_ne_endless (hg : g.DefaultsLeadAway) (hs : ctx.HasSettledDefaults)
    (declared : Declared (Position ν)) (supplied : Members Raw) (enforce : Bool) :
    coerceArguments g ctx declared supplied enforce ≠ .error .endless := by
  intro he
  obtain ⟨name, position, raw, _, he⟩ := exists_of_coerceArguments_eq_error he
  exact coerce_ne_endless hg hs _ _ _ he

theorem exists_ok {α : Type} {x : Except Fault α} (hendless : x ≠ .error .endless)
    (htextless : x ≠ .error .textless) : ∃ o, x = .ok o := by
  match x with
  | .ok o => exact ⟨o, rfl⟩
  | .error .endless => exact absurd rfl hendless
  | .error .textless => exact absurd rfl htextless

/-! ## A recursive type -/

/-- Nodes have a label, which is empty unless said otherwise, and may lead to a next one. -/
def nodes (next : Option Value) : TypeGraph Unit where
  declared _ := .input
    { name := "Node"
      fields := ⟨[("label", ⟨.named (.builtin .string), some (.string "")⟩),
        ("next", ⟨.named (.declared ()), next⟩)], (by decide : ["label", "next"].Nodup)⟩
      unreserved := (by decide : Members.reservedKey ∉ ["label", "next"]) }
  all := [()]
  mem_all n := List.mem_singleton_self n

theorem nodes_defaultsLeadAway : (nodes none).DefaultsLeadAway := by
  intro id o ho f hf hd hr
  cases id with
  | builtin b => cases ho
  | declared n =>
    obtain rfl := NamedType.input.inj ho
    rcases List.mem_cons.mp hf with rfl | hf
    · cases hr.eq_of_builtin
    · obtain rfl := List.mem_singleton.mp hf
      cases hd

theorem nodes_canTell : Context.CanTell (nodes none) .empty where
  thrown _ _ hs := by cases hs
  stand _ := Option.some_ne_none _
  fallback position hp v hv := by
    rcases List.mem_cons.mp hp with rfl | hp
    · obtain rfl := Option.some.inj hv
      exact Option.some_ne_none _
    · obtain rfl := List.mem_singleton.mp hp
      cases hv

/-- If the next node is an empty one unless said otherwise, no coercion of such a node ends. -/
theorem coerceAt_nodes_endless (hops defaults : Nat) (path : Path) :
    coerceAt (nodes (some (.record []))) .empty hops defaults (.named (.declared ()))
      (.external (.record [])) path = .error .endless := by
  induction defaults generalizing path with
  | zero =>
    rw [coerceAt_input (nodes (some (.record []))) .empty hops 0 rfl rfl path]
    rfl
  | succ d ih =>
    have hlabel : coerceAt (nodes (some (.record []))) .empty hops d (.named (.builtin .string))
        (.external (.string "")) (path ++ [.field "label"]) = .ok (.done (some (.string ""))) :=
      (coerceAt_scalar _ _ _ _ rfl rfl _).trans rfl
    have hnext := ih (path ++ [.field "next"])
    rw [coerceAt_input (nodes (some (.record []))) .empty hops (d + 1) rfl rfl path]
    refine map_eq_error_iff.mpr ?_
    change List.mapM _ [_, _] = _
    rw [List.mapM_cons, List.mapM_cons]
    refine bind_eq_error_iff.mpr (Or.inr ⟨_, congrArg (Except.map ("label", ·)) hlabel, ?_⟩)
    exact bind_eq_error_iff.mpr (Or.inl
      (bind_eq_error_iff.mpr (Or.inl (congrArg (Except.map ("next", ·)) hnext))))

theorem graph_of_define [DecidableEq ν] {query : Declared (QueryField ν)}
    {extra : List (TypeId ν)} {s : Schema ν} (h : Schema.define g query extra = .ok s) :
    s.graph = g := by
  unfold Schema.define at h
  cases hbase : collect g [] (Builtin.all.map .builtin ++ extra) with
  | error e => simp [hbase, bind, Except.bind] at h
  | ok base =>
    cases hindex : query.entries.foldlM
        (fun index f => Schema.collectField g index f.1 f.2) base with
    | error e => simp [hbase, hindex, bind, Except.bind] at h
    | ok index =>
      simp only [hbase, hindex, bind, Except.bind, pure, Except.pure, Except.ok.injEq] at h
      rw [← h]

/-- Nothing keeps such a type out of a schema. -/
theorem exists_schema_endless :
    ∃ s : Schema Unit,
      Schema.define (nodes (some (.record []))) .empty [.declared ()] = .ok s ∧
      ¬ s.graph.DefaultsLeadAway ∧
      ∀ hops defaults path, coerceAt s.graph .empty hops defaults (.named (.declared ()))
        (.external (.record [])) path = .error .endless := by
  have hok : (Schema.define (nodes (some (.record []))) .empty [.declared ()]).isOk = true := by
    cbv
  cases hdefine : Schema.define (nodes (some (.record []))) .empty [.declared ()] with
  | error e =>
    rw [hdefine] at hok
    cases hok
  | ok s =>
    have hgraph := graph_of_define hdefine
    refine ⟨s, rfl, ?_, ?_⟩
    · rw [hgraph]
      intro hg
      exact hg (.declared ()) _ rfl _ (List.mem_cons_of_mem _ (List.mem_singleton_self _)) rfl
        (.self _)
    · rw [hgraph]
      exact coerceAt_nodes_endless

/-! ## All coercions -/

/-- **Coercion ends.** Types may be recursive and raw values of any depth: where defaults lead away
from the objects that declare them, and those of variables hold no references, no coercion of a
value, of a position or of arguments goes on without an end, and each has an outcome if whatever it
may have to show has a text. No schema is refused for a default that leads back; the coercion of an
empty object to such a type may then never end. -/
theorem coercion_ends (hg : g.DefaultsLeadAway) (hs : ctx.HasSettledDefaults) :
    (∀ (type : TypeRef (TypeId ν)) (raw : Raw) (path : Path),
      coerce g ctx type raw path ≠ .error .endless ∧
        (ctx.CanTell g → raw.text? ≠ none → ∃ o, coerce g ctx type raw path = .ok o)) ∧
    (∀ (position : Position ν) (raw : Raw) (path : Path),
      coercePosition g ctx position raw path ≠ .error .endless ∧
        (ctx.CanTell g → position.ShowsDefault → raw.text? ≠ none →
          ∃ o, coercePosition g ctx position raw path = .ok o)) ∧
    (∀ (declared : Declared (Position ν)) (supplied : Members Raw) (enforce : Bool),
      coerceArguments g ctx declared supplied enforce ≠ .error .endless ∧
        (ctx.CanTell g → (∀ f ∈ declared.entries, f.2.ShowsDefault) →
          (∀ m ∈ supplied, m.2.text? ≠ none) →
          ∃ o, coerceArguments g ctx declared supplied enforce = .ok o)) ∧
    ∃ s : Schema Unit,
      Schema.define (nodes (some (.record []))) .empty [.declared ()] = .ok s ∧
      ¬ s.graph.DefaultsLeadAway ∧
      ∀ hops defaults path, coerceAt s.graph .empty hops defaults (.named (.declared ()))
        (.external (.record [])) path = .error .endless := by
  refine ⟨fun type raw path => ?_, fun position raw path => ?_,
    fun declared supplied enforce => ?_, exists_schema_endless⟩
  · have hend := coerce_ne_endless hg hs type raw path
    exact ⟨hend, fun ht h => exists_ok hend (coerceAt_ne_textless ht type h path)⟩
  · have hend : coercePosition g ctx position raw path ≠ .error .endless :=
      coerce_ne_endless hg hs _ _ path
    exact ⟨hend, fun ht hd h => exists_ok hend (coercePosition_ne_textless ht hd h path)⟩
  · have hend := coerceArguments_ne_endless hg hs declared supplied enforce
    exact ⟨hend, fun ht hd h => exists_ok hend (coerceArguments_ne_textless ht hd h enforce)⟩

theorem coercion_ends_node :
    ∃ o, coerce (nodes none) .empty (.named (.declared ()))
      (.object [("next", .object [("next", .object [])])]) [] = .ok o := by
  have hs : Context.HasSettledDefaults (.empty : Context Unit) := fun _ _ h => by cases h
  have hall := coercion_ends nodes_defaultsLeadAway hs
  exact (hall.1 _ _ _).2 nodes_canTell (Option.some_ne_none _)

/-- No coercion that has to show an instance that hides its writer has an outcome. -/
theorem coerce_list_mute :
    (nodes none).DefaultsLeadAway ∧ Context.HasSettledDefaults (.empty : Context Unit) ∧
      coerce (nodes none) .empty (.list (.named (.builtin .int))) (.external mute) [] =
        .error .textless := by
  have hs : Context.HasSettledDefaults (.empty : Context Unit) := fun _ _ h => by cases h
  exact ⟨nodes_defaultsLeadAway, hs, (coerce_list hs rfl _ _).trans rfl⟩

end Coercion

end TypedQuery
