import TypedQuery.Proofs.Coercion.Parts
import TypedQuery.Proofs.Query.Printed
import TypedQuery.Proofs.Schema.Index

/-!
# Printed type references

A type reference is printed in query syntax, where a mark behind a reference demands a value. What
is printed reads back, and a schema finds the type again by its name.

* `TypeRef.DemandsOnce`: references that query syntax can say;
* `TypeRef.tokens`, `tokens_render`: the tokens of a reference, to which its text is cut;
* `run_typeWithin`, `readType_render`: they are read as that reference;
* `mapOption_eq_none_iff`, `map_of_mapOption`: replacing the named type inside a reference;
* `define_references`: types and printed references through a schema, back and forth.
-/

namespace TypedQuery

open Query

/-! ## References -/

namespace TypeRef

variable {α β : Type}

/-- No demand for a value stands directly around another one. -/
def DemandsOnce : TypeRef α → Prop
  | .named _ => True
  | .list item => item.DemandsOnce
  | .required inner => inner.isRequired = false ∧ inner.DemandsOnce

theorem isRequired_map (f : α → β) (type : TypeRef α) :
    (type.map f).isRequired = type.isRequired := by
  cases type <;> rfl

theorem DemandsOnce.map {type : TypeRef α} (h : type.DemandsOnce) (f : α → β) :
    (type.map f).DemandsOnce := by
  induction type with
  | named => exact h
  | list item ih => exact ih h
  | required inner ih => exact ⟨(isRequired_map f inner).trans h.1, ih h.2⟩

/-- Only the named type inside a reference can lack a replacement. -/
theorem mapOption_eq_none_iff {f : α → Option β} {type : TypeRef α} :
    type.mapOption f = none ↔ f type.base = none := by
  induction type with
  | named name => exact Option.map_eq_none_iff
  | list item ih => exact Option.map_eq_none_iff.trans ih
  | required inner ih => exact Option.map_eq_none_iff.trans ih

/-- The named type that a replacement finds is put into the same wrappers. -/
theorem mapOption_map_eq_some {f : α → Option β} {name : β → α} {type : TypeRef β}
    (h : f (name type.base) = some type.base) : (type.map name).mapOption f = some type := by
  induction type with
  | named base => exact Option.map_eq_some_iff.mpr ⟨base, h, rfl⟩
  | list item ih => exact Option.map_eq_some_iff.mpr ⟨item, ih h, rfl⟩
  | required inner ih => exact Option.map_eq_some_iff.mpr ⟨inner, ih h, rfl⟩

/-- If what replaces a name has that name, the replacement can be undone. -/
theorem map_of_mapOption {f : α → Option β} {name : β → α}
    (hname : ∀ a b, f a = some b → name b = a) {type : TypeRef α} {type' : TypeRef β}
    (h : type.mapOption f = some type') : type'.map name = type := by
  induction type generalizing type' with
  | named a =>
    obtain ⟨b, hb, rfl⟩ := Option.map_eq_some_iff.mp h
    exact congrArg named (hname a b hb)
  | list item ih =>
    obtain ⟨item', hitem, rfl⟩ := Option.map_eq_some_iff.mp h
    exact congrArg list (ih hitem)
  | required inner ih =>
    obtain ⟨inner', hinner, rfl⟩ := Option.map_eq_some_iff.mp h
    exact congrArg required (ih hinner)

/-! ## Tokens -/

def tokens : TypeRef String → List Token
  | .named name => [.name name]
  | .list item => .punct .bracketOpen :: (item.tokens ++ [.punct .bracketClose])
  | .required inner => inner.tokens ++ [.punct .bang]

/-- The text of a reference is cut to its tokens where no character of a name follows. -/
theorem tokens_render {type : TypeRef String} (h : isIdentifier type.base = true)
    {rest : List Char} (hr : EndsAt isNamePart rest) :
    Query.tokens (type.render.toList ++ rest) = (Query.tokens rest).append type.tokens := by
  induction type generalizing rest with
  | named name => exact tokens_name h hr
  | list item ih =>
    have htext : (list item).render.toList ++ rest =
        '[' :: (item.render.toList ++ (']' :: rest)) := by
      simp [render]
    have hclose : EndsAt isNamePart (']' :: rest) :=
      fun c hc => Option.some.inj hc ▸ (by decide : isNamePart ']' = false)
    have hopen : scan ('[' :: (item.render.toList ++ (']' :: rest))) =
        .read (.punct .bracketOpen) (item.render.toList ++ (']' :: rest)) := rfl
    have hafter : scan (']' :: rest) = .read (.punct .bracketClose) rest := rfl
    rw [htext, tokens_of_read hopen, ih h hclose, tokens_of_read hafter, Tokens.append_append,
      Tokens.append_append]
    rfl
  | required inner ih =>
    have htext : (required inner).render.toList ++ rest = inner.render.toList ++ ('!' :: rest) := by
      simp [render]
    have hbang : EndsAt isNamePart ('!' :: rest) :=
      fun c hc => Option.some.inj hc ▸ (by decide : isNamePart '!' = false)
    have hafter : scan ('!' :: rest) = .read (.punct .bang) rest := rfl
    rw [htext, ih h hbang, tokens_of_read hafter, Tokens.append_append]
    rfl

end TypeRef

/-! ## Readers -/

namespace Query.Reader

variable {behind : Tokens}

/-- What lies behind a reference does not demand a value for it, and can be looked at. -/
def Unmarked (behind : Tokens) : Prop :=
  behind = ⟨[], none⟩ ∨ ∃ token rest, behind.ahead = token :: rest ∧ token ≠ .punct .bang

theorem run_demanded (h : Unmarked behind) (type : TypeRef String) :
    (demanded type).run behind = .ok (type, behind) := by
  obtain ⟨ahead, flaw⟩ := behind
  rcases h with h | ⟨token, rest, rfl, hne⟩
  · cases h
    rfl
  · rw [demanded, StateT.run_bind, run_skip_of_ne hne]
    rfl

theorem takes_demanded (type : TypeRef String) :
    Takes (demanded type) [.punct .bang] (.required type) :=
  (takes_skip .bang).bind (takes_pure _)

/-- What stands inside the demand of a reference, if it has one, is read up to that mark. -/
def ReadsInside (type : TypeRef String) : Prop :=
  ∀ depth, type.core.tokens.length ≤ depth → ∀ behind : Tokens,
    (typeWithin depth).run (behind.append type.core.tokens) = (demanded type.core).run behind

/-- Then the whole reference is read. -/
theorem ReadsInside.run_typeWithin {type : TypeRef String} (h : ReadsInside type)
    (ht : type.DemandsOnce) {depth : Nat} (hdepth : type.tokens.length ≤ depth)
    (hbehind : Unmarked behind) :
    (typeWithin depth).run (behind.append type.tokens) = .ok (type, behind) := by
  cases type with
  | named name => exact (h depth hdepth behind).trans (run_demanded hbehind _)
  | list item => exact (h depth hdepth behind).trans (run_demanded hbehind _)
  | required inner =>
    have hcore : (TypeRef.required inner).core = inner := by
      cases inner with
      | named | list => rfl
      | required => cases ht.1
    rw [ReadsInside, hcore] at h
    rw [TypeRef.tokens, List.length_append] at hdepth
    rw [TypeRef.tokens, ← Tokens.append_append, h depth (by omega)]
    exact takes_demanded inner behind.ahead behind.flaw

theorem readsInside (type : TypeRef String) (ht : type.DemandsOnce) : ReadsInside type := by
  induction type with
  | named name =>
    intro depth hdepth behind
    obtain ⟨depth, rfl⟩ := Nat.exists_eq_succ_of_ne_zero (Nat.ne_zero_of_lt hdepth)
    rfl
  | list item ih =>
    intro depth hdepth behind
    obtain ⟨depth, rfl⟩ := Nat.exists_eq_succ_of_ne_zero (Nat.ne_zero_of_lt hdepth)
    have hroom : item.tokens.length ≤ depth := by
      simp only [TypeRef.core, TypeRef.tokens, List.length_cons, List.length_append] at hdepth
      omega
    have hclose : Unmarked (behind.append [.punct .bracketClose]) :=
      Or.inr ⟨_, _, rfl, by decide⟩
    have hitem := (ih ht).run_typeWithin ht hroom hclose
    have htokens : behind.append (TypeRef.list item).core.tokens =
        ((behind.append [.punct .bracketClose]).append item.tokens).append
          [.punct .bracketOpen] := by
      rw [Tokens.append_append, Tokens.append_append]
      rfl
    have hclosed : (expect .bracketClose).run (behind.append [.punct .bracketClose]) =
        .ok ((), behind) := takes_expect .bracketClose behind.ahead behind.flaw
    rw [htokens]
    -- the opening bracket is skipped
    change (typeWithin depth >>= fun item => expect .bracketClose >>= fun _ =>
      demanded (.list item)).run ((behind.append [.punct .bracketClose]).append item.tokens) = _
    rw [StateT.run_bind, hitem]
    change (expect .bracketClose >>= fun _ => demanded (.list item)).run
      (behind.append [.punct .bracketClose]) = _
    rw [StateT.run_bind, hclosed]
    rfl
  | required inner ih => exact ih ht.2

end Query.Reader

open Query.Reader

/-- The text of a reference reads back. -/
theorem readType_render {type : TypeRef String} (ht : type.DemandsOnce)
    (h : isIdentifier type.base = true) : readType type.render = .ok type := by
  have htokens : Query.tokens type.render.toList = (⟨[], none⟩ : Tokens).append type.tokens := by
    have hends : EndsAt isNamePart [] := fun c hc => by cases hc
    have htext := TypeRef.tokens_render h hends
    rwa [List.append_nil, tokens_nil] at htext
  refine readAll_of_run ?_
  rw [htokens]
  exact (readsInside type ht).run_typeWithin ht (by simp [Tokens.append]) (Or.inl rfl)

/-! ## Through a schema -/

variable {ν : Type}

/-- **Printed types are found again.** A type over a named type that a schema has indexed under a
name of query syntax is found again from its printed reference. A reference means no type exactly if
the name inside it is not indexed, and else means the one type that is printed as this reference. -/
theorem define_references [DecidableEq ν] {g : TypeGraph ν} {query : Declared (QueryField ν)}
    {extra : List (TypeId ν)} {s : Schema ν} (h : Schema.define g query extra = .ok s) :
    (∀ type : TypeRef (TypeId ν), type.DemandsOnce →
      (∃ name, isIdentifier name = true ∧ s.index.get? name = some type.base) →
      ∃ node, readType (g.print type) = .ok node ∧ s.resolve? node = some type) ∧
    ∀ node : TypeRef String,
      (s.resolve? node = none ↔ s.index.get? node.base = none) ∧
      ∀ type, s.resolve? node = some type →
        type.map g.nameOf = node ∧ g.print type = node.render ∧
        (node.DemandsOnce → isIdentifier node.base = true →
          readType (g.print type) = .ok node) := by
  obtain ⟨-, -, hexplores, -⟩ := explores_of_define h
  have hname : ∀ name id, s.index.get? name = some id → g.nameOf id = name :=
    fun name id hget => (hexplores.get?_eq_some_iff.mp hget).2
  constructor
  · rintro type ht ⟨name, hidentifier, hget⟩
    obtain rfl := hname _ _ hget
    have hbase : isIdentifier (type.map g.nameOf).base = true := by
      rwa [TypeRef.base_map]
    exact ⟨type.map g.nameOf, readType_render (ht.map g.nameOf) hbase,
      TypeRef.mapOption_map_eq_some hget⟩
  · intro node
    refine ⟨TypeRef.mapOption_eq_none_iff, fun type htype => ?_⟩
    have hnode : type.map g.nameOf = node := TypeRef.map_of_mapOption hname htype
    have hprint : g.print type = node.render := congrArg TypeRef.render hnode
    refine ⟨hnode, hprint, fun ht hidentifier => ?_⟩
    rw [hprint]
    exact readType_render ht hidentifier

/-- Of two nodes that lead to each other one is found through two lists; a third name is unknown. -/
theorem define_references_twins : ∃ s, Schema.define twins .empty [.declared 0] = .ok s ∧
    (∃ node, readType "[[Right!]]!" = .ok node ∧
      s.resolve? node = some (.required (.list (.list (.required (.named (.declared 1))))))) ∧
    s.resolve? (.list (.named "Up")) = none := by
  obtain ⟨s, hs⟩ := exists_schema_twins
  obtain ⟨hfound, hnodes⟩ := define_references hs
  obtain ⟨-, -, hexplores, -⟩ := explores_of_define hs
  have hright : s.index.get? "Right" = some (.declared 1) :=
    hexplores.get?_eq_some_iff.mpr ⟨⟨.declared 0, by decide, twins_reaches⟩, rfl⟩
  refine ⟨s, hs, hfound (.required (.list (.list (.required (.named (.declared 1))))))
    ⟨rfl, rfl, trivial⟩ ⟨"Right", by decide, hright⟩, (hnodes _).1.mpr ?_⟩
  have hup : ∀ id : TypeId (Fin 3), twins.nameOf id ≠ "Up" := by
    rintro (b | n)
    · cases b <;> decide
    · revert n
      decide
  cases hget : s.index.get? (TypeRef.list (TypeRef.named "Up")).base with
  | none => rfl
  | some id => exact absurd (hexplores.get?_eq_some_iff.mp hget).2 (hup id)

end TypedQuery
