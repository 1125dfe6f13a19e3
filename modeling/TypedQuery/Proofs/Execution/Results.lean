import TypedQuery.Proofs.Execution.Response
import TypedQuery.Proofs.Execution.Written

/-!
# Results and their types

What is written for a field has the form that the type of the field promises, except in one place:
the empty slots of a list stay empty, whatever the type of the items.

* `Honours`: a result has the form of a type;
* `IsFilled`: no list in a value has empty slots where the type reads lists;
* `serialize_honours`: results honour their types up to empty slots, and fully for filled values;
* `serialize_honours_empty`: what an empty slot gives.
-/

namespace TypedQuery

variable {ν : Type}

/-! ## Honouring a type -/

/-- What stands in a slot of the result for what stood in that slot of the value. With `gaps` an
empty slot stays empty; else it is one that holds undefined. -/
def SlotHonours (gaps : Bool) (honours : Value → Value → Prop) :
    Option Value → Option Value → Prop
  | some v, some r => honours v r
  | none, some r => gaps = false ∧ honours .undefined r
  | none, none => gaps = true
  | some _, none => False

/-- A result has the form of a type, for the value that it came from: where a value is required it
is one; elsewhere it is null for nothing, what the scalar writes, a symbol that the enum declares,
or a list with a slot for each slot of the value. -/
def Honours (g : TypeGraph ν) (gaps : Bool) : TypeRef (TypeId ν) → Value → Value → Prop
  | .required inner, v, r => r.isNullish = false ∧ Honours g gaps inner v r
  | .list item, v, r =>
    v.isNullish = true ∧ r = .null ∨
      ∃ mark slots written, v = .array mark slots ∧ r = .array none written ∧
        List.Forall₂ (SlotHonours gaps (Honours g gaps item)) slots written
  | .named id, v, r =>
    v.isNullish = true ∧ r = .null ∨
      v.isNullish = false ∧
        ((∃ s, g.describe id = .scalar s ∧ s.serialize v = .ok r) ∨
          ∃ e symbol w, g.describe id = .enum e ∧ (symbol, w) ∈ e.values ∧ w.sameAs v = true ∧
            r = .string symbol)

/-- No list in a value has empty slots, as far as the type reads lists. -/
def IsFilled : TypeRef (TypeId ν) → Value → Prop
  | .required inner, v => IsFilled inner v
  | .list item, v =>
    ∀ mark slots, v = .array mark slots →
      ∀ slot ∈ slots, ∃ held, slot = some held ∧ IsFilled item held
  | .named _, _ => True

/-- The scalar that a type leads to, if any, writes no value as nothing. -/
def TypeGraph.WritesValues (g : TypeGraph ν) (type : TypeRef (TypeId ν)) : Prop :=
  ∀ s, g.describe type.base = .scalar s → ∀ v r, s.serialize v = .ok r → r.isNullish = false

variable {g : TypeGraph ν} {v r : Value}

/-! ## Results -/

/-- What is written for a value is a value. -/
theorem isNullish_of_serialize {type : TypeRef (TypeId ν)} (hw : g.WritesValues type)
    (h : serialize g type v = .ok r) (hv : v.isNullish = false) : r.isNullish = false := by
  induction type with
  | required inner ih => exact ih hw (serialize_required_eq_ok_iff.mp h).2
  | list item =>
    rcases serialize_list_eq_ok_iff.mp h with ⟨hv', _⟩ | ⟨_, _, _, _, rfl, _⟩
    · cases hv.symm.trans hv'
    · rfl
  | named id =>
    rcases serializeNamed_eq_ok_iff.mp h with ⟨_, hv', _⟩ | ⟨_, ⟨s, hs, hsr⟩ | ⟨_, _, _, _, rfl⟩⟩
    · cases hv.symm.trans hv'
    · exact hw s hs v r hsr
    · rfl

/-- What is written for a slot honours it. -/
theorem slotHonours_of_writeSlot {item : TypeRef (TypeId ν)} {honours : Value → Value → Prop}
    (h : ∀ v r, serialize g item v = .ok r → honours v r) {slot written : Option Value}
    (hs : writeSlot g item slot = .ok written) : SlotHonours true honours slot written := by
  cases slot with
  | none =>
    obtain rfl := Except.ok.inj hs
    rfl
  | some held =>
    obtain ⟨r, hr, rfl⟩ := map_eq_ok_iff.mp hs
    exact h held r hr

theorem honours_of_serialize {type : TypeRef (TypeId ν)} (hw : g.WritesValues type)
    (h : serialize g type v = .ok r) : Honours g true type v r := by
  induction type generalizing v r with
  | required inner ih =>
    obtain ⟨hv, h⟩ := serialize_required_eq_ok_iff.mp h
    have hinner : g.WritesValues inner := hw
    exact ⟨isNullish_of_serialize hinner h hv, ih hinner h⟩
  | list item ih =>
    rcases serialize_list_eq_ok_iff.mp h with hnull | ⟨mark, slots, written, hv, hr, hslots⟩
    · exact Or.inl hnull
    · exact Or.inr ⟨mark, slots, written, hv, hr,
        hslots.imp fun _ _ => slotHonours_of_writeSlot fun _ _ => ih hw⟩
  | named id =>
    rcases serializeNamed_eq_ok_iff.mp h with ⟨_, hnull⟩ | ⟨hv, hs | ⟨e, symbol, he, hsymbol, rfl⟩⟩
    · exact Or.inl hnull
    · exact Or.inr ⟨hv, Or.inl hs⟩
    · obtain ⟨⟨_, w⟩, hfind, rfl⟩ := Option.map_eq_some_iff.mp hsymbol
      exact Or.inr ⟨hv, Or.inr ⟨e, _, w, he, List.mem_of_find?_eq_some hfind,
        by simpa using List.find?_some hfind, rfl⟩⟩

/-! ## Empty slots -/

theorem forall₂_iff_of_forall₂ {α β : Type} {R S : α → β → Prop} {p : α → Prop} {xs : List α}
    {ys : List β} (h : List.Forall₂ R xs ys) (hS : ∀ x y, R x y → (S x y ↔ p x)) :
    List.Forall₂ S xs ys ↔ ∀ x ∈ xs, p x := by
  induction h with
  | nil => simp
  | cons hr _ ih => rw [List.forall₂_cons, hS _ _ hr, ih, List.forall_mem_cons]

/-- A slot is honoured without gaps if it is filled, and what it holds is. -/
theorem slotHonours_false_iff {item : TypeRef (TypeId ν)} {honours : Value → Value → Prop}
    {filled : Value → Prop} (h : ∀ v r, serialize g item v = .ok r → (honours v r ↔ filled v))
    {slot written : Option Value} (hs : writeSlot g item slot = .ok written) :
    SlotHonours false honours slot written ↔ ∃ held, slot = some held ∧ filled held := by
  cases slot with
  | none =>
    obtain rfl := Except.ok.inj hs
    simp [SlotHonours]
  | some held =>
    obtain ⟨r, hr, rfl⟩ := map_eq_ok_iff.mp hs
    simp [SlotHonours, h held r hr]

theorem honours_false_iff {type : TypeRef (TypeId ν)} (hw : g.WritesValues type)
    (h : serialize g type v = .ok r) : Honours g false type v r ↔ IsFilled type v := by
  induction type generalizing v r with
  | required inner ih =>
    obtain ⟨hv, h⟩ := serialize_required_eq_ok_iff.mp h
    have hinner : g.WritesValues inner := hw
    rw [Honours, IsFilled, ih hinner h]
    exact and_iff_right (isNullish_of_serialize hinner h hv)
  | list item ih =>
    rcases serialize_list_eq_ok_iff.mp h with ⟨hv, rfl⟩ | ⟨mark, slots, written, rfl, rfl, hslots⟩
    · refine iff_of_true (Or.inl ⟨hv, rfl⟩) ?_
      rintro mark slots rfl
      cases hv
    · have hiff : List.Forall₂ (SlotHonours false (Honours g false item)) slots written ↔
          ∀ slot ∈ slots, ∃ held, slot = some held ∧ IsFilled item held :=
        forall₂_iff_of_forall₂ hslots fun _ _ => slotHonours_false_iff fun _ _ => ih hw
      constructor
      · rintro (⟨hv, _⟩ | ⟨_, _, _, hv, hr, hhonours⟩) mark' slots' hv'
        · cases hv
        · obtain ⟨rfl, rfl⟩ := Value.array.inj hv
          obtain ⟨-, rfl⟩ := Value.array.inj hr
          obtain ⟨-, rfl⟩ := Value.array.inj hv'
          exact hiff.mp hhonours
      · intro hfilled
        exact Or.inr ⟨mark, slots, written, rfl, rfl, hiff.mpr (hfilled mark slots rfl)⟩
  | named id => exact iff_of_true (honours_of_serialize hw h) trivial

/-- **Results honour their types.** What is written through a type whose scalar writes values has
the form of the type, list by list and slot by slot, but for the slots that were empty and stay so;
and it has that form throughout exactly if the value is filled. -/
theorem serialize_honours {type : TypeRef (TypeId ν)} (hw : g.WritesValues type)
    (h : serialize g type v = .ok r) :
    Honours g true type v r ∧ (Honours g false type v r ↔ IsFilled type v) :=
  ⟨honours_of_serialize hw h, honours_false_iff hw h⟩

/-! ## Lists of labels -/

theorem Builtin.isNullish_of_write? {b : Builtin} (h : b.write? v = some r) :
    r.isNullish = false := by
  unfold write? at h
  split at h
  all_goals first
    | (obtain rfl := Option.some.inj h; rfl)
    | (split at h <;> first | (obtain rfl := Option.some.inj h; rfl) | cases h)
    | cases h

/-- The built-in scalars write values. -/
theorem scalarsOnly_writesValues (type : TypeRef (TypeId Empty)) :
    scalarsOnly.WritesValues type := by
  intro s hs v r hr
  cases hb : type.base with
  | declared n => exact n.elim
  | builtin b =>
    rw [hb] at hs
    obtain rfl := NamedType.scalar.inj hs
    change b.serialize v = .ok r at hr
    unfold Builtin.serialize at hr
    split at hr
    · next hw =>
      obtain rfl := Except.ok.inj hr
      exact Builtin.isNullish_of_write? hw
    · split at hr <;> cases hr

/-- Lists of labels, in which none may be missing. -/
def labels : TypeRef (TypeId Empty) := .list (.required (.named (.builtin .string)))

theorem serialize_honours_labels :
    serialize scalarsOnly labels (.list [.string "small"]) = .ok (.list [.string "small"]) ∧
      Honours scalarsOnly false labels (.list [.string "small"]) (.list [.string "small"]) := by
  have h : serialize scalarsOnly labels (.list [.string "small"]) = .ok (.list [.string "small"]) :=
    rfl
  refine ⟨h, (serialize_honours (scalarsOnly_writesValues labels) h).2.mpr ?_⟩
  intro mark slots hv slot hslot
  obtain ⟨-, rfl⟩ := Value.array.inj hv
  obtain rfl := List.mem_singleton.mp hslot
  exact ⟨_, rfl, trivial⟩

/-- An empty slot is left empty where a label is required. -/
theorem serialize_honours_empty :
    serialize scalarsOnly labels (.array none [some (.string "small"), none]) =
        .ok (.array none [some (.string "small"), none]) ∧
      ¬ Honours scalarsOnly false labels (.array none [some (.string "small"), none])
        (.array none [some (.string "small"), none]) := by
  have h : serialize scalarsOnly labels (.array none [some (.string "small"), none]) =
      .ok (.array none [some (.string "small"), none]) := rfl
  refine ⟨h, fun hhonours => ?_⟩
  have hfilled := (honours_false_iff (scalarsOnly_writesValues labels) h).mp hhonours
  obtain ⟨held, hheld, -⟩ := hfilled _ _ rfl none
    (List.mem_cons_of_mem _ (List.mem_singleton_self none))
  cases hheld

end TypedQuery
