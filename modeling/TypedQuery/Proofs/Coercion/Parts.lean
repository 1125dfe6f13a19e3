import TypedQuery.Proofs.Coercion.Resolved
import TypedQuery.Proofs.Members

/-!
# Parts of a position

A list is coerced item by item and an input object field by field; every other position is a leaf.

* `parts`: the positions directly inside a position, as coercion meets them;
* `Gathers`: how outcomes of parts make one outcome, no failure lost and each value in its place;
* `coerce_shape`: a position is a leaf, or the gathering of its parts;
* `length_of_coerce_list`: a list keeps its length.
-/

namespace TypedQuery

/-- The type inside all demands for a value. -/
def TypeRef.core {α : Type} : TypeRef α → TypeRef α
  | .required inner => inner.core
  | type => type

/-- A raw value, a reference replaced by what it stands for. -/
def Context.stand {ν : Type} (ctx : Context ν) : Raw → Raw
  | .variable name => ctx.standFor name
  | raw => raw

/-- What a value holds one step further. -/
def Value.child? (v : Value) : Segment → Option Value
  | .field name => Members.get? v.ownMembers name
  | .index i =>
    match v with
    | .array _ slots => slots[i.toNat]?.join
    | _ => none

namespace Coercion

variable {ν : Type} {g : TypeGraph ν} {ctx : Context ν}

/-! ## Parts -/

/-- A position directly inside another one. -/
structure Part (ν : Type) where
  step : Segment
  type : TypeRef (TypeId ν)
  raw : Raw

/-- A field of an object, its default in place where that is left in force. -/
def fieldPart (ctx : Context ν) (raw : Raw) (f : String × Position ν) : Part ν :=
  ⟨.field f.1, f.2.type, (fallbackFor? ctx f.2 (raw.field f.1)).getD (raw.field f.1)⟩

def itemPart (item : TypeRef (TypeId ν)) (p : Raw × Nat) : Part ν := ⟨.index p.2, item, p.1⟩

def partsOf (g : TypeGraph ν) (ctx : Context ν) (raw : Raw) : TypeRef (TypeId ν) → List (Part ν)
  | .list item => (raw.items?.getD []).zipIdx.map (itemPart item)
  | .named id =>
    match g.describe id with
    | .input o => if raw.isObject then o.fields.entries.map (fieldPart ctx raw) else []
    | _ => []
  | .required _ => []

/-- The positions directly inside a position. -/
def parts (g : TypeGraph ν) (ctx : Context ν) (type : TypeRef (TypeId ν)) (raw : Raw) :
    List (Part ν) :=
  partsOf g ctx (ctx.stand raw) type.core

def coercePart (g : TypeGraph ν) (ctx : Context ν) (path : Path) (part : Part ν) : Coerced :=
  coerce g ctx part.type part.raw (path ++ [part.step])

theorem nodup_steps_items (item : TypeRef (TypeId ν)) (items : List Raw) :
    ((items.zipIdx.map (itemPart item)).map Part.step).Nodup := by
  rw [List.map_map]
  have hcomp : Part.step ∘ itemPart item = (fun n : Nat => Segment.index n) ∘ Prod.snd := rfl
  rw [hcomp, ← List.map_map, List.zipIdx_map_snd]
  refine List.Nodup.map (fun a b h => ?_) List.nodup_range'
  exact Int.ofNat.inj (Segment.index.inj h)

theorem nodup_steps_fields (ctx : Context ν) (raw : Raw) (o : InputObject ν) :
    ((o.fields.entries.map (fieldPart ctx raw)).map Part.step).Nodup := by
  rw [List.map_map]
  have hcomp : Part.step ∘ fieldPart ctx raw =
      Segment.field ∘ (Prod.fst : String × Position ν → String) := rfl
  rw [hcomp, ← List.map_map]
  exact List.Nodup.map (fun a b h => by simpa using h) o.fields.distinct

/-- No two parts are one step away in the same direction. -/
theorem nodup_steps (g : TypeGraph ν) (ctx : Context ν) (type : TypeRef (TypeId ν)) (raw : Raw) :
    ((parts g ctx type raw).map Part.step).Nodup := by
  unfold parts partsOf
  split
  · exact nodup_steps_items _ _
  · split
    · split
      · exact nodup_steps_fields ctx _ _
      · exact List.nodup_nil
    · exact List.nodup_nil
  · exact List.nodup_nil

/-! ## Values in their places -/

/-- How a value appears where a path ends: in a list, absence appears as null. -/
def appearance (path : Path) (w : Option Value) : Option Value :=
  match path.getLast? with
  | some (.index _) => some (w.getD .null)
  | _ => w

theorem appearance_some (path : Path) (v : Value) : appearance path (some v) = some v := by
  unfold appearance
  split <;> rfl

theorem appearance_cons {step : Segment} {path : Path} (h : path ≠ []) (w : Option Value) :
    appearance (step :: path) w = appearance path w := by
  unfold appearance
  rw [List.getLast?_cons_of_ne_nil h]

/-- How the outcomes of parts make one outcome: no failure is lost or added, and if all are done
each value has its place. -/
structure Gathers (ps : List (Part ν))
    (gather : List (Outcome (Option Value)) → Outcome (Option Value)) : Prop where
  failures : ∀ os, os.length = ps.length → (gather os).failures = os.flatMap Outcome.failures
  done : ∀ ws : List (Option Value), ws.length = ps.length →
    ∃ v, gather (ws.map .done) = .done (some v) ∧
      List.Forall₂ (fun part w => v.child? part.step = appearance [part.step] w) ps ws

theorem gatherItems_gathers (item : TypeRef (TypeId ν)) (items : List Raw) :
    Gathers (items.zipIdx.map (itemPart item)) gatherItems where
  failures os _ := failures_gatherItems os
  done ws hlength := by
    have hdone : ∀ o ∈ ws.map (Outcome.done : Option Value → _), o ≠ .fail [] := by
      intro o ho
      obtain ⟨w, _, rfl⟩ := List.mem_map.mp ho
      simp
    refine ⟨_, (gatherItems_eq_done_iff hdone).mpr ⟨ws, rfl, rfl⟩, ?_⟩
    rw [List.forall₂_iff_get]
    refine ⟨hlength.symm, fun i h₁ h₂ => ?_⟩
    simp [itemPart, Value.child?, Value.list, appearance] at h₂ ⊢
    simp [h₂]

theorem gatherMembers_gathers (ctx : Context ν) (raw : Raw) (o : InputObject ν) :
    Gathers (o.fields.entries.map (fieldPart ctx raw)) fun os =>
      (gatherMembers (o.fields.names.zip os)).map fun members => some (.record members) where
  failures os hlength := by
    have hlen : os.length ≤ o.fields.names.length := by
      simp [hlength, Declared.names, Members.keys]
    rw [Outcome.failures_map, failures_gatherMembers]
    conv_rhs => rw [← List.map_snd_zip hlen, List.flatMap_map]
  done ws hlength := by
    have hlen : ws.length = o.fields.names.length := by
      simp [hlength, Declared.names, Members.keys]
    have hfst : (o.fields.names.zip ws).map Prod.fst = o.fields.names :=
      List.map_fst_zip (Nat.le_of_eq hlen.symm)
    have hzip : o.fields.names.zip (ws.map .done) =
        (o.fields.names.zip ws).map fun w => (w.1, Outcome.done w.2) := by
      rw [List.zip_map_right]
      rfl
    have hdone : ∀ p ∈ o.fields.names.zip (ws.map (Outcome.done : Option Value → _)),
        p.2 ≠ .fail [] := by
      intro p hp
      rw [hzip] at hp
      obtain ⟨w, _, rfl⟩ := List.mem_map.mp hp
      simp
    refine ⟨.record (presentMembers (o.fields.names.zip ws)), ?_, ?_⟩
    · rw [(gatherMembers_eq_done_iff hdone).mpr ⟨_, hzip, rfl⟩]
      rfl
    · have hvalue : List.Forall₂ (fun (f : String × Position ν) w =>
          Members.get? (presentMembers (o.fields.names.zip ws)) f.1 = w) o.fields.entries ws := by
        rw [List.forall₂_iff_zip]
        refine ⟨by simp [hlength], fun {f w} hfw => ?_⟩
        refine get?_presentMembers (by rw [hfst]; exact o.fields.distinct) ?_
        have hmap := List.mem_map_of_mem (f := fun x : (String × Position ν) × Option Value =>
          (x.1.1, x.2)) hfw
        rw [Declared.names, Members.keys, List.zip_map_left]
        exact hmap
      rw [List.forall₂_map_left_iff]
      exact hvalue

theorem mapM_named_eq {α : Type} (F : String × α → Coerced) (xs : List (String × α)) :
    (xs.mapM fun x => (F x).map (x.1, ·)) = (xs.mapM F).map fun os => (xs.map Prod.fst).zip os := by
  induction xs with
  | nil => rfl
  | cons x xs ih =>
    rw [List.mapM_cons, List.mapM_cons, ih]
    cases F x with
    | error e => rfl
    | ok o => cases xs.mapM F <;> rfl

/-! ## Leaves -/

/-- A leaf is done, or fails at its own path, or cannot show its failure. -/
def IsLeafResult (path : Path) (x : Coerced) : Prop :=
  (∃ w, x = .ok (.done w)) ∨ (∃ fs, x = .ok (.fail fs) ∧ ∃ f ∈ fs, f.path = path) ∨
    x = .error .textless

theorem isLeafResult_fail {path : Path} {f : Failure} (h : f.path = path) :
    IsLeafResult path (.ok (.fail [f])) :=
  Or.inr (Or.inl ⟨_, rfl, f, List.mem_singleton_self f, h⟩)

theorem isLeafResult_missing (type : TypeRef (TypeId ν)) (path : Path) :
    IsLeafResult path (.ok (missing g type path)) := by
  unfold missing
  split
  · exact isLeafResult_fail rfl
  · exact Or.inl ⟨_, rfl⟩

theorem isLeafResult_nullValue (type : TypeRef (TypeId ν)) (path : Path) :
    IsLeafResult path (.ok (nullValue g type path)) := by
  unfold nullValue
  split
  · exact isLeafResult_fail rfl
  · exact Or.inl ⟨_, rfl⟩

theorem isLeafResult_refuse (raw : Raw) {failure : String → Failure} {path : Path}
    (h : ∀ written, (failure written).path = path) : IsLeafResult path (refuse raw failure) := by
  unfold refuse
  split
  · exact isLeafResult_fail (h _)
  · exact Or.inr (Or.inr rfl)

theorem isLeafResult_judge (s : Scalar) (raw : Raw) (path : Path) :
    IsLeafResult path (judge s raw path) := by
  unfold judge
  split
  · exact Or.inl ⟨_, rfl⟩
  · exact isLeafResult_refuse raw fun _ => rfl
  · split
    · exact isLeafResult_refuse raw fun _ => rfl
    · exact Or.inr (Or.inr rfl)

theorem isLeafResult_coerceScalar (hc : ctx.HasConstantDefaults) (s : Scalar) (raw : Raw)
    (path : Path) : IsLeafResult path (coerceScalar g ctx s raw path) := by
  rw [coerceScalar, Context.inline_eq g hc]
  cases hlack : ctx.lacking g path raw with
  | nil => exact isLeafResult_judge s (ctx.resolve raw) path
  | cons f fs =>
    have hf : f ∈ ctx.lacking g path raw := by
      rw [hlack]
      exact List.mem_cons_self ..
    exact Or.inr (Or.inl ⟨_, rfl, f, List.mem_cons_self .., Context.path_of_mem_lacking g hf⟩)

theorem isLeafResult_coerceEnum (e : EnumType) (raw : Raw) (path : Path) :
    IsLeafResult path (coerceEnum e raw path) := by
  unfold coerceEnum
  split
  · exact Or.inl ⟨_, rfl⟩
  · exact isLeafResult_refuse raw fun _ => rfl

/-! ## Shapes -/

/-- A position is a leaf, or the gathering of its parts. -/
def HasShape (g : TypeGraph ν) (ctx : Context ν) (type : TypeRef (TypeId ν)) (raw : Raw)
    (path : Path) : Prop :=
  parts g ctx type raw = [] ∧ IsLeafResult path (coerce g ctx type raw path) ∨
    ∃ gather, Gathers (parts g ctx type raw) gather ∧
      coerce g ctx type raw path =
        ((parts g ctx type raw).mapM (coercePart g ctx path)).map gather

theorem parts_of_not_present {raw : Raw} (h : raw.isReference = false)
    (hp : ¬ isPresent raw = true) (type : TypeRef (TypeId ν)) : parts g ctx type raw = [] := by
  have hitems : raw.items? = none ∧ raw.isObject = false := by
    match raw with
    | .null | .absent => exact ⟨rfl, rfl⟩
    | .external .null => exact ⟨rfl, rfl⟩
    | .variable _ => cases h
    | .int _ | .float _ | .string _ | .boolean _ | .enum _ | .list _ | .object _ =>
      exact absurd rfl hp
    | .external .undefined | .external (.boolean _) | .external (.number _) | .external (.bigint _)
    | .external (.string _) | .external (.array ..) | .external (.object ..)
    | .external (.heir ..) => exact absurd rfl hp
  have hstand : ctx.stand raw = raw := by
    cases raw <;> first | rfl | cases h
  rw [parts, hstand]
  unfold partsOf
  split
  · simp [hitems.1]
  · split
    · simp [hitems.2]
    · rfl
  · rfl

section Equations

variable {raw : Raw} (hp : isPresent raw = true)
include hp

theorem stand_of_isPresent : ctx.stand raw = raw := by
  cases raw <;> first | rfl | cases hp

theorem parts_list (item : TypeRef (TypeId ν)) :
    parts g ctx (.list item) raw = (raw.items?.getD []).zipIdx.map (itemPart item) := by
  rw [parts, stand_of_isPresent hp]
  rfl

theorem parts_named (id : TypeId ν) :
    parts g ctx (.named id) raw = partsOf g ctx raw (.named id) := by
  rw [parts, stand_of_isPresent hp]
  rfl

theorem parts_scalar {id : TypeId ν} {s : Scalar} (hd : g.describe id = .scalar s) :
    parts g ctx (.named id) raw = [] := by
  simp [parts_named hp, partsOf, hd]

theorem parts_enum {id : TypeId ν} {e : EnumType} (hd : g.describe id = .enum e) :
    parts g ctx (.named id) raw = [] := by
  simp [parts_named hp, partsOf, hd]

theorem parts_input {id : TypeId ν} {o : InputObject ν} (hd : g.describe id = .input o) :
    parts g ctx (.named id) raw =
      if raw.isObject then o.fields.entries.map (fieldPart ctx raw) else [] := by
  simp [parts_named hp, partsOf, hd]

end Equations

theorem parts_variable (hs : ctx.HasSettledDefaults) (type : TypeRef (TypeId ν)) (name : String) :
    parts g ctx type (.variable name) = parts g ctx type (ctx.standFor name) := by
  have hstand : ctx.stand (ctx.standFor name) = ctx.standFor name := by
    cases h : ctx.standFor name <;>
      first | rfl | exact absurd h ((Context.isSettled_standFor hs name).ne_variable _)
  rw [parts, parts, hstand]
  rfl

theorem hasShape_of_no_parts {type : TypeRef (TypeId ν)} {raw : Raw} {path : Path}
    (hparts : parts g ctx type raw = []) (h : IsLeafResult path (coerce g ctx type raw path)) :
    HasShape g ctx type raw path :=
  Or.inl ⟨hparts, h⟩

/-- A present list or object is gathered from its parts. -/
theorem hasShape_of_isPresent (hc : ctx.HasConstantDefaults) {raw : Raw}
    (hp : isPresent raw = true) (type : TypeRef (TypeId ν)) (path : Path) :
    HasShape g ctx type raw path := by
  induction type with
  | required inner ih =>
    have hparts : parts g ctx (.required inner) raw = parts g ctx inner raw := rfl
    unfold HasShape
    rw [coerce_required hc.settled hp, hparts]
    exact ih
  | list item =>
    unfold HasShape
    rw [coerce_list hc.settled hp, parts_list hp]
    cases raw.items? with
    | none => exact Or.inl ⟨rfl, isLeafResult_refuse raw fun _ => rfl⟩
    | some items =>
      refine Or.inr ⟨gatherItems, gatherItems_gathers item items, ?_⟩
      rw [List.mapM_map]
      rfl
  | named id =>
    unfold HasShape
    cases hd : g.describe id with
    | scalar s =>
      rw [coerce_scalar hp hd, parts_scalar hp hd]
      exact Or.inl ⟨rfl, isLeafResult_coerceScalar hc s raw path⟩
    | enum e =>
      rw [coerce_enum hp hd, parts_enum hp hd]
      exact Or.inl ⟨rfl, isLeafResult_coerceEnum e raw path⟩
    | input o =>
      rw [coerce_input hc.settled hp hd, parts_input hp hd]
      cases raw.isObject with
      | false => exact Or.inl ⟨rfl, isLeafResult_refuse raw fun _ => rfl⟩
      | true =>
        refine Or.inr ⟨_, gatherMembers_gathers ctx raw o, ?_⟩
        have hpart : coercePart g ctx path ∘ fieldPart ctx raw = fun f =>
            coercePosition g ctx f.2 (raw.field f.1) (path ++ [.field f.1]) := rfl
        rw [if_pos rfl, if_pos rfl, List.mapM_map, mapM_named_eq, hpart]
        cases o.fields.entries.mapM fun f =>
          coercePosition g ctx f.2 (raw.field f.1) (path ++ [.field f.1]) <;> rfl

theorem hasShape_of_not_reference (hc : ctx.HasConstantDefaults) {raw : Raw}
    (h : raw.isReference = false) (type : TypeRef (TypeId ν)) (path : Path) :
    HasShape g ctx type raw path := by
  by_cases hp : isPresent raw = true
  · exact hasShape_of_isPresent hc hp type path
  · refine hasShape_of_no_parts (parts_of_not_present h hp type) ?_
    cases hn : raw.isNull with
    | true =>
      rw [coerce_null hn]
      exact isLeafResult_nullValue type path
    | false =>
      have ha : raw = .absent := by
        match raw with
        | .absent => rfl
        | .null => cases hn
        | .variable _ => cases h
        | .external v => exact absurd (by simp [isPresent, Raw.isAbsent, hn]) hp
        | .int _ | .float _ | .string _ | .boolean _ | .enum _ | .list _ | .object _ =>
          exact absurd rfl hp
      rw [ha, coerce_absent]
      exact isLeafResult_missing type path

/-- **The shape of a position.** It is a leaf, or the gathering of its parts. -/
theorem coerce_shape (hc : ctx.HasConstantDefaults) (type : TypeRef (TypeId ν)) (raw : Raw)
    (path : Path) : HasShape g ctx type raw path := by
  match raw with
  | .variable name =>
    have hreference : (ctx.standFor name).isReference = false :=
      Context.isSettled_standFor hc.settled name _ (Raw.mem_nodes_self _)
    have hparts := parts_variable (g := g) hc.settled type name
    have hcoerce := coerce_variable (g := g) hc.settled type name path
    cases hr : ctx.reading g name type path with
    | error failure =>
      obtain ⟨hpath, hs⟩ := Context.standFor_of_reading_error g hr
      refine hasShape_of_no_parts ?_ ?_
      · rw [hparts]
        refine parts_of_not_present hreference ?_ type
        rcases hs with hs | hs <;> simp [hs, isPresent, Raw.isNull, Raw.isAbsent]
      · rw [hcoerce, hr]
        exact isLeafResult_fail hpath
    | ok stand =>
      rw [hr] at hcoerce
      obtain rfl := Context.reading_eq_ok g hr
      unfold HasShape
      rw [hcoerce, hparts]
      exact hasShape_of_not_reference hc hreference type path
  | .int _ | .float _ | .string _ | .boolean _ | .enum _ | .null | .absent | .external _
  | .list _ | .object _ => exact hasShape_of_not_reference hc rfl type path

/-! ## What is read -/

theorem isPresent_of_items? {raw : Raw} {items : List Raw} (h : raw.items? = some items) :
    isPresent raw = true := by
  match raw with
  | .list _ => rfl
  | .external (.array ..) => rfl
  | .int _ | .float _ | .string _ | .boolean _ | .enum _ | .null | .absent | .object _
  | .variable _ => cases h
  | .external .undefined | .external .null | .external (.boolean _) | .external (.number _)
  | .external (.bigint _) | .external (.string _) | .external (.object ..)
  | .external (.heir ..) => cases h

/-- If it is present, what a raw value stands for is read through the type inside all demands. -/
theorem coerce_stand (hs : ctx.HasSettledDefaults) {raw : Raw}
    (hp : isPresent (ctx.stand raw) = true) (type : TypeRef (TypeId ν)) (path : Path) :
    coerce g ctx type raw path = coerce g ctx type.core (ctx.stand raw) path := by
  have hcore : ∀ type : TypeRef (TypeId ν),
      coerce g ctx type (ctx.stand raw) path = coerce g ctx type.core (ctx.stand raw) path := by
    intro type
    induction type with
    | required inner ih =>
      rw [coerce_required hs hp]
      exact ih
    | named id => rfl
    | list item => rfl
  rw [← hcore]
  match raw with
  | .variable name =>
    rw [coerce_variable hs]
    cases hr : ctx.reading g name type path with
    | error failure =>
      have hstand : ctx.stand (.variable name) = ctx.standFor name := rfl
      obtain ⟨_, hn | hn⟩ := Context.standFor_of_reading_error g hr
      · rw [hstand, hn] at hp
        cases hp
      · rw [hstand, hn] at hp
        cases hp
    | ok stand =>
      obtain rfl := Context.reading_eq_ok g hr
      rfl
  | .int _ | .float _ | .string _ | .boolean _ | .enum _ | .null | .absent | .external _
  | .list _ | .object _ => rfl

/-- A list has as many items as the one it is coerced from. -/
theorem length_of_coerce_list (hs : ctx.HasSettledDefaults) {type item : TypeRef (TypeId ν)}
    {raw : Raw} {items : List Raw} {path : Path} {v : Option Value} (htype : type.core = .list item)
    (hitems : (ctx.stand raw).items? = some items)
    (h : coerce g ctx type raw path = .ok (.done v)) :
    ∃ vs, v = some (.list vs) ∧ vs.length = items.length := by
  have hp := isPresent_of_items? hitems
  rw [coerce_stand hs hp, htype, coerce_list hs hp, hitems] at h
  obtain ⟨os, hos, hgather⟩ := map_eq_ok_iff.mp h
  rw [mapM_eq_ok_iff] at hos
  have hne := ne_fail_nil_of_forall₂ hos fun _ => coerceAt_ne_fail_nil _ _ _
  obtain ⟨ws, rfl, rfl⟩ := (gatherItems_eq_done_iff hne).mp hgather
  refine ⟨_, rfl, ?_⟩
  have hlength := hos.length_eq
  simpa using hlength.symm

end Coercion

end TypedQuery
