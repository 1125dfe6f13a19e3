import TypedQuery.Proofs.Coercion.Conformance
import TypedQuery.Proofs.Coercion.Walk

/-!
# Where failures point

Every failure of a coercion stands where its path ends, and tells of the type or of the reference
that is met there.

* `Context.Mentions`, `UnmetIn`: what a literal lacks of the variables that it mentions;
* `PointsAt`: what can be told of a place;
* `Located`: failures that point at what is met along their paths, in the order of these paths, and
  stand at one place only if one literal lacks several variables;
* `Located.gather`, `located_failures`: a position has located failures if its parts have, and so
  all positions have;
* `coerce_points`: this for all coercions.
-/

namespace TypedQuery

variable {ν : Type} {g : TypeGraph ν} {ctx : Context ν}

/-! ## References inside literals -/

namespace Context

/-- The variables that a raw value refers to, in itself or through what others stand for. -/
inductive Mentions (ctx : Context ν) : Raw → String → Prop
  | named {raw : Raw} {name : String} (h : .variable name ∈ raw.nodes) : Mentions ctx raw name
  | through {raw : Raw} {other name : String} (h : .variable other ∈ raw.nodes)
      (hstand : Mentions ctx (ctx.standFor other) name) : Mentions ctx raw name

/-- What a reference mentions is mentioned wherever the reference stands. -/
theorem Mentions.of_mem_nodes {raw : Raw} {other name : String}
    (h : ctx.Mentions (.variable other) name) (hn : .variable other ∈ raw.nodes) :
    ctx.Mentions raw name := by
  cases h with
  | named h =>
    obtain rfl := Raw.variable.inj (List.mem_singleton.mp h)
    exact .named hn
  | through h hstand =>
    obtain rfl := Raw.variable.inj (List.mem_singleton.mp h)
    exact .through hn hstand

end Context

namespace Coercion

/-- What is told of a variable that is declared with a required type. -/
inductive Unmet (g : TypeGraph ν) (ctx : Context ν) (path : Path) (name : String) : Failure → Prop
  | missing {d : VariableDefinition ν} (hd : ctx.definition? name = some d)
      (hr : d.type.isRequired = true) (hs : ctx.supplied? name = none)
      (hdefault : ctx.default? name = none) :
      Unmet g ctx path name (.missingVariable path name (g.print d.type))
  | null {d : VariableDefinition ν} (hd : ctx.definition? name = some d)
      (hr : d.type.isRequired = true) (hs : ctx.supplied? name = some .null) :
      Unmet g ctx path name (.valueRequired path (g.print d.type) "null")

theorem Unmet.path_eq {path : Path} {name : String} {f : Failure} (h : Unmet g ctx path name f) :
    f.path = path := by
  cases h <;> rfl

/-- What is told of the variables that a raw value mentions. -/
def UnmetIn (g : TypeGraph ν) (ctx : Context ν) (path : Path) (raw : Raw) (f : Failure) : Prop :=
  ∃ name, ctx.Mentions raw name ∧ Unmet g ctx path name f

theorem UnmetIn.imp {path : Path} {raw raw' : Raw} {f : Failure} (h : UnmetIn g ctx path raw f)
    (himp : ∀ name, ctx.Mentions raw name → ctx.Mentions raw' name) :
    UnmetIn g ctx path raw' f := by
  obtain ⟨name, hm, hunmet⟩ := h
  exact ⟨name, himp name hm, hunmet⟩

end Coercion

namespace Context

open Coercion

section Inline

variable {look : String → Except Fault Inlined} {P : Failure → Prop}

mutual

/-- What is told of a literal is told of its references. -/
theorem forall_failures_inlineWith (raw : Raw)
    (hlook : ∀ name, .variable name ∈ raw.nodes → ∀ r, look name = .ok r → ∀ f ∈ r.2, P f)
    {r : Inlined} (hr : inlineWith look raw = .ok r) : ∀ f ∈ r.2, P f := by
  match raw with
  | .list items =>
    obtain ⟨p, hp, rfl⟩ := map_eq_ok_iff.mp hr
    refine forall_failures_inlineItems items (fun name hn => hlook name ?_) hp
    rw [Raw.nodes]
    exact List.mem_cons_of_mem _ hn
  | .object fields =>
    obtain ⟨p, hp, rfl⟩ := map_eq_ok_iff.mp hr
    refine forall_failures_inlineFields fields (fun name hn => hlook name ?_) hp
    rw [Raw.nodes]
    exact List.mem_cons_of_mem _ hn
  | .variable name => exact hlook name (Raw.mem_nodes_self _) r hr
  | .int _ | .float _ | .string _ | .boolean _ | .enum _ | .null | .absent | .external _ =>
    obtain rfl := Except.ok.inj hr
    exact fun f hf => absurd hf List.not_mem_nil

theorem forall_failures_inlineItems (items : List Raw)
    (hlook : ∀ name, .variable name ∈ Raw.itemNodes items →
      ∀ r, look name = .ok r → ∀ f ∈ r.2, P f)
    {p : List Raw × List Failure} (hp : inlineItems look items = .ok p) : ∀ f ∈ p.2, P f := by
  match items with
  | [] =>
    obtain rfl := Except.ok.inj hp
    exact fun f hf => absurd hf List.not_mem_nil
  | item :: rest =>
    rw [inlineItems] at hp
    obtain ⟨r, hr, hp⟩ := bind_eq_ok_iff.mp hp
    obtain ⟨q, hq, hp⟩ := bind_eq_ok_iff.mp hp
    obtain rfl := Except.ok.inj hp
    exact List.forall_mem_append.mpr
      ⟨forall_failures_inlineWith item (fun name hn => hlook name (List.mem_append_left _ hn)) hr,
        forall_failures_inlineItems rest
          (fun name hn => hlook name (List.mem_append_right _ hn)) hq⟩

theorem forall_failures_inlineFields (fields : List (String × Raw))
    (hlook : ∀ name, .variable name ∈ Raw.fieldNodes fields →
      ∀ r, look name = .ok r → ∀ f ∈ r.2, P f)
    {p : List (String × Raw) × List Failure} (hp : inlineFields look fields = .ok p) :
    ∀ f ∈ p.2, P f := by
  match fields with
  | [] =>
    obtain rfl := Except.ok.inj hp
    exact fun f hf => absurd hf List.not_mem_nil
  | (_, held) :: rest =>
    rw [inlineFields] at hp
    obtain ⟨r, hr, hp⟩ := bind_eq_ok_iff.mp hp
    obtain ⟨q, hq, hp⟩ := bind_eq_ok_iff.mp hp
    obtain rfl := Except.ok.inj hp
    exact List.forall_mem_append.mpr
      ⟨forall_failures_inlineWith held (fun name hn => hlook name (List.mem_append_left _ hn)) hr,
        forall_failures_inlineFields rest
          (fun name hn => hlook name (List.mem_append_right _ hn)) hq⟩

end

end Inline

/-- A reference inside a literal lacks a variable that it mentions. -/
theorem unmetIn_of_inlineVariable {path : Path} {hops : Nat} {name : String} {r : Inlined}
    (hr : inlineVariable g ctx path hops name = .ok r) :
    ∀ f ∈ r.2, UnmetIn g ctx path (.variable name) f := by
  induction hops generalizing name r with
  | zero => cases hr
  | succ hops ih =>
    have hself : ctx.Mentions (.variable name) name := .named (Raw.mem_nodes_self _)
    have hunmet : ∀ f, Unmet g ctx path name f → UnmetIn g ctx path (.variable name) f :=
      fun f h => ⟨name, hself, h⟩
    have hrequired : ∀ type ∈ (ctx.requiredType? name).toList, ∃ d,
        ctx.definition? name = some d ∧ d.type = type ∧ type.isRequired = true := fun type ht =>
      requiredType?_eq_some_iff.mp (Option.mem_toList.mp ht)
    unfold inlineVariable at hr
    dsimp only at hr
    split at hr
    · next value hs =>
      obtain rfl := Except.ok.inj hr
      cases value with
      | null =>
        intro f hf
        obtain ⟨type, ht, rfl⟩ := List.mem_map.mp hf
        obtain ⟨d, hd, rfl, hreq⟩ := hrequired type ht
        exact hunmet _ (.null hd hreq hs)
      | undefined | boolean | number | bigint | string | array | object | heir =>
        exact fun f hf => absurd hf List.not_mem_nil
    · next hs =>
      split at hr
      · next literal hd =>
        refine forall_failures_inlineWith literal (fun other hn r' hr' f hf => ?_) hr
        refine (ih hr' f hf).imp fun name' hm => .through (Raw.mem_nodes_self _) ?_
        rw [standFor_default hs hd]
        exact hm.of_mem_nodes hn
      · next hdefault =>
        obtain rfl := Except.ok.inj hr
        intro f hf
        obtain ⟨type, ht, rfl⟩ := List.mem_map.mp hf
        obtain ⟨d, hd, rfl, hreq⟩ := hrequired type ht
        exact hunmet _ (.missing hd hreq hs hdefault)

theorem unmetIn_of_inline {path : Path} {raw : Raw} {r : Inlined}
    (hr : ctx.inline g path raw = .ok r) : ∀ f ∈ r.2, UnmetIn g ctx path raw f :=
  forall_failures_inlineWith raw
    (fun _ hn _ hr' f hf => (unmetIn_of_inlineVariable hr' f hf).imp fun _ hm =>
      hm.of_mem_nodes hn) hr

end Context

namespace Coercion

variable {type : TypeRef (TypeId ν)} {raw : Raw} {path : Path} {f f' : Failure}

/-! ## What points at a place -/

/-- What can be told of a place, by the type and the raw value that are met there. -/
inductive PointsAt (g : TypeGraph ν) (ctx : Context ν) (path : Path) (type : TypeRef (TypeId ν))
    (raw : Raw) : Failure → Prop
  | scalar {s : Scalar} (hs : g.named? type = some (.scalar s)) (written detail : String) :
      PointsAt g ctx path type raw (.scalarRejected path s.name written detail)
  | enum {e : EnumType} (he : g.named? type = some (.enum e)) (written : String) :
      PointsAt g ctx path type raw (.unknownSymbol path e.name written)
  | list {item : TypeRef (TypeId ν)} (hcore : type.core = .list item) (written : String) :
      PointsAt g ctx path type raw (.shapeMismatch path "a list" (g.print (.list item)) written)
  | input {o : InputObject ν} (ho : g.named? type = some (.input o)) (written : String) :
      PointsAt g ctx path type raw (.shapeMismatch path "an input object" o.name written)
  | nothing (ht : type.isRequired = true) (hr : raw = .absent) :
      PointsAt g ctx path type raw (.valueRequired path (g.print type) "nothing")
  | null (ht : type.isRequired = true) (hr : isPresent raw = false) :
      PointsAt g ctx path type raw (.valueRequired path (g.print type) "null")
  | unsupplied {name : String} (ht : type.isRequired = true) (hr : raw = .variable name) :
      PointsAt g ctx path type raw (.missingVariable path name (g.print type))
  | reference {name : String} {f : Failure} (hr : raw = .variable name)
      (h : Unmet g ctx path name f) : PointsAt g ctx path type raw f
  | literal {s : Scalar} {f : Failure} (hs : g.named? type = some (.scalar s))
      (hr : isPresent raw = true) (h : UnmetIn g ctx path raw f) :
      PointsAt g ctx path type raw f

theorem PointsAt.path_eq (h : PointsAt g ctx path type raw f) : f.path = path := by
  cases h with
  | scalar | enum | list | input | nothing | null | unsupplied => rfl
  | reference _ h => exact h.path_eq
  | literal _ _ h =>
    obtain ⟨_, _, h⟩ := h
    exact h.path_eq

/-- What is told of a present value is told of it where a value is demanded, too. -/
theorem PointsAt.demanded (hp : isPresent raw = true) (h : PointsAt g ctx path type raw f) :
    PointsAt g ctx path (.required type) raw f := by
  have hnamed : g.named? (.required type) = g.named? type := rfl
  have hinside : (TypeRef.required type).core = type.core := rfl
  cases h with
  | scalar hs written detail => exact .scalar (hnamed.trans hs) written detail
  | enum he written => exact .enum (hnamed.trans he) written
  | list hcore written => exact .list (hinside.trans hcore) written
  | input ho written => exact .input (hnamed.trans ho) written
  | nothing ht hr =>
    rw [hr] at hp
    cases hp
  | null ht hr =>
    rw [hp] at hr
    cases hr
  | unsupplied ht hr =>
    rw [hr] at hp
    cases hp
  | reference hr h => exact .reference hr h
  | literal hs hr h => exact .literal (hnamed.trans hs) hr h

/-! ## Located failures -/

/-- Two failures tell of variables that one literal of a scalar mentions. -/
def InOneLiteral (g : TypeGraph ν) (ctx : Context ν) (type : TypeRef (TypeId ν)) (raw : Raw)
    (path : Path) (f f' : Failure) : Prop :=
  ∃ inner type' raw' s, Meets g ctx type raw inner type' raw' ∧
    g.named? type' = some (.scalar s) ∧ isPresent raw' = true ∧
    UnmetIn g ctx (path ++ inner) raw' f ∧ UnmetIn g ctx (path ++ inner) raw' f'

/-- A failure comes ahead of another one by its path, unless both are of one literal. -/
def Ahead (g : TypeGraph ν) (ctx : Context ν) (type : TypeRef (TypeId ν)) (raw : Raw)
    (path : Path) (f f' : Failure) : Prop :=
  (∃ inner inner', f.path = path ++ inner ∧ f'.path = path ++ inner' ∧
    g.Precedes type inner inner') ∨ InOneLiteral g ctx type raw path f f'

/-- Failures that each point at what is met along their paths, and that come in the order of their
paths. -/
structure Located (g : TypeGraph ν) (ctx : Context ν) (type : TypeRef (TypeId ν)) (raw : Raw)
    (path : Path) (fs : List Failure) : Prop where
  points : ∀ f ∈ fs, ∃ inner type' raw', Meets g ctx type raw inner type' raw' ∧
    PointsAt g ctx (path ++ inner) type' raw' f
  ordered : fs.Pairwise (Ahead g ctx type raw path)

theorem Located.nil : Located g ctx type raw path [] where
  points _ hf := absurd hf List.not_mem_nil
  ordered := List.Pairwise.nil

/-- A failure of a position itself. -/
theorem Located.single (h : PointsAt g ctx path type raw f) :
    Located g ctx type raw path [f] where
  points f' hf := by
    obtain rfl := List.mem_singleton.mp hf
    exact ⟨[], type, raw, .here type raw, by rwa [List.append_nil]⟩
  ordered := List.pairwise_singleton _ _

/-- The failures of one literal. -/
theorem Located.of_unmetIn {s : Scalar} (hs : g.named? type = some (.scalar s))
    (hp : isPresent raw = true) {fs : List Failure} (h : ∀ f ∈ fs, UnmetIn g ctx path raw f) :
    Located g ctx type raw path fs := by
  rw [← List.append_nil path] at h
  constructor
  · intro f hf
    exact ⟨[], type, raw, .here type raw, .literal hs hp (h f hf)⟩
  · refine List.pairwise_of_forall_mem_list fun f hf f' hf' => Or.inr ?_
    exact ⟨[], type, raw, s, .here type raw, hs, hp, h f hf, h f' hf'⟩

/-- What is met under a demand for a value is met inside it, a present value apart. -/
theorem Meets.demanded {inner : Path} {type' : TypeRef (TypeId ν)} {raw' : Raw}
    (hp : isPresent raw = true) (h : Meets g ctx type raw inner type' raw') :
    (inner = [] ∧ type' = type ∧ raw' = raw) ∨
      Meets g ctx (.required type) raw inner type' raw' := by
  cases h with
  | here => exact Or.inl ⟨rfl, rfl, rfl⟩
  | stand h => cases hp
  | step hpart h => exact Or.inr (.step hpart h)

theorem Located.demanded (hp : isPresent raw = true) {fs : List Failure}
    (h : Located g ctx type raw path fs) : Located g ctx (.required type) raw path fs := by
  constructor
  · intro f hf
    obtain ⟨inner, type', raw', hmeets, hpoints⟩ := h.points f hf
    rcases hmeets.demanded hp with ⟨rfl, rfl, rfl⟩ | hmeets
    · exact ⟨[], _, _, .here _ _, hpoints.demanded hp⟩
    · exact ⟨inner, type', raw', hmeets, hpoints⟩
  · refine h.ordered.imp fun {f f'} hahead => ?_
    rcases hahead with ⟨inner, inner', hf, hf', hprecedes⟩ |
      ⟨inner, type', raw', s, hmeets, hs, hpresent, hunmet, hunmet'⟩
    · exact Or.inl ⟨inner, inner', hf, hf', hprecedes.required⟩
    · rcases hmeets.demanded hp with ⟨rfl, rfl, rfl⟩ | hmeets
      · exact Or.inr ⟨[], _, _, s, .here _ _, hs, hpresent, hunmet, hunmet'⟩
      · exact Or.inr ⟨inner, type', raw', s, hmeets, hs, hpresent, hunmet, hunmet'⟩

/-- A reference has the failures of what it stands for. -/
theorem Located.stand {name : String} {fs : List Failure}
    (h : Located g ctx type (ctx.standFor name) path fs) :
    Located g ctx type (.variable name) path fs := by
  constructor
  · intro f hf
    obtain ⟨inner, type', raw', hmeets, hpoints⟩ := h.points f hf
    exact ⟨inner, type', raw', .stand hmeets, hpoints⟩
  · refine h.ordered.imp fun {f f'} hahead => hahead.imp id ?_
    rintro ⟨inner, type', raw', s, hmeets, hrest⟩
    exact ⟨inner, type', raw', s, .stand hmeets, hrest⟩

section Parts

variable {part : Part ν} (hpart : part ∈ parts g ctx type raw)
include hpart

theorem exists_inside_of_part {fs : List Failure}
    (h : Located g ctx part.type part.raw (path ++ [part.step]) fs) (hf : f ∈ fs) :
    ∃ inner type' raw', Meets g ctx type raw (part.step :: inner) type' raw' ∧
      PointsAt g ctx (path ++ part.step :: inner) type' raw' f := by
  obtain ⟨inner, type', raw', hmeets, hpoints⟩ := h.points f hf
  rw [List.append_assoc, List.singleton_append] at hpoints
  exact ⟨inner, type', raw', .step hpart hmeets, hpoints⟩

theorem Ahead.of_part (h : Ahead g ctx part.type part.raw (path ++ [part.step]) f f') :
    Ahead g ctx type raw path f f' := by
  rcases h with ⟨inner, inner', hf, hf', hprecedes⟩ | ⟨inner, type', raw', s, hmeets, hrest⟩
  · rw [List.append_assoc, List.singleton_append] at hf hf'
    exact Or.inl ⟨_, _, hf, hf', .inside (inside?_of_mem_parts hpart) hprecedes⟩
  · rw [List.append_assoc, List.singleton_append] at hrest
    exact Or.inr ⟨_, type', raw', s, .step hpart hmeets, hrest⟩

end Parts

/-- Parts with located failures, in their order, have located failures together. -/
theorem Located.gather_of_mem {ps : List (Part ν)} {os : List (Outcome (Option Value))}
    (hps : ∀ part ∈ ps, part ∈ parts g ctx type raw)
    (hbefore : ps.Pairwise fun part part' => g.Before type part.step part'.step)
    (h : List.Forall₂ (fun part o =>
      Located g ctx part.type part.raw (path ++ [part.step]) o.failures) ps os) :
    Located g ctx type raw path (os.flatMap Outcome.failures) := by
  induction h with
  | nil => exact .nil
  | @cons part o ps os hlocated hrest ih =>
    obtain ⟨hfirst, hlater⟩ := List.pairwise_cons.mp hbefore
    obtain ⟨hpart, hps⟩ := List.forall_mem_cons.mp hps
    have hgathered := ih hps hlater
    rw [List.flatMap_cons]
    constructor
    · intro f hf
      rcases List.mem_append.mp hf with hf | hf
      · obtain ⟨inner, type', raw', hmeets, hpoints⟩ := exists_inside_of_part hpart hlocated hf
        exact ⟨part.step :: inner, type', raw', hmeets, hpoints⟩
      · exact hgathered.points f hf
    · rw [List.pairwise_append]
      refine ⟨hlocated.ordered.imp fun h => h.of_part hpart, hgathered.ordered, ?_⟩
      intro f hf f' hf'
      obtain ⟨o', ho', hf'⟩ := List.mem_flatMap.mp hf'
      obtain ⟨part', hpart', hlocated'⟩ := exists_left_of_forall₂ hrest ho'
      obtain ⟨inner, _, _, _, hpoints⟩ := exists_inside_of_part hpart hlocated hf
      obtain ⟨inner', _, _, _, hpoints'⟩ :=
        exists_inside_of_part (hps part' hpart') hlocated' hf'
      exact Or.inl ⟨_, _, hpoints.path_eq, hpoints'.path_eq,
        .part (hfirst part' hpart') inner inner'⟩

/-- A position has located failures if each of its parts has. -/
theorem Located.gather {os : List (Outcome (Option Value))}
    (h : List.Forall₂ (fun part o =>
      Located g ctx part.type part.raw (path ++ [part.step]) o.failures)
      (parts g ctx type raw) os) : Located g ctx type raw path (os.flatMap Outcome.failures) :=
  .gather_of_mem (fun _ h => h) (pairwise_before_parts g ctx type raw) h

/-! ## Leaves -/

variable {o : Outcome (Option Value)}

theorem located_refuse {shown : Raw} {failure : String → Failure}
    (h : refuse shown failure = .ok o)
    (hpoints : ∀ written, PointsAt g ctx path type raw (failure written)) :
    Located g ctx type raw path o.failures := by
  unfold refuse at h
  split at h
  · obtain rfl := Except.ok.inj h
    exact .single (hpoints _)
  · cases h

theorem located_judge {s : Scalar} (hs : g.named? type = some (.scalar s)) {input : Raw}
    (h : judge s input path = .ok o) : Located g ctx type raw path o.failures := by
  unfold judge at h
  split at h
  · obtain rfl := Except.ok.inj h
    exact .nil
  · exact located_refuse h fun written => .scalar hs written _
  · split at h
    · exact located_refuse h fun written => .scalar hs written _
    · cases h

theorem located_coerceScalar {s : Scalar} (hs : g.named? type = some (.scalar s))
    (hp : isPresent raw = true) (h : coerceScalar g ctx s raw path = .ok o) :
    Located g ctx type raw path o.failures := by
  obtain ⟨⟨input, failures⟩, hinline, h⟩ := bind_eq_ok_iff.mp h
  cases failures with
  | nil => exact located_judge hs h
  | cons f fs =>
    obtain rfl := Except.ok.inj h
    exact .of_unmetIn hs hp (Context.unmetIn_of_inline hinline)

theorem located_coerceEnum {e : EnumType} (he : g.named? type = some (.enum e))
    (h : coerceEnum e raw path = .ok o) : Located g ctx type raw path o.failures := by
  unfold coerceEnum at h
  split at h
  · obtain rfl := Except.ok.inj h
    exact .nil
  · exact located_refuse h fun written => .enum he written

/-- A reference that must have a value points at its declaration, or at the type that is expected
of it. -/
theorem pointsAt_null_reference {name : String} (hs : ctx.supplied? name = some .null)
    (hr : (ctx.declaredType name type).isRequired = true) :
    PointsAt g ctx path type (.variable name)
      (.valueRequired path (g.print (ctx.declaredType name type)) "null") := by
  unfold Context.declaredType at hr ⊢
  cases hd : ctx.definition? name with
  | none =>
    rw [hd] at hr
    exact .null hr rfl
  | some d =>
    rw [hd] at hr
    exact .reference rfl (.null hd hr hs)

theorem pointsAt_missing_reference {name : String} (hs : ctx.supplied? name = none)
    (hdefault : ctx.default? name = none) (hr : (ctx.declaredType name type).isRequired = true) :
    PointsAt g ctx path type (.variable name)
      (.missingVariable path name (g.print (ctx.declaredType name type))) := by
  unfold Context.declaredType at hr ⊢
  cases hd : ctx.definition? name with
  | none =>
    rw [hd] at hr
    exact .unsupplied hr rfl
  | some d =>
    rw [hd] at hr
    exact .reference rfl (.missing hd hr hs hdefault)

theorem isPresent_of_isNull (h : raw.isNull = true) : isPresent raw = false := by
  cases raw <;> simp [isPresent, h]

/-! ## Every position -/

variable {hops defaults : Nat}

/-- The failures of a coercion are located. -/
theorem located_failures (h : coerceAt g ctx hops defaults type raw path = .ok o) :
    Located g ctx type raw path o.failures := by
  induction hops, defaults, type, raw using coercion_induction g ctx generalizing path o with
  | reference hops defaults type name ih =>
    rw [coerceAt_variable] at h
    rcases Context.reading_cases g name type path with he | ⟨hr, ⟨hs, he⟩ | ⟨hs, hdefault, he⟩⟩
    · rw [he] at h
      cases hops with
      | zero => cases h
      | succ hops => exact (ih hops rfl h).stand
    · rw [he] at h
      obtain rfl := Except.ok.inj h
      exact .single (pointsAt_null_reference hs hr)
    · rw [he] at h
      obtain rfl := Except.ok.inj h
      exact .single (pointsAt_missing_reference hs hdefault hr)
  | absent hops defaults type =>
    rw [coerceAt_absent, missing] at h
    split at h
    · next ht =>
      obtain rfl := Except.ok.inj h
      exact .single (.nothing ht rfl)
    · obtain rfl := Except.ok.inj h
      exact .nil
  | null hops defaults type raw hn =>
    rw [coerceAt_null _ _ _ _ hn, nullValue] at h
    split at h
    · next ht =>
      obtain rfl := Except.ok.inj h
      exact .single (.null ht (isPresent_of_isNull hn))
    · obtain rfl := Except.ok.inj h
      exact .nil
  | required hops defaults inner raw hp ih =>
    rw [coerceAt_required _ _ _ _ hp] at h
    exact (ih h).demanded hp
  | list hops defaults item raw hp ih =>
    rw [coerceAt_list _ _ _ _ hp] at h
    have hparts : parts g ctx (.list item) raw = _ := parts_list hp item
    cases hitems : raw.items? with
    | none =>
      rw [hitems] at h
      exact located_refuse h fun written => .list rfl written
    | some items =>
      rw [hitems] at h hparts
      obtain ⟨os, hos, rfl⟩ := map_eq_ok_iff.mp h
      rw [failures_gatherItems]
      refine .gather (hparts ▸ List.forall₂_map_left_iff.mpr ?_)
      exact forall₂_imp_of_mem (mapM_eq_ok_iff.mp hos) fun p hpi o ho =>
        ih items hitems p.1 (List.fst_mem_of_mem_zipIdx hpi) ho
  | scalar hops defaults id s raw hp hd =>
    rw [coerceAt_scalar _ _ _ _ hp hd] at h
    exact located_coerceScalar (TypeGraph.named?_of_describe hd) hp h
  | enum hops defaults id e raw hp hd =>
    rw [coerceAt_enum _ _ _ _ hp hd] at h
    exact located_coerceEnum (TypeGraph.named?_of_describe hd) h
  | input hops defaults id io raw hp hd ih ihd =>
    rw [coerceAt_input _ _ _ _ hp hd] at h
    have hparts : parts g ctx (.named id) raw = _ := parts_input hp hd
    cases hobject : raw.isObject with
    | false =>
      rw [hobject] at h
      exact located_refuse h fun written => .input (TypeGraph.named?_of_describe hd) written
    | true =>
      rw [hobject, if_pos rfl] at h hparts
      obtain ⟨os, hos, rfl⟩ := map_eq_ok_iff.mp h
      rw [Outcome.failures_map, failures_gatherMembers, ← List.flatMap_map]
      refine .gather (hparts ▸ List.forall₂_map_left_iff.mpr (List.forall₂_map_right_iff.mpr ?_))
      refine forall₂_imp_of_mem (mapM_named_eq_ok_iff.mp hos) fun f hf o ho => ?_
      have hfield := ho.2
      rw [coerceField] at hfield
      unfold fieldPart
      rcases fallbackFor?_cases ctx f.2 (raw.field f.1) with ⟨hn, _⟩ | ⟨v, _, hv, hn⟩
      · rw [hn] at hfield ⊢
        exact ih hobject f hf hfield
      · rw [hn] at hfield ⊢
        cases defaults with
        | zero => cases hfield
        | succ d => exact ihd f hf v hv d rfl hfield

/-- Of two failures at one place neither comes ahead of the other by its path. -/
theorem Ahead.inOneLiteral (h : Ahead g ctx type raw path f f') (hpath : f.path = f'.path) :
    InOneLiteral g ctx type raw path f f' := by
  rcases h with ⟨inner, inner', hf, hf', hprecedes⟩ | h
  · rw [hf, hf'] at hpath
    exact absurd (List.append_cancel_left hpath) hprecedes.ne
  · exact h

/-- **Failures point at what they tell of.** The path of each failure walks through the type, to
the type that the failure tells of or to a reference whose variable must have a value. Failures come
in the order of items and of declared fields, and two of them stand at one place only if both tell
of variables in one literal of a scalar. -/
theorem coerce_points {fs : List Failure} (h : coerce g ctx type raw path = .ok (.fail fs)) :
    (∀ f ∈ fs, ∃ inner type' raw', f.path = path ++ inner ∧ g.typeAt? type inner = some type' ∧
      Meets g ctx type raw inner type' raw' ∧ PointsAt g ctx f.path type' raw' f) ∧
    fs.Pairwise (Ahead g ctx type raw path) ∧
    fs.Pairwise fun f f' => f.path = f'.path → InOneLiteral g ctx type raw path f f' := by
  have hlocated : Located g ctx type raw path fs := located_failures h
  refine ⟨fun f hf => ?_, hlocated.ordered, hlocated.ordered.imp Ahead.inOneLiteral⟩
  obtain ⟨inner, type', raw', hmeets, hpoints⟩ := hlocated.points f hf
  exact ⟨inner, type', raw', hpoints.path_eq, hmeets.typeAt?_eq, hmeets,
    hpoints.path_eq.symm ▸ hpoints⟩

/-! ## Two boxes -/

/-- An operation whose two variables must have values. -/
def sized : Context BoxType :=
  ⟨[], [⟨"width", .required (.named (.builtin .int)), none⟩,
    ⟨"height", .required (.named (.builtin .int)), none⟩]⟩

/-- A box whose label is a list of two variables, and whose unit is none. -/
def oddBox : Raw :=
  .object [("label", .list [.variable "width", .variable "height"]), ("unit", .enum "MILE")]

/-- What is told of it. -/
def oddBoxFailures (path : Path) : List Failure :=
  [.missingVariable (path ++ [.field "label"]) "width" "Int!",
    .missingVariable (path ++ [.field "label"]) "height" "Int!",
    .unknownSymbol (path ++ [.field "unit"]) "Unit" "MILE"]

theorem coerceAt_oddBox (path : Path) :
    coerceAt boxes sized hops defaults (.required (.named (.declared .box))) oddBox path =
      .ok (.fail (oddBoxFailures path)) := by
  have hobject : oddBox.isObject = true := rfl
  rw [coerceAt_required _ _ _ _ rfl, coerceAt_input _ _ _ _ rfl rfl, if_pos hobject]
  refine map_eq_ok_iff.mpr ⟨[("label", .fail ((oddBoxFailures path).take 2)),
    ("unit", .fail ((oddBoxFailures path).drop 2))], ?_, rfl⟩
  refine mapM_named_eq_ok_iff.mpr (.cons ⟨rfl, ?_⟩ (.cons ⟨rfl, ?_⟩ .nil))
  · exact (coerceAt_required _ _ _ _ rfl _ _).trans ((coerceAt_scalar _ _ _ _ rfl rfl _).trans rfl)
  · exact (coerceAt_enum _ _ _ _ rfl rfl _).trans rfl

/-- A list of no box and of this one. -/
def oddBoxes : Raw := .list [.null, oddBox]

def boxList : TypeRef (TypeId BoxType) := .list (.required (.named (.declared .box)))

def oddBoxesFailures : List Failure :=
  .valueRequired [.index 0] "Box!" "null" :: oddBoxFailures [.index 1]

theorem coerce_oddBoxes :
    coerce boxes sized boxList oddBoxes [] = .ok (.fail oddBoxesFailures) := by
  refine (coerceAt_list _ _ _ _ rfl _ _).trans (map_eq_ok_iff.mpr ⟨[
    .fail [.valueRequired [.index 0] "Box!" "null"], .fail (oddBoxFailures [.index 1])], ?_, rfl⟩)
  exact mapM_eq_ok_iff.mpr (.cons (coerceAt_null _ _ _ _ rfl _ _) (.cons (coerceAt_oddBox _) .nil))

/-- The failures come in their order, and the two that stand at one place are of one literal. -/
theorem coerce_points_oddBoxes :
    coerce boxes sized boxList oddBoxes [] = .ok (.fail oddBoxesFailures) ∧
      oddBoxesFailures.Pairwise (Ahead boxes sized boxList oddBoxes []) ∧
      InOneLiteral boxes sized boxList oddBoxes []
        (.missingVariable [.index 1, .field "label"] "width" "Int!")
        (.missingVariable [.index 1, .field "label"] "height" "Int!") := by
  obtain ⟨-, hordered, hone⟩ := coerce_points coerce_oddBoxes
  obtain ⟨-, hone⟩ := List.pairwise_cons.mp hone
  obtain ⟨hone, -⟩ := List.pairwise_cons.mp hone
  exact ⟨coerce_oddBoxes, hordered, hone _ (List.mem_cons_self ..) rfl⟩

end Coercion

end TypedQuery
