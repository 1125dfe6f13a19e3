import Mathlib.Data.List.Infix
import Mathlib.Data.List.Nodup
import TypedQuery.Outcome.Failure
import TypedQuery.Proofs.Members

/-!
# Filling templates

A template is read as characters and places. Its places may be filled all at once, or, as messages
are made, by replacing one pattern after the other in the growing text.

* `Piece`, `Template.read`: the pieces of a template;
* `Template.render`: the template with its places filled at once;
* `Template.Nests`: one parameter puts in the place of a later one, ahead of that place;
* `replaceFirst_render`: one replacement fills one place;
* `foldl_fillFirst_render`: unless parameters nest, all replacements fill all places.
-/

namespace TypedQuery

open Code

/-! ## The first occurrence of a place -/

section Replace

variable {pattern text : List Char} {name : String}

theorem replaceFirst_of_starts {s : List Char} (hne : pattern ≠ []) (h : pattern <+: s) :
    replaceFirst pattern text s = text ++ s.drop pattern.length := by
  cases s with
  | nil => exact absurd (List.prefix_nil.mp h) hne
  | cons c rest => rw [replaceFirst, if_pos (List.isPrefixOf_iff_prefix.mpr h)]

theorem replaceFirst_cons_of_not_starts {c : Char} {rest : List Char}
    (h : ¬ pattern <+: c :: rest) :
    replaceFirst pattern text (c :: rest) = c :: replaceFirst pattern text rest := by
  rw [replaceFirst, if_neg fun hp => h (List.isPrefixOf_iff_prefix.mp hp)]

theorem prefix_append_cases {pattern u rest : List Char} (h : pattern <+: u ++ rest) :
    pattern <+: u ∨ ∃ w, w <+: rest ∧ pattern = u ++ w := by
  rcases List.prefix_or_prefix_of_prefix h (List.prefix_append u rest) with hinside | ⟨w, rfl⟩
  · exact Or.inl hinside
  · exact Or.inr ⟨w, (List.prefix_append_right_inj u).mp h, rfl⟩

/-- A text without the pattern is passed over, if what follows cannot complete one. -/
theorem replaceFirst_append_of_not_infix {u rest : List Char} (hu : ¬ pattern <:+: u)
    (hrest : ∀ c ∈ rest.head?, c ∉ pattern) :
    replaceFirst pattern text (u ++ rest) = u ++ replaceFirst pattern text rest := by
  induction u with
  | nil => rfl
  | cons c u ih =>
    have hstarts : ¬ pattern <+: c :: (u ++ rest) := by
      intro h
      rcases prefix_append_cases (u := c :: u) h with hinside | ⟨w, hw, rfl⟩
      · exact hu hinside.isInfix
      · cases w with
        | nil => exact hu (by rw [List.append_nil])
        | cons d w =>
          obtain ⟨rest, rfl⟩ := hw
          exact hrest d rfl (by simp)
    rw [List.cons_append, replaceFirst_cons_of_not_starts hstarts,
      ih fun h => hu (h.trans (List.suffix_cons c u).isInfix), List.cons_append]

/-- In a text with the pattern the first one is replaced, whatever follows. -/
theorem replaceFirst_append_of_infix (hne : pattern ≠ []) {u : List Char} (hu : pattern <:+: u)
    (rest : List Char) :
    replaceFirst pattern text (u ++ rest) = replaceFirst pattern text u ++ rest := by
  induction u with
  | nil => exact absurd (List.infix_nil.mp hu) hne
  | cons c u ih =>
    by_cases hstarts : pattern <+: c :: u
    · rw [replaceFirst_of_starts hne hstarts,
        replaceFirst_of_starts hne (hstarts.trans (List.prefix_append _ rest)),
        List.drop_append_of_le_length hstarts.length_le, List.append_assoc]
    · have hlonger : ¬ pattern <+: c :: (u ++ rest) := fun h =>
        hstarts (List.prefix_of_prefix_length_le h (List.prefix_append (c :: u) rest) hu.length_le)
      rw [List.cons_append, replaceFirst_cons_of_not_starts hlonger,
        replaceFirst_cons_of_not_starts hstarts,
        ih ((List.infix_cons_iff.mp hu).resolve_left hstarts), List.cons_append]

/-! ## Places -/

theorem placeOf_eq_cons (name : String) :
    placeOf name = '\x7b' :: (name.toList ++ ['\x7d']) := rfl

theorem placeOf_ne_nil (name : String) : placeOf name ≠ [] := List.cons_ne_nil _ _

theorem replaceFirst_place (rest : List Char) :
    replaceFirst (placeOf name) text (placeOf name ++ rest) = text ++ rest := by
  rw [replaceFirst_of_starts (placeOf_ne_nil name) (List.prefix_append _ rest), List.drop_left]

/-- What holds no open brace is passed over. -/
theorem replaceFirst_append_of_notMem {u : List Char} (hu : '\x7b' ∉ u) (rest : List Char) :
    replaceFirst (placeOf name) text (u ++ rest) = u ++ replaceFirst (placeOf name) text rest := by
  induction u with
  | nil => rfl
  | cons c u ih =>
    have hstarts : ¬ placeOf name <+: c :: (u ++ rest) := by
      rw [placeOf_eq_cons, List.cons_prefix_cons]
      rintro ⟨rfl, -⟩
      exact hu (List.mem_cons_self ..)
    rw [List.cons_append, replaceFirst_cons_of_not_starts hstarts,
      ih fun h => hu (List.mem_cons_of_mem _ h), List.cons_append]

end Replace

/-! ## Templates in pieces -/

/-- A piece of a template. -/
inductive Piece
  | char (c : Char)
  | place (name : String)
  deriving DecidableEq

namespace Template

/-- Reads a template, after an open brace and what was read since, if there is one. -/
def read : Option (List Char) → List Char → List Piece
  | none, [] => []
  | some name, [] => ('\x7b' :: name).map .char
  | none, c :: rest => if c = '\x7b' then read (some []) rest else .char c :: read none rest
  | some name, c :: rest =>
    if c = '\x7d' then .place (String.ofList name) :: read none rest
    else read (some (name ++ [c])) rest

def places (pieces : List Piece) : List String :=
  pieces.filterMap fun
    | .char _ => none
    | .place name => some name

/-- What a place shows: its parameter, or as long as there is none, itself. -/
def shown (params : List (String × Param)) (name : String) : List Char :=
  (Members.get? params name).elim (placeOf name) (·.toText.toList)

/-- The text of a template with all its places filled at once. -/
def render (params : List (String × Param)) (pieces : List Piece) : List Char :=
  pieces.flatMap fun
    | .char c => [c]
    | .place name => shown params name

/-- Nothing is lost in reading. -/
theorem render_nil_read (inside : Option (List Char)) (cs : List Char) :
    render [] (read inside cs) = (inside.map ('\x7b' :: ·)).getD [] ++ cs := by
  induction cs generalizing inside with
  | nil =>
    cases inside with
    | none => rfl
    | some name =>
      simp [read, render, List.flatMap_map]
  | cons c rest ih =>
    cases inside with
    | none =>
      rw [read]
      split
      · next hc => rw [ih, hc]; rfl
      · rw [render, List.flatMap_cons]
        exact congrArg (c :: ·) (ih none)
    | some name =>
      rw [read]
      split
      · next hc =>
        rw [render, List.flatMap_cons]
        refine (congrArg (placeOf (String.ofList name) ++ ·) (ih none)).trans ?_
        simp [placeOf, hc]
      · rw [ih]
        simp

/-! ## One place -/

/-- Whether what follows a place can neither go on with its name nor close it. -/
def startsApart : List Piece → Bool
  | [] => true
  | .char c :: _ => !c.isAlpha && c != '\x7d'
  | .place _ :: _ => false

/-- Whether no brace opens outside of places, whose names are letters and which stand apart. -/
def isSpaced : List Piece → Bool
  | [] => true
  | .char c :: rest => c != '\x7b' && isSpaced rest
  | .place name :: rest => name.toList.all Char.isAlpha && startsApart rest && isSpaced rest

variable {params : List (String × Param)} {pieces : List Piece} {name : String}

theorem all_isAlpha_of_mem_places (hs : isSpaced pieces = true) (h : name ∈ places pieces) :
    name.toList.all Char.isAlpha = true := by
  induction pieces with
  | nil => cases h
  | cons piece rest ih =>
    cases piece with
    | char c =>
      rw [isSpaced, Bool.and_eq_true] at hs
      exact ih hs.2 h
    | place m =>
      rw [isSpaced, Bool.and_eq_true, Bool.and_eq_true] at hs
      rcases List.mem_cons.mp h with rfl | h
      · exact hs.1.1
      · exact ih hs.2 h

theorem ne_brace_of_isAlpha {c : Char} (h : c.isAlpha = true) : c ≠ '\x7b' ∧ c ≠ '\x7d' := by
  constructor <;> rintro rfl <;> cases h

theorem mem_placeOf {c : Char} :
    c ∈ placeOf name ↔ c = '\x7b' ∨ c ∈ name.toList ∨ c = '\x7d' := by
  simp [placeOf]

/-- What follows a place has nothing of another one. -/
theorem notMem_placeOf_of_startsApart (hs : isSpaced pieces = true)
    (ha : startsApart pieces = true) (hname : name.toList.all Char.isAlpha = true) :
    ∀ c ∈ (render params pieces).head?, c ∉ placeOf name := by
  match pieces with
  | [] => exact fun c hc => by cases hc
  | .char d :: rest =>
    intro c hc
    obtain rfl : d = c := Option.some.inj hc
    rw [isSpaced, Bool.and_eq_true, bne_iff_ne] at hs
    rw [startsApart, Bool.and_eq_true, Bool.not_eq_true', bne_iff_ne] at ha
    rw [mem_placeOf]
    rintro (h | h | h)
    · exact hs.1 h
    · rw [List.all_eq_true.mp hname d h] at ha
      cases ha.1
    · exact ha.2 h

/-- Places of different names do not hold each other. -/
theorem not_placeOf_infix_placeOf {name' : String} (hne : name' ≠ name)
    (h : name'.toList.all Char.isAlpha = true) : ¬ placeOf name <:+: placeOf name' := by
  have hletters : ∀ c ∈ name'.toList, c ≠ '\x7b' ∧ c ≠ '\x7d' := fun c hc =>
    ne_brace_of_isAlpha (List.all_eq_true.mp h c hc)
  rw [placeOf_eq_cons name', List.infix_cons_iff]
  rintro (hstarts | hinside)
  · rw [placeOf_eq_cons, List.cons_prefix_cons] at hstarts
    rcases prefix_append_cases hstarts.2 with hshort | ⟨w, hw, heq⟩
    · exact (hletters _ (hshort.subset (by simp))).2 rfl
    · rcases List.prefix_cons_iff.mp hw with rfl | ⟨w, rfl, hnil⟩
      · rw [List.append_nil] at heq
        exact (hletters '\x7d' (heq ▸ by simp)).2 rfl
      · rw [List.prefix_nil.mp hnil] at heq
        exact hne (String.toList_inj.mp (List.append_cancel_right heq)).symm
  · have hopen : '\x7b' ∈ name'.toList ++ ['\x7d'] := hinside.subset (by simp [placeOf])
    rcases List.mem_append.mp hopen with hm | hm
    · exact (hletters _ hm).1 rfl
    · cases List.mem_singleton.mp hm

theorem render_char (params : List (String × Param)) (c : Char) (rest : List Piece) :
    render params (.char c :: rest) = c :: render params rest := rfl

theorem render_place (params : List (String × Param)) (name : String) (rest : List Piece) :
    render params (.place name :: rest) = shown params name ++ render params rest := rfl

theorem places_place (name : String) (rest : List Piece) :
    places (.place name :: rest) = name :: places rest := rfl

theorem shown_concat_of_ne {name' : String} (hne : name' ≠ name) (param : Param) :
    shown (params ++ [(name, param)]) name' = shown params name' := by
  rw [shown, Members.get?_append, shown]
  have hnone : Members.get? [(name, param)] name' = none := by simp [Members.get?, hne.symm]
  rw [hnone, Option.or_none]

theorem shown_concat_self (h : Members.get? params name = none) (param : Param) :
    shown (params ++ [(name, param)]) name = param.toText.toList := by
  rw [shown, Members.get?_append, h]
  simp [Members.get?]

/-- A parameter changes nothing where it has no place. -/
theorem render_concat_of_notMem (h : name ∉ places pieces) (param : Param) :
    render (params ++ [(name, param)]) pieces = render params pieces := by
  induction pieces with
  | nil => rfl
  | cons piece rest ih =>
    cases piece with
    | char c => rw [render_char, render_char, ih h]
    | place m =>
      rw [places_place, List.mem_cons, not_or] at h
      rw [render_place, render_place, ih h.2, shown_concat_of_ne (Ne.symm h.1)]

/-- One replacement fills one place, unless what was filled in ahead of it holds another. -/
theorem replaceFirst_render (hs : isSpaced pieces = true) (hdistinct : (places pieces).Nodup)
    (hname : name ∈ places pieces) (hnew : Members.get? params name = none)
    (hahead : ∀ m p, [m, name].Sublist (places pieces) → Members.get? params m = some p →
      ¬ placeOf name <:+: p.toText.toList) (param : Param) :
    replaceFirst (placeOf name) param.toText.toList (render params pieces) =
      render (params ++ [(name, param)]) pieces := by
  induction pieces with
  | nil => cases hname
  | cons piece rest ih =>
    cases piece with
    | char c =>
      rw [isSpaced, Bool.and_eq_true, bne_iff_ne] at hs
      rw [render_char, render_char, ← ih hs.2 hdistinct hname hahead]
      exact replaceFirst_append_of_notMem (u := [c]) (by simpa using hs.1.symm) _
    | place m =>
      have hletters := all_isAlpha_of_mem_places hs hname
      rw [isSpaced, Bool.and_eq_true, Bool.and_eq_true] at hs
      obtain ⟨⟨hm, hapart⟩, hs⟩ := hs
      rw [places_place, List.nodup_cons] at hdistinct
      rw [render_place, render_place]
      by_cases hne : m = name
      · subst hne
        rw [shown_concat_self hnew, render_concat_of_notMem hdistinct.1, shown, hnew]
        exact replaceFirst_place _
      · have hrest : name ∈ places rest :=
          (List.mem_cons.mp hname).resolve_left fun h => hne h.symm
        have hother : ¬ placeOf name <:+: shown params m := by
          rw [shown]
          cases hp : Members.get? params m with
          | none => exact not_placeOf_infix_placeOf hne hm
          | some p => exact hahead m p ((List.singleton_sublist.mpr hrest).cons_cons m) hp
        rw [shown_concat_of_ne hne, replaceFirst_append_of_not_infix hother
          (notMem_placeOf_of_startsApart hs hapart hletters), ih hs hdistinct.2 hrest]
        exact fun m' p h => hahead m' p (h.cons m)

/-! ## All places -/

/-- A parameter puts in the place of a later one, ahead of that place. -/
def Nests (places : List String) (params : List (String × Param)) : Prop :=
  ∃ p q : String × Param, [p, q].Sublist params ∧ [p.1, q.1].Sublist places ∧
    placeOf q.1 <:+: p.2.toText.toList

/-- Unless parameters nest, filling one place after the other fills all of them. -/
theorem foldl_fillFirst_render (hs : isSpaced pieces = true) (hdistinct : (places pieces).Nodup)
    {added : List (String × Param)} (hkeys : (Members.keys (params ++ added)).Nodup)
    (hplaces : ∀ p ∈ added, p.1 ∈ places pieces)
    (hnests : ¬ Nests (places pieces) (params ++ added)) :
    added.foldl fillFirst (render params pieces) = render (params ++ added) pieces := by
  induction added generalizing params with
  | nil => rw [List.append_nil, List.foldl_nil]
  | cons q added ih =>
    obtain ⟨name, param⟩ := q
    have hsplit : params ++ (name, param) :: added = params ++ [(name, param)] ++ added := by simp
    rw [List.foldl_cons, fillFirst, replaceFirst_render hs hdistinct
      (hplaces _ (List.mem_cons_self ..)), hsplit]
    · rw [hsplit] at hkeys hnests
      exact ih hkeys (fun p hp => hplaces p (List.mem_cons_of_mem _ hp)) hnests
    · rw [Members.get?_eq_none_iff]
      intro hold
      rw [Members.keys, List.map_append, List.nodup_append] at hkeys
      exact hkeys.2.2 _ hold name (List.mem_cons_self ..) rfl
    · intro m p hahead hp hinside
      refine hnests ⟨(m, p), (name, param), ?_, hahead, hinside⟩
      exact (List.singleton_sublist.mpr (Members.mem_of_get? hp)).append
        (List.singleton_sublist.mpr (List.mem_cons_self ..))

theorem pair_sublist_cons_iff {α : Type} {p q a : α} {l : List α} :
    [p, q].Sublist (a :: l) ↔ p = a ∧ q ∈ l ∨ [p, q].Sublist l := by
  constructor
  · intro h
    cases h with
    | cons _ h => exact Or.inr h
    | cons_cons _ h => exact Or.inl ⟨rfl, List.singleton_sublist.mp h⟩
  · rintro (⟨rfl, h⟩ | h)
    · exact (List.singleton_sublist.mpr h).cons_cons p
    · exact h.cons a

theorem not_nests_nil (places : List String) : ¬ Nests places [] := by
  rintro ⟨p, q, h, -⟩
  cases h

theorem nests_cons_iff {places : List String} {a : String × Param} :
    Nests places (a :: params) ↔
      (∃ q ∈ params, [a.1, q.1].Sublist places ∧ placeOf q.1 <:+: a.2.toText.toList) ∨
        Nests places params := by
  constructor
  · rintro ⟨p, q, h, hplaces, hinside⟩
    rcases pair_sublist_cons_iff.mp h with ⟨rfl, hq⟩ | h
    · exact Or.inl ⟨q, hq, hplaces, hinside⟩
    · exact Or.inr ⟨p, q, h, hplaces, hinside⟩
  · rintro (⟨q, hq, hplaces, hinside⟩ | ⟨p, q, h, hplaces, hinside⟩)
    · exact ⟨a, q, pair_sublist_cons_iff.mpr (Or.inl ⟨rfl, hq⟩), hplaces, hinside⟩
    · exact ⟨p, q, h.cons a, hplaces, hinside⟩

theorem not_placeOf_infix_of_notMem {u : List Char} (h : '\x7b' ∉ u) : ¬ placeOf name <:+: u :=
  fun hinside => h (hinside.subset (List.mem_cons_self ..))

/-- Parameters do not nest if only the last of them may hold an open brace. -/
theorem not_nests_of_dropLast {places : List String}
    (h : ∀ p ∈ params.dropLast, '\x7b' ∉ p.2.toText.toList) : ¬ Nests places params := by
  induction params with
  | nil => exact not_nests_nil places
  | cons a rest ih =>
    rw [nests_cons_iff]
    cases rest with
    | nil =>
      rintro (⟨q, hq, _⟩ | hrest)
      · cases hq
      · exact not_nests_nil places hrest
    | cons b rest =>
      rw [List.dropLast_cons_cons, List.forall_mem_cons] at h
      rintro (⟨q, _, _, hinside⟩ | hrest)
      · exact not_placeOf_infix_of_notMem h.1 hinside
      · exact ih h.2 hrest

end Template

/-! ## The templates of codes -/

namespace Code

open Template

/-- The pieces of the template of a code. -/
def pieces (code : Code) : List Piece := read none code.template.toList

def places (code : Code) : List String := Template.places code.pieces

theorem isSpaced_pieces (code : Code) : isSpaced code.pieces = true := by
  cases code <;> rfl

theorem places_eq (code : Code) :
    code.places = match code with
      | .missingVariable => ["name", "type"]
      | .valueRequired => ["type", "actual"]
      | .scalarRejected => ["type", "value", "detail"]
      | .unknownSymbol => ["value", "type"]
      | .shapeMismatch => ["expected", "type", "value"]
      | .argumentMismatch | .resolverFailed => ["reason"] := by
  cases code <;> decide

theorem nodup_places (code : Code) : code.places.Nodup := by
  rw [places_eq]
  cases code <;> decide

/-- Filling some places of a template one after the other fills them at once, unless the parameters
nest. -/
theorem foldl_fillFirst_template {code : Code} {params : List (String × Param)}
    (hkeys : (Members.keys params).Nodup) (hplaces : ∀ p ∈ params, p.1 ∈ code.places)
    (hnests : ¬ Nests code.places params) :
    params.foldl fillFirst code.template.toList = render params code.pieces := by
  have hstart : code.template.toList = render [] code.pieces := (render_nil_read none _).symm
  have hdistinct : (Members.keys ([] ++ params)).Nodup := hkeys
  rw [hstart, foldl_fillFirst_render (isSpaced_pieces code) (nodup_places code) hdistinct hplaces
    hnests, List.nil_append]

/-- A message has all places filled at once, if its parameters have them and do not nest. -/
theorem message_eq_render {code : Code} {params : List (String × Param)}
    (hkeys : (Members.keys params).Perm code.places) (hnests : ¬ Nests code.places params) :
    code.message params = String.ofList (render params code.pieces) :=
  congrArg String.ofList <| foldl_fillFirst_template
    (hkeys.nodup_iff.mpr (nodup_places code))
    (fun _ hp => hkeys.subset (List.mem_map_of_mem hp)) hnests

end Code

end TypedQuery
