import TypedQuery.Query.Definitions

/-!
# Reading tokens of a kind

Where all tokens ahead are of a kind, so are those that a reader leaves ahead, and the response keys
of the fields that it reads are names of the kind.

* `Reads`: what a reader makes of tokens of a kind, with one lemma for each reader on the way to the
  selections of a document;
* `KeysAre`, `DefinesKeys`: selections and definitions with such response keys;
* `reads_document`: those of a document.
-/

namespace TypedQuery.Query

namespace Reader

section Reads

variable {α β : Type} {S : Token → Prop} {Q : α → Prop} {Q' : β → Prop}

/-- Where all tokens ahead are of a kind, a reader reads what satisfies `Q`, and leaves such tokens
ahead. -/
def Reads (S : Token → Prop) (r : Reader α) (Q : α → Prop) : Prop :=
  ∀ tokens x rest, (∀ t ∈ tokens.ahead, S t) → r.run tokens = .ok (x, rest) →
    Q x ∧ ∀ t ∈ rest.ahead, S t

theorem Reads.imp {P : α → Prop} {r : Reader α} (h : Reads S r P) (himp : ∀ x, P x → Q x) :
    Reads S r Q :=
  fun tokens x rest hs hr => (h tokens x rest hs hr).imp_left (himp x)

theorem reads_pure {x : α} (h : Q x) : Reads S (pure x : Reader α) Q := by
  intro tokens y rest hs hr
  cases hr
  exact ⟨h, hs⟩

theorem Reads.bind {r : Reader α} {next : α → Reader β} (hr : Reads S r Q)
    (hnext : ∀ x, Q x → Reads S (next x) Q') : Reads S (r >>= next) Q' := by
  intro tokens y rest hs hy
  rw [StateT.run_bind] at hy
  cases hx : r.run tokens with
  | error e =>
    rw [hx] at hy
    cases hy
  | ok p =>
    rw [hx] at hy
    obtain ⟨hq, hs⟩ := hr tokens p.1 p.2 hs hx
    exact hnext p.1 hq p.2 y rest hs hy

theorem reads_discard {r : Reader α} (h : Reads S r Q) : Reads S (discard r) fun _ => True :=
  h.bind fun _ _ => reads_pure trivial

theorem reads_throw (e : SyntaxError) : Reads S (throw e : Reader α) Q := by
  intro tokens x rest _ hr
  cases hr

theorem reads_peek : Reads S peek fun found => ∀ t, found = some t → S t := by
  intro tokens found rest hs hr
  obtain ⟨ahead, flaw⟩ := tokens
  cases ahead with
  | nil =>
    cases flaw with
    | none =>
      cases hr
      exact ⟨fun t ht => (nomatch ht), hs⟩
    | some e => cases hr
  | cons token ahead =>
    cases hr
    refine ⟨fun t ht => ?_, hs⟩
    obtain rfl := Option.some.inj ht
    exact hs _ (List.mem_cons_self ..)

theorem reads_peekSecond : Reads S peekSecond fun _ => True := by
  intro tokens found rest hs hr
  obtain ⟨ahead, flaw⟩ := tokens
  rcases ahead with _ | ⟨first, _ | ⟨second, ahead⟩⟩
  · cases flaw with
    | none => cases hr; exact ⟨trivial, hs⟩
    | some e => cases hr
  · cases flaw with
    | none => cases hr; exact ⟨trivial, hs⟩
    | some e => cases hr
  · cases hr
    exact ⟨trivial, hs⟩

theorem reads_advance : Reads S advance fun _ => True := by
  intro tokens x rest hs hr
  cases hr
  exact ⟨trivial, fun t ht => hs t (List.mem_of_mem_tail ht)⟩

theorem reads_unexpected : Reads S (unexpected : Reader α) Q :=
  reads_peek.bind fun _ _ => reads_throw _

theorem reads_room : Reads S room fun _ => True := by
  intro tokens x rest hs hr
  cases hr
  exact ⟨trivial, hs⟩

theorem reads_ite {c : Prop} [Decidable c] {r r' : Reader α} (h : Reads S r Q)
    (h' : Reads S r' Q) : Reads S (if c then r else r') Q := by
  split
  · exact h
  · exact h'

/-- Two ways of reading what the same reader goes on with. -/
theorem reads_joint {c : Prop} [Decidable c] {r r' : Reader α} {next : α → Reader β}
    (h : Reads S r Q) (h' : Reads S r' Q) (hnext : ∀ x, Q x → Reads S (next x) Q') :
    Reads S (if c then r >>= next else r' >>= next) Q' :=
  reads_ite (h.bind hnext) (h'.bind hnext)

theorem reads_skip (p : Punctuator) : Reads S (skip p) fun _ => True :=
  reads_peek.bind fun _ _ =>
    reads_ite (reads_advance.bind fun _ _ => reads_pure trivial) (reads_pure trivial)

theorem reads_expect (p : Punctuator) : Reads S (expect p) fun _ => True := by
  refine (reads_skip p).bind fun skipped _ => ?_
  cases skipped with
  | true => exact reads_pure trivial
  | false => exact reads_peek.bind fun _ _ => reads_throw _

theorem reads_name : Reads S name fun text => S (.name text) := by
  refine reads_peek.bind fun found hfound => ?_
  split
  · next text =>
    exact reads_advance.bind fun _ _ => reads_pure (hfound _ rfl)
  · exact reads_throw _

theorem reads_skipKeyword (word : String) : Reads S (skipKeyword word) fun _ => True :=
  reads_peek.bind fun _ _ =>
    reads_ite (reads_advance.bind fun _ _ => reads_pure trivial) (reads_pure trivial)

theorem reads_expectKeyword (word : String) : Reads S (expectKeyword word) fun _ => True := by
  refine (reads_skipKeyword word).bind fun skipped _ => ?_
  cases skipped with
  | true => exact reads_pure trivial
  | false => exact reads_peek.bind fun _ _ => reads_throw _

/-! ## Repetition -/

/-- An item, and the items that are read after it. -/
theorem reads_cons {x : α} {r : Reader (List α)} (hx : Q x)
    (hr : Reads S r fun xs => ∀ y ∈ xs, Q y) :
    Reads S (do return x :: (← r)) fun xs => ∀ y ∈ xs, Q y :=
  hr.bind fun _ hxs => reads_pure (List.forall_mem_cons.mpr ⟨hx, hxs⟩)

section Repetition

variable {item : Reader α} (h : Reads S item Q) (opening close separator : Punctuator)
include h

theorem reads_untilClosedWithin (n : Nat) :
    Reads S (untilClosedWithin close item n) fun xs => ∀ x ∈ xs, Q x := by
  induction n with
  | zero => exact reads_unexpected
  | succ n ih =>
    refine (reads_skip close).bind fun closed _ => ?_
    cases closed with
    | true => exact reads_pure fun x hx => absurd hx List.not_mem_nil
    | false => exact h.bind fun x hx => reads_cons hx ih

theorem reads_untilClosed : Reads S (untilClosed close item) fun xs => ∀ x ∈ xs, Q x :=
  reads_room.bind fun n _ => reads_untilClosedWithin h close n

theorem reads_someUntilClosed : Reads S (someUntilClosed close item) fun xs => ∀ x ∈ xs, Q x :=
  h.bind fun _ hx => reads_cons hx (reads_untilClosed h close)

theorem reads_separatedWithin (n : Nat) :
    Reads S (separatedWithin separator item n) fun xs => ∀ x ∈ xs, Q x := by
  induction n with
  | zero => exact reads_unexpected
  | succ n ih =>
    refine h.bind fun x hx => (reads_skip separator).bind fun more _ => ?_
    cases more with
    | true => exact reads_cons hx ih
    | false => exact reads_pure (List.forall_mem_singleton.mpr hx)

theorem reads_separated : Reads S (separated separator item) fun xs => ∀ x ∈ xs, Q x :=
  (reads_discard (reads_skip separator)).bind fun _ _ => reads_room.bind fun n _ =>
    reads_separatedWithin h separator n

theorem reads_enclosed : Reads S (enclosed opening close item) fun xs => ∀ x ∈ xs, Q x :=
  (reads_expect opening).bind fun _ _ => reads_someUntilClosed h close

theorem reads_optionallyEnclosed :
    Reads S (optionallyEnclosed opening close item) fun xs => ∀ x ∈ xs, Q x := by
  refine (reads_skip opening).bind fun opened _ => ?_
  cases opened with
  | true => exact reads_someUntilClosed h close
  | false => exact reads_pure fun x hx => absurd hx List.not_mem_nil

end Repetition

/-! ## Values and types -/

theorem reads_reference (constant : Bool) : Reads S (reference constant) fun _ => True := by
  cases constant with
  | true =>
    refine reads_peek.bind fun _ _ => reads_advance.bind fun _ _ => reads_peek.bind fun _ _ => ?_
    split
    · exact reads_throw _
    · exact reads_throw _
  | false => exact (reads_expect .dollar).bind fun _ _ => reads_name.imp fun _ _ => trivial

theorem reads_valueWithin (constant : Bool) (depth : Nat) :
    Reads S (valueWithin constant depth) fun _ => True := by
  induction depth with
  | zero => exact reads_unexpected
  | succ depth ih =>
    refine reads_peek.bind fun _ _ => ?_
    split
    · refine reads_advance.bind fun _ _ => ?_
      exact (reads_untilClosed ih _).bind fun _ _ => reads_pure trivial
    · have hfield : Reads S (do
          let key ← name
          expect .colon
          return (key, ← valueWithin constant depth)) fun _ => True :=
        reads_name.bind fun _ _ => (reads_expect .colon).bind fun _ _ =>
          ih.bind fun _ _ => reads_pure trivial
      refine reads_advance.bind fun _ _ => ?_
      exact (reads_untilClosed hfield _).bind fun _ _ => reads_pure trivial
    · exact (reads_reference constant).bind fun _ _ => reads_pure trivial
    · exact reads_advance.bind fun _ _ => reads_pure trivial
    · exact reads_advance.bind fun _ _ => reads_pure trivial
    · exact reads_advance.bind fun _ _ => reads_pure trivial
    · exact reads_advance.bind fun _ _ => reads_pure trivial
    · exact reads_advance.bind fun _ _ => reads_pure trivial
    · exact reads_unexpected

theorem reads_value (constant : Bool) : Reads S (value constant) fun _ => True :=
  reads_room.bind fun depth _ => reads_valueWithin constant depth

theorem reads_arguments (constant : Bool) : Reads S (arguments constant) fun _ => True := by
  have hargument : Reads S (argument constant) fun _ => True :=
    reads_name.bind fun _ _ => (reads_expect .colon).bind fun _ _ =>
      (reads_value constant).bind fun _ _ => reads_pure trivial
  exact (reads_optionallyEnclosed hargument _ _).imp fun _ _ => trivial

theorem reads_demanded (type : TypeRef String) : Reads S (demanded type) fun _ => True :=
  (reads_skip .bang).bind fun _ _ => reads_ite (reads_pure trivial) (reads_pure trivial)

theorem reads_typeWithin (depth : Nat) : Reads S (typeWithin depth) fun _ => True := by
  induction depth with
  | zero => exact reads_unexpected
  | succ depth ih =>
    refine (reads_skip .bracketOpen).bind fun opened _ => ?_
    cases opened with
    | true =>
      exact ih.bind fun _ _ => (reads_expect .bracketClose).bind fun _ _ => reads_demanded _
    | false => exact reads_name.bind fun _ _ => reads_demanded _

theorem reads_typeReference : Reads S typeReference fun _ => True :=
  reads_room.bind fun depth _ => reads_typeWithin depth

/-! ## Selections -/

theorem reads_directivesWithin (constant : Bool) (n : Nat) :
    Reads S (directivesWithin constant n) fun _ => True := by
  induction n with
  | zero => exact reads_unexpected
  | succ n ih =>
    refine (reads_skip .at).bind fun found _ => ?_
    cases found with
    | true =>
      exact (reads_discard reads_name).bind fun _ _ =>
        (reads_discard (reads_arguments constant)).bind fun _ _ => ih
    | false => exact reads_pure trivial

theorem reads_directives (constant : Bool) : Reads S (directives constant) fun _ => True :=
  reads_room.bind fun n _ => reads_directivesWithin constant n

theorem reads_fragmentName : Reads S fragmentName fun _ => True :=
  reads_peek.bind fun _ _ => reads_ite reads_unexpected (reads_discard reads_name)

section Nested

variable {nested : Reader Unit} (h : Reads S nested fun _ => True)
include h

theorem reads_fragment : Reads S (fragment nested) fun _ => True := by
  refine (reads_skipKeyword "on").bind fun typed _ => ?_
  cases typed with
  | true =>
    exact (reads_discard reads_name).bind fun _ _ => (reads_directives false).bind fun _ _ => h
  | false =>
    refine reads_peek.bind fun _ _ => ?_
    split
    · exact reads_fragmentName.bind fun _ _ => reads_directives false
    · exact (reads_directives false).bind fun _ _ => h

/-- The response key of a field is a name of its text. -/
theorem reads_field : Reads S (field nested) fun f => S (.name f.responseKey) := by
  refine reads_name.bind fun first hfirst => (reads_skip .colon).bind fun aliased _ => ?_
  refine reads_joint (Q := fun _ => True) (reads_name.imp fun _ _ => trivial)
    (reads_pure trivial) fun fieldName _ => ?_
  -- with or without an alias, the key is the first name
  refine (reads_arguments false).bind fun written _ => (reads_directives false).bind fun _ _ => ?_
  exact reads_peek.bind fun _ _ =>
    reads_ite (h.bind fun _ _ => reads_pure hfirst) (reads_pure hfirst)

theorem reads_selection :
    Reads S (selection nested) fun x => ∀ f, x = .field f → S (.name f.responseKey) := by
  refine (reads_skip .spread).bind fun spread _ => ?_
  cases spread with
  | true => exact (reads_fragment h).bind fun _ _ => reads_pure fun f hf => nomatch hf
  | false =>
    refine (reads_field h).bind fun f hf => reads_pure fun f' hf' => ?_
    obtain rfl := Selection.field.inj hf'
    exact hf

end Nested

/-- The response keys of the fields that are selected at the top are names of the text. -/
def KeysAre (S : Token → Prop) (selections : List Selection) : Prop :=
  ∀ x ∈ selections, ∀ f, x = .field f → S (.name f.responseKey)

theorem reads_selectionsWithin (depth : Nat) : Reads S (selectionsWithin depth) (KeysAre S) := by
  induction depth with
  | zero => exact reads_unexpected
  | succ depth ih => exact reads_enclosed (reads_selection (reads_discard ih)) _ _

theorem reads_selections : Reads S selections (KeysAre S) :=
  reads_room.bind fun depth _ => reads_selectionsWithin depth

/-! ## Operations and fragments -/

theorem reads_description : Reads S description fun _ => True :=
  reads_peek.bind fun _ _ => reads_ite reads_advance (reads_pure trivial)

theorem reads_variableDeclaration : Reads S variableDeclaration fun _ => True := by
  refine reads_description.bind fun _ _ => (reads_expect .dollar).bind fun _ _ =>
    reads_name.bind fun _ _ => (reads_expect .colon).bind fun _ _ =>
      reads_typeReference.bind fun _ _ => (reads_skip .equals).bind fun given _ => ?_
  have hvalue : Reads S (some <$> value true) fun _ => True :=
    (reads_value true).bind fun _ _ => reads_pure trivial
  exact reads_joint hvalue (reads_pure trivial) fun _ _ =>
    (reads_directives true).bind fun _ _ => reads_pure trivial

theorem reads_fragmentDefinition : Reads S fragmentDefinition fun _ => True :=
  reads_fragmentName.bind fun _ _ => (reads_expectKeyword "on").bind fun _ _ =>
    (reads_discard reads_name).bind fun _ _ => (reads_directives false).bind fun _ _ =>
      reads_discard reads_selections

theorem reads_operation (kind : OperationKind) :
    Reads S (operation kind) fun o => KeysAre S o.selections := by
  have hrest (key : Option String) : Reads S (do
      let declarations ← optionallyEnclosed .parenOpen .parenClose variableDeclaration
      directives false
      return (⟨kind, key, declarations, ← selections⟩ : Operation))
      fun o => KeysAre S o.selections :=
    (reads_optionallyEnclosed reads_variableDeclaration _ _).bind fun _ _ =>
      (reads_directives false).bind fun _ _ => reads_selections.bind fun _ hxs => reads_pure hxs
  refine reads_peek.bind fun _ _ => ?_
  split
  · exact reads_advance.bind fun _ _ => hrest _
  · exact hrest none

/-! ## Type systems -/

theorem reads_inputDeclaration : Reads S inputDeclaration fun _ => True :=
  reads_description.bind fun _ _ => (reads_discard reads_name).bind fun _ _ =>
    (reads_expect .colon).bind fun _ _ => (reads_discard reads_typeReference).bind fun _ _ =>
      (reads_skip .equals).bind fun _ _ =>
        reads_ite ((reads_discard (reads_value true)).bind fun _ _ => reads_directives true)
          (reads_directives true)

theorem reads_argumentDeclarations : Reads S argumentDeclarations fun _ => True :=
  reads_discard (reads_optionallyEnclosed reads_inputDeclaration _ _)

theorem reads_fieldDeclaration : Reads S fieldDeclaration fun _ => True :=
  reads_description.bind fun _ _ => (reads_discard reads_name).bind fun _ _ =>
    reads_argumentDeclarations.bind fun _ _ => (reads_expect .colon).bind fun _ _ =>
      (reads_discard reads_typeReference).bind fun _ _ => reads_directives true

theorem reads_symbolDeclaration : Reads S symbolDeclaration fun _ => True := by
  have hrest : Reads S (do discard name; directives true) fun _ => True :=
    (reads_discard reads_name).bind fun _ _ => reads_directives true
  have hrefused (e : SyntaxError) : Reads S (throw e : Reader Unit) fun _ => True := reads_throw e
  exact reads_description.bind fun _ _ => reads_peek.bind fun _ _ =>
    reads_ite ((hrefused _).bind fun _ _ => hrest) hrest

theorem reads_nameThat (accepted : String → Bool) : Reads S (nameThat accepted) fun _ => True :=
  reads_peek.bind fun _ _ => reads_name.bind fun _ _ => (reads_discard reads_peek).bind fun _ _ =>
    reads_ite (reads_pure trivial) (reads_throw _)

theorem reads_rootDeclaration : Reads S rootDeclaration fun _ => True :=
  (reads_nameThat _).bind fun _ _ => (reads_expect .colon).bind fun _ _ => reads_discard reads_name

theorem reads_markings : Reads S markings fun _ => True :=
  reads_peek.bind fun _ _ => (reads_directives true).bind fun _ _ => reads_pure trivial

theorem reads_body {item : Reader Unit} (h : Reads S item fun _ => True) :
    Reads S (body item) fun _ => True :=
  (reads_optionallyEnclosed h _ _).bind fun _ _ => reads_pure trivial

theorem reads_following {announced : Reader Bool} {part : Reader Unit}
    (h : Reads S announced fun _ => True) (hpart : Reads S part fun _ => True) :
    Reads S (following announced part) fun _ => True :=
  h.bind fun _ _ => reads_ite (hpart.bind fun _ _ => reads_pure trivial) (reads_pure trivial)

theorem reads_interfaces (kind : TypeKind) : Reads S (interfaces kind) fun _ => True := by
  have hnames : Reads S (following (skipKeyword "implements") (discard (separated .amp name)))
      fun _ => True :=
    reads_following (reads_skipKeyword _) (reads_discard (reads_separated reads_name _))
  cases kind with
  | object | interface => exact hnames
  | scalar | union | enum | input => exact reads_pure trivial

theorem reads_members (kind : TypeKind) : Reads S (members kind) fun _ => True := by
  cases kind with
  | scalar => exact reads_pure trivial
  | object | interface => exact reads_body reads_fieldDeclaration
  | union => exact reads_following (reads_skip _) (reads_discard (reads_separated reads_name _))
  | enum => exact reads_body reads_symbolDeclaration
  | input => exact reads_body reads_inputDeclaration

theorem reads_typeParts (kind : TypeKind) : Reads S (typeParts kind) fun _ => True :=
  (reads_interfaces kind).bind fun _ _ => reads_markings.bind fun _ _ =>
    (reads_members kind).bind fun _ _ => reads_pure trivial

theorem reads_schemaDefinition : Reads S schemaDefinition fun _ => True :=
  (reads_directives true).bind fun _ _ => reads_discard (reads_enclosed reads_rootDeclaration _ _)

theorem reads_schemaParts : Reads S schemaParts fun _ => True :=
  reads_markings.bind fun _ _ => (reads_body reads_rootDeclaration).bind fun _ _ =>
    reads_pure trivial

theorem reads_directiveDefinition : Reads S directiveDefinition fun _ => True :=
  (reads_expect .at).bind fun _ _ => (reads_discard reads_name).bind fun _ _ =>
    reads_argumentDeclarations.bind fun _ _ =>
      (reads_discard (reads_skipKeyword _)).bind fun _ _ => (reads_expectKeyword _).bind fun _ _ =>
        reads_discard (reads_separated (reads_nameThat _) _)

/-! ## Definitions -/

/-- The response keys of an operation that is defined are names of the text. -/
def DefinesKeys (S : Token → Prop) (d : Definition) : Prop :=
  ∀ o, d = .operation o → KeysAre S o.selections

theorem definesKeys_operation {o : Operation} (h : KeysAre S o.selections) :
    DefinesKeys S (.operation o) := by
  intro o' ho
  obtain rfl := Definition.operation.inj ho
  exact h

theorem reads_typeSystem : Reads S (pure .typeSystem) (DefinesKeys S) :=
  reads_pure fun _ => nofun

theorem reads_headed (heading : Heading) : Reads S (headed heading) (DefinesKeys S) := by
  cases heading with
  | operation kind =>
    exact (reads_operation kind).bind fun _ ho => reads_pure (definesKeys_operation ho)
  | fragment => exact reads_fragmentDefinition.bind fun _ _ => reads_pure fun _ => nofun
  | schema => exact reads_schemaDefinition.bind fun _ _ => reads_typeSystem
  | type kind =>
    exact (reads_discard reads_name).bind fun _ _ =>
      (reads_discard (reads_typeParts kind)).bind fun _ _ => reads_typeSystem
  | directive => exact reads_directiveDefinition.bind fun _ _ => reads_typeSystem

theorem reads_extended {parts : Reader Bool} (h : Reads S parts fun _ => True) :
    Reads S (extended parts) (DefinesKeys S) :=
  h.bind fun _ _ => reads_ite reads_typeSystem reads_unexpected

theorem reads_extension : Reads S extension (DefinesKeys S) := by
  refine reads_peek.bind fun _ _ => ?_
  split
  · split
    · exact reads_advance.bind fun _ _ => reads_extended reads_schemaParts
    · exact reads_advance.bind fun _ _ => (reads_discard reads_name).bind fun _ _ =>
        reads_extended (reads_typeParts _)
    · exact reads_unexpected
  · exact reads_unexpected

theorem reads_described : Reads S described (DefinesKeys S) := by
  refine reads_peekSecond.bind fun _ _ => ?_
  split
  · exact reads_throw _
  · split
    · exact reads_description.bind fun _ _ => reads_advance.bind fun _ _ => reads_headed _
    · exact reads_throw _
  · exact reads_throw _

theorem reads_definition : Reads S definition (DefinesKeys S) := by
  refine reads_peek.bind fun _ _ => ?_
  split
  · exact reads_selections.bind fun _ hxs => reads_pure (definesKeys_operation hxs)
  · exact reads_described
  · exact reads_described
  · split
    · exact reads_advance.bind fun _ _ => reads_headed _
    · exact reads_ite (reads_advance.bind fun _ _ => reads_extension) reads_unexpected
  · exact reads_unexpected

theorem reads_definitionsWithin (n : Nat) :
    Reads S (definitionsWithin n) fun ds => ∀ d ∈ ds, DefinesKeys S d := by
  induction n with
  | zero => exact reads_unexpected
  | succ n ih =>
    refine reads_definition.bind fun d hd => reads_peek.bind fun _ _ => ?_
    split
    · exact reads_pure (List.forall_mem_singleton.mpr hd)
    · exact reads_cons hd ih

theorem reads_document :
    Reads S document fun doc => ∀ o ∈ doc.operations, KeysAre S o.selections := by
  refine reads_room.bind fun n _ => (reads_definitionsWithin n).bind fun ds hds =>
    reads_pure fun o ho => ?_
  obtain ⟨d, hd, ho⟩ := List.mem_filterMap.mp ho
  cases d with
  | operation o' =>
    obtain rfl := Option.some.inj ho
    exact hds _ hd _ rfl
  | fragment | typeSystem => cases ho

end Reads

end Reader

end TypedQuery.Query
