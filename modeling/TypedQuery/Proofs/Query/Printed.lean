import TypedQuery.Proofs.Query.Spelling
import TypedQuery.Proofs.Raw.Nodes
import TypedQuery.Query.Reader

/-!
# Printed literals

The text of a literal reads back as that literal. The text is first cut into the tokens of the
literal, and these are then read.

* `Raw.IsLiteral`: what query text can say;
* `Raw.tokens`, `spells_text`: the tokens of a literal, which its text spells;
* `Reader.Takes`: a reader that takes some tokens, whatever lies behind them, with one lemma for
  each reader of values;
* `takes_valueWithin`: the tokens of a literal are read as that literal;
* `readValue_text`: so is its text.
-/

namespace TypedQuery

open Query

/-! ## Literals -/

namespace Raw

/-- Whether query text can have a raw value at its place, apart from what is inside it. -/
def IsWritten : Raw → Prop
  | .int numeral => IsIntNumeral numeral
  | .float numeral => IsFloatNumeral numeral
  | .enum symbol =>
    isIdentifier symbol = true ∧ symbol ≠ "true" ∧ symbol ≠ "false" ∧ symbol ≠ "null"
  | .object fields => ∀ f ∈ fields, isIdentifier f.1 = true
  | .variable name => isIdentifier name = true
  | .string _ | .boolean _ | .null | .list _ => True
  | .absent | .external _ => False

/-- What query text can say. -/
def IsLiteral (raw : Raw) : Prop := ∀ n ∈ raw.nodes, n.IsWritten

theorem IsLiteral.isWritten {raw : Raw} (h : raw.IsLiteral) : raw.IsWritten :=
  h raw (mem_nodes_self raw)

theorem IsLiteral.item {items : List Raw} (h : IsLiteral (.list items)) {item : Raw}
    (hi : item ∈ items) : item.IsLiteral := by
  intro n hn
  refine h n ?_
  rw [nodes]
  exact List.mem_cons_of_mem _ (mem_itemNodes.mpr ⟨item, hi, hn⟩)

theorem IsLiteral.field {fields : List (String × Raw)} (h : IsLiteral (.object fields))
    {f : String × Raw} (hf : f ∈ fields) : isIdentifier f.1 = true ∧ f.2.IsLiteral := by
  refine ⟨h.isWritten f hf, fun n hn => h n ?_⟩
  rw [nodes]
  exact List.mem_cons_of_mem _ (mem_fieldNodes.mpr ⟨f, hf, hn⟩)

mutual

/-- The tokens of a literal. -/
def tokens : Raw → List Token
  | .int numeral => [.int numeral]
  | .float numeral => [.float numeral]
  | .string s => [.string s]
  | .boolean b => [.name (if b then "true" else "false")]
  | .enum symbol => [.name symbol]
  | .null => [.name "null"]
  | .list items => .punct .bracketOpen :: (itemTokens items).flatten ++ [.punct .bracketClose]
  | .object fields => .punct .braceOpen :: (fieldTokens fields).flatten ++ [.punct .braceClose]
  | .variable name => [.punct .dollar, .name name]
  | .absent | .external _ => []

def itemTokens : List Raw → List (List Token)
  | [] => []
  | item :: rest => item.tokens :: itemTokens rest

def fieldTokens : List (String × Raw) → List (List Token)
  | [] => []
  | (name, held) :: rest => ([.name name] ++ .punct .colon :: held.tokens) :: fieldTokens rest

end

/-! ## Spelling -/

mutual

/-- The text of a literal spells its tokens. -/
theorem spells_text (raw : Raw) (h : raw.IsLiteral) :
    ∃ text, raw.text? = some text ∧ Spells text.toList raw.tokens := by
  match raw with
  | .int numeral => exact ⟨numeral, rfl, .intNumeral h.isWritten⟩
  | .float numeral => exact ⟨numeral, rfl, .floatNumeral h.isWritten⟩
  | .string s => exact ⟨_, rfl, .quote s⟩
  | .boolean b =>
    refine ⟨_, rfl, .name ?_⟩
    cases b <;> decide
  | .enum symbol => exact ⟨symbol, rfl, .name h.isWritten.1⟩
  | .null => exact ⟨"null", rfl, .name (by decide)⟩
  | .list items =>
    obtain ⟨texts, htexts, hspells⟩ := spells_itemTexts items fun item hi => h.item hi
    refine ⟨_, by rw [text?, htexts]; rfl, ?_⟩
    have hbody := Spells.separated hspells
    have hclosed := hbody.closed (c := ']') (p := .bracketClose) (fun _ => rfl) (Or.inl rfl)
    have hopened := hclosed.punct_cons (c := '[') (p := .bracketOpen) fun _ => rfl
    simpa [String.toList_intercalate, tokens] using hopened
  | .object fields =>
    obtain ⟨texts, htexts, hspells⟩ := spells_fieldTexts fields fun f hf => h.field hf
    refine ⟨_, by rw [text?, htexts]; rfl, ?_⟩
    have hbody := Spells.separated hspells
    have hclosed := hbody.closed (c := '\x7d') (p := .braceClose) (fun _ => rfl) (Or.inr rfl)
    have hopened := hclosed.punct_cons (c := '\x7b') (p := .braceOpen) fun _ => rfl
    simpa [String.toList_intercalate, tokens] using hopened
  | .variable name =>
    refine ⟨_, rfl, ?_⟩
    have hname : Spells name.toList [.name name] := .name h.isWritten
    simpa [tokens] using hname.punct_cons (c := '$') (p := .dollar) fun _ => rfl
  | .absent | .external _ => exact h.isWritten.elim

theorem spells_itemTexts (items : List Raw) (h : ∀ item ∈ items, item.IsLiteral) :
    ∃ texts, itemTexts? items = some texts ∧
      List.Forall₂ Spells (texts.map String.toList) (itemTokens items) := by
  match items with
  | [] => exact ⟨[], rfl, .nil⟩
  | item :: rest =>
    obtain ⟨text, htext, hspells⟩ := spells_text item (h item (List.mem_cons_self ..))
    obtain ⟨texts, htexts, hrest⟩ :=
      spells_itemTexts rest fun item hi => h item (List.mem_cons_of_mem _ hi)
    exact ⟨text :: texts, by rw [itemTexts?, htext, htexts]; rfl, .cons hspells hrest⟩

theorem spells_fieldTexts (fields : List (String × Raw))
    (h : ∀ f ∈ fields, isIdentifier f.1 = true ∧ f.2.IsLiteral) :
    ∃ texts, fieldTexts? fields = some texts ∧
      List.Forall₂ Spells (texts.map String.toList) (fieldTokens fields) := by
  match fields with
  | [] => exact ⟨[], rfl, .nil⟩
  | (name, held) :: rest =>
    obtain ⟨hname, hheld⟩ := h (name, held) (List.mem_cons_self ..)
    obtain ⟨text, htext, hspells⟩ := spells_text held hheld
    obtain ⟨texts, htexts, hrest⟩ :=
      spells_fieldTexts rest fun f hf => h f (List.mem_cons_of_mem _ hf)
    refine ⟨(name ++ ": " ++ text) :: texts, by rw [fieldTexts?, htext, htexts]; rfl, ?_⟩
    have hfield : Spells (name ++ ": " ++ text).toList
        ([.name name] ++ .punct .colon :: held.tokens) := by
      simpa using (Spells.name hname).append_colon hspells
    exact .cons hfield hrest

end

end Raw

/-! ## Readers -/

namespace Query.Reader

variable {α β : Type} {token : Token} {front front' : List Token} {x : α} {y : β}

/-- A reader takes some tokens and gives what they say, whatever lies behind them. -/
def Takes (r : Reader α) (front : List Token) (x : α) : Prop :=
  ∀ ahead flaw, r.run ⟨front ++ ahead, flaw⟩ = .ok (x, ⟨ahead, flaw⟩)

theorem takes_pure (x : α) : Takes (pure x) [] x := fun _ _ => rfl

theorem takes_advance (token : Token) : Takes advance [token] () := fun _ _ => rfl

theorem Takes.bind {r : Reader α} {next : α → Reader β} (h : Takes r front x)
    (hnext : Takes (next x) front' y) : Takes (r >>= next) (front ++ front') y := by
  intro ahead flaw
  rw [StateT.run_bind, List.append_assoc, h]
  exact hnext ahead flaw

theorem Takes.return {r : Reader α} (h : Takes r front x) (f : α → β) :
    Takes (do return f (← r)) front (f x) := by
  have hbind : Takes (do return f (← r)) (front ++ []) (f x) := h.bind (takes_pure (f x))
  rwa [List.append_nil] at hbind

/-- To look ahead takes nothing. -/
theorem Takes.peek {next : Option Token → Reader β}
    (h : Takes (next (some token)) (token :: front) y) :
    Takes (Reader.peek >>= next) (token :: front) y :=
  fun ahead flaw => h ahead flaw

theorem takes_skip (p : Punctuator) : Takes (skip p) [.punct p] true := by
  refine Takes.peek ?_
  rw [if_pos rfl]
  exact (takes_advance _).bind (takes_pure true)

/-- A punctuator that is not ahead is not skipped. -/
theorem run_skip_of_ne {p : Punctuator} (hne : token ≠ .punct p) (ahead : List Token)
    (flaw : Option SyntaxError) :
    (skip p).run ⟨token :: ahead, flaw⟩ = .ok (false, ⟨token :: ahead, flaw⟩) := by
  have hfound : ¬(some token = some (Token.punct p)) := fun he => hne (Option.some.inj he)
  simp [skip, Reader.peek, hfound]
  rfl

theorem Takes.not_skip {next : Bool → Reader β} {p : Punctuator} (hne : token ≠ .punct p)
    (h : Takes (next false) (token :: front) y) :
    Takes (Reader.skip p >>= next) (token :: front) y := by
  intro ahead flaw
  rw [StateT.run_bind, List.cons_append, run_skip_of_ne hne]
  exact h ahead flaw

theorem takes_expect (p : Punctuator) : Takes (expect p) [.punct p] () :=
  (takes_skip p).bind (takes_pure ())

theorem takes_name (text : String) : Takes name [.name text] text :=
  Takes.peek ((takes_advance _).bind (takes_pure text))

/-- There is room for as many rounds as there are tokens to take, and one more. -/
theorem Takes.room {next : Nat → Reader β} (h : ∀ n, front.length < n → Takes (next n) front y) :
    Takes (Reader.room >>= next) front y := by
  intro ahead flaw
  refine h _ ?_ ahead flaw
  simp only [List.length_append]
  omega

/-- Items up to a closing punctuator, with which none of them starts. -/
theorem takes_untilClosedWithin {close : Punctuator} {item : Reader α} {fronts : List (List Token)}
    {xs : List α} (h : List.Forall₂ (Takes item) fronts xs)
    (hstart : ∀ front ∈ fronts, ∃ token tail, front = token :: tail ∧ token ≠ .punct close)
    (n : Nat) (hn : fronts.length < n) :
    Takes (untilClosedWithin close item n) (fronts.flatten ++ [.punct close]) xs := by
  induction h generalizing n with
  | nil =>
    obtain ⟨n, rfl⟩ := Nat.exists_eq_succ_of_ne_zero (Nat.ne_zero_of_lt hn)
    exact (takes_skip close).bind (takes_pure [])
  | @cons front x fronts xs hitem hrest ih =>
    obtain ⟨n, rfl⟩ := Nat.exists_eq_succ_of_ne_zero (Nat.ne_zero_of_lt hn)
    obtain ⟨token, tail, rfl, hne⟩ := hstart _ (List.mem_cons_self ..)
    have hmore := ih (fun front hf => hstart front (List.mem_cons_of_mem _ hf)) n
      (Nat.lt_of_succ_lt_succ hn)
    rw [List.flatten_cons, List.append_assoc]
    exact Takes.not_skip hne (hitem.bind (hmore.return _))

theorem takes_untilClosed {close : Punctuator} {item : Reader α} {fronts : List (List Token)}
    {xs : List α} (h : List.Forall₂ (Takes item) fronts xs)
    (hstart : ∀ front ∈ fronts, ∃ token tail, front = token :: tail ∧ token ≠ .punct close) :
    Takes (untilClosed close item) (fronts.flatten ++ [.punct close]) xs := by
  -- every item takes a token, so there is room for all of them
  have hlength : fronts.length ≤ fronts.flatten.length := by
    rw [List.length_flatten]
    have hpos : ∀ n ∈ fronts.map List.length, 1 ≤ n := by
      intro n hn
      obtain ⟨front, hfront, rfl⟩ := List.mem_map.mp hn
      obtain ⟨token, tail, rfl, -⟩ := hstart front hfront
      simp
    simpa using List.length_le_sum_of_one_le _ hpos
  refine Takes.room fun n hn => takes_untilClosedWithin h hstart n ?_
  simp only [List.length_append, List.length_singleton] at hn
  omega

theorem takes_reference (text : String) :
    Takes (reference false) [.punct .dollar, .name text] text :=
  (takes_expect .dollar).bind (takes_name text)

theorem takes_symbol (symbol : String) (depth : Nat) :
    Takes (valueWithin false (depth + 1)) [.name symbol] (symbolValue symbol) :=
  Takes.peek ((takes_advance _).return _)

end Query.Reader

/-! ## Reading literals -/

open Query.Reader

/-- The tokens of a literal do not start with a closing punctuator. -/
theorem Raw.IsLiteral.tokens_eq_cons {raw : Raw} (h : raw.IsLiteral) :
    ∃ token tail, raw.tokens = token :: tail ∧ token ≠ .punct .bracketClose := by
  match raw with
  | .int _ | .float _ | .string _ | .boolean _ | .enum _ | .null | .list _ | .object _
  | .variable _ => exact ⟨_, _, rfl, nofun⟩
  | .absent | .external _ => exact h.isWritten.elim

theorem Raw.itemTokens_start {items : List Raw} (h : ∀ item ∈ items, item.IsLiteral) :
    ∀ front ∈ itemTokens items,
      ∃ token tail, front = token :: tail ∧ token ≠ .punct .bracketClose := by
  induction items with
  | nil => exact fun front hf => absurd hf List.not_mem_nil
  | cons item rest ih =>
    intro front hf
    rcases List.mem_cons.mp hf with rfl | hf
    · exact (h item (List.mem_cons_self ..)).tokens_eq_cons
    · exact ih (fun item hi => h item (List.mem_cons_of_mem _ hi)) front hf

theorem Raw.fieldTokens_start (fields : List (String × Raw)) :
    ∀ front ∈ fieldTokens fields,
      ∃ token tail, front = token :: tail ∧ token ≠ .punct .braceClose := by
  induction fields with
  | nil => exact fun front hf => absurd hf List.not_mem_nil
  | cons f rest ih =>
    intro front hf
    rcases List.mem_cons.mp hf with rfl | hf
    · exact ⟨_, _, rfl, nofun⟩
    · exact ih front hf

mutual

/-- The tokens of a literal are read as that literal, if there is room for all of them. -/
theorem takes_valueWithin (raw : Raw) (h : raw.IsLiteral) (depth : Nat)
    (hdepth : raw.tokens.length ≤ depth) : Takes (valueWithin false depth) raw.tokens raw := by
  obtain ⟨depth, rfl⟩ : ∃ d, depth = d + 1 := by
    obtain ⟨token, tail, htokens, -⟩ := h.tokens_eq_cons
    rw [htokens, List.length_cons] at hdepth
    exact ⟨depth - 1, by omega⟩
  match raw with
  | .int numeral => exact Takes.peek ((takes_advance _).return _)
  | .float numeral => exact Takes.peek ((takes_advance _).return _)
  | .string s => exact Takes.peek ((takes_advance _).return _)
  | .boolean b =>
    have hread := takes_symbol (if b then "true" else "false") depth
    have hvalue : symbolValue (if b then "true" else "false") = .boolean b := by
      cases b <;> rfl
    rwa [hvalue] at hread
  | .enum symbol =>
    have hread := takes_symbol symbol depth
    obtain ⟨-, htrue, hfalse, hnull⟩ := h.isWritten
    rwa [symbolValue, if_neg htrue, if_neg hfalse, if_neg hnull] at hread
  | .null => exact takes_symbol "null" depth
  | .list items =>
    simp only [Raw.tokens, List.length_append, List.length_cons] at hdepth
    have hitems := takes_items items (fun item hi => h.item hi) depth (by omega)
    have hlist := takes_untilClosed hitems (Raw.itemTokens_start fun item hi => h.item hi)
    exact Takes.peek ((takes_advance _).bind (hlist.return _))
  | .object fields =>
    simp only [Raw.tokens, List.length_append, List.length_cons] at hdepth
    have hfields := takes_fields fields (fun f hf => (h.field hf).2) depth (by omega)
    have hobject := takes_untilClosed hfields (Raw.fieldTokens_start fields)
    exact Takes.peek ((takes_advance _).bind (hobject.return _))
  | .variable name =>
    exact Takes.peek ((takes_reference name).return _)
  | .absent | .external _ => exact h.isWritten.elim

theorem takes_items (items : List Raw) (h : ∀ item ∈ items, item.IsLiteral) (depth : Nat)
    (hdepth : (Raw.itemTokens items).flatten.length ≤ depth) :
    List.Forall₂ (Takes (valueWithin false depth)) (Raw.itemTokens items) items := by
  match items with
  | [] => exact .nil
  | item :: rest =>
    rw [Raw.itemTokens, List.flatten_cons, List.length_append] at hdepth
    exact .cons
      (takes_valueWithin item (h item (List.mem_cons_self ..)) depth (by omega))
      (takes_items rest (fun item hi => h item (List.mem_cons_of_mem _ hi)) depth (by omega))

theorem takes_fields (fields : List (String × Raw)) (h : ∀ f ∈ fields, f.2.IsLiteral)
    (depth : Nat) (hdepth : (Raw.fieldTokens fields).flatten.length ≤ depth) :
    List.Forall₂ (Takes do
      let key ← name
      expect .colon
      return (key, ← valueWithin false depth)) (Raw.fieldTokens fields) fields := by
  match fields with
  | [] => exact .nil
  | (key, held) :: rest =>
    simp only [Raw.fieldTokens, List.flatten_cons, List.length_append, List.length_cons] at hdepth
    have hheld := takes_valueWithin held (h (key, held) (List.mem_cons_self ..)) depth (by omega)
    exact .cons ((takes_name key).bind ((takes_expect .colon).bind (hheld.return _)))
      (takes_fields rest (fun f hf => h f (List.mem_cons_of_mem _ hf)) depth (by omega))

end

/-- A text is read in full if its reader leaves none of its tokens. -/
theorem readAll_of_run {α : Type} {r : Reader α} {text : String} {x : α}
    (h : r.run (Query.tokens text.toList) = .ok (x, ⟨[], none⟩)) : readAll r text = .ok x := by
  have hend : (do
      let x ← r
      expectEnd
      return x : Reader α).run (Query.tokens text.toList) = .ok (x, ⟨[], none⟩) := by
    rw [StateT.run_bind, h]
    rfl
  rw [readAll, StateT.run'_eq, hend]
  rfl

theorem readAll_of_takes {α : Type} {r : Reader α} {text : String} {front : List Token} {x : α}
    (htokens : Query.tokens text.toList = ⟨front, none⟩) (h : Takes r front x) :
    readAll r text = .ok x := by
  have hrun := h [] none
  rw [List.append_nil, ← htokens] at hrun
  exact readAll_of_run hrun

/-- **Printed literals read back.** Every literal has a text, and that text, read as query text, is
the literal. -/
theorem readValue_text {raw : Raw} (h : raw.IsLiteral) :
    ∃ text, raw.text? = some text ∧ readValue text = .ok raw := by
  obtain ⟨text, htext, hspells⟩ := Raw.spells_text raw h
  have htokens : Query.tokens text.toList = ⟨raw.tokens, none⟩ := by
    have hend := hspells [] fun c hc => nomatch hc
    rw [List.append_nil, tokens_nil, Tokens.append, List.append_nil] at hend
    exact hend
  have hvalue : Takes (value false) raw.tokens raw :=
    Takes.room fun depth hdepth => takes_valueWithin raw h depth (by omega)
  exact ⟨text, htext, readAll_of_takes htokens hvalue⟩

/-! ## A literal of all kinds -/

/-- An object in which a field is written twice, and a string with quotes and control characters. -/
def mixedLiteral : Raw :=
  .object [("size", .list [.int "-10", .float "1.50e+3", .null]),
    ("label", .string "\"a\\b\"\n\x01"), ("size", .variable "size"),
    ("unit", .object [("_", .enum "INCH"), ("ok", .boolean true)])]

theorem mixedLiteral_isLiteral : mixedLiteral.IsLiteral := by
  have hint : IsIntNumeral "-10" :=
    ⟨['-'], ['1', '0'], Or.inr rfl, Or.inr ⟨⟨by decide, by simp⟩, by decide⟩, rfl⟩
  have hfloat : IsFloatNumeral "1.50e+3" :=
    ⟨[], ['1'], ['.', '5', '0'], ['e', '+', '3'], Or.inl rfl,
      Or.inr ⟨⟨by decide, by simp⟩, by decide⟩,
      Or.inr ⟨['5', '0'], ⟨by decide, by simp⟩, rfl⟩,
      Or.inr ⟨'e', ['3'], Or.inl rfl, ⟨by decide, by simp⟩,
        Or.inr ⟨'+', Or.inl rfl, rfl⟩⟩, by decide, rfl⟩
  intro n hn
  simp only [mixedLiteral, Raw.nodes, Raw.fieldNodes, Raw.itemNodes, List.cons_append,
    List.nil_append, List.append_nil, List.mem_cons, List.not_mem_nil, or_false] at hn
  rcases hn with rfl | rfl | rfl | rfl | rfl | rfl | rfl | rfl | rfl | rfl
  · exact List.all_eq_true.mp (by decide)
  · trivial
  · exact hint
  · exact hfloat
  · trivial
  · trivial
  · exact (by decide : isIdentifier "size" = true)
  · exact List.all_eq_true.mp (by decide)
  · exact ⟨by decide, by decide, by decide, by decide⟩
  · trivial

theorem readValue_text_mixed :
    mixedLiteral.text? = some ("\x7bsize: [-10, 1.50e+3, null], " ++
      "label: \"\\\"a\\\\b\\\"\\n\\u0001\", size: $size, unit: \x7b_: INCH, ok: true\x7d\x7d") ∧
      (mixedLiteral.text?.map fun text => readValue text) = some (.ok mixedLiteral) := by
  obtain ⟨text, htext, hread⟩ := readValue_text mixedLiteral_isLiteral
  refine ⟨by decide, ?_⟩
  rw [htext, Option.map_some, hread]

end TypedQuery
