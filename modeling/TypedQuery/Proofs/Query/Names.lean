import Mathlib
import TypedQuery.Proofs.Query.Numeral
import TypedQuery.Proofs.Query.Reads
import TypedQuery.Proofs.Traversal
import TypedQuery.Schema.Operation

/-!
# Names of query text

Every name of query text starts with a letter or an underscore, so that no response key that is read
from text is an array index.

* `IsName`, `IsName.arrayIndex?_eq_none`: names, which are no array indices;
* `isNamed_of_mem_tokens`: the names among the tokens of a text;
* `isName_of_prepare`: the response keys of the fields that a text selects are names.
-/

namespace TypedQuery.Query

/-! ## Names -/

/-- A name starts with a letter or an underscore. -/
def IsName (text : String) : Prop :=
  ∃ c rest, text = String.ofList (c :: rest) ∧ isNameStart c = true

theorem isDigit_of_isNameStart {c : Char} (h : isNameStart c = true) : c.isDigit = false := by
  rw [← Bool.not_eq_true]
  intro hd
  simp only [Char.isDigit, Bool.and_eq_true, decide_eq_true_eq, UInt32.le_iff_toNat_le,
    ge_iff_le] at hd
  simp only [isNameStart, Char.isAlpha, Char.isUpper, Char.isLower, Bool.or_eq_true,
    Bool.and_eq_true, decide_eq_true_eq, beq_iff_eq, UInt32.le_iff_toNat_le, ge_iff_le] at h
  change 48 ≤ c.toNat ∧ c.toNat ≤ 57 at hd
  change ((65 ≤ c.toNat ∧ c.toNat ≤ 90) ∨ 97 ≤ c.toNat ∧ c.toNat ≤ 122) ∨ c = '_' at h
  rcases h with (h | h) | rfl
  · omega
  · omega
  · revert hd
    decide

theorem IsName.arrayIndex?_eq_none {text : String} (h : IsName text) :
    Members.arrayIndex? text = none := by
  obtain ⟨c, rest, rfl, hc⟩ := h
  have hdigit := isDigit_of_isNameStart hc
  simp [Members.arrayIndex?, hdigit]

/-- If a token is a name, it starts like one. -/
def Token.IsNamed (token : Token) : Prop := ∀ text, token = .name text → IsName text

theorem isNamed_of_scan {text rest : List Char} {token : Token} (h : scan text = .read token rest) :
    token.IsNamed := by
  rintro written rfl
  rcases scan_read_cases h with ⟨p, hp⟩ | ⟨s, hs | hs⟩ | ⟨c, tail, hc, hn⟩ | hn
  · cases hp
  · cases hs
  · cases hs
  · exact ⟨c, _, Token.name.inj hn, hc⟩
  · obtain ⟨_, _, _, _, _, ht⟩ := numeral_cases hn
    split at ht
    · cases ht
    · cases ht

theorem isNamed_of_mem_tokens {text : List Char} :
    ∀ token ∈ (tokens text).ahead, token.IsNamed :=
  forall_mem_tokens fun _ _ _ => isNamed_of_scan

/-! ## Whole texts -/

theorem reads_expectEnd {S : Token → Prop} : Reader.Reads S Reader.expectEnd fun _ => True := by
  refine Reader.reads_peek.bind fun _ _ => ?_
  split
  · exact Reader.reads_pure trivial
  · exact Reader.reads_throw _

/-- What is read from a whole text whose tokens are all of a kind. -/
theorem of_readAll {α : Type} {S : Token → Prop} {Q : α → Prop} {reader : Reader α} {text : String}
    {x : α} (hr : Reader.Reads S reader Q) (hs : ∀ t ∈ (tokens text.toList).ahead, S t)
    (h : readAll reader text = .ok x) : Q x := by
  have hwhole : Reader.Reads S (do
      let x ← reader
      Reader.expectEnd
      return x) Q :=
    hr.bind fun x hx => reads_expectEnd.bind fun _ _ => Reader.reads_pure hx
  obtain ⟨⟨y, rest⟩, hy, rfl⟩ := map_eq_ok_iff.mp h
  exact (hwhole _ _ _ hs hy).1

/-- The response keys of the fields that an operation of a text selects are names. -/
theorem keysAre_of_readDocument {text : String} {document : Document}
    (h : readDocument text = .ok document) :
    ∀ o ∈ document.operations, Reader.KeysAre Token.IsNamed o.selections :=
  of_readAll Reader.reads_document isNamed_of_mem_tokens h

end Query

open Query

variable {ν : Type} {s : Schema ν} {document : Document} {operationName : Option String}

theorem mem_operations_of_selectOperation {o : Operation}
    (h : selectOperation document operationName = .ok o) : o ∈ document.operations := by
  unfold selectOperation at h
  split at h
  · split at h
    · next hfind =>
      cases h
      exact List.mem_of_find?_eq_some hfind
    · cases h
  · split at h
    · next hone =>
      cases h
      rw [hone]
      exact List.mem_singleton_self _
    · cases h
    · cases h

/-- The response keys of the fields that a text selects are names. -/
theorem isName_of_prepare {text : String} {prepared : Prepared ν}
    (hread : readDocument text = .ok document)
    (hprepare : prepare s document operationName = .ok prepared) :
    ∀ f ∈ prepared.fields, IsName f.responseKey := by
  intro f hf
  obtain ⟨o, ho, h⟩ := bind_eq_ok_iff.mp hprepare
  by_cases hquery : o.kind = .query
  · simp only [hquery, ne_eq, not_true_eq_false, if_false] at h
    obtain ⟨_, _, h⟩ := bind_eq_ok_iff.mp h
    obtain ⟨fields, hfields, hp⟩ := bind_eq_ok_iff.mp h
    cases hp
    obtain ⟨x, hx, hxf⟩ := exists_left_of_forall₂ (mapM_eq_ok_iff.mp hfields) hf
    cases x with
    | field f' =>
      cases hxf
      have hkeys := keysAre_of_readDocument hread o (mem_operations_of_selectOperation ho)
      exact hkeys _ hx _ rfl _ rfl
    | fragment => cases hxf
  · simp only [hquery, ne_eq, not_false_eq_true, if_true] at h
    cases h

end TypedQuery
