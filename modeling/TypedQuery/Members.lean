/-!
# Members

An object lists its members in a fixed order: keys that are array indices first, by their size,
then the others in the order in which they came. A key that comes again keeps its place and takes
the new value.

* `put`, `ofList`, `get?`: building and reading a member list;
* `append`, `tableOfList`: tables, in which array indices come in no special order;
* `reservedKey`, `unreserved`: the key that an object may not take as a member, and the members
  under other keys;
* `nodup_keys_put`, `nodup_keys_ofList`: keys stay distinct;
* `Declared`: what a definition declares under distinct names.
-/

namespace TypedQuery

/-- The members of an object, in their order. -/
abbrev Members (α : Type u) := List (String × α)

namespace Members

/-! ## Array indices -/

/-- The array index that a key spells: a number below `2 ^ 32 - 1` in decimal digits, without
leading zeros. -/
def arrayIndex? (key : String) : Option Nat :=
  let digits := key.toList
  if digits ≠ [] ∧ digits.all Char.isDigit ∧ (digits = ['0'] ∨ digits.head? ≠ some '0') then
    let n := digits.foldl (fun n c => 10 * n + (c.toNat - 48)) 0
    if n < 4294967295 then some n else none
  else none

/-- Whether a key is an array index smaller than `n`. -/
def precedes (n : Nat) (key : String) : Bool :=
  match arrayIndex? key with
  | some m => m < n
  | none => false

/-! ## Building and reading -/

def keys (members : Members α) : List String := members.map Prod.fst

/-- Puts a new key in its place. -/
def insert (key : String) (value : α) (members : Members α) : Members α :=
  match arrayIndex? key with
  | some n =>
    members.takeWhile (fun m => precedes n m.1)
      ++ (key, value) :: members.dropWhile (fun m => precedes n m.1)
  | none => members ++ [(key, value)]

/-- Replaces the value of a key that is there. -/
def replace (key : String) (value : α) : Members α → Members α
  | [] => []
  | m :: rest => if m.1 = key then (key, value) :: rest else m :: replace key value rest

def put (members : Members α) (key : String) (value : α) : Members α :=
  if key ∈ members.keys then replace key value members else insert key value members

/-- Replaces the value of a key that is there, and lists any other key last. -/
def append (members : Members α) (key : String) (value : α) : Members α :=
  if key ∈ members.keys then replace key value members else List.append members [(key, value)]

def ofList (entries : List (String × α)) : Members α :=
  entries.foldl (fun members e => put members e.1 e.2) []

/-- The members of a table, which lists all keys in the order in which they came. -/
def tableOfList (entries : List (String × α)) : Members α :=
  entries.foldl (fun members e => append members e.1 e.2) []

def get? (members : Members α) (key : String) : Option α :=
  match members with
  | [] => none
  | m :: rest => if m.1 = key then some m.2 else get? rest key

/-- The key that names the ancestor of an object. -/
def reservedKey : String := "__proto__"

/-- The members under keys that are not reserved. -/
def unreserved (members : Members α) : Members α := members.filter (fun m => m.1 ≠ reservedKey)

/-! ## Distinct keys -/

theorem keys_replace (key : String) (value : α) (members : Members α) :
    (replace key value members).keys = members.keys := by
  induction members with
  | nil => rfl
  | cons m rest ih =>
    unfold replace
    split
    · next h => simp [keys, h]
    · simpa [keys] using ih

theorem keys_insert_perm (key : String) (value : α) (members : Members α) :
    (insert key value members).keys.Perm (key :: members.keys) := by
  have h : (insert key value members).Perm ((key, value) :: members) := by
    unfold insert
    split
    · refine List.perm_middle.trans ?_
      rw [List.takeWhile_append_dropWhile]
    · exact List.perm_append_singleton (key, value) members
  exact h.map Prod.fst

theorem nodup_keys_put {members : Members α} (h : members.keys.Nodup) (key : String) (value : α) :
    (put members key value).keys.Nodup := by
  unfold put
  split
  · rwa [keys_replace]
  · next hk => exact (keys_insert_perm key value members).nodup_iff.2 (List.nodup_cons.2 ⟨hk, h⟩)

theorem nodup_keys_foldl_put (entries : List (String × α)) {members : Members α}
    (h : members.keys.Nodup) :
    (keys (entries.foldl (fun members e => put members e.1 e.2) members)).Nodup := by
  induction entries generalizing members with
  | nil => exact h
  | cons e rest ih => exact ih (nodup_keys_put h e.1 e.2)

theorem nodup_keys_ofList (entries : List (String × α)) : (ofList entries).keys.Nodup :=
  nodup_keys_foldl_put entries List.nodup_nil

theorem unreserved_sublist (members : Members α) : (unreserved members).Sublist members :=
  List.filter_sublist

theorem nodup_keys_unreserved {members : Members α} (h : members.keys.Nodup) :
    (unreserved members).keys.Nodup :=
  ((unreserved_sublist members).map Prod.fst).nodup h

end Members

/-! ## Declarations -/

/-- What a definition declares under distinct names, in the order of members. -/
structure Declared (α : Type u) where
  entries : Members α
  distinct : entries.keys.Nodup

namespace Declared

def empty : Declared α := ⟨[], List.nodup_nil⟩

def ofList (entries : List (String × α)) : Declared α :=
  ⟨Members.ofList entries, Members.nodup_keys_ofList entries⟩

/-- The declarations under names that are not reserved. -/
def unreservedOfList (entries : List (String × α)) : Declared α :=
  ⟨(Members.ofList entries).unreserved,
    Members.nodup_keys_unreserved (Members.nodup_keys_ofList entries)⟩

def names (d : Declared α) : List String := d.entries.keys

def get? (d : Declared α) (name : String) : Option α := d.entries.get? name

theorem reserved_notMem_unreservedOfList (entries : List (String × α)) :
    Members.reservedKey ∉ (unreservedOfList entries).names := by
  simp [names, unreservedOfList, Members.keys, Members.unreserved]

end Declared

end TypedQuery
