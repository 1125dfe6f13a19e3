import TypedQuery.Number.Decimal
import TypedQuery.Value.Basic

/-!
# Ancestors of values

What an object does not have of its own it takes from its ancestor. An object that descends from
the root names its ancestor under the reserved key: to assign a value to that key gives the object
another ancestor, and no member. Where the line of ancestors does not reach the root, or where a
member under that key stands before it, the key is a key like any other.

* `member?`: a member, of the object itself or of an ancestor;
* `read`: what reading a member gives;
* `assign`, `ofAssignments`: objects that are built by assignments;
* `ofAssignments_eq_record`: without the reserved key, the assigned values are the members.
-/

namespace TypedQuery.Value

def hasMember (members : Members Value) (key : String) : Bool := (members.get? key).isSome

/-! ## Reading -/

/-- The items and the length of an array, as members. -/
def slotMember? (slots : List (Option Value)) (key : String) : Option Value :=
  if key = "length" then some (.number (.ofInt slots.length))
  else (Members.arrayIndex? key).bind fun i => (slots[i]?).bind id

/-- The member of a value under a key, or else the member of its ancestor. -/
def member? (key : String) : Value → Option Value
  | .array _ slots => slotMember? slots key
  | .object _ _ members => Members.get? members key
  | .heir ancestor members => (Members.get? members key).or (ancestor.member? key)
  | _ => none

/-- Whether the reserved key names the ancestor of a value: the line of its ancestors reaches the
root and no member stands before it. -/
def namesAncestor : Value → Bool
  | .array .. => true
  | .object .bare _ _ => false
  | .object _ _ members => !hasMember members Members.reservedKey
  | .heir ancestor members => !hasMember members Members.reservedKey && ancestor.namesAncestor
  | _ => false

/-- The object that all plain objects descend from. -/
def root : Value := .object .root none []

/-- The ancestor of an object; the class of an instance shows no members. -/
def ancestor : Value → Value
  | .object .plain .. => root
  | .object .classed .. => record []
  | .heir ancestor _ => ancestor
  | _ => .null

/-- What reading a member of an object gives: undefined, if neither the object nor an ancestor has
it. -/
def read (v : Value) (key : String) : Value :=
  if key = Members.reservedKey ∧ v.namesAncestor = true then v.ancestor
  else (v.member? key).getD .undefined

/-! ## Assigning -/

/-- An object of some members and an ancestor, or without one if that is null. Other values are no
ancestors. -/
def descend (members : Members Value) : Value → Option Value
  | .null => some (.object .bare none members)
  | .object .root .. => some (record members)
  | .array mark slots => some (.heir (.array mark slots) members)
  | .object ancestry mark held => some (.heir (.object ancestry mark held) members)
  | .heir ancestor held => some (.heir (.heir ancestor held) members)
  | _ => none

/-- Puts a member of an object's own. -/
def putMember (target : Value) (key : String) (v : Value) : Value :=
  match target with
  | .object ancestry mark members => .object ancestry mark (Members.put members key v)
  | .heir ancestor members => .heir ancestor (Members.put members key v)
  | _ => target

/-- Assigns a value to a key of an object. -/
def assign (target : Value) (key : String) (v : Value) : Value :=
  if key = Members.reservedKey ∧ target.namesAncestor = true then
    (descend target.ownMembers v).getD target
  else target.putMember key v

/-- A new object to whose keys values have been assigned one by one. -/
def ofAssignments (assignments : List (String × Value)) : Value :=
  assignments.foldl (fun target a => target.assign a.1 a.2) (record [])

theorem assign_record {key : String} (h : key ≠ Members.reservedKey) (members : Members Value)
    (v : Value) : (record members).assign key v = record (members.put key v) := by
  simp [assign, h, record, putMember]

theorem foldl_assign_record {assignments : List (String × Value)}
    (h : ∀ a ∈ assignments, a.1 ≠ Members.reservedKey) (members : Members Value) :
    assignments.foldl (fun target a => target.assign a.1 a.2) (record members) =
      record (assignments.foldl (fun ms a => Members.put ms a.1 a.2) members) := by
  induction assignments generalizing members with
  | nil => rfl
  | cons a rest ih =>
    rw [List.foldl_cons, List.foldl_cons, assign_record (h a (List.mem_cons_self ..))]
    exact ih (fun b hb => h b (List.mem_cons_of_mem _ hb)) _

theorem ofAssignments_eq_record {assignments : List (String × Value)}
    (h : ∀ a ∈ assignments, a.1 ≠ Members.reservedKey) :
    ofAssignments assignments = record (Members.ofList assignments) :=
  foldl_assign_record h []

end TypedQuery.Value
