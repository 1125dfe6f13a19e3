import TypedQuery.Proofs.Members
import TypedQuery.Value.Ancestry

/-!
# Members of an object built by assignments

* `get?_ofAssignments`: under a key that is not reserved, the value assigned last is read;
* `mem_keys_ofAssignments`: no key is a member to which nothing was assigned.

To the reserved key a value may be assigned in vain: it may have become the ancestor.
-/

namespace TypedQuery.Value

/-- A value is an object, which may have members of its own. -/
def HoldsMembers (v : Value) : Prop :=
  (∃ ancestry mark members, v = .object ancestry mark members) ∨
    ∃ ancestor members, v = .heir ancestor members

theorem descend_eq_some {members : Members Value} {v w : Value} (h : descend members v = some w) :
    w.HoldsMembers ∧ w.ownMembers = members := by
  unfold descend at h
  split at h
  · cases h
    exact ⟨Or.inl ⟨_, _, _, rfl⟩, rfl⟩
  · cases h
    exact ⟨Or.inl ⟨_, _, _, rfl⟩, rfl⟩
  · cases h
    exact ⟨Or.inr ⟨_, _, rfl⟩, rfl⟩
  · cases h
    exact ⟨Or.inr ⟨_, _, rfl⟩, rfl⟩
  · cases h
    exact ⟨Or.inr ⟨_, _, rfl⟩, rfl⟩
  · cases h

theorem putMember_holds {target : Value} (h : target.HoldsMembers) (key : String) (v : Value) :
    (target.putMember key v).HoldsMembers ∧
      (target.putMember key v).ownMembers = target.ownMembers.put key v := by
  rcases h with ⟨ancestry, mark, members, rfl⟩ | ⟨ancestor, members, rfl⟩
  · exact ⟨Or.inl ⟨_, _, _, rfl⟩, rfl⟩
  · exact ⟨Or.inr ⟨_, _, rfl⟩, rfl⟩

/-- To assign to the reserved key leaves the members as they are, or puts one like any other key. -/
theorem assign_cases {target : Value} (h : target.HoldsMembers) (key : String) (v : Value) :
    (target.assign key v).HoldsMembers ∧
      ((target.assign key v).ownMembers = target.ownMembers.put key v ∨
        key = Members.reservedKey ∧ (target.assign key v).ownMembers = target.ownMembers) := by
  unfold assign
  split
  · next hreserved =>
    cases hd : descend target.ownMembers v with
    | none => exact ⟨h, Or.inr ⟨hreserved.1, rfl⟩⟩
    | some w =>
      obtain ⟨hw, hmembers⟩ := descend_eq_some hd
      exact ⟨hw, Or.inr ⟨hreserved.1, hmembers⟩⟩
  · obtain ⟨hw, hmembers⟩ := putMember_holds h key v
    exact ⟨hw, Or.inl hmembers⟩

theorem ofAssignments_concat (assignments : List (String × Value)) (a : String × Value) :
    ofAssignments (assignments ++ [a]) = (ofAssignments assignments).assign a.1 a.2 := by
  simp [ofAssignments, List.foldl_append]

theorem holdsMembers_ofAssignments (assignments : List (String × Value)) :
    (ofAssignments assignments).HoldsMembers := by
  induction assignments using List.reverseRecOn with
  | nil => exact Or.inl ⟨_, _, _, rfl⟩
  | append_singleton assignments a ih =>
    rw [ofAssignments_concat]
    exact (assign_cases ih _ _).1

/-- Under a key that is not reserved, the value assigned last is read. -/
theorem get?_ofAssignments {key : String} (h : key ≠ Members.reservedKey)
    (assignments : List (String × Value)) :
    (ofAssignments assignments).ownMembers.get? key = Members.get? assignments.reverse key := by
  induction assignments using List.reverseRecOn with
  | nil => rfl
  | append_singleton assignments a ih =>
    -- only an assignment to the reserved key may put nothing
    rw [ofAssignments_concat, List.reverse_append]
    change _ = if a.1 = key then some a.2 else Members.get? assignments.reverse key
    rcases (assign_cases (holdsMembers_ofAssignments assignments) a.1 a.2).2 with hm | ⟨hr, hm⟩
    · rw [hm, Members.get?_put, ih]
    · rw [hm, ih, if_neg fun hk => h (hk.symm.trans hr)]

/-- No key is a member to which nothing was assigned. -/
theorem mem_keys_ofAssignments {key : String} {assignments : List (String × Value)}
    (h : key ∈ (ofAssignments assignments).ownMembers.keys) : key ∈ Members.keys assignments := by
  induction assignments using List.reverseRecOn with
  | nil => cases h
  | append_singleton assignments a ih =>
    rw [ofAssignments_concat] at h
    rw [Members.keys_concat, List.mem_append, List.mem_singleton]
    rcases (assign_cases (holdsMembers_ofAssignments assignments) a.1 a.2).2 with hm | ⟨_, hm⟩
    · rw [hm, Members.mem_keys_put] at h
      exact h.symm.imp_left ih
    · rw [hm] at h
      exact Or.inl (ih h)

end TypedQuery.Value
