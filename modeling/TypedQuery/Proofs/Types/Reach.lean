import TypedQuery.Types.Graph

/-!
# Types that lead to others

* `Reaches`: the types that a type leads to through the fields of input objects;
* `DefaultsLeadAway`: no default leads back to the object that it is a default in;
* `defaultsAhead`: how many defaults lie in the objects that a type reaches;
* `defaultsAhead_lt`: if defaults lead away, there are fewer behind each of them.
-/

namespace TypedQuery

theorem countP_lt_countP {α : Type} {p q : α → Bool} {xs : List α} {x : α}
    (h : ∀ y ∈ xs, p y = true → q y = true) (hx : x ∈ xs) (hp : p x = false) (hq : q x = true) :
    xs.countP p < xs.countP q := by
  induction xs with
  | nil => cases hx
  | cons y ys ih =>
    have hys : ∀ z ∈ ys, p z = true → q z = true := fun z hz => h z (List.mem_cons_of_mem _ hz)
    have hle := List.countP_mono_left hys
    have hy := h y (List.mem_cons_self ..)
    rw [List.countP_cons, List.countP_cons]
    rcases List.mem_cons.mp hx with rfl | hx
    · rw [if_neg (by simp [hp]), if_pos hq]
      omega
    · have := ih hys hx
      cases hpy : p y with
      | false => cases hqy : q y <;> simp <;> omega
      | true => simp [hy hpy, this]

namespace TypeGraph

variable {ν : Type} (g : TypeGraph ν)

/-- From a type the fields of input objects lead to others. -/
inductive Reaches : TypeId ν → TypeId ν → Prop
  | self (id : TypeId ν) : Reaches id id
  | field {id id' : TypeId ν} {o : InputObject ν} {f : String × Position ν}
      (ho : g.describe id = .input o) (hf : f ∈ o.fields.entries)
      (h : Reaches f.2.type.base id') : Reaches id id'

variable {g}

theorem Reaches.trans {a b c : TypeId ν} (h : g.Reaches a b) (h' : g.Reaches b c) :
    g.Reaches a c := by
  induction h with
  | self => exact h'
  | field ho hf _ ih => exact .field ho hf (ih h')

theorem Reaches.of_field {id : TypeId ν} {o : InputObject ν} {f : String × Position ν}
    (ho : g.describe id = .input o) (hf : f ∈ o.fields.entries) :
    g.Reaches id f.2.type.base :=
  .field ho hf (.self _)

theorem Reaches.eq_of_builtin {b : Builtin} {id : TypeId ν} (h : g.Reaches (.builtin b) id) :
    id = .builtin b := by
  cases h with
  | self => rfl
  | field ho => cases ho

/-- The type of a field with a default never leads back to the object that declares the field. -/
def DefaultsLeadAway (g : TypeGraph ν) : Prop :=
  ∀ id o, g.describe id = .input o → ∀ f ∈ o.fields.entries, f.2.fallback?.isSome = true →
    ¬ g.Reaches f.2.type.base id

/-! ## The defaults ahead -/

/-- The positions inside all types, each with the type that it is inside. -/
def locatedPositions (g : TypeGraph ν) : List (ν × Position ν) :=
  g.all.flatMap fun n => (g.declared n).positions.map (n, ·)

theorem length_locatedPositions (g : TypeGraph ν) :
    g.locatedPositions.length = g.positions.length := by
  simp [locatedPositions, positions, List.length_flatMap]

theorem mem_locatedPositions {n : ν} {o : InputObject ν} (ho : g.declared n = .input o)
    {f : String × Position ν} (hf : f ∈ o.fields.entries) : (n, f.2) ∈ g.locatedPositions := by
  refine List.mem_flatMap.mpr ⟨n, g.mem_all n, List.mem_map_of_mem ?_⟩
  rw [ho]
  exact List.mem_map_of_mem hf

open Classical in
/-- Whether a position has a default and lies in an object that a type reaches. -/
noncomputable def isDefaultAhead (g : TypeGraph ν) (id : TypeId ν) (p : ν × Position ν) : Bool :=
  decide (g.Reaches id (.declared p.1)) && p.2.fallback?.isSome

theorem isDefaultAhead_iff {id : TypeId ν} {p : ν × Position ν} :
    g.isDefaultAhead id p = true ↔
      g.Reaches id (.declared p.1) ∧ p.2.fallback?.isSome = true := by
  simp [isDefaultAhead]

/-- The number of defaults in the objects that a type reaches. -/
noncomputable def defaultsAhead (g : TypeGraph ν) (id : TypeId ν) : Nat :=
  g.locatedPositions.countP (g.isDefaultAhead id)

theorem defaultsAhead_le_length (g : TypeGraph ν) (id : TypeId ν) :
    g.defaultsAhead id ≤ g.positions.length :=
  g.length_locatedPositions ▸ List.countP_le_length

theorem isDefaultAhead_of_reaches {id id' : TypeId ν} (h : g.Reaches id id') {p : ν × Position ν}
    (hp : g.isDefaultAhead id' p = true) : g.isDefaultAhead id p = true := by
  rw [isDefaultAhead_iff] at hp ⊢
  exact ⟨h.trans hp.1, hp.2⟩

theorem defaultsAhead_le_of_reaches {id id' : TypeId ν} (h : g.Reaches id id') :
    g.defaultsAhead id' ≤ g.defaultsAhead id :=
  List.countP_mono_left fun _ _ => isDefaultAhead_of_reaches h

/-- If defaults lead away, fewer of them lie behind one than before it. -/
theorem defaultsAhead_lt (hg : g.DefaultsLeadAway) {id : TypeId ν} {o : InputObject ν}
    (ho : g.describe id = .input o) {f : String × Position ν} (hf : f ∈ o.fields.entries)
    (hd : f.2.fallback?.isSome = true) :
    g.defaultsAhead f.2.type.base < g.defaultsAhead id := by
  cases id with
  | builtin b => cases ho
  | declared n =>
    -- the default itself is the one that is no longer ahead
    have hbehind : g.isDefaultAhead f.2.type.base (n, f.2) = false := by
      rw [← Bool.not_eq_true, isDefaultAhead_iff]
      exact fun h => hg _ o ho f hf hd h.1
    refine countP_lt_countP (fun _ _ => isDefaultAhead_of_reaches (.of_field ho hf))
      (mem_locatedPositions ho hf) hbehind ?_
    exact isDefaultAhead_iff.mpr ⟨.self _, hd⟩

end TypeGraph

end TypedQuery
