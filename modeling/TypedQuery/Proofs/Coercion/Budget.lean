import TypedQuery.Proofs.Coercion.Agreement
import TypedQuery.Proofs.Coercion.Path
import TypedQuery.Proofs.Types.Reach

/-!
# Budgets do not matter

The budgets of a coercion only cut off chains that never end. Each default that stands in for a
field is one of finitely many, and whether it ends does not depend on where it stands in; so a
chain of more defaults than there are says nothing new.

* `coerceAt_succ_defaults`: a coercion that ends within a budget ends alike within a larger one;
* `coerceAt_congr_defaults`: a coercion depends on its budget through the defaults of fields only;
* `isStable_defaultBudget`: no default gains from a larger budget than that of `coerce`;
* `coerce_variable`, `coerce_required`, `coerce_list`, `coerce_input`: the equations of `coerce`,
  in which no budget is left.
-/

namespace TypedQuery

/-- Traversals agree if their steps do wherever the first does not fail in a certain way. -/
theorem mapM_congr_of_ne {α β : Type} {f f' : α → Except Fault β} {xs : List α} {e : Fault}
    (h : ∀ x ∈ xs, f x ≠ .error e → f' x = f x) (hne : xs.mapM f ≠ .error e) :
    xs.mapM f' = xs.mapM f := by
  induction xs with
  | nil => rfl
  | cons x xs ih =>
    rw [List.mapM_cons] at hne
    rw [List.mapM_cons, List.mapM_cons]
    have hx : f x ≠ .error e := by
      intro he
      rw [he] at hne
      exact hne rfl
    rw [h x (List.mem_cons_self ..) hx]
    cases hf : f x with
    | error e' => rfl
    | ok y =>
      have hxs : xs.mapM f ≠ .error e := by
        intro he
        rw [hf, he] at hne
        exact hne rfl
      rw [ih (fun z hz => h z (List.mem_cons_of_mem _ hz)) hxs]

namespace Coercion

variable {ν : Type} {g : TypeGraph ν} {ctx : Context ν} {hops defaults : Nat}

/-! ## Defaults of fields -/

/-- What a default coerces to if at most `defaults` of them may stand in, itself included. -/
def coerceDefault (g : TypeGraph ν) (ctx : Context ν) (defaults : Nat) (type : TypeRef (TypeId ν))
    (v : Value) (path : Path) : Coerced :=
  match defaults with
  | 0 => .error .endless
  | defaults + 1 => coerceAt g ctx 0 defaults type (.external v) path

theorem coerceField_default (hs : ctx.HasSettledDefaults) {raw : Raw} {path : Path} {name : String}
    {position : Position ν} {v : Value}
    (h : fallbackFor? ctx position (raw.field name) = some (.external v)) :
    coerceField g ctx hops defaults raw path name position =
      coerceDefault g ctx defaults position.type v (path ++ [.field name]) := by
  rw [coerceField, h]
  cases defaults with
  | zero => rfl
  | succ d => exact coerceAt_settled hs (Raw.isConstant_external v).isSettled _

theorem coerceDefault_path (type : TypeRef (TypeId ν)) (v : Value) (path : Path) :
    coerceDefault g ctx defaults type v path =
      Coerced.under path (coerceDefault g ctx defaults type v []) := by
  cases defaults with
  | zero => rfl
  | succ d => exact coerceAt_under type _ path

theorem mem_positions {id : TypeId ν} {o : InputObject ν} (ho : g.describe id = .input o)
    {f : String × Position ν} (hf : f ∈ o.fields.entries) : f.2 ∈ g.positions := by
  cases id with
  | builtin b => cases ho
  | declared n =>
    refine List.mem_flatMap.mpr ⟨n, g.mem_all n, ?_⟩
    rw [show g.declared n = .input o from ho]
    exact List.mem_map_of_mem hf

/-- A coercion depends on its budget through the defaults of fields only. -/
theorem coerceAt_congr_defaults (hs : ctx.HasSettledDefaults) {defaults' : Nat}
    (h : ∀ position ∈ g.positions, ∀ v, position.fallback? = some v → ∀ path,
      coerceDefault g ctx defaults position.type v path =
        coerceDefault g ctx defaults' position.type v path)
    (type : TypeRef (TypeId ν)) (raw : Raw) (path : Path) :
    coerceAt g ctx hops defaults type raw path = coerceAt g ctx hops defaults' type raw path := by
  induction hops, defaults, type, raw using coercion_induction g ctx generalizing path with
  | reference hops defaults type name ih =>
    rw [coerceAt_variable, coerceAt_variable]
    cases hr : ctx.reading g name type path with
    | error failure => rfl
    | ok stand =>
      obtain rfl := Context.reading_eq_ok g hr
      cases hops with
      | zero => rfl
      | succ hops => exact ih hops rfl h path
  | absent hops defaults type => rw [coerceAt_absent, coerceAt_absent]
  | null hops defaults type raw hn => rw [coerceAt_null _ _ _ _ hn, coerceAt_null _ _ _ _ hn]
  | required hops defaults inner raw hp ih =>
    rw [coerceAt_required _ _ _ _ hp, coerceAt_required _ _ _ _ hp]
    exact ih h path
  | list hops defaults item raw hp ih =>
    rw [coerceAt_list _ _ _ _ hp, coerceAt_list _ _ _ _ hp]
    cases hitems : raw.items? with
    | none => rfl
    | some items =>
      refine congrArg (Except.map gatherItems) (mapM_congr fun p hpi => ?_)
      exact ih items hitems p.1 (List.fst_mem_of_mem_zipIdx hpi) h _
  | scalar hops defaults id s raw hp hd =>
    rw [coerceAt_scalar _ _ _ _ hp hd, coerceAt_scalar _ _ _ _ hp hd]
  | enum hops defaults id e raw hp hd =>
    rw [coerceAt_enum _ _ _ _ hp hd, coerceAt_enum _ _ _ _ hp hd]
  | input hops defaults id o raw hp ho ih ihd =>
    rw [coerceAt_input _ _ _ _ hp ho, coerceAt_input _ _ _ _ hp ho]
    split
    · next hobject =>
      refine congrArg _ (mapM_congr fun f hf => congrArg _ ?_)
      rcases fallbackFor?_cases ctx f.2 (raw.field f.1) with ⟨hn, _⟩ | ⟨v, _, hv, hn⟩
      · rw [coerceField, coerceField, hn]
        exact ih hobject f hf h _
      · rw [coerceField_default hs hn, coerceField_default hs hn]
        exact h f.2 (mem_positions ho hf) v hv _
    · rfl

/-! ## Larger budgets -/

/-- A coercion that ends within a budget ends alike within a larger one. -/
theorem coerceAt_succ_defaults (type : TypeRef (TypeId ν)) (raw : Raw) (path : Path)
    (h : coerceAt g ctx hops defaults type raw path ≠ .error .endless) :
    coerceAt g ctx hops (defaults + 1) type raw path =
      coerceAt g ctx hops defaults type raw path := by
  induction hops, defaults, type, raw using coercion_induction g ctx generalizing path with
  | reference hops defaults type name ih =>
    rw [coerceAt_variable] at h
    rw [coerceAt_variable, coerceAt_variable]
    cases hr : ctx.reading g name type path with
    | error failure => rfl
    | ok stand =>
      rw [hr] at h
      obtain rfl := Context.reading_eq_ok g hr
      cases hops with
      | zero => rfl
      | succ hops => exact ih hops rfl path h
  | absent hops defaults type => rw [coerceAt_absent, coerceAt_absent]
  | null hops defaults type raw hn => rw [coerceAt_null _ _ _ _ hn, coerceAt_null _ _ _ _ hn]
  | required hops defaults inner raw hp ih =>
    rw [coerceAt_required _ _ _ _ hp] at h
    rw [coerceAt_required _ _ _ _ hp, coerceAt_required _ _ _ _ hp]
    exact ih path h
  | list hops defaults item raw hp ih =>
    rw [coerceAt_list _ _ _ _ hp] at h
    rw [coerceAt_list _ _ _ _ hp, coerceAt_list _ _ _ _ hp]
    cases hitems : raw.items? with
    | none => rfl
    | some items =>
      rw [hitems] at h
      refine congrArg (Except.map gatherItems) (mapM_congr_of_ne (fun p hpi => ?_)
        fun he => h (map_eq_error_iff.mpr he))
      exact ih items hitems p.1 (List.fst_mem_of_mem_zipIdx hpi) _
  | scalar hops defaults id s raw hp hd =>
    rw [coerceAt_scalar _ _ _ _ hp hd, coerceAt_scalar _ _ _ _ hp hd]
  | enum hops defaults id e raw hp hd =>
    rw [coerceAt_enum _ _ _ _ hp hd, coerceAt_enum _ _ _ _ hp hd]
  | input hops defaults id o raw hp ho ih ihd =>
    rw [coerceAt_input _ _ _ _ hp ho] at h
    rw [coerceAt_input _ _ _ _ hp ho, coerceAt_input _ _ _ _ hp ho]
    split
    · next hobject =>
      rw [if_pos hobject] at h
      refine congrArg _ (mapM_congr_of_ne (fun f hf hne => ?_)
        fun he => h (map_eq_error_iff.mpr he))
      refine congrArg _ ?_
      have hfield := fun he => hne (map_eq_error_iff.mpr he)
      unfold coerceField at hfield ⊢
      rcases fallbackFor?_cases ctx f.2 (raw.field f.1) with ⟨hn, _⟩ | ⟨v, _, hv, hn⟩
      · rw [hn] at hfield ⊢
        exact ih hobject f hf _ hfield
      · rw [hn] at hfield ⊢
        cases defaults with
        | zero => exact absurd rfl hfield
        | succ d => exact ihd f hf v hv d rfl _ hfield
    · rfl

theorem coerceDefault_succ {type : TypeRef (TypeId ν)} {v : Value} {path : Path}
    (h : coerceDefault g ctx defaults type v path ≠ .error .endless) :
    coerceDefault g ctx (defaults + 1) type v path = coerceDefault g ctx defaults type v path := by
  cases defaults with
  | zero => exact absurd rfl h
  | succ d => exact coerceAt_succ_defaults _ _ _ h

/-! ## Enough defaults -/

def isEndless : Coerced → Bool
  | .error .endless => true
  | _ => false

theorem isEndless_iff {x : Coerced} : isEndless x = true ↔ x = .error .endless := by
  unfold isEndless
  split
  · simp
  · next h => simpa using h

/-- Whether a default ends does not depend on where it stands in. -/
theorem isEndless_coerceDefault (type : TypeRef (TypeId ν)) (v : Value) (path : Path) :
    isEndless (coerceDefault g ctx defaults type v path) =
      isEndless (coerceDefault g ctx defaults type v []) := by
  rw [coerceDefault_path]
  cases coerceDefault g ctx defaults type v [] <;> rfl

/-- Whether the default of a position does not end within a budget. -/
def hasEndlessDefault (g : TypeGraph ν) (ctx : Context ν) (defaults : Nat)
    (position : Position ν) : Bool :=
  match position.fallback? with
  | none => false
  | some v => isEndless (coerceDefault g ctx defaults position.type v [])

/-- No default gains from one more. -/
def IsStable (g : TypeGraph ν) (ctx : Context ν) (defaults : Nat) : Prop :=
  ∀ position ∈ g.positions, ∀ v, position.fallback? = some v → ∀ path,
    coerceDefault g ctx defaults position.type v path =
      coerceDefault g ctx (defaults + 1) position.type v path

theorem IsStable.succ (hs : ctx.HasSettledDefaults) (h : IsStable g ctx defaults) :
    IsStable g ctx (defaults + 1) :=
  fun position _ v _ path => coerceAt_congr_defaults hs h position.type (.external v) path

theorem hasEndlessDefault_of_succ {position : Position ν}
    (h : hasEndlessDefault g ctx (defaults + 1) position = true) :
    hasEndlessDefault g ctx defaults position = true := by
  unfold hasEndlessDefault at h ⊢
  cases hv : position.fallback? with
  | none => simp [hv] at h
  | some v =>
    simp only [hv] at h ⊢
    by_contra hne
    rw [isEndless_iff] at hne
    rw [coerceDefault_succ hne] at h
    exact hne (isEndless_iff.mp h)

/-- As long as a default gains from one more, fewer of them are without an end. -/
theorem countP_endless_lt (h : ¬ IsStable g ctx defaults) :
    g.positions.countP (hasEndlessDefault g ctx (defaults + 1)) <
      g.positions.countP (hasEndlessDefault g ctx defaults) := by
  simp only [IsStable, not_forall] at h
  obtain ⟨position, hposition, v, hv, path, hne⟩ := h
  have hend : coerceDefault g ctx defaults position.type v path = .error .endless := by
    by_contra he
    exact hne (coerceDefault_succ he).symm
  have hsucc : coerceDefault g ctx (defaults + 1) position.type v path ≠ .error .endless :=
    fun he => hne (hend.trans he.symm)
  refine countP_lt_countP (fun _ _ => hasEndlessDefault_of_succ) hposition ?_ ?_
  · rw [hasEndlessDefault, hv, ← Bool.not_eq_true]
    dsimp only
    rwa [← isEndless_coerceDefault _ _ path, isEndless_iff]
  · rw [hasEndlessDefault, hv]
    dsimp only
    rwa [← isEndless_coerceDefault _ _ path, isEndless_iff]

/-- No default gains from a larger budget than that of `coerce`. -/
theorem isStable_defaultBudget (hs : ctx.HasSettledDefaults) :
    IsStable g ctx (defaultBudget g) := by
  have hcount : ∀ n, ¬ IsStable g ctx n →
      g.positions.countP (hasEndlessDefault g ctx (n + 1)) + (n + 1) ≤ g.positions.length := by
    intro n
    induction n with
    | zero =>
      intro h
      have hlt := countP_endless_lt h
      have hle := List.countP_le_length (p := hasEndlessDefault g ctx 0) (l := g.positions)
      omega
    | succ n ih =>
      intro h
      have hlt := countP_endless_lt h
      have hle := ih fun hstable => h (hstable.succ hs)
      omega
  by_contra h
  have hle := hcount _ h
  unfold defaultBudget at hle
  omega

/-! ## Equations without budgets -/

theorem coerce_eq_coerceAt (hs : ctx.HasSettledDefaults) (hops : Nat) (type : TypeRef (TypeId ν))
    (raw : Raw) (path : Path) :
    coerceAt g ctx (hops + 1) (defaultBudget g) type raw path = coerce g ctx type raw path :=
  coerceAt_hops hs type raw path _ _

/-- **The budgets are large enough.** No larger ones change an outcome. -/
theorem coerceAt_eq_coerce_of_le (hs : ctx.HasSettledDefaults) (hops : Nat) {n : Nat}
    (hn : defaultBudget g ≤ n) (type : TypeRef (TypeId ν)) (raw : Raw) (path : Path) :
    coerceAt g ctx (hops + 1) n type raw path = coerce g ctx type raw path := by
  obtain ⟨extra, rfl⟩ := Nat.exists_eq_add_of_le hn
  have hstable : ∀ k, IsStable g ctx (defaultBudget g + k) := by
    intro k
    induction k with
    | zero => exact isStable_defaultBudget hs
    | succ k ih => exact ih.succ hs
  clear hn
  induction extra with
  | zero => exact coerce_eq_coerceAt hs hops type raw path
  | succ k ih =>
    rw [← ih]
    exact (coerceAt_congr_defaults hs (hstable k) type raw path).symm

/-- What holds no references is coerced without a hop. -/
theorem coerce_settled (hs : ctx.HasSettledDefaults) {raw : Raw} (h : raw.IsSettled) (hops : Nat)
    (type : TypeRef (TypeId ν)) (path : Path) :
    coerceAt g ctx hops (defaultBudget g) type raw path = coerce g ctx type raw path :=
  coerceAt_settled hs h path

theorem coerce_absent (g : TypeGraph ν) (ctx : Context ν) (type : TypeRef (TypeId ν))
    (path : Path) : coerce g ctx type .absent path = .ok (missing g type path) :=
  coerceAt_absent g ctx _ _ type path

theorem coerce_null {raw : Raw} (h : raw.isNull = true) (type : TypeRef (TypeId ν)) (path : Path) :
    coerce g ctx type raw path = .ok (nullValue g type path) :=
  coerceAt_null g ctx _ _ h type path

theorem coerce_variable (hs : ctx.HasSettledDefaults) (type : TypeRef (TypeId ν)) (name : String)
    (path : Path) :
    coerce g ctx type (.variable name) path =
      match ctx.reading g name type path with
      | .error failure => .ok (.fail [failure])
      | .ok stand => coerce g ctx type stand path := by
  rw [coerce, hopBudget, coerceAt_variable]
  cases hr : ctx.reading g name type path with
  | error failure => rfl
  | ok stand =>
    obtain rfl := Context.reading_eq_ok g hr
    exact coerce_settled hs (Context.isSettled_standFor hs name) _ type path

theorem coerce_required (hs : ctx.HasSettledDefaults) {raw : Raw} (hp : isPresent raw = true)
    (inner : TypeRef (TypeId ν)) (path : Path) :
    coerce g ctx (.required inner) raw path = coerce g ctx inner raw path := by
  rw [coerce, hopBudget, coerceAt_required _ _ _ _ hp]
  exact coerce_eq_coerceAt hs _ inner raw path

theorem coerce_list (hs : ctx.HasSettledDefaults) {raw : Raw} (hp : isPresent raw = true)
    (item : TypeRef (TypeId ν)) (path : Path) :
    coerce g ctx (.list item) raw path =
      match raw.items? with
      | none => refuse raw (.shapeMismatch path "a list" (g.print (.list item)))
      | some items =>
        (items.zipIdx.mapM fun p => coerce g ctx item p.1 (path ++ [.index p.2])).map
          gatherItems := by
  rw [coerce, hopBudget, coerceAt_list _ _ _ _ hp]
  cases raw.items? with
  | none => rfl
  | some items =>
    refine congrArg (Except.map gatherItems) (mapM_congr fun p _ => ?_)
    exact coerce_eq_coerceAt hs _ item p.1 _

theorem coerce_scalar {raw : Raw} (hp : isPresent raw = true) {id : TypeId ν} {s : Scalar}
    (hd : g.describe id = .scalar s) (path : Path) :
    coerce g ctx (.named id) raw path = coerceScalar g ctx s raw path :=
  coerceAt_scalar g ctx _ _ hp hd path

theorem coerce_enum {raw : Raw} (hp : isPresent raw = true) {id : TypeId ν} {e : EnumType}
    (hd : g.describe id = .enum e) (path : Path) :
    coerce g ctx (.named id) raw path = coerceEnum e raw path :=
  coerceAt_enum g ctx _ _ hp hd path

/-- A field of an object is coerced like an argument. -/
theorem coerce_input (hs : ctx.HasSettledDefaults) {raw : Raw} (hp : isPresent raw = true)
    {id : TypeId ν} {o : InputObject ν} (ho : g.describe id = .input o) (path : Path) :
    coerce g ctx (.named id) raw path =
      if raw.isObject then
        (o.fields.entries.mapM fun f =>
          (coercePosition g ctx f.2 (raw.field f.1) (path ++ [.field f.1])).map (f.1, ·)).map
          fun outcomes => (gatherMembers outcomes).map fun members => some (.record members)
      else refuse raw (.shapeMismatch path "an input object" o.name) := by
  rw [coerce, hopBudget, coerceAt_input _ _ _ _ hp ho]
  split
  · refine congrArg _ (mapM_congr fun f hf => congrArg _ ?_)
    rw [coercePosition]
    rcases fallbackFor?_cases ctx f.2 (raw.field f.1) with ⟨hn, _⟩ | ⟨v, _, hv, hn⟩
    · rw [coerceField, hn]
      exact coerce_eq_coerceAt hs _ _ _ _
    · rw [coerceField_default hs hn, hn, isStable_defaultBudget hs f.2 (mem_positions ho hf) v hv]
      exact coerce_settled hs (Raw.isConstant_external v).isSettled _ _ _
  · rfl

end Coercion

end TypedQuery
