import TypedQuery.Proofs.Coercion.Path

/-!
# Where a position stands

What a position is coerced to does not depend on where the position stands; its failures tell it
with their paths, and with nothing else.

* `Failure.SaysUnder`: a failure says under a path what another says at the root;
* `IsEquivariant`: at every path a coercion gives what it gives at the root;
* `coercion_equivariant`: so do all coercions of positions and of variables.
-/

namespace TypedQuery

/-- A failure says under a path what another one says at the root. -/
structure Failure.SaysUnder (path : Path) (atRoot f : Failure) : Prop where
  path_eq : f.path = path ++ atRoot.path
  kind_eq : f.code.kind = atRoot.code.kind
  reason_eq : f.reason = atRoot.reason
  code_eq : f.code = atRoot.code
  params_eq : f.params = atRoot.params

theorem Failure.saysUnder_iff {path : Path} {atRoot f : Failure} :
    Failure.SaysUnder path atRoot f ↔ atRoot.under path = f := by
  constructor
  · rintro ⟨hpath, _, _, hcode, hparams⟩
    cases f
    cases hpath
    cases hcode
    cases hparams
    rfl
  · rintro rfl
    exact ⟨rfl, rfl, rfl, rfl, rfl⟩

theorem Failure.forall₂_saysUnder_iff {path : Path} {atRoot fs : List Failure} :
    List.Forall₂ (Failure.SaysUnder path) atRoot fs ↔ atRoot.map (Failure.under path) = fs := by
  have hunder : Failure.SaysUnder path = fun f f' => f.under path = f' := by
    funext f f'
    exact propext Failure.saysUnder_iff
  have hmap : List.Forall₂ Eq (atRoot.map (Failure.under path)) fs ↔
      List.Forall₂ (fun f f' => f.under path = f') atRoot fs := List.forall₂_map_left_iff
  rw [hunder, ← hmap, List.forall₂_eq_eq_eq]

namespace Coercion

variable {ν : Type}

/-- At every path a coercion gives what it gives at the root: the same value, or the same failures
under the path, or no outcome for the same reason. -/
structure IsEquivariant (coercion : Path → Coerced) : Prop where
  done_iff : ∀ path v, coercion path = .ok (.done v) ↔ coercion [] = .ok (.done v)
  fail_iff : ∀ path fs, coercion path = .ok (.fail fs) ↔
    ∃ atRoot, coercion [] = .ok (.fail atRoot) ∧
      List.Forall₂ (Failure.SaysUnder path) atRoot fs
  error_iff : ∀ path e, coercion path = .error e ↔ coercion [] = .error e

theorem isEquivariant_of_under {coercion : Path → Coerced}
    (h : ∀ path, coercion path = Coerced.under path (coercion [])) : IsEquivariant coercion where
  done_iff path v := by
    rw [h path]
    rcases coercion [] with e | v' | fs <;> simp [Coerced.under, Except.map, Outcome.relabel]
  fail_iff path fs := by
    rw [h path]
    simp only [Failure.forall₂_saysUnder_iff]
    rcases coercion [] with e | v' | fs <;> simp [Coerced.under, Except.map, Outcome.relabel]
  error_iff path e := by
    rw [h path]
    rcases coercion [] with e | v' | fs <;> simp [Coerced.under, Except.map, Outcome.relabel]

/-- **Coercion is equivariant in its path.** What stands at a path is coerced as it would be at the
root: to the same value, or with the same failures in the same order, put under the path. This holds
of raw values, of positions with their defaults, and of what variables stand for. -/
theorem coercion_equivariant (g : TypeGraph ν) (ctx : Context ν) :
    (∀ type raw, IsEquivariant (coerce g ctx type raw)) ∧
      (∀ position raw, IsEquivariant (coercePosition g ctx position raw)) ∧
      ∀ name expected, IsEquivariant (coerceVariable g ctx name expected) := by
  have hcoerce : ∀ type raw, IsEquivariant (coerce g ctx type raw) := fun type raw =>
    isEquivariant_of_under fun path => coerceAt_under type raw path
  -- defaults are chosen and variables are read without a path
  exact ⟨hcoerce, fun position raw => hcoerce position.type _, fun name expected =>
    hcoerce expected (.variable name)⟩

end Coercion

end TypedQuery
