import Mathlib.Data.List.Induction
import DocTypes.Proofs.Scopes
import DocTypes.Proofs.WellBound

/-!
# Handles of kinds that are not defined

A path may resolve to the handle of a kind that is not defined. Only an alias brings this about: a
defined kind is bound to its own path, but an alias takes whatever its target stands for, also when
that is a constant or nothing at all. So a handle has no flavour exactly when the run declared an
alias for what it stands for, but neither the core nor a declaration of the run defines a kind there
(`flavour_eq_none_iff_aliases`).
-/

namespace DocTypes

open Token

/-- The paths in a declaration. -/
def Declaration.names : Declaration → List String
  | .defineClass path superclass => [path, superclass]
  | .defineModule path => [path]
  | .mixIn path included => [path, included]
  | .defineMethods path _ => [path]
  | .defineConstant path className => [path, className]
  | .defineAlias path target => [path, target]

namespace Registry

/-- One of the declarations gives another name to what its target stood for then. -/
def Aliases (start : Registry) (declarations : List Declaration) (kind : String) : Prop :=
  ∃ before path target later, declarations = before ++ .defineAlias path target :: later ∧
    (start.declareAll before).canonicalKind target = kind

section Steps

variable {registry start : Registry} {path kind : String} {declarations : List Declaration}

theorem Aliases.append (h : start.Aliases declarations kind) (more : List Declaration) :
    start.Aliases (declarations ++ more) kind := by
  obtain ⟨before, path, target, later, rfl, stood⟩ := h
  exact ⟨before, path, target, later ++ more, by simp, stood⟩

theorem declareAll_concat (declaration : Declaration) :
    start.declareAll (declarations ++ [declaration]) =
      (start.declareAll declarations).declare declaration := by
  rw [declareAll, List.foldl_append]
  rfl

/-- What is bound to a kind after a declaration was bound so before, or the declaration defines the
kind, or is an alias. -/
theorem bound_declare {declaration : Declaration}
    (found : (registry.declare declaration).constants.get? path = some (.kind kind)) :
    registry.constants.get? path = some (.kind kind) ∨ declaration.Defines kind ∨
      ∃ name target, declaration = .defineAlias name target ∧
        kind = registry.canonicalKind target := by
  cases declaration with
  | defineClass name | defineModule name =>
    simp only [declare, get?_constants_define] at found
    split at found
    · cases found
      exact .inr (.inl rfl)
    · exact .inl found
  | mixIn | defineMethods => exact .inl found
  | defineConstant name =>
    simp only [declare, get?_constants_bind] at found
    split at found
    · cases found
    · exact .inl found
  | defineAlias name target =>
    simp only [declare, get?_constants_bind] at found
    split at found
    · cases found
      exact .inr (.inr ⟨name, target, rfl, rfl⟩)
    · exact .inl found

/-- In a run that starts with kinds bound to their own definitions, a binding to a kind that is not
defined comes from an alias. -/
theorem origin_of_bound
    (begins : ∀ path kind, start.constants.get? path = some (.kind kind) →
      Path.relative kind = kind ∧ Defined start.kinds kind)
    (forms : ∀ declaration ∈ declarations, ∀ name ∈ declaration.names, PathForm name.toList)
    (found : (start.declareAll declarations).constants.get? path = some (.kind kind)) :
    Path.relative kind = kind ∧
      (Defined (start.declareAll declarations).kinds kind ∨ start.Aliases declarations kind) := by
  induction declarations using List.reverseRecOn generalizing path kind with
  | nil => exact (begins path kind found).imp_right .inl
  | append_singleton declarations declaration ih =>
    rw [declareAll_concat] at found ⊢
    have here : ∀ name ∈ declaration.names, PathForm name.toList := forms declaration (by simp)
    have before := fun path kind => @ih path kind fun other member => forms other (by simp [member])
    obtain old | defines | ⟨name, target, rfl, rfl⟩ := bound_declare found
    · obtain ⟨relative, defined | aliases⟩ := before path kind old
      · exact ⟨relative, .inl (defined_declare.mpr (.inl defined))⟩
      · exact ⟨relative, .inr (aliases.append [declaration])⟩
    · refine ⟨?_, .inl (defined_declare.mpr (.inr defines))⟩
      rw [defines.eq]
      refine Path.relative_relative (here _ ?_)
      cases declaration <;> simp [Declaration.names, Declaration.path]
    · refine ⟨?_, .inr ⟨declarations, name, target, [], rfl, rfl⟩⟩
      obtain bound | self := bound_or_canonicalKind_eq (start.declareAll declarations) target
      · exact (before _ _ bound).1
      · rw [self, Path.relative_relative (here target (by simp [Declaration.names]))]

end Steps

/-- In a registry built from the core, a path that resolves to a kind resolves to a defined one, unless
the kind was aliased. Its handle has no flavour exactly when one of the declarations gave another name
to what the handle stands for, but neither the core nor one of the declarations defines a kind
there. -/
theorem flavour_eq_none_iff_aliases {declarations : List Declaration}
    (forms : ∀ declaration ∈ declarations, ∀ name ∈ declaration.names, PathForm name.toList)
    {path : String} {handle : Handle}
    (found : (core.declareAll declarations).resolve path = .kind handle) :
    (core.declareAll declarations).flavour? handle.path = none ↔
      core.Aliases declarations ((core.declareAll declarations).canonicalKind handle.path) ∧
        ¬ Defined core.kinds ((core.declareAll declarations).canonicalKind handle.path) ∧
        ∀ declaration ∈ declarations,
          ¬ declaration.Defines ((core.declareAll declarations).canonicalKind handle.path) := by
  have undefined : (core.declareAll declarations).flavour? handle.path = none ↔
      ¬ Defined (core.declareAll declarations).kinds
        ((core.declareAll declarations).canonicalKind handle.path) := by
    rw [flavour?, Option.map_eq_none_iff, definition?, get?_eq_none_iff]
  have nowhere : ¬ Defined (core.declareAll declarations).kinds
        ((core.declareAll declarations).canonicalKind handle.path) ↔
      ¬ Defined core.kinds ((core.declareAll declarations).canonicalKind handle.path) ∧
        ∀ declaration ∈ declarations,
          ¬ declaration.Defines ((core.declareAll declarations).canonicalKind handle.path) := by
    rw [defined_declareAll, not_or]
    simp only [not_exists, not_and]
  rw [← nowhere, undefined, and_iff_right_of_imp]
  intro missing
  have origin := fun place kind => @origin_of_bound core place kind declarations
    (fun place kind bound => ⟨hasRelativeKinds_core kind (wellBound_core.defined place kind bound),
      wellBound_core.defined place kind bound⟩) forms
  obtain ⟨place, bound⟩ := exists_bound_of_resolve found
  obtain ⟨relative, there⟩ := origin place handle.path bound
  -- The handle's own path is either bound to another kind, or it stands for itself.
  obtain further | self :=
    bound_or_canonicalKind_eq (core.declareAll declarations) handle.path
  · exact (origin _ _ further).2.resolve_left missing
  · rw [self, relative] at missing ⊢
    exact there.resolve_left missing

/-- An alias of an alias of nothing. -/
theorem flavour_eq_none_iff_aliases_chain :
    resolve (core.declareAll [.defineAlias "Box" "Crate", .defineAlias "Lid" "::Box"]) "Lid" =
        .kind ⟨"Crate"⟩ ∧
      Aliases core [.defineAlias "Box" "Crate", .defineAlias "Lid" "::Box"]
        (canonicalKind (core.declareAll [.defineAlias "Box" "Crate", .defineAlias "Lid" "::Box"])
          "Crate") := by
  have found : resolve (core.declareAll [.defineAlias "Box" "Crate",
      .defineAlias "Lid" "::Box"]) "Lid" = .kind ⟨"Crate"⟩ := by decide +kernel
  have dangling : flavour? (core.declareAll [.defineAlias "Box" "Crate",
      .defineAlias "Lid" "::Box"]) "Crate" = none := by decide +kernel
  exact ⟨found, ((flavour_eq_none_iff_aliases (by decide) found).mp dangling).1⟩

/-- An alias of a constant resolves to a kind, although the constant is none. -/
theorem alias_of_constant_dangles :
    (∀ name ∈ (Declaration.defineAlias "Tau" "Math::PI").names, PathForm name.toList) ∧
      core.resolve "Math::PI" = .constant "Float" ∧
      resolve (core.declareAll [.defineAlias "Tau" "Math::PI"]) "Tau" = .kind ⟨"Math::PI"⟩ ∧
      flavour? (core.declareAll [.defineAlias "Tau" "Math::PI"]) "Math::PI" = none :=
  ⟨by decide, by decide +kernel, by decide +kernel, by decide +kernel⟩

end Registry

end DocTypes
