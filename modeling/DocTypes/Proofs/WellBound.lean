import DocTypes.Proofs.Building
import DocTypes.Registry.Model

/-!
# Well-bound registries

The two tables of a registry need not fit together: a path may be bound to a kind that is not
defined, and the path of a kind may be bound to something else. In a well-bound registry they do.
The empty registry and the core are well-bound, and declarations that respect the defined kinds keep
a registry so. There, a path and the kind that it stands for are asked about alike, and to be of a
kind carries over to all ancestors of the kind (`wellBound_kindOf`).
-/

namespace DocTypes.Registry

open Token

/-- Each defined kind is bound to itself, and whatever is bound to a kind is bound to a defined
one. -/
structure WellBound (registry : Registry) : Prop where
  bound : ∀ kind, Defined registry.kinds kind →
    registry.constants.get? kind = some (.kind kind)
  defined : ∀ path kind, registry.constants.get? path = some (.kind kind) →
    Defined registry.kinds kind

/-- The declaration binds the path of no defined kind to something else, and no path to a kind that
is not defined. -/
def Respects (registry : Registry) : Declaration → Prop
  | .defineClass _ _ | .defineModule _ | .mixIn _ _ | .defineMethods _ _ => True
  | .defineConstant path _ => ¬ Defined registry.kinds (Path.relative path)
  | .defineAlias path target =>
    ¬ Defined registry.kinds (Path.relative path) ∧
      Defined registry.kinds (registry.canonicalKind target)

/-- Each declaration respects the kinds that are defined when it comes. -/
def RespectsAll (registry : Registry) : List Declaration → Prop
  | [] => True
  | declaration :: later =>
    registry.Respects declaration ∧ (registry.declare declaration).RespectsAll later

instance (registry : Registry) (declaration : Declaration) :
    Decidable (registry.Respects declaration) :=
  match declaration with
  | .defineClass _ _ | .defineModule _ | .mixIn _ _ | .defineMethods _ _ =>
    inferInstanceAs (Decidable True)
  | .defineConstant path _ =>
    inferInstanceAs (Decidable (¬ Defined registry.kinds (Path.relative path)))
  | .defineAlias path target =>
    inferInstanceAs (Decidable (¬ Defined registry.kinds (Path.relative path) ∧
      Defined registry.kinds (registry.canonicalKind target)))

instance decidableRespectsAll (registry : Registry) :
    (declarations : List Declaration) → Decidable (registry.RespectsAll declarations)
  | [] => inferInstanceAs (Decidable True)
  | declaration :: later =>
    have := decidableRespectsAll (registry.declare declaration) later
    inferInstanceAs (Decidable (registry.Respects declaration ∧ _))

section Keeps

variable {registry : Registry} {declaration : Declaration}

theorem WellBound.define (h : registry.WellBound) (path : String) (flavour : Flavour)
    (superclass : Option String) : (registry.define path flavour superclass).WellBound where
  bound := by
    intro kind defined
    rw [get?_constants_define]
    by_cases same : kind = Path.relative path
    · rw [if_pos same, same]
    · rw [if_neg same]
      exact h.bound kind ((defined_define.mp defined).resolve_left same)
  defined := by
    intro other kind found
    rw [get?_constants_define] at found
    rw [defined_define]
    by_cases same : other = Path.relative path
    · rw [if_pos same] at found
      cases found
      exact .inl rfl
    · rw [if_neg same] at found
      exact .inr (h.defined other kind found)

theorem WellBound.amend (h : registry.WellBound) (path : String)
    (change : Definition → Definition) : (registry.amend path change).WellBound where
  bound kind defined := h.bound kind (defined_amend.mp defined)
  defined other kind found := defined_amend.mpr (h.defined other kind found)

theorem WellBound.bind (h : registry.WellBound) {path : String} {binding : Binding}
    (free : ¬ Defined registry.kinds (Path.relative path))
    (target : ∀ kind, binding = .kind kind → Defined registry.kinds kind) :
    (registry.bind path binding).WellBound where
  bound := by
    intro kind defined
    have ne : kind ≠ Path.relative path := fun same => free (same ▸ defined)
    rw [get?_constants_bind, if_neg ne]
    exact h.bound kind defined
  defined := by
    intro other kind found
    rw [get?_constants_bind] at found
    by_cases same : other = Path.relative path
    · rw [if_pos same] at found
      exact target kind (Option.some.inj found)
    · rw [if_neg same] at found
      exact h.defined other kind found

/-- A declaration that respects the defined kinds keeps a registry well-bound. -/
theorem WellBound.declare (h : registry.WellBound) (respects : registry.Respects declaration) :
    (registry.declare declaration).WellBound := by
  cases declaration with
  | defineClass path superclass => exact h.define path .instantiable (some superclass)
  | defineModule path => exact h.define path .mixin none
  | mixIn path included => exact h.amend path (·.mixIn (Path.relative included))
  | defineMethods path methods => exact h.amend path (·.addMethods methods)
  | defineConstant path className => exact h.bind respects nofun
  | defineAlias path target =>
    refine h.bind respects.1 ?_
    rintro kind ⟨⟩
    exact respects.2

theorem WellBound.declareAll {registry : Registry} {declarations : List Declaration}
    (h : registry.WellBound) (respects : registry.RespectsAll declarations) :
    (registry.declareAll declarations).WellBound := by
  induction declarations generalizing registry with
  | nil => exact h
  | cons declaration later ih => exact ih (h.declare respects.1) respects.2

end Keeps

theorem wellBound_empty : empty.WellBound where
  bound := by
    rintro kind ⟨definition, found⟩
    cases found
  defined := by
    intro path kind found
    cases found

theorem wellBound_core : core.WellBound :=
  ((wellBound_empty.define "BasicObject" .instantiable none).declareAll
    (by decide +kernel)).declareAll (by decide +kernel)

/-! ## Kinds of well-bound registries -/

section Kinds

variable {registry : Registry} {path kind : String}

theorem canonicalKind_of_defined (bound : registry.WellBound) (names : registry.HasRelativeKinds)
    (defined : Defined registry.kinds kind) : registry.canonicalKind kind = kind := by
  unfold canonicalKind
  rw [names kind defined, bound.bound kind defined]

theorem canonicalKind_relative (form : PathForm path.toList) :
    registry.canonicalKind (Path.relative path) = registry.canonicalKind path := by
  unfold canonicalKind
  rw [Path.relative_relative form]

/-- A path stands for a defined kind, or for itself. -/
theorem WellBound.canonicalKind_cases (bound : registry.WellBound) (path : String) :
    Defined registry.kinds (registry.canonicalKind path) ∨
      registry.canonicalKind path = Path.relative path :=
  (bound_or_canonicalKind_eq registry path).imp_left (bound.defined _ _)

theorem canonicalKind_canonicalKind (bound : registry.WellBound)
    (names : registry.HasRelativeKinds) (form : PathForm path.toList) :
    registry.canonicalKind (registry.canonicalKind path) = registry.canonicalKind path := by
  obtain defined | self := bound.canonicalKind_cases path
  · exact canonicalKind_of_defined bound names defined
  · rw [self, canonicalKind_relative form, self]

/-- Segments that lead to a kind are bound to it as a whole. -/
theorem get?_of_resolveSegments {segments : List String} {handle : Handle}
    (found : registry.resolveSegments segments = .kind handle) :
    registry.constants.get? (Path.join segments) = some (.kind handle.path) := by
  unfold resolveSegments at found
  split at found
  · split at found
    · next bound =>
      cases found
      exact bound
    · cases found
    · cases found
  · cases found

/-- What a path resolves to is bound somewhere. -/
theorem exists_bound_of_resolve {handle : Handle} (found : registry.resolve path = .kind handle) :
    ∃ other, registry.constants.get? other = some (.kind handle.path) :=
  ⟨_, get?_of_resolveSegments found⟩

theorem isKindOf_iff {value : Value} {handle : Handle} :
    registry.isKindOf value handle = true ↔
      registry.canonicalKind handle.path ∈ registry.ancestors (registry.classOf value) :=
  decide_eq_true_iff

theorem canonicalKind_mem_ancestors (registry : Registry) (path : String) :
    registry.canonicalKind path ∈ registry.ancestors path := by
  by_cases defined : Defined registry.kinds (registry.canonicalKind path)
  · exact (mem_ancestors_of_defined defined).mpr (.refl defined)
  · exact (mem_ancestors_of_missing defined).mpr (.inl rfl)

/-- The ancestors of a path stand for themselves. -/
theorem canonicalKind_of_mem_ancestors (bound : registry.WellBound)
    (names : registry.HasRelativeKinds) (form : PathForm path.toList)
    (h : kind ∈ registry.ancestors path) : registry.canonicalKind kind = kind := by
  obtain rfl | defined := eq_or_defined_of_mem_ancestors h
  · exact canonicalKind_canonicalKind bound names form
  · exact canonicalKind_of_defined bound names defined

end Kinds

/-- The empty registry and the core are well-bound, and each declaration that respects the defined
kinds keeps a registry so. In a well-bound registry that was built from paths:

* the kind that a path stands for stands for itself;
* what a path resolves to is defined, and stands for itself;
* each value is of the kind of its class;
* a value that is of a kind is also of the ancestors of the kind. -/
theorem wellBound_kindOf :
    (empty.WellBound ∧ core.WellBound) ∧
      (∀ (registry : Registry) (declaration : Declaration), registry.WellBound →
        registry.Respects declaration → (registry.declare declaration).WellBound) ∧
      ∀ registry : Registry, registry.Built → registry.WellBound →
        (∀ path, PathForm path.toList →
          registry.canonicalKind (registry.canonicalKind path) = registry.canonicalKind path) ∧
        (∀ path handle, registry.resolve path = .kind handle →
          Defined registry.kinds handle.path ∧
            registry.canonicalKind handle.path = handle.path) ∧
        (∀ value, registry.isKindOf value ⟨registry.classOf value⟩ = true) ∧
        ∀ value kind other, PathForm kind.toList → registry.isKindOf value ⟨kind⟩ = true →
          other ∈ registry.ancestors kind → registry.isKindOf value ⟨other⟩ = true := by
  refine ⟨⟨wellBound_empty, wellBound_core⟩, fun _ _ bound respects => bound.declare respects,
    fun registry built bound => ?_⟩
  have names := built.hasRelativeKinds
  refine ⟨fun path form => canonicalKind_canonicalKind bound names form,
    fun path handle found => ?_, fun value => ?_, fun value kind other form kindOf above => ?_⟩
  · obtain ⟨place, found⟩ := exists_bound_of_resolve found
    have defined := bound.defined place handle.path found
    exact ⟨defined, canonicalKind_of_defined bound names defined⟩
  · exact isKindOf_iff.mpr (canonicalKind_mem_ancestors registry (registry.classOf value))
  · rw [isKindOf_iff] at kindOf ⊢
    rw [canonicalKind_of_mem_ancestors bound names form above]
    exact ancestors_trans kindOf above

/-- A class with a module, and another name for the class. -/
theorem wellBound_kindOf_alias :
    Built (core.declareAll [.defineModule "Net", .defineClass "::Net::HTTP" "Object",
        .mixIn "Net::HTTP" "Comparable", .defineAlias "HTTP" "Net::HTTP"]) ∧
      WellBound (core.declareAll [.defineModule "Net", .defineClass "::Net::HTTP" "Object",
        .mixIn "Net::HTTP" "Comparable", .defineAlias "HTTP" "Net::HTTP"]) ∧
      isKindOf (core.declareAll [.defineModule "Net", .defineClass "::Net::HTTP" "Object",
          .mixIn "Net::HTTP" "Comparable", .defineAlias "HTTP" "Net::HTTP"])
        (.object ⟨"HTTP", .empty, .plain⟩) ⟨"Comparable"⟩ = true := by
  have built : Built (core.declareAll [.defineModule "Net", .defineClass "::Net::HTTP" "Object",
      .mixIn "Net::HTTP" "Comparable", .defineAlias "HTTP" "Net::HTTP"]) :=
    ⟨_, by decide, .inr rfl⟩
  have bound : WellBound (core.declareAll [.defineModule "Net",
      .defineClass "::Net::HTTP" "Object", .mixIn "Net::HTTP" "Comparable",
      .defineAlias "HTTP" "Net::HTTP"]) :=
    wellBound_core.declareAll (by decide +kernel)
  have above := (wellBound_kindOf.2.2 _ built bound).2.2.2
    (.object ⟨"HTTP", .empty, .plain⟩) "::HTTP" "Comparable"
  exact ⟨built, bound, above (by decide) (by decide +kernel) (by decide +kernel)⟩

end DocTypes.Registry
