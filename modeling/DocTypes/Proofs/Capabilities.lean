import DocTypes.Proofs.Growth
import DocTypes.Proofs.WellBound
import DocTypes.Value.Views

/-!
# Views are backed by methods

A value that has a view answers to the methods that the view stands for, in every registry that is
declared from the core (`views_backed_by_methods`). An object answers to them by its shape, whatever
its class is. The other containers are instances of four classes of the core, which define these
methods, and declarations take nothing back. Only the path of such a class must not be bound anew, by
a constant or an alias, for then it may stand for another kind.
-/

namespace DocTypes

/-- The declaration binds the path to a value, or to the kind that another path stands for. -/
def Declaration.Rebinds (declaration : Declaration) (path : String) : Prop :=
  match declaration with
  | .defineConstant name _ | .defineAlias name _ => Path.relative name = path
  | .defineClass _ _ | .defineModule _ | .mixIn _ _ | .defineMethods _ _ => False

instance (declaration : Declaration) (path : String) : Decidable (declaration.Rebinds path) :=
  match declaration with
  | .defineConstant name _ | .defineAlias name _ =>
    inferInstanceAs (Decidable (Path.relative name = path))
  | .defineClass _ _ | .defineModule _ | .mixIn _ _ | .defineMethods _ _ =>
    inferInstanceAs (Decidable False)

namespace Registry

/-! ## Paths that stand for themselves -/

section StandsForItself

variable {registry : Registry} {declarations : List Declaration} {declaration : Declaration}
  {path : String}

/-- A path that stands for itself does so until it is bound to something else. -/
theorem canonicalKind_declare (relative : Path.relative path = path)
    (same : registry.canonicalKind path = path) (kept : ¬ declaration.Rebinds path) :
    (registry.declare declaration).canonicalKind path = path := by
  unfold canonicalKind at same ⊢
  rw [relative] at same ⊢
  cases declaration with
  | defineClass other superclass | defineModule other =>
    simp only [declare, get?_constants_define]
    by_cases here : path = Path.relative other
    · rw [if_pos here]
      exact here.symm
    · rw [if_neg here]
      exact same
  | mixIn | defineMethods => exact same
  | defineConstant other className | defineAlias other target =>
    simp only [declare, get?_constants_bind]
    rw [if_neg fun here => kept here.symm]
    exact same

theorem canonicalKind_declareAll (relative : Path.relative path = path)
    (same : registry.canonicalKind path = path)
    (kept : ∀ declaration ∈ declarations, ¬ declaration.Rebinds path) :
    (registry.declareAll declarations).canonicalKind path = path :=
  declareAll_induction (Q := fun registry => registry.canonicalKind path = path) kept same
    fun _ _ kept same => canonicalKind_declare relative same kept

end StandsForItself

/-! ## Methods of containers -/

/-- The classes of the containers that are no objects, each with the methods that the views of its
instances stand for. -/
def containerClasses : List (String × List String) :=
  [("String", ["length", "[]"]), ("Array", ["length", "[]", "each"]),
   ("Hash", ["length", "[]", "each", "keys", "values"]), ("Set", ["each"])]

theorem hasMethod_core :
    ∀ container ∈ containerClasses, ∀ method ∈ container.2,
      core.hasMethod container.1 method = true := by
  decide +kernel

theorem canonicalKind_core :
    ∀ container ∈ containerClasses, Path.relative container.1 = container.1 ∧
      core.canonicalKind container.1 = container.1 := by
  decide +kernel

section Backed

variable {registry : Registry} {declarations : List Declaration} {value : Value} {method : String}

/-- A value answers to the methods of its own class, if the path of the class stands for itself. -/
theorem respondsTo_of_classOf (same : registry.canonicalKind (registry.classOf value) =
      registry.classOf value)
    (held : registry.hasMethod (registry.classOf value) method = true) :
    registry.respondsTo value method = true := by
  have listed := canonicalKind_mem_ancestors registry (registry.classOf value)
  rw [same] at listed
  unfold respondsTo
  rw [List.any_eq_true.mpr ⟨_, listed, held⟩, Bool.or_true]

/-- A container class keeps its methods, whatever is declared of it and of other kinds. -/
theorem respondsTo_of_container {name : String} {methods : List String}
    (container : (name, methods) ∈ containerClasses)
    (kept : ∀ declaration ∈ declarations, ¬ declaration.Rebinds name)
    (ofClass : (core.declareAll declarations).classOf value = name) (needed : method ∈ methods) :
    (core.declareAll declarations).respondsTo value method = true := by
  obtain ⟨relative, same⟩ := canonicalKind_core _ container
  have still := canonicalKind_declareAll relative same kept
  have held := (grows_declareAll core declarations).hasMethod
    (hasMethod_core _ container method needed)
  rw [← ofClass] at still held
  exact respondsTo_of_classOf still held

/-- An object answers to the methods of its shape, whatever its class is. -/
theorem respondsTo_of_shape (className : String) (own : NameSet) (shape : Shape Value)
    (implied : method ∈ shape.methods) :
    registry.respondsTo (.object ⟨className, own, shape⟩) method = true := by
  simp [respondsTo, definesItself, Object.defines, implied]

end Backed

/-- Whatever is declared from the core on, as long as no constant and no alias takes the path of a
container class: a value with positions answers to `length` and `[]`, an enumerable value to `each`,
and a value with keys and values to `keys` and `values`. -/
theorem views_backed_by_methods {declarations : List Declaration}
    (kept : ∀ declaration ∈ declarations, ∀ container ∈ containerClasses,
      ¬ declaration.Rebinds container.1) (value : Value) :
    (value.sequence?.isSome →
      (core.declareAll declarations).respondsTo value "length" = true ∧
        (core.declareAll declarations).respondsTo value "[]" = true) ∧
    (value.elements?.isSome → (core.declareAll declarations).respondsTo value "each" = true) ∧
    (value.columns?.isSome →
      (core.declareAll declarations).respondsTo value "keys" = true ∧
        (core.declareAll declarations).respondsTo value "values" = true) := by
  have backed (name : String) (methods : List String)
      (container : (name, methods) ∈ containerClasses)
      (ofClass : (core.declareAll declarations).classOf value = name) :
      ∀ method ∈ methods, (core.declareAll declarations).respondsTo value method = true :=
    fun _ => respondsTo_of_container container (fun _ listed => kept _ listed _ container) ofClass
  cases value with
  | string text =>
    have methods := backed "String" ["length", "[]"] (by decide) rfl
    exact ⟨fun _ => ⟨methods _ (by decide), methods _ (by decide)⟩, nofun, nofun⟩
  | array items =>
    have methods := backed "Array" ["length", "[]", "each"] (by decide) rfl
    exact ⟨fun _ => ⟨methods _ (by decide), methods _ (by decide)⟩,
      fun _ => methods _ (by decide), nofun⟩
  | hash pairs =>
    have methods := backed "Hash" ["length", "[]", "each", "keys", "values"] (by decide) rfl
    exact ⟨fun _ => ⟨methods _ (by decide), methods _ (by decide)⟩,
      fun _ => methods _ (by decide), fun _ => ⟨methods _ (by decide), methods _ (by decide)⟩⟩
  | set members =>
    have methods := backed "Set" ["each"] (by decide) rfl
    exact ⟨nofun, fun _ => methods _ (by decide), nofun⟩
  | object body =>
    obtain ⟨className, own, shape⟩ := body
    cases shape with
    | plain => exact ⟨nofun, nofun, nofun⟩
    | list items =>
      have methods : ∀ method ∈ Shape.listMethods, (core.declareAll declarations).respondsTo
          (.object ⟨className, own, .list items⟩) method = true :=
        fun _ => respondsTo_of_shape className own (.list items)
      exact ⟨fun _ => ⟨methods _ (by decide), methods _ (by decide)⟩,
        fun _ => methods _ (by decide), nofun⟩
    | map keys values =>
      have methods : ∀ method ∈ Shape.mapMethods, (core.declareAll declarations).respondsTo
          (.object ⟨className, own, .map keys values⟩) method = true :=
        fun _ => respondsTo_of_shape className own (.map keys values)
      exact ⟨nofun, nofun, fun _ => ⟨methods _ (by decide), methods _ (by decide)⟩⟩
  | nil | bool | integer | float | symbol | kind => exact ⟨nofun, nofun, nofun⟩

/-- The class of arrays is reopened, and its name is bound in another scope. -/
theorem views_backed_by_methods_reopened :
    (∀ declaration ∈ [Declaration.defineModule "::Array", .defineMethods "Array" ["wrap"],
        .mixIn "Array" "Missing", .defineAlias "Net::Array" "Kernel"],
      ∀ container ∈ containerClasses, ¬ declaration.Rebinds container.1) ∧
    (core.declareAll [.defineModule "::Array", .defineMethods "Array" ["wrap"],
        .mixIn "Array" "Missing", .defineAlias "Net::Array" "Kernel"]).respondsTo
      (.array [.nil]) "each" = true := by
  have kept : ∀ declaration ∈ [Declaration.defineModule "::Array",
        .defineMethods "Array" ["wrap"], .mixIn "Array" "Missing",
        .defineAlias "Net::Array" "Kernel"],
      ∀ container ∈ containerClasses, ¬ declaration.Rebinds container.1 := by
    decide
  exact ⟨kept, (views_backed_by_methods kept (.array [.nil])).2.1 rfl⟩

example : (core.declareAll [.defineAlias "Array" "Kernel"]).respondsTo (.array []) "each" = false := by
  decide +kernel

end Registry

end DocTypes
