import Mathlib.Data.List.Induction
import DocTypes.Proofs.Independence

/-!
# The last binder of a path

What a path is bound to can be told from the declarations alone, without the tables that they lead to.
The last of them that binds the path decides (`LastBinds`). A class or a module binds its own path, a
constant a value, and an alias the kind that its target was bound to when the alias came, or the
target itself if there was no such kind (`Made`).

A path that was bound leads to what was made of it, unless one of the scopes around it was never bound,
or last to a constant (`last_binder_decides`). Declarations that bind nothing change no such path. But
a module that is included into the root class opens its scope, and then other paths may lead to
something through it (`resolve_opened_by_mixIn`).
-/

namespace DocTypes

/-- The declaration binds the path, which may stand in it with a double colon in front. -/
def Declaration.Binds (declaration : Declaration) (path : String) : Prop :=
  match declaration with
  | .defineClass name _ | .defineModule name | .defineConstant name _ | .defineAlias name _ =>
    Path.relative name = path
  | .mixIn _ _ | .defineMethods _ _ => False

instance (declaration : Declaration) (path : String) : Decidable (declaration.Binds path) :=
  match declaration with
  | .defineClass name _ | .defineModule name | .defineConstant name _ | .defineAlias name _ =>
    inferInstanceAs (Decidable (Path.relative name = path))
  | .mixIn _ _ | .defineMethods _ _ => inferInstanceAs (Decidable False)

/-- `LastBinds declarations path before binder`: no declaration after `binder` binds the path, which
`binder` does, and the declarations in front of it are `before`. -/
def LastBinds (declarations : List Declaration) (path : String) (before : List Declaration)
    (binder : Declaration) : Prop :=
  ∃ later, declarations = before ++ binder :: later ∧ binder.Binds path ∧
    ∀ declaration ∈ later, ¬ declaration.Binds path

section LastBinds

variable {declarations before : List Declaration} {path : String} {binder : Declaration}

theorem LastBinds.binds (last : LastBinds declarations path before binder) : binder.Binds path := by
  obtain ⟨_, _, binds, _⟩ := last
  exact binds

theorem LastBinds.length_before (last : LastBinds declarations path before binder) :
    before.length < declarations.length := by
  obtain ⟨later, rfl, _, _⟩ := last
  simp

end LastBinds

/-- `Made declarations path binding`: the last of the declarations that binds the path makes it
`binding`.

* `ofClass` and `ofModule`: a kind is defined under the path.
* `ofConstant`: the path is a value of the class.
* `ofAlias`: the target was bound to a kind when the alias came.
* `ofConstantAlias`: the target was bound to a value.
* `ofUnboundAlias`: the target was not bound. -/
inductive Made : List Declaration → String → Binding → Prop
  | ofClass {declarations before : List Declaration} {path name superclass : String} :
      LastBinds declarations path before (.defineClass name superclass) →
      Made declarations path (.kind path)
  | ofModule {declarations before : List Declaration} {path name : String} :
      LastBinds declarations path before (.defineModule name) →
      Made declarations path (.kind path)
  | ofConstant {declarations before : List Declaration} {path name className : String} :
      LastBinds declarations path before (.defineConstant name className) →
      Made declarations path (.constant className)
  | ofAlias {declarations before : List Declaration} {path name target kind : String} :
      LastBinds declarations path before (.defineAlias name target) →
      Made before (Path.relative target) (.kind kind) →
      Made declarations path (.kind kind)
  | ofConstantAlias {declarations before : List Declaration}
      {path name target className : String} :
      LastBinds declarations path before (.defineAlias name target) →
      Made before (Path.relative target) (.constant className) →
      Made declarations path (.kind (Path.relative target))
  | ofUnboundAlias {declarations before : List Declaration} {path name target : String} :
      LastBinds declarations path before (.defineAlias name target) →
      (∀ declaration ∈ before, ¬ declaration.Binds (Path.relative target)) →
      Made declarations path (.kind (Path.relative target))

/-- The path was never bound, or last to a constant. -/
def NoScope (declarations : List Declaration) (path : String) : Prop :=
  (∀ declaration ∈ declarations, ¬ declaration.Binds path) ∨
    ∃ before name className, LastBinds declarations path before (.defineConstant name className)

/-- One of the scopes around the path, in front of some double colon in it, was never bound, or last to
a constant. -/
def LosesScope (declarations : List Declaration) (path : String) : Prop :=
  ∃ front back, Path.segments path = front ++ back ∧ front ≠ [] ∧ back ≠ [] ∧
    NoScope declarations (Path.join front)

namespace Registry

variable {registry start : Registry} {declarations before : List Declaration}
  {declaration binder : Declaration} {path : String} {binding : Binding}

/-! ## Bindings after a run -/

theorem get?_declare_of_binds (binds : declaration.Binds path) :
    (registry.declare declaration).constants.get? path = registry.bindingOf? declaration := by
  rw [get?_constants_declare]
  cases declaration with
  | mixIn | defineMethods => cases binds
  | defineClass | defineModule | defineConstant | defineAlias =>
    cases binds
    exact if_pos rfl

theorem get?_declare_of_not_binds (other : ¬ declaration.Binds path) :
    (registry.declare declaration).constants.get? path = registry.constants.get? path := by
  rw [get?_constants_declare]
  cases declaration with
  | mixIn | defineMethods => exact ite_self _
  | defineClass | defineModule | defineConstant | defineAlias =>
    exact if_neg fun same => other same.symm

/-- Declarations that do not bind a path leave it bound as it was. -/
theorem get?_declareAll_of_not_binds
    (none : ∀ declaration ∈ declarations, ¬ declaration.Binds path) :
    (start.declareAll declarations).constants.get? path = start.constants.get? path :=
  declareAll_induction
    (Q := fun registry => registry.constants.get? path = start.constants.get? path) none rfl
    fun _ _ other kept => (get?_declare_of_not_binds other).trans kept

/-- A path is bound to what the last declaration that binds it makes of it at its time. -/
theorem get?_of_lastBinds (last : LastBinds declarations path before binder) :
    (start.declareAll declarations).constants.get? path =
      (start.declareAll before).bindingOf? binder := by
  obtain ⟨later, rfl, binds, none⟩ := last
  have run : start.declareAll (before ++ binder :: later) =
      ((start.declareAll before).declare binder).declareAll later := by
    rw [declareAll, List.foldl_append, List.foldl_cons]
    rfl
  rw [run, get?_declareAll_of_not_binds none, get?_declare_of_binds binds]

/-- Either no declaration binds the path or one of them is the last to do it. -/
theorem not_binds_or_lastBinds (declarations : List Declaration) (path : String) :
    (∀ declaration ∈ declarations, ¬ declaration.Binds path) ∨
      ∃ before binder, LastBinds declarations path before binder := by
  induction declarations using List.reverseRecOn with
  | nil => exact .inl (List.forall_mem_nil _)
  | append_singleton declarations declaration ih =>
    by_cases here : declaration.Binds path
    · exact .inr ⟨declarations, declaration, [], rfl, here, List.forall_mem_nil _⟩
    · obtain none | ⟨before, binder, later, rfl, binds, none⟩ := ih
      · exact .inl (List.forall_mem_append.mpr ⟨none, List.forall_mem_singleton.mpr here⟩)
      · exact .inr ⟨before, binder, later ++ [declaration], by simp, binds,
          List.forall_mem_append.mpr ⟨none, List.forall_mem_singleton.mpr here⟩⟩

/-! ## Bindings from the declarations alone -/

theorem get?_of_made (made : Made declarations path binding) :
    (empty.declareAll declarations).constants.get? path = some binding := by
  induction made with
  | ofClass last | ofModule last =>
    cases last.binds
    exact get?_of_lastBinds last
  | ofConstant last => exact get?_of_lastBinds last
  | ofAlias last _ ih | ofConstantAlias last _ ih =>
    rw [get?_of_lastBinds last, bindingOf?, canonicalKind, ih]
  | ofUnboundAlias last none =>
    rw [get?_of_lastBinds last, bindingOf?, canonicalKind, get?_declareAll_of_not_binds none]
    rfl

theorem not_binds_of_get?_eq_none
    (unbound : (empty.declareAll declarations).constants.get? path = none) :
    ∀ declaration ∈ declarations, ¬ declaration.Binds path := by
  obtain none | ⟨before, binder, last⟩ := not_binds_or_lastBinds declarations path
  · exact none
  · rw [get?_of_lastBinds last] at unbound
    cases binder with
    | mixIn | defineMethods => exact absurd last.binds id
    | defineClass | defineModule | defineConstant | defineAlias => cases unbound

theorem made_of_get? (bound : (empty.declareAll declarations).constants.get? path = some binding) :
    Made declarations path binding := by
  induction count : declarations.length using Nat.strongRecOn
    generalizing declarations path binding with
  | ind count ih =>
    subst count
    obtain none | ⟨before, binder, last⟩ := not_binds_or_lastBinds declarations path
    · rw [get?_declareAll_of_not_binds none] at bound
      cases bound
    rw [get?_of_lastBinds last] at bound
    have here := last.binds
    cases binder with
    | mixIn | defineMethods => cases here
    | defineClass =>
      cases here
      cases bound
      exact .ofClass last
    | defineModule =>
      cases here
      cases bound
      exact .ofModule last
    | defineConstant =>
      cases bound
      exact .ofConstant last
    | defineAlias name target =>
      cases bound
      rw [canonicalKind]
      cases found : (empty.declareAll before).constants.get? (Path.relative target) with
      | none => exact .ofUnboundAlias last (not_binds_of_get?_eq_none found)
      | some old =>
        have made := ih before.length last.length_before found rfl
        cases old with
        | kind => exact .ofAlias last made
        | constant => exact .ofConstantAlias last made

/-- In a registry that declarations lead to from nothing, a path is bound to what they make of it. -/
theorem get?_eq_some_iff_made :
    (empty.declareAll declarations).constants.get? path = some binding ↔
      Made declarations path binding :=
  ⟨made_of_get?, get?_of_made⟩

/-- Declarations that bind a path make it something. -/
theorem exists_made (bound : ∃ declaration ∈ declarations, declaration.Binds path) :
    ∃ binding, Made declarations path binding := by
  cases found : (empty.declareAll declarations).constants.get? path with
  | none =>
    obtain ⟨declaration, member, binds⟩ := bound
    exact absurd binds (not_binds_of_get?_eq_none found declaration member)
  | some binding => exact ⟨binding, made_of_get? found⟩

/-- A scope is a kind unless it was never bound or last to a constant. -/
theorem bindsKind_iff_not_noScope :
    (empty.declareAll declarations).bindsKind path = true ↔ ¬ NoScope declarations path := by
  rw [bindsKind_iff]
  constructor
  · rintro ⟨kind, bound⟩ (none | ⟨before, name, className, last⟩)
    · rw [get?_declareAll_of_not_binds none] at bound
      cases bound
    · rw [get?_of_lastBinds last] at bound
      cases bound
  · intro scope
    obtain none | ⟨before, binder, last⟩ := not_binds_or_lastBinds declarations path
    · exact absurd (.inl none) scope
    rw [get?_of_lastBinds last]
    cases binder with
    | mixIn | defineMethods => exact absurd last.binds id
    | defineConstant => exact absurd (.inr ⟨_, _, _, last⟩) scope
    | defineClass | defineModule | defineAlias => exact ⟨_, rfl⟩

theorem scopesAreKinds_iff_not_losesScope :
    (empty.declareAll declarations).scopesAreKinds (Path.segments path) = true ↔
      ¬ LosesScope declarations path := by
  simp only [scopesAreKinds_iff, bindsKind_iff_not_noScope, LosesScope, not_exists, not_and]

/-! ## What a bound path leads to -/

/-- A path that was bound leads to nothing if one of the scopes around it was never bound, or last to a
constant. Otherwise it leads to what the last declaration that bound it made it.

Methods that are added to a kind change no resolution. A module that is included into some kind changes
what a path leads to only if the path is not bound, and if one of its scopes stands for a kind that
becomes an ancestor of the root class by it. -/
theorem last_binder_decides :
    (∀ (declarations : List Declaration) (path : String), Path.relative path = path →
        (∃ declaration ∈ declarations, declaration.Binds path) →
        (LosesScope declarations path →
          (empty.declareAll declarations).resolve path = .notFound) ∧
        (¬ LosesScope declarations path → ∃ binding,
          (∀ other, Made declarations path other ↔ other = binding) ∧
            (empty.declareAll declarations).resolve path = binding.resolution)) ∧
      (∀ (registry : Registry) (kind : String) (methods : List String) (path : String),
        (registry.declare (.defineMethods kind methods)).resolve path = registry.resolve path) ∧
      ∀ (registry : Registry) (kind included path : String),
        (registry.declare (.mixIn kind included)).resolve path ≠ registry.resolve path →
        registry.constants.get? (Path.relative path) = none ∧
          ∃ scope ∈ (Path.segments (Path.relative path)).dropLast,
            registry.canonicalKind scope ∉ registry.ancestors rootClass ∧
              registry.canonicalKind scope ∈
                (registry.declare (.mixIn kind included)).ancestors rootClass := by
  refine ⟨fun declarations path relative bound => ?_, resolve_defineMethods,
    fun _ _ _ _ => exists_scope_of_resolve_ne⟩
  obtain ⟨binding, made⟩ := exists_made bound
  have found := get?_of_made made
  have direct := resolve_of_contains (relative.symm ▸ contains_of_bound found)
  rw [direct, relative]
  constructor
  · intro lost
    rw [resolveSegments, if_neg (fun kinds => scopesAreKinds_iff_not_losesScope.mp kinds lost)]
  · intro scopes
    refine ⟨binding, fun other => ?_, ?_⟩
    · rw [← get?_eq_some_iff_made, found, Option.some_inj, eq_comm]
    · refine resolveSegments_of_bound (scopesAreKinds_iff_not_losesScope.mpr scopes) ?_
      rwa [Path.join_segments]

/-- An alias of a class stands for the class also after the path of the class became a constant. -/
theorem last_binder_decides_alias :
    resolve (empty.declareAll [.defineModule "Net", .defineClass "Net::HTTP" "Object",
      .defineAlias "Net::Agent" "Net::HTTP", .defineConstant "Net::HTTP" "Float"]) "Net::Agent" =
        .kind ⟨"Net::HTTP"⟩ := by
  have scopes : ¬ LosesScope [.defineModule "Net", .defineClass "Net::HTTP" "Object",
      .defineAlias "Net::Agent" "Net::HTTP", .defineConstant "Net::HTTP" "Float"] "Net::Agent" :=
    scopesAreKinds_iff_not_losesScope.mp (by decide +kernel)
  have defined : LastBinds [.defineModule "Net", .defineClass "Net::HTTP" "Object"] "Net::HTTP"
      [.defineModule "Net"] (.defineClass "Net::HTTP" "Object") :=
    ⟨[], rfl, rfl, by decide⟩
  have aliased : LastBinds [.defineModule "Net", .defineClass "Net::HTTP" "Object",
      .defineAlias "Net::Agent" "Net::HTTP", .defineConstant "Net::HTTP" "Float"] "Net::Agent"
      [.defineModule "Net", .defineClass "Net::HTTP" "Object"]
      (.defineAlias "Net::Agent" "Net::HTTP") :=
    ⟨[.defineConstant "Net::HTTP" "Float"], rfl, rfl, by decide⟩
  obtain ⟨binding, unique, resolved⟩ :=
    (last_binder_decides.1 _ "Net::Agent" rfl (by decide)).2 scopes
  rw [resolved, ← (unique _).mp (.ofAlias aliased (.ofClass defined))]
  rfl

/-- A module that is included into the root class opens its scope to the constants at the top
level. -/
theorem resolve_opened_by_mixIn :
    resolve (empty.declareAll [.defineClass "Object" "BasicObject", .defineModule "Helpers",
        .defineClass "Text" "Object"]) "Helpers::Text" = .notFound ∧
      resolve (empty.declareAll [.defineClass "Object" "BasicObject", .defineModule "Helpers",
        .defineClass "Text" "Object", .mixIn "Object" "Helpers"]) "Helpers::Text" =
          .kind ⟨"Text"⟩ := by
  decide +kernel

end Registry

end DocTypes
