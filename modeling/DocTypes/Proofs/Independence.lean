import DocTypes.Proofs.Visibility

/-!
# Declarations in any order

A declaration writes the entries of its own path and no others (`get?_kinds_declare`,
`get?_constants_declare`). What it writes depends on the entries that are there, and for an alias on
what its target is bound to. So two declarations about different paths may come in either order, if
neither is an alias of the other's path, and a list of such declarations in any order. A declaration
that comes again changes nothing (`independent_declarations`).

Tables are the same when each name has the same value in both. That is all that any answer of a
registry depends on (`SameTables.sameAnswers`, `SameTables.resolve`).
-/

namespace DocTypes

/-! ## Doing the same again -/

namespace Table

variable {α : Type} {name : String}

theorem put_put (old new : α) (entries : List (String × α)) :
    put name new (put name old entries) = put name new entries := by
  induction entries with
  | nil => simp [put]
  | cons entry entries ih =>
    obtain ⟨key, value⟩ := entry
    by_cases found : name = key
    · simp [put, found]
    · simp [put, found, ih]

theorem insert_insert (table : Table α) (old new : α) :
    (table.insert name old).insert name new = table.insert name new :=
  congrArg Table.mk (put_put old new table.entries)

theorem insertNew_insertNew (table : Table α) (old new : α) :
    (table.insertNew name old).insertNew name new = table.insertNew name old := by
  have there : (table.insertNew name old).contains name = true := by
    rw [contains, get?_insertNew, if_pos rfl]
    rfl
  rw [insertNew, if_pos there]

theorem adjust_adjust {change : α → α} (settled : ∀ value, change (change value) = change value)
    (table : Table α) : (table.adjust name change).adjust name change = table.adjust name change := by
  cases found : table.get? name with
  | none =>
    have same : table.adjust name change = table := by rw [adjust, found]
    rw [same, same]
  | some value =>
    have changed : table.adjust name change = table.insert name (change value) := by
      rw [adjust, found]
    have again : (table.insert name (change value)).get? name = some (change value) := by
      rw [get?_insert, if_pos rfl]
    rw [changed, adjust, again]
    exact (insert_insert table _ _).trans (congrArg _ (settled value))

end Table

namespace Definition

variable {included : String} {methods : List String}

theorem mixIn_mixIn (definition : Definition) :
    (definition.mixIn included).mixIn included = definition.mixIn included := by
  have there : included ∈ (definition.mixIn included).includes := by
    unfold mixIn
    split
    · assumption
    · simp
  exact if_pos there

theorem addMethods_addMethods (definition : Definition) :
    (definition.addMethods methods).addMethods methods = definition.addMethods methods := by
  have held : ∀ method ∈ methods, method ∈ (definition.addMethods methods).methods :=
    fun method given => NameSet.mem_insertAll.mpr (.inr given)
  rw [addMethods, NameSet.insertAll_of_subset held]

end Definition

/-! ## What a declaration writes -/

namespace Declaration

/-- The path that an alias looks up. No other declaration looks up any path but its own. -/
def target? : Declaration → Option String
  | .defineAlias _ target => some target
  | _ => none

/-- What becomes of the definition under the path of a declaration. -/
def redefine (old : Option Definition) : Declaration → Option Definition
  | .defineClass _ superclass =>
    some (old.getD (.plain .instantiable (some (Path.relative superclass))))
  | .defineModule _ => some (old.getD (.plain .mixin none))
  | .mixIn _ included => old.map (·.mixIn (Path.relative included))
  | .defineMethods _ methods => old.map (·.addMethods methods)
  | .defineConstant _ _ | .defineAlias _ _ => old

/-- The declarations are about different paths, and neither is an alias of the other's path. -/
structure Unrelated (first second : Declaration) : Prop where
  paths : Path.relative first.path ≠ Path.relative second.path
  firstTarget : ∀ target ∈ first.target?, Path.relative target ≠ Path.relative second.path
  secondTarget : ∀ target ∈ second.target?, Path.relative target ≠ Path.relative first.path

theorem Unrelated.symm {first second : Declaration} (h : Unrelated first second) :
    Unrelated second first :=
  ⟨h.paths.symm, h.secondTarget, h.firstTarget⟩

instance (first second : Declaration) : Decidable (Unrelated first second) :=
  decidable_of_iff (Path.relative first.path ≠ Path.relative second.path ∧
      (∀ target ∈ first.target?, Path.relative target ≠ Path.relative second.path) ∧
      ∀ target ∈ second.target?, Path.relative target ≠ Path.relative first.path)
    ⟨fun h => ⟨h.1, h.2.1, h.2.2⟩, fun h => ⟨h.paths, h.firstTarget, h.secondTarget⟩⟩

end Declaration

namespace Registry

open Declaration

/-- What a declaration binds its path to, if it binds it. -/
def bindingOf? (registry : Registry) : Declaration → Option Binding
  | .defineClass path _ | .defineModule path => some (.kind (Path.relative path))
  | .defineConstant _ className => some (.constant className)
  | .defineAlias _ target => some (.kind (registry.canonicalKind target))
  | .mixIn _ _ | .defineMethods _ _ => none

section Entries

variable {registry other : Registry} {declaration : Declaration} {path : String}

/-- A declaration changes no definition but the one under its own path. -/
theorem get?_kinds_declare (registry : Registry) (declaration : Declaration) (name : String) :
    (registry.declare declaration).kinds.get? name =
      if name = Path.relative declaration.path then
        declaration.redefine (registry.kinds.get? (Path.relative declaration.path))
      else registry.kinds.get? name := by
  cases declaration with
  | defineClass | defineModule => exact Table.get?_insertNew ..
  | mixIn | defineMethods => exact Table.get?_adjust ..
  | defineConstant | defineAlias =>
    refine (ite_eq_right_iff.mpr ?_).symm
    rintro rfl
    rfl

/-- A declaration changes no binding but that of its own path. -/
theorem get?_constants_declare (registry : Registry) (declaration : Declaration) (name : String) :
    (registry.declare declaration).constants.get? name =
      if name = Path.relative declaration.path then
        (registry.bindingOf? declaration).or (registry.constants.get? name)
      else registry.constants.get? name := by
  cases declaration with
  | defineClass | defineModule => exact get?_constants_define
  | mixIn | defineMethods => exact (ite_self _).symm
  | defineConstant | defineAlias => exact get?_constants_bind

/-- What a path stands for depends on its binding alone. -/
theorem canonicalKind_congr (same : registry.constants.get? (Path.relative path) =
    other.constants.get? (Path.relative path)) :
    registry.canonicalKind path = other.canonicalKind path := by
  rw [canonicalKind, canonicalKind, same]

/-- What a declaration binds depends on the binding of its target. -/
theorem bindingOf?_congr (same : ∀ target ∈ declaration.target?,
    registry.constants.get? (Path.relative target) = other.constants.get? (Path.relative target)) :
    registry.bindingOf? declaration = other.bindingOf? declaration := by
  cases declaration with
  | defineAlias path target =>
    exact congrArg (fun kind => some (Binding.kind kind)) (canonicalKind_congr (same target rfl))
  | _ => rfl

end Entries

/-! ## The same tables -/

/-- Each name has the same definition in both registries, and the same binding. -/
structure SameTables (registry other : Registry) : Prop where
  kinds : ∀ name, registry.kinds.get? name = other.kinds.get? name
  constants : ∀ name, registry.constants.get? name = other.constants.get? name

section SameTables

variable {registry between other : Registry} {first second : Declaration}
  {declarations permuted : List Declaration}

theorem SameTables.refl (registry : Registry) : SameTables registry registry :=
  ⟨fun _ => rfl, fun _ => rfl⟩

theorem SameTables.trans (h : SameTables registry between) (h' : SameTables between other) :
    SameTables registry other :=
  ⟨fun name => (h.kinds name).trans (h'.kinds name),
    fun name => (h.constants name).trans (h'.constants name)⟩

theorem SameTables.declare (h : SameTables registry other) (declaration : Declaration) :
    SameTables (registry.declare declaration) (other.declare declaration) where
  kinds name := by rw [get?_kinds_declare, get?_kinds_declare, h.kinds, h.kinds]
  constants name := by
    rw [get?_constants_declare, get?_constants_declare, h.constants,
      bindingOf?_congr fun target _ => h.constants (Path.relative target)]

theorem SameTables.declareAll (h : SameTables registry other) (declarations : List Declaration) :
    SameTables (registry.declareAll declarations) (other.declareAll declarations) := by
  induction declarations generalizing registry other with
  | nil => exact h
  | cons declaration declarations ih => exact ih (h.declare declaration)

/-- A declaration binds what it would bind before one that its target has nothing to do with. -/
theorem bindingOf?_declare
    (apart : ∀ target ∈ second.target?, Path.relative target ≠ Path.relative first.path) :
    (registry.declare first).bindingOf? second = registry.bindingOf? second :=
  bindingOf?_congr fun target isTarget => by
    rw [get?_constants_declare, if_neg (apart target isTarget)]

/-- Unrelated declarations may come in either order. -/
theorem declare_comm (unrelated : Unrelated first second) (registry : Registry) :
    SameTables ((registry.declare first).declare second)
      ((registry.declare second).declare first) where
  kinds name := by
    simp only [get?_kinds_declare, if_neg unrelated.paths, if_neg unrelated.paths.symm]
    by_cases own : name = Path.relative first.path
    · have other : name ≠ Path.relative second.path := own ▸ unrelated.paths
      simp only [if_pos own, if_neg other]
    · simp only [if_neg own]
  constants name := by
    simp only [get?_constants_declare, bindingOf?_declare unrelated.firstTarget,
      bindingOf?_declare unrelated.secondTarget]
    by_cases own : name = Path.relative first.path
    · have other : name ≠ Path.relative second.path := own ▸ unrelated.paths
      simp only [if_pos own, if_neg other]
    · simp only [if_neg own]

/-- Declarations that are unrelated to each other may come in any order. -/
theorem declareAll_perm (perm : declarations.Perm permuted)
    (unrelated : declarations.Pairwise Unrelated) (registry : Registry) :
    SameTables (registry.declareAll declarations) (registry.declareAll permuted) := by
  induction perm generalizing registry with
  | nil => exact .refl registry
  | cons declaration _ ih =>
    exact ih (List.pairwise_cons.mp unrelated).2 (registry.declare declaration)
  | swap first second declarations =>
    obtain ⟨each, -⟩ := List.pairwise_cons.mp unrelated
    exact (declare_comm (each first (by simp)) registry).declareAll declarations
  | trans perm _ ih ih' =>
    have between := perm.pairwise unrelated fun h => h.symm
    exact (ih unrelated registry).trans (ih' between registry)

/-- What the target of an alias stands for, it stands for after the alias, also if the alias is one of
its own path. -/
theorem canonicalKind_defineAlias (registry : Registry) (path target : String) :
    (registry.declare (.defineAlias path target)).canonicalKind target =
      registry.canonicalKind target := by
  by_cases own : Path.relative target = Path.relative path
  · rw [canonicalKind, declare, get?_constants_bind, if_pos own]
  · exact canonicalKind_congr (by rw [declare, get?_constants_bind, if_neg own])

/-- A declaration that comes again changes nothing. -/
theorem declare_declare (registry : Registry) (declaration : Declaration) :
    (registry.declare declaration).declare declaration = registry.declare declaration := by
  have rebound : ∀ (registry : Registry) (path : String) (binding : Binding),
      (registry.bind path binding).bind path binding = registry.bind path binding :=
    fun registry path binding => congrArg (Registry.mk registry.kinds)
      (Table.insert_insert registry.constants binding binding)
  cases declaration with
  | defineClass | defineModule =>
    exact congrArg₂ Registry.mk (Table.insertNew_insertNew ..) (Table.insert_insert ..)
  | mixIn path included =>
    exact congrArg (Registry.mk · registry.constants)
      (Table.adjust_adjust Definition.mixIn_mixIn registry.kinds)
  | defineMethods path methods =>
    exact congrArg (Registry.mk · registry.constants)
      (Table.adjust_adjust Definition.addMethods_addMethods registry.kinds)
  | defineConstant => exact rebound ..
  | defineAlias path target =>
    have same := canonicalKind_defineAlias registry path target
    simp only [declare] at same ⊢
    rw [same]
    exact rebound ..

end SameTables

/-! ## What the tables decide -/

section Answers

variable {registry other : Registry}

/-- Registries with the same tables give the same answers. -/
theorem SameTables.sameAnswers (h : SameTables registry other) : SameAnswers registry other := by
  refine .of_sameKinds (fun path => canonicalKind_congr (h.constants _)) ?_
  have contains : registry.kinds.contains = other.kinds.contains := by
    funext name
    rw [Table.contains, Table.contains, h.kinds]
  have live := liveParents_congr contains
  exact
    { links := fun name => by rw [live, h.kinds]
      flavours := fun name => by rw [h.kinds]
      methods := fun name => by rw [h.kinds] }

/-- Registries with the same tables resolve each path alike. -/
theorem SameTables.resolve (h : SameTables registry other) (path : String) :
    registry.resolve path = other.resolve path := by
  refine resolve_congr h.constants fun scope _ => ?_
  rw [isObjectScope, isObjectScope, canonicalKind_congr (h.constants _),
    h.sameAnswers.ancestors rootClass]

end Answers

/-- Two declarations about different paths, neither an alias of the other's path, lead to the same
tables in either order. So declarations of which any two are such may be listed in any order, whatever
superclasses and modules they name. A declaration that comes again right after itself changes nothing.

All answers depend on the tables alone, so they do not show the order either. -/
theorem independent_declarations :
    (∀ (registry : Registry) (first second : Declaration), Unrelated first second →
      SameTables ((registry.declare first).declare second)
        ((registry.declare second).declare first)) ∧
      (∀ (registry : Registry) (declarations permuted : List Declaration),
        declarations.Perm permuted → declarations.Pairwise Unrelated →
        SameTables (registry.declareAll declarations) (registry.declareAll permuted)) ∧
      (∀ (registry : Registry) (declaration : Declaration),
        (registry.declare declaration).declare declaration = registry.declare declaration) ∧
      ∀ registry other : Registry, SameTables registry other →
        SameAnswers registry other ∧ ∀ path, registry.resolve path = other.resolve path :=
  ⟨fun registry _ _ unrelated => declare_comm unrelated registry,
    fun registry _ _ perm unrelated => declareAll_perm perm unrelated registry,
    declare_declare, fun _ _ same => ⟨same.sameAnswers, same.resolve⟩⟩

/-- Two classes that are each other's superclass, an alias and a module, in one order and in the other.
An alias that is declared as an alias of itself, twice. -/
theorem independent_declarations_cyclic :
    SameTables (core.declareAll [.defineClass "Hen" "Egg", .defineClass "::Egg" "Hen",
        .defineAlias "Chick" "Fowl", .defineModule "Brood"])
      (core.declareAll [.defineModule "Brood", .defineAlias "Chick" "Fowl",
        .defineClass "::Egg" "Hen", .defineClass "Hen" "Egg"]) ∧
      (core.declare (.defineAlias "Fixnum" "Fixnum")).declare (.defineAlias "Fixnum" "Fixnum") =
        core.declare (.defineAlias "Fixnum" "Fixnum") :=
  ⟨independent_declarations.2.1 core _ _ (by decide) (by decide),
    independent_declarations.2.2.1 core (.defineAlias "Fixnum" "Fixnum")⟩

end Registry

end DocTypes
