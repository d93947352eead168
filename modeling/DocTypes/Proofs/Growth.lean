import DocTypes.Proofs.Building
import DocTypes.Registry.Model

/-!
# Registries only grow

A declaration adds to a registry and takes nothing back, except that a constant may be bound anew. A
defined kind keeps its flavour, its superclass and the order of its modules, and modules and methods
are added after those that it has (`grows_declareAll`).

So all links stay, and whatever they lead to is still reached, also when links that led nowhere lead
to a kind now (`Grows.reaches`). A class keeps its ancestors and its values answer to what they
answered before, as long as the path of the class stands for the same kind (`only_grows`).
-/

namespace DocTypes

namespace Definition

/-- The later definition is the earlier one, with modules included after the others and with more
methods. -/
structure Grows (earlier later : Definition) : Prop where
  flavour : later.flavour = earlier.flavour
  superclass : later.superclass = earlier.superclass
  includes : earlier.includes <+: later.includes
  methods : ∀ method ∈ earlier.methods, method ∈ later.methods

section Grows

variable {earlier between later : Definition}

theorem Grows.refl (definition : Definition) : definition.Grows definition :=
  ⟨rfl, rfl, List.prefix_refl _, fun _ => id⟩

theorem Grows.trans (first : earlier.Grows between) (second : between.Grows later) :
    earlier.Grows later where
  flavour := second.flavour.trans first.flavour
  superclass := second.superclass.trans first.superclass
  includes := first.includes.trans second.includes
  methods method held := second.methods method (first.methods method held)

theorem grows_mixIn (definition : Definition) (included : String) :
    definition.Grows (definition.mixIn included) := by
  unfold mixIn
  split
  · exact .refl definition
  · exact ⟨rfl, rfl, List.prefix_append .., fun _ => id⟩

theorem grows_addMethods (definition : Definition) (methods : List String) :
    definition.Grows (definition.addMethods methods) :=
  ⟨rfl, rfl, List.prefix_refl _, fun _ held => NameSet.mem_insertAll.mpr (.inl held)⟩

/-- A module is included once, however often it is to be. -/
theorem nodup_mixIn {definition : Definition} (included : String)
    (h : definition.includes.Nodup) : (definition.mixIn included).includes.Nodup := by
  unfold mixIn
  split
  · exact h
  · next absent =>
    refine List.nodup_append.mpr ⟨h, by simp, ?_⟩
    rintro other member last new rfl
    exact absent (List.mem_singleton.mp new ▸ member)

end Grows

end Definition

namespace Registry

/-- Each kind of the earlier registry is defined in the later one, where its definition has grown. -/
def Grows (earlier later : Registry) : Prop :=
  ∀ kind definition, earlier.kinds.get? kind = some definition →
    ∃ more, later.kinds.get? kind = some more ∧ definition.Grows more

/-- No kind includes a module twice. -/
def IncludesOnce (registry : Registry) : Prop :=
  registry.EveryKind fun definition => definition.includes.Nodup

section Steps

variable {registry between later : Registry}

theorem Grows.refl (registry : Registry) : registry.Grows registry :=
  fun _ definition found => ⟨definition, found, .refl definition⟩

theorem Grows.trans (first : registry.Grows between) (second : between.Grows later) :
    registry.Grows later := by
  intro kind definition found
  obtain ⟨more, found, grown⟩ := first kind definition found
  obtain ⟨most, found, grown'⟩ := second kind more found
  exact ⟨most, found, grown.trans grown'⟩

theorem grows_define (registry : Registry) (path : String) (flavour : Flavour)
    (superclass : Option String) : registry.Grows (registry.define path flavour superclass) := by
  intro kind definition found
  refine ⟨definition, ?_, .refl definition⟩
  simp only [define, Table.get?_insertNew]
  split
  · next same => rw [← same, found]; rfl
  · exact found

theorem grows_amend (registry : Registry) (path : String) {change : Definition → Definition}
    (grown : ∀ definition : Definition, definition.Grows (change definition)) :
    registry.Grows (registry.amend path change) := by
  intro kind definition found
  by_cases same : kind = Path.relative path
  · refine ⟨change definition, ?_, grown definition⟩
    simp only [amend, Table.get?_adjust]
    rw [if_pos same, ← same, found]
    rfl
  · refine ⟨definition, ?_, .refl definition⟩
    simp only [amend, Table.get?_adjust]
    rw [if_neg same, found]

/-- No declaration takes back what a registry says about a kind. -/
theorem grows_declare (registry : Registry) (declaration : Declaration) :
    registry.Grows (registry.declare declaration) := by
  cases declaration with
  | defineClass path superclass => exact grows_define registry path _ _
  | defineModule path => exact grows_define registry path _ _
  | mixIn path included => exact grows_amend registry path (·.grows_mixIn _)
  | defineMethods path methods => exact grows_amend registry path (·.grows_addMethods methods)
  | defineConstant | defineAlias => exact .refl registry

theorem grows_declareAll (registry : Registry) (declarations : List Declaration) :
    registry.Grows (registry.declareAll declarations) :=
  declareAll_induction (P := fun _ => True) (fun _ _ => trivial) (.refl registry)
    fun between declaration _ grown => grown.trans (grows_declare between declaration)

theorem Declared.includesOnce (h : registry.Declared) : registry.IncludesOnce :=
  h.everyKind
    { classes := fun _ => List.nodup_nil
      modules := List.nodup_nil
      mixIn := fun _ included => Definition.nodup_mixIn included
      addMethods := fun _ _ once => once }

end Steps

/-! ## What grows with a registry -/

section Grows

variable {registry later : Registry} {start kind path method : String} {value : Value}

theorem Grows.defined (h : registry.Grows later) (defined : Defined registry.kinds kind) :
    Defined later.kinds kind := by
  obtain ⟨definition, found⟩ := defined
  obtain ⟨more, found', -⟩ := h kind definition found
  exact ⟨more, found'⟩

theorem Grows.link (h : registry.Grows later) {parent : String}
    (link : Link registry.kinds kind parent) : Link later.kinds kind parent := by
  cases link with
  | superclass found above =>
    obtain ⟨more, found', grown⟩ := h kind _ found
    exact .superclass found' (grown.superclass.trans above)
  | included found above =>
    obtain ⟨more, found', grown⟩ := h kind _ found
    exact .included found' (grown.includes.subset above)

theorem Grows.reaches (h : registry.Grows later) (reaches : Reaches registry.kinds start kind) :
    Reaches later.kinds start kind :=
  ⟨Relation.ReflTransGen.mono (fun _ _ => h.link) _ _ reaches.1, h.defined reaches.2⟩

/-- A path that stands for the same defined kind keeps its ancestors. -/
theorem Grows.ancestors (h : registry.Grows later)
    (same : later.canonicalKind path = registry.canonicalKind path)
    (defined : Defined registry.kinds (registry.canonicalKind path))
    (listed : kind ∈ registry.ancestors path) : kind ∈ later.ancestors path := by
  have defined' : Defined later.kinds (later.canonicalKind path) := same ▸ h.defined defined
  rw [mem_ancestors_of_defined defined', same]
  exact h.reaches ((mem_ancestors_of_defined defined).mp listed)

theorem Grows.hasMethod (h : registry.Grows later) (held : registry.hasMethod kind method = true) :
    later.hasMethod kind method = true := by
  unfold Registry.hasMethod at held ⊢
  split at held
  · next definition found =>
    obtain ⟨more, found', grown⟩ := h kind definition found
    rw [found']
    exact decide_eq_true (grown.methods method (of_decide_eq_true held))
  · cases held

theorem Grows.respondsTo (h : registry.Grows later)
    (same : later.classOf value = registry.classOf value)
    (inherits : ∀ kind ∈ registry.ancestors (registry.classOf value),
      kind ∈ later.ancestors (registry.classOf value))
    (responds : registry.respondsTo value method = true) : later.respondsTo value method = true := by
  unfold Registry.respondsTo at responds ⊢
  rw [Bool.or_eq_true, List.any_eq_true] at responds ⊢
  rw [same]
  refine responds.imp id ?_
  rintro ⟨kind, listed, held⟩
  exact ⟨kind, inherits kind listed, h.hasMethod held⟩

end Grows

/-- Whatever is declared, each defined kind keeps its flavour and its superclass, its modules stay
in front of those that are added, none of them twice, and its methods stay. So a path that stands for
the same defined kind as before keeps its ancestors, and a value whose class has that path answers to
all that it answered before. -/
theorem only_grows {registry : Registry} (declared : registry.Declared)
    (declarations : List Declaration) :
    registry.Grows (registry.declareAll declarations) ∧
      registry.IncludesOnce ∧ (registry.declareAll declarations).IncludesOnce ∧
      ∀ path,
        (registry.declareAll declarations).canonicalKind path = registry.canonicalKind path →
        Defined registry.kinds (registry.canonicalKind path) →
        (∀ kind ∈ registry.ancestors path,
          kind ∈ (registry.declareAll declarations).ancestors path) ∧
        ∀ value method, registry.classOf value = path →
          (registry.declareAll declarations).classOf value = path →
          registry.respondsTo value method = true →
          (registry.declareAll declarations).respondsTo value method = true := by
  have grows := grows_declareAll registry declarations
  refine ⟨grows, declared.includesOnce, (declared.declareAll declarations).includesOnce,
    fun path same defined => ?_⟩
  have inherits : ∀ kind ∈ registry.ancestors path,
      kind ∈ (registry.declareAll declarations).ancestors path :=
    fun kind listed => grows.ancestors same defined listed
  refine ⟨inherits, ?_⟩
  rintro value method rfl same' responds
  exact grows.respondsTo same' inherits responds

/-- A superclass that is defined only later, below its own subclass, and a module that comes in
between. -/
theorem only_grows_dangling :
    ancestors (core.declareAll [.defineClass "Note" "Sheet", .defineClass "Memo" "Note",
        .defineMethods "Note" ["title"]]) "Memo" = ["Memo", "Note"] ∧
      "Note" ∈ ancestors ((core.declareAll [.defineClass "Note" "Sheet",
        .defineClass "Memo" "Note", .defineMethods "Note" ["title"]]).declareAll
          [.defineClass "Sheet" "Memo", .mixIn "Memo" "Comparable"]) "Memo" ∧
      respondsTo ((core.declareAll [.defineClass "Note" "Sheet", .defineClass "Memo" "Note",
        .defineMethods "Note" ["title"]]).declareAll
          [.defineClass "Sheet" "Memo", .mixIn "Memo" "Comparable"])
        (.object ⟨"Memo", .empty, .plain⟩) "title" = true := by
  have grown := (@only_grows (core.declareAll [.defineClass "Note" "Sheet",
    .defineClass "Memo" "Note", .defineMethods "Note" ["title"]]) ⟨_, .inr rfl⟩
    [.defineClass "Sheet" "Memo", .mixIn "Memo" "Comparable"]).2.2.2 "Memo"
    (by decide +kernel) (by decide +kernel)
  exact ⟨by decide +kernel, grown.1 "Note" (by decide +kernel),
    grown.2 (.object ⟨"Memo", .empty, .plain⟩) "title" rfl rfl (by decide +kernel)⟩

end Registry

end DocTypes
