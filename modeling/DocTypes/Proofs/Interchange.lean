import DocTypes.Proofs.Agreement

/-!
# Names in declarations

A declaration takes each name for the kind that is defined under it, whatever the name is bound to. So
another name for a kind does not do for the kind's own path: with a superclass given under another
name, a class has no superclass (`interchangeable_iff`).

A link to a name under which no kind is defined makes no difference to any answer
(`SameAnswers.of_sameKinds`): a walk passes over it.
-/

namespace DocTypes.Registry

open Token

/-! ## Links that lead nowhere -/

section Walk

variable {kinds others : Table Definition} {path : String} {definition : Definition}
  {pending : List String}

theorem walk_of_found (found : kinds.get? path = some definition) (pending : List String) :
    walk kinds (path :: pending) =
      path :: walk (kinds.erase path) (definition.parents ++ pending) := by
  rw [walk]
  split
  · next other here =>
    cases found.symm.trans here
    rfl
  · next missing => cases missing.symm.trans found

theorem walk_of_missing (missing : kinds.contains path = false) (pending : List String) :
    walk kinds (path :: pending) = walk kinds pending := by
  rw [walk]
  split
  · next found => simp [Table.contains, found] at missing
  · rfl

/-- A walk passes over what is not defined. -/
theorem walk_append_of_missing {skipped : List String}
    (missing : ∀ path ∈ skipped, kinds.contains path = false) (pending : List String) :
    walk kinds (skipped ++ pending) = walk kinds pending := by
  induction skipped with
  | nil => rfl
  | cons path skipped ih =>
    obtain ⟨here, later⟩ := List.forall_mem_cons.mp missing
    rw [List.cons_append, walk_of_missing here, ih later]

/-- The parents of a definition that are defined. -/
def liveParents (kinds : Table Definition) (definition : Definition) : List String :=
  definition.parents.filter kinds.contains

/-- Tables in which the definitions agree in some respect define the same kinds. -/
theorem contains_congr {α : Type} {f g : Definition → α}
    (same : ∀ name, (kinds.get? name).map f = (others.get? name).map g) :
    kinds.contains = others.contains := by
  funext name
  simpa [Table.contains] using congrArg Option.isSome (same name)

theorem liveParents_congr (contains : kinds.contains = others.contains) :
    liveParents kinds = liveParents others := by
  funext definition
  rw [liveParents, contains, liveParents]

/-- The same kinds are defined in two tables, and they have the same defined parents. -/
def SameLinks (kinds others : Table Definition) : Prop :=
  ∀ name, (kinds.get? name).map (liveParents kinds) = (others.get? name).map (liveParents others)

theorem SameLinks.contains (same : SameLinks kinds others) : kinds.contains = others.contains :=
  contains_congr same

theorem contains_erase (kinds : Table Definition) (path name : String) :
    (kinds.erase path).contains name = (decide (name ≠ path) && kinds.contains name) := by
  rw [Table.contains, Table.get?_erase]
  by_cases visited : name = path <;> simp [visited, Table.contains]

theorem filter_contains_erase (kinds : Table Definition) (path : String) (names : List String) :
    names.filter (kinds.erase path).contains =
      (names.filter kinds.contains).filter (decide <| · ≠ path) := by
  rw [List.filter_filter]
  exact List.filter_congr fun name _ => contains_erase kinds path name

theorem SameLinks.erase (same : SameLinks kinds others) (path : String) :
    SameLinks (kinds.erase path) (others.erase path) := by
  intro name
  by_cases visited : name = path
  · simp [Table.get?_erase, visited]
  · have live : ∀ table, List.filter (decide <| · ≠ path) ∘ liveParents table =
        liveParents (table.erase path) :=
      fun table => funext fun definition =>
        (filter_contains_erase table path definition.parents).symm
    have here := congrArg (Option.map (List.filter (decide <| · ≠ path))) (same name)
    rw [Option.map_map, Option.map_map, live, live] at here
    rwa [Table.get?_erase, Table.get?_erase, if_neg visited, if_neg visited]

/-- A walk depends on the defined kinds and the links between them alone. -/
theorem walk_congr {waiting : List String} (same : SameLinks kinds others)
    (starts : pending.filter kinds.contains = waiting.filter others.contains) :
    walk kinds pending = walk others waiting := by
  fun_induction walk kinds pending generalizing others waiting with
  | case1 =>
    have missing : ∀ path ∈ waiting, others.contains path = false := by
      simpa using starts.symm
    have nothing := walk_append_of_missing missing []
    rw [List.append_nil] at nothing
    rw [nothing, walk]
  | case2 kinds path pending definition found ih =>
    rw [List.filter_cons_of_pos (by simp [Table.contains, found])] at starts
    obtain ⟨skipped, rest, rfl, missing, present, left⟩ := List.filter_eq_cons_iff.mp starts.symm
    obtain ⟨other, there⟩ := Option.isSome_iff_exists.mp present
    have parents : liveParents kinds definition = liveParents others other := by
      have here := same path
      rwa [found, there, Option.map_some, Option.map_some, Option.some_inj] at here
    -- The other walk comes to the same path once it has passed over what is not defined.
    have skip := walk_append_of_missing (by simpa using missing) (path :: rest)
    rw [skip, walk_of_found there]
    refine congrArg _ (ih (same.erase path) ?_)
    rw [filter_contains_erase, filter_contains_erase]
    refine congrArg (List.filter _) ?_
    rw [List.filter_append, List.filter_append, left]
    exact congrArg (· ++ _) parents
  | case3 kinds path pending missing ih =>
    rw [List.filter_cons_of_neg (by simp [Table.contains, missing])] at starts
    exact ih same starts

end Walk

/-! ## Registries with the same answers -/

/-- Two registries give the same ancestors to every path, and the same kinds and methods to every
value. -/
structure SameAnswers (registry other : Registry) : Prop where
  ancestors : ∀ path, registry.ancestors path = other.ancestors path
  isKindOf : ∀ value kind, registry.isKindOf value kind = other.isKindOf value kind
  respondsTo : ∀ value method, registry.respondsTo value method = other.respondsTo value method

/-- The kinds of two tables are of the same flavours, have the same methods, and the same defined
parents. -/
structure SameKinds (kinds others : Table Definition) : Prop where
  links : SameLinks kinds others
  flavours : ∀ name, (kinds.get? name).map Definition.flavour =
    (others.get? name).map Definition.flavour
  methods : ∀ name, (kinds.get? name).map Definition.methods =
    (others.get? name).map Definition.methods

section Answers

variable {registry other : Registry} {kinds others : Table Definition} {path name : String}

theorem SameAnswers.refl (registry : Registry) : SameAnswers registry registry :=
  ⟨fun _ => rfl, fun _ _ => rfl, fun _ _ => rfl⟩

theorem classOf_congr (flavours : ∀ path, registry.flavour? path = other.flavour? path)
    (value : Value) : registry.classOf value = other.classOf value := by
  cases value with
  | bool truth => cases truth <;> rfl
  | kind handle => simp only [classOf, flavours]
  | _ => rfl

/-- The answers of a registry depend on what paths stand for and on the defined kinds, with the links
between them. -/
theorem SameAnswers.of_sameKinds
    (stands : ∀ path, registry.canonicalKind path = other.canonicalKind path)
    (same : SameKinds registry.kinds other.kinds) : SameAnswers registry other := by
  have walks : ∀ start, walk registry.kinds [start] = walk other.kinds [start] :=
    fun start => walk_congr same.links (by rw [same.links.contains])
  have ancestors : ∀ path, registry.ancestors path = other.ancestors path := by
    intro path
    simp only [Registry.ancestors, stands, same.links.contains, walks]
  have flavours : ∀ path, registry.flavour? path = other.flavour? path := by
    intro path
    simp only [flavour?, definition?, stands, same.flavours]
  have classes := classOf_congr flavours
  have methods : registry.hasMethod = other.hasMethod := by
    funext kind method
    have here := same.methods kind
    unfold hasMethod
    cases left : registry.kinds.get? kind <;> cases right : other.kinds.get? kind <;>
      simp_all
  refine ⟨ancestors, fun value kind => ?_, fun value method => ?_⟩
  · rw [Registry.isKindOf, Registry.isKindOf, stands, classes, ancestors]
  · rw [Registry.respondsTo, Registry.respondsTo, classes, ancestors, methods]

/-- What a table says of a definition, as far as the answers of a registry go. -/
def outline (kinds : Table Definition) (definition : Definition) :
    Flavour × NameSet × List String :=
  (definition.flavour, definition.methods, liveParents kinds definition)

theorem SameKinds.of_outline (same : ∀ name,
    (kinds.get? name).map (outline others) = (others.get? name).map (outline others)) :
    SameKinds kinds others := by
  have live := liveParents_congr (contains_congr same)
  refine ⟨fun name => ?_, fun name => ?_, fun name => ?_⟩
  · rw [live]
    simpa [Function.comp_def, outline] using congrArg (Option.map (·.2.2)) (same name)
  · simpa [Function.comp_def, outline] using congrArg (Option.map (·.1)) (same name)
  · simpa [Function.comp_def, outline] using congrArg (Option.map (·.2.1)) (same name)

/-- A change to a definition that keeps its outline. -/
theorem SameKinds.adjust {change : Definition → Definition}
    (keeps : ∀ definition, outline kinds (change definition) = outline kinds definition) :
    SameKinds (kinds.adjust name change) kinds := by
  refine .of_outline fun path => ?_
  rw [Table.get?_adjust]
  by_cases here : path = name
  · rw [if_pos here, here, Option.map_map]
    exact congrArg (Option.map · _) (funext keeps)
  · rw [if_neg here]

/-- New definitions under one name that have the same outline. -/
theorem SameKinds.insertNew {definition instead : Definition}
    (same : outline (kinds.insertNew name instead) definition =
      outline (kinds.insertNew name instead) instead) :
    SameKinds (kinds.insertNew name definition) (kinds.insertNew name instead) := by
  refine .of_outline fun path => ?_
  rw [Table.get?_insertNew, Table.get?_insertNew]
  by_cases here : path = name
  · rw [if_pos here, if_pos here]
    cases kinds.get? name with
    | none => exact congrArg some same
    | some old => rfl
  · rw [if_neg here, if_neg here]

/-! ## Names under which no kind is defined -/

theorem amend_of_missing (missing : ¬ Defined registry.kinds (Path.relative path))
    (change : Definition → Definition) : registry.amend path change = registry := by
  rw [amend, Table.adjust, get?_eq_none_iff.mpr missing]

/-- To include a module that is not defined changes no answer. -/
theorem sameAnswers_mixIn (missing : ¬ Defined registry.kinds (Path.relative name))
    (path : String) : SameAnswers (registry.declare (.mixIn path name)) registry := by
  refine .of_sameKinds (fun _ => rfl) (SameKinds.adjust fun definition => ?_)
  have absent : registry.kinds.contains (Path.relative name) = false :=
    contains_eq_false_iff.mpr missing
  unfold Definition.mixIn
  split
  · rfl
  · simp [outline, liveParents, Definition.parents, absent]

/-- A class with a superclass that is not defined answers as one without a superclass. -/
theorem sameAnswers_defineClass (missing : ¬ Defined registry.kinds (Path.relative name))
    (ne : Path.relative name ≠ Path.relative path) :
    SameAnswers (registry.declare (.defineClass path name))
      (registry.define path .instantiable none) := by
  refine .of_sameKinds (fun _ => rfl) (SameKinds.insertNew ?_)
  have absent : (registry.define path .instantiable none).kinds.contains (Path.relative name) =
      false := by
    refine contains_eq_false_iff.mpr fun defined => ?_
    obtain same | before := defined_define.mp defined
    · exact ne same
    · exact missing before
  have nothing : [Path.relative name].filter
      (registry.define path .instantiable none).kinds.contains = [] := by
    rw [List.filter_cons_of_neg (by simp [absent]), List.filter_nil]
  exact congrArg (Flavour.instantiable, NameSet.empty, ·) nothing

end Answers

/-! ## Another name for a kind -/

section Interchange

variable {registry : Registry} {path name kind superclass : String} {handle : Handle}

/-- Wherever a declaration names a kind, the two names lead to registries with the same answers: as
the kind that gets methods or includes a module, as the included module, and as the superclass of a new
class. -/
structure Interchangeable (registry : Registry) (name other : String) : Prop where
  owner : ∀ methods, SameAnswers (registry.declare (.defineMethods name methods))
    (registry.declare (.defineMethods other methods))
  includer : ∀ included, SameAnswers (registry.declare (.mixIn name included))
    (registry.declare (.mixIn other included))
  included : ∀ path, SameAnswers (registry.declare (.mixIn path name))
    (registry.declare (.mixIn path other))
  superclass : ∀ path, registry.Fresh path →
    SameAnswers (registry.declare (.defineClass path name))
      (registry.declare (.defineClass path other))

theorem get?_of_resolve_word (word : WordForm name.toList)
    (found : registry.resolve name = .kind handle) :
    registry.constants.get? name = some (.kind handle.path) := by
  rw [resolve_word word] at found
  simpa using get?_of_resolveSegments found

/-- The ancestors of a new class are the class itself and those of its superclass. -/
theorem ancestors_defineClass (fresh : registry.Fresh path) :
    (registry.declare (.defineClass path superclass)).ancestors path =
      Path.relative path :: walk ((registry.declare (.defineClass path superclass)).kinds.erase
        (Path.relative path)) [Path.relative superclass] := by
  have stands : (registry.declare (.defineClass path superclass)).canonicalKind path =
      Path.relative path := by
    rw [canonicalKind, declare, get?_constants_define, if_pos rfl]
  have found : (registry.declare (.defineClass path superclass)).kinds.get? (Path.relative path) =
      some (.plain .instantiable (some (Path.relative superclass))) := by
    rw [declare, define, Table.get?_insertNew, if_pos rfl, get?_eq_none_iff.mpr fresh.2]
    rfl
  rw [ancestors_of_defined (by rw [stands]; exact ⟨_, found⟩), stands, walk_of_found found]
  rfl

/-- A walk that starts somewhere else lists another kind first. -/
theorem eq_of_head?_walk {kinds : Table Definition} {start : String}
    (first : (walk kinds [start]).head? = some kind) : start = kind := by
  by_cases defined : Defined kinds start
  · rw [head?_walk_singleton defined] at first
    exact Option.some.inj first
  · rw [walk_of_missing (contains_eq_false_iff.mpr defined), walk] at first
    cases first

/-- A superclass under another name is not the superclass. -/
theorem eq_of_sameAnswers_defineClass (fresh : registry.Fresh path)
    (defined : Defined registry.kinds (Path.relative kind))
    (same : SameAnswers (registry.declare (.defineClass path name))
      (registry.declare (.defineClass path kind))) : Path.relative name = Path.relative kind := by
  have lists := same.ancestors path
  rw [ancestors_defineClass fresh, ancestors_defineClass fresh, List.cons.injEq] at lists
  have there : Defined ((registry.declare (.defineClass path kind)).kinds.erase
      (Path.relative path)) (Path.relative kind) := by
    refine defined_erase_iff.mpr ⟨?_, defined_define.mpr (.inr defined)⟩
    intro new
    exact fresh.2 (new ▸ defined)
  exact eq_of_head?_walk ((congrArg List.head? lists.2).trans (head?_walk_singleton there))

/-- A word that resolves to a defined kind is interchangeable with the kind's own path only if it is
this path.

Any other word, unless a kind is defined under it as well, is to a declaration the name of nothing:
methods and modules for it are given to no kind, a kind that includes it includes nothing more, and a
class with this superclass has none. -/
theorem interchangeable_iff (built : registry.Built) (word : WordForm name.toList)
    (found : registry.resolve name = .kind ⟨kind⟩) (defined : Defined registry.kinds kind) :
    (registry.Interchangeable name kind ↔ name = kind) ∧
      (¬ Defined registry.kinds name →
        (∀ methods, registry.declare (.defineMethods name methods) = registry) ∧
        (∀ included, registry.declare (.mixIn name included) = registry) ∧
        (∀ path, SameAnswers (registry.declare (.mixIn path name)) registry) ∧
        ∀ path, registry.Fresh path → SameAnswers (registry.declare (.defineClass path name))
          (registry.define path .instantiable none)) := by
  have own := built.hasRelativeKinds kind defined
  have self := Path.relative_word word
  refine ⟨⟨fun interchangeable => ?_, ?_⟩, fun missing => ?_⟩
  · obtain ⟨path, -, fresh⟩ := exists_fresh registry
    have same := eq_of_sameAnswers_defineClass fresh (by rwa [own])
      (interchangeable.superclass path fresh)
    rwa [self, own] at same
  · rintro rfl
    exact ⟨fun _ => .refl _, fun _ => .refl _, fun _ => .refl _, fun _ _ => .refl _⟩
  · rw [← self] at missing
    refine ⟨fun methods => amend_of_missing missing _, fun included => amend_of_missing missing _,
      sameAnswers_mixIn missing, fun path fresh => sameAnswers_defineClass missing fun same => ?_⟩
    have bound := get?_of_resolve_word word found
    rw [← self, same, fresh.1] at bound
    cases bound

/-- To a declaration, another name for the integer class is the name of nothing. -/
theorem interchangeable_fixnum :
    core.resolve "Fixnum" = .kind ⟨"Integer"⟩ ∧ Defined core.kinds "Integer" ∧
      ¬ core.Interchangeable "Fixnum" "Integer" ∧
      ∀ included, core.declare (.mixIn "Fixnum" included) = core := by
  have built : core.Built := ⟨[], by simp, .inr (by rw [declareAll, List.foldl_nil])⟩
  have found : core.resolve "Fixnum" = .kind ⟨"Integer"⟩ := by decide +kernel
  have defined : Defined core.kinds "Integer" := by decide +kernel
  have missing : ¬ Defined core.kinds "Fixnum" := by decide +kernel
  obtain ⟨same, lost⟩ := interchangeable_iff built (by decide) found defined
  exact ⟨found, defined, mt same.mp (by decide), (lost missing).2.1⟩

/-- Methods for the integer class do not reach the integers under its other name, a module does not
either, and a class under it has only itself as an ancestor. -/
theorem fixnum_not_integer :
    core.resolve "Fixnum" = .kind ⟨"Integer"⟩ ∧
      Defined core.kinds "Integer" ∧ core.constants.get? "Integer" = some (.kind "Integer") ∧
      (core.declare (.defineMethods "Fixnum" ["half"])).respondsTo (.integer 1) "half" = false ∧
      (core.declare (.defineMethods "Integer" ["half"])).respondsTo (.integer 1) "half" = true ∧
      (core.declare (.mixIn "Fixnum" "Math")).isKindOf (.integer 1) ⟨"Math"⟩ = false ∧
      (core.declare (.mixIn "Integer" "Math")).isKindOf (.integer 1) ⟨"Math"⟩ = true ∧
      (core.declare (.defineClass "Count" "Fixnum")).ancestors "Count" = ["Count"] ∧
      (core.declare (.defineClass "Count" "Integer")).ancestors "Count" =
        ["Count", "Integer", "Numeric", "Comparable", "Object", "Kernel", "BasicObject"] := by
  decide +kernel

end Interchange

end DocTypes.Registry
