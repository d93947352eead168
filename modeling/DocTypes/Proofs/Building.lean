import DocTypes.Proofs.Lexeme
import DocTypes.Proofs.Reachability
import DocTypes.Registry.Core

/-!
# Registries that are built

What each declaration does to the two tables of a registry, and what holds of all registries that
declarations lead to. A kind is defined after declarations exactly when it was before, or one of them
defines it, and no kind is ever removed (`defined_declareAll`). When the paths of the declarations
have the form of paths, each kind is defined under a relative path (`Built.hasRelativeKinds`). What
new definitions have, and additions to them keep, all definitions have (`Declared.everyKind`).
-/

namespace DocTypes

open Token

/-- The declaration defines the kind, or reopens its definition. -/
def Declaration.Defines (kind : String) : Declaration → Prop
  | .defineClass path _ | .defineModule path => kind = Path.relative path
  | .mixIn _ _ | .defineMethods _ _ | .defineConstant _ _ | .defineAlias _ _ => False

theorem Declaration.Defines.eq {declaration : Declaration} {kind : String}
    (h : declaration.Defines kind) : kind = Path.relative declaration.path := by
  cases declaration <;> first | exact h | exact h.elim

/-! ## Relative paths -/

theorem Path.relative_of_isWord {path : String} {c : Char} {tail : List Char}
    (hc : isWord c = true) (h : path.toList = c :: tail) : relative path = path := by
  unfold relative
  rw [h]
  split
  · next front =>
    cases front
    exact absurd rfl (ne_colon_of_isWord hc)
  · rfl

theorem Path.relative_of_colons {path : String} {rest : List Char}
    (h : path.toList = ':' :: ':' :: rest) : relative path = String.ofList rest := by
  unfold relative
  rw [h]
  rfl

/-- One double colon in front of a path is all that there is to remove. -/
theorem Path.relative_relative {path : String} (form : PathForm path.toList) :
    relative (relative path) = relative path := by
  obtain ⟨words, nonempty, all, either⟩ := form
  obtain ⟨word, words, rfl⟩ := List.exists_cons_of_ne_nil nonempty
  obtain ⟨c, tail, hc, eq⟩ := glue_head (all word (by simp)) words
  rw [eq] at either
  obtain bare | rooted := either
  · rw [relative_of_isWord hc bare, relative_of_isWord hc bare]
  · rw [relative_of_colons rooted, relative_of_isWord hc (String.toList_ofList ..)]

namespace Registry

/-- A path stands for what it is bound to, or for itself. -/
theorem bound_or_canonicalKind_eq (registry : Registry) (path : String) :
    registry.constants.get? (Path.relative path) = some (.kind (registry.canonicalKind path)) ∨
      registry.canonicalKind path = Path.relative path := by
  unfold canonicalKind
  split
  · next found => exact .inl found
  · exact .inr rfl
  · exact .inr rfl

/-! ## What a declaration does -/

section Steps

variable {registry : Registry} {path kind other : String} {flavour : Flavour}
  {superclass : Option String} {change : Definition → Definition}

theorem defined_define :
    Defined (registry.define path flavour superclass).kinds kind ↔
      kind = Path.relative path ∨ Defined registry.kinds kind := by
  unfold Defined define
  simp only [Table.get?_insertNew]
  by_cases same : kind = Path.relative path <;> simp [same]

theorem defined_amend :
    Defined (registry.amend path change).kinds kind ↔ Defined registry.kinds kind := by
  unfold Defined amend
  simp only [Table.get?_adjust]
  by_cases same : kind = Path.relative path
  · simp [same, exists_comm]
  · simp [same]

/-- After a declaration the kinds are defined that were defined before, and the one that the
declaration defines. -/
theorem defined_declare {declaration : Declaration} :
    Defined (registry.declare declaration).kinds kind ↔
      Defined registry.kinds kind ∨ declaration.Defines kind := by
  cases declaration with
  | defineClass | defineModule => exact defined_define.trans or_comm
  | mixIn | defineMethods =>
    simp only [Declaration.Defines, or_false]
    exact defined_amend
  | defineConstant | defineAlias =>
    simp only [Declaration.Defines, or_false]
    rfl

theorem get?_constants_define :
    (registry.define path flavour superclass).constants.get? other =
      if other = Path.relative path then some (.kind (Path.relative path))
      else registry.constants.get? other :=
  Table.get?_insert ..

theorem get?_constants_bind {binding : Binding} :
    (registry.bind path binding).constants.get? other =
      if other = Path.relative path then some binding else registry.constants.get? other :=
  Table.get?_insert ..

end Steps

/-! ## Runs of declarations -/

/-- What a registry has, and each declaration that may come keeps, holds after all declarations. -/
theorem declareAll_induction {P : Declaration → Prop} {Q : Registry → Prop} {start : Registry}
    {declarations : List Declaration} (each : ∀ declaration ∈ declarations, P declaration)
    (begins : Q start)
    (keeps : ∀ registry declaration, P declaration → Q registry → Q (registry.declare declaration)) :
    Q (start.declareAll declarations) := by
  induction declarations generalizing start with
  | nil => exact begins
  | cons declaration declarations ih =>
    obtain ⟨first, later⟩ := List.forall_mem_cons.mp each
    exact ih later (keeps start declaration first begins)

/-- A kind is defined in the end exactly when it was at the start, or one of the declarations defines
it. -/
theorem defined_declareAll {start : Registry} {declarations : List Declaration} {kind : String} :
    Defined (start.declareAll declarations).kinds kind ↔
      Defined start.kinds kind ∨ ∃ declaration ∈ declarations, declaration.Defines kind := by
  induction declarations generalizing start with
  | nil => simp [declareAll]
  | cons declaration declarations ih =>
    have step : start.declareAll (declaration :: declarations) =
      (start.declare declaration).declareAll declarations := rfl
    rw [step, ih, defined_declare, or_assoc]
    simp only [List.mem_cons, exists_eq_or_imp]

/-- Each kind is defined under a relative path. -/
def HasRelativeKinds (registry : Registry) : Prop :=
  ∀ kind, Defined registry.kinds kind → Path.relative kind = kind

theorem HasRelativeKinds.define {registry : Registry} {path : String} (h : registry.HasRelativeKinds)
    (form : PathForm path.toList) (flavour : Flavour) (superclass : Option String) :
    (registry.define path flavour superclass).HasRelativeKinds := by
  intro kind defined
  obtain rfl | before := defined_define.mp defined
  · exact Path.relative_relative form
  · exact h kind before

theorem HasRelativeKinds.declare {registry : Registry} {declaration : Declaration}
    (form : PathForm declaration.path.toList) (h : registry.HasRelativeKinds) :
    (registry.declare declaration).HasRelativeKinds := by
  intro kind defined
  obtain before | defines := defined_declare.mp defined
  · exact h kind before
  · rw [defines.eq]
    exact Path.relative_relative form

/-! ## The core -/

/-- The declarations of a core kind define it, include modules into it and give it methods. -/
theorem cases_of_mem_declarations {kind : CoreKind} {declaration : Declaration}
    (member : declaration ∈ kind.declarations) :
    (∃ superclass, declaration = .defineClass kind.path superclass) ∨
      declaration = .defineModule kind.path ∨
      (∃ included, declaration = .mixIn kind.path included) ∨
      ∃ methods, declaration = .defineMethods kind.path methods := by
  rw [CoreKind.declarations, List.mem_append, List.mem_cons, List.mem_map,
    List.mem_singleton] at member
  obtain (rfl | ⟨included, -, rfl⟩) | rfl := member
  · cases kind.superclass with
    | some superclass => exact .inl ⟨superclass, rfl⟩
    | none => exact .inr (.inl rfl)
  · exact .inr (.inr (.inl ⟨included, rfl⟩))
  · exact .inr (.inr (.inr ⟨_, rfl⟩))

theorem hasRelativeKinds_empty : empty.HasRelativeKinds := by
  rintro kind ⟨definition, found⟩
  cases found

theorem pathForm_of_mem_core {declaration : Declaration}
    (member : declaration ∈ .defineMethods "BasicObject" basicMethods ::
      coreKinds.flatMap CoreKind.declarations) : PathForm declaration.path.toList := by
  have forms : ∀ kind ∈ coreKinds, PathForm kind.path.toList := by decide +kernel
  obtain rfl | kinds := List.mem_cons.mp member
  · decide
  · obtain ⟨kind, listed, here⟩ := List.mem_flatMap.mp kinds
    have path : declaration.path = kind.path := by
      obtain ⟨_, rfl⟩ | rfl | ⟨_, rfl⟩ | ⟨_, rfl⟩ := cases_of_mem_declarations here <;> rfl
    exact path ▸ forms kind listed

theorem hasRelativeKinds_core : core.HasRelativeKinds := by
  have base : (empty.define "BasicObject" .instantiable none).HasRelativeKinds :=
    hasRelativeKinds_empty.define (by decide) .instantiable none
  have kinds := declareAll_induction (fun _ => pathForm_of_mem_core) base
    fun _ _ form => HasRelativeKinds.declare form
  exact declareAll_induction (by decide) kinds fun _ _ form => HasRelativeKinds.declare form

/-- The registry is built from the empty one or from the core, by declarations about paths in the
form of paths. -/
def Built (registry : Registry) : Prop :=
  ∃ declarations : List Declaration,
    (∀ declaration ∈ declarations, PathForm declaration.path.toList) ∧
      (registry = empty.declareAll declarations ∨ registry = core.declareAll declarations)

theorem Built.hasRelativeKinds {registry : Registry} (h : registry.Built) :
    registry.HasRelativeKinds := by
  obtain ⟨declarations, forms, rfl | rfl⟩ := h
  · exact declareAll_induction forms hasRelativeKinds_empty fun _ _ form =>
      HasRelativeKinds.declare form
  · exact declareAll_induction forms hasRelativeKinds_core fun _ _ form =>
      HasRelativeKinds.declare form

/-! ## What all definitions have -/

/-- The registry comes from the empty one or from the core by declarations, whatever their paths
are. -/
def Declared (registry : Registry) : Prop :=
  ∃ declarations, registry = empty.declareAll declarations ∨
    registry = core.declareAll declarations

/-- Each definition of the registry has the property. -/
def EveryKind (P : Definition → Prop) (registry : Registry) : Prop :=
  ∀ kind definition, registry.kinds.get? kind = some definition → P definition

/-- New definitions have the property, and modules and methods that are added to a definition keep
it. -/
structure Persists (P : Definition → Prop) : Prop where
  classes : ∀ superclass, P (.plain .instantiable superclass)
  modules : P (.plain .mixin none)
  mixIn : ∀ definition included, P definition → P (definition.mixIn included)
  addMethods : ∀ definition methods, P definition → P (definition.addMethods methods)

section EveryKind

variable {P : Definition → Prop} {registry : Registry}

theorem EveryKind.define {flavour : Flavour} {superclass : Option String}
    (h : registry.EveryKind P) (new : P (.plain flavour (superclass.map Path.relative)))
    (path : String) : (registry.define path flavour superclass).EveryKind P := by
  intro kind definition found
  simp only [Registry.define, Table.get?_insertNew] at found
  by_cases same : kind = Path.relative path
  · rw [if_pos same] at found
    cases before : registry.kinds.get? (Path.relative path) with
    | none =>
      rw [before] at found
      cases found
      exact new
    | some old =>
      rw [before] at found
      cases found
      exact h _ old before
  · rw [if_neg same] at found
    exact h kind definition found

theorem EveryKind.amend {change : Definition → Definition} (h : registry.EveryKind P)
    (keeps : ∀ definition, P definition → P (change definition)) (path : String) :
    (registry.amend path change).EveryKind P := by
  intro kind definition found
  simp only [Registry.amend, Table.get?_adjust] at found
  by_cases same : kind = Path.relative path
  · rw [if_pos same] at found
    obtain ⟨old, before, rfl⟩ := Option.map_eq_some_iff.mp found
    exact keeps old (h _ old before)
  · rw [if_neg same] at found
    exact h kind definition found

theorem EveryKind.declare (persists : Persists P) (h : registry.EveryKind P)
    (declaration : Declaration) : (registry.declare declaration).EveryKind P := by
  cases declaration with
  | defineClass path superclass => exact h.define (persists.classes _) path
  | defineModule path => exact h.define persists.modules path
  | mixIn path included => exact h.amend (persists.mixIn · _) path
  | defineMethods path methods => exact h.amend (persists.addMethods · methods) path
  | defineConstant | defineAlias => exact h

theorem EveryKind.declareAll (persists : Persists P) (h : registry.EveryKind P)
    (declarations : List Declaration) : (registry.declareAll declarations).EveryKind P :=
  declareAll_induction (P := fun _ => True) (fun _ _ => trivial) h
    fun _ declaration _ kept => kept.declare persists declaration

/-- A property that persists holds of all definitions of a registry that was declared. -/
theorem Declared.everyKind (persists : Persists P) (h : registry.Declared) :
    registry.EveryKind P := by
  have none : empty.EveryKind P := by
    intro kind definition found
    cases found
  have core : core.EveryKind P :=
    ((none.define (persists.classes _) "BasicObject").declareAll persists _).declareAll persists _
  obtain ⟨declarations, rfl | rfl⟩ := h
  · exact none.declareAll persists declarations
  · exact core.declareAll persists declarations

theorem Declared.declareAll (h : registry.Declared) (declarations : List Declaration) :
    (registry.declareAll declarations).Declared := by
  obtain ⟨earlier, start⟩ := h
  refine ⟨earlier ++ declarations, start.imp ?_ ?_⟩ <;>
    rintro rfl <;> exact (List.foldl_append ..).symm

end EveryKind

end Registry

end DocTypes
