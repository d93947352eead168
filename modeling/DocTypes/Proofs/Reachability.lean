import Mathlib.Logic.Relation
import DocTypes.Registry.Ancestors
import DocTypes.Registry.Declaration

/-!
# Ancestors are what can be reached

The superclass and the included modules of a kind are its links, and the ancestors of a kind are the
defined kinds that its links lead to, each listed once (`ancestors_reachable`). Nothing is assumed of
the links: they may lead to kinds that are not defined, and in circles.

A walk holds the definitions that were not visited yet. What it lists is what can be reached within
these (`mem_walk_iff`): a way that passes through a visited kind can be cut short, because all that
follows the last visit is reached from the parents of that kind.
-/

namespace DocTypes.Registry

open Relation

/-- A kind is linked to its superclass and to the modules that it includes. -/
inductive Link (kinds : Table Definition) : String → String → Prop
  | superclass {kind superclass : String} {definition : Definition} :
      kinds.get? kind = some definition → definition.superclass = some superclass →
      Link kinds kind superclass
  | included {kind included : String} {definition : Definition} :
      kinds.get? kind = some definition → included ∈ definition.includes →
      Link kinds kind included

/-- A kind is defined under the path. -/
def Defined (kinds : Table Definition) (kind : String) : Prop :=
  ∃ definition, kinds.get? kind = some definition

theorem contains_iff_defined {kinds : Table Definition} {kind : String} :
    kinds.contains kind = true ↔ Defined kinds kind :=
  Option.isSome_iff_exists

theorem contains_eq_false_iff {kinds : Table Definition} {kind : String} :
    kinds.contains kind = false ↔ ¬ Defined kinds kind := by
  rw [← contains_iff_defined, Bool.not_eq_true]

theorem get?_eq_none_iff {kinds : Table Definition} {kind : String} :
    kinds.get? kind = none ↔ ¬ Defined kinds kind := by
  rw [← contains_iff_defined, Table.contains, Option.not_isSome_iff_eq_none]

instance (kinds : Table Definition) (kind : String) : Decidable (Defined kinds kind) :=
  decidable_of_iff (kinds.contains kind = true) contains_iff_defined

/-- The second kind is defined, and links lead to it from the first. All kinds on the way are defined
then, for others have no links. -/
def Reaches (kinds : Table Definition) (start kind : String) : Prop :=
  ReflTransGen (Link kinds) start kind ∧ Defined kinds kind

section Walk

variable {kinds : Table Definition} {start kind path : String} {definition : Definition}

theorem mem_parents_iff {definition : Definition} {parent : String} :
    parent ∈ definition.parents ↔
      definition.superclass = some parent ∨ parent ∈ definition.includes := by
  rw [Definition.parents, List.mem_append, List.mem_reverse, Option.mem_toList]
  exact Or.comm

theorem link_iff (found : kinds.get? kind = some definition) {parent : String} :
    Link kinds kind parent ↔ parent ∈ definition.parents := by
  rw [mem_parents_iff]
  constructor
  · rintro (⟨here, above⟩ | ⟨here, above⟩) <;> cases found.symm.trans here
    · exact .inl above
    · exact .inr above
  · rintro (above | above)
    · exact .superclass found above
    · exact .included found above

theorem Link.defined {parent : String} (h : Link kinds kind parent) : Defined kinds kind := by
  cases h with
  | superclass found _ => exact ⟨_, found⟩
  | included found _ => exact ⟨_, found⟩

instance (kinds : Table Definition) (kind parent : String) : Decidable (Link kinds kind parent) :=
  decidable_of_iff (∃ definition ∈ kinds.get? kind, parent ∈ definition.parents) <| by
    constructor
    · rintro ⟨definition, found, above⟩
      exact (link_iff found).mpr above
    · intro link
      obtain ⟨definition, found⟩ := link.defined
      exact ⟨definition, found, (link_iff found).mp link⟩

theorem Reaches.refl (h : Defined kinds kind) : Reaches kinds kind kind :=
  ⟨.refl, h⟩

theorem Reaches.trans {middle : String} (first : Reaches kinds start middle)
    (second : Reaches kinds middle kind) : Reaches kinds start kind :=
  ⟨first.1.trans second.1, second.2⟩

/-- Links lead away only from what is defined. -/
theorem Reaches.start_defined (h : Reaches kinds start kind) : Defined kinds start := by
  obtain ⟨way, there⟩ := h
  cases way.cases_head with
  | inl same => exact same ▸ there
  | inr first => exact first.choose_spec.1.defined

/-! ### Without a visited kind -/

theorem get?_erase_eq_some_iff :
    (kinds.erase path).get? kind = some definition ↔
      kind ≠ path ∧ kinds.get? kind = some definition := by
  rw [Table.get?_erase]
  by_cases same : kind = path <;> simp [same]

theorem defined_erase_iff : Defined (kinds.erase path) kind ↔ kind ≠ path ∧ Defined kinds kind := by
  simp only [Defined, get?_erase_eq_some_iff, exists_and_left]

theorem link_erase_iff {parent : String} :
    Link (kinds.erase path) kind parent ↔ kind ≠ path ∧ Link kinds kind parent := by
  constructor
  · rintro (⟨here, above⟩ | ⟨here, above⟩) <;> obtain ⟨ne, found⟩ := get?_erase_eq_some_iff.mp here
    · exact ⟨ne, .superclass found above⟩
    · exact ⟨ne, .included found above⟩
  · rintro ⟨ne, ⟨found, above⟩ | ⟨found, above⟩⟩
    · exact .superclass (get?_erase_eq_some_iff.mpr ⟨ne, found⟩) above
    · exact .included (get?_erase_eq_some_iff.mpr ⟨ne, found⟩) above

theorem Reaches.of_erase (h : Reaches (kinds.erase path) start kind) : Reaches kinds start kind :=
  ⟨ReflTransGen.mono (fun _ _ link => (link_erase_iff.mp link).2) _ _ h.1,
    (defined_erase_iff.mp h.2).2⟩

/-- What can be reached is a visited kind itself, or it is reached without this kind, from where the
way began or from a parent of the kind. -/
theorem Reaches.erase (found : kinds.get? path = some definition) (h : Reaches kinds start kind) :
    kind = path ∨ Reaches (kinds.erase path) start kind ∨
      ∃ parent ∈ definition.parents, Reaches (kinds.erase path) parent kind := by
  obtain ⟨way, there⟩ := h
  by_cases same : kind = path
  · exact .inl same
  · right
    have later : Defined (kinds.erase path) kind := defined_erase_iff.mpr ⟨same, there⟩
    -- Along the way from its end: a step away from the visited kind leads to a parent of it.
    induction way using ReflTransGen.head_induction_on with
    | refl => exact .inl (.refl later)
    | @head here next link _ ih =>
      obtain rest | through := ih
      · by_cases visited : here = path
        · subst visited
          exact .inr ⟨next, (link_iff found).mp link, rest⟩
        · exact .inl ⟨.head (link_erase_iff.mpr ⟨visited, link⟩) rest.1, later⟩
      · exact .inr through

/-! ### The kinds that a walk lists -/

/-- A walk lists what can be reached from the kinds that it was given. -/
theorem mem_walk_iff {unvisited : Table Definition} {pending : List String} :
    kind ∈ walk unvisited pending ↔ ∃ start ∈ pending, Reaches unvisited start kind := by
  fun_induction walk unvisited pending with
  | case1 => simp
  | case2 unvisited path pending definition found ih =>
    rw [List.mem_cons, ih]
    constructor
    · rintro (rfl | ⟨start, listed, reaches⟩)
      · exact ⟨kind, List.mem_cons_self, .refl ⟨definition, found⟩⟩
      · obtain parent | waiting := List.mem_append.mp listed
        · have link := (link_iff found).mpr parent
          exact ⟨path, List.mem_cons_self, .head link reaches.of_erase.1, reaches.of_erase.2⟩
        · exact ⟨start, List.mem_cons_of_mem path waiting, reaches.of_erase⟩
    · rintro ⟨start, listed, reaches⟩
      obtain rfl | straight | ⟨parent, above, rest⟩ := reaches.erase found
      · exact .inl rfl
      · obtain rfl | waiting := List.mem_cons.mp listed
        · exact absurd rfl (defined_erase_iff.mp straight.start_defined).1
        · exact .inr ⟨start, List.mem_append_right _ waiting, straight⟩
      · exact .inr ⟨parent, List.mem_append_left _ above, rest⟩
  | case3 unvisited path pending missing ih =>
    rw [ih]
    constructor
    · rintro ⟨start, waiting, reaches⟩
      exact ⟨start, List.mem_cons_of_mem path waiting, reaches⟩
    · rintro ⟨start, listed, reaches⟩
      obtain rfl | waiting := List.mem_cons.mp listed
      · obtain ⟨definition, found⟩ := reaches.start_defined
        cases missing.symm.trans found
      · exact ⟨start, waiting, reaches⟩

theorem nodup_walk (unvisited : Table Definition) (pending : List String) :
    (walk unvisited pending).Nodup := by
  fun_induction walk unvisited pending with
  | case1 => exact List.nodup_nil
  | case2 unvisited path pending definition found ih =>
    refine List.nodup_cons.mpr ⟨fun again => ?_, ih⟩
    obtain ⟨_, _, _, defined⟩ := mem_walk_iff.mp again
    exact (defined_erase_iff.mp defined).1 rfl
  | case3 unvisited path pending missing ih => exact ih

theorem mem_walk_singleton_iff : kind ∈ walk kinds [start] ↔ Reaches kinds start kind := by
  simp [mem_walk_iff]

theorem head?_walk_singleton (h : Defined kinds start) :
    (walk kinds [start]).head? = some start := by
  obtain ⟨definition, found⟩ := h
  rw [walk]
  split
  · rfl
  · next missing => cases missing.symm.trans found

end Walk

/-! ## Ancestors -/

section Ancestors

variable {registry : Registry} {path kind : String}

theorem ancestors_of_defined (h : Defined registry.kinds (registry.canonicalKind path)) :
    registry.ancestors path = walk registry.kinds [registry.canonicalKind path] :=
  if_pos (contains_iff_defined.mpr h)

theorem ancestors_of_missing (h : ¬ Defined registry.kinds (registry.canonicalKind path)) :
    registry.ancestors path =
      registry.canonicalKind path :: walk registry.kinds [rootClass] :=
  if_neg (mt contains_iff_defined.mp h)

theorem mem_ancestors_of_defined (h : Defined registry.kinds (registry.canonicalKind path)) :
    kind ∈ registry.ancestors path ↔
      Reaches registry.kinds (registry.canonicalKind path) kind := by
  rw [ancestors_of_defined h, mem_walk_singleton_iff]

theorem mem_ancestors_of_missing (h : ¬ Defined registry.kinds (registry.canonicalKind path)) :
    kind ∈ registry.ancestors path ↔
      kind = registry.canonicalKind path ∨ Reaches registry.kinds rootClass kind := by
  rw [ancestors_of_missing h, List.mem_cons, mem_walk_singleton_iff]

/-- The kinds after the first are defined. -/
theorem eq_or_defined_of_mem_ancestors (h : kind ∈ registry.ancestors path) :
    kind = registry.canonicalKind path ∨ Defined registry.kinds kind := by
  by_cases defined : Defined registry.kinds (registry.canonicalKind path)
  · exact .inr ((mem_ancestors_of_defined defined).mp h).2
  · exact ((mem_ancestors_of_missing defined).mp h).imp id And.right

/-- The ancestors of an ancestor are ancestors. -/
theorem ancestors_trans {below : String} (first : registry.canonicalKind path ∈ registry.ancestors below)
    (second : kind ∈ registry.ancestors path) : kind ∈ registry.ancestors below := by
  by_cases defined : Defined registry.kinds (registry.canonicalKind below)
  · rw [mem_ancestors_of_defined defined] at first ⊢
    rw [mem_ancestors_of_defined first.2] at second
    exact first.trans second
  · rw [mem_ancestors_of_missing defined] at first ⊢
    obtain same | reaches := first
    · rwa [mem_ancestors_of_missing (same ▸ defined), same] at second
    · rw [mem_ancestors_of_defined reaches.2] at second
      exact .inr (reaches.trans second)

end Ancestors

/-- Whatever the links of a registry are, the ancestors of a path are listed once each, and the kind
that the path stands for comes first. If that kind is defined, its ancestors are the defined kinds
that can be reached from it. If not, those that can be reached from the root class follow it, which
are none unless the root class is defined. -/
theorem ancestors_reachable (registry : Registry) (path : String) :
    (registry.ancestors path).Nodup ∧
      (registry.ancestors path).head? = some (registry.canonicalKind path) ∧
      (Defined registry.kinds (registry.canonicalKind path) →
        ∀ kind, kind ∈ registry.ancestors path ↔
          Reaches registry.kinds (registry.canonicalKind path) kind) ∧
      (¬ Defined registry.kinds (registry.canonicalKind path) →
        ∃ others, registry.ancestors path = registry.canonicalKind path :: others ∧
          (∀ kind, kind ∈ others ↔ Reaches registry.kinds rootClass kind) ∧
          (¬ Defined registry.kinds rootClass → others = [])) := by
  by_cases defined : Defined registry.kinds (registry.canonicalKind path)
  · rw [ancestors_of_defined defined]
    exact ⟨nodup_walk _ _, head?_walk_singleton defined, fun _ _ => mem_walk_singleton_iff,
      absurd defined⟩
  · rw [ancestors_of_missing defined]
    have outside : registry.canonicalKind path ∉ walk registry.kinds [rootClass] :=
      fun listed => defined (mem_walk_singleton_iff.mp listed).2
    refine ⟨List.nodup_cons.mpr ⟨outside, nodup_walk _ _⟩, rfl, fun h => absurd h defined,
      fun _ => ⟨_, rfl, fun _ => mem_walk_singleton_iff, fun rootless => ?_⟩⟩
    refine List.eq_nil_iff_forall_not_mem.mpr fun kind listed => rootless ?_
    exact (mem_walk_singleton_iff.mp listed).start_defined

example : (empty.declareAll [.defineClass "A" "B", .defineClass "B" "A", .mixIn "A" "A",
    .mixIn "B" "Gone"]).ancestors "::A" = ["A", "B"] := by
  decide +kernel

end DocTypes.Registry
