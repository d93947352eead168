import Mathlib.Data.Set.Finite.Basic
import Mathlib.Data.Set.Finite.Range
import DocTypes.Proofs.Scopes
import DocTypes.Proofs.WellBound

/-!
# Which kind a path names

A path is resolved to the handle of a kind, and it stands for a kind when its flavour and its
ancestors are asked for and when an alias is made of it. The two agree exactly when the path stands for
the path of the handle, and this path for itself (`lookups_agree_iff`).

In a well-bound registry these are the paths that are bound as they are written. A path that resolves
only because scopes in front of it are dropped stands for nothing.
-/

namespace DocTypes

open Token

/-- A name that is not in a table. -/
theorem Table.get?_eq_none {α : Type} {table : Table α} {name : String}
    (absent : name ∉ table.entries.map Prod.fst) : table.get? name = none := by
  cases found : table.get? name with
  | none => rfl
  | some value => exact absurd (List.mem_map_of_mem (mem_entries_of_get? found)) absent

namespace Registry

variable {registry : Registry} {path other name target kind : String} {handle : Handle}

/-! ## New names -/

/-- The path is bound to nothing, and no kind is defined under it. -/
def Fresh (registry : Registry) (path : String) : Prop :=
  registry.constants.get? (Path.relative path) = none ∧
    ¬ Defined registry.kinds (Path.relative path)

/-- There is always a word that a registry does not know. -/
theorem exists_fresh (registry : Registry) :
    ∃ name, WordForm name.toList ∧ registry.Fresh name := by
  have injective : Function.Injective
      fun count => String.ofList (List.replicate (count + 1) 'a') := by
    intro m n same
    simpa using congrArg String.length same
  obtain ⟨name, ⟨count, rfl⟩, absent⟩ :=
    (Set.infinite_range_of_injective injective).exists_notMem_finset
      (registry.constants.entries.map Prod.fst ++ registry.kinds.entries.map Prod.fst).toFinset
  have word : WordForm (String.ofList (List.replicate (count + 1) 'a')).toList := by
    rw [String.toList_ofList]
    refine ⟨by simp, fun c member => ?_⟩
    rw [List.eq_of_mem_replicate member]
    decide
  rw [List.mem_toFinset, List.mem_append, not_or] at absent
  refine ⟨_, word, ?_, ?_⟩
  · rw [Path.relative_word word]
    exact Table.get?_eq_none absent.1
  · rw [Path.relative_word word]
    exact get?_eq_none_iff.mp (Table.get?_eq_none absent.2)

/-! ## What a path stands for -/

theorem head?_ancestors (registry : Registry) (path : String) :
    (registry.ancestors path).head? = some (registry.canonicalKind path) := by
  by_cases defined : Defined registry.kinds (registry.canonicalKind path)
  · rw [ancestors_of_defined defined, head?_walk_singleton defined]
  · rw [ancestors_of_missing defined, List.head?_cons]

/-- The kind that a path stands for comes first among its ancestors, and decides about the others. -/
theorem ancestors_eq_iff :
    registry.ancestors path = registry.ancestors other ↔
      registry.canonicalKind path = registry.canonicalKind other := by
  constructor
  · intro same
    have heads := congrArg List.head? same
    rw [head?_ancestors, head?_ancestors] at heads
    exact Option.some.inj heads
  · intro same
    rw [ancestors, ancestors, same]

theorem flavour?_congr (same : registry.canonicalKind path = registry.canonicalKind other) :
    registry.flavour? path = registry.flavour? other := by
  rw [flavour?, flavour?, definition?, definition?, same]

/-- A new word for a path resolves to what the path stands for. -/
theorem resolve_defineAlias (word : WordForm name.toList) :
    (registry.declare (.defineAlias name target)).resolve name =
      .kind ⟨registry.canonicalKind target⟩ := by
  have bound : (registry.declare (.defineAlias name target)).constants.get? name =
      some (.kind (registry.canonicalKind target)) := by
    rw [declare, get?_constants_bind, Path.relative_word word, if_pos rfl]
  rw [resolve_word word, resolveSegments, Path.join_singleton, bound]
  rfl

/-- A path that is bound as a whole resolves to what it stands for. -/
theorem canonicalKind_of_resolve (bound : registry.constants.contains (Path.relative path) = true)
    (found : registry.resolve path = .kind handle) : registry.canonicalKind path = handle.path := by
  have whole : registry.constants.contains (Path.join (Path.segments (Path.relative path))) = true := by
    rw [Path.join_segments]
    exact bound
  rw [resolve, dropObjectScopes_of_bound whole] at found
  have there := get?_of_resolveSegments found
  rw [Path.join_segments] at there
  rw [canonicalKind, there]

/-- The lookups of a path and those of a handle come to the same kind, and so do new words for the
path. -/
structure Agrees (registry : Registry) (path : String) (handle : Handle) : Prop where
  flavour : registry.flavour? path = registry.flavour? handle.path
  ancestors : registry.ancestors path = registry.ancestors handle.path
  renamed : ∀ name, WordForm name.toList → registry.Fresh name →
    (registry.declare (.defineAlias name path)).resolve name = .kind handle

theorem agrees_iff :
    registry.Agrees path handle ↔
      registry.canonicalKind path = handle.path ∧
        registry.canonicalKind handle.path = handle.path := by
  constructor
  · intro agrees
    obtain ⟨name, word, fresh⟩ := exists_fresh registry
    have resolved := agrees.renamed name word fresh
    rw [resolve_defineAlias word] at resolved
    cases resolved
    exact ⟨rfl, (ancestors_eq_iff.mp agrees.ancestors).symm⟩
  · rintro ⟨stands, itself⟩
    have same := stands.trans itself.symm
    refine ⟨flavour?_congr same, ancestors_eq_iff.mpr same, fun name word _ => ?_⟩
    rw [resolve_defineAlias word, stands]

/-- All lookups of a path that resolves to a kind agree on this kind exactly when the path stands for
the path of the handle, and this path for itself.

In a well-bound registry they agree exactly when the path is bound as it is written. -/
theorem lookups_agree_iff (built : registry.Built) (found : registry.resolve path = .kind handle) :
    (registry.Agrees path handle ↔
        registry.canonicalKind path = handle.path ∧
          registry.canonicalKind handle.path = handle.path) ∧
      (registry.WellBound →
        (registry.Agrees path handle ↔
          registry.constants.contains (Path.relative path) = true)) := by
  refine ⟨agrees_iff, fun bound => agrees_iff.trans ⟨?_, fun whole => ?_⟩⟩
  · rintro ⟨stands, -⟩
    obtain ⟨place, there⟩ := exists_bound_of_resolve found
    have own := bound.bound handle.path (bound.defined place handle.path there)
    obtain whole | self := bound_or_canonicalKind_eq registry path
    · simp [Table.contains, whole]
    · rw [← self, stands]
      simp [Table.contains, own]
  · obtain ⟨place, there⟩ := exists_bound_of_resolve found
    exact ⟨canonicalKind_of_resolve whole found, canonicalKind_of_defined bound
      built.hasRelativeKinds (bound.defined place handle.path there)⟩

/-- Another name for a core class is bound as it is written. -/
theorem lookups_agree_fixnum :
    core.Built ∧ core.WellBound ∧ core.resolve "::Fixnum" = .kind ⟨"Integer"⟩ ∧
      core.Agrees "::Fixnum" ⟨"Integer"⟩ := by
  have built : core.Built := ⟨[], by simp, .inr (by rw [declareAll, List.foldl_nil])⟩
  have found : core.resolve "::Fixnum" = .kind ⟨"Integer"⟩ := by decide +kernel
  have whole : core.constants.contains (Path.relative "::Fixnum") = true := by decide +kernel
  exact ⟨built, wellBound_core, found,
    ((lookups_agree_iff built found).2 wellBound_core).mpr whole⟩

/-- A string class that is seen through `Object` has no flavour and no ancestors of its own, and a new
word for it does not resolve to the string class. -/
theorem object_string_disagrees :
    PathForm "Object::String".toList ∧
      core.resolve "Object::String" = .kind ⟨"String"⟩ ∧
      core.flavour? "Object::String" = none ∧
      core.flavour? "String" = some .instantiable ∧
      core.ancestors "Object::String" ≠ core.ancestors "String" ∧
      WordForm "Text".toList ∧ core.Fresh "Text" ∧
      (core.declare (.defineAlias "Text" "Object::String")).resolve "Text" =
        .kind ⟨"Object::String"⟩ := by
  have fresh : core.Fresh "Text" := ⟨by decide +kernel, by decide +kernel⟩
  exact ⟨by decide, by decide +kernel, by decide +kernel, by decide +kernel, by decide +kernel,
    by decide, fresh, by decide +kernel⟩

end Registry

end DocTypes
