import Mathlib.Data.List.Infix
import DocTypes.Proofs.Growth
import DocTypes.Proofs.Interchange

/-!
# Names seen through the root class

A word in front of a path that stands for the root class or one of its ancestors makes no difference to
what the path leads to, and neither do several such words, unless the path is bound behind some of
them. A path that is bound as it is written leads to its own binding, if its scopes are kinds
(`object_scopes_transparent`).

What a path leads to depends on the bindings, and on which of its scopes are dropped
(`resolve_congr`). So a declaration that binds nothing can change what a path leads to only by making
one of its scopes stand for an ancestor of the root class (`exists_scope_of_resolve_ne`).
-/

namespace DocTypes

open Token

/-- What a path that is bound so leads to. -/
def Binding.resolution : Binding → Resolution
  | .kind target => .kind ⟨target⟩
  | .constant className => .constant className

namespace Path

theorem relative_rooted (path : String) : relative ("::" ++ path) = path := by
  have text : ("::" ++ path).toList = ':' :: ':' :: path.toList := by
    rw [String.toList_append]
    rfl
  rw [relative_of_colons text, String.ofList_toList]

theorem Words.append {front back : List String}
    (each : ∀ segment ∈ front, WordForm segment.toList) (words : Words back) :
    Words (front ++ back) :=
  ⟨List.append_ne_nil_of_right_ne_nil front words.1,
    fun segment member => (List.mem_append.mp member).elim (each segment) (words.2 segment)⟩

end Path

namespace Registry

variable {registry other : Registry} {path kind included : String} {binding : Binding}
  {scopes segments : List String}

/-! ## Bound paths -/

/-- A path that is bound and whose scopes are kinds leads to its binding. -/
theorem resolveSegments_of_bound (scopes : registry.scopesAreKinds segments = true)
    (bound : registry.constants.get? (Path.join segments) = some binding) :
    registry.resolveSegments segments = binding.resolution := by
  rw [resolveSegments, if_pos scopes, bound]
  cases binding <;> rfl

theorem contains_of_bound (bound : registry.constants.get? path = some binding) :
    registry.constants.contains path = true := by
  rw [Table.contains, bound]
  rfl

/-- Nothing is dropped of a path that is bound as it is written. -/
theorem resolve_of_contains (bound : registry.constants.contains (Path.relative path) = true) :
    registry.resolve path = registry.resolveSegments (Path.segments (Path.relative path)) := by
  rw [resolve, dropObjectScopes_of_bound]
  rwa [Path.join_segments]

/-- A path of words means the same with a double colon in front. -/
theorem resolve_rooted (words : Path.Words segments) :
    registry.resolve ("::" ++ Path.join segments) = registry.resolve (Path.join segments) := by
  rw [resolve, resolve, Path.relative_rooted, Path.relative_join words]

/-- Scopes through which the top level is seen are dropped, if the path is not bound from any of them
on. -/
theorem dropObjectScopes_of_unbound
    (visible : ∀ scope ∈ scopes, registry.isObjectScope scope = true)
    (unbound : ∀ inner, inner <:+ scopes → inner ≠ [] →
      registry.constants.get? (Path.join (inner ++ segments)) = none) (rest : segments ≠ []) :
    registry.dropObjectScopes (scopes ++ segments) = registry.dropObjectScopes segments := by
  obtain dropped | ⟨passed, shadow, parts, some, bound, -⟩ := dropObjectScopes_append visible rest
  · exact dropped
  · rw [Table.contains, unbound shadow ⟨passed, parts.symm⟩ some] at bound
    cases bound

/-- Words that stand for the root class or one of its ancestors may be written in front of a path. If
the path is bound neither behind all of them nor behind some, it leads to what it leads to alone. If
it is bound behind all of them and each scope in it is a kind, it leads to its own binding. A double
colon in front of it all makes no difference. -/
theorem object_scopes_transparent (registry : Registry) {scopes segments : List String}
    (singles : ∀ scope ∈ scopes, WordForm scope.toList) (words : Path.Words segments)
    (visible : ∀ scope ∈ scopes,
      registry.canonicalKind scope ∈ registry.ancestors rootClass) :
    ((∀ inner, inner <:+ scopes → inner ≠ [] →
        registry.constants.get? (Path.join (inner ++ segments)) = none) →
      registry.resolve (Path.join (scopes ++ segments)) = registry.resolve (Path.join segments) ∧
        registry.resolve ("::" ++ Path.join (scopes ++ segments)) =
          registry.resolve (Path.join segments)) ∧
      ∀ binding, registry.constants.get? (Path.join (scopes ++ segments)) = some binding →
        (∀ front back, scopes ++ segments = front ++ back → front ≠ [] → back ≠ [] →
          ∃ kind, registry.constants.get? (Path.join front) = some (.kind kind)) →
        registry.resolve (Path.join (scopes ++ segments)) = binding.resolution ∧
          registry.resolve ("::" ++ Path.join (scopes ++ segments)) = binding.resolution := by
  have whole : Path.Words (scopes ++ segments) := .append singles words
  rw [resolve_rooted whole, resolve_join whole]
  refine ⟨fun unbound => ?_, fun binding bound kinds => ?_⟩
  · have seen : ∀ scope ∈ scopes, registry.isObjectScope scope = true :=
      fun scope member => decide_eq_true (visible scope member)
    rw [dropObjectScopes_of_unbound seen unbound words.1, ← resolve_join words]
    exact ⟨rfl, rfl⟩
  · have scopesAreKinds : registry.scopesAreKinds (scopes ++ segments) = true :=
      scopesAreKinds_iff.mpr fun front back parts outer inner =>
        bindsKind_iff.mpr (kinds front back parts outer inner)
    rw [dropObjectScopes_of_bound (contains_of_bound bound),
      resolveSegments_of_bound scopesAreKinds bound]
    exact ⟨rfl, rfl⟩

/-- An integer class under another name is seen through a module of the root class and another name
for the root class. A class that is bound behind the root class itself is found there. -/
theorem object_scopes_transparent_aliased :
    resolve (core.declareAll [.defineAlias "Top" "Object", .defineClass "Object::Fixnum" "Object"])
        "Kernel::Top::Fixnum" = .kind ⟨"Integer"⟩ ∧
      resolve (core.declareAll [.defineAlias "Top" "Object",
        .defineClass "Object::Fixnum" "Object"]) "::Object::Fixnum" = .kind ⟨"Object::Fixnum"⟩ := by
  have above := (@object_scopes_transparent
    (core.declareAll [.defineAlias "Top" "Object", .defineClass "Object::Fixnum" "Object"])
    ["Kernel", "Top"] ["Fixnum"] (by decide) ⟨by decide, by decide⟩ (by decide +kernel)).1
  have own := (@object_scopes_transparent
    (core.declareAll [.defineAlias "Top" "Object", .defineClass "Object::Fixnum" "Object"])
    ["Object"] ["Fixnum"] (by decide) ⟨by decide, by decide⟩ (by decide +kernel)).2
      (.kind "Object::Fixnum") (by decide +kernel)
  have unbound : ∀ inner ∈ ["Kernel", "Top"].tails, inner ≠ [] →
      (core.declareAll [.defineAlias "Top" "Object",
        .defineClass "Object::Fixnum" "Object"]).constants.get?
          (Path.join (inner ++ ["Fixnum"])) = none := by
    decide +kernel
  have scopes : scopesAreKinds (core.declareAll [.defineAlias "Top" "Object",
      .defineClass "Object::Fixnum" "Object"]) ["Object", "Fixnum"] = true := by
    decide +kernel
  refine ⟨(above fun inner suffix => unbound inner ((List.mem_tails _ _).mpr suffix)).1.trans
    (by decide +kernel), (own fun front back parts outer inner => ?_).2⟩
  exact bindsKind_iff.mp (scopesAreKinds_iff.mp scopes front back parts outer inner)

/-! ## What resolving depends on -/

section Congruence

variable (bindings : ∀ name, registry.constants.get? name = other.constants.get? name)

include bindings

/-- Two registries with the same bindings drop the same scopes of a path, if the same words in front of
its last make the top level visible. -/
theorem dropObjectScopes_congr (visible : ∀ scope ∈ segments.dropLast,
    registry.isObjectScope scope = other.isObjectScope scope) :
    registry.dropObjectScopes segments = other.dropObjectScopes segments := by
  induction segments with
  | nil => rfl
  | cons scope segments ih =>
    cases segments with
    | nil => rfl
    | cons next rest =>
      rw [List.dropLast_cons_cons] at visible
      obtain ⟨here, later⟩ := List.forall_mem_cons.mp visible
      rw [dropObjectScopes_cons, dropObjectScopes_cons, Table.contains, Table.contains, bindings,
        here, ih later]

theorem resolveSegments_congr : registry.resolveSegments segments = other.resolveSegments segments := by
  have kinds : registry.bindsKind = other.bindsKind := by
    funext path
    rw [bindsKind, bindsKind, bindings]
  rw [resolveSegments, resolveSegments, scopesAreKinds, scopesAreKinds, kinds, bindings]

/-- What a path leads to depends on the bindings, and on which of its scopes make the top level
visible. -/
theorem resolve_congr (visible : ∀ scope ∈ (Path.segments (Path.relative path)).dropLast,
    registry.isObjectScope scope = other.isObjectScope scope) :
    registry.resolve path = other.resolve path := by
  rw [resolve, resolve, dropObjectScopes_congr bindings visible, resolveSegments_congr bindings]

/-- What a path that is bound as it is written leads to depends on the bindings alone. -/
theorem resolve_congr_of_bound (bound : registry.constants.contains (Path.relative path) = true) :
    registry.resolve path = other.resolve path := by
  have bound' : other.constants.contains (Path.relative path) = true := by
    rwa [Table.contains, ← bindings]
  rw [resolve_of_contains bound, resolve_of_contains bound', resolveSegments_congr bindings]

end Congruence

/-- Ancestors depend on what paths stand for and on the parents of the kinds. -/
theorem ancestors_congr (stands : ∀ path, registry.canonicalKind path = other.canonicalKind path)
    (parents : ∀ name, (registry.kinds.get? name).map Definition.parents =
      (other.kinds.get? name).map Definition.parents) (path : String) :
    registry.ancestors path = other.ancestors path := by
  have contains := contains_congr parents
  have links : SameLinks registry.kinds other.kinds := by
    intro name
    have live := congrArg (Option.map (List.filter other.kinds.contains)) (parents name)
    rw [Option.map_map, Option.map_map] at live
    rwa [liveParents_congr contains]
  have walks : ∀ start, walk registry.kinds [start] = walk other.kinds [start] :=
    fun start => walk_congr links (by rw [contains])
  simp only [ancestors, stands, contains, walks]

/-! ## Declarations that bind nothing -/

theorem isObjectScope_iff {scope : String} :
    registry.isObjectScope scope = true ↔
      registry.canonicalKind scope ∈ registry.ancestors rootClass :=
  decide_eq_true_iff

/-- Methods that are added to a kind change no resolution. -/
theorem resolve_defineMethods (registry : Registry) (kind : String) (methods : List String)
    (path : String) :
    (registry.declare (.defineMethods kind methods)).resolve path = registry.resolve path := by
  have parents : ∀ name,
      ((registry.declare (.defineMethods kind methods)).kinds.get? name).map Definition.parents =
        (registry.kinds.get? name).map Definition.parents := by
    intro name
    rw [declare, amend, Table.get?_adjust]
    split
    · next own => rw [own, Option.map_map]; rfl
    · rfl
  have stands : ∀ name, (registry.declare (.defineMethods kind methods)).canonicalKind name =
      registry.canonicalKind name :=
    fun _ => rfl
  refine resolve_congr (fun _ => rfl) fun scope _ => ?_
  rw [isObjectScope, isObjectScope, ancestors_congr stands parents, stands]

/-- A module that is included into some kind takes no ancestor from the root class. -/
theorem isObjectScope_mixIn {scope : String} (visible : registry.isObjectScope scope = true) :
    (registry.declare (.mixIn kind included)).isObjectScope scope = true := by
  rw [isObjectScope_iff] at visible ⊢
  have grows := grows_declare registry (.mixIn kind included)
  by_cases defined : Defined registry.kinds (registry.canonicalKind rootClass)
  · exact grows.ancestors rfl defined visible
  · have missing : ¬ Defined (registry.declare (.mixIn kind included)).kinds
        ((registry.declare (.mixIn kind included)).canonicalKind rootClass) :=
      fun there => defined (defined_amend.mp there)
    rw [mem_ancestors_of_missing defined] at visible
    exact (mem_ancestors_of_missing missing).mpr (visible.imp id grows.reaches)

/-- A module that is included into some kind changes what a path leads to only if the path is not bound
as it is written, and if one of its scopes stands for a kind that becomes an ancestor of the root
class by it. -/
theorem exists_scope_of_resolve_ne
    (changed : (registry.declare (.mixIn kind included)).resolve path ≠ registry.resolve path) :
    registry.constants.get? (Path.relative path) = none ∧
      ∃ scope ∈ (Path.segments (Path.relative path)).dropLast,
        registry.canonicalKind scope ∉ registry.ancestors rootClass ∧
          registry.canonicalKind scope ∈
            (registry.declare (.mixIn kind included)).ancestors rootClass := by
  constructor
  · by_contra bound
    refine changed (resolve_congr_of_bound (fun _ => rfl) ?_)
    exact Option.isSome_iff_ne_none.mpr bound
  · by_contra none
    refine changed (resolve_congr (fun _ => rfl) fun scope member => Bool.eq_iff_iff.mpr ?_)
    refine ⟨fun later => ?_, isObjectScope_mixIn⟩
    by_contra hidden
    exact none ⟨scope, member, mt isObjectScope_iff.mpr hidden, isObjectScope_iff.mp later⟩

end Registry

end DocTypes
