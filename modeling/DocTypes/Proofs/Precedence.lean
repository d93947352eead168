import Mathlib.Data.List.Nodup
import DocTypes.Proofs.Building

/-!
# The order of ancestors

A method of a kind is looked up before those of its parents, so a kind should be listed before its
superclass and before the modules that it includes. A walk lists each kind where the first way leads
to it. It may come to a module on one way before it comes, on another way, to a kind that includes
the module as well, and the module is not listed again after that kind.

* `precedes_parents_iff`: a kind comes before a parent of it exactly when no kind that is listed
  earlier leads to the parent first. Nothing is in the way of a superclass that is a class.
* `shared_module_comes_early`: a module that a class shares with its superclass is listed before the
  superclass, so the order of look-up is not kept.

The order is read off the list of kinds that are pending when a kind is visited. `Underway` says what
is known of this list at any time, and each step of a walk keeps it (`Underway.skip`,
`Underway.visit`).
-/

namespace DocTypes

open scoped List

/-! ## Pairs in order -/

section Pairs

variable {α : Type} {list front back : List α} {a b c : α}

theorem pair_sublist_cons_iff : [a, b] <+ c :: list ↔ a = c ∧ b ∈ list ∨ [a, b] <+ list := by
  rw [List.sublist_cons_iff, or_comm]
  refine or_congr_left ?_
  constructor
  · rintro ⟨rest, eq, later⟩
    obtain ⟨rfl, rfl⟩ := List.cons.inj eq
    exact ⟨rfl, List.singleton_sublist.mp later⟩
  · rintro ⟨rfl, later⟩
    exact ⟨[b], rfl, List.singleton_sublist.mpr later⟩

theorem pair_sublist_iff_front (nodup : (front ++ b :: back).Nodup) :
    [a, b] <+ front ++ b :: back ↔ a ∈ front := by
  induction front with
  | nil =>
    have absent := (List.nodup_cons.mp nodup).1
    rw [List.nil_append, pair_sublist_cons_iff]
    refine iff_of_false ?_ List.not_mem_nil
    rintro (⟨-, again⟩ | pair)
    · exact absent again
    · exact absent (pair.subset (by simp))
  | cons c front ih =>
    rw [List.cons_append, pair_sublist_cons_iff, ih (List.nodup_cons.mp nodup).2, List.mem_cons]
    simp

theorem pair_sublist_iff_back (nodup : (front ++ a :: back).Nodup) :
    [a, b] <+ front ++ a :: back ↔ b ∈ back := by
  induction front with
  | nil =>
    have absent := (List.nodup_cons.mp nodup).1
    rw [List.nil_append, pair_sublist_cons_iff, and_iff_right rfl, or_iff_left]
    exact fun pair => absent (pair.subset (by simp))
  | cons c front ih =>
    obtain ⟨absent, nodup⟩ := List.nodup_cons.mp nodup
    have ne : a ≠ c := by
      rintro rfl
      simp at absent
    rw [List.cons_append, pair_sublist_cons_iff, ih nodup, or_iff_right fun first => ne first.1]

/-- Of two members of a list without repetitions, one comes before the other. -/
theorem pair_sublist_iff_not (nodup : list.Nodup) (ne : a ≠ b) (first : a ∈ list)
    (second : b ∈ list) : [a, b] <+ list ↔ ¬ [b, a] <+ list := by
  obtain ⟨front, back, rfl⟩ := List.append_of_mem second
  rw [pair_sublist_iff_front nodup, pair_sublist_iff_back nodup]
  have apart : ∀ x ∈ front, ∀ y ∈ b :: back, x ≠ y := (List.nodup_append.mp nodup).2.2
  constructor
  · exact fun before after => apart a before a (List.mem_cons_of_mem b after) rfl
  · intro notAfter
    refine (List.mem_append.mp first).resolve_right fun later => ?_
    exact (List.mem_cons.mp later).elim ne notAfter

theorem pair_sublist_append_iff (absent : a ∉ front) : [a, b] <+ front ++ list ↔ [a, b] <+ list := by
  induction front with
  | nil => rfl
  | cons c front ih =>
    rw [List.mem_cons, not_or] at absent
    rw [List.cons_append, pair_sublist_cons_iff, ih absent.2, or_iff_right fun h => absent.1 h.1]

/-- A member of two joined lists is in the first or in the second. -/
theorem append_eq_append_cons {others : List α} (h : list ++ others = front ++ a :: back) :
    (∃ after, list = front ++ a :: after) ∨
      ∃ between, front = list ++ between ∧ others = between ++ a :: back := by
  obtain ⟨between, rfl, rfl⟩ | ⟨after, rfl, rest⟩ := List.append_eq_append_iff.mp h
  · exact .inr ⟨between, rfl, rfl⟩
  · cases after with
    | nil => exact .inr ⟨[], by simp, by simpa using rest.symm⟩
    | cons top after =>
      obtain ⟨rfl, -⟩ := List.cons.inj rest
      exact .inl ⟨after, rfl⟩

end Pairs

namespace Registry

open Relation

/-- `ParentAfter kinds kind before parent`: the kind has the parent, and `before` are the parents in
front of it. -/
def ParentAfter (kinds : Table Definition) (kind : String) (before : List String)
    (parent : String) : Prop :=
  ∃ definition after, kinds.get? kind = some definition ∧
    definition.parents = before ++ parent :: after

/-- `LeadsFirst kinds kind first second`: the kind has the parent `first`, and no parent in front of
it leads to `second`. -/
def LeadsFirst (kinds : Table Definition) (kind first second : String) : Prop :=
  ∃ before, ParentAfter kinds kind before first ∧
    ∀ parent ∈ before, ¬ Reaches kinds parent second

/-! ## Walks underway -/

/-- `Underway kinds ahead unvisited pending`: a walk through `kinds` has listed `ahead`, and goes on
with `pending`.

* `left`: the kinds that are not listed are unvisited.
* `waits`: an unvisited parent of a listed kind is pending. In front of it is only what the parents
  in front of it lead to.
* `comes`: what is pending is a parent of a listed kind, unless the walk begins with it. What the
  parents in front of it lead to is visited, or is reached from what is in front of it now. -/
structure Underway (kinds : Table Definition) (ahead : List String)
    (unvisited : Table Definition) (pending : List String) : Prop where
  left : ∀ kind, unvisited.get? kind = if kind ∈ ahead then none else kinds.get? kind
  waits : ∀ kind ∈ ahead, ∀ before parent, ParentAfter kinds kind before parent →
    Defined unvisited parent →
    ∃ front back, pending = front ++ parent :: back ∧
      ∀ other ∈ front, ∃ earlier ∈ before, ReflTransGen (Link kinds) earlier other
  comes : ∀ front path back, pending = front ++ path :: back →
    ahead = [] ∧ pending = [path] ∨
      ∃ kind ∈ ahead, ∃ before, ParentAfter kinds kind before path ∧
        ∀ earlier ∈ before, ∀ other, Reaches kinds earlier other → Defined unvisited other →
          ∃ start ∈ front, Reaches unvisited start other

section Walk

variable {kinds unvisited : Table Definition} {ahead pending before front back : List String}
  {kind path parent other start first second : String} {definition : Definition}

theorem ParentAfter.link (h : ParentAfter kinds kind before parent) : Link kinds kind parent := by
  obtain ⟨definition, after, found, parts⟩ := h
  rw [link_iff found, parts]
  simp

theorem ParentAfter.link_before (h : ParentAfter kinds kind before parent) :
    ∀ other ∈ before, Link kinds kind other := by
  obtain ⟨definition, after, found, parts⟩ := h
  intro other member
  rw [link_iff found, parts]
  exact List.mem_append_left _ member

theorem underway_start (kinds : Table Definition) (start : String) :
    Underway kinds [] kinds [start] where
  left kind := by simp
  waits kind listed := absurd listed List.not_mem_nil
  comes front path back parts := by
    left
    cases front with
    | nil => exact ⟨rfl, by cases parts; rfl⟩
    | cons => simp at parts

theorem Underway.get?_of_found (h : Underway kinds ahead unvisited pending)
    (found : unvisited.get? kind = some definition) :
    kind ∉ ahead ∧ kinds.get? kind = some definition := by
  rw [h.left] at found
  split at found
  · cases found
  · next absent => exact ⟨absent, found⟩

theorem Underway.defined_iff (h : Underway kinds ahead unvisited pending) :
    Defined unvisited kind ↔ kind ∉ ahead ∧ Defined kinds kind := by
  unfold Defined
  rw [h.left]
  by_cases listed : kind ∈ ahead <;> simp [listed]

/-- A path without a definition left is passed over. -/
theorem Underway.skip (h : Underway kinds ahead unvisited (path :: pending))
    (missing : unvisited.get? path = none) : Underway kinds ahead unvisited pending where
  left := h.left
  waits := by
    intro kind listed before parent parentAfter defined
    obtain ⟨front, back, parts, reached⟩ := h.waits kind listed before parent parentAfter defined
    cases front with
    | nil =>
      cases parts
      exact absurd defined (get?_eq_none_iff.mp missing)
    | cons other front =>
      obtain ⟨rfl, rfl⟩ := List.cons.inj parts
      exact ⟨front, back, rfl, fun other member => reached other (List.mem_cons_of_mem path member)⟩
  comes := by
    rintro front place back rfl
    obtain ⟨-, single⟩ | ⟨kind, listed, before, parentAfter, reached⟩ :=
      h.comes (path :: front) place back rfl
    · simp at single
    · refine .inr ⟨kind, listed, before, parentAfter, fun earlier member other leads defined => ?_⟩
      obtain ⟨start, waiting, reaches⟩ := reached earlier member other leads defined
      obtain rfl | waiting := List.mem_cons.mp waiting
      · exact absurd reaches.start_defined (get?_eq_none_iff.mp missing)
      · exact ⟨start, waiting, reaches⟩

/-- What a kind that comes next leads to is reached from its parents without passing through a kind
that is listed, or through the kind itself. -/
theorem Underway.reaches_erase (h : Underway kinds ahead unvisited (path :: pending))
    (acyclic : ¬ TransGen (Link kinds) path path)
    (below : TransGen (Link kinds) path start) (way : ReflTransGen (Link kinds) start other)
    (defined : Defined (unvisited.erase path) other) :
    Reaches (unvisited.erase path) start other := by
  induction way using ReflTransGen.head_induction_on with
  | refl => exact .refl defined
  | @head here next link _ ih =>
    have rest := ih (below.tail link)
    have ne : here ≠ path := by
      rintro rfl
      exact acyclic below
    -- A listed kind whose parent waits would lead to the kind that comes next.
    have unlisted : here ∉ ahead := by
      intro listed
      obtain ⟨neNext, defined⟩ := defined_erase_iff.mp rest.start_defined
      obtain ⟨definition, found⟩ := link.defined
      obtain ⟨before, after, parts⟩ := List.append_of_mem ((link_iff found).mp link)
      have parentAfter : ParentAfter kinds here before next := ⟨definition, after, found, parts⟩
      obtain ⟨front, back, parts, reached⟩ := h.waits here listed before next parentAfter defined
      cases front with
      | nil =>
        cases parts
        exact neNext rfl
      | cons top front =>
        obtain ⟨rfl, -⟩ := List.cons.inj parts
        obtain ⟨earlier, member, leads⟩ := reached path (by simp)
        exact acyclic ((below.tail (parentAfter.link_before earlier member)).trans_left leads)
    have link' : Link unvisited here next := by
      obtain ⟨definition, found⟩ := link.defined
      have found' : unvisited.get? here = some definition := by
        rw [h.left, if_neg unlisted, found]
      exact (link_iff found').mpr ((link_iff found).mp link)
    exact ⟨.head (link_erase_iff.mpr ⟨ne, link'⟩) rest.1, rest.2⟩

/-- A kind that is visited is listed, and its parents are pending before all others. -/
theorem Underway.visit (h : Underway kinds ahead unvisited (path :: pending))
    (acyclic : ¬ TransGen (Link kinds) path path)
    (found : unvisited.get? path = some definition) :
    Underway kinds (ahead ++ [path]) (unvisited.erase path) (definition.parents ++ pending) where
  left := by
    intro kind
    rw [Table.get?_erase, h.left]
    by_cases same : kind = path <;> by_cases listed : kind ∈ ahead <;> simp [same, listed]
  waits := by
    intro kind listed before parent parentAfter defined
    obtain ⟨ne, defined⟩ := defined_erase_iff.mp defined
    have found' := (h.get?_of_found found).2
    obtain listed | here := List.mem_append.mp listed
    · obtain ⟨front, back, parts, reached⟩ := h.waits kind listed before parent parentAfter defined
      cases front with
      | nil =>
        cases parts
        exact absurd rfl ne
      | cons top front =>
        obtain ⟨rfl, rfl⟩ := List.cons.inj parts
        refine ⟨definition.parents ++ front, back, by simp, fun other member => ?_⟩
        obtain above | waiting := List.mem_append.mp member
        · obtain ⟨earlier, early, leads⟩ := reached path (by simp)
          exact ⟨earlier, early, leads.tail ((link_iff found').mpr above)⟩
        · exact reached other (List.mem_cons_of_mem path waiting)
    · obtain rfl := List.mem_singleton.mp here
      obtain ⟨_, after, here, parts⟩ := parentAfter
      cases found'.symm.trans here
      exact ⟨before, after ++ pending, by simp [parts], fun other member => ⟨other, member, .refl⟩⟩
  comes := by
    intro front place back parts
    right
    have found' := (h.get?_of_found found).2
    obtain ⟨after, inside⟩ | ⟨front, rfl, rfl⟩ := append_eq_append_cons parts
    · refine ⟨path, by simp, front, ⟨definition, after, found', inside⟩, ?_⟩
      intro earlier member other leads defined
      have above : Link kinds path earlier :=
        (link_iff found').mpr (inside ▸ List.mem_append_left _ member)
      exact ⟨earlier, member, h.reaches_erase acyclic (.single above) leads.1 defined⟩
    · obtain ⟨-, single⟩ | ⟨kind, listed, before, parentAfter, reached⟩ :=
        h.comes (path :: front) place back rfl
      · simp at single
      · refine ⟨kind, List.mem_append_left _ listed, before, parentAfter, ?_⟩
        intro earlier member other leads defined
        obtain ⟨ne, defined⟩ := defined_erase_iff.mp defined
        obtain ⟨start, waiting, reaches⟩ := reached earlier member other leads defined
        obtain same | straight | ⟨parent, above, rest⟩ := reaches.erase found
        · exact absurd same ne
        · obtain rfl | waiting := List.mem_cons.mp waiting
          · exact absurd rfl (defined_erase_iff.mp straight.start_defined).1
          · exact ⟨start, List.mem_append_right _ waiting, straight⟩
        · exact ⟨parent, List.mem_append_left _ above, rest⟩

/-- Each kind that a walk lists comes next at some time, after the kinds that are listed before it. -/
theorem Underway.exists_next (h : Underway kinds ahead unvisited pending)
    (acyclic : ∀ kind ∈ walk unvisited pending, ¬ TransGen (Link kinds) kind kind)
    (parts : walk unvisited pending = front ++ kind :: back) :
    ∃ unvisited' pending', Underway kinds (ahead ++ front) unvisited' (kind :: pending') ∧
      Defined unvisited' kind := by
  fun_induction walk unvisited pending generalizing ahead front with
  | case1 => simp at parts
  | case2 unvisited path pending definition found ih =>
    cases front with
    | nil =>
      cases parts
      exact ⟨unvisited, pending, by simpa using h, definition, found⟩
    | cons top front =>
      obtain ⟨rfl, rest⟩ := List.cons.inj parts
      have next := ih (h.visit (acyclic path (by simp)) found)
        (fun kind member => acyclic kind (List.mem_cons_of_mem path member)) rest
      simpa using next
  | case3 unvisited path pending missing ih => exact ih (h.skip missing) acyclic parts

/-- If no circle leads through what a walk lists, then the kind `first`, which does not begin it, is
listed before the kind `second` exactly when some kind before `second` leads to `first` first. -/
theorem pair_sublist_walk_iff
    (acyclic : ∀ kind ∈ walk kinds [start], ¬ TransGen (Link kinds) kind kind)
    (listed : first ∈ walk kinds [start]) (listed' : second ∈ walk kinds [start])
    (ne : first ≠ second) (ne' : first ≠ start) :
    [first, second] <+ walk kinds [start] ↔
      ∃ kind, [kind, second] <+ walk kinds [start] ∧ LeadsFirst kinds kind first second := by
  have nodup := nodup_walk kinds [start]
  have reaches := mem_walk_singleton_iff.mp listed
  have reaches' := mem_walk_singleton_iff.mp listed'
  constructor
  · intro pair
    obtain ⟨front, back, parts⟩ := List.append_of_mem listed
    obtain ⟨unvisited, pending, underway, -⟩ :=
      (underway_start kinds start).exists_next acyclic parts
    rw [List.nil_append] at underway
    rw [parts] at nodup pair ⊢
    have later := (pair_sublist_iff_back nodup).mp pair
    obtain ⟨rfl, -⟩ | ⟨kind, before, earlier, parentAfter, reached⟩ :=
      underway.comes [] first pending rfl
    · have head := head?_walk_singleton reaches.start_defined
      rw [parts] at head
      exact absurd (Option.some.inj head) ne'
    · refine ⟨kind, ?_, earlier, parentAfter, fun parent member leads => ?_⟩
      · have below := List.singleton_sublist.mpr (List.mem_cons_of_mem first later)
        exact List.cons_sublist_iff.mpr ⟨front, first :: back, rfl, before, below⟩
      · -- When `first` comes next, `second` is unvisited, and nothing is in front of `first`.
        have apart := (List.nodup_append.mp nodup).2.2
        have unvisited : Defined unvisited second := underway.defined_iff.mpr
          ⟨fun early => apart second early second (List.mem_cons_of_mem first later) rfl, reaches'.2⟩
        obtain ⟨_, nowhere, -⟩ := reached parent member second leads unvisited
        cases nowhere
  · rintro ⟨kind, pair, before, parentAfter, nothing⟩
    obtain ⟨front, back, parts⟩ := List.append_of_mem listed'
    obtain ⟨unvisited, pending, underway, -⟩ :=
      (underway_start kinds start).exists_next acyclic parts
    rw [List.nil_append] at underway
    rw [parts] at nodup pair ⊢
    have earlier := (pair_sublist_iff_front nodup).mp pair
    rw [pair_sublist_iff_front nodup]
    -- Otherwise `first` waits behind `second`, to which a parent in front of it leads then.
    by_contra unlisted
    obtain ⟨ahead, behind, eq, reached⟩ := underway.waits kind earlier before first parentAfter
      (underway.defined_iff.mpr ⟨unlisted, reaches.2⟩)
    cases ahead with
    | nil =>
      cases eq
      exact ne rfl
    | cons top ahead =>
      obtain ⟨rfl, -⟩ := List.cons.inj eq
      obtain ⟨parent, member, leads⟩ := reached second (by simp)
      exact nothing parent member ⟨leads, reaches'.2⟩

end Walk

/-! ## Ancestors -/

/-- What a kind includes is a module, if it is defined. -/
def IncludesMixins (registry : Registry) : Prop :=
  registry.EveryKind fun definition => ∀ included ∈ definition.includes,
    ∀ other ∈ registry.kinds.get? included, other.flavour = .mixin

/-- A kind is linked to its superclass. -/
def SuperLink (kinds : Table Definition) (kind superclass : String) : Prop :=
  ∃ definition ∈ kinds.get? kind, definition.superclass = some superclass

instance (kinds : Table Definition) (kind superclass : String) :
    Decidable (SuperLink kinds kind superclass) :=
  inferInstanceAs (Decidable (∃ definition ∈ kinds.get? kind, _))

section Ancestors

variable {registry : Registry} {path kind parent other start : String} {definition : Definition}

/-- The ancestors of a path are what a walk lists, after the path itself if it is not defined. -/
theorem exists_ancestors_eq (registry : Registry) (path : String) :
    ∃ front start, registry.ancestors path = front ++ walk registry.kinds [start] ∧
      ∀ kind ∈ front, ¬ Defined registry.kinds kind := by
  by_cases defined : Defined registry.kinds (registry.canonicalKind path)
  · exact ⟨[], _, ancestors_of_defined defined, by simp⟩
  · exact ⟨[registry.canonicalKind path], _, ancestors_of_missing defined, by simpa using defined⟩

/-- An ancestor comes before one of its parents exactly when no kind before it leads to the parent
first. -/
theorem pair_sublist_ancestors_iff
    (acyclic : ∀ kind ∈ registry.ancestors path, ¬ TransGen (Link registry.kinds) kind kind)
    (listed : kind ∈ registry.ancestors path) (link : Link registry.kinds kind parent)
    (defined : Defined registry.kinds parent) :
    [kind, parent] <+ registry.ancestors path ↔
      ∀ other, [other, kind] <+ registry.ancestors path →
        ¬ LeadsFirst registry.kinds other parent kind := by
  obtain ⟨front, start, eq, undefined⟩ := exists_ancestors_eq registry path
  have outside {name : String} (there : Defined registry.kinds name) : name ∉ front :=
    fun member => undefined name member there
  rw [eq] at acyclic listed ⊢
  have acyclic (name : String) (member : name ∈ walk registry.kinds [start]) :=
    acyclic name (List.mem_append_right front member)
  have listed := (List.mem_append.mp listed).resolve_left (outside link.defined)
  have reaches := mem_walk_singleton_iff.mp listed
  have above : parent ∈ walk registry.kinds [start] :=
    mem_walk_singleton_iff.mpr ⟨reaches.1.tail link, defined⟩
  have ne : kind ≠ parent := by
    rintro rfl
    exact acyclic kind listed (.single link)
  have ne' : parent ≠ start := by
    rintro rfl
    exact acyclic parent above (.tail' reaches.1 link)
  rw [pair_sublist_append_iff (outside link.defined),
    pair_sublist_iff_not (nodup_walk _ _) ne listed above,
    pair_sublist_walk_iff acyclic above listed ne.symm ne', not_exists]
  refine forall_congr' fun other => ?_
  rw [not_and]
  constructor
  · intro nothing pair leads
    obtain ⟨before, parentAfter, -⟩ := id leads
    exact nothing ((pair_sublist_append_iff (outside parentAfter.link.defined)).mp pair) leads
  · exact fun nothing pair => nothing (pair.trans (List.sublist_append_right ..))

theorem Declared.superclass_of_mixin (h : registry.Declared) :
    registry.EveryKind fun definition =>
      definition.flavour = .mixin → definition.superclass = none :=
  h.everyKind
    { classes := fun _ => nofun
      modules := fun _ => rfl
      mixIn := fun definition included none => by
        unfold Definition.mixIn
        split <;> exact none
      addMethods := fun _ _ none => none }

theorem SuperLink.link (h : SuperLink registry.kinds kind parent) :
    Link registry.kinds kind parent := by
  obtain ⟨definition, found, above⟩ := h
  exact .superclass found above

/-- Only a kind with a superclass is linked to a class. -/
theorem superLink_of_link (mixins : registry.IncludesMixins) (link : Link registry.kinds kind parent)
    (found : registry.kinds.get? parent = some definition)
    (instantiable : definition.flavour = .instantiable) :
    SuperLink registry.kinds kind parent := by
  cases link with
  | superclass place above => exact ⟨_, place, above⟩
  | @included below place member =>
    cases instantiable.symm.trans (mixins kind below place parent member definition found)

theorem SuperLink.instantiable (declared : registry.Declared)
    (h : SuperLink registry.kinds kind parent) :
    ∃ definition, registry.kinds.get? kind = some definition ∧
      definition.flavour = .instantiable := by
  obtain ⟨definition, found, above⟩ := h
  refine ⟨definition, found, ?_⟩
  cases flavour : definition.flavour with
  | instantiable => rfl
  | mixin => cases above.symm.trans (declared.superclass_of_mixin kind definition found flavour)

/-- Only superclasses lead to a class. -/
theorem superLinks_of_links (declared : registry.Declared) (mixins : registry.IncludesMixins)
    (way : ReflTransGen (Link registry.kinds) start kind)
    (found : registry.kinds.get? kind = some definition)
    (instantiable : definition.flavour = .instantiable) :
    ReflTransGen (SuperLink registry.kinds) start kind := by
  induction way generalizing definition with
  | refl => exact .refl
  | tail _ link ih =>
    have last := superLink_of_link mixins link found instantiable
    obtain ⟨below, place, flavour⟩ := last.instantiable declared
    exact (ih place flavour).tail last

theorem SuperLink.right_unique : Relator.RightUnique (SuperLink registry.kinds) := by
  rintro kind parent other ⟨definition, found, above⟩ ⟨_, found', above'⟩
  cases found.symm.trans found'
  exact Option.some.inj (above.symm.trans above')

/-- On a chain of superclasses that leads in no circle, two kinds with the same superclass are the
same. -/
theorem eq_of_superLinks (first : SuperLink registry.kinds kind parent)
    (second : SuperLink registry.kinds other parent)
    (way : ReflTransGen (SuperLink registry.kinds) kind other)
    (acyclic : ¬ TransGen (Link registry.kinds) other other) : kind = other := by
  obtain same | ⟨next, link, rest⟩ := way.cases_head
  · exact same
  · obtain rfl := SuperLink.right_unique link first
    have circle := (TransGen.single second.link).trans_left
      (ReflTransGen.mono (fun _ _ => SuperLink.link) _ _ rest)
    exact absurd circle acyclic

/-- An ancestor comes before its superclass, if that is a class. -/
theorem pair_sublist_superclass (declared : registry.Declared) (mixins : registry.IncludesMixins)
    (acyclic : ∀ kind ∈ registry.ancestors path, ¬ TransGen (Link registry.kinds) kind kind)
    (listed : kind ∈ registry.ancestors path) (above : SuperLink registry.kinds kind parent)
    (found : registry.kinds.get? parent = some definition)
    (instantiable : definition.flavour = .instantiable) :
    [kind, parent] <+ registry.ancestors path := by
  refine (pair_sublist_ancestors_iff acyclic listed above.link ⟨definition, found⟩).mpr ?_
  rintro other pair ⟨before, parentAfter, -⟩
  have above' := superLink_of_link mixins parentAfter.link found instantiable
  have noCircle := acyclic kind listed
  have noCircle' := acyclic other (pair.subset (by simp))
  obtain ⟨front, start, eq, undefined⟩ := exists_ancestors_eq registry path
  have outside : other ∉ front := fun member => undefined other member parentAfter.link.defined
  rw [eq, pair_sublist_append_iff outside] at pair
  -- A kind before this one with the same superclass is a class on the same chain of superclasses.
  have chain {name : String} (member : name ∈ walk registry.kinds [start])
      (super : SuperLink registry.kinds name parent) :
      ReflTransGen (SuperLink registry.kinds) start name := by
    obtain ⟨_, place, flavour⟩ := super.instantiable declared
    exact superLinks_of_links declared mixins (mem_walk_singleton_iff.mp member).1 place flavour
  have same : other = kind := by
    obtain up | down := ReflTransGen.total_of_right_unique SuperLink.right_unique
      (chain (pair.subset (by simp)) above') (chain (pair.subset (by simp)) above)
    · exact eq_of_superLinks above' above up noCircle
    · exact (eq_of_superLinks above above' down noCircle').symm
  subst same
  exact List.nodup_iff_sublist.mp (nodup_walk _ _) other pair

end Ancestors

/-- The ancestors of a path, when only modules are included and no circle leads through the
ancestors. Each comes before its superclass, if that is a class. Each comes before a parent of it,
and so before a module that it includes, exactly when no kind before it leads to this parent first.
-/
theorem precedes_parents_iff {registry : Registry} (declared : registry.Declared)
    (mixins : registry.IncludesMixins) {path : String}
    (acyclic : ∀ kind ∈ registry.ancestors path, ¬ TransGen (Link registry.kinds) kind kind)
    {kind : String} (listed : kind ∈ registry.ancestors path) :
    (∀ superclass definition, SuperLink registry.kinds kind superclass →
        registry.kinds.get? superclass = some definition → definition.flavour = .instantiable →
        [kind, superclass] <+ registry.ancestors path) ∧
      ∀ parent, Link registry.kinds kind parent → Defined registry.kinds parent →
        ([kind, parent] <+ registry.ancestors path ↔
          ∀ other, [other, kind] <+ registry.ancestors path →
            ¬ LeadsFirst registry.kinds other parent kind) :=
  ⟨fun _ _ => pair_sublist_superclass declared mixins acyclic listed,
    fun _ => pair_sublist_ancestors_iff acyclic listed⟩

/-! ## A module that is shared -/

/-- Links to kinds of a lower rank lead in no circle. -/
theorem not_transGen_of_rank {kinds : Table Definition} (rank : String → Nat)
    (falls : ∀ entry ∈ kinds.entries, ∀ parent ∈ entry.2.parents, rank parent < rank entry.1)
    (kind : String) : ¬ TransGen (Link kinds) kind kind := by
  have lower {kind parent : String} (link : Link kinds kind parent) : rank parent < rank kind := by
    obtain ⟨definition, found⟩ := link.defined
    exact falls _ (Table.mem_entries_of_get? found) parent ((link_iff found).mp link)
  have lowest {kind other : String} (way : TransGen (Link kinds) kind other) :
      rank other < rank kind := by
    induction way with
    | single link => exact lower link
    | tail _ link ih => exact Nat.lt_trans (lower link) ih
  exact fun circle => Nat.lt_irrefl _ (lowest circle)

theorem everyKind_of_entries {P : Definition → Prop} {registry : Registry}
    (h : ∀ entry ∈ registry.kinds.entries, P entry.2) : registry.EveryKind P :=
  fun _ _ found => h _ (Table.mem_entries_of_get? found)

/-- The place of a kind among the definitions. -/
def rank (registry : Registry) (kind : String) : Nat :=
  (registry.kinds.entries.map Prod.fst).idxOf kind

/-- A class that includes a module which its superclass includes as well. -/
def money : Registry :=
  core.declareAll [.defineClass "Money" "Numeric", .mixIn "Money" "Comparable"]

theorem money_declared : money.Declared :=
  ⟨_, .inr rfl⟩

theorem money_includesMixins : money.IncludesMixins :=
  everyKind_of_entries (by decide +kernel)

theorem money_acyclic (kind : String) : ¬ TransGen (Link money.kinds) kind kind :=
  not_transGen_of_rank money.rank (by decide +kernel) kind

/-- The superclass comes before its own superclass, but not before the module, to which the class
leads first. -/
theorem precedes_parents_iff_money :
    ["Numeric", "Object"] <+ money.ancestors "Money" ∧
      LeadsFirst money.kinds "Money" "Comparable" "Numeric" ∧
      ¬ ["Numeric", "Comparable"] <+ money.ancestors "Money" := by
  have listed : "Numeric" ∈ money.ancestors "Money" := by decide +kernel
  obtain ⟨below, beside⟩ := precedes_parents_iff money_declared money_includesMixins
    (fun kind _ => money_acyclic kind) listed
  have leads : LeadsFirst money.kinds "Money" "Comparable" "Numeric" :=
    ⟨[], ⟨⟨.instantiable, some "Numeric", ["Comparable"], .empty⟩, ["Numeric"],
      by decide +kernel, rfl⟩, by simp⟩
  have shared := beside "Comparable" (by decide +kernel) (by decide +kernel)
  exact ⟨below "Object" ⟨.instantiable, some "BasicObject", ["Kernel"], .empty⟩
    (by decide +kernel) (by decide +kernel) rfl, leads,
    fun pair => shared.mp pair "Money" (by decide +kernel) leads⟩

/-- A module that a class and its superclass include comes before the superclass, which includes it. -/
theorem shared_module_comes_early :
    money.Declared ∧ money.IncludesMixins ∧
      (∀ kind ∈ money.ancestors "Money", ¬ TransGen (Link money.kinds) kind kind) ∧
      money.ancestors "Money" =
        ["Money", "Comparable", "Numeric", "Object", "Kernel", "BasicObject"] ∧
      Link money.kinds "Numeric" "Comparable" ∧ Defined money.kinds "Comparable" ∧
      ¬ ["Numeric", "Comparable"] <+ money.ancestors "Money" :=
  ⟨money_declared, money_includesMixins, fun kind _ => money_acyclic kind, by decide +kernel,
    by decide +kernel, by decide +kernel, by decide +kernel⟩

end Registry

end DocTypes
