import DocTypes.Registry

/-!
# Ancestors

The ancestors of a kind are the defined kinds that can be reached from it through included modules
and superclasses, in the order in which methods are looked up. `walk` visits them depth first. It
keeps the definitions of the kinds that are not visited yet, so a kind is visited once, and a cycle
of superclasses or inclusions does no harm.
-/

namespace DocTypes.Registry

/-- One for each definition and one for each of its parents: a bound on the steps of a walk. -/
def weight : List (String × Definition) → Nat
  | [] => 0
  | entry :: entries => entry.2.parents.length + 1 + weight entries

/-- Visiting a kind takes away more weight than its parents add. -/
theorem weight_filter {name : String} {entries : List (String × Definition)}
    {definition : Definition} (h : Table.find name entries = some definition) :
    weight (entries.filter (·.1 ≠ name)) + definition.parents.length + 1 ≤ weight entries := by
  have shrinks : ∀ list : List (String × Definition),
      weight (list.filter (·.1 ≠ name)) ≤ weight list := by
    intro list
    induction list with
    | nil => simp
    | cons entry list ih =>
      by_cases kept : entry.1 = name
      · rw [List.filter_cons_of_neg (by simpa using kept)]
        simp only [weight] at ih ⊢
        omega
      · rw [List.filter_cons_of_pos (by simpa using kept)]
        simp only [weight] at ih ⊢
        omega
  induction entries with
  | nil => simp [Table.find] at h
  | cons entry entries ih =>
    obtain ⟨key, value⟩ := entry
    by_cases found : name = key
    · subst found
      simp only [Table.find, if_pos] at h
      cases h
      have rest := shrinks entries
      rw [List.filter_cons_of_neg (by simp)]
      simp only [weight] at rest ⊢
      omega
    · rw [Table.find, if_neg found] at h
      have rest := ih h
      have other : ¬ key = name := fun equal => found equal.symm
      rw [List.filter_cons_of_pos (by simpa using other)]
      simp only [weight] at rest ⊢
      omega

/-- Visits the kinds in `pending` and all that is reached from them, depth first. The table holds
the definitions of the kinds that were not visited before. -/
def walk (unvisited : Table Definition) : List String → List String
  | [] => []
  | path :: pending =>
    match _found : unvisited.get? path with
    | some definition => path :: walk (unvisited.erase path) (definition.parents ++ pending)
    | none => walk unvisited pending
termination_by pending => weight unvisited.entries + pending.length
decreasing_by
  · have lighter := weight_filter _found
    simp only [Table.erase, List.length_append, List.length_cons]
    omega
  · simp

/-- The class whose ancestors every undefined kind has. -/
def rootClass : String := "Object"

/-- The ancestors of the kind that a path stands for, nearest first. A kind that is not defined is
followed by the ancestors of the root class. -/
def ancestors (registry : Registry) (path : String) : List String :=
  let kind := registry.canonicalKind path
  if registry.kinds.contains kind then walk registry.kinds [kind]
  else kind :: walk registry.kinds [rootClass]

end DocTypes.Registry
