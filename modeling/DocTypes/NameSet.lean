/-!
# Sets of names

A set of names is a list without repetitions. A name that the set holds is not added again.
`mem_insert` and `mem_insertAll` say what adding does to membership. Two sets are the same when each
holds the names of the other, whatever the order in which they were added.
-/

namespace DocTypes

/-- The names of a set, in the order in which they were first added, each of them once. -/
structure NameSet where
  names : List String
  nodup : names.Nodup
deriving DecidableEq, Repr

namespace NameSet

/-- The set without names. -/
def empty : NameSet := ⟨[], List.nodup_nil⟩

instance : Membership String NameSet := ⟨fun set name => name ∈ set.names⟩

instance (name : String) (set : NameSet) : Decidable (name ∈ set) :=
  inferInstanceAs (Decidable (name ∈ set.names))

/-- Adds a name, unless the set holds it. -/
def insert (set : NameSet) (name : String) : NameSet :=
  if held : name ∈ set then set
  else
    { names := set.names ++ [name]
      nodup := by
        refine List.nodup_append.mpr ⟨set.nodup, by simp, fun other mem last here same => ?_⟩
        cases List.mem_singleton.mp here
        exact held (same ▸ mem) }

/-- Adds names in order. -/
def insertAll (set : NameSet) (names : List String) : NameSet :=
  names.foldl insert set

/-- The set of the names in a list. -/
def ofList (names : List String) : NameSet :=
  empty.insertAll names

/-- Each set holds the names of the other. -/
def same (a b : NameSet) : Bool :=
  a.names.all (· ∈ b) && b.names.all (· ∈ a)

theorem mem_iff {set : NameSet} {name : String} : name ∈ set ↔ name ∈ set.names :=
  Iff.rfl

theorem insert_of_mem {set : NameSet} {name : String} (held : name ∈ set) : set.insert name = set :=
  dif_pos held

theorem mem_insert {set : NameSet} {name other : String} :
    other ∈ set.insert name ↔ other ∈ set ∨ other = name := by
  by_cases held : name ∈ set
  · rw [insert_of_mem held]
    exact ⟨Or.inl, fun h => h.elim id fun same => same ▸ held⟩
  · simp [insert, held, mem_iff]

theorem insertAll_of_subset {set : NameSet} {names : List String}
    (held : ∀ name ∈ names, name ∈ set) : set.insertAll names = set := by
  induction names with
  | nil => rfl
  | cons name names ih =>
    obtain ⟨here, later⟩ := List.forall_mem_cons.mp held
    rw [insertAll, List.foldl_cons, insert_of_mem here]
    exact ih later

theorem mem_insertAll {set : NameSet} {names : List String} {other : String} :
    other ∈ set.insertAll names ↔ other ∈ set ∨ other ∈ names := by
  induction names generalizing set with
  | nil => simp [insertAll]
  | cons name names ih =>
    have step : set.insertAll (name :: names) = (set.insert name).insertAll names := rfl
    rw [step, ih, mem_insert, List.mem_cons, or_assoc]

theorem same_iff {a b : NameSet} : a.same b = true ↔ ∀ name, name ∈ a ↔ name ∈ b := by
  simp only [same, Bool.and_eq_true, List.all_eq_true, decide_eq_true_eq]
  exact ⟨fun h name => ⟨h.1 name, h.2 name⟩, fun h => ⟨fun x => (h x).1, fun x => (h x).2⟩⟩

theorem same_comm (a b : NameSet) : a.same b = b.same a :=
  Bool.and_comm ..

theorem same_trans {a b c : NameSet} (first : a.same b = true) (second : b.same c = true) :
    a.same c = true := by
  rw [same_iff] at first second ⊢
  exact fun name => (first name).trans (second name)

end NameSet

end DocTypes
