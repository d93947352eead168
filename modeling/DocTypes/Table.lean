/-!
# Tables

A table gives values to names. It is a list of entries in the order of their first insertion.
`get?_insert`, `get?_adjust` and `get?_erase` say what each operation does to a look-up.
-/

namespace DocTypes

/-- The entries of a table. -/
structure Table (α : Type) where
  entries : List (String × α)
deriving Repr

namespace Table

variable {α : Type}

/-- The table without entries. -/
def empty : Table α := ⟨[]⟩

/-- The value of the first entry with the given name. -/
def find (name : String) : List (String × α) → Option α
  | [] => none
  | (key, value) :: entries => if name = key then some value else find name entries

/-- The value of a name. -/
def get? (table : Table α) (name : String) : Option α :=
  find name table.entries

/-- The table has a value for the name. -/
def contains (table : Table α) (name : String) : Bool :=
  (table.get? name).isSome

/-- The entries with the value of one name replaced, or added at the end. -/
def put (name : String) (value : α) : List (String × α) → List (String × α)
  | [] => [(name, value)]
  | (key, old) :: entries =>
    if name = key then (key, value) :: entries else (key, old) :: put name value entries

/-- Gives a value to a name, in place of any older value. -/
def insert (table : Table α) (name : String) (value : α) : Table α :=
  ⟨put name value table.entries⟩

/-- Gives a value to a name that has none. -/
def insertNew (table : Table α) (name : String) (value : α) : Table α :=
  if table.contains name then table else table.insert name value

/-- Changes the value of a name, if it has one. -/
def adjust (table : Table α) (name : String) (change : α → α) : Table α :=
  match table.get? name with
  | some value => table.insert name (change value)
  | none => table

/-- Removes a name. -/
def erase (table : Table α) (name : String) : Table α :=
  ⟨table.entries.filter (·.1 ≠ name)⟩

theorem find_put (name other : String) (value : α) (entries : List (String × α)) :
    find other (put name value entries) = if other = name then some value else find other entries := by
  induction entries with
  | nil => simp [put, find]
  | cons entry entries ih =>
    obtain ⟨key, old⟩ := entry
    by_cases found : name = key
    · simp only [put, if_pos found, find]
      split <;> simp_all
    · simp only [put, if_neg found, find, ih]
      split <;> split <;> simp_all

theorem find_filter (name other : String) (entries : List (String × α)) :
    find other (entries.filter (·.1 ≠ name)) = if other = name then none else find other entries := by
  induction entries with
  | nil => simp [find]
  | cons entry entries ih =>
    obtain ⟨key, value⟩ := entry
    by_cases kept : key = name
    · rw [List.filter_cons_of_neg (by simpa using kept), ih]
      by_cases same : other = name <;> simp [find, kept, same]
    · rw [List.filter_cons_of_pos (by simpa using kept), find, ih, find]
      split <;> split <;> simp_all

theorem mem_of_find {name : String} {value : α} {entries : List (String × α)}
    (found : find name entries = some value) : (name, value) ∈ entries := by
  fun_induction find name entries with
  | case1 => cases found
  | case2 =>
    cases found
    exact List.mem_cons_self
  | case3 _ _ _ _ ih => exact List.mem_cons_of_mem _ (ih found)

theorem mem_entries_of_get? {table : Table α} {name : String} {value : α}
    (found : table.get? name = some value) : (name, value) ∈ table.entries :=
  mem_of_find found

@[simp]
theorem get?_empty (name : String) : (empty : Table α).get? name = none :=
  rfl

theorem get?_insert (table : Table α) (name other : String) (value : α) :
    (table.insert name value).get? other =
      if other = name then some value else table.get? other :=
  find_put name other value table.entries

theorem get?_insertNew (table : Table α) (name other : String) (value : α) :
    (table.insertNew name value).get? other =
      if other = name then some ((table.get? name).getD value) else table.get? other := by
  unfold insertNew contains
  cases found : table.get? name with
  | none => simp [get?_insert]
  | some old => by_cases same : other = name <;> simp [same, found]

theorem get?_adjust (table : Table α) (name other : String) (change : α → α) :
    (table.adjust name change).get? other =
      if other = name then (table.get? name).map change else table.get? other := by
  unfold adjust
  cases found : table.get? name with
  | none => by_cases same : other = name <;> simp [same, found]
  | some value => simp [get?_insert]

theorem get?_erase (table : Table α) (name other : String) :
    (table.erase name).get? other = if other = name then none else table.get? other :=
  find_filter name other table.entries

end Table

end DocTypes
