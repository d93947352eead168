import DocTypes.Proofs.Satisfaction

/-!
# Views are coherent

The views of a value fit together. A sequence has a value at each position below its length and at no
other, so the check of a tuple never misses one once it has compared the lengths
(`positions_coherent`). The positions of items are their elements, those of a text spell the text, and
those of a hash are found under the integer keys.

A hash can be enumerated in two ways: as elements that are pairs, or as a column of keys and a column
of values. To check each pair against a type for keys and a type for values comes to the same answer
as to check the columns, whatever the pairs are (`pairs_agree_with_columns`).
-/

namespace DocTypes

/-! ## Positions -/

namespace Sequence

/-- The values at the positions of a sequence, in order. -/
def values : Sequence → List Value
  | items list => list
  | characters list => list.map fun c => .string c.toString
  | pairs list => (List.range list.length).map (lookup list)

/-- The value is the integer `number`. -/
def IsInteger (number : Nat) (value : Value) : Prop :=
  ∃ word : Int64, value = .integer word ∧ word.toInt = number

/-- What is found in a list of pairs under an integer key.

* `first`: the value of the first pair with that key.
* `missing`: nil, if no pair has the key. -/
inductive FoundAt (list : List (Value × Value)) (number : Nat) : Value → Prop
  | first {front back : List (Value × Value)} {key value : Value} :
      list = front ++ (key, value) :: back → IsInteger number key →
      (∀ pair ∈ front, ¬ IsInteger number pair.1) → FoundAt list number value
  | missing : (∀ pair ∈ list, ¬ IsInteger number pair.1) → FoundAt list number .nil

section Positions

variable {sequence : Sequence} {list : List (Value × Value)} {index : Nat}

@[simp]
theorem length_values (sequence : Sequence) : sequence.values.length = sequence.length := by
  cases sequence <;> simp [values, length]

/-- At a position below the length of a hash, its index is looked up. -/
theorem get?_pairs (small : index < 0x8000000000000000) (inside : index < list.length) :
    (pairs list).get? index = some (lookup list index) :=
  if_pos ⟨inside, small⟩

/-- What is at a position is the value listed for it. -/
theorem get?_eq_getElem? (fits : sequence.length < 0x8000000000000000) (index : Nat) :
    sequence.get? index = sequence.values[index]? := by
  cases sequence with
  | items list => rfl
  | characters list => simp [get?, values]
  | pairs list =>
    by_cases inside : index < list.length
    · rw [get?_pairs (Nat.lt_trans inside fits) inside]
      simp [values, inside]
    · simp [get?, values, inside]

theorem isSome_get?_iff (fits : sequence.length < 0x8000000000000000) :
    (sequence.get? index).isSome ↔ index < sequence.length := by
  rw [get?_eq_getElem? fits]
  simp

/-- A number below 2^63 is the same number as a 64-bit integer. -/
theorem equal_integer_iff (small : index < 0x8000000000000000) (key : Value) :
    key.equal (.integer (.ofNat index)) = true ↔ IsInteger index key := by
  have exact : (Int64.ofNat index).toInt = index := Int64.toInt_ofNat_of_lt (by omega)
  constructor
  · intro same
    cases key with
    | integer word =>
      have eq : word = .ofNat index := eq_of_beq same
      exact ⟨word, rfl, eq ▸ exact⟩
    | _ => cases same
  · rintro ⟨word, rfl, eq⟩
    have same : word = .ofNat index := Int64.toInt_inj.mp (eq.trans exact.symm)
    exact beq_iff_eq.mpr same

theorem foundAt_lookup (small : index < 0x8000000000000000) (list : List (Value × Value)) :
    FoundAt list index (lookup list index) := by
  unfold lookup
  cases found : list.find? fun pair => pair.1.equal (.integer (.ofNat index)) with
  | none =>
    refine .missing fun pair listed => ?_
    rw [← equal_integer_iff small]
    exact List.find?_eq_none.mp found pair listed
  | some pair =>
    obtain ⟨same, front, back, eq, others⟩ := List.find?_eq_some_iff_append.mp found
    refine .first eq ((equal_integer_iff small _).mp same) fun pair listed => ?_
    rw [← equal_integer_iff small]
    simpa using others pair listed

end Positions

end Sequence

/-! ### The check of a tuple -/

/-- When there are as many positions as types, each type is put to the value at its position, and
there is no other way out than the answer of a type. -/
theorem inquireEach_eq_all {sequence : Sequence} (fits : sequence.length < 0x8000000000000000)
    (cell : Cell) (types : List Ty) (index : Nat)
    (arity : sequence.length = index + types.length) :
    inquireEach cell index types sequence =
      .all ((types.zip (sequence.values.drop index)).zipIdx index) fun part =>
        part.1.1.inquire (cell ++ [part.2]) part.1.2 := by
  induction types generalizing index with
  | nil => rfl
  | cons type types ih =>
    have inside : index < sequence.values.length := by
      rw [Sequence.length_values, arity, List.length_cons]
      omega
    have here : sequence.get? index = some sequence.values[index] := by
      rw [Sequence.get?_eq_getElem? fits, List.getElem?_eq_getElem inside]
    have rest := ih (index + 1) (by rw [arity, List.length_cons]; omega)
    rw [inquireEach, here, List.drop_eq_getElem_cons inside, List.zip_cons_cons, List.zipIdx_cons]
    show (type.inquire _ _).andThen _ = (type.inquire _ _).andThen _
    rw [rest]

/-! ### The positions of each kind of value -/

theorem join_toString (text : List Char) :
    String.join (text.map Char.toString) = String.ofList text := by
  induction text with
  | nil => rfl
  | cons c text ih => simp [String.join_cons, ih]

/-- The value is an array of the items, or an object in the shape of their list. -/
def Value.Lists (value : Value) (items : List Value) : Prop :=
  value = .array items ∨ ∃ body, value = .object body ∧ body.shape = .list items

theorem Value.Lists.views {value : Value} {items : List Value} (h : value.Lists items) :
    value.elements? = some items ∧ value.sequence? = some (.items items) := by
  rcases h with rfl | ⟨body, rfl, shape⟩
  · exact ⟨rfl, rfl⟩
  · simp [elements?, sequence?, shape]

/-- A value with positions has a value at each position below its length and at no other. So when the
length is that of a tuple, the check of the tuple has no way out for a missing value: each type is put
to the value at its position. The positions of an array and of a list-shaped object are their
elements. Those of a text are texts of one character that spell it in order. Those of a hash are what
the first pair with the position as its key holds, or nil. -/
theorem positions_coherent {value : Value} {sequence : Sequence}
    (viewed : value.sequence? = some sequence) (fits : sequence.length < 0x8000000000000000) :
    (∀ index, (sequence.get? index).isSome ↔ index < sequence.length) ∧
      (∀ index, sequence.get? index = sequence.values[index]?) ∧
      (∀ cell types, sequence.length = types.length →
        inquireEach cell 0 types sequence = .all (types.zip sequence.values).zipIdx fun part =>
          part.1.1.inquire (cell ++ [part.2]) part.1.2) ∧
      (∀ items, value.Lists items → value.elements? = some items ∧
        sequence.length = items.length ∧ ∀ index, sequence.get? index = items[index]?) ∧
      (∀ text, value = .string text → ∃ parts : List String, String.join parts = text ∧
        (∀ part ∈ parts, part.length = 1) ∧ sequence.length = parts.length ∧
        ∀ index, sequence.get? index = parts[index]?.map .string) ∧
      (∀ pairs, value = .hash pairs → sequence.length = pairs.length ∧
        ∀ index < sequence.length, ∃ found, sequence.get? index = some found ∧
          Sequence.FoundAt pairs index found) := by
  refine ⟨fun _ => Sequence.isSome_get?_iff fits, Sequence.get?_eq_getElem? fits,
    fun cell types arity => ?_, fun items lists => ?_, ?_, ?_⟩
  · exact inquireEach_eq_all fits cell types 0 (arity.trans (Nat.zero_add _).symm)
  · obtain ⟨elements, positions⟩ := lists.views
    cases viewed.symm.trans positions
    exact ⟨elements, rfl, fun _ => rfl⟩
  · rintro text rfl
    cases viewed
    refine ⟨text.toList.map Char.toString, ?_, ?_, ?_, fun index => ?_⟩
    · rw [join_toString, String.ofList_toList]
    · simp
    · simp [Sequence.length]
    · simp [Sequence.get?, Function.comp_def]
  · rintro pairs rfl
    cases viewed
    refine ⟨rfl, fun index inside => ?_⟩
    have small : index < 0x8000000000000000 := Nat.lt_trans inside fits
    exact ⟨_, Sequence.get?_pairs small inside, Sequence.foundAt_lookup small pairs⟩

/-- A hash with a repeated key, which counts the first time, and with a key that is no number. -/
theorem positions_coherent_repeated :
    (Value.hash [(.integer 1, .string "one"), (.symbol "zero", .bool true),
        (.integer 1, .nil)]).sequence? =
      some (.pairs [(.integer 1, .string "one"), (.symbol "zero", .bool true),
        (.integer 1, .nil)]) ∧
    Sequence.FoundAt [(.integer 1, .string "one"), (.symbol "zero", .bool true),
      (.integer 1, .nil)] 1 (.string "one") ∧
    Sequence.FoundAt [(.integer 1, .string "one"), (.symbol "zero", .bool true),
      (.integer 1, .nil)] 0 .nil := by
  obtain ⟨-, -, -, -, -, keys⟩ := @positions_coherent (.hash [(.integer 1, .string "one"),
    (.symbol "zero", .bool true), (.integer 1, .nil)]) _ rfl (by decide)
  obtain ⟨-, found⟩ := keys _ rfl
  obtain ⟨one, at1, first⟩ := found 1 (by decide)
  obtain ⟨zero, at0, missing⟩ := found 0 (by decide)
  cases at1
  cases at0
  exact ⟨rfl, first, missing⟩

/-! ## Pairs and columns -/

section Pairs

variable {model : Model} {key item : Ty} {k v : Value} {pairs : List (Value × Value)}

theorem admitsAny_singleton_iff {type : Ty} {value : Value} :
    Ty.AdmitsAny model [type] value ↔ type.Admits model value := by
  simp [admitsAny_iff]

/-- A pair satisfies the types of its key and its value. -/
theorem admits_pair_iff :
    (Ty.tuple none [key, item]).Admits model (.array [k, v]) ↔
      key.Admits model k ∧ item.Admits model v := by
  rw [admits_tuple_iff]
  simp [Value.sequence?, Sequence.length, forall_getElem?_cons_iff, Sequence.get?,
    admitsAt_some_iff]

/-- The elements of a hash are its pairs. -/
theorem admits_pairs_iff {name : String} :
    (Ty.collection name [.tuple none [key, item]]).Admits model (.hash pairs) ↔
      OfKind model name (.hash pairs) ∧
        ∀ pair ∈ pairs, key.Admits model pair.1 ∧ item.Admits model pair.2 := by
  rw [admits_collection_iff]
  simp only [Value.elements?, Option.some.injEq, exists_eq_left', List.forall_mem_map,
    admitsAny_singleton_iff, admits_pair_iff]

/-- The columns of a hash are the first and the second parts of its pairs. -/
theorem admits_columns_iff {name : String} :
    (Ty.hash name [key] [item]).Admits model (.hash pairs) ↔
      ∀ pair ∈ pairs, key.Admits model pair.1 ∧ item.Admits model pair.2 := by
  rw [admits_hash_iff]
  simp only [Value.columns?, Option.some.injEq, exists_eq_left', List.forall_mem_map,
    admitsAny_singleton_iff]
  exact forall₂_and.symm

end Pairs

/-- For a kind that a hash is of, and for types whose literals and names are known, the collection of
pairs of a key and an item gives the same answer on the hash as the hash type of these keys and
items. Both say yes exactly when each pair has a key and an item of the types. -/
theorem pairs_agree_with_columns {model : Model} {name : String} {handle : Handle}
    {pairs : List (Value × Value)} {key item : Ty} (other : name ≠ booleanKind)
    (found : model.resolve name = .kind handle)
    (ofKind : model.isKindOf (.hash pairs) handle = true)
    (known : ∀ type ∈ key.within ++ item.within, type.Known model) (label : String) :
    ∃ accepted,
      ((Checker.ofTypes [.collection name [.tuple none [key, item]]]).check model
        (.hash pairs)).outcome = .ok accepted ∧
      ((Checker.ofTypes [.hash label [key] [item]]).check model (.hash pairs)).outcome =
        .ok accepted ∧
      (accepted = true ↔ ∀ pair ∈ pairs, key.Admits model pair.1 ∧ item.Admits model pair.2) := by
  have pairsKnown : ∀ type ∈ Ty.withinList [.collection name [.tuple none [key, item]]],
      type.Known model := by
    simp only [Ty.withinList, Ty.within, List.append_nil, List.forall_mem_cons]
    exact ⟨.of_resolve rfl found, .of_unnamed rfl (by simp), known⟩
  have columnsKnown : ∀ type ∈ Ty.withinList [.hash label [key] [item]], type.Known model := by
    simp only [Ty.withinList, Ty.within, List.append_nil, List.forall_mem_cons]
    exact ⟨.of_unnamed rfl (by simp), known⟩
  obtain ⟨byPairs, outcome, yes⟩ := decides_evaluateAny _ pairsKnown (.hash pairs)
  obtain ⟨byColumns, outcome', yes'⟩ := decides_evaluateAny _ columnsKnown (.hash pairs)
  rw [admitsAny_singleton_iff, admits_pairs_iff, ofKind_iff_of_resolve other found,
    and_iff_right ofKind] at yes
  rw [admitsAny_singleton_iff, admits_columns_iff] at yes'
  have same : byColumns = byPairs := Bool.eq_iff_iff.mpr (yes'.trans yes.symm)
  exact ⟨byPairs, by rw [check_ofTypes, outcome], by rw [check_ofTypes, outcome', same], yes⟩

/-- A repeated key, and arrays of which one is empty. -/
theorem pairs_agree_with_columns_repeated :
    (∀ type ∈ (Ty.kind "Symbol").within ++ (Ty.collection "Array" [.kind "Integer"]).within,
      type.Known Registry.core.model) ∧
    ((Checker.ofTypes [.collection "Enumerable" [.tuple none [.kind "Symbol",
        .collection "Array" [.kind "Integer"]]]]).check Registry.core.model
        (.hash [(.symbol "a", .array [.integer 1]), (.symbol "a", .array [])])).outcome = .ok true ∧
    ((Checker.ofTypes [.hash "Hash" [.kind "Symbol"]
        [.collection "Array" [.kind "Integer"]]]).check Registry.core.model
        (.hash [(.symbol "a", .array [.integer 1]), (.symbol "a", .array [])])).outcome =
      .ok true := by
  have symbol : Registry.core.model.resolve "Symbol" = .kind ⟨"Symbol"⟩ := by decide +kernel
  have array : Registry.core.model.resolve "Array" = .kind ⟨"Array"⟩ := by decide +kernel
  have integer : Registry.core.model.resolve "Integer" = .kind ⟨"Integer"⟩ := by decide +kernel
  have known : ∀ type ∈ (Ty.kind "Symbol").within ++
      (Ty.collection "Array" [.kind "Integer"]).within, type.Known Registry.core.model := by
    simp only [Ty.within, Ty.withinList, List.cons_append, List.nil_append, List.append_nil,
      List.forall_mem_cons]
    exact ⟨.of_resolve rfl symbol, .of_resolve rfl array, .of_resolve rfl integer, by simp⟩
  obtain ⟨accepted, byPairs, byColumns, -⟩ := @pairs_agree_with_columns Registry.core.model
    "Enumerable" ⟨"Enumerable"⟩ [(.symbol "a", .array [.integer 1]), (.symbol "a", .array [])]
    (.kind "Symbol") (.collection "Array" [.kind "Integer"]) (by decide) (by decide +kernel)
    (by decide +kernel) known "Hash"
  have answer : accepted = true := by
    refine Except.ok.inj (byPairs.symm.trans ?_)
    decide +kernel
  subst answer
  exact ⟨known, byPairs, byColumns⟩

end DocTypes
