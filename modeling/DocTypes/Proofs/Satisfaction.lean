import DocTypes.Proofs.Memo

/-!
# What types mean

`Ty.Admits` says what it is for a value to satisfy a type, with no order among alternatives,
elements or positions, and without errors. A check comes to exactly that answer whenever the words
and names that it may meet are known (`check_iff_admits`): wherever it stops early, what it has not
looked at can no longer change the answer.
-/

namespace DocTypes

/-! ## The meaning of a type -/

/-- The value is of the kind that a name stands for. No model is asked about the truth values. -/
inductive OfKind (model : Model) : String → Value → Prop
  | truth {truth : Bool} : OfKind model booleanKind (.bool truth)
  | resolved {name : String} {handle : Handle} {value : Value} :
      name ≠ booleanKind → model.resolve name = .kind handle →
      model.isKindOf value handle = true → OfKind model name value

/-- The value is what a literal stands for. -/
def Denotes (name : String) (value : Value) : Prop :=
  (name = "true" ∧ value = .bool true) ∨ (name = "false" ∧ value = .bool false) ∨
    (name = "nil" ∧ value = .nil) ∨ name = "void" ∨ name = "self"

namespace Ty

mutual

/-- The value satisfies the type. -/
inductive Admits (model : Model) : Ty → Value → Prop
  | kind {name : String} {value : Value} :
      OfKind model name value → Admits model (.kind name) value
  | duck {name : String} {value : Value} :
      model.respondsTo value (Ty.message name) = true → Admits model (.duck name) value
  | literal {name : String} {value : Value} :
      Denotes name value → Admits model (.literal name) value
  | collection {name : String} {types : List Ty} {value : Value} {elements : List Value} :
      OfKind model name value → value.elements? = some elements →
      (∀ element ∈ elements, AdmitsAny model types element) →
      Admits model (.collection name types) value
  | tuple {name : Option String} {types : List Ty} {value : Value} {sequence : Sequence} :
      (∀ given ∈ name, OfKind model given value) → value.sequence? = some sequence →
      sequence.length = types.length →
      (∀ index type, types[index]? = some type → AdmitsAt model type (sequence.get? index)) →
      Admits model (.tuple name types) value
  | hash {name : String} {keys values : List Ty} {value : Value} {columns : Columns} :
      value.columns? = some columns → (∀ key ∈ columns.keys, AdmitsAny model keys key) →
      (∀ item ∈ columns.values, AdmitsAny model values item) →
      Admits model (.hash name keys values) value

/-- The value satisfies some type of a list. -/
inductive AdmitsAny (model : Model) : List Ty → Value → Prop
  | intro {type : Ty} {types : List Ty} {value : Value} :
      type ∈ types → Admits model type value → AdmitsAny model types value

/-- There is a value, and it satisfies the type. -/
inductive AdmitsAt (model : Model) : Ty → Option Value → Prop
  | intro {type : Ty} {value : Value} : Admits model type value → AdmitsAt model type (some value)

end

end Ty

open Ty

section Meaning

variable {model : Model} {name : String} {type : Ty} {types keys values : List Ty} {value : Value}

theorem ofKind_booleanKind_iff :
    OfKind model booleanKind value ↔ ∃ truth, value = .bool truth := by
  constructor
  · rintro (_ | ⟨other, _, _⟩)
    · exact ⟨_, rfl⟩
    · exact absurd rfl other
  · rintro ⟨truth, rfl⟩
    exact .truth

theorem ofKind_iff_of_resolve {handle : Handle} (other : name ≠ booleanKind)
    (found : model.resolve name = .kind handle) :
    OfKind model name value ↔ model.isKindOf value handle = true := by
  refine ⟨fun h => ?_, .resolved other found⟩
  cases h with
  | truth => exact absurd rfl other
  | resolved _ given answer =>
    cases found.symm.trans given
    exact answer

theorem admitsAny_iff :
    AdmitsAny model types value ↔ ∃ type ∈ types, type.Admits model value := by
  constructor
  · rintro ⟨mem, admits⟩
    exact ⟨_, mem, admits⟩
  · rintro ⟨type, mem, admits⟩
    exact .intro mem admits

theorem admitsAny_cons_iff :
    AdmitsAny model (type :: types) value ↔
      type.Admits model value ∨ AdmitsAny model types value := by
  simp only [admitsAny_iff, List.mem_cons, exists_eq_or_imp]

theorem not_admitsAt_none : ¬ AdmitsAt model type none := nofun

theorem admitsAt_some_iff : AdmitsAt model type (some value) ↔ type.Admits model value :=
  ⟨fun | .intro h => h, .intro⟩

theorem admits_kind_iff : (Ty.kind name).Admits model value ↔ OfKind model name value :=
  ⟨fun | .kind h => h, .kind⟩

theorem admits_duck_iff :
    (Ty.duck name).Admits model value ↔ model.respondsTo value (Ty.message name) = true :=
  ⟨fun | .duck h => h, .duck⟩

theorem admits_literal_iff : (Ty.literal name).Admits model value ↔ Denotes name value :=
  ⟨fun | .literal h => h, .literal⟩

theorem admits_collection_iff :
    (Ty.collection name types).Admits model value ↔ OfKind model name value ∧
      ∃ elements, value.elements? = some elements ∧
        ∀ element ∈ elements, AdmitsAny model types element := by
  constructor
  · rintro (_ | _ | _ | ⟨kind, viewed, each⟩)
    exact ⟨kind, _, viewed, each⟩
  · rintro ⟨kind, elements, viewed, each⟩
    exact .collection kind viewed each

theorem admits_tuple_iff {name : Option String} :
    (Ty.tuple name types).Admits model value ↔ (∀ given ∈ name, OfKind model given value) ∧
      ∃ sequence, value.sequence? = some sequence ∧ sequence.length = types.length ∧
        ∀ index type, types[index]? = some type → AdmitsAt model type (sequence.get? index) := by
  constructor
  · rintro (_ | _ | _ | _ | ⟨kind, viewed, arity, each⟩)
    exact ⟨kind, _, viewed, arity, each⟩
  · rintro ⟨kind, sequence, viewed, arity, each⟩
    exact .tuple kind viewed arity each

theorem admits_hash_iff :
    (Ty.hash name keys values).Admits model value ↔ ∃ columns, value.columns? = some columns ∧
      (∀ key ∈ columns.keys, AdmitsAny model keys key) ∧
        ∀ item ∈ columns.values, AdmitsAny model values item := by
  constructor
  · rintro (_ | _ | _ | _ | _ | ⟨viewed, eachKey, eachItem⟩)
    exact ⟨_, viewed, eachKey, eachItem⟩
  · rintro ⟨columns, viewed, eachKey, eachItem⟩
    exact .hash viewed eachKey eachItem

end Meaning

/-! ## Known types -/

namespace Ty

mutual

/-- The type and all types within it, at any depth. -/
def within : Ty → List Ty
  | .kind name => [.kind name]
  | .duck name => [.duck name]
  | .literal name => [.literal name]
  | .collection name types => .collection name types :: withinList types
  | .tuple name types => .tuple name types :: withinList types
  | .hash name keys values => .hash name keys values :: (withinList keys ++ withinList values)
termination_by structural type => type

/-- The types of a list and all types within them, at any depth. -/
def withinList : List Ty → List Ty
  | [] => []
  | type :: types => type.within ++ withinList types
termination_by structural types => types

end

/-- A check of the type itself cannot fail: it is no unknown literal, and the name of its kind, if
it asks for one, stands for a kind. -/
structure Known (model : Model) (type : Ty) : Prop where
  literal : ∀ name, type = .literal name → name ∈ literalNames
  kind : ∀ name ∈ type.kindName?, name ≠ booleanKind → ∃ handle, model.resolve name = .kind handle

/-- A type is known when the name of its kind stands for a kind. -/
theorem Known.of_resolve {model : Model} {type : Ty} {name : String} {handle : Handle}
    (named : type.kindName? = some name) (found : model.resolve name = .kind handle) :
    type.Known model where
  literal := by
    rintro word rfl
    cases named
  kind := by
    intro other given _
    cases named.symm.trans given
    exact ⟨handle, found⟩

/-- A type that asks for no kind is known, unless it is a literal. -/
theorem Known.of_unnamed {model : Model} {type : Ty} (unnamed : type.kindName? = none)
    (other : ∀ word, type ≠ .literal word) : type.Known model where
  literal word same := absurd same (other word)
  kind := by
    intro name given
    cases unnamed.symm.trans given

theorem mem_within (type : Ty) : type ∈ type.within := by
  cases type <;> simp [within]

end Ty

/-! ## Outcomes that decide -/

/-- The outcome is an answer, and it is yes exactly when the proposition holds. -/
def Decides (outcome : Except CheckError Bool) (P : Prop) : Prop :=
  ∃ accepted, outcome = .ok accepted ∧ (accepted = true ↔ P)

namespace Decides

variable {first second : Except CheckError Bool} {P Q : Prop}

theorem congr (h : Decides first P) (iff : P ↔ Q) : Decides first Q := by
  obtain ⟨accepted, outcome, yes⟩ := h
  exact ⟨accepted, outcome, yes.trans iff⟩

theorem of_iff {accepted : Bool} (yes : accepted = true ↔ P) : Decides (pure accepted) P :=
  ⟨accepted, rfl, yes⟩

theorem refuse (no : ¬ P) : Decides (pure false) P :=
  of_iff ⟨fun h => absurd h Bool.false_ne_true, fun holds => absurd holds no⟩

/-- The second is left out after a no. -/
theorem and (h : Decides first P) (later : Decides second Q) :
    Decides (do if ← first then second else pure false) (P ∧ Q) := by
  obtain ⟨accepted, rfl, yes⟩ := h
  cases accepted with
  | true => exact later.congr (by simp [← yes])
  | false => exact refuse fun both => absurd (yes.mpr both.1) Bool.false_ne_true

/-- The second is left out after a yes. -/
theorem or (h : Decides first P) (later : Decides second Q) :
    Decides (do if ← first then pure true else second) (P ∨ Q) := by
  obtain ⟨accepted, rfl, yes⟩ := h
  cases accepted with
  | true => exact of_iff (by simp [← yes])
  | false => exact later.congr (by simp [← yes])

/-- The items after the first no are left out. -/
theorem all {α : Type} {outcome : α → Except CheckError Bool} {P : α → Prop}
    (each : ∀ item, Decides (outcome item) (P item)) (items : List α) :
    Decides (items.allM outcome) (∀ item ∈ items, P item) := by
  induction items with
  | nil => exact of_iff (by simp)
  | cons item items ih =>
    rw [List.forall_mem_cons, allM_cons]
    exact (each item).and ih

end Decides

/-! ## Evaluations that decide -/

section Evaluations

variable {model : Model}

/-- A property of each position is one of the first and of the later ones. -/
theorem forall_getElem?_cons_iff {P : Nat → Ty → Prop} {type : Ty} {types : List Ty} :
    (∀ offset part, (type :: types)[offset]? = some part → P offset part) ↔
      P 0 type ∧ ∀ offset part, types[offset]? = some part → P (offset + 1) part := by
  refine ⟨fun each => ⟨each 0 type rfl, fun offset => each (offset + 1)⟩, ?_⟩
  rintro ⟨head, tail⟩ (_ | offset) part found
  · cases found
    exact head
  · exact tail offset part found

theorem decides_kind {name : String}
    (known : name ≠ booleanKind → ∃ handle, model.resolve name = .kind handle) (value : Value) :
    Decides (evaluateKind model name value) (OfKind model name value) := by
  unfold evaluateKind
  split
  · next truth =>
    subst truth
    rw [ofKind_booleanKind_iff]
    refine .of_iff ?_
    cases value <;> simp
  · next other =>
    obtain ⟨handle, found⟩ := known other
    rw [found]
    exact .of_iff (ofKind_iff_of_resolve other found).symm

/-- A tuple may be of no kind. -/
theorem decides_kind? (name : Option String) (value : Value) :
    (∀ given ∈ name, given ≠ booleanKind → ∃ handle, model.resolve given = .kind handle) →
    Decides (match name with
      | some name => evaluateKind model name value
      | none => pure true) (∀ given ∈ name, OfKind model given value) := by
  intro known
  cases name with
  | none => exact .of_iff (by simp)
  | some name => exact (decides_kind (known name rfl) value).congr (by simp)

theorem decides_literal {name : String} (known : name ∈ Ty.literalNames) (value : Value) :
    Decides ((inquireLiteral name value).answer model) (Denotes name value) := by
  simp only [Ty.literalNames, List.mem_cons, List.not_mem_nil, or_false] at known
  unfold Denotes
  obtain rfl | rfl | rfl | rfl | rfl := known
  · show Decides (pure _) _
    refine .of_iff ?_
    split <;> simp_all
  · show Decides (pure _) _
    refine .of_iff ?_
    split <;> simp_all
  · show Decides (pure _) _
    refine .of_iff ?_
    split <;> simp_all
  · exact .of_iff (by simp)
  · exact .of_iff (by simp)

mutual

/-- The evaluation of a type decides its meaning. -/
theorem Ty.decides_evaluate :
    (type : Ty) → (∀ inner ∈ type.within, inner.Known model) → (value : Value) →
    Decides (type.evaluate model value) (type.Admits model value)
  | .kind name, known, value =>
    (decides_kind ((known _ (mem_within _)).kind name rfl) value).congr admits_kind_iff.symm
  | .duck name, known, value => .of_iff admits_duck_iff.symm
  | .literal name, known, value =>
    (decides_literal ((known _ (mem_within _)).literal name rfl) value).congr
      admits_literal_iff.symm
  | .collection name types, known, value => by
    obtain ⟨here, inside⟩ := List.forall_mem_cons.mp known
    rw [Ty.evaluate, admits_collection_iff]
    refine (decides_kind (here.kind name rfl) value).and ?_
    cases viewed : value.elements? with
    | none => exact .refuse (by simp)
    | some elements =>
      exact (Decides.all (decides_evaluateAny types inside) elements).congr (by simp)
  | .tuple name types, known, value => by
    obtain ⟨here, inside⟩ := List.forall_mem_cons.mp known
    simp only [Ty.evaluate]
    rw [admits_tuple_iff]
    refine (decides_kind? name value here.kind).and ?_
    cases viewed : value.sequence? with
    | none => exact .refuse (by simp)
    | some sequence =>
      by_cases arity : sequence.length = types.length
      · simpa [arity] using decides_evaluateEach types inside 0 sequence
      · simpa [arity] using Decides.refuse id
  | .hash name keys values, known, value => by
    obtain ⟨here, inside⟩ := List.forall_mem_cons.mp known
    obtain ⟨keysKnown, valuesKnown⟩ := List.forall_mem_append.mp inside
    rw [Ty.evaluate, admits_hash_iff]
    cases viewed : value.columns? with
    | none => exact .refuse (by simp)
    | some columns =>
      have both := (Decides.all (decides_evaluateAny keys keysKnown) columns.keys).and
        (Decides.all (decides_evaluateAny values valuesKnown) columns.values)
      exact both.congr (by simp)

theorem decides_evaluateAny : (types : List Ty) →
    (∀ inner ∈ Ty.withinList types, inner.Known model) → (value : Value) →
    Decides (evaluateAny model types value) (AdmitsAny model types value)
  | [], known, value => .refuse (by simp [admitsAny_iff])
  | type :: types, known, value => by
    obtain ⟨here, later⟩ := List.forall_mem_append.mp known
    rw [evaluateAny, admitsAny_cons_iff]
    exact (type.decides_evaluate here value).or (decides_evaluateAny types later value)

theorem decides_evaluateEach : (types : List Ty) →
    (∀ inner ∈ Ty.withinList types, inner.Known model) → (index : Nat) → (sequence : Sequence) →
    Decides (evaluateEach model index types sequence) (∀ offset type, types[offset]? = some type →
      AdmitsAt model type (sequence.get? (index + offset)))
  | [], known, index, sequence => .of_iff (by simp)
  | type :: types, known, index, sequence => by
    obtain ⟨here, later⟩ := List.forall_mem_append.mp known
    rw [evaluateEach]
    cases found : sequence.get? index with
    | none =>
      refine .refuse ?_
      simp only [forall_getElem?_cons_iff, Nat.add_zero, found, not_admitsAt_none, false_and,
        not_false_eq_true]
    | some value =>
      have first := type.decides_evaluate here value
      have rest := decides_evaluateEach types later (index + 1) sequence
      refine (first.and rest).congr ?_
      simp only [forall_getElem?_cons_iff, Nat.add_zero, found, admitsAt_some_iff, Nat.add_assoc,
        Nat.add_comm 1]

end

end Evaluations

/-- When every literal is a known word and every name that is asked about stands for a kind, a
checker that has resolved nothing gives an answer, and it says yes exactly to the values that
satisfy some alternative. -/
theorem check_iff_admits (types : List Ty) (model : Model)
    (known : ∀ type ∈ Ty.withinList types, type.Known model) (value : Value) :
    ∃ accepted, ((Checker.ofTypes types).check model value).outcome = .ok accepted ∧
      (accepted = true ↔ ∃ type ∈ types, type.Admits model value) := by
  rw [check_ofTypes, ← admitsAny_iff]
  exact decides_evaluateAny types known value

/-- An array of pairs of a truth value and a hash, whose name stands for nothing. -/
theorem check_iff_admits_pairs :
    ((Checker.ofTypes [.collection "Array" [.tuple none [.kind "Boolean",
          .hash "Missing" [.kind "Symbol"] [.duck "#chars", .literal "nil"]]]]).check
        Registry.core.model (.array [.array [.bool true, .hash [(.symbol "a", .nil)]]])).outcome =
      .ok true ∧
    ∃ type ∈ [Ty.collection "Array" [.tuple none [.kind "Boolean",
          .hash "Missing" [.kind "Symbol"] [.duck "#chars", .literal "nil"]]]],
      type.Admits Registry.core.model (.array [.array [.bool true, .hash [(.symbol "a", .nil)]]]) := by
  have array : Registry.core.model.resolve "Array" = .kind ⟨"Array"⟩ := by decide +kernel
  have symbol : Registry.core.model.resolve "Symbol" = .kind ⟨"Symbol"⟩ := by decide +kernel
  obtain ⟨accepted, outcome, yes⟩ := check_iff_admits [.collection "Array" [.tuple none
      [.kind "Boolean", .hash "Missing" [.kind "Symbol"] [.duck "#chars", .literal "nil"]]]]
    Registry.core.model (fun type mem => by
      simp only [Ty.withinList, Ty.within, List.cons_append, List.nil_append, List.append_nil,
        List.mem_cons, List.not_mem_nil, or_false] at mem
      obtain rfl | rfl | rfl | rfl | rfl | rfl | rfl := mem
      · exact ⟨nofun, fun | _, rfl, _ => ⟨_, array⟩⟩
      · exact ⟨nofun, nofun⟩
      · exact ⟨nofun, fun | _, rfl, other => absurd rfl other⟩
      · exact ⟨nofun, nofun⟩
      · exact ⟨nofun, fun | _, rfl, _ => ⟨_, symbol⟩⟩
      · exact ⟨nofun, nofun⟩
      · exact ⟨fun | _, rfl => by decide, nofun⟩)
    (.array [.array [.bool true, .hash [(.symbol "a", .nil)]]])
  have answer : accepted = true := by
    refine Except.ok.inj (outcome.symm.trans ?_)
    decide +kernel
  subst answer
  exact ⟨outcome, yes.mp rfl⟩

end DocTypes
