import DocTypes.Checker

/-!
# What a check may ask

A cell is the place of a type, so it belongs to one kind at most, and `kindAt?` gives the name of
that kind. A check asks whether a value is of a kind only at a cell of the kind, and never for the
kind of the truth values (`asksOnly_inquireFirst`). `Inquiry.AsksOnly` says it of every course that
a check can take, whatever the answers are.
-/

namespace DocTypes

namespace Ty

/-- The name of the kind that a value of the type has to be of. The name of a hash is no such
kind. -/
def kindName? : Ty → Option String
  | .kind name | .collection name _ => some name
  | .tuple name _ => name
  | .duck _ | .literal _ | .hash _ _ _ => none

/-- The types directly within a type. The values of a hash come after its keys. -/
def parts : Ty → List Ty
  | .collection _ types | .tuple _ types => types
  | .hash _ keys values => keys ++ values
  | .kind _ | .duck _ | .literal _ => []

/-- The type at a cell within a type. -/
def at? (type : Ty) : Cell → Option Ty
  | [] => some type
  | index :: cell => type.parts[index]?.bind fun part => part.at? cell

end Ty

/-- The name of the kind at a cell. -/
def kindAt? (types : List Ty) : Cell → Option String
  | [] => none
  | index :: cell => (types[index]?.bind fun type => type.at? cell).bind Ty.kindName?

/-- The questions that a check of the types may ask. -/
inductive Question.Placed (types : List Ty) : Question → Prop
  | kindOf {cell : Cell} {name : String} {value : Value} :
      kindAt? types cell = some name → name ≠ booleanKind → Placed types (.kindOf cell name value)
  | respondsTo {value : Value} {method : String} : Placed types (.respondsTo value method)

/-- Every question that the inquiry can come to has the property. -/
inductive Inquiry.AsksOnly {α : Type} (P : Question → Prop) : Inquiry α → Prop
  | done {answer : α} : AsksOnly P (.done answer)
  | fail {error : CheckError} : AsksOnly P (.fail error)
  | ask {question : Question} {next : Bool → Inquiry α} :
      P question → (∀ answer, AsksOnly P (next answer)) → AsksOnly P (.ask question next)

namespace Inquiry.AsksOnly

variable {α β : Type} {P : Question → Prop}

theorem bind {first : Inquiry α} {next : α → Inquiry β} (h : AsksOnly P first)
    (later : ∀ answer, AsksOnly P (next answer)) : AsksOnly P (first.bind next) := by
  induction h with
  | done => exact later _
  | fail => exact .fail
  | ask here _ ih => exact .ask here ih

theorem andThen {first : Inquiry Bool} {second : Unit → Inquiry Bool} (h : AsksOnly P first)
    (later : AsksOnly P (second ())) : AsksOnly P (first.andThen second) := by
  refine h.bind fun answer => ?_
  cases answer with
  | true => exact later
  | false => exact .done

theorem orElse {first : Inquiry Bool} {second : Unit → Inquiry Bool} (h : AsksOnly P first)
    (later : AsksOnly P (second ())) : AsksOnly P (first.orElse second) := by
  refine h.bind fun answer => ?_
  cases answer with
  | true => exact .done
  | false => exact later

theorem all {inquire : β → Inquiry Bool} (each : ∀ item, AsksOnly P (inquire item))
    (items : List β) : AsksOnly P (all items inquire) := by
  induction items with
  | nil => exact .done
  | cons item items ih => exact (each item).andThen ih

end Inquiry.AsksOnly

open Inquiry

theorem asksOnly_inquireLiteral {P : Question → Prop} (name : String) (value : Value) :
    AsksOnly P (inquireLiteral name value) := by
  unfold inquireLiteral
  split
  · exact .done
  · split
    · exact .done
    · split
      · exact .done
      · split
        · exact .done
        · exact .fail

/-- The questions at the cells of a type that stands at `cell` have the property. -/
def Ty.Allows (P : Question → Prop) (cell : Cell) (type : Ty) : Prop :=
  ∀ inner name value, (type.at? inner).bind Ty.kindName? = some name → name ≠ booleanKind →
    P (.kindOf (cell ++ inner) name value)

/-- The questions at the cells of types that stand at `cell` from the index `index` on have the
property. -/
def AllowsList (P : Question → Prop) (cell : Cell) (index : Nat) (types : List Ty) : Prop :=
  ∀ offset type, types[offset]? = some type → Ty.Allows P (cell ++ [index + offset]) type

section Asks

variable {P : Question → Prop} {cell : Cell} {index : Nat} {type : Ty} {types : List Ty}
  {name : String}

theorem AllowsList.head (h : AllowsList P cell index (type :: types)) :
    type.Allows P (cell ++ [index]) :=
  h 0 type rfl

theorem AllowsList.tail (h : AllowsList P cell index (type :: types)) :
    AllowsList P cell (index + 1) types := by
  intro offset part found
  rw [Nat.add_assoc, Nat.add_comm 1]
  exact h (offset + 1) part found

theorem Ty.Allows.parts (h : type.Allows P cell) : AllowsList P cell 0 type.parts := by
  intro offset part found inner name value named other
  rw [List.append_assoc, Nat.zero_add]
  exact h (offset :: inner) name value (by rw [Ty.at?, found]; exact named) other

/-- The cells of a list that is appended are counted on. -/
theorem AllowsList.of_append {keys values : List Ty} (h : AllowsList P cell 0 (keys ++ values)) :
    AllowsList P cell 0 keys ∧ AllowsList P cell keys.length values := by
  constructor
  · intro offset part found
    have inside := (List.getElem?_eq_some_iff.mp found).1
    exact h offset part (by rw [List.getElem?_append_left inside, found])
  · intro offset part found
    have here := h (keys.length + offset) part
      (by rw [List.getElem?_append_right (Nat.le_add_right ..), Nat.add_sub_cancel_left, found])
    rwa [Nat.zero_add] at here

theorem Ty.Allows.inquireKind (h : type.Allows P cell) (named : type.kindName? = some name)
    (value : Value) : AsksOnly P (inquireKind cell name value) := by
  unfold DocTypes.inquireKind
  split
  · exact .done
  · next other =>
    have here := h [] name value named other
    rw [List.append_nil] at here
    exact .ask here fun _ => .done

mutual

/-- A check of a type asks for kinds only at their cells. -/
theorem Ty.Allows.inquire (methods : ∀ value method, P (.respondsTo value method)) :
    (type : Ty) → (cell : Cell) → type.Allows P cell → (value : Value) →
    AsksOnly P (type.inquire cell value)
  | .kind name, cell, allows, value => allows.inquireKind rfl value
  | .duck name, cell, allows, value => .ask (methods _ _) fun _ => .done
  | .literal name, cell, allows, value => asksOnly_inquireLiteral name value
  | .collection name types, cell, allows, value => by
    rw [Ty.inquire]
    refine (allows.inquireKind rfl value).andThen ?_
    cases value.elements? with
    | none => exact .done
    | some elements => exact .all (AllowsList.inquireAny methods types cell 0 allows.parts) elements
  | .tuple name types, cell, allows, value => by
    simp only [Ty.inquire]
    refine .andThen ?_ ?_
    · cases name with
      | none => exact .done
      | some name => exact allows.inquireKind rfl value
    · cases value.sequence? with
      | none => exact .done
      | some sequence =>
        show AsksOnly P (if sequence.length = types.length then _ else _)
        split
        · exact AllowsList.inquireEach methods types cell 0 allows.parts sequence
        · exact .done
  | .hash name keys values, cell, allows, value => by
    obtain ⟨keysAllowed, valuesAllowed⟩ := allows.parts.of_append
    rw [Ty.inquire]
    cases value.columns? with
    | none => exact .done
    | some columns =>
      refine .andThen ?_ ?_
      · exact .all (AllowsList.inquireAny methods keys cell 0 keysAllowed) columns.keys
      · exact .all (AllowsList.inquireAny methods values cell keys.length valuesAllowed)
          columns.values

theorem AllowsList.inquireAny (methods : ∀ value method, P (.respondsTo value method)) :
    (types : List Ty) → (cell : Cell) → (index : Nat) → AllowsList P cell index types →
    (value : Value) → AsksOnly P (inquireAny cell index types value)
  | [], _, _, _, _ => .done
  | type :: types, cell, index, allows, value =>
    (Ty.Allows.inquire methods type _ allows.head value).orElse
      (AllowsList.inquireAny methods types cell (index + 1) allows.tail value)

theorem AllowsList.inquireEach (methods : ∀ value method, P (.respondsTo value method)) :
    (types : List Ty) → (cell : Cell) → (index : Nat) → AllowsList P cell index types →
    (sequence : Sequence) → AsksOnly P (inquireEach cell index types sequence)
  | [], _, _, _, _ => .done
  | type :: types, cell, index, allows, sequence => by
    rw [DocTypes.inquireEach]
    cases sequence.get? index with
    | none => exact .done
    | some value =>
      exact (Ty.Allows.inquire methods type _ allows.head value).andThen
        (AllowsList.inquireEach methods types cell (index + 1) allows.tail sequence)

end

theorem AllowsList.inquireFirst (methods : ∀ value method, P (.respondsTo value method))
    (allows : AllowsList P [] index types) (value : Value) :
    AsksOnly P (inquireFirst index types value) := by
  induction types generalizing index with
  | nil => exact .done
  | cons type types ih =>
    refine (Ty.Allows.inquire methods type _ allows.head value).bind fun accepted => ?_
    cases accepted with
    | true => exact .done
    | false => exact ih allows.tail

end Asks

/-- A check asks only questions that are placed: for kinds at their cells, and for methods. -/
theorem asksOnly_inquireFirst (types : List Ty) (value : Value) :
    AsksOnly (Question.Placed types) (inquireFirst 0 types value) := by
  refine AllowsList.inquireFirst (fun _ _ => .respondsTo) ?_ value
  intro offset type found inner name value named other
  refine .kindOf ?_ other
  rw [Nat.zero_add, List.nil_append, List.singleton_append, kindAt?, found]
  exact named

end DocTypes
