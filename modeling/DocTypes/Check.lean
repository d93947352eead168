import DocTypes.Inquiry
import DocTypes.Ty
import DocTypes.Value.Views

/-!
# Checking a value against types

`Ty.inquire` gives the questions that decide whether a value satisfies a type, in the order in which
they are asked and up to the first that decides. Alternatives are tried in order.
-/

namespace DocTypes

/-- The kind that the two truth values, which have no common class, are said to be of. -/
def booleanKind : String := "Boolean"

/-- The value is of the kind named at a cell. The kind of the truth values needs no question. -/
def inquireKind (cell : Cell) (name : String) (value : Value) : Inquiry Bool :=
  if name = booleanKind then
    .done (match value with
      | .bool _ => true
      | _ => false)
  else .ask (.kindOf cell name value) .done

/-- The value is what a literal stands for. Two of the literals stand for any value. -/
def inquireLiteral (name : String) (value : Value) : Inquiry Bool :=
  if name = "true" then
    .done (match value with
      | .bool true => true
      | _ => false)
  else if name = "false" then
    .done (match value with
      | .bool false => true
      | _ => false)
  else if name = "nil" then
    .done (match value with
      | .nil => true
      | _ => false)
  else if name = "self" ∨ name = "void" then .done true
  else .fail (.unsupportedLiteral name)

mutual

/-- The value satisfies the type at a cell. -/
def Ty.inquire (cell : Cell) : Ty → Value → Inquiry Bool
  | .kind name, value => inquireKind cell name value
  | .duck name, value => .ask (.respondsTo value (Ty.message name)) .done
  | .literal name, value => inquireLiteral name value
  | .collection name types, value =>
    (inquireKind cell name value).andThen fun _ =>
      match value.elements? with
      | some elements => .all elements fun element => inquireAny cell 0 types element
      | none => .done false
  | .tuple name types, value =>
    (match name with
      | some name => inquireKind cell name value
      | none => .done true).andThen fun _ =>
        match value.sequence? with
        | some sequence =>
          if sequence.length = types.length then inquireEach cell 0 types sequence
          else .done false
        | none => .done false
  | .hash _ keys values, value =>
    match value.columns? with
    | some columns =>
      (Inquiry.all columns.keys fun key => inquireAny cell 0 keys key).andThen fun _ =>
        .all columns.values fun item => inquireAny cell keys.length values item
    | none => .done false
termination_by structural type => type

/-- The value satisfies one of the types, which are at the cells from `index` on. -/
def inquireAny (cell : Cell) (index : Nat) : List Ty → Value → Inquiry Bool
  | [], _ => .done false
  | type :: types, value =>
    (type.inquire (cell ++ [index]) value).orElse fun _ => inquireAny cell (index + 1) types value
termination_by structural types => types

/-- Each type, from the one at `index` on, is satisfied by the value at its position. -/
def inquireEach (cell : Cell) (index : Nat) : List Ty → Sequence → Inquiry Bool
  | [], _ => .done true
  | type :: types, sequence =>
    match sequence.get? index with
    | some value =>
      (type.inquire (cell ++ [index]) value).andThen fun _ =>
        inquireEach cell (index + 1) types sequence
    | none => .done false
termination_by structural types => types

end

/-- The index of the first alternative, from the one at `index` on, that the value satisfies. -/
def inquireFirst (index : Nat) : List Ty → Value → Inquiry (Option Nat)
  | [], _ => .done none
  | type :: types, value =>
    (type.inquire [index] value).bind fun accepted =>
      if accepted then .done (some index) else inquireFirst (index + 1) types value

end DocTypes
