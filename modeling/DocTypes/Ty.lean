/-!
# Types of a type expression

A type expression lists alternatives, and each alternative is a type. A type is a name of its own
(a kind, a method that must be answered, or a literal) or a composite: a collection of elements, a
tuple of positions, or a hash of keys and values. Composites hold lists of types again.

`Ty.ofName` tells from its spelling what a bare name stands for. `Ty.render` is the canonical text of
a type. It has one blank after a comma and around an arrow, and a hash is always written with braces,
and without its name when that is the default name.
-/

namespace DocTypes

/-- A type that a value may satisfy.

* `kind`: the value is an instance of the named class or module.
* `duck`: the value answers to a method, written as the method's name after `#`.
* `literal`: one of the words `true`, `false`, `nil`, `void` and `self`. Other words can be given
  here, and are refused when a value is checked.
* `collection`: the value is of the named kind and each of its elements has one of the types.
* `tuple`: the value is of the named kind, if one is named, and its positions have the types in
  order.
* `hash`: the keys of the value have one of the first types and its values one of the second. The
  name is only written out. -/
inductive Ty where
  | kind (name : String)
  | duck (name : String)
  | literal (name : String)
  | collection (name : String) (types : List Ty)
  | tuple (name : Option String) (types : List Ty)
  | hash (name : String) (keys values : List Ty)
deriving Repr, Inhabited

namespace Ty

/-- The first character of a name that asks for a method. -/
def duckMarker : Char := '#'

/-- The words that are literals. -/
def literalNames : List String :=
  ["true", "false", "nil", "void", "self"]

/-- The kind of a collection that is written without a name. -/
def defaultCollection : String := "Array"

/-- The name of a hash that is written without a name. -/
def defaultHash : String := "Hash"

/-- The method that the name of a duck type asks for: the name without the marker in front. -/
def message (name : String) : String :=
  match name.toList with
  | c :: rest => if c = duckMarker then String.ofList rest else name
  | [] => name

/-- The type that a bare name stands for. -/
def ofName (name : String) : Ty :=
  if name.toList.head? = some duckMarker then .duck name
  else if name ∈ literalNames then .literal name
  else .kind name

/-- The name of a type. A tuple may have none. -/
def name? : Ty → Option String
  | .kind name | .duck name | .literal name => some name
  | .collection name _ => some name
  | .tuple name _ => name
  | .hash name _ _ => some name

mutual

/-- Equality of types is decided along their structure. -/
def decEq : (a b : Ty) → Decidable (a = b)
  | .kind a, .kind b => decidable_of_iff (a = b) (by simp)
  | .duck a, .duck b => decidable_of_iff (a = b) (by simp)
  | .literal a, .literal b => decidable_of_iff (a = b) (by simp)
  | .collection a as, .collection b bs =>
    have := decEqList as bs
    decidable_of_iff (a = b ∧ as = bs) (by simp)
  | .tuple a as, .tuple b bs =>
    have := decEqList as bs
    decidable_of_iff (a = b ∧ as = bs) (by simp)
  | .hash a ks vs, .hash b ks' vs' =>
    have := decEqList ks ks'
    have := decEqList vs vs'
    decidable_of_iff (a = b ∧ ks = ks' ∧ vs = vs') (by simp)
  | .kind _, .duck _ | .kind _, .literal _ | .kind _, .collection _ _ | .kind _, .tuple _ _
  | .kind _, .hash _ _ _ | .duck _, .kind _ | .duck _, .literal _ | .duck _, .collection _ _
  | .duck _, .tuple _ _ | .duck _, .hash _ _ _ | .literal _, .kind _ | .literal _, .duck _
  | .literal _, .collection _ _ | .literal _, .tuple _ _ | .literal _, .hash _ _ _
  | .collection _ _, .kind _ | .collection _ _, .duck _ | .collection _ _, .literal _
  | .collection _ _, .tuple _ _ | .collection _ _, .hash _ _ _ | .tuple _ _, .kind _
  | .tuple _ _, .duck _ | .tuple _ _, .literal _ | .tuple _ _, .collection _ _
  | .tuple _ _, .hash _ _ _ | .hash _ _ _, .kind _ | .hash _ _ _, .duck _ | .hash _ _ _, .literal _
  | .hash _ _ _, .collection _ _ | .hash _ _ _, .tuple _ _ => isFalse (by simp)
termination_by structural a => a

/-- Equality of lists of types. -/
def decEqList : (as bs : List Ty) → Decidable (as = bs)
  | [], [] => isTrue rfl
  | [], _ :: _ | _ :: _, [] => isFalse (by simp)
  | a :: as, b :: bs =>
    have := decEq a b
    have := decEqList as bs
    decidable_of_iff (a = b ∧ as = bs) (by simp)
termination_by structural as => as

end

instance : DecidableEq Ty := decEq

example : ofName "#each" = .duck "#each" := by decide
example : ofName "nil" = .literal "nil" := by decide
example : ofName "Nil" = .kind "Nil" := by decide
example : message "#each" = "each" := by decide

/-! ## Canonical text -/

mutual

/-- The canonical text of a type. -/
def render : Ty → String
  | .kind name | .duck name | .literal name => name
  | .collection name types => name ++ "<" ++ renderList types ++ ">"
  | .tuple name types => name.getD "" ++ "(" ++ renderList types ++ ")"
  | .hash name keys values =>
    (if name = defaultHash then "" else name)
      ++ "\x7b" ++ renderList keys ++ " => " ++ renderList values ++ "\x7d"

/-- The canonical text of alternatives, separated by commas. -/
def renderList : List Ty → String
  | [] => ""
  | [type] => render type
  | type :: types => render type ++ ", " ++ renderList types

end

example :
    renderList [.collection "Set" [.kind "Date", .duck "#to_date"], .tuple none [.literal "nil"]]
      = "Set<Date, #to_date>, (nil)" := by decide

example : render (.hash "Hash" [.kind "A"] [.kind "B"]) = "\x7bA => B\x7d" := by decide

end Ty

end DocTypes
