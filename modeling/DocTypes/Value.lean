import DocTypes.Double
import DocTypes.Path
import DocTypes.NameSet

/-!
# Values

The values that types are checked against: scalars, texts, containers, classes and modules
themselves, and objects of other classes. An object has a class, methods of its own, and a shape
that says which container it behaves as.
-/

namespace DocTypes

/-- Which container an object behaves as: none, a list of items, or a map that exposes its keys and
its values as two lists. The lists need not be of one length. -/
inductive Shape (α : Type) where
  | plain
  | list (items : List α)
  | map (keys values : List α)
deriving Repr

/-- An object: the name of its class, the methods added to it alone, and its shape. -/
structure Object (α : Type) where
  className : String
  methods : NameSet
  shape : Shape α
deriving Repr

/-- A value of the checked program. A hash keeps its pairs in order, with repeated keys, and a set
its members in order. -/
inductive Value where
  | nil
  | bool (value : Bool)
  | integer (value : Int64)
  | float (value : Double)
  | string (text : String)
  | symbol (name : String)
  | array (items : List Value)
  | hash (pairs : List (Value × Value))
  | set (members : List Value)
  | kind (handle : Handle)
  | object (object : Object Value)
deriving Repr, Inhabited

namespace Shape

/-- The methods that a list-shaped object answers to. -/
def listMethods : List String :=
  ["[]", "each", "length", "size", "to_a"]

/-- The methods that a map-shaped object answers to. -/
def mapMethods : List String :=
  ["keys", "values"]

/-- The methods that come with a shape. -/
def methods {α : Type} : Shape α → List String
  | plain => []
  | list _ => listMethods
  | map _ _ => mapMethods

end Shape

/-- The object itself, whatever its class, answers to the method. -/
def Object.defines {α : Type} (object : Object α) (method : String) : Bool :=
  method ∈ object.methods || method ∈ object.shape.methods

namespace Value

mutual

/-- Equality of values. Numbers of different types differ, floats are compared as numbers, the order
of pairs and members matters, and objects agree in class, methods and shape. -/
def equal : Value → Value → Bool
  | .nil, .nil => true
  | .bool a, .bool b => a == b
  | .integer a, .integer b => a == b
  | .float a, .float b => a.equal b
  | .string a, .string b => a == b
  | .symbol a, .symbol b => a == b
  | .array as, .array bs => equalLists as bs
  | .hash as, .hash bs => equalPairs as bs
  | .set as, .set bs => equalLists as bs
  | .kind a, .kind b => a == b
  | .object a, .object b => equalObjects a b
  | _, _ => false
termination_by structural a => a

/-- Equality of lists of values. -/
def equalLists : List Value → List Value → Bool
  | [], [] => true
  | a :: as, b :: bs => equal a b && equalLists as bs
  | _, _ => false
termination_by structural as => as

/-- Equality of lists of pairs. -/
def equalPairs : List (Value × Value) → List (Value × Value) → Bool
  | [], [] => true
  | a :: as, b :: bs => equalPair a b && equalPairs as bs
  | _, _ => false
termination_by structural as => as

/-- Equality of pairs. -/
def equalPair : Value × Value → Value × Value → Bool
  | (key, value), (key', value') => equal key key' && equal value value'
termination_by structural a => a

/-- Equality of objects. -/
def equalObjects : Object Value → Object Value → Bool
  | ⟨class₁, methods₁, shape₁⟩, ⟨class₂, methods₂, shape₂⟩ =>
    class₁ == class₂ && methods₁.same methods₂ && equalShapes shape₁ shape₂
termination_by structural a => a

/-- Equality of shapes. -/
def equalShapes : Shape Value → Shape Value → Bool
  | .plain, .plain => true
  | .list as, .list bs => equalLists as bs
  | .map ks vs, .map ks' vs' => equalLists ks ks' && equalLists vs vs'
  | _, _ => false
termination_by structural a => a

end

/-- The values of a list without those that equal an earlier kept one, after the values in `kept`. -/
def distinctFrom (kept : List Value) : List Value → List Value
  | [] => kept
  | value :: values =>
    if kept.any (·.equal value) then distinctFrom kept values
    else distinctFrom (kept ++ [value]) values

/-- The first occurrences in a list of values. -/
def distinct (values : List Value) : List Value :=
  distinctFrom [] values

/-- The set of the values in a list. -/
def ofMembers (values : List Value) : Value :=
  .set (distinct values)

example : equal (.integer 1) (.float ⟨0x3ff0000000000000⟩) = false := by decide
example : (distinct [.nil, .float .nan, .nil, .float .nan]).length = 3 := by decide

end Value

end DocTypes
