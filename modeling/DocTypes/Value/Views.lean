import DocTypes.Value

/-!
# Views of values

Containers are checked through views, whatever their class: the elements of an enumerable value, the
positions of a sequence, and the keys and values of a map.

* Arrays, sets and list-shaped objects are enumerable, and so are hashes, whose elements are arrays
  of a key and its value.
* Arrays, list-shaped objects, texts and hashes have positions. The positions of a text are its
  characters. A hash is indexed by its integer keys.
* Hashes and map-shaped objects have keys and values.
-/

namespace DocTypes

/-- A value with a length that can be indexed: items, the characters of a text, or the pairs of a
hash. -/
inductive Sequence where
  | items (items : List Value)
  | characters (characters : List Char)
  | pairs (pairs : List (Value × Value))

namespace Sequence

/-- The number of positions. -/
def length : Sequence → Nat
  | items list => list.length
  | characters list => list.length
  | pairs list => list.length

/-- The value of the first pair whose key is the integer `index`, or nil if there is none. -/
def lookup (list : List (Value × Value)) (index : Nat) : Value :=
  ((list.find? fun pair => pair.1.equal (.integer (.ofNat index))).map Prod.snd).getD .nil

/-- The value at a position below the length. A hash has values only at positions that are 64-bit
integers. -/
def get? : Sequence → Nat → Option Value
  | items list, index => list[index]?
  | characters list, index => list[index]?.map fun c => .string c.toString
  | pairs list, index =>
    if index < list.length ∧ index < 0x8000000000000000 then some (lookup list index) else none

end Sequence

/-- The keys and the values of a map, each enumerated on its own. -/
structure Columns where
  keys : List Value
  values : List Value

namespace Value

/-- The elements of an enumerable value. -/
def elements? : Value → Option (List Value)
  | .array items => some items
  | .set members => some members
  | .hash pairs => some (pairs.map fun pair => .array [pair.1, pair.2])
  | .object body =>
    match body.shape with
    | .list items => some items
    | .plain | .map _ _ => none
  | _ => none

/-- The positions of a value that has a length and can be indexed. -/
def sequence? : Value → Option Sequence
  | .array items => some (.items items)
  | .string text => some (.characters text.toList)
  | .hash pairs => some (.pairs pairs)
  | .object body =>
    match body.shape with
    | .list items => some (.items items)
    | .plain | .map _ _ => none
  | _ => none

/-- The keys and the values of a value that has both. -/
def columns? : Value → Option Columns
  | .hash pairs => some ⟨pairs.map Prod.fst, pairs.map Prod.snd⟩
  | .object body =>
    match body.shape with
    | .map keys values => some ⟨keys, values⟩
    | .plain | .list _ => none
  | _ => none

end Value

end DocTypes
