/-!
# Tokens of a type expression

A type expression such as `Array<String, #to_s>, nil` is made of names, separators, blanks and
brackets. A token keeps its text and the byte offset at which it starts. The end of the input is a
token as well, with an empty text, because it ends a list of types as a closing bracket does.
-/

namespace DocTypes

/-- What a token is for. Angle brackets enclose the elements of a collection, parentheses the
positions of a tuple, and braces the keys and the values of a hash, with an arrow between them. -/
inductive Token.Kind where
  | collectionStart
  | collectionEnd
  | tupleStart
  | tupleEnd
  | name
  | separator
  | blank
  | hashStart
  | hashArrow
  | hashEnd
  | finish
deriving DecidableEq, Repr

/-- One token: its kind, its text and the byte offset of its first character. -/
structure Token where
  kind : Token.Kind
  text : String
  position : Nat
deriving DecidableEq, Repr

namespace Token

namespace Kind

/-- The kind as an error message names it. -/
def description : Kind → String
  | collectionStart => "'<'"
  | collectionEnd => "'>'"
  | tupleStart => "'('"
  | tupleEnd => "')'"
  | name => "name"
  | separator => "separator"
  | blank => "whitespace"
  | hashStart => "'\x7b'"
  | hashArrow => "'=>'"
  | hashEnd => "'\x7d'"
  | finish => "end of input"

/-- The kind as a trace record names it. -/
def label : Kind → String
  | collectionStart => "CollectionStart"
  | collectionEnd => "CollectionEnd"
  | tupleStart => "TupleStart"
  | tupleEnd => "TupleEnd"
  | name => "Name"
  | separator => "Separator"
  | blank => "Whitespace"
  | hashStart => "HashStart"
  | hashArrow => "HashArrow"
  | hashEnd => "HashEnd"
  | finish => "End"

end Kind

/-- The token that stands for the end of an input of `position` bytes. -/
def atEnd (position : Nat) : Token :=
  ⟨.finish, "", position⟩

end Token

end DocTypes
