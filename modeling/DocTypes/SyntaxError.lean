import DocTypes.Token

/-!
# Errors in type expressions

A syntax error says what is wrong, at which byte offset, and at which token. There is no token when
the error is at the end of the input. The message is a function of these three.
-/

namespace DocTypes

/-- What can be wrong with a type expression.

* `invalidCharacter`: a character starts no token.
* `unexpectedName`: a name follows a name or a composite.
* `missingName`: a list of types has an empty place.
* `unexpectedOpener`: a bracket is opened after a composite.
* `wrongCloser`: a group is ended by something else than its own closer.
* `tooDeep`: more groups are nested than the limit allows.
* `shorthandArity`: a collection named as a hash does not hold one key type and one value type.
* `other`: any other problem, stated by its message. -/
inductive SyntaxError.Problem where
  | invalidCharacter
  | unexpectedName
  | missingName
  | unexpectedOpener
  | wrongCloser (expected : Token.Kind)
  | tooDeep (limit : Nat)
  | shorthandArity (count : Nat)
  | other (message : String)
deriving DecidableEq, Repr

/-- A problem, the byte offset where it was found, and the text of the token found there. -/
structure SyntaxError where
  problem : SyntaxError.Problem
  position : Nat
  token : Option String
deriving DecidableEq, Repr

namespace SyntaxError

/-- The token of an error between single quotes, or the words for the end of the input. -/
def got (e : SyntaxError) : String :=
  match e.token with
  | some text => "'" ++ text ++ "'"
  | none => Token.Kind.finish.description

/-- What the error says. -/
def message (e : SyntaxError) : String :=
  match e.problem with
  | .invalidCharacter => "invalid character " ++ e.got
  | .unexpectedName => "expecting END, got name " ++ e.got
  | .missingName => "expecting name, got " ++ e.got
  | .unexpectedOpener => "expecting END, got " ++ e.got
  | .wrongCloser expected => "expecting " ++ expected.description ++ ", got " ++ e.got
  | .tooDeep limit => "nesting deeper than " ++ toString limit ++ " levels"
  | .shorthandArity count => "expected 2 types for key/value; got " ++ toString count
  | .other message => message

/-- The message together with the place of the error. -/
def display (e : SyntaxError) : String :=
  e.message ++ " at byte " ++ toString e.position ++ " (zero-based)"

end SyntaxError

/-- A problem found at a token. -/
def Token.error (token : Token) (problem : SyntaxError.Problem) : SyntaxError where
  problem := problem
  position := token.position
  token := if token.kind = .finish then none else some token.text

end DocTypes
