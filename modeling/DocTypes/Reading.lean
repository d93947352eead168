import DocTypes.Reader
import DocTypes.Scan
import DocTypes.Ty

/-!
# Reading the types of a text

A text is scanned and its tokens are given to a `Reader` one by one, until the reader stops or the
tokens end. A `Reading` keeps the outcome and the tokens that were read. What follows the token
that stops the reader is not looked at, not even for characters that start no token.
-/

namespace DocTypes

/-- The types or the error that a text leads to, and the tokens read on the way. -/
structure Reading where
  outcome : Except SyntaxError (List Ty)
  tokens : List Token

namespace Reading

/-- Reads tokens one by one. The tokens are followed by the given end of the scan. -/
def ofTokens (rules : Reader.Rules) (ending : Scan.Ending) (stop : Nat) :
    Reader → List Token → Reading
  | reader, [] =>
    match ending with
    | .finished => ⟨reader.drain rules (.atEnd stop), []⟩
    | .invalid c => ⟨.error ⟨.invalidCharacter, stop, some c.toString⟩, []⟩
  | reader, token :: tokens =>
    match reader.step rules token with
    | .stop outcome => ⟨outcome, [token]⟩
    | .more reader =>
      let reading := ofTokens rules ending stop reader tokens
      { reading with tokens := token :: reading.tokens }

/-- Reads a text from its start. -/
def ofText (rules : Reader.Rules) (text : String) : Reading :=
  let scan := Scan.ofText text
  ofTokens rules scan.ending scan.stop .start scan.tokens

end Reading

/-- The alternatives that a text lists, in order. -/
def parse (mode : Mode) (text : String) : Except SyntaxError (List Ty) :=
  (Reading.ofText mode.rules text).outcome

/-- The alternatives of several texts, read as one list with commas between the texts. -/
def parseAll (texts : List String) : Except SyntaxError (List Ty) :=
  parse .permissive (", ".intercalate texts)

/-- Reading the canonical text of the types gives the types again. -/
def readsBack (types : List Ty) : Bool :=
  match parse .permissive (Ty.renderList types) with
  | .ok again => again = types
  | .error _ => false

example : (parse .strict "Array<String, #to_s>, nil").toOption =
    some [.collection "Array" [.kind "String", .duck "#to_s"], .literal "nil"] := by
  decide +kernel

example : (parse .permissive "Hash<A, B").toOption = some [.hash "Hash" [.kind "A"] [.kind "B"]] := by
  decide +kernel

end DocTypes
