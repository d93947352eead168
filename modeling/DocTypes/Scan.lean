import DocTypes.SyntaxError
import DocTypes.Token.Lexeme

/-!
# Scanning a text into tokens

A text is cut into tokens from the left until it ends, or until a character that starts no token.
A `Scan` holds the tokens with their byte offsets, and says how and where scanning ended.

A `Cursor` takes the tokens one by one. It stands at a byte offset of a text, and each call of `next`
takes the token that starts there and moves the cursor behind it. At the end of the text, and before
a character that starts no token, the cursor stays where it is, so that later calls answer as the
first one did.
-/

namespace DocTypes

/-- How scanning ends: at the end of the text, or before a character that starts no token. -/
inductive Scan.Ending where
  | finished
  | invalid (c : Char)
deriving DecidableEq, Repr

/-- The tokens of a text in order, how scanning ended, and the byte offset where it ended. -/
structure Scan where
  tokens : List Token
  ending : Scan.Ending
  stop : Nat
deriving DecidableEq, Repr

namespace Scan

/-- Scans the characters that remain from the byte offset `position` on. -/
def ofChars (position : Nat) (text : List Char) : Scan :=
  match _found : Token.lexeme? text with
  | some (kind, lexeme, rest) =>
    let token : Token := ⟨kind, String.ofList lexeme, position⟩
    let scan := ofChars (position + token.text.utf8ByteSize) rest
    { scan with tokens := token :: scan.tokens }
  | none =>
    match text with
    | [] => ⟨[], .finished, position⟩
    | c :: _ => ⟨[], .invalid c, position⟩
termination_by text.length
decreasing_by exact Token.length_lt_of_lexeme? _found

/-- Scans a text. -/
def ofText (text : String) : Scan :=
  ofChars 0 text.toList

example : (ofText "A::b :").tokens.map Token.text = ["A::b", " "] := by decide +kernel
example : (ofText "#a::b").tokens.map Token.text = ["#a", "::b"] := by decide +kernel
example : (ofText "a:::b").ending = .invalid ':' := by decide +kernel

end Scan

/-! ## Taking tokens one by one

A byte offset may lie inside a character. Nothing is left there, as at the end of the text. A cursor
that begins at the start of a text never comes to such a place, as its answers are the tokens of the
scan of the text. -/

/-- A text and the byte offset up to which its tokens have been taken. -/
structure Cursor where
  text : String
  position : Nat
deriving DecidableEq, Repr

namespace Cursor

/-- The cursor at the start of a text. -/
def start (text : String) : Cursor :=
  ⟨text, 0⟩

/-- The characters behind the cursor. There are none if its byte offset lies inside a character or
outside the text. -/
def rest (cursor : Cursor) : List Char :=
  if inside : String.Pos.Raw.IsValid cursor.text ⟨cursor.position⟩ then
    (cursor.text.sliceFrom (cursor.text.pos ⟨cursor.position⟩ inside)).copy.toList
  else
    []

/-- Takes a token. The end of the text is a token as well. -/
def next (cursor : Cursor) : Except SyntaxError Token × Cursor :=
  match cursor.rest with
  | [] => (.ok (.atEnd cursor.position), cursor)
  | c :: tail =>
    match Token.lexeme? (c :: tail) with
    | some (kind, lexeme, _) =>
      let token : Token := ⟨kind, String.ofList lexeme, cursor.position⟩
      (.ok token, { cursor with position := cursor.position + token.text.utf8ByteSize })
    | none => (.error ⟨.invalidCharacter, cursor.position, some c.toString⟩, cursor)

/-- What a call of `next` answers after `count` other calls. -/
def answer (cursor : Cursor) : Nat → Except SyntaxError Token
  | 0 => cursor.next.1
  | count + 1 => cursor.next.2.answer count

example : (⟨"é b", 2⟩ : Cursor).rest = [' ', 'b'] := by decide +kernel
example : (⟨"é b", 1⟩ : Cursor).rest = [] := by decide +kernel

end Cursor

end DocTypes
