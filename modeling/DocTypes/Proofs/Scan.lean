import DocTypes.Scan
import DocTypes.Proofs.Lexeme

/-!
# Scanning a part of a text

`Yields` relates a text to the tokens of a part in front of it, so that the tokens of a text can be
found part by part. When nothing is left, they are the tokens of the whole text
(`ofChars_of_yields`). Each token of a scan has the form of its kind (`form_of_mem_tokens`).
-/

namespace DocTypes.Scan

/-- `Yields position text tokens stop rest`: the tokens at the start of `text`, which begins at the
byte offset `position`, are `tokens`. The text `rest` after them begins at the offset `stop`. -/
inductive Yields : Nat → List Char → List Token → Nat → List Char → Prop
  | nil {position : Nat} {text : List Char} : Yields position text [] position text
  | cons {position stop : Nat} {text lexeme after rest : List Char} {kind : Token.Kind}
      {tokens : List Token} :
      Token.lexeme? text = some (kind, lexeme, after) →
      Yields (position + (String.ofList lexeme).utf8ByteSize) after tokens stop rest →
      Yields position text (⟨kind, String.ofList lexeme, position⟩ :: tokens) stop rest

theorem Yields.append {position middle stop : Nat} {text between rest : List Char}
    {front back : List Token} (first : Yields position text front middle between)
    (second : Yields middle between back stop rest) :
    Yields position text (front ++ back) stop rest := by
  induction first with
  | nil => exact second
  | cons found _ ih => exact .cons found (ih second)

theorem Yields.single {text lexeme rest : List Char} {kind : Token.Kind} (position : Nat)
    (found : Token.lexeme? text = some (kind, lexeme, rest)) :
    Yields position text [⟨kind, String.ofList lexeme, position⟩]
      (position + (String.ofList lexeme).utf8ByteSize) rest :=
  .cons found .nil

theorem ofChars_nil (position : Nat) : ofChars position [] = ⟨[], .finished, position⟩ := by
  rw [ofChars]
  rfl

theorem ofChars_cons {position : Nat} {text lexeme rest : List Char} {kind : Token.Kind}
    (found : Token.lexeme? text = some (kind, lexeme, rest)) :
    ofChars position text =
      { ofChars (position + (String.ofList lexeme).utf8ByteSize) rest with
        tokens := ⟨kind, String.ofList lexeme, position⟩ ::
          (ofChars (position + (String.ofList lexeme).utf8ByteSize) rest).tokens } := by
  rw [ofChars]
  split
  · next eq =>
    cases found.symm.trans eq
    rfl
  · next eq => cases found.symm.trans eq

/-- The tokens of a text that is used up are those of its scan. -/
theorem ofChars_of_yields {position stop : Nat} {text rest : List Char} {tokens : List Token}
    (h : Yields position text tokens stop rest) (used : rest = []) :
    ofChars position text = ⟨tokens, .finished, stop⟩ := by
  induction h with
  | nil =>
    subst used
    exact ofChars_nil _
  | cons found _ ih => rw [ofChars_cons found, ih used]

/-- Scanning ends before what is left after the tokens: nothing, or a character that starts no
token. -/
theorem exists_yields_tokens (position : Nat) (text : List Char) :
    ∃ rest, Yields position text (ofChars position text).tokens (ofChars position text).stop rest ∧
      Token.lexeme? rest = none ∧
      (ofChars position text).ending = rest.head?.elim .finished .invalid := by
  fun_induction ofChars position text with
  | case1 position text kind lexeme rest found first scan ih =>
    obtain ⟨left, yields, none, ending⟩ := ih
    exact ⟨left, .cons found yields, none, ending⟩
  | case2 position => exact ⟨[], .nil, rfl, rfl⟩
  | case3 position c tail none => exact ⟨c :: tail, .nil, none, rfl⟩

/-- Each token of a scan has the form of its kind. -/
theorem form_of_mem_tokens {position : Nat} {text : List Char} {token : Token}
    (member : token ∈ (ofChars position text).tokens) : token.kind.Form token.text.toList := by
  fun_induction ofChars position text with
  | case1 position text kind lexeme rest found first scan ih =>
    rcases List.mem_cons.mp member with rfl | later
    · rw [String.toList_ofList]
      exact Token.form_of_lexeme? found
    · exact ih later
  | case2 => cases member
  | case3 => cases member

/-- The end of the input is no token of a scan. -/
theorem kind_ne_finish {position : Nat} {text : List Char} {token : Token}
    (member : token ∈ (ofChars position text).tokens) : token.kind ≠ .finish := by
  intro finish
  have form := form_of_mem_tokens member
  rw [finish] at form
  exact form

end DocTypes.Scan
