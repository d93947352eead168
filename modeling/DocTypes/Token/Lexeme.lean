import DocTypes.Token

/-!
# The first token of a text

`lexeme?` cuts the first token off a text. The first characters of the kinds are disjoint, so at
most one kind can start at a place, and the longest token of that kind is taken.

* A name is either `#` and a word, or words joined by double colons, with or without a double colon
  in front. Word characters are the ASCII letters and digits and the underscore.
* A blank is a run of the six ASCII space characters.
* A separator is one comma or one semicolon.

`lexeme?_eq_some` says that a token is not empty and that it starts the text.
-/

namespace DocTypes

namespace Token

/-- A letter, digit or underscore of the ASCII range. -/
def isWord (c : Char) : Bool :=
  c.isAlphanum || c == '_'

/-- One of the six ASCII space characters. -/
def isSpace (c : Char) : Bool :=
  c == ' ' || c == '\t' || c == '\r' || c == '\n' || c == '\x0b' || c == '\x0c'

/-- Cuts off the longest run of words in which each word may follow a double colon. -/
def cutPath : List Char → List Char × List Char
  | ':' :: ':' :: c :: rest =>
    if isWord c then
      let (path, after) := cutPath rest
      (':' :: ':' :: c :: path, after)
    else
      ([], ':' :: ':' :: c :: rest)
  | c :: rest =>
    if isWord c then
      let (path, after) := cutPath rest
      (c :: path, after)
    else
      ([], c :: rest)
  | [] => ([], [])

/-- Cuts off a name. The first part is empty when the text starts with none. -/
def cutName : List Char → List Char × List Char
  | '#' :: rest =>
    match rest.takeWhile isWord with
    | [] => ([], '#' :: rest)
    | word => ('#' :: word, rest.dropWhile isWord)
  | text => cutPath text

/-- The kind of the token that a character makes by itself. -/
def single? : Char → Option Kind
  | '<' => some .collectionStart
  | '>' => some .collectionEnd
  | '(' => some .tupleStart
  | ')' => some .tupleEnd
  | '\x7b' => some .hashStart
  | '\x7d' => some .hashEnd
  | ',' | ';' => some .separator
  | _ => none

/-- The first token of a text: its kind, its characters and the text after it. -/
def lexeme? : List Char → Option (Kind × List Char × List Char)
  | [] => none
  | c :: rest =>
    match single? c with
    | some kind => some (kind, [c], rest)
    | none =>
      if isSpace c then
        some (.blank, c :: rest.takeWhile isSpace, rest.dropWhile isSpace)
      else if c = '=' then
        match rest with
        | '>' :: after => some (.hashArrow, ['=', '>'], after)
        | _ => none
      else
        match cutName (c :: rest) with
        | ([], _) => none
        | (name, after) => some (.name, name, after)

theorem cutPath_append (text : List Char) : (cutPath text).1 ++ (cutPath text).2 = text := by
  fun_induction cutPath text <;> simp_all

theorem cutName_append (text : List Char) : (cutName text).1 ++ (cutName text).2 = text := by
  unfold cutName
  split
  · next rest =>
    have parts : rest.takeWhile isWord ++ rest.dropWhile isWord = rest :=
      List.takeWhile_append_dropWhile
    split
    · rfl
    · simp [parts]
  · exact cutPath_append _

/-- A token is not empty, and with the text after it it makes up the text. -/
theorem lexeme?_eq_some {text lexeme rest : List Char} {kind : Kind}
    (h : lexeme? text = some (kind, lexeme, rest)) : lexeme ≠ [] ∧ lexeme ++ rest = text := by
  cases text with
  | nil => simp [lexeme?] at h
  | cons c tail =>
    simp only [lexeme?] at h
    split at h
    · obtain ⟨-, rfl, rfl⟩ := by simpa using h
      simp
    · split at h
      · obtain ⟨-, rfl, rfl⟩ := by simpa using h
        simp [List.takeWhile_append_dropWhile]
      · split at h
        · next equals =>
          split at h
          · obtain ⟨-, rfl, rfl⟩ := by simpa using h
            simp [equals]
          · simp at h
        · have parts := cutName_append (c :: tail)
          split at h
          · simp at h
          · next name after nonempty eq =>
            obtain ⟨-, rfl, rfl⟩ := by simpa using h
            rw [eq] at parts
            exact ⟨nonempty, parts⟩

theorem append_of_lexeme? {text lexeme rest : List Char} {kind : Kind}
    (h : lexeme? text = some (kind, lexeme, rest)) : lexeme ++ rest = text :=
  (lexeme?_eq_some h).2

theorem ne_nil_of_lexeme? {text lexeme rest : List Char} {kind : Kind}
    (h : lexeme? text = some (kind, lexeme, rest)) : lexeme ≠ [] :=
  (lexeme?_eq_some h).1

theorem length_lt_of_lexeme? {text lexeme rest : List Char} {kind : Kind}
    (h : lexeme? text = some (kind, lexeme, rest)) : rest.length < text.length := by
  have parts := append_of_lexeme? h
  have nonempty := List.length_pos_iff.mpr (ne_nil_of_lexeme? h)
  simp [← parts]
  omega

end Token

end DocTypes
