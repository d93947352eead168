import Mathlib.Data.List.Chain
import DocTypes.Proofs.Scan

/-!
# Concatenated tokens

Tokens that are written one after another are scanned again as the same tokens, each at its new
place (`Scan.yields_place`), unless two neighbours merge. The tokens that a scan cuts off never
merge (`Scan.isChain_tokens`). So a scan gives back the tokens whose texts it reads exactly when no
two neighbours among them merge (`Scan.scan_concat_iff`).

`Kind.Ends` says what may follow a token, so that it is cut off whole (`lexeme?_append_iff`).
-/

namespace DocTypes

namespace Token

/-- The text of the tokens, one after another. -/
def concat (tokens : List Token) : String :=
  String.join (tokens.map text)

/-- The tokens at the places that they have when the first is at the byte offset `position` and the
others follow without a gap. -/
def place (position : Nat) : List Token → List Token
  | [] => []
  | token :: tokens =>
    { token with position := position } :: place (position + token.text.utf8ByteSize) tokens

/-- `Merges first second`: when the second token is written directly after the first, the first one
is not cut off as it was.

* `blanks`: two blanks are one.
* `word`: a word after a name lengthens it.
* `colons`: a double colon after a path lengthens it. After a word with `#` it does not. -/
inductive Merges (first second : Token) : Prop
  | blanks : first.kind = .blank → second.kind = .blank → Merges first second
  | word {c : Char} {tail : List Char} :
      first.kind = .name → second.kind = .name → second.text.toList = c :: tail →
      isWord c = true → Merges first second
  | colons {tail : List Char} :
      first.kind = .name → second.kind = .name → ¬ DuckForm first.text.toList →
      second.text.toList = ':' :: ':' :: tail → Merges first second

theorem merges_iff {first second : Token} : Merges first second ↔
    (first.kind = .blank ∧ second.kind = .blank) ∨
      (first.kind = .name ∧ second.kind = .name ∧
        (second.text.toList.head?.any isWord = true ∨
          (¬ DuckForm first.text.toList ∧ [':', ':'] <+: second.text.toList))) := by
  constructor
  · intro merges
    cases merges with
    | blanks kind kind' => exact .inl ⟨kind, kind'⟩
    | word kind kind' eq isWord => exact .inr ⟨kind, kind', .inl (by simp [eq, isWord])⟩
    | colons kind kind' noDuck eq => exact .inr ⟨kind, kind', .inr ⟨noDuck, by simp [eq]⟩⟩
  · rintro (⟨kind, kind'⟩ | ⟨kind, kind', isWord | ⟨noDuck, tail, eq⟩⟩)
    · exact .blanks kind kind'
    · cases eq : second.text.toList with
      | nil => simp [eq] at isWord
      | cons c tail => exact .word kind kind' eq (by simpa [eq] using isWord)
    · exact .colons kind kind' noDuck eq.symm

instance (first second : Token) : Decidable (Merges first second) :=
  decidable_of_iff _ merges_iff.symm

/-- The kind and the text of a token, without its place. -/
def unplaced (token : Token) : Kind × String :=
  (token.kind, token.text)

/-- Only blanks and names merge. -/
theorem Merges.kinds {first second : Token} (merges : Merges first second) :
    (first.kind = .blank ∨ first.kind = .name) ∧ (second.kind = .blank ∨ second.kind = .name) := by
  cases merges with
  | blanks kind kind' => exact ⟨.inl kind, .inl kind'⟩
  | word kind kind' => exact ⟨.inr kind, .inr kind'⟩
  | colons kind kind' => exact ⟨.inr kind, .inr kind'⟩

/-- No longer token of the kind starts with `text` when `rest` follows it. -/
def Kind.Ends : Kind → List Char → List Char → Prop
  | blank, _, rest => ∀ c ∈ rest.head?, isSpace c = false
  | name, text, rest =>
    (DuckForm text ∧ ∀ c ∈ rest.head?, isWord c = false) ∨
      (PathForm text ∧ (cutPath rest).1 = [])
  | _, _, _ => True

section Ends

variable {kind : Kind} {text lexeme rest after : List Char} {first second : Token}

@[simp]
theorem concat_nil : concat [] = "" := rfl

theorem toList_concat_cons (token : Token) (tokens : List Token) :
    (concat (token :: tokens)).toList = token.text.toList ++ (concat tokens).toList := by
  simp [concat]

theorem concat_append (front back : List Token) :
    concat (front ++ back) = concat front ++ concat back := by
  simp [concat]

theorem utf8ByteSize_concat_cons (token : Token) (tokens : List Token) :
    (concat (token :: tokens)).utf8ByteSize =
      token.text.utf8ByteSize + (concat tokens).utf8ByteSize := by
  have parts : concat (token :: tokens) = token.text ++ concat tokens := by simp [concat]
  rw [parts, String.utf8ByteSize_append]

theorem place_append (position : Nat) (front back : List Token) :
    place position (front ++ back) =
      place position front ++ place (position + (concat front).utf8ByteSize) back := by
  induction front generalizing position with
  | nil => simp [place]
  | cons token front ih =>
    rw [List.cons_append, place, place, ih, utf8ByteSize_concat_cons, List.cons_append,
      ← Nat.add_assoc]

theorem map_unplaced_place (position : Nat) (tokens : List Token) :
    (place position tokens).map unplaced = tokens.map unplaced := by
  induction tokens generalizing position with
  | nil => rfl
  | cons token tokens ih => exact congrArg (token.unplaced :: ·) (ih _)

/-- Whether neighbours merge does not depend on their places. -/
theorem isChain_of_unplaced {tokens other : List Token}
    (same : tokens.map unplaced = other.map unplaced)
    (apart : tokens.IsChain fun first second => ¬ Merges first second) :
    other.IsChain fun first second => ¬ Merges first second := by
  have anywhere (first second : Token) :
      Merges ⟨first.unplaced.1, first.unplaced.2, 0⟩ ⟨second.unplaced.1, second.unplaced.2, 0⟩ ↔
        Merges first second := by
    rw [merges_iff, merges_iff]
    rfl
  have spelled : (tokens.map unplaced).IsChain fun first second =>
      ¬ Merges ⟨first.1, first.2, 0⟩ ⟨second.1, second.2, 0⟩ :=
    List.isChain_map_of_isChain unplaced (fun first second => mt (anywhere first second).mp) apart
  rw [same, List.isChain_map] at spelled
  exact spelled.imp fun first second => mt (anywhere first second).mpr

/-- What is left after a run of characters of one class starts with another character. -/
theorem head_dropWhile {p : Char → Bool} (text : List Char) :
    ∀ c ∈ (text.dropWhile p).head?, p c = false := by
  intro c head
  have stops := List.head?_dropWhile_not p text
  rw [head] at stops
  exact stops

/-- What is left after a path starts with no path. -/
theorem cutPath_rest (text : List Char) : (cutPath (cutPath text).2).1 = [] := by
  fun_induction cutPath text with
  | case1 c rest word path after eq ih => rwa [eq] at ih
  | case2 c rest noWord => simp only [cutPath, if_neg noWord]
  | case3 c rest _ word path after eq ih => rwa [eq] at ih
  | case4 c rest notColons noWord => rw [cutPath.eq_2 _ _ notColons, if_neg noWord]
  | case5 => rfl

theorem cutPath_ne_nil (form : PathForm text) (after : List Char) :
    (cutPath (text ++ after)).1 ≠ [] := by
  obtain ⟨words, nonempty, all, rfl | rfl⟩ := form
  all_goals
    obtain ⟨word, words, rfl⟩ := List.exists_cons_of_ne_nil nonempty
    obtain ⟨c, tail, hc, eq⟩ := glue_head (all word (by simp)) words
  · rw [eq, List.cons_append, cutPath_cons hc]
    simp
  · rw [eq, List.cons_append, List.cons_append, List.cons_append, cutPath_colons hc]
    simp

theorem not_duckForm_of_pathForm (form : PathForm text) : ¬ DuckForm text := by
  rintro ⟨word, -, rfl⟩
  obtain ⟨c, tail, -, noHash, eq⟩ := form.head
  cases eq
  exact noHash rfl

/-- What is left after a name cannot lengthen it. -/
theorem ends_cutName (h : cutName text = (lexeme, rest)) (nonempty : lexeme ≠ []) :
    Kind.Ends .name lexeme rest := by
  unfold cutName at h
  split at h
  · next tail =>
    split at h
    · cases h
      exact absurd rfl nonempty
    · next word some =>
      cases h
      refine .inl ⟨⟨_, ⟨some, ?_⟩, rfl⟩, head_dropWhile tail⟩
      exact List.all_eq_true.mp List.all_takeWhile
  · have path := (cutPath_form text).resolve_left (by rw [h]; exact nonempty)
    have stops := cutPath_rest text
    rw [h] at path stops
    exact .inr ⟨path, stops⟩

/-- What is left after a token cannot lengthen it. -/
theorem ends_of_lexeme? (h : lexeme? text = some (kind, lexeme, rest)) :
    kind.Ends lexeme rest := by
  cases text with
  | nil => cases h
  | cons c tail =>
    simp only [lexeme?] at h
    split at h
    · next single =>
      cases h
      unfold single? at single
      split at single <;> cases single <;> trivial
    · split at h
      · cases h
        exact head_dropWhile tail
      · split at h
        · split at h <;> cases h
          trivial
        · split at h
          · cases h
          · next name after nonempty eq =>
            cases h
            exact ends_cutName eq nonempty

theorem lexeme?_of_form (form : kind.Form text) (ends : kind.Ends text rest) :
    lexeme? (text ++ rest) = some (kind, text, rest) := by
  cases kind with
  | name =>
    rcases ends with ⟨duck, stop⟩ | ⟨path, stop⟩
    · exact lexeme?_of_duckForm duck stop
    · exact lexeme?_of_pathForm path stop
  | blank => exact lexeme?_of_blank form ends
  | separator => rcases form with rfl | rfl <;> rfl
  | finish => cases form
  | _ =>
    obtain rfl : text = _ := form
    rfl

/-- A token is cut off whole exactly when it has the form of its kind and what follows does not
lengthen it. -/
theorem lexeme?_append_iff :
    lexeme? (text ++ rest) = some (kind, text, rest) ↔ kind.Form text ∧ kind.Ends text rest :=
  ⟨fun h => ⟨form_of_lexeme? h, ends_of_lexeme? h⟩, fun h => lexeme?_of_form h.1 h.2⟩

/-- The first character of a token tells whether it is a blank and whether it is a name. -/
theorem Kind.Form.head (form : kind.Form text) :
    ∃ c tail, text = c :: tail ∧ (isSpace c = true ↔ kind = .blank) ∧
      (BeginsName c ↔ kind = .name) := by
  cases kind with
  | name =>
    have begins : ∃ c tail, text = c :: tail ∧ BeginsName c := by
      rcases form with path | ⟨word, -, rfl⟩
      · obtain ⟨c, tail, begins, -, rfl⟩ := path.head
        exact ⟨c, tail, rfl, begins⟩
      · exact ⟨'#', word, rfl, .inr (.inr rfl)⟩
    obtain ⟨c, tail, rfl, begins⟩ := begins
    exact ⟨c, tail, rfl, by simp [not_space_of_beginsName begins], by simp [begins]⟩
  | blank =>
    obtain ⟨nonempty, all⟩ := form
    obtain ⟨c, tail, rfl⟩ := List.exists_cons_of_ne_nil nonempty
    have space : isSpace c = true := all c (by simp)
    refine ⟨c, tail, rfl, by simp [space], ?_⟩
    have noName : ¬ BeginsName c := by
      intro begins
      rw [not_space_of_beginsName begins] at space
      cases space
    simp [noName]
  | finish => cases form
  | separator =>
    rcases form with rfl | rfl <;> exact ⟨_, [], rfl, by decide, by unfold BeginsName; decide⟩
  | _ =>
    obtain rfl : text = _ := form
    exact ⟨_, _, rfl, by decide, by unfold BeginsName; decide⟩

/-- A name ends where no word character and no colon follows. -/
theorem ends_of_breaks (form : NameForm text)
    (stop : ∀ c ∈ rest.head?, isWord c = false ∧ c ≠ ':') : Kind.Ends .name text rest :=
  form.elim (fun path => .inr ⟨path, cutPath_eq_nil stop⟩)
    fun duck => .inl ⟨duck, fun c head => (stop c head).1⟩

/-- Nothing lengthens a token at the end of a text. -/
theorem ends_nil (form : kind.Form text) : kind.Ends text [] := by
  cases kind with
  | blank =>
    rintro _ ⟨⟩
  | name =>
    refine ends_of_breaks form ?_
    rintro _ ⟨⟩
  | _ => trivial

theorem not_merges_of_ends (form : second.kind.Form second.text.toList)
    (ends : first.kind.Ends first.text.toList (second.text.toList ++ after)) :
    ¬ Merges first second := by
  obtain ⟨c, tail, starts, space, -⟩ := form.head
  intro merges
  cases merges with
  | blanks kind kind' =>
    rw [kind, starts] at ends
    cases (ends c rfl).symm.trans (space.mpr kind')
  | word kind kind' eq isWord =>
    rw [kind, eq] at ends
    rcases ends with ⟨-, stop⟩ | ⟨-, stop⟩
    · cases (stop _ rfl).symm.trans isWord
    · rw [List.cons_append, cutPath_cons isWord] at stop
      cases stop
  | colons kind kind' noDuck eq =>
    rw [kind] at ends
    rw [kind', Kind.Form, eq] at form
    rcases ends with ⟨duck, -⟩ | ⟨-, stop⟩
    · exact noDuck duck
    · rcases form with path | ⟨_, -, hash⟩
      · exact cutPath_ne_nil path after (eq ▸ stop)
      · cases hash

/-- A name is lengthened only by a word or, if it is a path, by a double colon. -/
theorem ends_name_of_not_merges (kind : first.kind = .name) (form : NameForm first.text.toList)
    (form' : second.kind.Form second.text.toList) (apart : ¬ Merges first second) :
    Kind.Ends .name first.text.toList (second.text.toList ++ after) := by
  by_cases kind' : second.kind = .name
  · rw [kind'] at form'
    rcases form' with ⟨words, nonempty, all, eq | eq⟩ | ⟨word, -, eq⟩
    · obtain ⟨word, words, rfl⟩ := List.exists_cons_of_ne_nil nonempty
      obtain ⟨d, rest, isWord, glued⟩ := glue_head (all word (by simp)) words
      exact absurd (.word kind kind' (eq.trans glued) isWord) apart
    · rcases form with path | duck
      · exact absurd (.colons kind kind' (not_duckForm_of_pathForm path) eq) apart
      · rw [eq]
        refine .inl ⟨duck, ?_⟩
        rintro _ ⟨⟩
        decide
    · rw [eq]
      refine ends_of_breaks form ?_
      rintro _ ⟨⟩
      decide
  · obtain ⟨c, tail, starts, -, begins⟩ := form'.head
    have noName : ¬ BeginsName c := fun h => kind' (begins.mp h)
    rw [starts]
    refine ends_of_breaks form ?_
    rintro _ ⟨⟩
    exact ⟨Bool.eq_false_iff.mpr fun word => noName (.inl word),
      fun colon => noName (.inr (.inl colon))⟩

/-- A token can follow another one without a change to it exactly when the two do not merge. -/
theorem ends_iff_not_merges (form : first.kind.Form first.text.toList)
    (form' : second.kind.Form second.text.toList) (after : List Char) :
    first.kind.Ends first.text.toList (second.text.toList ++ after) ↔ ¬ Merges first second := by
  refine ⟨not_merges_of_ends form', fun apart => ?_⟩
  -- Only blanks and names can be lengthened.
  cases kind : first.kind with
  | blank =>
    obtain ⟨c, tail, starts, space, -⟩ := form'.head
    rw [starts]
    rintro _ ⟨⟩
    exact Bool.eq_false_iff.mpr fun isSpace => apart (.blanks kind (space.mp isSpace))
  | name =>
    rw [kind] at form
    exact ends_name_of_not_merges kind form form' apart
  | _ => trivial

end Ends

end Token

namespace Scan

open Token

theorem mem_head?_tokens {position : Nat} {text : List Char} {token : Token}
    (head : token ∈ (ofChars position text).tokens.head?) :
    ∃ rest, lexeme? text = some (token.kind, token.text.toList, rest) := by
  rw [ofChars] at head
  split at head
  · next kind lexeme rest found =>
    cases head
    exact ⟨rest, by rw [found, String.toList_ofList]⟩
  · split at head <;> cases head

/-- No token of a scan merges with the token after it. -/
theorem isChain_tokens (position : Nat) (text : List Char) :
    (ofChars position text).tokens.IsChain fun first second => ¬ Merges first second := by
  fun_induction ofChars position text with
  | case1 position text kind lexeme rest found first scan ih =>
    refine List.isChain_cons.mpr ⟨fun second head => ?_, ih⟩
    obtain ⟨after, found'⟩ := mem_head?_tokens head
    have ends : first.kind.Ends first.text.toList (second.text.toList ++ after) := by
      rw [String.toList_ofList, append_of_lexeme? found']
      exact ends_of_lexeme? found
    exact not_merges_of_ends (form_of_lexeme? found') ends
  | case2 => exact .nil
  | case3 => exact .nil

/-- Tokens of which no two neighbours merge are cut off as they are from their concatenated text,
if the text after it does not lengthen the last one. -/
theorem yields_place {tokens : List Token} {after : List Char}
    (forms : ∀ token ∈ tokens, token.kind.Form token.text.toList)
    (apart : tokens.IsChain fun first second => ¬ Merges first second)
    (ends : ∀ token ∈ tokens.getLast?, token.kind.Ends token.text.toList after)
    (position : Nat) :
    Yields position ((concat tokens).toList ++ after) (place position tokens)
      (position + (concat tokens).utf8ByteSize) after := by
  induction tokens generalizing position with
  | nil => exact .nil
  | cons token tokens ih =>
    obtain ⟨next, apart⟩ := List.isChain_cons.mp apart
    have form := forms token (by simp)
    have forms := fun t member => forms t (List.mem_cons_of_mem token member)
    have stop : token.kind.Ends token.text.toList ((concat tokens).toList ++ after) := by
      cases tokens with
      | nil => exact ends token rfl
      | cons second tokens =>
        rw [toList_concat_cons, List.append_assoc]
        exact (ends_iff_not_merges form (forms second (by simp)) _).mpr (next second rfl)
    have first := Yields.single position (lexeme?_of_form form stop)
    have later := ih forms apart
      (fun t last => ends t (by cases tokens with | nil => cases last | cons => exact last))
      (position + token.text.utf8ByteSize)
    rw [String.ofList_toList] at first
    rw [toList_concat_cons, utf8ByteSize_concat_cons, List.append_assoc, ← Nat.add_assoc]
    exact first.append later

/-- Tokens of which no two neighbours merge are those of their concatenated text. -/
theorem ofText_concat {tokens : List Token}
    (forms : ∀ token ∈ tokens, token.kind.Form token.text.toList)
    (apart : tokens.IsChain fun first second => ¬ Merges first second) :
    ofText (concat tokens) = ⟨place 0 tokens, .finished, (concat tokens).utf8ByteSize⟩ := by
  have ends : ∀ token ∈ tokens.getLast?, token.kind.Ends token.text.toList [] :=
    fun token last => ends_nil (forms token (List.mem_of_getLast? last))
  have yields := yields_place forms apart ends 0
  rw [List.append_nil, Nat.zero_add] at yields
  exact ofChars_of_yields yields rfl

/-- Tokens are scanned again from their concatenated text, up to its end and with their kinds and
texts, exactly when no two neighbours merge. -/
theorem scan_concat_iff {tokens : List Token}
    (forms : ∀ token ∈ tokens, token.kind.Form token.text.toList) :
    ((ofText (concat tokens)).ending = .finished ∧
        (ofText (concat tokens)).tokens.map unplaced = tokens.map unplaced) ↔
      tokens.IsChain fun first second => ¬ Merges first second := by
  constructor
  · rintro ⟨-, same⟩
    exact isChain_of_unplaced same (isChain_tokens 0 _)
  · intro apart
    rw [ofText_concat forms apart]
    exact ⟨rfl, map_unplaced_place 0 tokens⟩

/-- A word with `#` ends before a double colon, and any name before `#`. A word without `#` does not
end before a double colon. -/
theorem scan_concat_iff_colons :
    (∀ token ∈ ([⟨.name, "#a", 0⟩, ⟨.name, "::b", 0⟩, ⟨.name, "#c", 0⟩, ⟨.blank, " \t", 0⟩,
        ⟨.name, "d", 0⟩, ⟨.hashArrow, "=>", 0⟩] : List Token), token.kind.Form token.text.toList) ∧
      (ofText "#a::b#c \td=>").ending = .finished ∧
      (ofText "#a::b#c \td=>").tokens.map unplaced = [(.name, "#a"), (.name, "::b"), (.name, "#c"),
        (.blank, " \t"), (.name, "d"), (.hashArrow, "=>")] ∧
      ¬ ((ofText "a::b").ending = .finished ∧
        (ofText "a::b").tokens.map unplaced = [(.name, "a"), (.name, "::b")]) := by
  have forms : ∀ token ∈ ([⟨.name, "#a", 0⟩, ⟨.name, "::b", 0⟩, ⟨.name, "#c", 0⟩,
      ⟨.blank, " \t", 0⟩, ⟨.name, "d", 0⟩, ⟨.hashArrow, "=>", 0⟩] : List Token),
      token.kind.Form token.text.toList := by decide +kernel
  have forms' : ∀ token ∈ ([⟨.name, "a", 0⟩, ⟨.name, "::b", 0⟩] : List Token),
      token.kind.Form token.text.toList := by decide +kernel
  obtain ⟨ending, same⟩ := (scan_concat_iff forms).mpr (by decide +kernel)
  exact ⟨forms, ending, same, mt (scan_concat_iff forms').mp (by decide +kernel)⟩

/-- The first tokens of a scan are the tokens of a part in front of the text. -/
theorem exists_yields_of_prefix {position : Nat} {text : List Char} {front : List Token}
    (h : front <+: (ofChars position text).tokens) :
    ∃ stop rest, Yields position text front stop rest := by
  induction front generalizing position text with
  | nil => exact ⟨position, text, .nil⟩
  | cons token front ih =>
    obtain ⟨back, eq⟩ := h
    rw [ofChars] at eq
    split at eq
    · next kind lexeme after found =>
      injection eq with first later
      subst first
      obtain ⟨stop, rest, yields⟩ := ih ⟨back, later⟩
      exact ⟨stop, rest, .cons found yields⟩
    · split at eq <;> cases eq

/-- The tokens of a part in front of a text make up that part. -/
theorem concat_append_of_yields {position stop : Nat} {text rest : List Char} {tokens : List Token}
    (h : Yields position text tokens stop rest) : (concat tokens).toList ++ rest = text := by
  induction h with
  | nil => rfl
  | cons found _ ih =>
    rw [toList_concat_cons, String.toList_ofList, List.append_assoc, ih]
    exact append_of_lexeme? found

/-- The text of the first tokens is what stands in front of the text. -/
theorem exists_eq_concat_append {text : String} {front : List Token}
    (first : front <+: (ofText text).tokens) : ∃ rest, text = concat front ++ rest := by
  obtain ⟨stop, rest, yields⟩ := exists_yields_of_prefix first
  refine ⟨String.ofList rest, ?_⟩
  rw [← String.toList_inj, String.toList_append, String.toList_ofList,
    concat_append_of_yields yields]

/-- The text of all tokens stands in front of what is left when scanning ends. -/
theorem exists_eq_concat_tokens (text : String) :
    ∃ rest, text = concat (ofText text).tokens ++ rest ∧
      (ofText text).ending = rest.toList.head?.elim .finished .invalid := by
  obtain ⟨rest, yields, -, ending⟩ := exists_yields_tokens 0 text.toList
  refine ⟨String.ofList rest, ?_, by rw [String.toList_ofList]; exact ending⟩
  rw [← String.toList_inj, String.toList_append, String.toList_ofList]
  exact (concat_append_of_yields yields).symm

theorem toList_concat_tokens {position : Nat} {text : List Char}
    (finished : (ofChars position text).ending = .finished) :
    (concat (ofChars position text).tokens).toList = text := by
  obtain ⟨rest, yields, -, ending⟩ := exists_yields_tokens position text
  cases rest with
  | nil => simpa using concat_append_of_yields yields
  | cons c tail => cases finished.symm.trans ending

/-- The text of all tokens is the whole text, if scanning came to its end. -/
theorem concat_tokens {text : String} (finished : (ofText text).ending = .finished) :
    concat (ofText text).tokens = text :=
  String.toList_inj.mp (toList_concat_tokens finished)

/-- The tokens of a text are those of a part in front of it and those of the rest. -/
theorem ofChars_of_yields_append {position stop : Nat} {text rest : List Char} {tokens : List Token}
    (h : Yields position text tokens stop rest) :
    ofChars position text =
      { ofChars stop rest with tokens := tokens ++ (ofChars stop rest).tokens } := by
  induction h with
  | nil => rfl
  | cons found _ ih => rw [ofChars_cons found, ih]; rfl

end Scan

end DocTypes
