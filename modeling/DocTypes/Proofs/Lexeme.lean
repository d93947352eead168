import DocTypes.Path
import DocTypes.Token.Lexeme

/-!
# The forms of tokens

Which texts are tokens of a kind, said without `lexeme?`, and how `lexeme?` finds them.

* `form_of_lexeme?`: the token that is cut off has the form of its kind.
* `lexeme?_of_pathForm`, `lexeme?_of_duckForm`, `lexeme?_of_blank`: a text of the form is cut off
  whole, when the text after it cannot continue it. The tokens of the other kinds need no such
  condition.
-/

namespace DocTypes.Token

/-- One or more word characters. -/
def WordForm (text : List Char) : Prop :=
  text ≠ [] ∧ ∀ c ∈ text, isWord c = true

instance (text : List Char) : Decidable (WordForm text) :=
  decidable_of_iff (text ≠ [] ∧ text.all isWord = true) (by simp [WordForm])

/-- Words joined by double colons, with or without a double colon in front. -/
def PathForm (text : List Char) : Prop :=
  ∃ words, words ≠ [] ∧ (∀ word ∈ words, WordForm word) ∧
    (text = Path.glue words ∨ text = ':' :: ':' :: Path.glue words)

/-- A word after `#`. -/
def DuckForm (text : List Char) : Prop :=
  ∃ word, WordForm word ∧ text = '#' :: word

/-- The two forms of a name. -/
def NameForm (text : List Char) : Prop :=
  PathForm text ∨ DuckForm text

/-- The text of a token of the kind. The end of the input has no text of its own. -/
def Kind.Form : Kind → List Char → Prop
  | collectionStart, text => text = ['<']
  | collectionEnd, text => text = ['>']
  | tupleStart, text => text = ['(']
  | tupleEnd, text => text = [')']
  | name, text => NameForm text
  | separator, text => text = [','] ∨ text = [';']
  | blank, text => text ≠ [] ∧ ∀ c ∈ text, isSpace c = true
  | hashStart, text => text = ['\x7b']
  | hashArrow, text => text = ['=', '>']
  | hashEnd, text => text = ['\x7d']
  | finish, _ => False

/-! ## Characters -/

theorem single?_form {c : Char} {kind : Kind} (h : single? c = some kind) : kind.Form [c] := by
  unfold single? at h
  split at h <;> cases h <;> simp [Kind.Form]

theorem single?_ne_blank {c : Char} {kind : Kind} (h : single? c = some kind) : kind ≠ .blank := by
  rintro rfl
  unfold single? at h
  split at h <;> cases h

/-- A character that begins a name makes no token by itself and is no space. -/
def BeginsName (c : Char) : Prop :=
  isWord c = true ∨ c = ':' ∨ c = '#'

theorem not_single_of_beginsName {c : Char} (h : BeginsName c) : single? c = none := by
  unfold single?
  split
  case h_9 => rfl
  all_goals
    exfalso
    revert h
    unfold BeginsName
    decide

theorem not_space_of_beginsName {c : Char} (h : BeginsName c) : isSpace c = false := by
  refine Bool.eq_false_iff.mpr fun space => ?_
  have cases : c = ' ' ∨ c = '\t' ∨ c = '\r' ∨ c = '\n' ∨ c = '\x0b' ∨ c = '\x0c' := by
    simpa [isSpace, or_assoc] using space
  revert h
  unfold BeginsName
  rcases cases with rfl | rfl | rfl | rfl | rfl | rfl <;> decide

theorem ne_equals_of_beginsName {c : Char} (h : BeginsName c) : c ≠ '=' := by
  rintro rfl
  revert h
  unfold BeginsName
  decide

theorem ne_colon_of_isWord {c : Char} (h : isWord c = true) : c ≠ ':' := by
  rintro rfl
  exact absurd h (by decide)

theorem ne_hash_of_isWord {c : Char} (h : isWord c = true) : c ≠ '#' := by
  rintro rfl
  exact absurd h (by decide)

theorem not_single_of_space {c : Char} (h : isSpace c = true) : single? c = none := by
  unfold single?
  split
  case h_9 => rfl
  all_goals exact absurd h (by decide)

/-- A run of characters of one class ends where a character of another class follows. -/
theorem span_of_all {p : Char → Bool} {text rest : List Char} (all : ∀ c ∈ text, p c = true)
    (stop : ∀ c ∈ rest.head?, p c = false) :
    (text ++ rest).takeWhile p = text ∧ (text ++ rest).dropWhile p = rest := by
  rw [List.takeWhile_append_of_pos all, List.dropWhile_append_of_pos all]
  cases rest with
  | nil => simp
  | cons c tail => simp [stop c rfl]

/-! ## Paths -/

theorem wordForm_cons {c : Char} {text : List Char} (hc : isWord c = true)
    (h : text = [] ∨ WordForm text) : WordForm (c :: text) := by
  refine ⟨by simp, ?_⟩
  rcases h with rfl | ⟨-, all⟩
  · simpa using hc
  · simpa [hc] using all

theorem pathForm_of_wordForm {text : List Char} (form : WordForm text) : PathForm text :=
  ⟨[text], by simp, by simpa using form, .inl rfl⟩

/-- A word character in front of a path lengthens its first word, or is a word in front of the
double colon. -/
theorem glue_of_cons {c : Char} {text : List Char} (hc : isWord c = true)
    (h : text = [] ∨ PathForm text) :
    ∃ words, words ≠ [] ∧ (∀ word ∈ words, WordForm word) ∧ c :: text = Path.glue words := by
  rcases h with rfl | ⟨words, nonempty, all, rfl | rfl⟩
  · exact ⟨[[c]], by simp, by simpa using wordForm_cons hc (.inl rfl), rfl⟩
  · obtain ⟨word, words, rfl⟩ := List.exists_cons_of_ne_nil nonempty
    have first : WordForm (c :: word) := wordForm_cons hc (.inr (all word (by simp)))
    refine ⟨(c :: word) :: words, by simp, ?_, ?_⟩
    · intro other member
      rcases List.mem_cons.mp member with rfl | later
      · exact first
      · exact all other (by simp [later])
    · cases words <;> rfl
  · obtain ⟨word, words, rfl⟩ := List.exists_cons_of_ne_nil nonempty
    refine ⟨[c] :: word :: words, by simp, ?_, rfl⟩
    intro other member
    rcases List.mem_cons.mp member with rfl | later
    · exact wordForm_cons hc (.inl rfl)
    · exact all other later

theorem cutPath_form (text : List Char) : (cutPath text).1 = [] ∨ PathForm (cutPath text).1 := by
  fun_induction cutPath text with
  | case1 c rest word path after eq ih =>
    obtain ⟨words, nonempty, all, glued⟩ := glue_of_cons word (by rwa [eq] at ih)
    exact .inr ⟨words, nonempty, all, .inr (by rw [glued])⟩
  | case2 => exact .inl rfl
  | case3 c rest _ word path after eq ih =>
    obtain ⟨words, nonempty, all, glued⟩ := glue_of_cons word (by rwa [eq] at ih)
    exact .inr ⟨words, nonempty, all, .inl glued⟩
  | case4 => exact .inl rfl
  | case5 => exact .inl rfl

theorem cutPath_cons {c : Char} (hc : isWord c = true) (text : List Char) :
    cutPath (c :: text) = (c :: (cutPath text).1, (cutPath text).2) := by
  have notColons : ∀ d rest, c = ':' → text = ':' :: d :: rest → False :=
    fun _ _ colon _ => ne_colon_of_isWord hc colon
  rw [cutPath.eq_2 _ _ notColons, if_pos hc]

theorem cutPath_colons {c : Char} (hc : isWord c = true) (text : List Char) :
    cutPath (':' :: ':' :: c :: text) =
      (':' :: ':' :: (cutPath (c :: text)).1, (cutPath (c :: text)).2) := by
  rw [cutPath_cons hc, cutPath, if_pos hc]

theorem cutPath_word {word : List Char} (all : ∀ c ∈ word, isWord c = true) (rest : List Char) :
    cutPath (word ++ rest) = (word ++ (cutPath rest).1, (cutPath rest).2) := by
  induction word with
  | nil => rfl
  | cons c word ih =>
    rw [List.cons_append, cutPath_cons (all c (by simp)), ih fun d hd => all d (by simp [hd])]
    rfl

/-- Glued words start with a word character. -/
theorem glue_head {word : List Char} (form : WordForm word) (words : List (List Char)) :
    ∃ c tail, isWord c = true ∧ Path.glue (word :: words) = c :: tail := by
  obtain ⟨c, tail, rfl⟩ := List.exists_cons_of_ne_nil form.1
  cases words <;> exact ⟨c, _, form.2 c (by simp), rfl⟩

theorem PathForm.head {text : List Char} (form : PathForm text) :
    ∃ c tail, BeginsName c ∧ c ≠ '#' ∧ text = c :: tail := by
  obtain ⟨words, nonempty, all, rfl | rfl⟩ := form
  · obtain ⟨word, words, rfl⟩ := List.exists_cons_of_ne_nil nonempty
    obtain ⟨c, tail, hc, eq⟩ := glue_head (all word (by simp)) words
    exact ⟨c, tail, .inl hc, ne_hash_of_isWord hc, eq⟩
  · exact ⟨':', _, .inr (.inl rfl), by decide, rfl⟩

theorem cutPath_glue {words : List (List Char)} (all : ∀ word ∈ words, WordForm word)
    (rest : List Char) :
    cutPath (Path.glue words ++ rest) =
      (Path.glue words ++ (cutPath rest).1, (cutPath rest).2) := by
  induction words with
  | nil => rfl
  | cons word words ih =>
    -- What follows the first word is a double colon and the head of the next word.
    have first := (all word (by simp)).2
    have later := ih fun other member => all other (by simp [member])
    cases words with
    | nil => exact cutPath_word first rest
    | cons next words =>
      obtain ⟨c, tail, hc, eq⟩ := glue_head (all next (by simp)) words
      have joined : Path.glue (word :: next :: words) ++ rest =
          word ++ ':' :: ':' :: c :: (tail ++ rest) := by
        simp [Path.glue, eq]
      rw [eq, List.cons_append] at later
      rw [joined, cutPath_word first, cutPath_colons hc, later]
      simp [Path.glue, eq]

/-- A path is cut off whole when the text after it starts with no path. -/
theorem cutPath_of_pathForm {text rest : List Char} (form : PathForm text)
    (stop : (cutPath rest).1 = []) : cutPath (text ++ rest) = (text, rest) := by
  have after : (cutPath rest).2 = rest := by simpa [stop] using cutPath_append rest
  obtain ⟨words, nonempty, all, rfl | rfl⟩ := form
  · rw [cutPath_glue all, stop, after, List.append_nil]
  · obtain ⟨word, words, rfl⟩ := List.exists_cons_of_ne_nil nonempty
    obtain ⟨c, tail, hc, eq⟩ := glue_head (all word (by simp)) words
    have whole := cutPath_glue all rest
    rw [stop, after, List.append_nil, eq, List.cons_append] at whole
    rw [eq, List.cons_append, List.cons_append, List.cons_append, cutPath_colons hc, whole]

/-- No path starts with a character that is neither a word character nor a colon. -/
theorem cutPath_eq_nil {rest : List Char}
    (h : ∀ c ∈ rest.head?, isWord c = false ∧ c ≠ ':') : (cutPath rest).1 = [] := by
  unfold cutPath
  split
  · exact absurd rfl (h ':' rfl).2
  · next c _ _ => rw [if_neg (by simp [(h c rfl).1])]
  · rfl

/-- A text has the form of a path when it is cut off whole. -/
theorem pathForm_iff_cutPath {text : List Char} :
    PathForm text ↔ text ≠ [] ∧ (cutPath text).2 = [] := by
  constructor
  · intro form
    obtain ⟨c, tail, -, -, eq⟩ := form.head
    have whole : cutPath (text ++ []) = (text, []) := cutPath_of_pathForm form rfl
    rw [List.append_nil] at whole
    exact ⟨by simp [eq], by rw [whole]⟩
  · rintro ⟨nonempty, nothing⟩
    have whole : (cutPath text).1 = text := by simpa [nothing] using cutPath_append text
    exact whole ▸ (cutPath_form text).resolve_left (whole.symm ▸ nonempty)

instance (text : List Char) : Decidable (PathForm text) :=
  decidable_of_iff (text ≠ [] ∧ (cutPath text).2 = []) pathForm_iff_cutPath.symm

theorem duckForm_iff {text : List Char} :
    DuckForm text ↔ text.head? = some '#' ∧ WordForm text.tail := by
  constructor
  · rintro ⟨word, form, rfl⟩
    exact ⟨rfl, form⟩
  · rintro ⟨hash, form⟩
    cases text with
    | nil => cases hash
    | cons c word =>
      cases hash
      exact ⟨word, form, rfl⟩

instance (text : List Char) : Decidable (DuckForm text) :=
  decidable_of_iff _ duckForm_iff.symm

instance (kind : Kind) (text : List Char) : Decidable (kind.Form text) :=
  match kind with
  | .name => inferInstanceAs (Decidable (PathForm text ∨ DuckForm text))
  | .separator => inferInstanceAs (Decidable (text = _ ∨ text = _))
  | .blank =>
    decidable_of_iff (text ≠ [] ∧ text.all isSpace = true) (by simp [Kind.Form])
  | .finish => inferInstanceAs (Decidable False)
  | .collectionStart | .collectionEnd | .tupleStart | .tupleEnd | .hashStart | .hashArrow
  | .hashEnd => inferInstanceAs (Decidable (text = _))

/-! ## Tokens -/

theorem cutName_form (text : List Char) :
    (cutName text).1 = [] ∨ NameForm (cutName text).1 := by
  unfold cutName
  split
  · next rest =>
    split
    · exact .inl rfl
    · next word nonempty =>
      exact .inr (.inr ⟨_, ⟨nonempty, List.all_eq_true.mp List.all_takeWhile⟩, rfl⟩)
  · exact (cutPath_form text).imp id .inl

/-- The token that is cut off a text has the form of its kind. -/
theorem form_of_lexeme? {text lexeme rest : List Char} {kind : Kind}
    (h : lexeme? text = some (kind, lexeme, rest)) : kind.Form lexeme := by
  cases text with
  | nil => cases h
  | cons c tail =>
    simp only [lexeme?] at h
    split at h
    · next single =>
      cases h
      exact single?_form single
    · split at h
      · next space =>
        cases h
        show _ ≠ [] ∧ ∀ d ∈ c :: tail.takeWhile isSpace, isSpace d = true
        refine ⟨by simp, fun d member => ?_⟩
        rcases List.mem_cons.mp member with rfl | later
        · exact space
        · exact List.all_eq_true.mp List.all_takeWhile d later
      · split at h
        · split at h <;> cases h
          rfl
        · have form := cutName_form (c :: tail)
          split at h
          · cases h
          · next name after nonempty eq =>
            cases h
            rw [eq] at form
            exact form.resolve_left nonempty

/-- A name is found by `cutName` when its first character can begin a name. -/
theorem lexeme?_of_cutName {c : Char} {text lexeme rest : List Char} (begins : BeginsName c)
    (h : cutName (c :: text) = (lexeme, rest)) (nonempty : lexeme ≠ []) :
    lexeme? (c :: text) = some (.name, lexeme, rest) := by
  obtain ⟨d, tail, rfl⟩ := List.exists_cons_of_ne_nil nonempty
  simp only [lexeme?, not_single_of_beginsName begins, not_space_of_beginsName begins,
    ne_equals_of_beginsName begins, h]
  rfl

/-- A path is cut off whole when the text after it starts with no path. -/
theorem lexeme?_of_pathForm {text rest : List Char} (form : PathForm text)
    (stop : (cutPath rest).1 = []) : lexeme? (text ++ rest) = some (.name, text, rest) := by
  have cut := cutPath_of_pathForm form stop
  obtain ⟨c, tail, begins, noHash, rfl⟩ := form.head
  have asPath : cutName (c :: tail ++ rest) = cutPath (c :: tail ++ rest) := by
    unfold cutName
    split
    · next eq => exact absurd (List.cons.inj eq).1 noHash
    · rfl
  exact lexeme?_of_cutName begins (asPath.trans cut) (by simp)

/-- `#` and a word are cut off whole when no word character follows. -/
theorem lexeme?_of_duckForm {text rest : List Char} (form : DuckForm text)
    (stop : ∀ c ∈ rest.head?, isWord c = false) :
    lexeme? (text ++ rest) = some (.name, text, rest) := by
  obtain ⟨word, ⟨nonempty, all⟩, rfl⟩ := form
  obtain ⟨taken, dropped⟩ := span_of_all all stop
  refine lexeme?_of_cutName (.inr (.inr rfl)) ?_ (by simp)
  unfold cutName
  obtain ⟨d, tail, rfl⟩ := List.exists_cons_of_ne_nil nonempty
  simp only [List.append_eq, taken, dropped]

/-- A name is cut off whole when no word character and no colon follows. -/
theorem lexeme?_of_nameForm {text rest : List Char} (form : NameForm text)
    (stop : ∀ c ∈ rest.head?, isWord c = false ∧ c ≠ ':') :
    lexeme? (text ++ rest) = some (.name, text, rest) :=
  form.elim (fun path => lexeme?_of_pathForm path (cutPath_eq_nil stop))
    fun duck => lexeme?_of_duckForm duck fun c hc => (stop c hc).1

theorem lexeme?_of_space {c : Char} (space : isSpace c = true) (rest : List Char) :
    lexeme? (c :: rest) =
      some (.blank, c :: rest.takeWhile isSpace, rest.dropWhile isSpace) := by
  simp only [lexeme?, not_single_of_space space, if_pos space]

/-- A run of spaces is cut off whole when no space follows. -/
theorem lexeme?_of_blank {text rest : List Char} (form : Kind.Form .blank text)
    (stop : ∀ c ∈ rest.head?, isSpace c = false) :
    lexeme? (text ++ rest) = some (.blank, text, rest) := by
  obtain ⟨nonempty, all⟩ := form
  obtain ⟨c, tail, rfl⟩ := List.exists_cons_of_ne_nil nonempty
  have space : isSpace c = true := all c (by simp)
  have later : ∀ d ∈ tail, isSpace d = true := fun d hd => all d (by simp [hd])
  obtain ⟨taken, dropped⟩ := span_of_all later stop
  rw [List.cons_append, lexeme?_of_space space, taken, dropped]

/-- A token of one character is cut off whatever follows. -/
theorem lexeme?_of_single {c : Char} {kind : Kind} (h : single? c = some kind)
    (rest : List Char) : lexeme? (c :: rest) = some (kind, [c], rest) := by
  simp only [lexeme?, h]

/-- An arrow is cut off whatever follows. -/
theorem lexeme?_arrow (rest : List Char) :
    lexeme? ('=' :: '>' :: rest) = some (.hashArrow, ['=', '>'], rest) := rfl

end DocTypes.Token
