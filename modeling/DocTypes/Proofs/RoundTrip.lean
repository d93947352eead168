import DocTypes.Proofs.Grammar
import DocTypes.Proofs.WellFormed

/-!
# Canonical texts are read back

The canonical text of a well-formed list of types is a text of the grammar that stands for the list
(`Ty.WellFormedList.describes`), so it is read back in either mode.

* `parse_renderList_of_parse`: what is read is read again from its canonical text.
* `exists_parse_iff_wellFormedList`: the lists that some text is read as are the well-formed ones.

`Spells` says what tokens a part of a text is made of, whatever comes before it. The canonical text
of a type is spelled out part by part along its well-formedness.
-/

namespace DocTypes

open Token Grammar

/-- The text in front of `rest` is cut into tokens that have the property without the blanks. -/
def Spells (text rest : List Char) (P : List Token → Prop) : Prop :=
  ∀ position, ∃ tokens stop,
    Scan.Yields position (text ++ rest) tokens stop rest ∧ P (significant tokens)

/-- Tokens that have the first property, and after them tokens that have the second. -/
def Joined (P Q : List Token → Prop) (tokens : List Token) : Prop :=
  ∃ front back, P front ∧ Q back ∧ tokens = front ++ back

/-- The token is the only one and has the kind. -/
def OneToken (kind : Token.Kind) (tokens : List Token) : Prop :=
  ∃ token, token.kind = kind ∧ tokens = [token]

/-- No word character and no colon comes first, so that no name is continued. -/
def Breaks (rest : List Char) : Prop :=
  ∀ c ∈ rest.head?, isWord c = false ∧ c ≠ ':'

/-- A character that is no space comes first, so that no blank is continued. -/
def Visible (text : List Char) : Prop :=
  ∃ c tail, isSpace c = false ∧ text = c :: tail

section Boundaries

variable {c : Char} {text rest : List Char}

theorem Breaks.nil : Breaks [] := by
  rintro _ ⟨⟩

theorem Breaks.cons (word : isWord c = false) (colon : c ≠ ':') : Breaks (c :: rest) := by
  rintro _ ⟨⟩
  exact ⟨word, colon⟩

/-- A token of one character continues no name. -/
theorem breaks_of_single {kind : Token.Kind} (h : single? c = some kind) (rest : List Char) :
    Breaks (c :: rest) := by
  have noName : ¬ BeginsName c := by
    intro begins
    rw [not_single_of_beginsName begins] at h
    cases h
  refine .cons ?_ fun colon => noName (.inr (.inl colon))
  exact Bool.eq_false_iff.mpr fun word => noName (.inl word)

theorem Visible.append (h : Visible text) (rest : List Char) : Visible (text ++ rest) := by
  obtain ⟨c, tail, visible, rfl⟩ := h
  exact ⟨c, tail ++ rest, visible, rfl⟩

theorem visible_of_nameForm (form : NameForm text) : Visible text := by
  rcases form with path | ⟨word, -, rfl⟩
  · obtain ⟨c, tail, begins, -, rfl⟩ := path.head
    exact ⟨c, tail, not_space_of_beginsName begins, rfl⟩
  · exact ⟨'#', word, by decide, rfl⟩

/-- A name that may be missing has a bracket after it. -/
theorem visible_label {name : Option String} (named : ∀ given ∈ name, NameForm given.toList)
    (space : isSpace c = false) : Visible ((name.getD "").toList ++ c :: rest) := by
  cases name with
  | none => exact ⟨c, rest, space, rfl⟩
  | some given => exact (visible_of_nameForm (named given rfl)).append _

end Boundaries

namespace Spells

variable {text more rest : List Char} {P Q R : List Token → Prop} {c : Char} {kind : Token.Kind}

theorem append (first : Spells text (more ++ rest) P) (second : Spells more rest Q) :
    Spells (text ++ more) rest (Joined P Q) := by
  intro position
  obtain ⟨front, middle, yields, hP⟩ := first position
  obtain ⟨back, stop, yields', hQ⟩ := second middle
  refine ⟨front ++ back, stop, ?_, significant front, significant back, hP, hQ, ?_⟩
  · rw [List.append_assoc]
    exact yields.append yields'
  · exact List.filter_append ..

theorem mono (h : Spells text rest P) (imp : ∀ tokens, P tokens → Q tokens) :
    Spells text rest Q := by
  intro position
  obtain ⟨tokens, stop, yields, hP⟩ := h position
  exact ⟨tokens, stop, yields, imp _ hP⟩

/-- A text that is cut off whole spells one token. -/
theorem of_lexeme? (found : lexeme? (text ++ rest) = some (kind, text, rest))
    (visible : kind ≠ .blank) (h : ∀ position, P [⟨kind, String.ofList text, position⟩]) :
    Spells text rest P := by
  intro position
  refine ⟨_, _, .single position found, ?_⟩
  have kept : significant [⟨kind, String.ofList text, position⟩] =
      [⟨kind, String.ofList text, position⟩] := by
    simp [significant, visible]
  rw [kept]
  exact h position

theorem single (h : single? c = some kind) : Spells [c] rest (OneToken kind) :=
  of_lexeme? (lexeme?_of_single h rest) (single?_ne_blank h) fun _ => ⟨_, rfl, rfl⟩

theorem arrow : Spells ['=', '>'] rest (OneToken .hashArrow) :=
  of_lexeme? (lexeme?_arrow rest) (by decide) fun _ => ⟨_, rfl, rfl⟩

/-- A blank that ends here spells nothing. -/
theorem space (visible : Visible rest) : Spells [' '] rest (· = []) := by
  intro position
  obtain ⟨c, tail, noSpace, rfl⟩ := visible
  have form : Token.Kind.Form .blank [' '] := ⟨by simp, by simp [isSpace]⟩
  have stop : ∀ d ∈ (c :: tail).head?, isSpace d = false := by
    rintro _ ⟨⟩
    exact noSpace
  exact ⟨_, _, .single position (lexeme?_of_blank form stop), rfl⟩

theorem label {name : String} (form : NameForm name.toList) (stop : Breaks rest) :
    Spells name.toList rest (Label · (some name)) := by
  refine of_lexeme? (lexeme?_of_nameForm form stop) (by decide) fun position => ?_
  rw [String.ofList_toList]
  exact .given rfl

/-- A name that may be missing. -/
theorem label? {name : Option String} (named : ∀ given ∈ name, NameForm given.toList)
    (stop : Breaks rest) : Spells (name.getD "").toList rest (Label · name) := by
  cases name with
  | none => exact fun position => ⟨[], position, .nil, .missing⟩
  | some given => exact label (named given rfl) stop

/-- A label and a bracketed list. -/
theorem group {label list : List Char} {opening closing : Char} {start close : Token.Kind}
    (labelled : ∀ rest, Breaks rest → Spells label rest P)
    (opens : single? opening = some start) (listed : ∀ rest, Breaks rest → Spells list rest Q)
    (closes : single? closing = some close)
    (join : ∀ front inner opener closer, P front → opener.kind = start → Q inner →
      closer.kind = close → R (front ++ [opener] ++ inner ++ [closer])) :
    Spells (label ++ [opening] ++ list ++ [closing]) rest R := by
  have front := labelled _ (breaks_of_single opens (list ++ ([closing] ++ rest)))
  have inside := listed _ (breaks_of_single closes rest)
  refine (((front.append (single opens)).append inside).append (single closes)).mono ?_
  rintro _ ⟨_, _, ⟨_, inner, ⟨front, _, hP, ⟨opener, opened, rfl⟩, rfl⟩, hQ, rfl⟩,
    ⟨closer, closed, rfl⟩, rfl⟩
  exact join front inner opener closer hP opened hQ closed

end Spells

/-! ## Canonical texts -/

namespace Ty

/-- The text spells an alternative that stands for the type, wherever no name is continued. -/
def Readable (depth : Nat) (type : Ty) : Prop :=
  ∀ rest, Breaks rest → Spells type.render.toList rest (DerivesOne depth · type)

/-- The text spells a list that stands for the types, wherever no name is continued. -/
def ReadableList (depth : Nat) (types : List Ty) : Prop :=
  ∀ rest, Breaks rest → Spells (renderList types).toList rest (Derives depth · types)

section Texts

variable {depth : Nat} {name : String} {label : Option String} {type : Ty}
  {types keys values : List Ty}

/-- The name that a hash is written with: none, when it is the default name. -/
theorem exists_label (name : String) :
    ∃ label : Option String, label.getD "" = (if name = defaultHash then "" else name) ∧
      label.getD defaultHash = name ∧ ∀ given ∈ label, given = name := by
  by_cases default : name = defaultHash
  · exact ⟨none, by rw [if_pos default]; rfl, default.symm, by simp⟩
  · exact ⟨some name, by rw [if_neg default]; rfl, rfl, by simp⟩

theorem toList_collection (name : String) (types : List Ty) :
    (render (.collection name types)).toList =
      name.toList ++ ['<'] ++ (renderList types).toList ++ ['>'] := by
  simp [render]

theorem toList_tuple (name : Option String) (types : List Ty) :
    (render (.tuple name types)).toList =
      (name.getD "").toList ++ ['('] ++ (renderList types).toList ++ [')'] := by
  simp [render]

theorem toList_hash (written : label.getD "" = (if name = defaultHash then "" else name))
    (keys values : List Ty) :
    (render (.hash name keys values)).toList =
      (label.getD "").toList ++ ['\x7b'] ++ ((renderList keys).toList ++ [' '] ++ ['=', '>'] ++
        [' '] ++ (renderList values).toList) ++ ['\x7d'] := by
  simp [render, written]

theorem toList_renderList_cons (first second : Ty) (types : List Ty) :
    (renderList (first :: second :: types)).toList =
      (render first).toList ++ [','] ++ [' '] ++ (renderList (second :: types)).toList := by
  simp [renderList]

/-- The text of a well-formed type starts with its name or its opening bracket. -/
theorem WellFormed.visible (h : WellFormed depth type) : Visible type.render.toList := by
  cases h with
  | kind path => exact visible_of_nameForm (.inl path)
  | duck letters eq => exact visible_of_nameForm (.inr ⟨_, letters, eq⟩)
  | literal literal => exact visible_of_nameForm (.inl (pathForm_of_literal literal))
  | collection form =>
    rw [toList_collection, List.append_assoc, List.append_assoc]
    exact (visible_of_nameForm form).append _
  | tuple named =>
    rw [toList_tuple, List.append_assoc, List.append_assoc]
    exact visible_label named (by decide)
  | @hash _ name _ _ form =>
    obtain ⟨label, written, -, same⟩ := exists_label name
    rw [toList_hash written, List.append_assoc, List.append_assoc]
    exact visible_label (fun given member => same given member ▸ form) (by decide)

theorem WellFormedList.visible (h : WellFormedList depth types) :
    Visible (renderList types).toList := by
  obtain ⟨nonempty, members⟩ := h
  match types, nonempty with
  | [type], _ => exact (members type (by simp)).visible
  | first :: second :: types, _ =>
    rw [toList_renderList_cons, List.append_assoc, List.append_assoc]
    exact (members first (by simp)).visible.append _

theorem readable_name (form : NameForm name.toList) (written : render type = name)
    (stands : ofName name = type) : Readable depth type := by
  subst stands
  intro rest stop
  rw [written]
  refine (Spells.label form stop).mono ?_
  rintro _ ⟨⟩
  exact .name ‹_›

theorem readable_collection (form : NameForm name.toList) (other : name ≠ defaultHash)
    (list : ReadableList depth types) : Readable (depth + 1) (.collection name types) := by
  intro rest _
  rw [toList_collection]
  refine Spells.group (fun _ => .label form) rfl list rfl ?_
  intro front inner opener closer label opened inside closed
  exact .collection label (fun eq => other (Option.some.inj eq)) opened inside closed

theorem readable_tuple (named : ∀ given ∈ label, NameForm given.toList)
    (list : ReadableList depth types) : Readable (depth + 1) (.tuple label types) := by
  intro rest _
  rw [toList_tuple]
  refine Spells.group (fun _ => .label? named) rfl list rfl ?_
  intro front inner opener closer label opened inside closed
  exact .tuple label opened inside closed

/-- The arrow between keys and values stands between two blanks. -/
theorem readable_hash (form : NameForm name.toList) (keyList : ReadableList depth keys)
    (valueList : ReadableList depth values) (visible : Visible (renderList values).toList) :
    Readable (depth + 1) (.hash name keys values) := by
  intro rest _
  obtain ⟨label, written, rfl, same⟩ := exists_label name
  rw [toList_hash written]
  have named : ∀ given ∈ label, NameForm given.toList :=
    fun given member => same given member ▸ form
  have arrow (rest : List Char) : Visible (['=', '>'] ++ rest) := ⟨'=', _, by decide, rfl⟩
  have inner := fun rest stop =>
    ((((keyList _ (.cons (by decide) (by decide))).append (.space (arrow _))).append
      .arrow).append (.space (visible.append rest))).append (valueList rest stop)
  refine Spells.group (fun _ => .label? named) rfl inner rfl ?_
  rintro front _ opener closer label opened
    ⟨_, valueTokens, ⟨_, _, ⟨_, _, ⟨keyTokens, _, hKeys, rfl, rfl⟩, ⟨arrow, isArrow, rfl⟩, rfl⟩,
      rfl, rfl⟩, hValues, rfl⟩ closed
  simpa using DerivesOne.hash label opened hKeys isArrow hValues closed

/-- The alternatives are separated by a comma and a blank. -/
theorem readableList_of_each (nonempty : types ≠ [])
    (members : ∀ type ∈ types, WellFormed depth type)
    (each : ∀ type ∈ types, Readable depth type) : ReadableList depth types := by
  intro rest stop
  induction types with
  | nil => exact absurd rfl nonempty
  | cons first types ih =>
    have one := each first (by simp)
    cases types with
    | nil => exact (one rest stop).mono fun _ => .single
    | cons second types =>
      have later := ih (by simp) (fun type member => members type (by simp [member]))
        fun type member => each type (by simp [member])
      -- The next alternative starts with no space, so the blank before it is one space.
      have visible : Visible (renderList (second :: types)).toList := WellFormedList.visible
        (.intro (by simp) fun type member => members type (List.mem_cons_of_mem first member))
      rw [toList_renderList_cons]
      refine ((((one _ (breaks_of_single rfl _)).append (.single rfl)).append
        (.space (visible.append rest))).append later).mono ?_
      rintro _ ⟨_, _, ⟨_, _, ⟨_, _, hFirst, ⟨separator, comma, rfl⟩, rfl⟩, rfl, rfl⟩, hLater, rfl⟩
      simpa using Derives.more hFirst comma hLater

mutual

theorem WellFormed.readable {depth : Nat} {type : Ty} : WellFormed depth type → Readable depth type
  | .kind path other => readable_name (.inl path) rfl (ofName_of_kind path other)
  | .duck letters eq _ => readable_name (.inr ⟨_, letters, eq⟩) rfl (ofName_of_duck eq)
  | .literal word => readable_name (.inl (pathForm_of_literal word)) rfl (ofName_of_literal word)
  | .collection form other list => readable_collection form other list.readable
  | .tuple named list => readable_tuple named list.readable
  | .hash form keys values => readable_hash form keys.readable values.readable values.visible

theorem WellFormedList.readable {depth : Nat} {types : List Ty} :
    WellFormedList depth types → ReadableList depth types
  | .intro nonempty members =>
    readableList_of_each nonempty members fun type member => (members type member).readable

end

end Texts

/-- The canonical text of a well-formed list is a text of the grammar that stands for the list. -/
theorem WellFormedList.describes {types : List Ty} (h : WellFormedList Reader.nestingLimit types) :
    Describes (renderList types) types := by
  obtain ⟨tokens, stop, yields, list⟩ := h.readable [] .nil 0
  rw [List.append_nil] at yields
  show (Scan.ofChars 0 (renderList types).toList).ending = .finished ∧
    Derives _ (significant (Scan.ofChars 0 (renderList types).toList).tokens) types
  rw [Scan.ofChars_of_yields yields rfl]
  exact ⟨rfl, list⟩

end Ty

/-- Some text is read as the list of types in some mode exactly when the list is well-formed within
the nesting limit. -/
theorem exists_parse_iff_wellFormedList (types : List Ty) :
    (∃ mode text, parse mode text = .ok types) ↔
      Ty.WellFormedList Reader.nestingLimit types := by
  constructor
  · rintro ⟨mode, text, read⟩
    exact wellFormedList_of_parse read
  · intro wellFormed
    exact ⟨.strict, Ty.renderList types, wellFormed.describes.parse_eq .strict⟩

/-- What was read from a text in some mode is read again from its canonical text in every mode. The
canonical text is a text of the grammar, so its brackets match even where those of the first text
did not. -/
theorem parse_renderList_of_parse {mode : Mode} {text : String} {types : List Ty}
    (h : parse mode text = .ok types) :
    Describes (Ty.renderList types) types ∧
      ∀ again, parse again (Ty.renderList types) = .ok types := by
  have canonical := (wellFormedList_of_parse h).describes
  exact ⟨canonical, fun again => canonical.parse_eq again⟩

/-- A hash that is closed by the bracket of a collection, which is left open. -/
theorem parse_renderList_of_mismatched :
    parse .permissive "Array<Hash\x7bA => b>" =
        .ok [.collection "Array" [.hash "Hash" [.kind "A"] [.kind "b"]]] ∧
      parse .strict "Array<\x7bA => b\x7d>" =
        .ok [.collection "Array" [.hash "Hash" [.kind "A"] [.kind "b"]]] := by
  have read : parse .permissive "Array<Hash\x7bA => b>" =
      .ok [.collection "Array" [.hash "Hash" [.kind "A"] [.kind "b"]]] := by decide +kernel
  have canonical : Ty.renderList [.collection "Array" [.hash "Hash" [.kind "A"] [.kind "b"]]] =
      "Array<\x7bA => b\x7d>" := by decide
  exact ⟨read, canonical ▸ (parse_renderList_of_parse read).2 .strict⟩

end DocTypes
