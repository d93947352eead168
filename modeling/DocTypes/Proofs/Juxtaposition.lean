import DocTypes.Proofs.Positions
import DocTypes.Proofs.RoundTrip
import DocTypes.Proofs.Significance

/-!
# Texts one after another

A text that is put together from parts has the tokens of its parts, if no name runs on from one part
into the next (`Scan.sense_append`). The blanks do not matter, which may run together, and neither do
the places of the tokens. `MadeOf text tokens` says so for given tokens.

`AcceptedWithin depth text types` says that strict mode accepts the text as types of the depth
(`acceptedWithin_iff`). Such texts can be put together to others: `AcceptedWithin.join` joins two lists
with a comma, and `parseAll_eq_flatten` any number of them.
-/

namespace DocTypes

open Reader Token

/-! ## Blanks -/

namespace Scan

section Blanks

variable {mode : Mode} {spaces : List Char}

theorem sense_append_tokens (front : List Token) (scan : Scan) :
    sense mode { scan with tokens := front ++ scan.tokens } =
      ((significant front).map (Token.sense mode) ++ (scan.sense mode).1,
        (scan.sense mode).2) := by
  simp [sense, significant]

/-- Where a text stands makes no difference to its sense. -/
theorem sense_ofChars (position other : Nat) (text : List Char) :
    (ofChars position text).sense mode = (ofChars other text).sense mode := by
  fun_induction ofChars position text generalizing other with
  | case1 position text kind lexeme rest found first scan ih =>
    have moved : (significant [first]).map (Token.sense mode) =
        (significant [⟨kind, String.ofList lexeme, other⟩]).map (Token.sense mode) := by
      by_cases blank : kind = .blank <;> simp [significant, first, blank, Token.sense]
    rw [ofChars_cons found]
    show sense mode { scan with tokens := [first] ++ scan.tokens } =
      sense mode { ofChars _ rest with tokens := [_] ++ (ofChars _ rest).tokens }
    rw [sense_append_tokens, sense_append_tokens, moved, ih]
  | case2 => rw [ofChars_nil]; rfl
  | case3 position c tail found =>
    rw [ofChars]
    split
    · next found' => cases found.symm.trans found'
    · rfl

/-- Spaces in front of a text make no difference to its sense. -/
theorem sense_dropWhile (position other : Nat) (text : List Char) :
    (ofChars position text).sense mode = (ofChars other (text.dropWhile isSpace)).sense mode := by
  cases text with
  | nil => exact sense_ofChars _ _ _
  | cons c rest =>
    by_cases space : isSpace c = true
    · rw [List.dropWhile_cons_of_pos space, ofChars_cons (lexeme?_of_space space rest)]
      show sense mode { ofChars _ _ with tokens := [_] ++ (ofChars _ _).tokens } = _
      rw [sense_append_tokens]
      exact sense_ofChars _ _ _
    · rw [List.dropWhile_cons_of_neg space]
      exact sense_ofChars _ _ _

theorem sense_spaces_append (all : ∀ c ∈ spaces, isSpace c = true) (position other : Nat)
    (text : List Char) :
    (ofChars position (spaces ++ text)).sense mode = (ofChars other text).sense mode := by
  rw [sense_dropWhile position 0, sense_dropWhile other 0, List.dropWhile_append_of_pos all]

end Blanks

/-! ## Two texts -/

section Append

variable {mode : Mode} {position : Nat} {text other : List Char} {kind : Token.Kind}

/-- A token that is no blank is not lengthened by what breaks a name. -/
theorem ends_of_apart (form : kind.Form text) (noBlank : kind ≠ .blank)
    (stop : kind = .name → Breaks other) : kind.Ends text other := by
  cases kind with
  | blank => exact absurd rfl noBlank
  | name => exact ends_of_breaks form (stop rfl)
  | _ => trivial

/-- A token of one character lengthens no token before it. -/
theorem ends_of_single {c : Char} {next : Token.Kind} (form : kind.Form text)
    (h : single? c = some next) (rest : List Char) : kind.Ends text (c :: rest) := by
  cases kind with
  | blank =>
    rintro _ ⟨⟩
    refine Bool.eq_false_iff.mpr fun space => ?_
    cases h.symm.trans (not_single_of_space space)
  | name => exact ends_of_breaks form (breaks_of_single h rest)
  | _ => trivial

theorem length_place (position : Nat) (tokens : List Token) :
    (place position tokens).length = tokens.length := by
  induction tokens generalizing position with
  | nil => rfl
  | cons token tokens ih => exact congrArg Nat.succ (ih _)

/-- The first tokens of a scan are cut off as they are from their concatenated text, if the text after
it does not lengthen the last one. -/
theorem yields_of_prefix {front : List Token} (first : front <+: (ofChars position text).tokens)
    (ends : ∀ token ∈ front.getLast?, token.kind.Ends token.text.toList other) :
    Yields position ((concat front).toList ++ other) front
      (position + (concat front).utf8ByteSize) other := by
  have apart := List.IsChain.prefix (isChain_tokens position text) first
  have yields := yields_place (fun token member => form_of_mem_tokens (first.subset member)) apart
    ends position
  obtain ⟨back, whole⟩ := first
  have placed := place_tokens position text
  rw [← whole, List.append_assoc, place_append] at placed
  rwa [(List.append_inj placed (length_place position front)).1] at yields

/-- A text that is scanned to its end is made of tokens and, after them, of spaces. The last token is
not lengthened by the spaces, nor by a text after them that does not go on with a name. -/
theorem exists_front_spaces (finished : (ofChars position text).ending = .finished)
    (apart : (∀ token ∈ (significant (ofChars position text).tokens).getLast?,
      token.kind ≠ .name) ∨ Breaks other) :
    ∃ front spaces, front <+: (ofChars position text).tokens ∧
      significant front = significant (ofChars position text).tokens ∧
      (∀ c ∈ spaces, isSpace c = true) ∧ text = (concat front).toList ++ spaces ∧
      ∀ token ∈ front.getLast?, token.kind.Ends token.text.toList (spaces ++ other) := by
  have forms : ∀ token ∈ (ofChars position text).tokens, token.kind.Form token.text.toList :=
    fun token member => form_of_mem_tokens member
  have chain := isChain_tokens position text
  have whole := toList_concat_tokens finished
  generalize (ofChars position text).tokens = tokens at apart forms chain whole ⊢
  rcases List.eq_nil_or_concat' tokens with rfl | ⟨front, last, rfl⟩
  · exact ⟨[], [], List.prefix_rfl, rfl, by simp, by simpa using whole.symm, by simp⟩
  · have form := forms last (by simp)
    by_cases blank : last.kind = .blank
    · rw [blank] at form
      refine ⟨front, last.text.toList, ⟨[last], rfl⟩, ?_, form.2, ?_, fun token ending => ?_⟩
      · simp [significant, blank]
      · simp [← whole, concat]
      · have inside : token ∈ front := List.mem_of_getLast? ending
        have apart := (List.isChain_append.mp chain).2.2 token ending last rfl
        exact (ends_iff_not_merges (forms token (by simp [inside])) (forms last (by simp))
          other).mpr apart
    · refine ⟨front ++ [last], [], List.prefix_rfl, rfl, by simp, by simpa using whole.symm, ?_⟩
      rw [List.getLast?_concat]
      rintro _ ⟨⟩
      refine ends_of_apart form blank fun name => apart.resolve_left fun noName => ?_
      exact noName last (by simp [significant, blank]) name

/-- The tokens of two texts one after the other are those of the first and those of the second, up
to blanks and places, if no name at the end of the first goes on in the second. -/
theorem sense_append (finished : (ofChars position text).ending = .finished)
    (apart : (∀ token ∈ (significant (ofChars position text).tokens).getLast?,
      token.kind ≠ .name) ∨ Breaks other) :
    (ofChars position (text ++ other)).sense mode =
      (((ofChars position text).sense mode).1 ++ ((ofChars position other).sense mode).1,
        ((ofChars position other).sense mode).2) := by
  obtain ⟨front, spaces, first, same, all, parts, ends⟩ := exists_front_spaces finished apart
  have yields := yields_of_prefix first ends
  rw [← List.append_assoc, ← parts] at yields
  rw [ofChars_of_yields_append yields, sense_append_tokens, same,
    sense_spaces_append all _ position]
  rfl

end Append

end Scan

/-! ## Texts made of tokens -/

/-- The text is cut to its end into the tokens, up to blanks and places. -/
def MadeOf (text : String) (tokens : List Token) : Prop :=
  (Scan.ofText text).sense .strict = Scan.sense .strict ⟨tokens, .finished, 0⟩

instance (text : String) (tokens : List Token) : Decidable (MadeOf text tokens) :=
  inferInstanceAs (Decidable (_ = _))

section MadeOf

variable {text other : String} {tokens more : List Token} {types : List Ty}

theorem MadeOf.finished (made : MadeOf text tokens) : (Scan.ofText text).ending = .finished :=
  of_decide_eq_true (congrArg Prod.snd made)

/-- A text is made of its own tokens. -/
theorem madeOf_significant (finished : (Scan.ofText text).ending = .finished) :
    MadeOf text (significant (Scan.ofText text).tokens) := by
  simp [MadeOf, Scan.sense, significant, finished]

theorem Spells.madeOf {P : List Token → Prop} (spells : Spells text.toList [] P) :
    ∃ tokens, MadeOf text tokens ∧ P tokens := by
  obtain ⟨tokens, stop, yields, holds⟩ := spells 0
  rw [List.append_nil] at yields
  have scan : Scan.ofText text = ⟨tokens, .finished, stop⟩ := Scan.ofChars_of_yields yields rfl
  refine ⟨significant (Scan.ofText text).tokens, madeOf_significant (by rw [scan]), ?_⟩
  rwa [scan]

/-- Two texts one after the other are made of the tokens of both, if no name at the end of the first
goes on in the second. -/
theorem MadeOf.append (first : MadeOf text tokens) (second : MadeOf other more)
    (apart : (∀ token ∈ (significant tokens).getLast?, token.kind ≠ .name) ∨
      Breaks other.toList) : MadeOf (text ++ other) (tokens ++ more) := by
  have senses : (significant (Scan.ofText text).tokens).map (Token.sense .strict) =
    (significant tokens).map (Token.sense .strict) := congrArg Prod.fst first
  have apart : (∀ token ∈ (significant (Scan.ofText text).tokens).getLast?,
      token.kind ≠ .name) ∨ Breaks other.toList := by
    refine apart.imp_left fun noName token ending name => ?_
    have last := congrArg List.getLast? senses
    rw [List.getLast?_map, List.getLast?_map, ending] at last
    obtain ⟨token', ending', same⟩ := Option.map_eq_some_iff.mp last.symm
    have kinds : token'.kind = token.kind := by
      simpa [Token.sense, Kind.seen_strict] using congrArg Prod.fst same
    exact noName token' ending' (kinds.trans name)
  calc
    (Scan.ofText (text ++ other)).sense .strict
      = (((Scan.ofText text).sense .strict).1 ++ ((Scan.ofText other).sense .strict).1,
          ((Scan.ofText other).sense .strict).2) := by
        rw [Scan.ofText, String.toList_append]
        exact Scan.sense_append first.finished apart
    _ = Scan.sense .strict ⟨tokens ++ more, .finished, 0⟩ := by
        unfold MadeOf at first second
        rw [first, second]
        simp [Scan.sense, significant]

/-- The types that a text stands for are those of the tokens that it is made of. -/
theorem MadeOf.outcome_eq_ok_iff (made : MadeOf text tokens) (rules : Rules) :
    (Reading.ofText rules text).outcome = .ok types ↔
      (Reading.ofTokens rules .finished 0 .start tokens).outcome = .ok types := by
  have same : (Scan.ofText text).sense rules.mode = Scan.sense rules.mode ⟨tokens, .finished, 0⟩ :=
    Scan.sense_of_strict made
  have senses := congrArg Prod.fst same
  show (Reading.ofTokens rules (Scan.ofText text).ending _ .start (Scan.ofText text).tokens).outcome
    = .ok types ↔ _
  rw [made.finished, ← Reading.outcome_significant, ← Reading.outcome_significant tokens]
  exact ⟨Reading.ok_of_sense senses id (.refl _), Reading.ok_of_sense senses.symm id (.refl _)⟩

end MadeOf

/-! ## Texts accepted in strict mode -/

/-- Strict mode reads the text as the types when at most `depth` groups may be open at once. -/
def AcceptedWithin (depth : Nat) (text : String) (types : List Ty) : Prop :=
  (Reading.ofText ⟨.strict, some depth⟩ text).outcome = .ok types

instance (depth : Nat) (text : String) (types : List Ty) :
    Decidable (AcceptedWithin depth text types) :=
  inferInstanceAs (Decidable (_ = _))

theorem Grammar.Derives.ne_nil {depth : Nat} {tokens : List Token} {types : List Ty}
    (list : Grammar.Derives depth tokens types) : types ≠ [] := by
  cases list <;> exact List.cons_ne_nil _ _

mutual

/-- The brackets of a list are nested as deep as its types are. -/
theorem Grammar.Derives.of_wellFormed {depth less : Nat} {tokens : List Token} {types : List Ty} :
    Grammar.Derives depth tokens types → Ty.WellFormedList less types →
      Grammar.Derives less tokens types
  | .single one, .intro _ members => .single (one.of_wellFormed (members _ (by simp)))
  | .more one kind rest, .intro _ members =>
    have later := fun type member => members type (List.mem_cons_of_mem _ member)
    .more (one.of_wellFormed (members _ (by simp))) kind
      (rest.of_wellFormed (.intro rest.ne_nil later))

theorem Grammar.DerivesOne.of_wellFormed {depth less : Nat} {tokens : List Token} {type : Ty} :
    Grammar.DerivesOne depth tokens type → type.WellFormed less →
      Grammar.DerivesOne less tokens type
  | .name kind, _ => .name kind
  | .collection label other opens list closes, .collection _ _ inner =>
    .collection label other opens (list.of_wellFormed inner) closes
  | .shorthand label opens list closes, .hash _ (.intro _ key) (.intro _ value) =>
    have pair := List.forall_mem_append.mpr ⟨key, value⟩
    .shorthand label opens (list.of_wellFormed (.intro (by simp) pair)) closes
  | .tuple label opens list closes, .tuple _ inner =>
    .tuple label opens (list.of_wellFormed inner) closes
  | .hash label opens keyList arrow valueList closes, .hash _ keys values =>
    .hash label opens (keyList.of_wellFormed keys) arrow (valueList.of_wellFormed values) closes

end

/-- Two lists with a separator between them are a list. -/
theorem Grammar.Derives.append {depth : Nat} {front back : List Token} {separator : Token}
    {types more : List Ty} :
    Grammar.Derives depth front types → separator.kind = .separator →
      Grammar.Derives depth back more →
      Grammar.Derives depth (front ++ [separator] ++ back) (types ++ more)
  | .single one, kind, second => .more one kind second
  | .more one kind' rest, kind, second => by
    simpa using Grammar.Derives.more one kind' (rest.append kind second)

section Accepted

variable {depth : Nat} {text other : String} {tokens : List Token} {types more : List Ty}

open Grammar

/-- The grammar decides in strict mode, whatever the limit on nesting. -/
theorem acceptedWithin_of_derives (made : MadeOf text tokens) (list : Derives depth tokens types) :
    AcceptedWithin depth text types := by
  refine (made.outcome_eq_ok_iff _).mpr (list.outcome 0 fun limit member => ?_)
  cases member
  exact Nat.le_refl _

/-- What strict mode accepts are tokens of the grammar, wherever the text stands. -/
theorem AcceptedWithin.derives (accepted : AcceptedWithin depth text types) (position : Nat) :
    (Scan.ofChars position text.toList).ending = .finished ∧
      Derives depth (significant (Scan.ofChars position text.toList).tokens) types := by
  obtain ⟨senses, endings⟩ := Prod.mk.inj (Scan.sense_ofChars 0 position text.toList)
  have read : (Reading.ofTokens ⟨.strict, some depth⟩ (Scan.ofText text).ending
      (Scan.ofText text).stop .start (significant (Scan.ofText text).tokens)).outcome =
        .ok types := by
    rw [Reading.outcome_significant]
    exact accepted
  have moved : (Reading.ofTokens ⟨.strict, some depth⟩ (Scan.ofChars position text.toList).ending
      position .start (significant (Scan.ofChars position text.toList).tokens)).outcome =
        .ok types :=
    Reading.ok_of_sense senses (decide_eq_decide.mp endings).mp (.refl _) read
  have start : Tracks depth [] .start := .intro .outermost .nil .empty
  refine start.derives_of_outcome (fun token member => ?_) moved
  obtain ⟨scanned, visible⟩ := List.mem_filter.mp member
  exact ⟨of_decide_eq_true visible, Scan.kind_ne_finish scanned⟩

theorem AcceptedWithin.exists_madeOf (accepted : AcceptedWithin depth text types) :
    ∃ tokens, MadeOf text tokens ∧ Derives depth tokens types := by
  obtain ⟨finished, list⟩ := accepted.derives 0
  exact ⟨_, madeOf_significant finished, list⟩

/-- What is accepted within a depth is what strict mode accepts as types of this depth. -/
theorem acceptedWithin_iff (within : depth ≤ nestingLimit) : AcceptedWithin depth text types ↔
    parse .strict text = .ok types ∧ Ty.WellFormedList depth types := by
  constructor
  · intro accepted
    obtain ⟨tokens, made, list⟩ := accepted.exists_madeOf
    refine ⟨(made.outcome_eq_ok_iff _).mpr (list.outcome 0 ?_), wellFormedList_of_read accepted⟩
    rintro _ ⟨⟩
    exact within
  · rintro ⟨read, wellFormed⟩
    have accepted : AcceptedWithin nestingLimit text types := read
    obtain ⟨tokens, made, list⟩ := accepted.exists_madeOf
    exact acceptedWithin_of_derives made (list.of_wellFormed wellFormed)

/-- Two accepted texts with a comma and a blank between them are accepted as the list of the types of
both. -/
theorem AcceptedWithin.join (first : AcceptedWithin depth text types)
    (second : AcceptedWithin depth other more) :
    AcceptedWithin depth (text ++ ", " ++ other) (types ++ more) := by
  obtain ⟨front, made, list⟩ := first.exists_madeOf
  obtain ⟨back, made', list'⟩ := second.exists_madeOf
  let comma : Token := ⟨.separator, ",", 0⟩
  have between : MadeOf ", " [comma] := by decide +kernel
  have both := (made.append between (.inr (breaks_of_single rfl _))).append made'
    (.inl (by simp [significant, comma]))
  exact acceptedWithin_of_derives both (list.append rfl list')

/-- Blanks at the ends of an accepted text change nothing. -/
theorem AcceptedWithin.append_space (accepted : AcceptedWithin depth text types) :
    AcceptedWithin depth (text ++ " ") types := by
  obtain ⟨tokens, made, list⟩ := accepted.exists_madeOf
  have spaced : MadeOf (text ++ " ") (tokens ++ []) :=
    made.append (by decide +kernel) (.inr (.cons (by decide) (by decide)))
  exact acceptedWithin_of_derives spaced (by simpa using list)

theorem AcceptedWithin.space_append (accepted : AcceptedWithin depth text types) :
    AcceptedWithin depth (" " ++ text) types := by
  obtain ⟨tokens, made, list⟩ := accepted.exists_madeOf
  have blank : MadeOf " " [] := by decide +kernel
  exact acceptedWithin_of_derives (blank.append made (.inl (by simp [significant]))) list

/-- What is accepted is at least one type. -/
theorem AcceptedWithin.length_pos (accepted : AcceptedWithin depth text types) :
    0 < types.length := by
  obtain ⟨tokens, -, list⟩ := accepted.exists_madeOf
  exact List.length_pos_of_ne_nil list.ne_nil

end Accepted

/-- Texts that strict mode accepts do not run into one another: read as one list, with commas between
them, they stand for the types of the first, then of the second, and so on. -/
theorem parseAll_eq_flatten {texts : List String} {lists : List (List Ty)} (nonempty : texts ≠ [])
    (read : List.Forall₂ (fun text types => parse .strict text = .ok types) texts lists) :
    parseAll texts = .ok lists.flatten := by
  have joined : AcceptedWithin nestingLimit (", ".intercalate texts) lists.flatten := by
    induction read with
    | nil => exact absurd rfl nonempty
    | @cons text types texts lists first rest ih =>
      cases rest with
      | nil =>
        rw [String.intercalate_singleton, List.flatten_singleton]
        exact first
      | cons =>
        rw [String.intercalate_cons_cons]
        exact AcceptedWithin.join first (ih (by simp))
  exact (Grammar.describes_of_parse joined).parse_eq .permissive

/-- Blanks at the ends of texts and semicolons in them. -/
theorem parseAll_eq_flatten_spaced :
    parse .strict " Set<#a> " = .ok [.collection "Set" [.duck "#a"]] ∧
      parse .strict "\t\x7bb => nil\x7d;C" = .ok [.hash "Hash" [.kind "b"] [.literal "nil"], .kind "C"] ∧
      parseAll [" Set<#a> ", "\t\x7bb => nil\x7d;C"] =
        .ok [.collection "Set" [.duck "#a"], .hash "Hash" [.kind "b"] [.literal "nil"], .kind "C"] := by
  have first : parse .strict " Set<#a> " = .ok [.collection "Set" [.duck "#a"]] := by
    decide +kernel
  have second : parse .strict "\t\x7bb => nil\x7d;C" =
      .ok [.hash "Hash" [.kind "b"] [.literal "nil"], .kind "C"] := by
    decide +kernel
  exact ⟨first, second, parseAll_eq_flatten (by simp) (.cons first (.cons second .nil))⟩

-- Texts that only permissive mode accepts may cut off or absorb what follows them.
example : (parseAll ["A>", "B"]).toOption = some [.kind "A"] := by decide +kernel
example : (parseAll ["Set<A", "B"]).toOption = some [.collection "Set" [.kind "A", .kind "B"]] := by
  decide +kernel

end DocTypes
