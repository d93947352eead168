import DocTypes.Record
import DocTypes.Proofs.Positions

/-!
# Tokens tile the text

The tokens of a text lie side by side in it (`Token.Tiles`), up to the place where scanning ends.
There the text ends, or no token of any kind starts (`Token.Kind.starts_iff`). Tokens of two kinds
never start at one place, so it makes no difference in which order the kinds are tried.

A cursor answers with these tokens, one at a call. Then it answers in one way at every further call:
with the end of the text at its full size, or with an error at the character that starts no token
(`Cursor.Stops`). A reader that is given one answer after another comes to the outcome of the
reading, and the tokens that it is given are those that are recorded (`Reading.exists_takes_iff`).

`tokens_tile` puts this together for all texts.
-/

namespace DocTypes

open Reader

/-! ## Where a token starts -/

namespace Token

/-- Some token of the kind stands at the start of the text. -/
def Kind.Starts (kind : Kind) (text : List Char) : Prop :=
  ∃ lexeme, kind.Form lexeme ∧ lexeme <+: text

section Starts

variable {kind : Kind} {text lexeme : List Char}

/-- A run of characters of one class goes on as long as characters of the class follow. -/
theorem forall_mem_append_takeWhile {p : Char → Bool} (all : ∀ c ∈ text, p c = true)
    (rest : List Char) : ∀ c ∈ text ++ rest.takeWhile p, p c = true := by
  intro c member
  rcases List.mem_append.mp member with first | later
  · exact all c first
  · exact List.all_eq_true.mp List.all_takeWhile c later

/-- A token at the start of a text begins one of the same kind that nothing lengthens. -/
theorem Kind.Form.exists_ends (form : kind.Form lexeme) (rest : List Char) :
    ∃ longest after, longest ++ after = lexeme ++ rest ∧ kind.Form longest ∧
      kind.Ends longest after := by
  cases kind with
  | name =>
    rcases form with path | ⟨word, ⟨nonempty, all⟩, rfl⟩
    · have longest := (cutPath_form (lexeme ++ rest)).resolve_left (cutPath_ne_nil path rest)
      exact ⟨_, _, cutPath_append _, .inl longest, .inr ⟨longest, cutPath_rest _⟩⟩
    · have longest : DuckForm ('#' :: (word ++ rest.takeWhile isWord)) :=
        ⟨_, ⟨by simp [nonempty], forall_mem_append_takeWhile all rest⟩, rfl⟩
      refine ⟨_, rest.dropWhile isWord, ?_, .inr longest, .inl ⟨longest, head_dropWhile rest⟩⟩
      simp [List.takeWhile_append_dropWhile]
  | blank =>
    obtain ⟨nonempty, all⟩ := form
    refine ⟨lexeme ++ rest.takeWhile isSpace, rest.dropWhile isSpace, ?_,
      ⟨by simp [nonempty], forall_mem_append_takeWhile all rest⟩, head_dropWhile rest⟩
    simp [List.takeWhile_append_dropWhile]
  | finish => cases form
  | _ => exact ⟨lexeme, rest, rfl, form, trivial⟩

/-- A token of a kind starts a text exactly when the token that is cut off is of this kind. -/
theorem Kind.starts_iff :
    kind.Starts text ↔ ∃ lexeme rest, lexeme? text = some (kind, lexeme, rest) := by
  constructor
  · rintro ⟨lexeme, form, rest, rfl⟩
    obtain ⟨longest, after, parts, form', ends⟩ := form.exists_ends rest
    exact ⟨longest, after, parts ▸ lexeme?_of_form form' ends⟩
  · rintro ⟨lexeme, rest, found⟩
    exact ⟨lexeme, form_of_lexeme? found, rest, append_of_lexeme? found⟩

theorem not_starts_of_lexeme? (none : lexeme? text = none) (kind : Kind) : ¬ kind.Starts text := by
  intro starts
  obtain ⟨lexeme, rest, found⟩ := Kind.starts_iff.mp starts
  cases none.symm.trans found

end Starts

/-- `Tiles text tokens rest`: the tokens lie side by side at the start of the text, and `rest`
follows them.

* `parts`: the texts of the tokens make up what stands in front of the rest.
* `nonempty`: each token has a text.
* `inside`: no token is the end of the input.
* `position`: each token stands where the tokens before it end.
* `boundary`: each token stands between two characters of the text. -/
structure Tiles (text : String) (tokens : List Token) (rest : String) : Prop where
  parts : text = concat tokens ++ rest
  nonempty : ∀ token ∈ tokens, token.text ≠ ""
  inside : ∀ token ∈ tokens, token.kind ≠ .finish
  position : ∀ front token back, tokens = front ++ token :: back →
    token.position = (concat front).utf8ByteSize
  boundary : ∀ token ∈ tokens, String.Pos.Raw.IsValid text ⟨token.position⟩

/-- The tokens other than the end of the input. -/
def inText (tokens : List Token) : List Token :=
  tokens.filter fun token => token.kind ≠ .finish

end Token

namespace Scan

open Token

theorem tiles_tokens {text rest : String} (parts : text = concat (ofText text).tokens ++ rest) :
    Tiles text (ofText text).tokens rest where
  parts := parts
  nonempty := by
    intro token member empty
    have size := utf8ByteSize_pos member
    simp [empty] at size
  inside := fun _ member => kind_ne_finish member
  position := fun _ _ _ whole => position_of_append whole.symm
  boundary := by
    intro token member
    obtain ⟨front, back, whole⟩ := List.append_of_mem member
    obtain ⟨after, parts⟩ := exists_eq_concat_append ⟨token :: back, whole.symm⟩
    rw [String.Pos.Raw.isValid_iff_exists_append, position_of_append whole.symm]
    exact ⟨_, after, parts, rfl⟩

end Scan

/-! ## The answers of a cursor -/

namespace Cursor

/-- `Leaves text position rest`: the byte offset lies between two characters of the text, and `rest`
is what follows it. -/
def Leaves (text : String) (position : Nat) (rest : List Char) : Prop :=
  ∃ front, text = front ++ String.ofList rest ∧ position = front.utf8ByteSize

/-- `Stops text position rest last`: where `rest` is left at the byte offset `position` of the text,
`last` is answered at every call.

* `finished`: nothing is left. The end of the text stands at its full size.
* `invalid`: no token starts with the next character. This is the character that is reported. -/
inductive Stops (text : String) (position : Nat) : String → Except SyntaxError Token → Prop
  | finished : Stops text position "" (.ok (.atEnd text.utf8ByteSize))
  | invalid {c : Char} {tail : List Char} :
      (∀ kind : Token.Kind, ¬ kind.Starts (c :: tail)) →
      Stops text position (String.ofList (c :: tail))
        (.error ⟨.invalidCharacter, position, some c.toString⟩)

section Answers

variable {text : String} {position stop : Nat} {kind : Token.Kind} {left lexeme rest : List Char}
  {tokens : List Token} {cursor : Cursor} {last : Except SyntaxError Token}

theorem leaves_start (text : String) : Leaves text 0 text.toList :=
  ⟨"", by simp, rfl⟩

theorem Leaves.rest_eq (leaves : Leaves text position rest) : (mk text position).rest = rest := by
  obtain ⟨front, rfl, rfl⟩ := leaves
  have inside : String.Pos.Raw.IsValid (front ++ String.ofList rest) ⟨front.utf8ByteSize⟩ :=
    String.Pos.Raw.isValid_iff_exists_append.mpr ⟨front, _, rfl, rfl⟩
  have splits : ((front ++ String.ofList rest).pos ⟨front.utf8ByteSize⟩ inside).Splits front
      (String.ofList rest) := ⟨rfl, String.offset_pos⟩
  rw [Cursor.rest, dif_pos inside, (String.Pos.splits _).eq_right splits, String.toList_ofList]

/-- The cursor takes the token that starts what is left, and moves behind it. -/
theorem Leaves.next_eq (leaves : Leaves text position left)
    (found : Token.lexeme? left = some (kind, lexeme, rest)) :
    (mk text position).next = (.ok ⟨kind, String.ofList lexeme, position⟩,
      ⟨text, position + (String.ofList lexeme).utf8ByteSize⟩) := by
  cases left with
  | nil => cases found
  | cons c tail => simp only [next, leaves.rest_eq, found]

theorem Leaves.after (leaves : Leaves text position left)
    (found : Token.lexeme? left = some (kind, lexeme, rest)) :
    Leaves text (position + (String.ofList lexeme).utf8ByteSize) rest := by
  obtain ⟨front, rfl, rfl⟩ := leaves
  refine ⟨front ++ String.ofList lexeme, ?_, (String.utf8ByteSize_append ..).symm⟩
  rw [← Token.append_of_lexeme? found, String.ofList_append, String.append_assoc]

theorem Leaves.of_yields (leaves : Leaves text position left)
    (yields : Scan.Yields position left tokens stop rest) : Leaves text stop rest := by
  induction yields with
  | nil => exact leaves
  | cons found _ ih => exact ih (leaves.after found)

/-- Where no token starts, the cursor stays. -/
theorem Leaves.exists_stops (leaves : Leaves text position rest)
    (none : Token.lexeme? rest = none) :
    ∃ last, Stops text position (String.ofList rest) last ∧
      (mk text position).next = (last, ⟨text, position⟩) := by
  have left := leaves.rest_eq
  cases rest with
  | nil =>
    obtain ⟨front, parts, rfl⟩ := leaves
    obtain rfl : text = front := by simpa using parts
    exact ⟨_, .finished, by simp only [next, left]⟩
  | cons c tail =>
    exact ⟨_, .invalid (Token.not_starts_of_lexeme? none), by simp only [next, left, none]⟩

theorem answer_of_next (stays : cursor.next = (last, cursor)) (count : Nat) :
    cursor.answer count = last := by
  induction count with
  | zero => rw [answer, stays]
  | succ count ih => rw [answer, stays, ih]

/-- The first answers are the tokens of a part in front of what is left. The others are those of the
cursor behind this part. -/
theorem answer_of_yields (leaves : Leaves text position left)
    (yields : Scan.Yields position left tokens stop rest) (count : Nat) :
    (mk text position).answer count =
      tokens[count]?.elim ((mk text stop).answer (count - tokens.length)) .ok := by
  induction yields generalizing count with
  | nil => rfl
  | cons found _ ih =>
    cases count with
    | zero => rw [answer, leaves.next_eq found]; rfl
    | succ count =>
      rw [answer, leaves.next_eq found, ih (leaves.after found), List.getElem?_cons_succ,
        List.length_cons, Nat.add_sub_add_right]

end Answers

end Cursor

/-! ## The tokens that are read -/

namespace Reading

/-- `Takes rules cursor reader taken outcome`: the reader is given the answers of the cursor one by
one. They are the tokens `taken`, and the outcome is reached with them.

* `stop`: a token stops the reader.
* `more`: the reader goes on after a token.
* `refused`: the cursor answers with an error. -/
inductive Takes (rules : Rules) :
    Cursor → Reader → List Token → Except SyntaxError (List Ty) → Prop
  | stop {cursor after : Cursor} {reader : Reader} {token : Token}
      {outcome : Except SyntaxError (List Ty)} :
      cursor.next = (.ok token, after) → reader.step rules token = .stop outcome →
      Takes rules cursor reader [token] outcome
  | more {cursor after : Cursor} {reader next : Reader} {token : Token} {taken : List Token}
      {outcome : Except SyntaxError (List Ty)} :
      cursor.next = (.ok token, after) → reader.step rules token = .more next →
      Takes rules after next taken outcome → Takes rules cursor reader (token :: taken) outcome
  | refused {cursor after : Cursor} {reader : Reader} {e : SyntaxError} :
      cursor.next = (.error e, after) → Takes rules cursor reader [] (.error e)

section Takes

variable {rules : Rules} {text : String} {position stop : Nat}
  {left rest : List Char} {tokens taken taken' : List Token} {cursor : Cursor} {reader : Reader}
  {types : List Ty} {ending : Scan.Ending} {outcome outcome' : Except SyntaxError (List Ty)}

/-- There is one run of a reader with a cursor. -/
theorem Takes.unique (first : Takes rules cursor reader taken outcome)
    (second : Takes rules cursor reader taken' outcome') :
    taken = taken' ∧ outcome = outcome' := by
  -- Both the cursor's answer and what the reader does with it are functions.
  induction first generalizing taken' outcome' with
  | stop answer stops =>
    cases second with
    | stop answer' stops' =>
      cases answer.symm.trans answer'
      cases stops.symm.trans stops'
      exact ⟨rfl, rfl⟩
    | more answer' more' =>
      cases answer.symm.trans answer'
      cases stops.symm.trans more'
    | refused answer' => cases answer.symm.trans answer'
  | more answer more _ ih =>
    cases second with
    | stop answer' stops' =>
      cases answer.symm.trans answer'
      cases more.symm.trans stops'
    | more answer' more' later =>
      cases answer.symm.trans answer'
      cases more.symm.trans more'
      obtain ⟨rfl, rfl⟩ := ih later
      exact ⟨rfl, rfl⟩
    | refused answer' => cases answer.symm.trans answer'
  | refused answer =>
    cases second with
    | refused answer' =>
      cases answer.symm.trans answer'
      exact ⟨rfl, rfl⟩
    | stop answer' | more answer' => cases answer.symm.trans answer'

/-- The end of the text is given again until the reader stops. -/
theorem exists_takes_drain (stays : cursor.next = (.ok (.atEnd stop), cursor)) (reader : Reader) :
    ∃ ends, Takes rules cursor reader (List.replicate ends (.atEnd stop))
      (reader.drain rules (.atEnd stop)) := by
  refine drain_rec (P := fun reader outcome =>
    ∃ ends, Takes rules cursor reader (List.replicate ends (.atEnd stop)) outcome) ?_ ?_ reader
  · exact fun stops => ⟨1, .stop stays stops⟩
  · rintro reader outer goesOn ⟨ends, takes⟩
    exact ⟨ends + 1, .more stays goesOn takes⟩

/-- A reader that is given the answers of a cursor reads the tokens of what is left. -/
theorem exists_takes_of_yields (rules : Rules) (leaves : Cursor.Leaves text position left)
    (yields : Scan.Yields position left tokens stop rest) (none : Token.lexeme? rest = none)
    (ended : ending = rest.head?.elim .finished .invalid) (reader : Reader) :
    ∃ ends, Takes rules ⟨text, position⟩ reader
      ((ofTokens rules ending stop reader tokens).tokens ++ List.replicate ends (.atEnd stop))
      (ofTokens rules ending stop reader tokens).outcome := by
  induction yields generalizing reader with
  | @nil position rest =>
    have left := leaves.rest_eq
    subst ended
    cases rest with
    | nil => exact exists_takes_drain (by simp only [Cursor.next, left]) reader
    | cons c tail => exact ⟨0, .refused (by simp only [Cursor.next, left, none]; rfl)⟩
  | cons found _ ih =>
    have next := leaves.next_eq found
    cases taken : reader.step rules _ with
    | stop outcome =>
      rw [tokens_of_stop taken, outcome_of_stop taken]
      exact ⟨0, .stop next taken⟩
    | more reader =>
      obtain ⟨ends, takes⟩ := ih (leaves.after found) none ended reader
      rw [tokens_of_more taken, outcome_of_advance (step_eq_more_iff.mp taken)]
      exact ⟨ends, .more next taken takes⟩

/-- A reader that is given the answers of a cursor comes to the outcome of the reading. The tokens
of the reading are those that it is given, except for the end of the text. -/
theorem exists_takes_iff (rules : Rules) (text : String) :
    ∃ taken, (∀ given outcome, Takes rules (.start text) .start given outcome ↔
        given = taken ∧ outcome = (ofText rules text).outcome) ∧
      Token.inText taken = (ofText rules text).tokens := by
  obtain ⟨rest, yields, none, ended⟩ := Scan.exists_yields_tokens 0 text.toList
  obtain ⟨ends, takes⟩ := exists_takes_of_yields rules (Cursor.leaves_start text) yields none
    ended .start
  refine ⟨_, fun given outcome => ⟨fun other => other.unique takes, ?_⟩, ?_⟩
  · rintro ⟨rfl, rfl⟩
    exact takes
  have front : (ofText rules text).tokens <+: (Scan.ofText text).tokens := tokens_prefix .start _
  have inside : ∀ token ∈ (ofText rules text).tokens, token.kind ≠ .finish :=
    fun token member => Scan.kind_ne_finish (front.subset member)
  have kept := List.filter_eq_self.mpr fun token member => decide_eq_true (inside token member)
  rw [Token.inText, List.filter_append, List.filter_replicate_of_neg (by simp [Token.atEnd]),
    List.append_nil]
  exact kept

/-- In strict mode all tokens are read before there are types. -/
theorem tokens_of_strict {nesting : Option Nat} {reader : Reader}
    (inside : ∀ token ∈ tokens, token.kind ≠ .finish)
    (read : (ofTokens ⟨.strict, nesting⟩ ending stop reader tokens).outcome = .ok types) :
    (ofTokens ⟨.strict, nesting⟩ ending stop reader tokens).tokens = tokens ∧
      ending = .finished := by
  induction tokens generalizing reader with
  | nil =>
    cases ending with
    | finished => exact ⟨rfl, rfl⟩
    | invalid c => cases read
  | cons token tokens ih =>
    obtain ⟨first, inside⟩ := List.forall_mem_cons.mp inside
    cases taken : reader.step ⟨.strict, nesting⟩ token with
    | stop outcome =>
      rw [outcome_of_stop taken] at read
      exact absurd (finish_of_strict (read ▸ taken)) first
    | more next =>
      rw [outcome_of_advance (step_eq_more_iff.mp taken)] at read
      obtain ⟨later, finished⟩ := ih inside read
      rw [tokens_of_more taken, later]
      exact ⟨rfl, finished⟩

/-- In strict mode the tokens that are read before there are types make up the text. -/
theorem concat_tokens_of_strict (read : parse .strict text = .ok types) :
    Token.concat (ofText Mode.strict.rules text).tokens = text := by
  obtain ⟨all, finished⟩ := tokens_of_strict (fun _ member => Scan.kind_ne_finish member) read
  exact (congrArg Token.concat all).trans (Scan.concat_tokens finished)

/-- The trace records of a reading are the tokens that it read. -/
theorem filter_records (text : String) (reading : Reading) :
    (reading.records text).filter (·.level = .trace) = reading.tokens.map .token := by
  have tokens : (reading.tokens.map Record.token).filter (·.level = .trace) =
      reading.tokens.map .token := by
    simp [List.filter_map, Function.comp_def, Record.level]
  rw [records, List.filter_append, tokens]
  cases reading.outcome <;> simp [Record.level]

end Takes

end Reading

/-- The tokens of a text tile it up to the place where a cursor stops, and a cursor answers with
them in order. What it answers there it answers for ever. A reading is given such answers, and it
records the tokens among them that stand in the text. If it comes to types in strict mode, these make
up the whole text. -/
theorem tokens_tile (mode : Mode) (text : String) :
    ∃ rest last, Token.Tiles text (Scan.ofText text).tokens rest ∧
      Cursor.Stops text (Token.concat (Scan.ofText text).tokens).utf8ByteSize rest last ∧
      (∀ count, (Cursor.start text).answer count =
        (Scan.ofText text).tokens[count]?.elim last .ok) ∧
      ∃ taken, (∀ given outcome, Reading.Takes mode.rules (.start text) .start given outcome ↔
          given = taken ∧ outcome = parse mode text) ∧
        ((Reading.ofText mode.rules text).records text).filter (·.level = .trace) =
          (Token.inText taken).map .token ∧
        (mode = .strict → ∀ types, parse mode text = .ok types →
          Token.concat (Token.inText taken) = text) := by
  obtain ⟨rest, yields, none, -⟩ := Scan.exists_yields_tokens 0 text.toList
  have leaves := (Cursor.leaves_start text).of_yields yields
  obtain ⟨last, stops, stays⟩ := leaves.exists_stops none
  have parts : text = Token.concat (Scan.ofText text).tokens ++ String.ofList rest := by
    rw [← String.toList_inj, String.toList_append, String.toList_ofList]
    exact (Scan.concat_append_of_yields yields).symm
  have stop : (Scan.ofText text).stop = (Token.concat (Scan.ofText text).tokens).utf8ByteSize :=
    Scan.position_of_tokens text _ [] rfl
  obtain ⟨taken, takes, inText⟩ := Reading.exists_takes_iff mode.rules text
  refine ⟨_, last, Scan.tiles_tokens parts, stop ▸ stops, fun count => ?_, taken, takes, ?_, ?_⟩
  · rw [← Cursor.answer_of_next stays (count - (Scan.ofText text).tokens.length)]
    exact Cursor.answer_of_yields (Cursor.leaves_start text) yields count
  · rw [Reading.filter_records, inText]
  · rintro rfl types read
    rw [inText]
    exact Reading.concat_tokens_of_strict read

end DocTypes
