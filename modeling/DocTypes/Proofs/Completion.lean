import DocTypes.Proofs.Positions
import DocTypes.Proofs.Repair

/-!
# Completing what is read before an error

An error is reported at a byte offset up to which all is well: the tokens before it are read, and
others can follow them so that the whole is accepted (`viable_before_error`). The one exception is a
collection named as a hash in which two alternatives are finished. It is refused only when it ends,
so an error within it may come when nothing can help any more (`Reader.hasRoom_iff`).

`Reader.completion` are the tokens that may follow: a name where a type is missing, then for each
open group its `Group.rest`, which is the closer, and a value for a hash that has none. They lead a
reader that has room for them to types (`Reader.reads_completion`), and as text they do not merge
with what is before them (`Reader.isChain_completion`).
-/

namespace DocTypes

open Reader

/-! ## The rest of the open groups -/

/-- A name that may stand wherever a type is missing. -/
def Token.someName : Token := ⟨.name, "A", 0⟩

/-- A comma. -/
def Token.comma : Token := ⟨.separator, ",", 0⟩

/-- The closer of the kind. -/
def Token.Kind.written (closer : Kind) : Token :=
  mend closer (.atEnd 0)

/-- A token that merges with no other: it has the form of its kind, and is neither a blank nor a
name. -/
def Token.Firm (token : Token) : Prop :=
  token.kind.Form token.text.toList ∧ token.kind ≠ .blank ∧ token.kind ≠ .name

theorem Token.Firm.not_merges {token other : Token} (firm : token.Firm) : ¬ Merges token other :=
  fun merges => merges.kinds.1.elim firm.2.1 firm.2.2

theorem Token.Firm.merges_not {token other : Token} (firm : token.Firm) : ¬ Merges other token :=
  fun merges => merges.kinds.2.elim firm.2.1 firm.2.2

namespace Reader

/-- The tokens that end a group in whose list `count` alternatives are finished and one more has
begun. A hash needs values after its keys, and a collection named as a hash a value after its
key. -/
def Group.rest (count : Nat) : Group → List Token
  | .collection name =>
    if name = Ty.defaultHash ∧ count = 0 then
      [.comma, .someName, Token.Kind.collectionEnd.written]
    else
      [Token.Kind.collectionEnd.written]
  | .tuple _ => [Token.Kind.tupleEnd.written]
  | .hashKeys _ => [Token.Kind.hashArrow.written, .someName, Token.Kind.hashEnd.written]
  | .hashValues _ _ => [Token.Kind.hashEnd.written]

/-- The groups of the frames, innermost first, each with the number of alternatives finished in its
list. There are `count` of them in the innermost list. -/
def Frame.groups : Nat → List Frame → List (Group × Nat)
  | _, [] => []
  | count, frame :: frames => (frame.group, count) :: groups frame.types.length frames

/-- The open groups, innermost first, each with the number of alternatives finished in its list,
which is that of the separators read there. -/
def openGroups (reader : Reader) : List (Group × Nat) :=
  Frame.groups reader.types.length reader.frames

/-- No collection named as a hash is open that has more than a key and the beginning of a value. -/
def HasRoom (reader : Reader) : Prop :=
  ∀ inside ∈ reader.openGroups, inside.1 = .collection Ty.defaultHash → inside.2 < 2

instance (reader : Reader) : Decidable reader.HasRoom :=
  inferInstanceAs (Decidable (∀ inside ∈ _, _))

/-- The tokens that end the groups one after another. -/
def endings (groups : List (Group × Nat)) : List Token :=
  groups.flatMap fun inside => inside.1.rest inside.2

/-- The tokens that complete what is read so far. -/
def completion (reader : Reader) : List Token :=
  match reader.slot with
  | .empty => .someName :: endings reader.openGroups
  | _ => endings reader.openGroups

section Completion

variable {rules : Rules} {reader : Reader} {slot : Slot} {type : Ty} {types : List Ty}
  {frame : Frame} {frames : List Frame} {count : Nat} {token : Token} {tokens : List Token}
  {groups : List (Group × Nat)}

/-- Its own closer ends a group. -/
theorem reads_written {outer : Reader} (stands : slot.type? = some type)
    (closes : Closes frame (types ++ [type]) frames outer) :
    Reads rules ⟨types, slot, frame :: frames⟩ [frame.group.closer.written] outer :=
  .single (.mend stands rfl closes _)

/-- The rest of a group makes a composite of it. -/
theorem reads_rest (stands : slot.type? = some type) {before : List Ty} {opener : Token}
    {group : Group} (room : group = .collection Ty.defaultHash → types.length < 2) :
    ∃ name composite, Reads rules ⟨types, slot, ⟨before, opener, group⟩ :: frames⟩
      (group.rest types.length) ⟨before, .composite name composite, frames⟩ := by
  have value (types : List Ty) (frames : List Frame) :
      Advance rules ⟨types, .empty, frames⟩ .someName ⟨types, .name "A", frames⟩ := .name rfl rfl
  cases group with
  | collection name =>
    by_cases hash : name = Ty.defaultHash
    · subst hash
      match types, room rfl with
      | [], _ =>
        exact ⟨_, _, .cons (.separator rfl stands)
          (.cons (value _ _) (reads_written rfl (.shorthand rfl rfl)))⟩
      | [key], _ => exact ⟨_, _, reads_written stands (.shorthand rfl rfl)⟩
    · rw [Group.rest, if_neg fun h => hash h.1]
      exact ⟨_, _, reads_written stands (.collection rfl hash)⟩
  | tuple name => exact ⟨_, _, reads_written stands (.tuple rfl)⟩
  | hashKeys name =>
    exact ⟨_, _, (reads_written stands (.keys rfl)).append
      (.cons (value _ _) (reads_written rfl (.values rfl)))⟩
  | hashValues name keys => exact ⟨_, _, reads_written stands (.values rfl)⟩

/-- The rest of all open groups makes a list of types of what is read so far. -/
theorem reads_endings (stands : slot.type? = some type)
    (room : HasRoom ⟨types, slot, frames⟩) :
    ∃ last answer, Reads rules ⟨types, slot, frames⟩ (endings (Frame.groups types.length frames))
      last ∧ last.Finishes answer := by
  induction frames generalizing types slot type with
  | nil => exact ⟨_, _, .nil, rfl, type, stands, rfl⟩
  | cons frame frames ih =>
    obtain ⟨inner, around⟩ := List.forall_mem_cons.mp room
    obtain ⟨name, composite, first⟩ : ∃ name composite,
        Reads rules ⟨types, slot, frame :: frames⟩ (frame.group.rest types.length)
          ⟨frame.types, .composite name composite, frames⟩ := reads_rest stands inner
    have stands : (Slot.composite name composite).type? = some composite := rfl
    obtain ⟨last, answer, later, finishes⟩ := ih stands around
    exact ⟨last, answer, first.append later, finishes⟩

/-- The completion of a reader leads it to a list of types. -/
theorem reads_completion (room : reader.HasRoom) :
    ∃ last answer, Reads rules reader reader.completion last ∧ last.Finishes answer := by
  obtain ⟨types, slot, frames⟩ := reader
  cases slot with
  | empty =>
    have stands : (Slot.name "A").type? = some (.ofName "A") := rfl
    obtain ⟨last, answer, reads, finishes⟩ := reads_endings stands room
    exact ⟨last, answer, .cons (.name rfl rfl) reads, finishes⟩
  | name => exact reads_endings rfl room
  | composite => exact reads_endings rfl room

/-! A reader without room never comes to types. -/

theorem Closes.hasRoom {next : Reader} (closes : Closes frame (types ++ [type]) frames next)
    (room : next.HasRoom) : HasRoom ⟨types, slot, frame :: frames⟩ := by
  refine List.forall_mem_cons.mpr ⟨fun hash => ?_, ?_⟩
  · -- Only as a pair does the list of a collection named as a hash end it.
    cases closes with
    | collection group other =>
      cases group.symm.trans hash
      exact absurd rfl other
    | shorthand group pair =>
      have two := congrArg List.length pair
      simp only [List.length_append, List.length_cons, List.length_nil] at two
      show types.length < 2
      omega
    | tuple group => cases group.symm.trans hash
    | keys group => cases group.symm.trans hash
    | values group => cases group.symm.trans hash
  · cases closes with
    | keys => exact (List.forall_mem_cons.mp room).2
    | _ => exact room

/-- What has room after a token had room before it. -/
theorem Advance.hasRoom {next : Reader} (advance : Advance rules reader token next)
    (room : next.HasRoom) : reader.HasRoom := by
  obtain ⟨types, slot, frames⟩ := reader
  cases advance with
  | blank => exact room
  | name => exact room
  | @separator type =>
    cases frames with
    | nil => exact room
    | cons frame frames =>
      obtain ⟨inner, around⟩ := List.forall_mem_cons.mp room
      refine List.forall_mem_cons.mpr ⟨fun hash => ?_, around⟩
      have more : (types ++ [type]).length < 2 := inner hash
      rw [List.length_append] at more
      exact Nat.lt_of_le_of_lt (Nat.le_add_right _ _) more
  | opener => exact (List.forall_mem_cons.mp room).2
  | @terminator _ frame outer _ _ _ _ inner closes =>
    obtain rfl : frames = frame :: outer := inner
    exact closes.hasRoom room

/-- Exactly the readers that have room can be led to types. -/
theorem hasRoom_iff : reader.HasRoom ↔
    ∃ tokens last answer, Reads rules reader tokens last ∧ last.Finishes answer := by
  constructor
  · exact fun room => ⟨_, reads_completion room⟩
  · rintro ⟨tokens, last, answer, reads, outermost, -⟩
    induction reads with
    | nil =>
      intro inside member
      rw [openGroups, outermost] at member
      cases member
    | cons advance _ ih => exact advance.hasRoom (ih outermost)

/-! ## The completion as text -/

theorem firm_written {closer : Token.Kind} (isCloser : closer.IsCloser) : closer.written.Firm :=
  have other {kind : Token.Kind} (noEnd : kind.isTerminator = false) : closer ≠ kind :=
    fun eq => by cases (eq ▸ isCloser.1).symm.trans noEnd
  ⟨isCloser.form, other rfl, other rfl⟩

/-- The rest of a group ends with a token that merges with no other. Before it there may be one
name, after another such token. -/
theorem rest_cases (group : Group) (count : Nat) :
    ∃ closer, closer.Firm ∧ (group.rest count = [closer] ∨
      ∃ first, first.Firm ∧ group.rest count = [first, .someName, closer]) := by
  cases group with
  | collection name =>
    refine ⟨Token.Kind.collectionEnd.written, firm_written ⟨rfl, by decide⟩, ?_⟩
    by_cases short : name = Ty.defaultHash ∧ count = 0
    · exact .inr ⟨.comma, ⟨.inl rfl, by decide, by decide⟩, if_pos short⟩
    · exact .inl (if_neg short)
  | tuple => exact ⟨_, firm_written ⟨rfl, by decide⟩, .inl rfl⟩
  | hashKeys =>
    exact ⟨_, firm_written ⟨rfl, by decide⟩, .inr ⟨_, firm_written ⟨rfl, by decide⟩, rfl⟩⟩
  | hashValues => exact ⟨_, firm_written ⟨rfl, by decide⟩, .inl rfl⟩

theorem form_someName : Token.someName.kind.Form Token.someName.text.toList := by
  have found : Token.lexeme? ['A'] = some (.name, ['A'], []) := by decide
  exact Token.form_of_lexeme? found

theorem form_completion : ∀ token ∈ reader.completion, token.kind.Form token.text.toList := by
  have forms (groups : List (Group × Nat)) :
      ∀ token ∈ endings groups, token.kind.Form token.text.toList := by
    intro token member
    obtain ⟨inside, -, member⟩ := List.mem_flatMap.mp member
    obtain ⟨closer, firm, eq | ⟨first, firm', eq⟩⟩ := rest_cases inside.1 inside.2
    · rw [eq] at member
      exact List.mem_singleton.mp member ▸ firm.1
    · rw [eq] at member
      simp only [List.mem_cons, List.not_mem_nil, or_false] at member
      rcases member with rfl | rfl | rfl
      · exact firm'.1
      · exact form_someName
      · exact firm.1
  unfold completion
  split
  · exact List.forall_mem_cons.mpr ⟨form_someName, forms _⟩
  · exact forms _

/-- The tokens that end groups do not merge, and nothing before them merges with the first one. -/
theorem isChain_endings (groups : List (Group × Nat)) :
    (endings groups).IsChain (fun first second => ¬ Token.Merges first second) ∧
      ∀ before, ∀ token ∈ (endings groups).head?, ¬ Token.Merges before token := by
  induction groups with
  | nil => exact ⟨.nil, fun _ _ none => by cases none⟩
  | cons inside groups ih =>
    have first : endings (inside :: groups) = inside.1.rest inside.2 ++ endings groups := rfl
    rw [first]
    obtain ⟨closer, firm, eq | ⟨opening, firm', eq⟩⟩ := rest_cases inside.1 inside.2
    · rw [eq]
      refine ⟨ih.1.cons fun _ _ => firm.not_merges, ?_⟩
      rintro before _ ⟨⟩
      exact firm.merges_not
    · rw [eq]
      refine ⟨((ih.1.cons fun _ _ => firm.not_merges).cons_cons firm.merges_not).cons_cons
        firm'.not_merges, ?_⟩
      rintro before _ ⟨⟩
      exact firm'.merges_not

theorem Advance.slot_of_name {next : Reader} (advance : Advance rules reader token next)
    (name : token.kind = .name) : next.slot = .name token.text := by
  have taken := step_eq_more_iff.mpr advance
  simp only [step, name] at taken
  obtain ⟨-, rfl⟩ := takeName_eq_more_iff.mp taken
  rfl

/-- Where a type is missing, no name has just been read. -/
theorem Reads.kind_ne_name {last : Reader} (reads : Reads rules reader tokens last)
    (empty : last.slot = .empty) : ∀ token ∈ tokens.getLast?, token.kind ≠ .name := by
  induction reads with
  | nil => exact fun _ none => by cases none
  | cons advance reads ih =>
    intro before last
    cases reads with
    | nil =>
      obtain rfl := Option.some.inj last
      exact fun name => by cases empty.symm.trans (advance.slot_of_name name)
    | cons => exact ih empty before (by simpa using last)

/-- The tokens of a completion do not merge with what they complete. -/
theorem isChain_completion {initial : Reader} (reads : Reads rules initial tokens reader)
    (apart : tokens.IsChain fun first second => ¬ Token.Merges first second) :
    (tokens ++ reader.completion).IsChain fun first second => ¬ Token.Merges first second := by
  obtain ⟨chain, head⟩ := isChain_endings reader.openGroups
  unfold completion
  split
  · next empty =>
    refine apart.append (chain.cons (head _)) ?_
    rintro before last _ ⟨⟩ merges
    have noName := reads.kind_ne_name empty before last
    cases merges with
    | blanks _ kind => cases kind
    | word kind => exact noName kind
    | colons kind => exact noName kind
  · exact apart.append chain fun before _ => head before

end Completion

/-! ## What is read before an error -/

/-- The reader after the tokens. If one stops it, the reader before that one. -/
def after (rules : Rules) (reader : Reader) : List Token → Reader
  | [] => reader
  | token :: tokens =>
    match reader.step rules token with
    | .more next => next.after rules tokens
    | .stop _ => reader

theorem Reads.after_eq {rules : Rules} {reader last : Reader} {tokens : List Token}
    (reads : Reads rules reader tokens last) : reader.after rules tokens = last := by
  induction reads with
  | nil => rfl
  | cons advance _ ih =>
    rw [after, step_eq_more_iff.mpr advance]
    exact ih

/-- The reader that stands before the byte offset `position` of a text. -/
def before (mode : Mode) (text : String) (position : Nat) : Reader :=
  start.after mode.rules ((Scan.ofText text).before position)

end Reader

/-- What is read from the start of a text, followed by the completion, is accepted. -/
theorem parse_completion {mode : Mode} {text : String} {front : List Token} {last : Reader}
    (first : front <+: (Scan.ofText text).tokens) (reads : Reads mode.rules .start front last)
    (room : last.HasRoom) :
    ∃ types, parse mode (Token.concat front ++ Token.concat last.completion) = .ok types := by
  obtain ⟨complete, types, reads', finishes⟩ := reads_completion room
  have forms : ∀ token ∈ front ++ last.completion, token.kind.Form token.text.toList :=
    List.forall_mem_append.mpr
      ⟨fun token member => Scan.form_of_mem_tokens (first.subset member), form_completion⟩
  have apart : front.IsChain fun first second => ¬ Token.Merges first second :=
    List.IsChain.prefix (Scan.isChain_tokens 0 text.toList) first
  refine ⟨types, ?_⟩
  rw [← Token.concat_append]
  exact parse_concat forms (isChain_completion reads apart) (reads.append reads') finishes.step

/-- An error is reported at the end of what is well so far. The tokens before its place are read,
and the text up to there can be completed to one that is accepted, unless a collection named as a
hash is open there that holds too many types already. -/
theorem viable_before_error {mode : Mode} {text : String} {e : SyntaxError}
    (failed : parse mode text = .error e) :
    Reads mode.rules .start ((Scan.ofText text).before e.position)
        (Reader.before mode text e.position) ∧
      ((Reader.before mode text e.position).HasRoom →
        ∃ front back, text = front ++ back ∧ front.utf8ByteSize = e.position ∧
          ∃ rest types, parse mode (front ++ rest) = .ok types) := by
  obtain ⟨front, last, first, reads, position⟩ := position_of_parse_error failed
  have tokens : (Scan.ofText text).before e.position = front := by
    rw [position, Scan.before_concat first]
  have reader : Reader.before mode text e.position = last := by
    rw [Reader.before, tokens, reads.after_eq]
  rw [tokens, reader]
  refine ⟨reads, fun room => ?_⟩
  obtain ⟨rest, parts⟩ := Scan.exists_eq_concat_append first
  exact ⟨_, rest, parts, position.symm, _, parse_completion first reads room⟩

/-- A tuple is open where a collection named as a hash has its value. -/
theorem viable_before_error_nested :
    parse .strict "Hash<K, (A b" = .error ⟨.unexpectedName, 11, some "b"⟩ ∧
      ∃ front back, "Hash<K, (A b" = front ++ back ∧ front.utf8ByteSize = 11 ∧
        ∃ rest types, parse .strict (front ++ rest) = .ok types := by
  have failed : parse .strict "Hash<K, (A b" = .error ⟨.unexpectedName, 11, some "b"⟩ := by
    decide +kernel
  exact ⟨failed, (viable_before_error failed).2 (by decide +kernel)⟩

end DocTypes
