import DocTypes.Proofs.Alike
import DocTypes.Proofs.Modes

/-!
# Repaired brackets

Permissive mode lets any terminator end the innermost group, and the end of the input end all groups
that are open. `Token.repair` writes the own closer of each group where it was ended, and drops what
ended the list outside all groups. Where no composite is replaced by a second group, the repaired
tokens are read in strict mode by the same readers (`Reader.reads_repaired`). So permissive mode
reads what strict mode reads in the repaired text, and what follows the last terminator plays no
part (`parse_strict_repaired`).
-/

namespace DocTypes

open Reader

namespace Token

namespace Kind

/-- The closer of the list that an opening bracket of the kind begins. The first list of a hash ends
at an arrow. -/
def closer? : Kind → Option Kind
  | collectionStart => some collectionEnd
  | tupleStart => some tupleEnd
  | hashStart => some hashArrow
  | _ => none

/-- The text of a closer. -/
def spelling : Kind → String
  | collectionEnd => ">"
  | tupleEnd => ")"
  | hashArrow => "=>"
  | hashEnd => "\x7d"
  | _ => ""

/-- The closers that are due when a list that was to be ended by `closer` is complete, and `due` are
those of the groups around it. The values of a hash follow its keys. -/
def dueAfter (closer : Kind) (due : List Kind) : List Kind :=
  if closer = hashArrow then hashEnd :: due else due

end Kind

/-- The closer of the kind in the place of a token. -/
def mend (closer : Kind) (token : Token) : Token :=
  ⟨closer, closer.spelling, token.position⟩

/-- Gives each group its own closer. The closers in `due` are those of the open groups, innermost
first.

* A terminator within a group is replaced by the closer of the group.
* A terminator outside all groups is dropped, with all that follows.
* The groups that are open at the end, which is at `stop`, are closed there. -/
def repair (stop : Nat) : List Kind → List Token → List Token
  | due, [] => due.map (mend · (atEnd stop))
  | due, token :: tokens =>
    match token.kind.closer? with
    | some closer => token :: repair stop (closer :: due) tokens
    | none =>
      if token.kind.isTerminator then
        match due with
        | [] => []
        | closer :: due => mend closer token :: repair stop (closer.dueAfter due) tokens
      else
        token :: repair stop due tokens

section Equations

variable {stop : Nat} {closer : Kind} {due : List Kind} {token : Token} {tokens : List Token}

theorem Kind.closer?_of_isTerminator {kind : Kind} (ends : kind.isTerminator = true) :
    kind.closer? = none := by
  cases kind <;> first | rfl | cases ends

theorem repair_of_opener (opens : token.kind.closer? = some closer) :
    repair stop due (token :: tokens) = token :: repair stop (closer :: due) tokens := by
  simp only [repair, opens]

theorem repair_of_terminator (ends : token.kind.isTerminator = true) :
    repair stop (closer :: due) (token :: tokens) =
      mend closer token :: repair stop (closer.dueAfter due) tokens := by
  simp only [repair, Kind.closer?_of_isTerminator ends, if_pos ends]

theorem repair_of_outermost (ends : token.kind.isTerminator = true) :
    repair stop [] (token :: tokens) = [] := by
  simp only [repair, Kind.closer?_of_isTerminator ends, if_pos ends]

theorem repair_of_other (opens : token.kind.closer? = none)
    (ends : token.kind.isTerminator = false) :
    repair stop due (token :: tokens) = token :: repair stop due tokens := by
  simp [repair, opens, ends]

/-- A kind of closer: a terminator other than the end of the input. -/
def Kind.IsCloser (kind : Kind) : Prop :=
  kind.isTerminator = true ∧ kind ≠ .finish

theorem Kind.isCloser_of_closer? {kind : Kind} (opens : kind.closer? = some closer) :
    closer.IsCloser := by
  cases kind <;> cases opens <;> exact ⟨rfl, by decide⟩

theorem Kind.isCloser_dueAfter (closers : ∀ kind ∈ due, kind.IsCloser) :
    ∀ kind ∈ closer.dueAfter due, kind.IsCloser := by
  unfold dueAfter
  split
  · exact List.forall_mem_cons.mpr ⟨⟨rfl, by decide⟩, closers⟩
  · exact closers

theorem Kind.IsCloser.form (h : closer.IsCloser) : closer.Form closer.spelling.toList := by
  obtain ⟨ends, noEnd⟩ := h
  cases closer with
  | finish => exact absurd rfl noEnd
  | collectionEnd | tupleEnd | hashArrow | hashEnd => rfl
  | _ => cases ends

/-- A repaired token is a token that was there or a closer. -/
theorem mem_repair (closers : ∀ kind ∈ due, kind.IsCloser) (member : token ∈ repair stop due tokens) :
    token ∈ tokens ∨ ∃ closer old, Kind.IsCloser closer ∧ token = mend closer old := by
  fun_induction repair stop due tokens with
  | case1 due =>
    obtain ⟨closer, isDue, rfl⟩ := List.mem_map.mp member
    exact .inr ⟨closer, _, closers closer isDue, rfl⟩
  | case2 due first tokens closer opens ih =>
    have inside := List.forall_mem_cons.mpr ⟨Kind.isCloser_of_closer? opens, closers⟩
    rcases List.mem_cons.mp member with rfl | later
    · exact .inl (by simp)
    · exact (ih inside later).imp_left (List.mem_cons_of_mem first)
  | case3 => cases member
  | case4 first tokens opens ends closer due ih =>
    rcases List.mem_cons.mp member with rfl | later
    · exact .inr ⟨closer, first, closers closer (by simp), rfl⟩
    · have around := fun kind isDue => closers kind (List.mem_cons_of_mem closer isDue)
      exact (ih (Kind.isCloser_dueAfter around) later).imp_left (List.mem_cons_of_mem first)
  | case5 due first tokens opens ends ih =>
    rcases List.mem_cons.mp member with rfl | later
    · exact .inl (by simp)
    · exact (ih closers later).imp_left (List.mem_cons_of_mem first)

theorem not_merges_of_isTerminator {first second : Token}
    (h : first.kind.isTerminator = true ∨ second.kind.isTerminator = true) :
    ¬ Merges first second := by
  intro merges
  rcases merges.kinds with ⟨kind | kind, kind' | kind'⟩
  all_goals
    rw [kind, kind'] at h
    simp [Kind.isTerminator] at h

/-- The first repaired token is the token that was there or a closer. -/
theorem head_repair (closers : ∀ kind ∈ due, kind.IsCloser)
    (head : token ∈ (repair stop due tokens).head?) :
    token ∈ tokens.head? ∨ token.kind.isTerminator = true := by
  fun_induction repair stop due tokens with
  | case1 due =>
    cases due with
    | nil => cases head
    | cons closer due =>
      cases head
      exact .inr (closers closer (by simp)).1
  | case2 => exact .inl head
  | case3 => cases head
  | case4 first tokens opens ends closer due =>
    cases head
    exact .inr (closers closer (by simp)).1
  | case5 => exact .inl head

theorem isChain_closers (closers : ∀ kind ∈ due, kind.IsCloser) (token : Token) :
    (due.map (mend · token)).IsChain fun first second => ¬ Merges first second := by
  induction due with
  | nil => exact .nil
  | cons closer due ih =>
    obtain ⟨isCloser, around⟩ := List.forall_mem_cons.mp closers
    exact List.isChain_cons.mpr
      ⟨fun _ _ => not_merges_of_isTerminator (.inl isCloser.1), ih around⟩

/-- Repaired tokens do not merge if the tokens did not. -/
theorem isChain_repair (closers : ∀ kind ∈ due, kind.IsCloser)
    (apart : tokens.IsChain fun first second => ¬ Merges first second) :
    (repair stop due tokens).IsChain fun first second => ¬ Merges first second := by
  have kept {first : Token} {rest : List Token} {due : List Kind}
      (closers : ∀ kind ∈ due, kind.IsCloser)
      (next : ∀ second ∈ rest.head?, ¬ Merges first second) :
      ∀ second ∈ (repair stop due rest).head?, ¬ Merges first second := fun second head =>
    (head_repair closers head).elim (next second) fun ends =>
      not_merges_of_isTerminator (.inr ends)
  fun_induction repair stop due tokens with
  | case1 due => exact isChain_closers closers _
  | case2 due first tokens closer opens ih =>
    have inside := List.forall_mem_cons.mpr ⟨Kind.isCloser_of_closer? opens, closers⟩
    obtain ⟨next, apart⟩ := List.isChain_cons.mp apart
    exact List.isChain_cons.mpr ⟨kept inside next, ih inside apart⟩
  | case3 => exact .nil
  | case4 first tokens opens ends closer due ih =>
    have around := fun kind isDue => closers kind (List.mem_cons_of_mem closer isDue)
    refine List.isChain_cons.mpr ⟨fun second _ => ?_,
      ih (Kind.isCloser_dueAfter around) (List.isChain_cons.mp apart).2⟩
    exact not_merges_of_isTerminator (.inl (closers closer (by simp)).1)
  | case5 due first tokens opens ends ih =>
    obtain ⟨next, apart⟩ := List.isChain_cons.mp apart
    exact List.isChain_cons.mpr ⟨kept closers next, ih closers apart⟩

end Equations

end Token

namespace Reader

/-- While the tokens are read, a group is opened after a composite. -/
def opensAgain (rules : Rules) : Reader → List Token → Bool
  | _, [] => false
  | reader, token :: tokens =>
    (token.kind.closer?.isSome && reader.slot.isComposite) ||
      match reader.step rules token with
      | .more next => next.opensAgain rules tokens
      | .stop _ => false

/-- The closers of the open groups, innermost first. -/
def due (reader : Reader) : List Token.Kind :=
  reader.frames.map fun frame => frame.group.closer

section Repair

variable {nesting : Option Nat} {reader next : Reader} {token : Token} {frame : Frame}
  {frames : List Frame} {types : List Ty} {stop : Nat}

theorem isTerminator_closer (group : Group) : group.closer.isTerminator = true := by
  cases group <;> rfl

theorem closer_of_opened? {name : Option String} {kind : Token.Kind} {group : Group}
    (opens : Group.opened? name kind = some group) : kind.closer? = some group.closer := by
  cases kind <;> cases opens <;> rfl

theorem due_of_frames (inner : reader.frames = frame :: frames) :
    reader.due = frame.group.closer :: frames.map fun frame => frame.group.closer := by
  rw [due, inner, List.map_cons]

/-- A list that is complete leaves the closers of what is around it to be written. -/
theorem Closes.due (closes : Closes frame types frames next) :
    next.due = frame.group.closer.dueAfter (frames.map fun frame => frame.group.closer) := by
  cases closes with
  | collection group => rw [group]; rfl
  | shorthand group => rw [group]; rfl
  | tuple group => rw [group]; rfl
  | keys group => rw [group]; rfl
  | values group => rw [group]; rfl

/-- The closers of what is around a complete list are all that is due, or a list has begun that is
empty. -/
theorem Closes.due_eq_or_empty (closes : Closes frame types frames next) :
    next.due = frames.map (fun frame => frame.group.closer) ∨ next.slot.type? = none := by
  cases closes with
  | keys => exact .inr rfl
  | _ => exact .inl rfl

/-- Its own closer ends a group in either mode. -/
theorem Advance.mend {rules : Rules} {type : Ty} (stands : reader.slot.type? = some type)
    (inner : reader.frames = frame :: frames)
    (closes : Closes frame (reader.types ++ [type]) frames next) (token : Token) :
    Advance rules reader (token.mend frame.group.closer) next :=
  .terminator (isTerminator_closer frame.group) stands
    (fun _ => (closer_of_frame inner).symm) inner closes

/-- What a token does in permissive mode, its repaired form does in strict mode, unless it opens a
group after a composite. -/
theorem Advance.repair (advance : Advance ⟨.permissive, nesting⟩ reader token next)
    (once : token.kind.closer?.isSome = true → reader.slot.isComposite = false)
    (tokens : List Token) :
    ∃ mended, Advance ⟨.strict, nesting⟩ reader mended next ∧
      Token.repair stop reader.due (token :: tokens) =
        mended :: Token.repair stop next.due tokens := by
  cases advance with
  | blank kind =>
    exact ⟨token, .blank kind, Token.repair_of_other (by rw [kind]; rfl) (by rw [kind]; rfl)⟩
  | name kind empty =>
    exact ⟨token, .name kind empty, Token.repair_of_other (by rw [kind]; rfl) (by rw [kind]; rfl)⟩
  | separator kind stands =>
    exact ⟨token, .separator kind stands,
      Token.repair_of_other (by rw [kind]; rfl) (by rw [kind]; rfl)⟩
  | opener opens first room =>
    have closer := closer_of_opened? opens
    have single := once (by rw [closer]; rfl)
    exact ⟨token, .opener opens (fun _ => single) room, Token.repair_of_opener closer⟩
  | terminator ends stands right inner closes =>
    refine ⟨_, .mend stands inner closes token, ?_⟩
    rw [due_of_frames inner, Token.repair_of_terminator ends, closes.due]

/-- The reader stops with the types at the end of the input. -/
def Finishes (reader : Reader) (types : List Ty) : Prop :=
  reader.frames = [] ∧ ∃ type, reader.slot.type? = some type ∧ types = reader.types ++ [type]

theorem Finishes.step {rules : Rules} (h : reader.Finishes types) (stop : Nat) :
    reader.step rules (.atEnd stop) = .stop (.ok types) := by
  obtain ⟨outermost, type, stands, eq⟩ := h
  refine step_eq_ok_iff.mpr ⟨rfl, type, stands, fun _ => ?_, outermost, eq⟩
  rw [closer, outermost]
  rfl

/-- A reader that the end of the input stops with types needs no closer but those that are due: the
end cannot end the keys of a hash, because no value follows them. -/
theorem reads_due (read : reader.drain ⟨.permissive, nesting⟩ (.atEnd stop) = .ok types) :
    ∃ last, Reads ⟨.strict, nesting⟩ reader (Token.repair stop reader.due []) last ∧
      last.Finishes types := by
  revert read
  refine drain_rec (P := fun reader outcome => outcome = .ok types → ∃ last,
    Reads ⟨.strict, nesting⟩ reader (Token.repair stop reader.due []) last ∧
      last.Finishes types) ?_ ?_ reader
  · rintro reader outcome stops rfl
    obtain ⟨-, type, stands, -, outermost, eq⟩ := step_eq_ok_iff.mp stops
    refine ⟨reader, ?_, outermost, type, stands, eq⟩
    rw [due, outermost]
    exact .nil
  · intro reader outer goesOn later read
    obtain ⟨type, frame, frames, stands, -, inner, closes⟩ := close_eq_more_iff.mp goesOn
    rcases closes.due_eq_or_empty with around | empty
    · obtain ⟨last, reads, finishes⟩ := later read
      refine ⟨last, ?_, finishes⟩
      rw [due_of_frames inner, ← around]
      exact .cons (.mend stands inner closes _) reads
    · rw [drain_of_stop (close_of_missing empty)] at read
      cases read

end Repair

/-- What is read in permissive mode, without a group after a composite, is read in strict mode from
the repaired tokens. -/
theorem reads_repaired {nesting : Option Nat} {ending : Scan.Ending} {stop : Nat} {reader : Reader}
    {tokens : List Token} {types : List Ty}
    (read : (Reading.ofTokens ⟨.permissive, nesting⟩ ending stop reader tokens).outcome = .ok types)
    (once : reader.opensAgain ⟨.permissive, nesting⟩
      (Reading.ofTokens ⟨.permissive, nesting⟩ ending stop reader tokens).tokens = false) :
    ∃ last, Reads ⟨.strict, nesting⟩ reader (Token.repair stop reader.due
        (Reading.ofTokens ⟨.permissive, nesting⟩ ending stop reader tokens).tokens) last ∧
      last.Finishes types := by
  induction tokens generalizing reader with
  | nil =>
    cases ending with
    | finished => exact reads_due read
    | invalid c => cases read
  | cons token tokens ih =>
    cases taken : reader.step ⟨.permissive, nesting⟩ token with
    | stop outcome =>
      rw [Reading.outcome_of_stop taken] at read
      rw [Reading.tokens_of_stop taken]
      subst read
      obtain ⟨ends, type, stands, -, outermost, eq⟩ := step_eq_ok_iff.mp taken
      refine ⟨reader, ?_, outermost, type, stands, eq⟩
      rw [due, outermost, List.map_nil, Token.repair_of_outermost ends]
      exact .nil
    | more next =>
      have advance := step_eq_more_iff.mp taken
      rw [Reading.outcome_of_advance advance] at read
      rw [Reading.tokens_of_more taken] at once ⊢
      simp only [opensAgain, taken, Bool.or_eq_false_iff, Bool.and_eq_false_imp] at once
      obtain ⟨last, reads, finishes⟩ := ih read once.2
      obtain ⟨mended, advance', eq⟩ := advance.repair once.1 _
      rw [eq]
      exact ⟨last, .cons advance' reads, finishes⟩

end Reader

/-- The text of the tokens that permissive mode reads of a text, with the brackets repaired. -/
def repaired (text : String) : String :=
  Token.concat (Token.repair (Scan.ofText text).stop []
    (Reading.ofText Mode.permissive.rules text).tokens)

/-- A terminator outside all groups stops the reader with all that is read of the text. -/
theorem stops_of_outermost {mode : Mode} {text : String} {types : List Ty}
    {before back : List Token} {closer : Token} {reader : Reader}
    (reads : Reads mode.rules .start before reader) (outermost : reader.frames = [])
    (ends : closer.kind.isTerminator = true)
    (whole : before ++ [closer] ++ back = (Scan.ofText text).tokens)
    (read : parse mode text = .ok types) :
    reader.step mode.rules closer = .stop (.ok types) := by
  have outcome : (Reading.ofTokens mode.rules (Scan.ofText text).ending (Scan.ofText text).stop
      reader (closer :: back)).outcome = .ok types := by
    rw [← Reading.outcome_of_reads reads, ← read, List.append_cons, whole]
    rfl
  cases taken : reader.step mode.rules closer with
  | stop stopped => rw [← outcome, Reading.outcome_of_stop taken]
  | more next =>
    rw [step_of_isTerminator ends] at taken
    obtain ⟨_, _, _, _, _, inner, _⟩ := close_eq_more_iff.mp taken
    cases outermost.symm.trans inner

/-- What permissive mode reads of a text is what strict mode reads of the repaired text, if no group
is opened after a composite. If a terminator ended the list outside all groups, then nothing that
follows it plays a part, not even characters that start no token. -/
theorem parse_strict_repaired {text : String} {types : List Ty}
    (read : parse .permissive text = .ok types) :
    (Reader.start.opensAgain Mode.permissive.rules
        (Reading.ofText Mode.permissive.rules text).tokens = false →
      parse .strict (repaired text) = .ok types) ∧
    ∀ before closer reader,
      (Reading.ofText Mode.permissive.rules text).tokens = before ++ [closer] →
      Reads Mode.permissive.rules .start before reader →
      reader.frames = [] → closer.kind.isTerminator = true →
      (∃ rest, text = Token.concat (before ++ [closer]) ++ rest) ∧
        ∀ after, parse .permissive (Token.concat (before ++ [closer]) ++ after) = .ok types := by
  have front : (Reading.ofText Mode.permissive.rules text).tokens <+: (Scan.ofText text).tokens :=
    Reading.tokens_prefix .start (Scan.ofText text).tokens
  have forms : ∀ token ∈ (Reading.ofText Mode.permissive.rules text).tokens,
      token.kind.Form token.text.toList :=
    fun token member => Scan.form_of_mem_tokens (front.subset member)
  -- The neighbours among the tokens that are read are neighbours in the text.
  obtain ⟨back, whole⟩ := front
  have apart := Scan.isChain_tokens 0 text.toList
  rw [show (Scan.ofChars 0 text.toList).tokens = _ from whole.symm] at apart
  have apart := apart.left_of_append
  constructor
  · intro once
    obtain ⟨last, reads, finishes⟩ := reads_repaired read once
    refine parse_concat (fun token member => ?_) (Token.isChain_repair (by simp) apart) reads
      finishes.step
    rcases Token.mem_repair (by simp) member with kept | ⟨closer, old, isCloser, rfl⟩
    · exact forms token kept
    · exact isCloser.form
  · intro before closer reader eq reads outermost ends
    rw [eq] at whole forms apart
    obtain ⟨stop, rest, yields⟩ := Scan.exists_yields_of_prefix ⟨back, whole⟩
    have parts := Scan.concat_append_of_yields yields
    have stops : reader.step Mode.permissive.rules closer = .stop (.ok types) :=
      stops_of_outermost reads outermost ends whole read
    refine ⟨⟨String.ofList rest, ?_⟩, parse_concat_append forms apart reads stops⟩
    rw [← String.toList_inj, String.toList_append, String.toList_ofList, parts]

/-- Keys that end at a parenthesis, a tuple that ends at an angle bracket, and two groups that end
with the text. The second text ends its list before characters that start no token. -/
theorem parse_strict_repaired_of_mismatched :
    parse .permissive "Array<\x7bA) b, (#c> ; d" = .ok [.collection "Array"
        [.hash "Hash" [.kind "A"] [.kind "b", .tuple none [.duck "#c"], .kind "d"]]] ∧
      repaired "Array<\x7bA) b, (#c> ; d" = "Array<\x7bA=> b, (#c) ; d\x7d>" ∧
      parse .strict "Array<\x7bA=> b, (#c) ; d\x7d>" = .ok [.collection "Array"
        [.hash "Hash" [.kind "A"] [.kind "b", .tuple none [.duck "#c"], .kind "d"]]] ∧
      ∀ after, parse .permissive ("b\x7d" ++ after) = .ok [.kind "b"] := by
  have text : repaired "Array<\x7bA) b, (#c> ; d" = "Array<\x7bA=> b, (#c) ; d\x7d>" := by
    decide +kernel
  have read : parse .permissive "Array<\x7bA) b, (#c> ; d" = .ok [.collection "Array"
      [.hash "Hash" [.kind "A"] [.kind "b", .tuple none [.duck "#c"], .kind "d"]]] := by
    decide +kernel
  have read' : parse .permissive "b\x7d ~" = .ok [.kind "b"] := by decide +kernel
  refine ⟨read, text, text ▸ (parse_strict_repaired read).1 (by decide +kernel), ?_⟩
  exact ((parse_strict_repaired read').2 [⟨.name, "b", 0⟩] ⟨.hashEnd, "\x7d", 1⟩
    ⟨[], .name "b", []⟩ (by decide +kernel) (.single (step_eq_more_iff.mp rfl)) rfl rfl).2

end DocTypes
