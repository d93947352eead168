import DocTypes.Proofs.Repair

/-!
# The limit on nesting

A reader with a limit on nesting does the same as one without, except at an opener that finds as many
groups open as the limit allows. So a text has the same outcome with and without the limit, unless the
reading without it comes to such an opener. Then the first of them is where the error is
(`nesting_limit_is_all`).

How many groups are open can be told from the kinds of the tokens: `Token.unclosed` adds a closer at
each opener and takes one away at each terminator, except that an arrow leaves the brace of its hash
to be written. The frames of a reader, by whose number it judges the depth, are as many
(`Reads.length_frames`), and never more than the limit (`Reads.length_frames_le`).
-/

namespace DocTypes

open Reader

namespace Token

/-- The closers that are due after a token, innermost first. -/
def dueAfter (due : List Kind) (token : Token) : List Kind :=
  match token.kind.closer? with
  | some closer => closer :: due
  | none =>
    if token.kind.isTerminator then
      match due with
      | [] => []
      | closer :: due => closer.dueAfter due
    else due

/-- The closers of the groups that the tokens leave open, innermost first. -/
def unclosed (tokens : List Token) : List Kind :=
  tokens.foldl dueAfter []

section Due

variable {due : List Kind} {closer : Kind} {token : Token}

theorem dueAfter_of_opener (opens : token.kind.closer? = some closer) :
    dueAfter due token = closer :: due := by
  simp only [dueAfter, opens]

theorem dueAfter_of_terminator (ends : token.kind.isTerminator = true) :
    dueAfter (closer :: due) token = closer.dueAfter due := by
  simp only [dueAfter, Kind.closer?_of_isTerminator ends, if_pos ends]

theorem dueAfter_of_other (opens : token.kind.closer? = none)
    (ends : token.kind.isTerminator = false) : dueAfter due token = due := by
  simp [dueAfter, opens, ends]

end Due

end Token

/-- The rules of a mode without a limit on nesting. -/
def Mode.unlimited (mode : Mode) : Reader.Rules :=
  ⟨mode, none⟩

namespace Reader

/-- The token opens a group that no composite forbids, and `limit` groups are open already. -/
structure Exceeds (mode : Mode) (limit : Nat) (reader : Reader) (token : Token) : Prop where
  opens : token.kind.closer?.isSome = true
  first : mode = .strict → reader.slot.isComposite = false
  full : limit ≤ reader.frames.length

variable {rules : Rules} {mode : Mode} {limit stop : Nat} {reader next last : Reader}
  {token : Token} {tokens : List Token}

/-! ## How many groups are open -/

theorem Advance.due (advance : Advance rules reader token next) :
    next.due = Token.dueAfter reader.due token := by
  cases advance with
  | blank kind => rw [Token.dueAfter_of_other (by rw [kind]; rfl) (by rw [kind]; rfl)]
  | name kind =>
    rw [Token.dueAfter_of_other (by rw [kind]; rfl) (by rw [kind]; rfl)]
    rfl
  | separator kind =>
    rw [Token.dueAfter_of_other (by rw [kind]; rfl) (by rw [kind]; rfl)]
    rfl
  | opener opens =>
    rw [Token.dueAfter_of_opener (closer_of_opened? opens)]
    rfl
  | terminator ends _ _ inner closes =>
    rw [due_of_frames inner, Token.dueAfter_of_terminator ends, closes.due]

theorem Reads.due (reads : Reads rules reader tokens last) :
    last.due = tokens.foldl Token.dueAfter reader.due := by
  induction reads with
  | nil => rfl
  | cons advance _ ih => rw [ih, advance.due, List.foldl_cons]

/-- A reader has a frame for each group that the tokens left open. -/
theorem Reads.length_frames (reads : Reads rules .start tokens reader) :
    reader.frames.length = (Token.unclosed tokens).length := by
  have due : reader.due = Token.unclosed tokens := reads.due
  rw [← due, Reader.due, List.length_map]

theorem Closes.length_frames_le {frame : Frame} {frames : List Frame} {types : List Ty}
    (closes : Closes frame types frames next) : next.frames.length ≤ frames.length + 1 := by
  cases closes with
  | keys => exact Nat.le_refl _
  | _ => exact Nat.le_succ _

theorem Advance.length_frames_le (advance : Advance ⟨mode, some limit⟩ reader token next)
    (within : reader.frames.length ≤ limit) : next.frames.length ≤ limit := by
  cases advance with
  | blank | name | separator => exact within
  | opener _ _ room => exact room limit rfl
  | terminator _ _ _ inner closes =>
    rw [inner] at within
    exact closes.length_frames_le.trans within

/-- No more groups are ever open than the limit allows. -/
theorem Reads.length_frames_le (reads : Reads ⟨mode, some limit⟩ reader tokens last)
    (within : reader.frames.length ≤ limit) : last.frames.length ≤ limit := by
  generalize limited : Rules.mk mode (some limit) = rules at reads
  induction reads with
  | nil => exact within
  | cons advance _ ih =>
    subst limited
    exact ih (advance.length_frames_le within)

/-! ## With a limit and without -/

theorem exists_opened?_of_closer? (name : Option String) {kind : Token.Kind}
    (opens : kind.closer?.isSome = true) : ∃ group, Group.opened? name kind = some group := by
  cases kind <;> first | exact ⟨_, rfl⟩ | cases opens

theorem step_of_exceeds (exceeds : reader.Exceeds mode limit token) :
    reader.step ⟨mode, some limit⟩ token = .stop (.error (token.error (.tooDeep limit))) := by
  obtain ⟨group, opens⟩ := exists_opened?_of_closer? reader.slot.name? exceeds.opens
  have full : reader.exceeded? ⟨mode, some limit⟩ = some limit := by
    simp [exceeded?, exceeds.full]
  rw [step_of_opened? opens, enter, if_neg fun second => ?_, full]
  simp [exceeds.first second.1] at second

theorem step_of_not_exceeds (within : ¬ reader.Exceeds mode limit token) :
    reader.step ⟨mode, some limit⟩ token = reader.step ⟨mode, none⟩ token := by
  rcases kind_cases reader.slot.name? token.kind with kind | kind | kind | ⟨group, opens⟩ | ends
  · simp only [step, kind]
  · simp only [step, kind]
  · simp only [step, kind]
  · rw [step_of_opened? opens, step_of_opened? opens, enter, enter]
    by_cases second : mode = .strict ∧ reader.slot.isComposite = true
    · rw [if_pos second, if_pos second]
    · have room : reader.frames.length < limit := by
        refine Nat.lt_of_not_le fun full => within ⟨?_, fun strict => ?_, full⟩
        · rw [closer_of_opened? opens]
          rfl
        · exact Bool.eq_false_iff.mpr fun composite => second ⟨strict, composite⟩
      have limited : reader.exceeded? ⟨mode, some limit⟩ = none :=
        exceeded?_eq_none_iff.mpr fun _ same => Option.some.inj same ▸ room
      rw [if_neg second, if_neg second, limited]
      rfl
  · rw [step_of_isTerminator ends, step_of_isTerminator ends]
    rfl

/-- The end of the input opens nothing, so it is taken alike with a limit and without. -/
theorem drain_limited :
    reader.drain ⟨mode, some limit⟩ (.atEnd stop) = reader.drain ⟨mode, none⟩ (.atEnd stop) := by
  have agree : ∀ (reader : Reader) (token : Token),
      reader.step ⟨mode, some limit⟩ token = reader.step ⟨mode, none⟩ token ∨
        ∃ e, reader.Exceeds mode limit token ∧
          reader.step ⟨mode, some limit⟩ token = .stop (.error e) := by
    intro reader token
    by_cases exceeds : reader.Exceeds mode limit token
    · exact .inr ⟨_, exceeds, step_of_exceeds exceeds⟩
    · exact .inl (step_of_not_exceeds exceeds)
  obtain same | ⟨_, _, _, _, exceeds, _⟩ := drain_lockstep agree
  · exact same
  · cases exceeds.opens

/-- `Within mode limit reader tokens`: without a limit, none of the tokens is an opener that finds
`limit` groups open already. -/
def Within (mode : Mode) (limit : Nat) (reader : Reader) (tokens : List Token) : Prop :=
  ∀ before opener last, before ++ [opener] <+: tokens → Reads mode.unlimited reader before last →
    ¬ last.Exceeds mode limit opener

theorem Within.head (within : Within mode limit reader (token :: tokens)) :
    ¬ reader.Exceeds mode limit token :=
  within [] token reader ⟨tokens, rfl⟩ .nil

theorem Within.tail (within : Within mode limit reader (token :: tokens))
    (advance : Advance mode.unlimited reader token next) : Within mode limit next tokens :=
  fun before opener last found reads => within (token :: before) opener last
    (List.cons_prefix_cons.mpr ⟨rfl, found⟩) (.cons advance reads)

/-- Tokens that are read without a limit are read with it, if none of them exceeds it. -/
theorem Reads.limited (reads : Reads mode.unlimited reader tokens last)
    (within : Within mode limit reader tokens) : Reads ⟨mode, some limit⟩ reader tokens last := by
  generalize unlimited : mode.unlimited = rules at reads
  induction reads with
  | nil => exact .nil
  | cons advance _ ih =>
    subst unlimited
    have same := (step_of_not_exceeds within.head).trans (step_eq_more_iff.mpr advance)
    exact .cons (step_eq_more_iff.mp same) (ih (within.tail advance))

end Reader

open Reader

namespace Reading

variable {mode : Mode} {limit stop : Nat} {ending : Scan.Ending} {reader : Reader}
  {tokens : List Token}

/-- Where no opener exceeds the limit, it makes no difference. -/
theorem outcome_limited (within : Within mode limit reader tokens) :
    (ofTokens ⟨mode, some limit⟩ ending stop reader tokens).outcome =
      (ofTokens mode.unlimited ending stop reader tokens).outcome := by
  induction tokens generalizing reader with
  | nil =>
    cases ending with
    | invalid c => rfl
    | finished => exact drain_limited
  | cons token tokens ih =>
    have same := step_of_not_exceeds within.head
    cases taken : reader.step mode.unlimited token with
    | stop outcome => rw [outcome_of_stop (same.trans taken), outcome_of_stop taken]
    | more next =>
      have advance := step_eq_more_iff.mp taken
      rw [outcome_of_advance (step_eq_more_iff.mp (same.trans taken)), outcome_of_advance advance,
        ih (within.tail advance)]

end Reading

/-- Without a limit on nesting the tokens `before` of the text are read, and the opener that follows
them finds as many groups open as the limit allows. -/
def Overflows (mode : Mode) (text : String) (before : List Token) (opener : Token) : Prop :=
  before ++ [opener] <+: (Scan.ofText text).tokens ∧
    ∃ reader, Reads mode.unlimited .start before reader ∧
      reader.Exceeds mode nestingLimit opener

section Overflows

variable {mode : Mode} {text : String} {before : List Token} {opener : Token}

theorem parse_of_not_overflows (never : ∀ before opener, ¬ Overflows mode text before opener) :
    parse mode text = (Reading.ofText mode.unlimited text).outcome :=
  Reading.outcome_limited fun before opener last found reads exceeds =>
    never before opener ⟨found, last, reads, exceeds⟩

/-- The first opener that is nested too deep stops the reading. -/
theorem parse_of_overflows (overflows : Overflows mode text before opener)
    (first : ∀ earlier other, Overflows mode text earlier other → before.length ≤ earlier.length) :
    parse mode text = .error (opener.error (.tooDeep nestingLimit)) := by
  obtain ⟨⟨rest, tokens⟩, reader, reads, exceeds⟩ := overflows
  have within : Within mode nestingLimit .start before := by
    intro earlier other last found reads exceeds
    have longer := first earlier other ⟨?_, last, reads, exceeds⟩
    · have shorter := found.length_le
      rw [List.length_append, List.length_singleton] at shorter
      omega
    · exact found.trans ⟨opener :: rest, by rw [← tokens, List.append_assoc]; rfl⟩
  have limited : Reads mode.rules .start before reader := reads.limited within
  rw [List.append_assoc] at tokens
  rw [parse, Reading.ofText, ← tokens, Reading.outcome_of_reads limited]
  exact Reading.outcome_of_stop (step_of_exceeds exceeds)

theorem exists_first_overflows (reached : ∃ before opener, Overflows mode text before opener) :
    ∃ before opener, Overflows mode text before opener ∧
      ∀ earlier other, Overflows mode text earlier other → before.length ≤ earlier.length := by
  obtain ⟨before, opener, overflows⟩ := reached
  induction count : before.length using Nat.strongRecOn generalizing before opener with
  | ind count ih =>
    by_cases sooner : ∃ earlier other, Overflows mode text earlier other ∧
        earlier.length < before.length
    · obtain ⟨earlier, other, overflows, shorter⟩ := sooner
      exact ih earlier.length (count ▸ shorter) earlier other overflows rfl
    · exact ⟨before, opener, overflows, fun earlier other overflows =>
        Nat.le_of_not_lt fun shorter => sooner ⟨earlier, other, overflows, shorter⟩⟩

end Overflows

/-- A text has the same outcome with the limit on nesting and without it, unless the reading without
it comes to an opener that finds 128 groups open already. Then the error is at the first such opener.

In every reading the depth is the number of the groups that are open after the tokens read so far, and
under the limit it is never more than 128. -/
theorem nesting_limit_is_all (mode : Mode) (text : String) :
    ((∀ before opener, ¬ Overflows mode text before opener) →
        parse mode text = (Reading.ofText mode.unlimited text).outcome) ∧
      ((∃ before opener, Overflows mode text before opener) →
        ∃ before opener, Overflows mode text before opener ∧
          (∀ earlier other, Overflows mode text earlier other → before.length ≤ earlier.length) ∧
          ∃ e, parse mode text = .error e ∧ e.message = "nesting deeper than 128 levels" ∧
            e.position = opener.position ∧ e.token = some opener.text) ∧
      (∀ rules tokens reader, Reads rules .start tokens reader →
        reader.frames.length = (Token.unclosed tokens).length) ∧
      ∀ tokens reader, Reads mode.rules .start tokens reader → reader.frames.length ≤ 128 := by
  refine ⟨parse_of_not_overflows, fun reached => ?_, fun _ _ _ reads => reads.length_frames,
    fun _ _ reads => reads.length_frames_le (Nat.zero_le _)⟩
  obtain ⟨before, opener, overflows, first⟩ := exists_first_overflows reached
  refine ⟨before, opener, overflows, first, _, parse_of_overflows overflows first, rfl, rfl,
    if_neg fun finish => ?_⟩
  have opens := overflows.2.choose_spec.2.opens
  rw [finish] at opens
  cases opens

/-- A name in 129 brackets that nothing closes is read without the limit. With it, the first bracket
that is nested too deep is refused, at the byte offset 128. -/
theorem nesting_limit_is_all_unclosed :
    (Reading.ofText Mode.permissive.unlimited
        (String.ofList (List.replicate 129 '(' ++ ['A']))).outcome.toOption.isSome = true ∧
      ∃ before opener, Overflows .permissive (String.ofList (List.replicate 129 '(' ++ ['A']))
          before opener ∧ opener.position = 128 ∧
        ∃ e, parse .permissive (String.ofList (List.replicate 129 '(' ++ ['A'])) = .error e ∧
          e.message = "nesting deeper than 128 levels" := by
  obtain ⟨same, first, -, -⟩ := nesting_limit_is_all .permissive
    (String.ofList (List.replicate 129 '(' ++ ['A']))
  have read : (Reading.ofText Mode.permissive.unlimited
      (String.ofList (List.replicate 129 '(' ++ ['A']))).outcome.toOption.isSome = true := by
    decide +kernel
  have refused : parse .permissive (String.ofList (List.replicate 129 '(' ++ ['A'])) =
      .error ⟨.tooDeep 128, 128, some "("⟩ := by
    decide +kernel
  obtain ⟨before, opener, overflows, -, e, failed, message, position, -⟩ := first <| by
    by_contra never
    have equal := same fun before opener overflows => never ⟨before, opener, overflows⟩
    rw [← equal, refused] at read
    cases read
  refine ⟨read, before, opener, overflows, ?_, e, failed, message⟩
  cases refused.symm.trans failed
  exact position.symm

end DocTypes
