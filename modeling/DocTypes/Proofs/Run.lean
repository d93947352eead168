import Mathlib.Control.Monad.Basic
import DocTypes.Reading

/-!
# Runs of a reader

What a token does to a reader that goes on is said once, by the relations `Closes` and `Advance`
(`Frame.close_eq_ok_iff`, `step_eq_more_iff`), and what makes it stop with types is said by
`step_eq_ok_iff`. `Reads` is a run over several tokens. The end of the input is a token that is
taken until the reader stops (`drain_rec`), so a whole reading is such a run as well.

`outcome_induction` is the induction over a reading: a property of readers that each token keeps
holds at the token that stops the reader.
-/

namespace DocTypes

/-- The kinds of the tokens that end a list. -/
def Token.Kind.isTerminator : Token.Kind → Bool
  | .collectionEnd | .tupleEnd | .hashArrow | .hashEnd | .finish => true
  | _ => false

/-- The tokens without the blanks. -/
def Token.significant (tokens : List Token) : List Token :=
  tokens.filter fun token => token.kind ≠ .blank

namespace Reader

/-- The group that a token of the kind opens after a name, or without one. -/
def Group.opened? (name : Option String) : Token.Kind → Option Group
  | .collectionStart => some (.collection (name.getD Ty.defaultCollection))
  | .tupleStart => some (.tuple name)
  | .hashStart => some (.hashKeys (name.getD Ty.defaultHash))
  | _ => none

/-- `Closes frame types frames outer`: when the list `types` of the group of `frame` is complete,
`outer` goes on. Its innermost list is the list of values if `types` are the keys of a hash, and
otherwise the list around the group. -/
inductive Closes (frame : Frame) (types : List Ty) (frames : List Frame) : Reader → Prop
  | collection {name : String} :
      frame.group = .collection name → name ≠ Ty.defaultHash →
      Closes frame types frames
        ⟨frame.types, .composite (some name) (.collection name types), frames⟩
  | shorthand {key value : Ty} :
      frame.group = .collection Ty.defaultHash → types = [key, value] →
      Closes frame types frames
        ⟨frame.types, .composite (some Ty.defaultHash) (.hash Ty.defaultHash [key] [value]), frames⟩
  | tuple {name : Option String} :
      frame.group = .tuple name →
      Closes frame types frames ⟨frame.types, .composite name (.tuple name types), frames⟩
  | keys {name : String} :
      frame.group = .hashKeys name →
      Closes frame types frames
        ⟨[], .empty, { frame with group := .hashValues name types } :: frames⟩
  | values {name : String} {keys : List Ty} :
      frame.group = .hashValues name keys →
      Closes frame types frames
        ⟨frame.types, .composite (some name) (.hash name keys types), frames⟩

theorem Frame.close_eq_ok_iff {frame : Frame} {types : List Ty} {frames : List Frame}
    {outer : Reader} : frame.close types frames = .ok outer ↔ Closes frame types frames outer := by
  constructor
  · intro h
    unfold Frame.close at h
    split at h
    · next group =>
      split at h
      · next hash =>
        subst hash
        split at h <;> cases h
        exact .shorthand group rfl
      · next other =>
        cases h
        exact .collection group other
    · next group => cases h; exact .tuple group
    · next group => cases h; exact .keys group
    · next group => cases h; exact .values group
  · intro h
    cases h with
    | collection group other => simp [Frame.close, group, other]
    | shorthand group pair => simp [Frame.close, group, pair]
    | tuple group => simp [Frame.close, group]
    | keys group => simp [Frame.close, group]
    | values group => simp [Frame.close, group]

/-- `Advance rules reader token next`: the reader goes on as `next` after the token.

* `blank`: nothing changes.
* `name`: the name fills the empty slot.
* `separator`: the alternative in the slot is finished.
* `opener`: a group is opened. In strict mode no composite may be in the slot.
* `terminator`: the innermost list is finished and ends its group. In strict mode the token has to
  be the closer of the group. -/
inductive Advance (rules : Rules) (reader : Reader) (token : Token) : Reader → Prop
  | blank : token.kind = .blank → Advance rules reader token reader
  | name :
      token.kind = .name → reader.slot = .empty →
      Advance rules reader token ⟨reader.types, .name token.text, reader.frames⟩
  | separator {type : Ty} :
      token.kind = .separator → reader.slot.type? = some type →
      Advance rules reader token ⟨reader.types ++ [type], .empty, reader.frames⟩
  | opener {group : Group} :
      Group.opened? reader.slot.name? token.kind = some group →
      (rules.mode = .strict → reader.slot.isComposite = false) →
      (∀ limit ∈ rules.nesting, reader.frames.length < limit) →
      Advance rules reader token ⟨[], .empty, ⟨reader.types, token, group⟩ :: reader.frames⟩
  | terminator {type : Ty} {frame : Frame} {frames : List Frame} {outer : Reader} :
      token.kind.isTerminator = true → reader.slot.type? = some type →
      (rules.mode = .strict → token.kind = reader.closer) →
      reader.frames = frame :: frames →
      Closes frame (reader.types ++ [type]) frames outer →
      Advance rules reader token outer

section Step

variable {rules : Rules} {reader next : Reader} {token : Token} {types : List Ty}

theorem finished_of_type? {type : Ty} (h : reader.slot.type? = some type) :
    reader.finished token = .ok (reader.types ++ [type]) := by
  simp only [finished, h]

theorem finished_of_empty (h : reader.slot.type? = none) :
    reader.finished token = .error (token.error .missingName) := by
  simp only [finished, h]

theorem closer_of_frame {frame : Frame} {frames : List Frame}
    (inner : reader.frames = frame :: frames) : reader.closer = frame.group.closer := by
  rw [closer, inner]

theorem exceeded?_eq_none_iff : reader.exceeded? rules = none ↔
    ∀ limit ∈ rules.nesting, reader.frames.length < limit := by
  simp [exceeded?, Option.filter_eq_none_iff]

theorem takeName_eq_more_iff : reader.takeName token = .more next ↔
    reader.slot = .empty ∧ next = ⟨reader.types, .name token.text, reader.frames⟩ := by
  unfold takeName
  cases reader.slot <;> simp [eq_comm]

theorem separate_eq_more_iff : reader.separate token = .more next ↔
    ∃ type, reader.slot.type? = some type ∧
      next = ⟨reader.types ++ [type], .empty, reader.frames⟩ := by
  unfold separate
  cases h : reader.slot.type? with
  | none => simp [finished_of_empty h]
  | some type => simp [finished_of_type? h, eq_comm]

theorem enter_eq_more_iff {group : Group} : reader.enter rules group token = .more next ↔
    (rules.mode = .strict → reader.slot.isComposite = false) ∧
      (∀ limit ∈ rules.nesting, reader.frames.length < limit) ∧
      next = ⟨[], .empty, ⟨reader.types, token, group⟩ :: reader.frames⟩ := by
  rw [← exceeded?_eq_none_iff]
  unfold enter
  split
  · next second => simp [second]
  · next first =>
    rw [not_and, Bool.not_eq_true] at first
    cases h : reader.exceeded? rules with
    | none => exact ⟨fun eq => ⟨first, rfl, (Step.more.inj eq).symm⟩, fun h => by rw [h.2.2]⟩
    | some limit => simp

/-! A terminator meets one of four situations. -/

theorem close_of_missing (missing : reader.slot.type? = none) :
    reader.close rules token = .stop (.error (token.error .missingName)) := by
  simp only [close, finished_of_empty missing]

theorem close_of_wrong {type : Ty} (stands : reader.slot.type? = some type)
    (strict : rules.mode = .strict) (wrong : token.kind ≠ reader.closer) :
    reader.close rules token = .stop (.error (token.error (.wrongCloser reader.closer))) := by
  simp only [close, finished_of_type? stands]
  rw [if_pos ⟨strict, wrong⟩]

theorem close_of_outermost {type : Ty} (stands : reader.slot.type? = some type)
    (right : rules.mode = .strict → token.kind = reader.closer) (outermost : reader.frames = []) :
    reader.close rules token = .stop (.ok (reader.types ++ [type])) := by
  simp only [close, finished_of_type? stands, outermost]
  exact if_neg fun h => h.2 (right h.1)

theorem close_of_frame {type : Ty} {frame : Frame} {frames : List Frame}
    (stands : reader.slot.type? = some type)
    (right : rules.mode = .strict → token.kind = reader.closer)
    (inner : reader.frames = frame :: frames) :
    reader.close rules token =
      match frame.close (reader.types ++ [type]) frames with
      | .ok outer => .more outer
      | .error e => .stop (.error e) := by
  simp only [close, finished_of_type? stands, inner]
  exact if_neg fun h => h.2 (right h.1)

/-- A terminator is refused, or its alternative is there and its kind is right. -/
theorem close_cases (rules : Rules) (reader : Reader) (token : Token) :
    (∃ e, reader.close rules token = .stop (.error e)) ∨
      ∃ type, reader.slot.type? = some type ∧
        (rules.mode = .strict → token.kind = reader.closer) := by
  cases stands : reader.slot.type? with
  | none => exact .inl ⟨_, close_of_missing stands⟩
  | some type =>
    by_cases wrong : rules.mode = .strict ∧ token.kind ≠ reader.closer
    · exact .inl ⟨_, close_of_wrong stands wrong.1 wrong.2⟩
    · exact .inr ⟨type, rfl, fun strict => Decidable.not_not.mp fun ne => wrong ⟨strict, ne⟩⟩

theorem close_eq_more_iff : reader.close rules token = .more next ↔
    ∃ type frame frames, reader.slot.type? = some type ∧
      (rules.mode = .strict → token.kind = reader.closer) ∧
      reader.frames = frame :: frames ∧ Closes frame (reader.types ++ [type]) frames next := by
  constructor
  · intro h
    rcases close_cases rules reader token with ⟨e, refused⟩ | ⟨type, stands, right⟩
    · cases h.symm.trans refused
    · cases inner : reader.frames with
      | nil => cases h.symm.trans (close_of_outermost stands right inner)
      | cons frame frames =>
        rw [close_of_frame stands right inner] at h
        split at h <;> cases h
        exact ⟨type, frame, frames, stands, right, rfl, Frame.close_eq_ok_iff.mp ‹_›⟩
  · rintro ⟨type, frame, frames, stands, right, inner, closes⟩
    rw [close_of_frame stands right inner, Frame.close_eq_ok_iff.mpr closes]

theorem close_eq_ok_iff : reader.close rules token = .stop (.ok types) ↔
    ∃ type, reader.slot.type? = some type ∧
      (rules.mode = .strict → token.kind = reader.closer) ∧
      reader.frames = [] ∧ types = reader.types ++ [type] := by
  constructor
  · intro h
    rcases close_cases rules reader token with ⟨e, refused⟩ | ⟨type, stands, right⟩
    · cases h.symm.trans refused
    · cases inner : reader.frames with
      | nil =>
        cases h.symm.trans (close_of_outermost stands right inner)
        exact ⟨type, stands, right, rfl, rfl⟩
      | cons frame frames =>
        rw [close_of_frame stands right inner] at h
        split at h <;> cases h
  · rintro ⟨type, stands, right, outermost, rfl⟩
    exact close_of_outermost stands right outermost

/-! ## One token -/

theorem kind_cases (name : Option String) (kind : Token.Kind) :
    kind = .blank ∨ kind = .name ∨ kind = .separator ∨
      (∃ group, Group.opened? name kind = some group) ∨ kind.isTerminator = true := by
  cases kind <;> simp [Group.opened?, Token.Kind.isTerminator]

theorem step_of_opened? {group : Group}
    (opens : Group.opened? reader.slot.name? token.kind = some group) :
    reader.step rules token = reader.enter rules group token := by
  unfold Group.opened? at opens
  unfold step
  split at opens <;> cases opens <;> simp_all

theorem step_of_isTerminator (ends : token.kind.isTerminator = true) :
    reader.step rules token = reader.close rules token := by
  unfold Token.Kind.isTerminator at ends
  unfold step
  split at ends
  case h_6 => cases ends
  all_goals simp_all

/-- The reader goes on after a token exactly as `Advance` says. -/
theorem step_eq_more_iff :
    reader.step rules token = .more next ↔ Advance rules reader token next := by
  constructor
  · intro h
    rcases kind_cases reader.slot.name? token.kind with kind | kind | kind | ⟨group, opens⟩ | ends
    · simp only [step, kind] at h
      cases h
      exact .blank kind
    · simp only [step, kind] at h
      obtain ⟨empty, rfl⟩ := takeName_eq_more_iff.mp h
      exact .name kind empty
    · simp only [step, kind] at h
      obtain ⟨type, stands, rfl⟩ := separate_eq_more_iff.mp h
      exact .separator kind stands
    · rw [step_of_opened? opens] at h
      obtain ⟨first, room, rfl⟩ := enter_eq_more_iff.mp h
      exact .opener opens first room
    · rw [step_of_isTerminator ends] at h
      obtain ⟨type, frame, frames, stands, right, inner, closes⟩ := close_eq_more_iff.mp h
      exact .terminator ends stands right inner closes
  · intro h
    cases h with
    | blank kind => simp only [step, kind]
    | name kind empty =>
      simp only [step, kind]
      exact takeName_eq_more_iff.mpr ⟨empty, rfl⟩
    | separator kind stands =>
      simp only [step, kind]
      exact separate_eq_more_iff.mpr ⟨_, stands, rfl⟩
    | opener opens first room =>
      rw [step_of_opened? opens]
      exact enter_eq_more_iff.mpr ⟨first, room, rfl⟩
    | terminator ends stands right inner closes =>
      rw [step_of_isTerminator ends]
      exact close_eq_more_iff.mpr ⟨_, _, _, stands, right, inner, closes⟩

/-- The reader stops with types at a terminator outside all groups. -/
theorem step_eq_ok_iff : reader.step rules token = .stop (.ok types) ↔
    token.kind.isTerminator = true ∧ ∃ type, reader.slot.type? = some type ∧
      (rules.mode = .strict → token.kind = reader.closer) ∧
      reader.frames = [] ∧ types = reader.types ++ [type] := by
  constructor
  · intro h
    rcases kind_cases reader.slot.name? token.kind with kind | kind | kind | ⟨group, opens⟩ | ends
    · simp only [step, kind] at h
      cases h
    · simp only [step, kind, takeName] at h
      split at h <;> cases h
    · simp only [step, kind, separate] at h
      split at h <;> cases h
    · rw [step_of_opened? opens, enter] at h
      split at h
      · cases h
      · split at h <;> cases h
    · rw [step_of_isTerminator ends] at h
      exact ⟨ends, close_eq_ok_iff.mp h⟩
  · rintro ⟨ends, h⟩
    rw [step_of_isTerminator ends]
    exact close_eq_ok_iff.mpr h

/-! ## Strict mode -/

/-- In strict mode only the end of the input makes a reader stop with types. -/
theorem finish_of_strict {nesting : Option Nat}
    (stops : reader.step ⟨.strict, nesting⟩ token = .stop (.ok types)) : token.kind = .finish := by
  obtain ⟨-, type, -, right, outermost, -⟩ := step_eq_ok_iff.mp stops
  rw [right rfl, closer, outermost]

/-- In strict mode the end of the input ends no group. -/
theorem not_advance_atEnd {nesting : Option Nat} {stop : Nat} :
    ¬ Advance ⟨.strict, nesting⟩ reader (.atEnd stop) next := by
  intro advance
  cases advance with
  | blank kind => cases kind
  | name kind => cases kind
  | separator kind => cases kind
  | opener opens => cases opens
  | @terminator _ frame _ _ _ _ right inner =>
    have kind : Token.Kind.finish = frame.group.closer := by
      rw [← closer_of_frame inner]
      exact right rfl
    revert kind
    cases frame.group <;> simp [Group.closer]

end Step

/-! ## Several tokens -/

/-- `Reads rules reader tokens last`: one after another the tokens lead from `reader` to `last`. -/
inductive Reads (rules : Rules) : Reader → List Token → Reader → Prop
  | nil {reader : Reader} : Reads rules reader [] reader
  | cons {reader next last : Reader} {token : Token} {tokens : List Token} :
      Advance rules reader token next → Reads rules next tokens last →
      Reads rules reader (token :: tokens) last

namespace Reads

variable {rules : Rules} {reader middle last : Reader} {front back : List Token} {token : Token}

theorem single (h : Advance rules reader token last) : Reads rules reader [token] last :=
  .cons h .nil

theorem append (first : Reads rules reader front middle) (second : Reads rules middle back last) :
    Reads rules reader (front ++ back) last := by
  induction first with
  | nil => exact second
  | cons advance _ ih => exact .cons advance (ih second)

theorem snoc (first : Reads rules reader front middle) (h : Advance rules middle token last) :
    Reads rules reader (front ++ [token]) last :=
  first.append (single h)

end Reads

/-! ## The end of the input -/

section Drain

variable {rules : Rules} {reader outer : Reader} {stop : Nat}

theorem drain_of_stop {outcome : Except SyntaxError (List Ty)}
    (h : reader.step rules (.atEnd stop) = .stop outcome) :
    reader.drain rules (.atEnd stop) = outcome := by
  rw [drain]
  split
  · next eq => exact Step.stop.inj (eq.symm.trans h)
  · next eq => cases eq.symm.trans h

theorem drain_of_more (h : reader.step rules (.atEnd stop) = .more outer) :
    reader.drain rules (.atEnd stop) = outer.drain rules (.atEnd stop) := by
  rw [drain]
  split
  · next eq => cases eq.symm.trans h
  · next eq => rw [Step.more.inj (eq.symm.trans h)]

/-- Induction over the end of the input: each end that does not stop the reader ends a list, so that
fewer lists are open after it. -/
theorem drain_rec {P : Reader → Except SyntaxError (List Ty) → Prop}
    (halt : ∀ {reader outcome}, reader.step rules (.atEnd stop) = .stop outcome → P reader outcome)
    (pass : ∀ {reader next}, reader.step rules (.atEnd stop) = .more next →
      P next (next.drain rules (.atEnd stop)) → P reader (next.drain rules (.atEnd stop)))
    (reader : Reader) : P reader (reader.drain rules (.atEnd stop)) := by
  induction h : reader.openLists using Nat.strongRecOn generalizing reader with
  | ind count ih =>
    subst h
    cases taken : reader.step rules (.atEnd stop) with
    | stop outcome =>
      rw [drain_of_stop taken]
      exact halt taken
    | more outer =>
      have fewer := openLists_close taken
      rw [drain_of_more taken]
      exact pass taken (ih outer.openLists (by omega) outer rfl)

/-- The end of the input is taken as any other token, until it stops the reader. -/
theorem drain_induction {P : Reader → Prop} {Q : Except SyntaxError (List Ty) → Prop}
    (keep : ∀ {reader next}, P reader → Advance rules reader (.atEnd stop) next → P next)
    (halt : ∀ {reader outcome}, P reader →
      reader.step rules (.atEnd stop) = .stop outcome → Q outcome)
    (initial : P reader) : Q (reader.drain rules (.atEnd stop)) := by
  revert initial
  refine drain_rec (P := fun reader outcome => P reader → Q outcome) ?_ ?_ reader
  · exact fun stops initial => halt initial stops
  · exact fun goesOn later initial => later (keep initial (step_eq_more_iff.mp goesOn))

/-- Two drains agree if their steps do, unless the first fails at a token where they do not. -/
theorem drain_lockstep {other : Rules} {Fails : Reader → Token → SyntaxError → Prop}
    (agree : ∀ reader token, reader.step rules token = reader.step other token ∨
      ∃ e, Fails reader token e ∧ reader.step rules token = .stop (.error e)) :
    reader.drain rules (.atEnd stop) = reader.drain other (.atEnd stop) ∨
      ∃ ends last e, Reads rules reader (List.replicate ends (.atEnd stop)) last ∧
        Fails last (.atEnd stop) e ∧ reader.drain rules (.atEnd stop) = .error e := by
  refine drain_rec (P := fun reader outcome => outcome = reader.drain other (.atEnd stop) ∨
    ∃ ends last e, Reads rules reader (List.replicate ends (.atEnd stop)) last ∧
      Fails last (.atEnd stop) e ∧ outcome = .error e) ?_ ?_ reader
  · intro reader outcome stops
    rcases agree reader (.atEnd stop) with same | ⟨e, fails, stopped⟩
    · exact .inl (drain_of_stop (same.symm.trans stops)).symm
    · exact .inr ⟨0, reader, e, .nil, fails, Step.stop.inj (stops.symm.trans stopped)⟩
  · intro reader outer goesOn later
    rcases agree reader (.atEnd stop) with same | ⟨e, fails, stopped⟩
    · rw [drain_of_more (same.symm.trans goesOn)]
      refine later.imp_right ?_
      rintro ⟨ends, last, e, reads, fails, failed⟩
      exact ⟨ends + 1, last, e, .cons (step_eq_more_iff.mp goesOn) reads, fails, failed⟩
    · cases goesOn.symm.trans stopped

end Drain

end Reader

namespace Reading

open Reader

variable {rules : Rules} {ending : Scan.Ending} {stop : Nat} {reader next last : Reader}
  {token : Token} {front back : List Token}

theorem outcome_of_advance (h : Advance rules reader token next) :
    (ofTokens rules ending stop reader (token :: back)).outcome =
      (ofTokens rules ending stop next back).outcome := by
  simp only [ofTokens, step_eq_more_iff.mpr h]

theorem outcome_of_stop {outcome : Except SyntaxError (List Ty)}
    (h : reader.step rules token = .stop outcome) :
    (ofTokens rules ending stop reader (token :: back)).outcome = outcome := by
  simp only [ofTokens, h]

theorem tokens_of_stop {outcome : Except SyntaxError (List Ty)}
    (h : reader.step rules token = .stop outcome) :
    (ofTokens rules ending stop reader (token :: back)).tokens = [token] := by
  simp only [ofTokens, h]

theorem tokens_of_more (h : reader.step rules token = .more next) :
    (ofTokens rules ending stop reader (token :: back)).tokens =
      token :: (ofTokens rules ending stop next back).tokens := by
  simp only [ofTokens, h]

/-- The tokens that are read are the first tokens of the scan. -/
theorem tokens_prefix (reader : Reader) (tokens : List Token) :
    (ofTokens rules ending stop reader tokens).tokens <+: tokens := by
  induction tokens generalizing reader with
  | nil => cases ending <;> exact List.prefix_rfl
  | cons token tokens ih =>
    cases taken : reader.step rules token with
    | stop outcome =>
      rw [tokens_of_stop taken]
      exact ⟨tokens, rfl⟩
    | more next =>
      rw [tokens_of_more taken]
      exact List.cons_prefix_cons.mpr ⟨rfl, ih next⟩

/-- What is read after some tokens does not depend on how the reader came there. -/
theorem outcome_of_reads (h : Reads rules reader front last) :
    (ofTokens rules ending stop reader (front ++ back)).outcome =
      (ofTokens rules ending stop last back).outcome := by
  induction h with
  | nil => rfl
  | cons advance _ ih => rw [List.cons_append, outcome_of_advance advance, ih]

theorem outcome_of_finished :
    (ofTokens rules .finished stop reader []).outcome = reader.drain rules (.atEnd stop) := rfl

/-- Blanks make no difference to the outcome. -/
theorem outcome_significant (tokens : List Token) :
    (ofTokens rules ending stop reader (Token.significant tokens)).outcome =
      (ofTokens rules ending stop reader tokens).outcome := by
  induction tokens generalizing reader with
  | nil => rfl
  | cons token tokens ih =>
    by_cases blank : token.kind = .blank
    · have dropped : Token.significant (token :: tokens) = Token.significant tokens :=
        List.filter_cons_of_neg (by simp [blank])
      rw [outcome_of_advance (.blank blank), dropped, ih]
    · have kept : Token.significant (token :: tokens) = token :: Token.significant tokens :=
        List.filter_cons_of_pos (decide_eq_true blank)
      rw [kept]
      cases taken : reader.step rules token with
      | stop outcome => rw [outcome_of_stop taken, outcome_of_stop taken]
      | more next =>
        have advance := step_eq_more_iff.mp taken
        rw [outcome_of_advance advance, outcome_of_advance advance, ih]

/-- Induction over a reading: what each token keeps of a reader holds where the reader stops. -/
theorem outcome_induction {P : Reader → Prop} {Q : Except SyntaxError (List Ty) → Prop}
    {tokens : List Token}
    (keep : ∀ {reader next token}, token ∈ tokens ∨ token = .atEnd stop → P reader →
      Advance rules reader token next → P next)
    (halt : ∀ {reader token outcome}, token ∈ tokens ∨ token = .atEnd stop → P reader →
      reader.step rules token = .stop outcome → Q outcome)
    (invalid : ∀ c : Char, Q (.error ⟨.invalidCharacter, stop, some c.toString⟩))
    (initial : P reader) : Q (ofTokens rules ending stop reader tokens).outcome := by
  induction tokens generalizing reader with
  | nil =>
    cases ending with
    | finished => exact drain_induction (keep (.inr rfl)) (halt (.inr rfl)) initial
    | invalid c => exact invalid c
  | cons token tokens ih =>
    cases taken : reader.step rules token with
    | stop outcome =>
      rw [outcome_of_stop taken]
      exact halt (.inl (by simp)) initial taken
    | more next =>
      have advance := step_eq_more_iff.mp taken
      rw [outcome_of_advance advance]
      exact ih (fun member => keep (member.imp_left (List.mem_cons_of_mem _)))
        (fun member => halt (member.imp_left (List.mem_cons_of_mem _)))
        (keep (.inl (by simp)) initial advance)

/-- Two readings agree if their steps do, unless the first fails at a token where they do not. The
end of the input counts as a token, as often as it is taken. -/
theorem outcome_lockstep {other : Rules} {Fails : Reader → Token → SyntaxError → Prop}
    (agree : ∀ reader token, reader.step rules token = reader.step other token ∨
      ∃ e, Fails reader token e ∧ reader.step rules token = .stop (.error e))
    (tokens : List Token) :
    (ofTokens rules ending stop reader tokens).outcome =
        (ofTokens other ending stop reader tokens).outcome ∨
      ∃ ends before token last e,
        before ++ [token] <+: tokens ++ List.replicate ends (.atEnd stop) ∧
        Reads rules reader before last ∧ Fails last token e ∧
        (ofTokens rules ending stop reader tokens).outcome = .error e := by
  induction tokens generalizing reader with
  | nil =>
    cases ending with
    | invalid c => exact .inl rfl
    | finished =>
      refine (drain_lockstep agree).imp_right ?_
      rintro ⟨ends, last, e, reads, fails, failed⟩
      -- One more end is taken than the run of the first reading has: the one that fails.
      refine ⟨ends + 1, _, _, last, e, ⟨[], ?_⟩, reads, fails, failed⟩
      rw [List.append_nil, List.nil_append, List.replicate_succ']
  | cons token tokens ih =>
    rcases agree reader token with same | ⟨e, fails, stopped⟩
    · cases taken : reader.step rules token with
      | stop outcome =>
        left
        rw [outcome_of_stop taken, outcome_of_stop (same.symm.trans taken)]
      | more next =>
        have advance := step_eq_more_iff.mp taken
        have advance' := step_eq_more_iff.mp (same.symm.trans taken)
        rw [outcome_of_advance advance, outcome_of_advance advance']
        refine ih.imp_right ?_
        rintro ⟨ends, before, t, last, e, found, reads, fails, failed⟩
        exact ⟨ends, token :: before, t, last, e, List.cons_prefix_cons.mpr ⟨rfl, found⟩,
          .cons advance reads, fails, failed⟩
    · exact .inr ⟨0, [], token, reader, e, by simp, .nil, fails, outcome_of_stop stopped⟩

end Reading

end DocTypes
