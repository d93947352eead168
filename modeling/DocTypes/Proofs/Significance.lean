import DocTypes.Proofs.Alike

/-!
# What makes a difference to the types

A mode uses little of a token: its kind and, if it is a name, its text. It does not matter where the
token stands, nor how a separator is spelled. In permissive mode it does not matter either which
closer a closer is. This is the `sense` of a token, and the sense of a scan is that of its tokens
without the blanks, with the way it ended.

Tokens of one sense lead alike readers to the same types (`Reading.ok_of_sense`). So texts of one
sense have the same types, or both have none (`parse_of_sense`).
-/

namespace DocTypes

open Reader

/-- The kind as a mode tells it apart. In permissive mode the closers are one kind. -/
def Token.Kind.seen : Mode → Kind → Kind
  | .permissive, .tupleEnd | .permissive, .hashArrow | .permissive, .hashEnd => .collectionEnd
  | _, kind => kind

/-- What a mode uses of a token: its kind as the mode tells it apart, and the text of a name. -/
def Token.sense (mode : Mode) (token : Token) : Kind × Option String :=
  (token.kind.seen mode, if token.kind = .name then some token.text else none)

/-- What a mode uses of a scan: its tokens other than blanks, and whether it came to the end of the
text. -/
def Scan.sense (mode : Mode) (scan : Scan) : List (Token.Kind × Option String) × Bool :=
  ((Token.significant scan.tokens).map (Token.sense mode), decide (scan.ending = .finished))

section Sense

variable {mode : Mode} {token other : Token} {scan scan' : Scan}

theorem Token.Kind.seen_strict (kind : Kind) : kind.seen .strict = kind := by
  cases kind <;> rfl

/-- A mode takes two kinds for one only if they are one, or if it is permissive and they end
lists. -/
theorem Token.Kind.eq_or_of_seen {kind kind' : Kind} (same : kind.seen mode = kind'.seen mode) :
    kind = kind' ∨ mode = .permissive ∧ kind.isTerminator = true ∧ kind'.isTerminator = true := by
  cases mode with
  | strict => exact .inl (by rwa [seen_strict, seen_strict] at same)
  | permissive => cases kind <;> cases kind' <;> simp_all [seen, isTerminator]

/-- Tokens of one sense are alike, or the mode is permissive and they end lists. -/
theorem Token.alike_or_of_sense (same : token.sense mode = other.sense mode) :
    Alike token other ∨
      mode = .permissive ∧ token.kind.isTerminator = true ∧ other.kind.isTerminator = true := by
  obtain ⟨seen, text⟩ := Prod.mk.inj same
  refine (Kind.eq_or_of_seen seen).imp_left fun kinds => ⟨kinds, fun name => ?_⟩
  rw [if_pos name, if_pos (kinds ▸ name)] at text
  exact Option.some.inj text

/-- What is one to strict mode is one to each mode. -/
theorem Scan.sense_of_strict (same : scan.sense .strict = scan'.sense .strict) :
    scan.sense mode = scan'.sense mode := by
  have coarser : Token.sense mode =
      Prod.map (Token.Kind.seen mode) id ∘ Token.sense .strict := by
    funext token
    simp only [Function.comp_apply, Token.sense, Token.Kind.seen_strict, Prod.map, id]
  obtain ⟨tokens, ending⟩ := Prod.mk.inj same
  rw [sense, sense, coarser, ← List.map_map, ← List.map_map, tokens, ending]

end Sense

namespace Reader

section Sense

variable {mode : Mode} {nesting : Option Nat} {reader next other : Reader} {token token' : Token}
  {types : List Ty}

/-- In permissive mode any token that ends a list does what any other does. -/
theorem Advance.of_isTerminator {rules : Rules} (advance : Advance rules reader token next)
    (permissive : rules.mode = .permissive) (ends : token.kind.isTerminator = true)
    (ends' : token'.kind.isTerminator = true) : Advance rules reader token' next := by
  obtain ⟨type, frame, frames, stands, -, inner, closes⟩ :=
    close_eq_more_iff.mp (step_of_isTerminator ends ▸ step_eq_more_iff.mpr advance)
  exact .terminator ends' stands (fun strict => by cases permissive.symm.trans strict) inner closes

/-- Tokens of one sense lead alike readers to alike readers. -/
theorem Advance.of_sense (advance : Advance ⟨mode, nesting⟩ reader token next)
    (readers : Alike reader other) (same : token.sense mode = token'.sense mode) :
    ∃ next', Advance ⟨mode, nesting⟩ other token' next' ∧ Alike next next' := by
  rcases Token.alike_or_of_sense same with alike | ⟨permissive, ends, ends'⟩
  · exact advance.alike readers alike
  · exact (advance.of_isTerminator permissive ends ends').alike readers ⟨rfl, fun _ => rfl⟩

/-- Tokens of one sense stop alike readers with the same types. -/
theorem step_eq_ok_of_sense (stops : reader.step ⟨mode, nesting⟩ token = .stop (.ok types))
    (readers : Alike reader other) (same : token.sense mode = token'.sense mode) :
    other.step ⟨mode, nesting⟩ token' = .stop (.ok types) := by
  rcases Token.alike_or_of_sense same with alike | ⟨permissive, ends, ends'⟩
  · exact step_eq_ok_of_alike stops readers alike
  · obtain ⟨-, type, stands, -, outermost, eq⟩ := step_eq_ok_iff.mp stops
    have right : mode = .strict → token'.kind = reader.closer :=
      fun strict => by cases permissive.symm.trans strict
    have stops' : reader.step ⟨mode, nesting⟩ token' = .stop (.ok types) :=
      step_eq_ok_iff.mpr ⟨ends', type, stands, right, outermost, eq⟩
    exact step_eq_ok_of_alike stops' readers ⟨rfl, fun _ => rfl⟩

/-- The end of the input leads alike readers to the same types. -/
theorem drain_of_alike {stop : Nat} (readers : Alike reader other)
    (read : reader.drain ⟨mode, nesting⟩ (.atEnd stop) = .ok types) (stop' : Nat) :
    other.drain ⟨mode, nesting⟩ (.atEnd stop') = .ok types := by
  have ends : (Token.atEnd stop).Alike (.atEnd stop') := ⟨rfl, fun _ => rfl⟩
  -- What is kept is that an alike reader comes to what `other` comes to.
  refine drain_induction
    (P := fun reader => ∃ along, Alike reader along ∧
      along.drain ⟨mode, nesting⟩ (.atEnd stop') = other.drain ⟨mode, nesting⟩ (.atEnd stop'))
    (Q := fun outcome => outcome = .ok types →
      other.drain ⟨mode, nesting⟩ (.atEnd stop') = .ok types)
    ?_ ?_ ⟨other, readers, rfl⟩ read
  · rintro reader next ⟨along, readers, same⟩ advance
    obtain ⟨along', advance', readers'⟩ := advance.alike readers ends
    exact ⟨along', readers', (drain_of_more (step_eq_more_iff.mpr advance')).symm.trans same⟩
  · rintro reader outcome ⟨along, readers, same⟩ stops rfl
    rw [← same]
    exact drain_of_stop (step_eq_ok_of_alike stops readers ends)

end Sense

end Reader

/-- Tokens of one sense lead alike readers to the same types. -/
theorem Reading.ok_of_sense {mode : Mode} {nesting : Option Nat} {ending ending' : Scan.Ending}
    {stop stop' : Nat} {reader other : Reader} {tokens tokens' : List Token} {types : List Ty}
    (same : tokens.map (Token.sense mode) = tokens'.map (Token.sense mode))
    (endings : ending = .finished → ending' = .finished) (readers : Alike reader other)
    (read : (ofTokens ⟨mode, nesting⟩ ending stop reader tokens).outcome = .ok types) :
    (ofTokens ⟨mode, nesting⟩ ending' stop' other tokens').outcome = .ok types := by
  induction tokens generalizing reader other tokens' with
  | nil =>
    obtain rfl : tokens' = [] := List.map_eq_nil_iff.mp same.symm
    cases ending with
    | invalid c => cases read
    | finished =>
      rw [endings rfl]
      exact drain_of_alike readers read stop'
  | cons token tokens ih =>
    obtain ⟨token', tokens', rfl, first, rest⟩ := List.map_eq_cons_iff.mp same.symm
    cases taken : reader.step ⟨mode, nesting⟩ token with
    | stop outcome =>
      rw [outcome_of_stop taken] at read
      subst read
      exact outcome_of_stop (step_eq_ok_of_sense taken readers first.symm)
    | more next =>
      have advance := step_eq_more_iff.mp taken
      rw [outcome_of_advance advance] at read
      obtain ⟨next', advance', readers'⟩ := advance.of_sense readers first.symm
      rw [outcome_of_advance advance']
      exact ih rest.symm readers' read

/-- Outcomes with the same results are the same up to their errors. -/
theorem toOption_eq_of_ok_iff {ε α : Type} {outcome outcome' : Except ε α}
    (h : ∀ result, outcome = .ok result ↔ outcome' = .ok result) :
    outcome.toOption = outcome'.toOption := by
  cases outcome with
  | ok result => rw [(h result).mp rfl]
  | error e =>
    cases outcome' with
    | ok result => cases (h result).mpr rfl
    | error e' => rfl

section Texts

variable {mode : Mode} {text other : String}

theorem parse_ok_of_sense {types : List Ty}
    (same : (Scan.ofText text).sense mode = (Scan.ofText other).sense mode)
    (read : parse mode text = .ok types) : parse mode other = .ok types := by
  obtain ⟨tokens, endings⟩ := Prod.mk.inj same
  have read : (Reading.ofTokens mode.rules (Scan.ofText text).ending (Scan.ofText text).stop .start
      (Scan.ofText text).tokens).outcome = .ok types := read
  rw [← Reading.outcome_significant] at read
  show (Reading.ofTokens mode.rules (Scan.ofText other).ending (Scan.ofText other).stop .start
    (Scan.ofText other).tokens).outcome = .ok types
  rw [← Reading.outcome_significant]
  exact Reading.ok_of_sense tokens (decide_eq_decide.mp endings).mp (.refl _) read

/-- Texts of one sense have the same types, or both have none. -/
theorem parse_of_sense (same : (Scan.ofText text).sense mode = (Scan.ofText other).sense mode) :
    (parse mode text).toOption = (parse mode other).toOption :=
  toOption_eq_of_ok_iff fun _ => ⟨parse_ok_of_sense same, parse_ok_of_sense same.symm⟩

end Texts

/-- Only the significant tokens decide about the types. Each mode reads two texts alike if strict
mode takes their tokens for the same ones. Permissive mode does so even if their closers differ. -/
theorem significant_tokens_decide (text other : String) :
    (∀ mode, (Scan.ofText text).sense .strict = (Scan.ofText other).sense .strict →
      (parse mode text).toOption = (parse mode other).toOption) ∧
    ((Scan.ofText text).sense .permissive = (Scan.ofText other).sense .permissive →
      (parse .permissive text).toOption = (parse .permissive other).toOption) :=
  ⟨fun _ same => parse_of_sense (Scan.sense_of_strict same), parse_of_sense⟩

/-- Blanks and semicolons make no difference to strict mode, and a wrong closer makes none to
permissive mode. It does to strict mode. -/
theorem significant_tokens_decide_array :
    (parse .strict "Array<A, b; #c>").toOption =
        (parse .strict "\tArray < A;b,#c > ").toOption ∧
      (parse .permissive "Array<A, b; #c>").toOption =
        (parse .permissive " Array<A;b,#c=>").toOption ∧
      (parse .strict "Array<A, b; #c>").toOption ≠
        (parse .strict " Array<A;b,#c=>").toOption :=
  ⟨(significant_tokens_decide _ _).1 .strict (by decide +kernel),
    (significant_tokens_decide _ _).2 (by decide +kernel), by decide +kernel⟩

end DocTypes
