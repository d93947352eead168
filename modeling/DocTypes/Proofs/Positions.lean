import DocTypes.Proofs.Concatenation
import DocTypes.Proofs.Run

/-!
# Where errors are reported

The tokens of a scan tile the text: each stands where the tokens before it end, and so does the end
of the scan (`Scan.place_tokens`).

An error is found at the token that is refused or, if a collection named as a hash has the wrong
number of types, at the bracket that opened it. Either way the tokens before that place were read
(`Reading.error_found`). The invariant of a run is that this holds for the opening brackets of all
open groups; a token that is read keeps it (`Advance.openers_subset`).

So an error points into the text, where its token stands (`error_points_at_token`).
-/

namespace DocTypes

open Reader

/-! ## Tokens tile the text -/

namespace Token

variable {position : Nat} {token : Token} {front back : List Token}

/-- A token stands where the tokens before it end. -/
theorem position_of_place
    (placed : place position (front ++ token :: back) = front ++ token :: back) :
    token.position = position + (concat front).utf8ByteSize := by
  induction front generalizing position with
  | nil => exact (congrArg Token.position (List.cons.inj placed).1).symm
  | cons first front ih =>
    rw [ih (List.cons.inj placed).2, utf8ByteSize_concat_cons, Nat.add_assoc]

end Token

namespace Scan

/-- The tokens of a scan and its end follow one another without a gap. -/
theorem place_tokens (position : Nat) (text : List Char) :
    Token.place position
        ((ofChars position text).tokens ++ [.atEnd (ofChars position text).stop]) =
      (ofChars position text).tokens ++ [.atEnd (ofChars position text).stop] := by
  fun_induction ofChars position text with
  | case1 position text kind lexeme rest found first scan ih =>
    exact congrArg (first :: ·) ih
  | case2 => rfl
  | case3 => rfl

/-- A token of a text stands where the tokens before it end, and so does the end of the scan. -/
theorem position_of_tokens (text : String) {token : Token} (front back : List Token)
    (whole : front ++ token :: back = (ofText text).tokens ++ [.atEnd (ofText text).stop]) :
    token.position = (Token.concat front).utf8ByteSize := by
  have placed : Token.place 0 (front ++ token :: back) = front ++ token :: back := by
    rw [whole]
    exact place_tokens 0 text.toList
  rw [Token.position_of_place placed, Nat.zero_add]

theorem position_of_append {text : String} {token : Token} {front back : List Token}
    (whole : front ++ token :: back = (ofText text).tokens) :
    token.position = (Token.concat front).utf8ByteSize :=
  position_of_tokens text front (back ++ [.atEnd (ofText text).stop]) (by simp [← whole])

/-- No token of a scan is empty. -/
theorem utf8ByteSize_pos {position : Nat} {text : List Char} {token : Token}
    (member : token ∈ (ofChars position text).tokens) : 0 < token.text.utf8ByteSize := by
  obtain ⟨c, tail, starts, -⟩ := (form_of_mem_tokens member).head
  refine Nat.pos_of_ne_zero fun none => ?_
  rw [String.utf8ByteSize_eq_zero_iff.mp none] at starts
  cases starts

/-- The tokens that start before a byte offset. -/
def before (scan : Scan) (position : Nat) : List Token :=
  scan.tokens.filter (·.position < position)

/-- The first tokens of a text are those that start before the place where they end. -/
theorem before_concat {text : String} {front : List Token}
    (first : front <+: (ofText text).tokens) :
    (ofText text).before (Token.concat front).utf8ByteSize = front := by
  obtain ⟨back, whole⟩ := first
  have inside : ∀ token ∈ front, token.position < (Token.concat front).utf8ByteSize := by
    intro token member
    have some := utf8ByteSize_pos (whole ▸ List.mem_append_left back member)
    obtain ⟨before, after, rfl⟩ := List.append_of_mem member
    have position : token.position = _ :=
      position_of_append (whole ▸ (List.append_assoc before (token :: after) back).symm)
    rw [Token.concat_append, String.utf8ByteSize_append, Token.utf8ByteSize_concat_cons]
    omega
  have outside : ∀ token ∈ back, ¬ token.position < (Token.concat front).utf8ByteSize := by
    intro token member
    obtain ⟨before, after, rfl⟩ := List.append_of_mem member
    have position : token.position = _ :=
      position_of_append ((List.append_assoc front before (token :: after)).trans whole)
    rw [Token.concat_append, String.utf8ByteSize_append] at position
    omega
  have kept := List.filter_eq_self.mpr fun token member => decide_eq_true (inside token member)
  have dropped := List.filter_eq_nil_iff.mpr fun token member =>
    mt of_decide_eq_true (outside token member)
  rw [before, ← whole, List.filter_append, kept, dropped, List.append_nil]

end Scan

/-! ## Errors of one step -/

namespace Reader

/-- The brackets that opened the open groups, innermost first. -/
def openers (reader : Reader) : List Token :=
  reader.frames.map Frame.opener

section Step

variable {rules : Rules} {reader next : Reader} {token : Token} {frame : Frame}
  {frames : List Frame} {types : List Ty} {e : SyntaxError}

theorem error_of_finished (failed : reader.finished token = .error e) :
    ∃ problem, e = token.error problem := by
  unfold finished at failed
  split at failed <;> cases failed
  exact ⟨_, rfl⟩

/-- A group whose list does not fit is refused at its opening bracket. -/
theorem error_of_frame_close (failed : frame.close types frames = .error e) :
    ∃ problem, e = frame.opener.error problem := by
  unfold Frame.close at failed
  split at failed
  case h_1 =>
    split at failed
    · split at failed <;> cases failed
      exact ⟨_, rfl⟩
    · cases failed
  all_goals cases failed

theorem error_of_close (failed : reader.close rules token = .stop (.error e)) :
    ∃ place ∈ token :: reader.openers, ∃ problem, e = place.error problem := by
  unfold close at failed
  split at failed
  · next unfinished =>
    cases failed
    exact ⟨token, by simp, error_of_finished unfinished⟩
  · split at failed
    · cases failed
      exact ⟨token, by simp, _, rfl⟩
    · split at failed
      · cases failed
      · next frame frames inner =>
        split at failed <;> cases failed
        next refused =>
        exact ⟨frame.opener, by simp [openers, inner], error_of_frame_close refused⟩

/-- A token is refused where it stands, or at the opening bracket of a group that it ends. -/
theorem error_of_step (failed : reader.step rules token = .stop (.error e)) :
    ∃ place ∈ token :: reader.openers, ∃ problem, e = place.error problem := by
  rcases kind_cases reader.slot.name? token.kind with kind | kind | kind | ⟨group, opens⟩ | ends
  · simp only [step, kind] at failed
    cases failed
  · simp only [step, kind, takeName] at failed
    split at failed <;> cases failed
    exact ⟨token, by simp, _, rfl⟩
  · simp only [step, kind, separate] at failed
    split at failed <;> cases failed
    next unfinished => exact ⟨token, by simp, error_of_finished unfinished⟩
  · rw [step_of_opened? opens, enter] at failed
    refine ⟨token, by simp, ?_⟩
    split at failed
    · cases failed
      exact ⟨_, rfl⟩
    · split at failed <;> cases failed
      exact ⟨_, rfl⟩
  · rw [step_of_isTerminator ends] at failed
    exact error_of_close failed

theorem Closes.openers_subset (closes : Closes frame types frames next) :
    next.openers ⊆ (frame :: frames).map Frame.opener := by
  cases closes with
  | keys => exact fun _ member => member
  | _ => exact List.subset_cons_self _ _

/-- A group that is open after a token was open before it, or the token has opened it. -/
theorem Advance.openers_subset (advance : Advance rules reader token next) :
    next.openers ⊆ token :: reader.openers := by
  cases advance with
  | opener => exact fun _ member => member
  | terminator ends stands right inner closes =>
    have before : reader.openers = _ := congrArg (List.map Frame.opener) inner
    rw [before]
    exact List.subset_cons_of_subset _ closes.openers_subset
  | _ => exact List.subset_cons_self _ _

end Step

end Reader

/-! ## Errors of a reading -/

/-- `FoundAfter scan front e`: the error `e` of a scan is found after the tokens `front`.

* `token`: at the next token.
* `finish`: at the end of the text, after all tokens.
* `invalid`: before a character that starts no token, after all tokens. -/
inductive Scan.FoundAfter (scan : Scan) : List Token → SyntaxError → Prop
  | token {front : List Token} {token : Token} {problem : SyntaxError.Problem} :
      front ++ [token] <+: scan.tokens → FoundAfter scan front (token.error problem)
  | finish {problem : SyntaxError.Problem} :
      scan.ending = .finished →
      FoundAfter scan scan.tokens ((Token.atEnd scan.stop).error problem)
  | invalid {c : Char} :
      scan.ending = .invalid c →
      FoundAfter scan scan.tokens ⟨.invalidCharacter, scan.stop, some c.toString⟩

/-- The tokens before this one are read, and an error at it is found after them. -/
def Reader.Reached (rules : Rules) (scan : Scan) (token : Token) : Prop :=
  ∃ front last, Reads rules .start front last ∧
    ∀ problem, scan.FoundAfter front (token.error problem)

/-- An error is found after tokens that are read. The tokens in `front` are those read so far. -/
theorem Reading.error_found {rules : Rules} {scan : Scan} {reader : Reader}
    {front tokens : List Token} {e : SyntaxError} (whole : front ++ tokens = scan.tokens)
    (reads : Reads rules .start front reader)
    (openers : ∀ opener ∈ reader.openers, Reached rules scan opener)
    (failed : (ofTokens rules scan.ending scan.stop reader tokens).outcome = .error e) :
    ∃ front last, Reads rules .start front last ∧ scan.FoundAfter front e := by
  induction tokens generalizing front reader with
  | nil =>
    obtain rfl : front = scan.tokens := by rw [← whole, List.append_nil]
    cases ending : scan.ending with
    | invalid c =>
      rw [ending] at failed
      cases failed
      exact ⟨_, reader, reads, .invalid ending⟩
    | finished =>
      rw [ending] at failed
      have here : Reached rules scan (.atEnd scan.stop) :=
        ⟨_, reader, reads, fun _ => .finish ending⟩
      -- However often the end is taken, all tokens are read before it.
      refine drain_induction
        (P := fun reader => ∀ opener ∈ reader.openers, Reached rules scan opener)
        (Q := fun outcome => outcome = .error e → _) ?_ ?_ openers failed
      · intro reader next openers advance
        exact fun opener member => (List.forall_mem_cons.mpr ⟨here, openers⟩) opener
          (advance.openers_subset member)
      · rintro reader outcome openers stops rfl
        obtain ⟨place, member, problem, rfl⟩ := error_of_step stops
        obtain ⟨front, last, reads, found⟩ :=
          (List.forall_mem_cons.mpr ⟨here, openers⟩) place member
        exact ⟨front, last, reads, found problem⟩
  | cons token tokens ih =>
    have here : Reached rules scan token :=
      ⟨front, reader, reads, fun _ => .token ⟨tokens, by simp [← whole]⟩⟩
    have reached := List.forall_mem_cons.mpr ⟨here, openers⟩
    cases taken : reader.step rules token with
    | stop outcome =>
      rw [outcome_of_stop taken] at failed
      subst failed
      obtain ⟨place, member, problem, rfl⟩ := error_of_step taken
      obtain ⟨front, last, reads, found⟩ := reached place member
      exact ⟨front, last, reads, found problem⟩
    | more next =>
      have advance := step_eq_more_iff.mp taken
      rw [outcome_of_advance advance] at failed
      exact ih (by simp [← whole]) (reads.snoc advance)
        (fun opener member => reached opener (advance.openers_subset member)) failed

section Texts

variable {mode : Mode} {text : String} {front : List Token} {e : SyntaxError}

theorem exists_found_of_parse_error (failed : parse mode text = .error e) :
    ∃ front last, Reads mode.rules .start front last ∧ (Scan.ofText text).FoundAfter front e :=
  Reading.error_found (List.nil_append _) .nil (fun _ none => by cases none) failed

/-- The tokens before an error are the first ones of the text, and it is found where they end. -/
theorem Scan.FoundAfter.position (found : (ofText text).FoundAfter front e) :
    front <+: (ofText text).tokens ∧ e.position = (Token.concat front).utf8ByteSize := by
  have stop : (ofText text).stop = (Token.concat (ofText text).tokens).utf8ByteSize :=
    position_of_tokens text _ [] rfl
  cases found with
  | @token front token _ first =>
    obtain ⟨back, whole⟩ := first
    refine ⟨⟨token :: back, by simp [← whole]⟩, ?_⟩
    exact position_of_append (by simpa using whole)
  | finish => exact ⟨List.prefix_rfl, stop⟩
  | invalid => exact ⟨List.prefix_rfl, stop⟩

/-- An error of a text is found at a byte offset where tokens end that are read. -/
theorem position_of_parse_error (failed : parse mode text = .error e) :
    ∃ front last, front <+: (Scan.ofText text).tokens ∧ Reads mode.rules .start front last ∧
      e.position = (Token.concat front).utf8ByteSize := by
  obtain ⟨front, last, reads, found⟩ := exists_found_of_parse_error failed
  exact ⟨front, last, found.position.1, reads, found.position.2⟩

/-- What is found after some tokens stands in the text behind them: a token, a character that starts
no token, or the end of the text. -/
theorem Scan.FoundAfter.exists_rest (found : (ofText text).FoundAfter front e) :
    ∃ rest, text = Token.concat front ++ rest ∧
      (∀ token ∈ e.token, token ≠ "" ∧ ∃ after, rest = token ++ after) ∧
      (e.token = none → rest = "") := by
  cases found with
  | @token front token problem first =>
    have member : token ∈ (ofText text).tokens := first.subset (by simp)
    have kind : token.kind ≠ .finish := kind_ne_finish member
    have some : (token.error problem).token = some token.text := if_neg kind
    obtain ⟨after, parts⟩ := exists_eq_concat_append first
    refine ⟨token.text ++ after, ?_, ?_, fun none => by cases some.symm.trans none⟩
    · rw [parts, Token.concat_append, String.append_assoc]
      simp [Token.concat]
    · rw [some]
      rintro _ ⟨⟩
      have size := utf8ByteSize_pos member
      exact ⟨fun empty => by simp [empty] at size, after, rfl⟩
  | finish ending =>
    refine ⟨"", ?_, fun _ none => (by cases none), fun _ => rfl⟩
    rw [concat_tokens ending, String.append_empty]
  | @invalid c ending =>
    obtain ⟨rest, parts, stands⟩ := exists_eq_concat_tokens text
    rw [ending] at stands
    refine ⟨rest, parts, ?_, fun none => by cases none⟩
    rintro _ ⟨⟩
    cases starts : rest.toList with
    | nil => cases starts ▸ stands
    | cons d tail =>
      cases starts ▸ stands
      refine ⟨by simp [← String.toList_inj], String.ofList tail, ?_⟩
      simp [← String.toList_inj, starts]

/-- An error points into the text. Its byte offset lies between two characters of the text, or at
one of its ends, and what follows there starts with its token. An error without a token is found at
the end of the text. -/
theorem error_points_at_token (failed : parse mode text = .error e) :
    e.position ≤ text.utf8ByteSize ∧
      (∃ front back, text = front ++ back ∧ front.utf8ByteSize = e.position ∧
        ∀ token ∈ e.token, token ≠ "" ∧ ∃ rest, back = token ++ rest) ∧
      (e.token = none → e.position = text.utf8ByteSize) := by
  obtain ⟨front, last, reads, found⟩ := exists_found_of_parse_error failed
  obtain ⟨rest, parts, starts, ends⟩ := found.exists_rest
  have position := found.position.2
  have size : text.utf8ByteSize = e.position + rest.utf8ByteSize := by
    rw [position, ← String.utf8ByteSize_append, ← parts]
  refine ⟨by omega, ⟨_, rest, parts, position.symm, starts⟩, fun none => ?_⟩
  rw [size, ends none, String.utf8ByteSize_empty, Nat.add_zero]

end Texts

/-- The wrong number of types in a hash is found at the bracket that opened it, although reading has
gone on to the last bracket. -/
theorem error_points_at_token_opener :
    parse .permissive "A, Hash<B\x7d é" = .error ⟨.shorthandArity 1, 7, some "<"⟩ ∧
      7 ≤ "A, Hash<B\x7d é".utf8ByteSize ∧
      ∃ front back, "A, Hash<B\x7d é" = front ++ back ∧ front.utf8ByteSize = 7 ∧
        ∃ rest, back = "<" ++ rest := by
  have failed : parse .permissive "A, Hash<B\x7d é" = .error ⟨.shorthandArity 1, 7, some "<"⟩ := by
    decide +kernel
  obtain ⟨inside, ⟨front, back, parts, position, starts⟩, -⟩ := error_points_at_token failed
  exact ⟨failed, inside, front, back, parts, position, (starts "<" rfl).2⟩

end DocTypes
