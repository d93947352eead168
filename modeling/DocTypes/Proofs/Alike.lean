import Mathlib.Data.List.Forall2
import DocTypes.Proofs.Concatenation
import DocTypes.Proofs.Run

/-!
# The places of tokens make no difference

Two tokens are alike when they have the same kind and, if they are names, the same text. Two readers
are alike when they differ at most in the opening brackets that they remember. Alike tokens lead
alike readers to alike readers (`Reads.alike`), which stop with the same types
(`step_eq_ok_of_alike`). So tokens may be moved to other places in a text.
-/

namespace DocTypes

/-- The tokens have the same kind and, if they are names, the same text. -/
def Token.Alike (token other : Token) : Prop :=
  token.kind = other.kind ∧ (token.kind = .name → token.text = other.text)

theorem Token.alike_moved (token : Token) (position : Nat) :
    Alike token { token with position := position } :=
  ⟨rfl, fun _ => rfl⟩

/-- No terminator is lengthened by what follows it. -/
theorem Token.ends_of_isTerminator {kind : Kind} (ends : kind.isTerminator = true)
    (text rest : List Char) : kind.Ends text rest := by
  cases kind with
  | name | blank => cases ends
  | _ => trivial

theorem Token.alike_place (position : Nat) (tokens : List Token) :
    List.Forall₂ Alike tokens (place position tokens) := by
  induction tokens generalizing position with
  | nil => exact .nil
  | cons token tokens ih => exact .cons (alike_moved token position) (ih _)

namespace Reader

/-- The frames differ at most in their opening brackets. -/
def Frame.Alike (frame other : Frame) : Prop :=
  frame.types = other.types ∧ frame.group = other.group

/-- The readers differ at most in the opening brackets that they remember. -/
structure Alike (reader other : Reader) : Prop where
  types : reader.types = other.types
  slot : reader.slot = other.slot
  frames : List.Forall₂ Frame.Alike reader.frames other.frames

section Alike

variable {rules : Rules} {reader next last other : Reader} {token token' : Token}
  {tokens tokens' : List Token} {types : List Ty} {frame frame' : Frame}
  {frames frames' : List Frame}

theorem Alike.refl (reader : Reader) : Alike reader reader :=
  ⟨rfl, rfl, List.forall₂_same.mpr fun _ _ => ⟨rfl, rfl⟩⟩

theorem Alike.closer (alike : Alike reader other) : reader.closer = other.closer := by
  obtain ⟨_, _, frames⟩ := reader
  obtain ⟨_, _, frames'⟩ := other
  obtain ⟨-, -, alike⟩ := alike
  cases frames with
  | nil =>
    obtain rfl : frames' = [] := List.forall₂_nil_left_iff.mp alike
    rfl
  | cons frame frames =>
    obtain ⟨_, _, first, -, rfl⟩ := List.forall₂_cons_left_iff.mp alike
    exact congrArg Group.closer first.2

theorem Closes.alike (closes : Closes frame types frames next) (frameAlike : Frame.Alike frame frame')
    (framesAlike : List.Forall₂ Frame.Alike frames frames') :
    ∃ next', Closes frame' types frames' next' ∧ Alike next next' := by
  obtain ⟨before, same⟩ := frameAlike
  cases closes with
  | collection group other =>
    exact ⟨_, .collection (same ▸ group) other, before, rfl, framesAlike⟩
  | shorthand group pair =>
    exact ⟨_, .shorthand (same ▸ group) pair, before, rfl, framesAlike⟩
  | tuple group => exact ⟨_, .tuple (same ▸ group), before, rfl, framesAlike⟩
  | keys group =>
    exact ⟨_, .keys (same ▸ group), rfl, rfl, .cons ⟨before, rfl⟩ framesAlike⟩
  | values group => exact ⟨_, .values (same ▸ group), before, rfl, framesAlike⟩

/-- An alike token leads an alike reader to an alike reader. -/
theorem Advance.alike (advance : Advance rules reader token next) (readers : Alike reader other)
    (tokens : Token.Alike token token') :
    ∃ next', Advance rules other token' next' ∧ Alike next next' := by
  obtain ⟨types, slot, frames⟩ := readers
  have closer := Alike.closer ⟨types, slot, frames⟩
  obtain ⟨same, text⟩ := tokens
  cases advance with
  | blank kind => exact ⟨_, .blank (same ▸ kind), types, slot, frames⟩
  | name kind empty =>
    exact ⟨_, .name (same ▸ kind) (slot ▸ empty), types, by rw [text kind], frames⟩
  | separator kind stands =>
    exact ⟨_, .separator (same ▸ kind) (slot ▸ stands), by rw [types], rfl, frames⟩
  | opener opens first room =>
    rw [slot, same] at opens
    rw [slot] at first
    rw [frames.length_eq] at room
    exact ⟨_, .opener opens first room, rfl, rfl, .cons ⟨types, rfl⟩ frames⟩
  | terminator ends stands right inner closes =>
    rw [inner] at frames
    obtain ⟨frame', frames', frame, frames, inner'⟩ := List.forall₂_cons_left_iff.mp frames
    rw [types] at closes
    rw [slot] at stands
    rw [same, closer] at right
    obtain ⟨next', closes', alike⟩ := closes.alike frame frames
    exact ⟨next', .terminator (same ▸ ends) stands right inner' closes', alike⟩

/-- Alike tokens lead an alike reader to an alike reader. -/
theorem Reads.alike (reads : Reads rules reader tokens last) (readers : Alike reader other)
    (alike : List.Forall₂ Token.Alike tokens tokens') :
    ∃ last', Reads rules other tokens' last' ∧ Alike last last' := by
  induction reads generalizing other tokens' with
  | nil =>
    cases alike
    exact ⟨other, .nil, readers⟩
  | cons advance _ ih =>
    cases alike with
    | cons first rest =>
      obtain ⟨next', advance', between⟩ := advance.alike readers first
      obtain ⟨last', reads', after⟩ := ih between rest
      exact ⟨last', .cons advance' reads', after⟩

/-- Alike readers stop with the same types at alike tokens. -/
theorem step_eq_ok_of_alike (stops : reader.step rules token = .stop (.ok types))
    (readers : Alike reader other) (alike : Token.Alike token token') :
    other.step rules token' = .stop (.ok types) := by
  obtain ⟨ends, type, stands, right, outermost, rfl⟩ := step_eq_ok_iff.mp stops
  rw [readers.slot] at stands
  rw [alike.1, readers.closer] at right
  have frames := readers.frames
  rw [outermost] at frames
  have outermost' : other.frames = [] := List.forall₂_nil_left_iff.mp frames
  exact step_eq_ok_iff.mpr ⟨alike.1 ▸ ends, type, stands, right, outermost', by rw [readers.types]⟩

end Alike

end Reader

section Texts

open Reader

variable {mode : Mode} {tokens before : List Token} {closer : Token} {reader last : Reader}
  {types : List Ty}

/-- Tokens that are read to the end of the input are read so from their concatenated text. -/
theorem parse_concat (forms : ∀ token ∈ tokens, token.kind.Form token.text.toList)
    (apart : tokens.IsChain fun first second => ¬ Token.Merges first second)
    (reads : Reads mode.rules .start tokens last)
    (stops : ∀ stop, last.step mode.rules (.atEnd stop) = .stop (.ok types)) :
    parse mode (Token.concat tokens) = .ok types := by
  obtain ⟨last', reads', alike⟩ := reads.alike (.refl _) (Token.alike_place 0 tokens)
  show (Reading.ofText mode.rules (Token.concat tokens)).outcome = .ok types
  rw [Reading.ofText, Scan.ofText_concat forms apart]
  calc
    (Reading.ofTokens mode.rules .finished _ .start (Token.place 0 tokens)).outcome
      = (Reading.ofTokens mode.rules .finished _ .start (Token.place 0 tokens ++ [])).outcome := by
        rw [List.append_nil]
    _ = (Reading.ofTokens mode.rules .finished _ last' []).outcome :=
        Reading.outcome_of_reads reads'
    _ = last'.drain mode.rules (.atEnd _) := Reading.outcome_of_finished
    _ = .ok types := drain_of_stop (step_eq_ok_of_alike (stops _) alike ⟨rfl, fun _ => rfl⟩)

/-- Tokens that are read up to a terminator are read so from a text that starts with them, whatever
follows the terminator. -/
theorem parse_concat_append
    (forms : ∀ token ∈ before ++ [closer], token.kind.Form token.text.toList)
    (apart : (before ++ [closer]).IsChain fun first second => ¬ Token.Merges first second)
    (reads : Reads mode.rules .start before reader)
    (stops : reader.step mode.rules closer = .stop (.ok types)) (after : String) :
    parse mode (Token.concat (before ++ [closer]) ++ after) = .ok types := by
  have ends : ∀ token ∈ (before ++ [closer]).getLast?,
      token.kind.Ends token.text.toList after.toList := by
    rw [List.getLast?_concat]
    rintro _ ⟨⟩
    exact Token.ends_of_isTerminator (step_eq_ok_iff.mp stops).1 _ _
  have yields := Scan.yields_place forms apart ends 0
  obtain ⟨reader', reads', alike⟩ := reads.alike (.refl _) (Token.alike_place 0 before)
  show (Reading.ofText mode.rules (Token.concat (before ++ [closer]) ++ after)).outcome = .ok types
  rw [Reading.ofText, Scan.ofText, String.toList_append, Scan.ofChars_of_yields_append yields,
    Token.place_append, List.append_assoc]
  refine (Reading.outcome_of_reads reads').trans (Reading.outcome_of_stop ?_)
  exact step_eq_ok_of_alike stops alike (Token.alike_moved closer _)

end Texts

end DocTypes
