import DocTypes.Proofs.Run

/-!
# Strict mode and permissive mode

Readers of the two modes have the same states, and a token that strict mode does not refuse leads
to the same state in both (`step_strict`). So the modes give the same outcome, unless strict mode
refuses a token: an opener after a composite, or a terminator that is not the closer of the
innermost list (`parse_strict_eq_or_refuses`).
-/

namespace DocTypes

open Reader

namespace Reader

/-- `Refuses reader token e`: strict mode stops at the token with the error `e`, which permissive
mode never gives.

* `opener`: a group is to be opened after a composite.
* `terminator`: an innermost list that could be finished is ended by something else than its own
  closer. -/
inductive Refuses (reader : Reader) (token : Token) : SyntaxError → Prop
  | opener {group : Group} :
      Group.opened? reader.slot.name? token.kind = some group → reader.slot.isComposite = true →
      Refuses reader token (token.error .unexpectedOpener)
  | terminator {type : Ty} :
      token.kind.isTerminator = true → reader.slot.type? = some type →
      token.kind ≠ reader.closer →
      Refuses reader token (token.error (.wrongCloser reader.closer))

section Step

variable {nesting : Option Nat} {reader : Reader} {token : Token}

theorem enter_strict {group : Group}
    (opens : Group.opened? reader.slot.name? token.kind = some group) :
    reader.enter ⟨.strict, nesting⟩ group token = reader.enter ⟨.permissive, nesting⟩ group token ∨
      ∃ e, Refuses reader token e ∧
        reader.enter ⟨.strict, nesting⟩ group token = .stop (.error e) := by
  cases second : reader.slot.isComposite with
  | false => exact .inl (by simp [enter, second, exceeded?])
  | true => exact .inr ⟨_, .opener opens second, by simp [enter, second]⟩

theorem close_strict (ends : token.kind.isTerminator = true) :
    reader.close ⟨.strict, nesting⟩ token = reader.close ⟨.permissive, nesting⟩ token ∨
      ∃ e, Refuses reader token e ∧ reader.close ⟨.strict, nesting⟩ token = .stop (.error e) := by
  cases stands : reader.slot.type? with
  | none => exact .inl (by rw [close_of_missing stands, close_of_missing stands])
  | some type =>
    by_cases right : token.kind = reader.closer
    · left
      cases inner : reader.frames with
      | nil => rw [close_of_outermost stands (fun _ => right) inner,
          close_of_outermost stands (fun _ => right) inner]
      | cons frame frames => rw [close_of_frame stands (fun _ => right) inner,
          close_of_frame stands (fun _ => right) inner]
    · exact .inr ⟨_, .terminator ends stands right, close_of_wrong stands rfl right⟩

/-- A token does the same in both modes, unless strict mode refuses it. -/
theorem step_strict (nesting : Option Nat) (reader : Reader) (token : Token) :
    reader.step ⟨.strict, nesting⟩ token = reader.step ⟨.permissive, nesting⟩ token ∨
      ∃ e, Refuses reader token e ∧ reader.step ⟨.strict, nesting⟩ token = .stop (.error e) := by
  rcases kind_cases reader.slot.name? token.kind with kind | kind | kind | ⟨group, opens⟩ | ends
  · exact .inl (by simp only [step, kind])
  · exact .inl (by simp only [step, kind])
  · exact .inl (by simp only [step, kind])
  · rw [step_of_opened? opens, step_of_opened? opens]
    exact enter_strict opens
  · rw [step_of_isTerminator ends, step_of_isTerminator ends]
    exact close_strict ends

end Step

end Reader

/-- Both modes give the same types or the same error, unless strict mode refuses a token of the
text, or its end. In particular what strict mode accepts is accepted in permissive mode with the
same types, and what is rejected in permissive mode is rejected in strict mode. -/
theorem parse_strict_eq_or_refuses (text : String) :
    (parse .strict text = parse .permissive text ∨
      ∃ ends before token reader e,
        before ++ [token] <+:
          (Scan.ofText text).tokens ++ List.replicate ends (.atEnd (Scan.ofText text).stop) ∧
        Reads Mode.strict.rules .start before reader ∧ Refuses reader token e ∧
        parse .strict text = .error e) ∧
    (∀ types, parse .strict text = .ok types → parse .permissive text = .ok types) ∧
    ∀ e, parse .permissive text = .error e → ∃ e', parse .strict text = .error e' := by
  have modes : parse .strict text = parse .permissive text ∨ _ :=
    Reading.outcome_lockstep (step_strict (some nestingLimit)) (Scan.ofText text).tokens
  refine ⟨modes, fun types accepted => ?_, fun e rejected => ?_⟩
  · rcases modes with same | ⟨_, _, _, _, e, _, _, _, failed⟩
    · exact same ▸ accepted
    · cases accepted.symm.trans failed
  · rcases modes with same | ⟨_, _, _, _, e', _, _, _, failed⟩
    · exact ⟨e, same.trans rejected⟩
    · exact ⟨e', failed⟩

/-- A text that strict mode accepts, and one that permissive mode rejects. -/
theorem parse_permissive_of_strict :
    parse .permissive "(A, b), c" = .ok [.tuple none [.kind "A", .kind "b"], .kind "c"] ∧
      ∃ e, parse .strict "\x7bA" = .error e :=
  ⟨(parse_strict_eq_or_refuses "(A, b), c").2.1 _ (by decide +kernel),
    (parse_strict_eq_or_refuses "\x7bA").2.2 ⟨.missingName, 2, none⟩ (by decide +kernel)⟩

end DocTypes
