import Mathlib.Control.Monad.Basic
import DocTypes.Proofs.Cells
import DocTypes.Proofs.Evaluation
import DocTypes.Registry.Core
import DocTypes.Registry.Model

/-!
# Remembered handles agree with their model

As long as one model is asked, each handle in the memo is what the name at its cell resolves to
(`Memo.Agrees`). Every question keeps this, also one that fails, and is answered as without the memo
(`Inquiry.run_agrees`). So in a session with one model each value is checked as if it were the only
one (`session_eq_evaluate`).
-/

namespace DocTypes

/-- Every handle that is kept is what the name at its cell resolves to. -/
def Memo.Agrees (model : Model) (types : List Ty) (memo : Memo) : Prop :=
  ∀ cell handle name, memo cell = some handle → kindAt? types cell = some name →
    model.resolve name = .kind handle

section Agrees

variable {model : Model} {types : List Ty} {memo : Memo} {cell : Cell} {name : String}

theorem Memo.agrees_ofTypes (types : List Ty) (model : Model) :
    (Checker.ofTypes types).memo.Agrees model (Checker.ofTypes types).types := by
  intro cell handle name kept
  cases kept

theorem Memo.Agrees.keep (h : memo.Agrees model types) {handle : Handle}
    (named : kindAt? types cell = some name) (found : model.resolve name = .kind handle) :
    (memo.keep cell handle).Agrees model types := by
  intro other kept given held givenAt
  by_cases same : other = cell
  · subst same
    cases (memo.keep_self other handle).symm.trans held
    cases named.symm.trans givenAt
    exact found
  · rw [memo.keep_of_ne handle same] at held
    exact h other kept given held givenAt

/-- A memo that agrees gives the handle that a look-up gives now. -/
theorem Memo.Agrees.handle (h : memo.Agrees model types) (named : kindAt? types cell = some name) :
    (memo.handle model cell name).outcome = (model.resolve name).handle name ∧
      (memo.handle model cell name).memo.Agrees model types := by
  unfold Memo.handle
  cases held : memo cell with
  | some handle =>
    rw [h cell handle name held named]
    exact ⟨rfl, h⟩
  | none =>
    cases found : model.resolve name with
    | kind handle => exact ⟨rfl, h.keep named found⟩
    | constant => exact ⟨rfl, h⟩
    | notFound => exact ⟨rfl, h⟩

theorem Question.run_agrees (h : memo.Agrees model types) {question : Question}
    (placed : question.Placed types) :
    (question.run model memo).outcome = question.answer model ∧
      (question.run model memo).memo.Agrees model types := by
  cases placed with
  | respondsTo => exact ⟨rfl, h⟩
  | @kindOf cell name value named other =>
    obtain ⟨outcome, agrees⟩ := h.handle named
    simp only [Question.run, Question.answer, ← outcome]
    cases (memo.handle model cell name).outcome with
    | ok handle => exact ⟨rfl, agrees⟩
    | error error => exact ⟨rfl, agrees⟩

/-- An inquiry with a memo that agrees is answered as without one, and the memo still agrees. -/
theorem Inquiry.run_agrees {α : Type} {inquiry : Inquiry α}
    (placed : inquiry.AsksOnly (Question.Placed types)) (h : memo.Agrees model types) :
    (inquiry.run model memo).outcome = inquiry.answer model ∧
      (inquiry.run model memo).memo.Agrees model types := by
  induction placed generalizing memo with
  | done => exact ⟨rfl, h⟩
  | fail => exact ⟨rfl, h⟩
  | @ask question next here _ ih =>
    obtain ⟨outcome, agrees⟩ := Question.run_agrees h here
    simp only [Inquiry.run, Inquiry.answer, ← outcome]
    cases (question.run model memo).outcome with
    | ok answer => exact ih answer agrees
    | error error => exact ⟨rfl, agrees⟩

end Agrees

/-! ## Sessions with one model -/

section Sessions

variable {checker : Checker} {model : Model}

theorem firstMatch_agrees (h : checker.memo.Agrees model checker.types) (value : Value) :
    (checker.firstMatch model value).outcome = evaluateFirst model 0 checker.types value ∧
      (checker.firstMatch model value).checker.memo.Agrees model checker.types := by
  obtain ⟨outcome, agrees⟩ :=
    Inquiry.run_agrees (asksOnly_inquireFirst checker.types value) h
  rw [answer_inquireFirst] at outcome
  exact ⟨outcome, agrees⟩

/-- The answer of a checker that has resolved nothing is that of an evaluation. -/
theorem check_ofTypes (types : List Ty) (model : Model) (value : Value) :
    ((Checker.ofTypes types).check model value).outcome = evaluateAny model types value := by
  have first := (firstMatch_agrees (Memo.agrees_ofTypes types model) value).1
  show (Checker.firstMatch _ model value).outcome.map Option.isSome = _
  rw [first, evaluateAny_eq_map]
  rfl

theorem outcomes_of_agrees (h : checker.memo.Agrees model checker.types) (values : List Value) :
    (checker.session (values.map (Prod.mk model))).outcomes =
      values.map (evaluateFirst model 0 checker.types) := by
  induction values generalizing checker with
  | nil => rfl
  | cons value values ih =>
    obtain ⟨outcome, agrees⟩ := firstMatch_agrees h value
    rw [List.map_cons, List.map_cons, ← outcome]
    exact congrArg (List.cons _) (ih agrees)

end Sessions

/-- In a session with one model, each value has the outcome that it has when nothing is kept and
every name is looked up afresh, whether the checks before it succeeded or failed. So the order of
the values makes no difference to the outcome of any of them. -/
theorem session_eq_evaluate (types : List Ty) (model : Model) (values : List Value) :
    ((Checker.ofTypes types).session (values.map (Prod.mk model))).outcomes =
        values.map (evaluateFirst model 0 types) ∧
      ((Checker.ofTypes types).session (values.map (Prod.mk model))).answers =
        values.map (evaluateAny model types) ∧
      ∀ again, values.Perm again →
        (values.zip ((Checker.ofTypes types).session (values.map (Prod.mk model))).outcomes).Perm
          (again.zip ((Checker.ofTypes types).session (again.map (Prod.mk model))).outcomes) := by
  have outcomes (values : List Value) :
      ((Checker.ofTypes types).session (values.map (Prod.mk model))).outcomes =
        values.map (evaluateFirst model 0 types) :=
    outcomes_of_agrees (Memo.agrees_ofTypes types model) values
  refine ⟨outcomes values, ?_, fun again perm => ?_⟩
  · rw [Session.answers, outcomes, List.map_map]
    exact List.map_congr_left fun value _ => (evaluateAny_eq_map model types 0 value).symm
  · rw [outcomes, outcomes, ← List.map_prod_left_eq_zip, ← List.map_prod_left_eq_zip]
    exact perm.map _

/-- Two values in both orders, of which one fails at a name that stands for nothing. -/
theorem session_eq_evaluate_swapped :
    ((Checker.ofTypes [.kind "String", .kind "Undefined"]).session
        [(Registry.core.model, .nil), (Registry.core.model, .string "x")]).outcomes =
      [.error (.nameLookup "Undefined"), .ok (some 0)] ∧
    List.Perm [(Value.nil, .error (.nameLookup "Undefined")), (.string "x", .ok (some 0))]
      (List.zip [.string "x", .nil] ((Checker.ofTypes [.kind "String", .kind "Undefined"]).session
        [(Registry.core.model, .string "x"), (Registry.core.model, .nil)]).outcomes) := by
  have first : ((Checker.ofTypes [.kind "String", .kind "Undefined"]).session
        [(Registry.core.model, .nil), (Registry.core.model, .string "x")]).outcomes =
      [.error (.nameLookup "Undefined"), .ok (some 0)] := by
    decide +kernel
  have swapped := (session_eq_evaluate [.kind "String", .kind "Undefined"] Registry.core.model
    [.nil, .string "x"]).2.2 [.string "x", .nil] (.swap _ _ _)
  exact ⟨first, by simpa [first] using swapped⟩

end DocTypes
