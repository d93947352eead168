import DocTypes.Proofs.Memo

/-!
# Models that know more names

A model extends another when each name that stands for a kind in the other stands for the same kind
in it, and all other questions have the same answers. A name that stood for nothing, or for a
constant that is no kind, may stand for a kind now (`Model.extends_define`).

An inquiry that comes to an answer has met no such name on its way. So it takes the same course in
the larger model, with the same memo and the same trail (`Inquiry.run_of_extends`). Only an inquiry
that failed can come to something else.
-/

namespace DocTypes

/-- Each name that stands for a kind in the smaller model stands for the same kind in the larger one,
and the models agree about which values are instances of a kind and which methods they answer to. -/
structure Model.Extends (larger smaller : Model) : Prop where
  resolve : ∀ name handle, smaller.resolve name = .kind handle → larger.resolve name = .kind handle
  isKindOf : ∀ value handle, larger.isKindOf value handle = smaller.isKindOf value handle
  respondsTo : ∀ value method, larger.respondsTo value method = smaller.respondsTo value method

/-- The model in which a name stands for a kind, and which is otherwise the same. -/
def Model.define (model : Model) (name : String) (handle : Handle) : Model :=
  { model with resolve := fun other => if other = name then .kind handle else model.resolve other }

/-- A model is extended by defining a name that does not stand for a kind yet. -/
theorem Model.extends_define {model : Model} {name : String}
    (missing : ∀ handle, model.resolve name ≠ .kind handle) (handle : Handle) :
    (model.define name handle).Extends model where
  resolve := by
    intro other found given
    have ne : other ≠ name := by
      rintro rfl
      exact missing found given
    show (if other = name then _ else _) = _
    rw [if_neg ne, given]
  isKindOf _ _ := rfl
  respondsTo _ _ := rfl

section Extends

variable {larger smaller : Model} {memo : Memo}

theorem Memo.handle_of_extends (ext : larger.Extends smaller) {cell : Cell} {name : String}
    {handle : Handle} (found : (memo.handle smaller cell name).outcome = .ok handle) :
    memo.handle larger cell name = memo.handle smaller cell name := by
  unfold Memo.handle at found ⊢
  cases held : memo cell with
  | some kept => rfl
  | none =>
    simp only [held] at found ⊢
    cases given : smaller.resolve name with
    | kind kind => rw [ext.resolve name kind given]
    | constant className =>
      rw [given] at found
      cases found
    | notFound =>
      rw [given] at found
      cases found

theorem Question.run_of_extends (ext : larger.Extends smaller) {question : Question} {answer : Bool}
    (answered : (question.run smaller memo).outcome = .ok answer) :
    question.run larger memo = question.run smaller memo := by
  cases question with
  | respondsTo value method => simp only [Question.run, ext.respondsTo]
  | kindOf cell name value =>
    unfold Question.run at answered ⊢
    cases found : (memo.handle smaller cell name).outcome with
    | ok handle => simp only [Memo.handle_of_extends ext found, ext.isKindOf]
    | error error =>
      simp only [found] at answered
      cases answered

/-- An inquiry that comes to an answer takes the same course in a larger model. -/
theorem Inquiry.run_of_extends {α : Type} (ext : larger.Extends smaller) {inquiry : Inquiry α}
    {answer : α} (answered : (inquiry.run smaller memo).outcome = .ok answer) :
    inquiry.run larger memo = inquiry.run smaller memo := by
  induction inquiry generalizing memo with
  | done | fail => rfl
  | ask question next ih =>
    unfold Inquiry.run at answered ⊢
    cases first : (question.run smaller memo).outcome with
    | ok accepted =>
      rw [Question.run_of_extends ext first]
      simp only [first] at answered ⊢
      rw [ih accepted answered]
    | error error =>
      simp only [first] at answered
      cases answered

end Extends

/-- When a check comes to an answer, it comes to the same answer in every model that extends the one
it was put to. The value satisfies the same alternative first, and the same handles are kept. So to
define what was missing can turn an error into an answer, and it changes no answer. -/
theorem check_of_extends {larger smaller : Model} (ext : larger.Extends smaller)
    (checker : Checker) (value : Value) {accepted : Bool}
    (answered : (checker.check smaller value).outcome = .ok accepted) :
    (checker.check larger value).outcome = .ok accepted ∧
      (checker.firstMatch larger value).outcome = (checker.firstMatch smaller value).outcome ∧
      (checker.check larger value).checker = (checker.check smaller value).checker ∧
      (checker.check larger value).trail = (checker.check smaller value).trail := by
  have same : checker.firstMatch larger value = checker.firstMatch smaller value := by
    cases first : (checker.firstMatch smaller value).outcome with
    | ok found => unfold Checker.firstMatch Checker.follow; rw [Inquiry.run_of_extends ext first]
    | error error =>
      have failed : (checker.check smaller value).outcome = .error error :=
        congrArg (Except.map Option.isSome) first
      cases failed.symm.trans answered
  unfold Checker.check at answered ⊢
  rw [same]
  exact ⟨answered, rfl, rfl, rfl⟩

/-- The text is no array of strings, and its error turns into an answer when the name is defined. The
array of a string had its answer before. -/
theorem check_of_extends_undefined :
    (Registry.core.model.define "Undefined" ⟨"Symbol"⟩).Extends Registry.core.model ∧
      ((Checker.ofTypes [.collection "Array" [.kind "String"], .kind "Undefined"]).check
        Registry.core.model (.string "x")).outcome = .error (.nameLookup "Undefined") ∧
      ((Checker.ofTypes [.collection "Array" [.kind "String"], .kind "Undefined"]).check
        (Registry.core.model.define "Undefined" ⟨"Symbol"⟩) (.string "x")).outcome = .ok false ∧
      ((Checker.ofTypes [.collection "Array" [.kind "String"], .kind "Undefined"]).check
        (Registry.core.model.define "Undefined" ⟨"Symbol"⟩) (.array [.string "x"])).outcome =
          .ok true := by
  have missing : Registry.core.model.resolve "Undefined" = .notFound := by decide +kernel
  have ext : (Registry.core.model.define "Undefined" ⟨"Symbol"⟩).Extends Registry.core.model :=
    Model.extends_define (by simp [missing]) _
  have answered : ((Checker.ofTypes [.collection "Array" [.kind "String"],
      .kind "Undefined"]).check Registry.core.model (.array [.string "x"])).outcome = .ok true := by
    decide +kernel
  refine ⟨ext, ?_, ?_, (check_of_extends ext _ _ answered).1⟩
  · decide +kernel
  · decide +kernel

end DocTypes
