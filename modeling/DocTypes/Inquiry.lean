import DocTypes.Text
import DocTypes.Value

/-!
# Inquiries

A check asks an object model questions, one after the other, and each answer decides how it goes on.
An `Inquiry` is such a course of questions, before anybody has answered them. It fails without an
answer when the name of a kind stands for no class or module, or when a literal is none of the known
words (`CheckError`).

The question whether a value is of a named kind is asked at a `Cell`: the place, in a list of types,
of the type that names the kind. When the name is resolved for the first time, the handle is kept in
the `Memo` under that cell, and later questions at the cell use it, whichever model they are put to.
`run` follows an inquiry with a memo and keeps the trail of what was asked, and `answer` follows it
without a memo, resolving each name afresh.
-/

namespace DocTypes

/-! ## Models and errors -/

/-- The answers of a program to the questions of a check: what the path of a constant names, whether
a value is an instance of a kind, and whether it answers to a method. -/
structure Model where
  resolve : String → Resolution
  isKindOf : Value → Handle → Bool
  respondsTo : Value → String → Bool

/-- Why a check gives no answer.

* `nameLookup`: nothing is defined under the name of a kind.
* `kindMismatch`: the name of a kind stands for a constant that is an instance of `className`.
* `unsupportedLiteral`: a literal is no known word. -/
inductive CheckError where
  | nameLookup (name : String)
  | kindMismatch (name className : String)
  | unsupportedLiteral (name : String)
deriving DecidableEq, Repr

/-- What the error says. -/
def CheckError.message : CheckError → String
  | .nameLookup name => "uninitialized constant " ++ name
  | .kindMismatch name className =>
    "class or module required; " ++ name ++ " is a " ++ className
  | .unsupportedLiteral name => "unsupported literal type: " ++ Text.quoted name

/-! ## Courses of questions -/

/-- The place of a type in a list of types: its index, then the index of the type within it, and so
on inwards. The values of a hash are counted on from its keys. -/
abbrev Cell := List Nat

/-- A question that a check puts to an object model: whether a value is an instance of the kind that
is named at a cell, or whether a value answers to a method. -/
inductive Question where
  | kindOf (cell : Cell) (name : String) (value : Value)
  | respondsTo (value : Value) (method : String)

/-- A course of questions: it is over with an answer, or it fails, or it asks a question and goes on
as the answer says. -/
inductive Inquiry (α : Type) where
  | done (answer : α)
  | fail (error : CheckError)
  | ask (question : Question) (next : Bool → Inquiry α)

namespace Inquiry

variable {α β : Type}

/-- Goes on after an inquiry is over. -/
def bind : Inquiry α → (α → Inquiry β) → Inquiry β
  | done answer, next => next answer
  | fail error, _ => fail error
  | ask question rest, next => ask question fun answer => (rest answer).bind next

/-- Goes on only if the inquiry says yes. -/
def andThen (first : Inquiry Bool) (second : Unit → Inquiry Bool) : Inquiry Bool :=
  first.bind fun answer => if answer then second () else done false

/-- Goes on only if the inquiry says no. -/
def orElse (first : Inquiry Bool) (second : Unit → Inquiry Bool) : Inquiry Bool :=
  first.bind fun answer => if answer then done true else second ()

/-- The inquiry says yes for every item of a list, asked in order up to the first no. -/
def all (items : List β) (inquire : β → Inquiry Bool) : Inquiry Bool :=
  match items with
  | [] => done true
  | item :: items => (inquire item).andThen fun _ => all items inquire

end Inquiry

/-! ## Putting questions to a model -/

/-- The handles that are kept, by cell. -/
def Memo := Cell → Option Handle

namespace Memo

/-- Nothing is kept. -/
def empty : Memo := fun _ => none

instance : Inhabited Memo := ⟨empty⟩

/-- Keeps a handle for a cell. -/
def keep (memo : Memo) (cell : Cell) (handle : Handle) : Memo :=
  fun other => if other = cell then some handle else memo other

theorem keep_self (memo : Memo) (cell : Cell) (handle : Handle) :
    memo.keep cell handle cell = some handle :=
  if_pos rfl

theorem keep_of_ne {cell other : Cell} (memo : Memo) (handle : Handle) (ne : other ≠ cell) :
    memo.keep cell handle other = memo other :=
  if_neg ne

/-- What is kept for the type at an index, as the memo of a list of that type alone. -/
def take (memo : Memo) (index : Nat) : Memo
  | 0 :: cell => memo (index :: cell)
  | _ => none

end Memo

/-- Something that happened while questions were put to a model.

* `lookedUp`: the name at a cell was looked up.
* `kept`: the handle that the look-up found was kept for the cell.
* `kindAsked`: the model was asked whether a value is an instance of the handle of a cell.
* `methodAsked`: the model was asked whether a value answers to a method. -/
inductive Event where
  | lookedUp (cell : Cell) (name : String) (resolution : Resolution)
  | kept (cell : Cell) (name : String) (handle : Handle)
  | kindAsked (cell : Cell) (value : Value) (handle : Handle) (answer : Bool)
  | methodAsked (value : Value) (method : String) (answer : Bool)

/-- The outcome of putting questions to a model, the memo afterwards, and what happened. -/
structure Run (α : Type) where
  outcome : Except CheckError α
  memo : Memo
  trail : List Event

/-- The handle that a resolution of a name gives, or why it gives none. -/
def Resolution.handle (name : String) : Resolution → Except CheckError Handle
  | .kind handle => .ok handle
  | .constant className => .error (.kindMismatch name className)
  | .notFound => .error (.nameLookup name)

/-- The handle of a cell: the one that is kept, or else the one that its name resolves to, which is
then kept. A failure is not kept. -/
def Memo.handle (memo : Memo) (model : Model) (cell : Cell) (name : String) : Run Handle :=
  match memo cell with
  | some handle => ⟨.ok handle, memo, []⟩
  | none =>
    let resolution := model.resolve name
    match resolution.handle name with
    | .ok handle =>
      ⟨.ok handle, memo.keep cell handle,
        [.lookedUp cell name resolution, .kept cell name handle]⟩
    | .error error => ⟨.error error, memo, [.lookedUp cell name resolution]⟩

namespace Question

/-- Puts a question to a model with a memo. -/
def run (model : Model) (memo : Memo) : Question → Run Bool
  | kindOf cell name value =>
    let found := memo.handle model cell name
    match found.outcome with
    | .ok handle =>
      let answer := model.isKindOf value handle
      ⟨.ok answer, found.memo, found.trail ++ [.kindAsked cell value handle answer]⟩
    | .error error => ⟨.error error, found.memo, found.trail⟩
  | respondsTo value method =>
    let answer := model.respondsTo value method
    ⟨.ok answer, memo, [.methodAsked value method answer]⟩

/-- Puts a question to a model without a memo. -/
def answer (model : Model) : Question → Except CheckError Bool
  | kindOf _ name value => ((model.resolve name).handle name).map (model.isKindOf value)
  | respondsTo value method => .ok (model.respondsTo value method)

end Question

namespace Inquiry

variable {α : Type}

/-- Follows an inquiry with a memo. -/
def run (model : Model) : Inquiry α → Memo → Run α
  | done answer, memo => ⟨.ok answer, memo, []⟩
  | fail error, memo => ⟨.error error, memo, []⟩
  | ask question next, memo =>
    let first := question.run model memo
    match first.outcome with
    | .ok answer =>
      let rest := (next answer).run model first.memo
      { rest with trail := first.trail ++ rest.trail }
    | .error error => ⟨.error error, first.memo, first.trail⟩

/-- Follows an inquiry without a memo. -/
def answer (model : Model) : Inquiry α → Except CheckError α
  | done answer => .ok answer
  | fail error => .error error
  | ask question next =>
    match question.answer model with
    | .ok answer => (next answer).answer model
    | .error error => .error error

end Inquiry

end DocTypes
