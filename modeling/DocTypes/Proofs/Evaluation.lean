import DocTypes.Checker

/-!
# Checking without a memory

`Ty.evaluate` decides whether a value satisfies a type by looking up every name afresh, so there are
no cells and nothing is kept. It is what an inquiry comes to that is answered without a memo
(`answer_inquire`, `answer_inquireFirst`).
-/

namespace DocTypes

/-- The value is of the kind that the name stands for now. -/
def evaluateKind (model : Model) (name : String) (value : Value) : Except CheckError Bool :=
  if name = booleanKind then
    .ok (match value with
      | .bool _ => true
      | _ => false)
  else
    match model.resolve name with
    | .kind handle => .ok (model.isKindOf value handle)
    | .constant className => .error (.kindMismatch name className)
    | .notFound => .error (.nameLookup name)

mutual

/-- The value satisfies the type. -/
def Ty.evaluate (model : Model) : Ty → Value → Except CheckError Bool
  | .kind name, value => evaluateKind model name value
  | .duck name, value => pure (model.respondsTo value (Ty.message name))
  | .literal name, value => (inquireLiteral name value).answer model
  | .collection name types, value => do
    if ← evaluateKind model name value then
      match value.elements? with
      | some elements => elements.allM fun element => evaluateAny model types element
      | none => pure false
    else pure false
  | .tuple name types, value => do
    if ← (match name with
        | some name => evaluateKind model name value
        | none => pure true) then
      match value.sequence? with
      | some sequence =>
        if sequence.length = types.length then evaluateEach model 0 types sequence else pure false
      | none => pure false
    else pure false
  | .hash _ keys values, value =>
    match value.columns? with
    | some columns => do
      if ← columns.keys.allM fun key => evaluateAny model keys key then
        columns.values.allM fun item => evaluateAny model values item
      else pure false
    | none => pure false
termination_by structural type => type

/-- The value satisfies one of the types. -/
def evaluateAny (model : Model) : List Ty → Value → Except CheckError Bool
  | [], _ => pure false
  | type :: types, value => do
    if ← type.evaluate model value then pure true else evaluateAny model types value
termination_by structural types => types

/-- Each type, from the one at `index` on, is satisfied by the value at its position. -/
def evaluateEach (model : Model) (index : Nat) : List Ty → Sequence → Except CheckError Bool
  | [], _ => pure true
  | type :: types, sequence =>
    match sequence.get? index with
    | some value => do
      if ← type.evaluate model value then evaluateEach model (index + 1) types sequence
      else pure false
    | none => pure false
termination_by structural types => types

end

/-- The index of the first alternative, from the one at `index` on, that the value satisfies. -/
def evaluateFirst (model : Model) (index : Nat) : List Ty → Value → Except CheckError (Option Nat)
  | [], _ => pure none
  | type :: types, value => do
    if ← type.evaluate model value then pure (some index)
    else evaluateFirst model (index + 1) types value

/-- The items after the first no are left out. -/
theorem allM_cons {α : Type} (item : α) (items : List α) (outcome : α → Except CheckError Bool) :
    (item :: items).allM outcome =
      (do if ← outcome item then items.allM outcome else pure false) := by
  rw [List.allM]
  congr 1
  funext accepted
  cases accepted <;> rfl

/-! ## Inquiries that are answered without a memo -/

namespace Inquiry

variable {α β : Type} (model : Model)

@[simp]
theorem answer_done (answer : α) : (done answer).answer model = pure answer := rfl

theorem answer_bind (first : Inquiry α) (next : α → Inquiry β) :
    (first.bind next).answer model =
      first.answer model >>= fun answer => (next answer).answer model := by
  induction first with
  | done answer => rfl
  | fail error => rfl
  | ask question rest ih =>
    simp only [bind, answer]
    cases question.answer model with
    | ok answer => exact ih answer
    | error error => rfl

theorem answer_andThen (first : Inquiry Bool) (second : Unit → Inquiry Bool) :
    (first.andThen second).answer model =
      (do if ← first.answer model then (second ()).answer model else pure false) := by
  rw [andThen, answer_bind]
  congr 1
  funext accepted
  cases accepted <;> rfl

theorem answer_orElse (first : Inquiry Bool) (second : Unit → Inquiry Bool) :
    (first.orElse second).answer model =
      (do if ← first.answer model then pure true else (second ()).answer model) := by
  rw [orElse, answer_bind]
  congr 1
  funext accepted
  cases accepted <;> rfl

theorem answer_all (items : List β) (inquire : β → Inquiry Bool) :
    (all items inquire).answer model = items.allM fun item => (inquire item).answer model := by
  induction items with
  | nil => rfl
  | cons item items ih => rw [all, answer_andThen, ih, allM_cons]

end Inquiry

section Answers

variable (model : Model)

theorem answer_inquireKind (cell : Cell) (name : String) (value : Value) :
    (inquireKind cell name value).answer model = evaluateKind model name value := by
  unfold inquireKind evaluateKind
  split
  · rfl
  · simp only [Inquiry.answer, Question.answer]
    cases model.resolve name <;> rfl

mutual

/-- Without a memo, the questions for a type are answered as the type is evaluated. -/
theorem answer_inquire : (type : Ty) → (cell : Cell) → (value : Value) →
    (type.inquire cell value).answer model = type.evaluate model value
  | .kind name, cell, value => answer_inquireKind model cell name value
  | .duck name, cell, value => rfl
  | .literal name, cell, value => rfl
  | .collection name types, cell, value => by
    simp only [Ty.inquire, Ty.evaluate, Inquiry.answer_andThen, answer_inquireKind]
    cases value.elements? with
    | none => rfl
    | some elements => simp only [Inquiry.answer_all, answer_inquireAny types cell 0]
  | .tuple name types, cell, value => by
    simp only [Ty.inquire, Ty.evaluate, Inquiry.answer_andThen]
    congr 1
    · cases name with
      | none => rfl
      | some name => exact answer_inquireKind model cell name value
    · funext accepted
      cases value.sequence? with
      | none => rfl
      | some sequence =>
        by_cases arity : sequence.length = types.length
        · simp only [if_pos arity, answer_inquireEach types]
        · simp only [if_neg arity, Inquiry.answer_done]
  | .hash name keys values, cell, value => by
    simp only [Ty.inquire, Ty.evaluate]
    cases value.columns? with
    | none => rfl
    | some columns =>
      simp only [Inquiry.answer_andThen, Inquiry.answer_all, answer_inquireAny keys cell 0,
        answer_inquireAny values cell keys.length]

theorem answer_inquireAny : (types : List Ty) → (cell : Cell) → (index : Nat) → (value : Value) →
    (inquireAny cell index types value).answer model = evaluateAny model types value
  | [], cell, index, value => rfl
  | type :: types, cell, index, value => by
    rw [inquireAny, Inquiry.answer_orElse, answer_inquire type, answer_inquireAny types]
    rfl

theorem answer_inquireEach : (types : List Ty) → (cell : Cell) → (index : Nat) →
    (sequence : Sequence) →
    (inquireEach cell index types sequence).answer model = evaluateEach model index types sequence
  | [], cell, index, sequence => rfl
  | type :: types, cell, index, sequence => by
    rw [inquireEach, evaluateEach]
    cases sequence.get? index with
    | none => rfl
    | some value =>
      simp only [Inquiry.answer_andThen, answer_inquire type, answer_inquireEach types]

end

theorem answer_inquireFirst (types : List Ty) (index : Nat) (value : Value) :
    (inquireFirst index types value).answer model = evaluateFirst model index types value := by
  induction types generalizing index with
  | nil => rfl
  | cons type types ih =>
    rw [inquireFirst, evaluateFirst, Inquiry.answer_bind, answer_inquire]
    congr 1
    funext accepted
    cases accepted with
    | true => rfl
    | false => exact ih (index + 1)

/-- A value satisfies one of the types exactly when there is a first one that it satisfies. -/
theorem evaluateAny_eq_map (types : List Ty) (index : Nat) (value : Value) :
    evaluateAny model types value =
      (evaluateFirst model index types value).map Option.isSome := by
  induction types generalizing index with
  | nil => rfl
  | cons type types ih =>
    rw [evaluateAny, evaluateFirst]
    cases type.evaluate model value with
    | error error => rfl
    | ok accepted =>
      cases accepted with
      | true => rfl
      | false => exact ih (index + 1)

end Answers

end DocTypes
