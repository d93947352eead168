import DocTypes.Check
import DocTypes.Record

/-!
# Checkers

A checker is a list of alternatives together with the handles that its kinds have been resolved to.
A handle is kept from the first check that resolves it, and later checks use it even when they are
given another model.

A `Session` is a sequence of checks by one checker, each of a value against a model of its own. What
one check keeps is there for the next, also when the check failed.
-/

namespace DocTypes

/-- Alternatives, and what is kept of their resolutions. -/
structure Checker where
  types : List Ty
  memo : Memo

/-- The answer of a checker, the checker afterwards, and what was asked on the way. -/
structure Checker.Report (α : Type) where
  outcome : Except CheckError α
  checker : Checker
  trail : List Event

namespace Checker

/-- A checker that has resolved nothing yet. -/
def ofTypes (types : List Ty) : Checker :=
  ⟨types, .empty⟩

/-- Two checkers are the same when their alternatives are, whatever they have resolved. -/
def same (a b : Checker) : Bool :=
  a.types = b.types

/-- The canonical text of the alternatives. -/
def render (checker : Checker) : String :=
  Ty.renderList checker.types

/-- The checker for one alternative, which keeps what is known of it. -/
def alternative? (checker : Checker) (index : Nat) : Option Checker :=
  checker.types[index]?.map fun type => ⟨[type], checker.memo.take index⟩

/-- Follows an inquiry and keeps the handles that it resolves. -/
def follow {α : Type} (checker : Checker) (model : Model) (inquiry : Inquiry α) : Report α :=
  let run := inquiry.run model checker.memo
  ⟨run.outcome, { checker with memo := run.memo }, run.trail⟩

/-- The index of the first alternative that a value satisfies. -/
def firstMatch (checker : Checker) (model : Model) (value : Value) : Report (Option Nat) :=
  checker.follow model (inquireFirst 0 checker.types value)

/-- Whether a value satisfies some alternative. -/
def check (checker : Checker) (model : Model) (value : Value) : Report Bool :=
  let report := checker.firstMatch model value
  { report with outcome := report.outcome.map Option.isSome }

/-- The handle of a checker for one kind. -/
def constant? (checker : Checker) (model : Model) : Option (Report Handle) :=
  match checker.types with
  | [.kind name] =>
    let run := checker.memo.handle model [0] name
    some ⟨run.outcome, { checker with memo := run.memo }, run.trail⟩
  | _ => none

/-- The records that a check leaves: one for each handle that is kept. -/
def records (trail : List Event) : List Record :=
  trail.filterMap fun
    | .kept _ name handle => some (.resolved name handle)
    | _ => none

end Checker

/-! ## Checks one after another -/

/-- The indices of the alternatives that the values satisfied first, the checker after the last
check, and all that was asked in order, each question with the model that it was put to. -/
structure Session where
  outcomes : List (Except CheckError (Option Nat))
  checker : Checker
  trail : List (Model × Event)

namespace Session

/-- Whether each value satisfied some alternative. -/
def answers (session : Session) : List (Except CheckError Bool) :=
  session.outcomes.map (Except.map Option.isSome)

/-- The records that the checks left. -/
def records (session : Session) : List Record :=
  Checker.records (session.trail.map Prod.snd)

end Session

namespace Checker

/-- Checks values in order, each against a model of its own. -/
def session (checker : Checker) : List (Model × Value) → Session
  | [] => ⟨[], checker, []⟩
  | (model, value) :: requests =>
    let report := checker.firstMatch model value
    let later := report.checker.session requests
    ⟨report.outcome :: later.outcomes, later.checker,
      report.trail.map (Prod.mk model) ++ later.trail⟩

end Checker

end DocTypes
