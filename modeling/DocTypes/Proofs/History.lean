import DocTypes.Proofs.Cells

/-!
# What a session keeps

Every check of a session may be given another model. Still each cell gets a handle at most once,
namely what the first look-up at the cell gave that succeeded, and from then on the name at the cell
is not looked up again (`session_keeps_first`). `History` is the step relation behind this: which
event can come next depends on what is kept so far, and on nothing else that happened before.

The outcomes are those that the trail tells. `SessionTold` is the relation between the two, in which
no model is asked: each check goes on as the answers in its part of the trail say. A trail tells at
most one list of outcomes (`SessionTold.unique`).
-/

namespace DocTypes

variable {model : Model} {types : List Ty} {memo middle final : Memo} {cell : Cell} {name : String}
  {handle : Handle} {trail earlier later : List (Model × Event)}

/-! ## Looking back on a trail -/

/-- The handle that a look-up at the cell gave. -/
def Event.found? (cell : Cell) : Event → Option Handle
  | .lookedUp place _ (.kind handle) => if place = cell then some handle else none
  | _ => none

/-- The handle that the first look-up at the cell gave that succeeded. -/
def firstFound (trail : List (Model × Event)) (cell : Cell) : Option Handle :=
  trail.findSome? fun entry => entry.2.found? cell

/-- What is kept after a trail: what was kept before it, and else what was found first. -/
def Memo.after (memo : Memo) (trail : List (Model × Event)) : Memo :=
  fun cell => (memo cell).or (firstFound trail cell)

/-- The event tells the truth about the model, and it agrees with what is kept: a name is looked up
only where nothing is kept, and a handle is asked about only where it is kept. -/
inductive Event.Fits (types : List Ty) (memo : Memo) (model : Model) : Event → Prop
  | lookedUp {cell : Cell} {name : String} :
      kindAt? types cell = some name → name ≠ booleanKind → memo cell = none →
      Fits types memo model (.lookedUp cell name (model.resolve name))
  | kept {cell : Cell} {name : String} {handle : Handle} :
      kindAt? types cell = some name → model.resolve name = .kind handle →
      memo cell = some handle → Fits types memo model (.kept cell name handle)
  | kindAsked {cell : Cell} {name : String} {value : Value} {handle : Handle} :
      kindAt? types cell = some name → name ≠ booleanKind → memo cell = some handle →
      Fits types memo model (.kindAsked cell value handle (model.isKindOf value handle))
  | methodAsked {value : Value} {method : String} :
      Fits types memo model (.methodAsked value method (model.respondsTo value method))

/-- Each event of the trail fits what is kept after the events before it. -/
def TrailFits (types : List Ty) (memo : Memo) (trail : List (Model × Event)) : Prop :=
  ∀ front model event back, trail = front ++ (model, event) :: back →
    event.Fits types (memo.after front) model

theorem firstFound_append (earlier later : List (Model × Event)) (cell : Cell) :
    firstFound (earlier ++ later) cell = (firstFound earlier cell).or (firstFound later cell) :=
  List.findSome?_append

theorem firstFound_cons (entry : Model × Event) (trail : List (Model × Event)) (cell : Cell) :
    firstFound (entry :: trail) cell = (entry.2.found? cell).or (firstFound trail cell) := by
  unfold firstFound
  rw [List.findSome?_cons]
  cases entry.2.found? cell <;> rfl

@[simp]
theorem Memo.after_nil (memo : Memo) : memo.after [] = memo := by
  funext cell
  exact Option.or_none

theorem Memo.after_append (memo : Memo) (earlier later : List (Model × Event)) :
    memo.after (earlier ++ later) = (memo.after earlier).after later := by
  funext cell
  unfold Memo.after
  rw [firstFound_append, Option.or_assoc]

theorem Memo.after_cons (memo : Memo) (entry : Model × Event) (trail : List (Model × Event)) :
    memo.after (entry :: trail) = (memo.after [entry]).after trail :=
  Memo.after_append memo [entry] trail

/-! ## Histories -/

/-- `History types memo trail final`: the trail can happen when the handles in `memo` are kept, and
afterwards those in `final` are.

* `missed`: a name is looked up without success, and nothing is kept.
* `found`: a name is looked up with success, and its handle is kept.
* `kindAsked`: a model is asked about the handle that is kept.
* `methodAsked`: a model is asked whether a value answers to a method. -/
inductive History (types : List Ty) : Memo → List (Model × Event) → Memo → Prop
  | nil {memo : Memo} : History types memo [] memo
  | missed {memo final : Memo} {model : Model} {cell : Cell} {name : String}
      {trail : List (Model × Event)} :
      kindAt? types cell = some name → name ≠ booleanKind → memo cell = none →
      (∀ handle, model.resolve name ≠ .kind handle) → History types memo trail final →
      History types memo ((model, .lookedUp cell name (model.resolve name)) :: trail) final
  | found {memo final : Memo} {model : Model} {cell : Cell} {name : String} {handle : Handle}
      {trail : List (Model × Event)} :
      kindAt? types cell = some name → name ≠ booleanKind → memo cell = none →
      model.resolve name = .kind handle → History types (memo.keep cell handle) trail final →
      History types memo ((model, .lookedUp cell name (.kind handle)) ::
        (model, .kept cell name handle) :: trail) final
  | kindAsked {memo final : Memo} {model : Model} {cell : Cell} {name : String} {value : Value}
      {handle : Handle} {trail : List (Model × Event)} :
      kindAt? types cell = some name → name ≠ booleanKind → memo cell = some handle →
      History types memo trail final →
      History types memo
        ((model, .kindAsked cell value handle (model.isKindOf value handle)) :: trail) final
  | methodAsked {memo final : Memo} {model : Model} {value : Value} {method : String}
      {trail : List (Model × Event)} :
      History types memo trail final →
      History types memo
        ((model, .methodAsked value method (model.respondsTo value method)) :: trail) final

theorem History.append (first : History types memo earlier middle)
    (second : History types middle later final) :
    History types memo (earlier ++ later) final := by
  induction first with
  | nil => exact second
  | missed named other empty fails _ ih => exact .missed named other empty fails (ih second)
  | found named other empty found _ ih => exact .found named other empty found (ih second)
  | kindAsked named other held _ ih => exact .kindAsked named other held (ih second)
  | methodAsked _ ih => exact .methodAsked (ih second)

theorem History.lookup {resolution : Resolution} (named : kindAt? types cell = some name)
    (other : name ≠ booleanKind) (empty : memo cell = none)
    (given : model.resolve name = resolution) (fails : ∀ handle, resolution ≠ .kind handle) :
    History types memo [(model, .lookedUp cell name resolution)] memo := by
  subst given
  exact .missed named other empty fails .nil

/-! ### Checks are histories -/

theorem Memo.history_handle (model : Model) (memo : Memo) (named : kindAt? types cell = some name)
    (other : name ≠ booleanKind) :
    History types memo ((memo.handle model cell name).trail.map (Prod.mk model))
        (memo.handle model cell name).memo ∧
      ∀ handle, (memo.handle model cell name).outcome = .ok handle →
        (memo.handle model cell name).memo cell = some handle := by
  unfold Memo.handle
  cases held : memo cell with
  | some handle =>
    refine ⟨.nil, fun given answer => ?_⟩
    cases answer
    exact held
  | none =>
    cases found : model.resolve name with
    | kind handle =>
      refine ⟨.found named other held found .nil, fun given answer => ?_⟩
      cases answer
      exact Memo.keep_self memo cell handle
    | constant => exact ⟨.lookup named other held found nofun, nofun⟩
    | notFound => exact ⟨.lookup named other held found nofun, nofun⟩

theorem Question.history_run (model : Model) (memo : Memo) {question : Question}
    (placed : question.Placed types) :
    History types memo ((question.run model memo).trail.map (Prod.mk model))
      (question.run model memo).memo := by
  cases placed with
  | respondsTo => exact .methodAsked .nil
  | @kindOf cell name value named other =>
    obtain ⟨history, holds⟩ := memo.history_handle model named other
    unfold Question.run
    cases outcome : (memo.handle model cell name).outcome with
    | error error => simpa only [outcome] using history
    | ok handle =>
      simp only [outcome, List.map_append]
      exact history.append (.kindAsked named other (holds handle outcome) .nil)

theorem Inquiry.history_run {α : Type} (model : Model) (memo : Memo) {inquiry : Inquiry α}
    (placed : inquiry.AsksOnly (Question.Placed types)) :
    History types memo ((inquiry.run model memo).trail.map (Prod.mk model))
      (inquiry.run model memo).memo := by
  induction placed generalizing memo with
  | done => exact .nil
  | fail => exact .nil
  | @ask question next here _ ih =>
    have first := Question.history_run model memo here
    unfold Inquiry.run
    cases outcome : (question.run model memo).outcome with
    | error error => simpa only [outcome] using first
    | ok answer =>
      simp only [outcome, List.map_append]
      exact first.append (ih answer _)

theorem history_firstMatch (checker : Checker) (model : Model) (value : Value) :
    History checker.types checker.memo ((checker.firstMatch model value).trail.map (Prod.mk model))
      (checker.firstMatch model value).checker.memo :=
  Inquiry.history_run model checker.memo (asksOnly_inquireFirst checker.types value)

theorem types_session (checker : Checker) (requests : List (Model × Value)) :
    (checker.session requests).checker.types = checker.types := by
  induction requests generalizing checker with
  | nil => rfl
  | cons request requests ih => exact ih _

theorem history_session (checker : Checker) (requests : List (Model × Value)) :
    History checker.types checker.memo (checker.session requests).trail
      (checker.session requests).checker.memo := by
  induction requests generalizing checker with
  | nil => exact .nil
  | cons request requests ih =>
    obtain ⟨model, value⟩ := request
    exact (history_firstMatch checker model value).append
      (ih (checker.firstMatch model value).checker)

/-! ### What histories keep -/

/-- An event at which nothing is found changes nothing. -/
theorem Memo.after_single {event : Event} (memo : Memo) (nothing : ∀ cell, event.found? cell = none) :
    memo.after [(model, event)] = memo := by
  funext cell
  unfold Memo.after
  rw [firstFound_cons, nothing]
  exact Option.or_none

theorem Memo.after_missed (memo : Memo) (fails : ∀ handle, model.resolve name ≠ .kind handle) :
    memo.after [(model, .lookedUp cell name (model.resolve name))] = memo := by
  refine Memo.after_single memo fun other => ?_
  cases found : model.resolve name with
  | kind handle => exact absurd found (fails handle)
  | constant => rfl
  | notFound => rfl

theorem Memo.after_found (empty : memo cell = none) :
    memo.after [(model, .lookedUp cell name (.kind handle))] = memo.keep cell handle := by
  funext other
  unfold Memo.after
  rw [firstFound_cons]
  by_cases same : cell = other
  · subst same
    simp [Event.found?, empty, Memo.keep_self]
  · rw [Memo.keep_of_ne memo handle (Ne.symm same)]
    simp [Event.found?, same, firstFound]

theorem History.memo_eq (h : History types memo trail final) : final = memo.after trail := by
  induction h with
  | nil => exact (Memo.after_nil _).symm
  | missed named other empty fails _ ih => rw [Memo.after_cons, Memo.after_missed _ fails, ih]
  | found named other empty found _ ih =>
    rw [Memo.after_cons, Memo.after_found empty, Memo.after_cons, Memo.after_single _ fun _ => rfl,
      ih]
  | kindAsked named other held _ ih =>
    rw [Memo.after_cons, Memo.after_single _ fun _ => rfl, ih]
  | methodAsked _ ih => rw [Memo.after_cons, Memo.after_single _ fun _ => rfl, ih]

/-- Once a cell has a handle, it keeps it. -/
theorem History.holds (h : History types memo trail final) (held : memo cell = some handle) :
    final cell = some handle := by
  rw [h.memo_eq, Memo.after, held]
  rfl

theorem TrailFits.cons {event : Event} (here : event.Fits types memo model)
    (rest : TrailFits types (memo.after [(model, event)]) trail) :
    TrailFits types memo ((model, event) :: trail) := by
  intro front other next back eq
  obtain ⟨rfl, first⟩ | ⟨front, rfl, later⟩ := List.cons_eq_append_iff.mp eq
  · cases first
    rwa [Memo.after_nil]
  · rw [Memo.after_cons]
    exact rest front other next back later

theorem History.fits (h : History types memo trail final) : TrailFits types memo trail := by
  induction h with
  | nil => exact fun front _ _ _ eq => absurd eq.symm (by simp)
  | missed named other empty fails _ ih =>
    exact .cons (.lookedUp named other empty) (by rwa [Memo.after_missed _ fails])
  | found named other empty found _ ih =>
    refine .cons (found ▸ .lookedUp named other empty) ?_
    rw [Memo.after_found empty]
    exact .cons (.kept named found (Memo.keep_self _ _ _)) (by rwa [Memo.after_single _ fun _ => rfl])
  | kindAsked named other held _ ih =>
    exact .cons (.kindAsked named other held) (by rwa [Memo.after_single _ fun _ => rfl])
  | methodAsked _ ih => exact .cons .methodAsked (by rwa [Memo.after_single _ fun _ => rfl])

/-- No cell gets a handle but those of kinds, and among these not those of the truth values. -/
theorem History.unchanged (h : History types memo trail final)
    (unnamed : ∀ name, kindAt? types cell = some name → name = booleanKind) :
    final cell = memo cell := by
  induction h with
  | nil => rfl
  | missed named other empty fails _ ih => exact ih
  | @found memo _ _ place name handle _ named other empty found _ ih =>
    have ne : cell ≠ place := fun same => other (unnamed name (same ▸ named))
    rw [ih, Memo.keep_of_ne memo handle ne]
  | kindAsked named other held _ ih => exact ih
  | methodAsked _ ih => exact ih

/-! ### Records -/

/-- A cell that gets a handle, with the name and the handle. -/
def Event.kept? : Event → Option (Cell × String × Handle)
  | .kept cell name handle => some (cell, name, handle)
  | _ => none

/-- The cells that get handles in a trail, with their names and handles. -/
def keptIn (trail : List (Model × Event)) : List (Cell × String × Handle) :=
  trail.filterMap fun entry => entry.2.kept?

theorem records_session (checker : Checker) (requests : List (Model × Value)) :
    (checker.session requests).records =
      (keptIn (checker.session requests).trail).map fun entry => .resolved entry.2.1 entry.2.2 := by
  unfold Session.records Checker.records keptIn
  rw [List.filterMap_map, List.map_filterMap]
  congr
  funext entry
  obtain ⟨model, event⟩ := entry
  cases event <;> rfl

/-- A cell is among them exactly when it got its handle in the trail. -/
theorem History.mem_keptIn_iff (h : History types memo trail final) :
    (cell, name, handle) ∈ keptIn trail ↔
      memo cell = none ∧ final cell = some handle ∧ kindAt? types cell = some name := by
  induction h with
  | nil =>
    refine ⟨nofun, fun ⟨empty, held, _⟩ => ?_⟩
    cases empty.symm.trans held
  | missed named other empty fails _ ih => exact ih
  | @found memo final _ place given found _ named other empty _ rest ih =>
    show _ ∈ (place, given, found) :: keptIn _ ↔ _
    rw [List.mem_cons, ih]
    by_cases same : cell = place
    · subst same
      have held := rest.holds (memo.keep_self cell found)
      simp [memo.keep_self, held, named, empty, eq_comm, and_comm]
    · simp [memo.keep_of_ne found same, same]
  | kindAsked named other held _ ih => exact ih
  | methodAsked _ ih => exact ih

theorem History.nodup_keptIn (h : History types memo trail final) :
    ((keptIn trail).map Prod.fst).Nodup := by
  induction h with
  | nil => exact List.nodup_nil
  | missed named other empty fails _ ih => exact ih
  | @found memo _ _ place given found _ named other empty _ rest ih =>
    show (place :: (keptIn _).map Prod.fst).Nodup
    refine List.nodup_cons.mpr ⟨fun mem => ?_, ih⟩
    -- The handle is kept by now, so a later entry for the same cell finds it filled.
    obtain ⟨⟨_, _, _⟩, later, rfl⟩ := List.mem_map.mp mem
    cases (rest.mem_keptIn_iff.mp later).1.symm.trans (memo.keep_self _ found)
  | kindAsked named other held _ ih => exact ih
  | methodAsked _ ih => exact ih

/-! ## Outcomes -/

/-- `inquiry.Told memo trail outcome`: the inquiry comes to the outcome when the handles in `memo` are
kept and its questions are answered as the trail says.

* `done`, `fail`: the inquiry is over, and nothing more is in the trail.
* `missed`: nothing is kept for the cell, and looking up the name gave no handle. The error of the
  look-up is the outcome, and nothing more is in the trail.
* `found`: nothing is kept for the cell, and looking up the name gave a handle. It is kept, and a
  model was asked about it.
* `kindAsked`: a model was asked about the handle that is kept for the cell.
* `methodAsked`: a model was asked whether a value answers to a method.

In the last three the answer in the trail decides how the inquiry goes on. -/
inductive Inquiry.Told {α : Type} : Memo → Inquiry α → List Event → Except CheckError α → Prop
  | done {memo : Memo} {answer : α} : Told memo (.done answer) [] (.ok answer)
  | fail {memo : Memo} {error : CheckError} : Told memo (.fail error) [] (.error error)
  | missed {memo : Memo} {cell : Cell} {name : String} {value : Value} {next : Bool → Inquiry α}
      {resolution : Resolution} {error : CheckError} :
      memo cell = none → resolution.handle name = .error error →
      Told memo (.ask (.kindOf cell name value) next) [.lookedUp cell name resolution]
        (.error error)
  | found {memo : Memo} {cell : Cell} {name : String} {value : Value} {next : Bool → Inquiry α}
      {handle : Handle} {answer : Bool} {trail : List Event} {outcome : Except CheckError α} :
      memo cell = none → Told (memo.keep cell handle) (next answer) trail outcome →
      Told memo (.ask (.kindOf cell name value) next) (.lookedUp cell name (.kind handle) ::
        .kept cell name handle :: .kindAsked cell value handle answer :: trail) outcome
  | kindAsked {memo : Memo} {cell : Cell} {name : String} {value : Value} {next : Bool → Inquiry α}
      {handle : Handle} {answer : Bool} {trail : List Event} {outcome : Except CheckError α} :
      memo cell = some handle → Told memo (next answer) trail outcome →
      Told memo (.ask (.kindOf cell name value) next)
        (.kindAsked cell value handle answer :: trail) outcome
  | methodAsked {memo : Memo} {value : Value} {method : String} {next : Bool → Inquiry α}
      {answer : Bool} {trail : List Event} {outcome : Except CheckError α} :
      Told memo (next answer) trail outcome →
      Told memo (.ask (.respondsTo value method) next) (.methodAsked value method answer :: trail)
        outcome

/-- `SessionTold types memo requests trail outcomes`: the trail has one part for each check, put to
the model of the check, and each part tells the outcome of its check when the handles are kept that
are in `memo` or were kept in the parts before. -/
inductive SessionTold (types : List Ty) : Memo → List (Model × Value) → List (Model × Event) →
    List (Except CheckError (Option Nat)) → Prop
  | nil {memo : Memo} : SessionTold types memo [] [] []
  | cons {memo : Memo} {model : Model} {value : Value} {requests : List (Model × Value)}
      {part : List Event} {trail : List (Model × Event)} {outcome : Except CheckError (Option Nat)}
      {outcomes : List (Except CheckError (Option Nat))} :
      (inquireFirst 0 types value).Told memo part outcome →
      SessionTold types (memo.after (part.map (Prod.mk model))) requests trail outcomes →
      SessionTold types memo ((model, value) :: requests) (part.map (Prod.mk model) ++ trail)
        (outcome :: outcomes)

theorem Inquiry.told_run {α : Type} (model : Model) (inquiry : Inquiry α) (memo : Memo) :
    inquiry.Told memo (inquiry.run model memo).trail (inquiry.run model memo).outcome := by
  induction inquiry generalizing memo with
  | done answer => exact .done
  | fail error => exact .fail
  | ask question next ih =>
    cases question with
    | respondsTo value method =>
      simp only [run, Question.run]
      exact .methodAsked (ih (model.respondsTo value method) memo)
    | kindOf cell name value =>
      cases held : memo cell with
      | some handle =>
        simp only [run, Question.run, Memo.handle, held]
        exact .kindAsked held (ih (model.isKindOf value handle) memo)
      | none =>
        simp only [run, Question.run, Memo.handle, held]
        cases model.resolve name with
        | kind handle => exact .found held (ih (model.isKindOf value handle) (memo.keep cell handle))
        | constant className => exact .missed held rfl
        | notFound => exact .missed held rfl

theorem told_session (checker : Checker) (requests : List (Model × Value)) :
    SessionTold checker.types checker.memo requests (checker.session requests).trail
      (checker.session requests).outcomes := by
  induction requests generalizing checker with
  | nil => exact .nil
  | cons request requests ih =>
    obtain ⟨model, value⟩ := request
    refine .cons (Inquiry.told_run model _ checker.memo) ?_
    have kept := (history_firstMatch checker model value).memo_eq
    exact kept ▸ ih (checker.firstMatch model value).checker

/-- Of two trails that tell an outcome of the same inquiry, none is a proper front of the other, and
they tell the same outcome. -/
theorem Inquiry.Told.prefix_free {α : Type} {inquiry : Inquiry α} {part other later rest : List Event}
    {outcome outcome' : Except CheckError α} (first : inquiry.Told memo part outcome)
    (second : inquiry.Told memo other outcome') (same : part ++ later = other ++ rest) :
    part = other ∧ outcome = outcome' := by
  induction first generalizing other with
  | done =>
    cases second
    exact ⟨rfl, rfl⟩
  | fail =>
    cases second
    exact ⟨rfl, rfl⟩
  | missed empty fails =>
    cases second with
    | missed _ fails' =>
      cases same
      cases fails.symm.trans fails'
      exact ⟨rfl, rfl⟩
    | found => cases same; cases fails
    | kindAsked held => cases empty.symm.trans held
  | found empty _ ih =>
    cases second with
    | missed _ fails => cases same; cases fails
    | found _ told =>
      simp only [List.cons_append, List.cons.injEq] at same
      obtain ⟨lookedUp, -, asked, tails⟩ := same
      cases lookedUp
      cases asked
      obtain ⟨rfl, rfl⟩ := ih told tails
      exact ⟨rfl, rfl⟩
    | kindAsked held => cases empty.symm.trans held
  | kindAsked held _ ih =>
    cases second with
    | missed empty => cases empty.symm.trans held
    | found empty => cases empty.symm.trans held
    | kindAsked _ told =>
      obtain ⟨asked, tails⟩ := List.cons.inj same
      cases asked
      obtain ⟨rfl, rfl⟩ := ih told tails
      exact ⟨rfl, rfl⟩
  | methodAsked _ ih =>
    cases second with
    | methodAsked told =>
      obtain ⟨asked, tails⟩ := List.cons.inj same
      cases asked
      obtain ⟨rfl, rfl⟩ := ih told tails
      exact ⟨rfl, rfl⟩

theorem SessionTold.unique {requests : List (Model × Value)} {trail other : List (Model × Event)}
    {outcomes outcomes' : List (Except CheckError (Option Nat))}
    (first : SessionTold types memo requests trail outcomes)
    (second : SessionTold types memo requests other outcomes') (same : trail = other) :
    outcomes = outcomes' := by
  induction first generalizing other outcomes' with
  | nil =>
    cases second
    rfl
  | @cons _ _ _ _ part trail _ _ told _ ih =>
    cases second with
    | @cons _ _ _ _ part' trail' _ _ told' later =>
      have events : part ++ trail.map Prod.snd = part' ++ trail'.map Prod.snd := by
        simpa [Function.comp_def] using congrArg (List.map Prod.snd) same
      -- Where the part of the first check ends is told by the part itself.
      obtain ⟨rfl, rfl⟩ := told.prefix_free told' events
      rw [ih later (List.append_cancel_left same)]

/-! ## Sessions -/

theorem checker_session_append (checker : Checker) (requests more : List (Model × Value)) :
    (checker.session (requests ++ more)).checker =
      ((checker.session requests).checker.session more).checker := by
  induction requests generalizing checker with
  | nil => rfl
  | cons request requests ih => exact ih _

/-- Whatever models the checks of a session are put to, and whether they succeed or fail:

* a cell holds in the end what it held before, and else the handle that the first look-up at the
  cell gave that succeeded;
* a name is looked up only where nothing is kept so far, and a model is asked only about the handle
  that is kept;
* each outcome is what the check comes to by the answers in its part of the trail and the handles
  kept before it, and the trail tells no other outcomes;
* a handle that is kept stays, whatever is checked later;
* each cell that got a handle left one record, and there are no other records;
* a cell that belongs to no kind, or to the kind of the truth values, stays as it is;
* the types, what the checker equals and its canonical text stay as they are. -/
theorem session_keeps_first (checker : Checker) (requests : List (Model × Value)) :
    (checker.session requests).checker.memo =
        checker.memo.after (checker.session requests).trail ∧
      TrailFits checker.types checker.memo (checker.session requests).trail ∧
      (∀ outcomes, SessionTold checker.types checker.memo requests (checker.session requests).trail
        outcomes ↔ outcomes = (checker.session requests).outcomes) ∧
      (∀ more cell handle, (checker.session requests).checker.memo cell = some handle →
        (checker.session (requests ++ more)).checker.memo cell = some handle) ∧
      (∃ kept : List (Cell × String × Handle), (kept.map Prod.fst).Nodup ∧
        (checker.session requests).records =
          kept.map (fun entry => .resolved entry.2.1 entry.2.2) ∧
        ∀ cell name handle, (cell, name, handle) ∈ kept ↔ checker.memo cell = none ∧
          (checker.session requests).checker.memo cell = some handle ∧
          kindAt? checker.types cell = some name) ∧
      (∀ cell, (∀ name, kindAt? checker.types cell = some name → name = booleanKind) →
        (checker.session requests).checker.memo cell = checker.memo cell) ∧
      (checker.session requests).checker.types = checker.types ∧
      (∀ other, (checker.session requests).checker.same other = checker.same other) ∧
      (checker.session requests).checker.render = checker.render := by
  have history := history_session checker requests
  have types := types_session checker requests
  have told := told_session checker requests
  refine ⟨history.memo_eq, history.fits,
    fun outcomes => ⟨fun other => other.unique told rfl, fun same => same ▸ told⟩,
    fun more cell handle held => ?_,
    ⟨keptIn (checker.session requests).trail, history.nodup_keptIn,
      records_session checker requests, fun _ _ _ => history.mem_keptIn_iff⟩,
    fun _ => history.unchanged, types, fun other => ?_, ?_⟩
  · rw [checker_session_append]
    exact (history_session (checker.session requests).checker more).holds held
  · unfold Checker.same
    rw [types]
  · unfold Checker.render
    rw [types]

end DocTypes
