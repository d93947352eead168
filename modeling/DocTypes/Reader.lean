import DocTypes.SyntaxError
import DocTypes.Ty

/-!
# Reading types from tokens

A `Reader` stands between two tokens of a type expression. It holds the alternatives that are
finished in the innermost open list, what has been read of the next alternative (a `Slot`), and one
`Frame` for each group that is open around that list. `step` takes one token:

* a blank changes nothing;
* a name fills an empty slot;
* a separator finishes the alternative in the slot;
* an opening bracket opens a group;
* a closing bracket, an arrow or the end of the input finishes the innermost list. The list becomes
  a composite in the slot of the list around it, or the keys of a hash, or the answer.

The rules say whether a group must be ended by its own closer (and no composite may be followed by
another), and how deep groups may be nested.
-/

namespace DocTypes

/-- Whether brackets have to match.

* `permissive`: any terminator ends the innermost group, and a second group after a composite
  replaces it.
* `strict`: each group is ended by its own closer, and a composite ends its alternative. -/
inductive Mode where
  | permissive
  | strict
deriving DecidableEq, Repr

/-- What a reader insists on: the mode, and the greatest number of open groups, if it is limited. -/
structure Reader.Rules where
  mode : Mode
  nesting : Option Nat
deriving DecidableEq, Repr

/-- The greatest number of groups that may be open at once. -/
def Reader.nestingLimit : Nat := 128

/-- The rules of a mode with the usual limit on nesting. -/
def Mode.rules (mode : Mode) : Reader.Rules :=
  ⟨mode, some Reader.nestingLimit⟩

namespace Reader

/-- What has been read of an alternative: nothing, a name, or a composite. A composite keeps the
name that was in the slot when its group was opened, the default name included, for a group that
may follow it. -/
inductive Slot where
  | empty
  | name (name : String)
  | composite (name : Option String) (type : Ty)
deriving DecidableEq, Repr

/-- An open group: what its list of types is for. A hash has two lists, and its keys are known while
its values are read. -/
inductive Group where
  | collection (name : String)
  | tuple (name : Option String)
  | hashKeys (name : String)
  | hashValues (name : String) (keys : List Ty)
deriving DecidableEq, Repr

/-- An open group, the bracket that opened it, and the alternatives finished before it. -/
structure Frame where
  types : List Ty
  opener : Token
  group : Group
deriving DecidableEq, Repr

end Reader

/-- The alternatives finished in the innermost list, the alternative begun there, and the groups
open around it, innermost first. -/
structure Reader where
  types : List Ty
  slot : Reader.Slot
  frames : List Reader.Frame
deriving DecidableEq, Repr

namespace Reader

namespace Slot

/-- The name in the slot. -/
def name? : Slot → Option String
  | empty => none
  | name written => some written
  | composite written _ => written

/-- The slot holds a composite. -/
def isComposite : Slot → Bool
  | composite _ _ => true
  | _ => false

/-- The type that the slot stands for when its alternative ends. -/
def type? : Slot → Option Ty
  | empty => none
  | name written => some (.ofName written)
  | composite _ type => some type

end Slot

namespace Group

/-- The terminator that should end the list of the group. -/
def closer : Group → Token.Kind
  | .collection _ => .collectionEnd
  | .tuple _ => .tupleEnd
  | .hashKeys _ => .hashArrow
  | .hashValues _ _ => .hashEnd

end Group

/-- What a token leads to: the reader goes on, or it stops with types or with an error. -/
inductive Step where
  | more (reader : Reader)
  | stop (outcome : Except SyntaxError (List Ty))

/-- The reader before the first token. -/
def start : Reader :=
  ⟨[], .empty, []⟩

/-- The terminator that should end the innermost list. -/
def closer (reader : Reader) : Token.Kind :=
  match reader.frames with
  | [] => .finish
  | frame :: _ => frame.group.closer

/-- The alternatives of the innermost list when it goes no further, or an error at the token that
came where a type is missing. -/
def finished (reader : Reader) (token : Token) : Except SyntaxError (List Ty) :=
  match reader.slot.type? with
  | some type => .ok (reader.types ++ [type])
  | none => .error (token.error .missingName)

/-- The reader after the list `types` of an innermost group is complete, with `frames` open around
the group. The values of a hash follow its keys, and any other group becomes a composite. A
collection named as a hash is the shorthand for a hash with one key type and one value type. -/
def Frame.close (frame : Frame) (types : List Ty) (frames : List Frame) :
    Except SyntaxError Reader :=
  match frame.group with
  | .collection name =>
    if name = Ty.defaultHash then
      match types with
      | [key, value] =>
        .ok ⟨frame.types, .composite (some name) (.hash name [key] [value]), frames⟩
      | _ => .error (frame.opener.error (.shorthandArity types.length))
    else
      .ok ⟨frame.types, .composite (some name) (.collection name types), frames⟩
  | .tuple name => .ok ⟨frame.types, .composite name (.tuple name types), frames⟩
  | .hashKeys name => .ok ⟨[], .empty, { frame with group := .hashValues name types } :: frames⟩
  | .hashValues name keys =>
    .ok ⟨frame.types, .composite (some name) (.hash name keys types), frames⟩

/-- A name is taken into an empty slot. -/
def takeName (reader : Reader) (token : Token) : Step :=
  match reader.slot with
  | .empty => .more { reader with slot := .name token.text }
  | _ => .stop (.error (token.error .unexpectedName))

/-- A separator finishes an alternative. -/
def separate (reader : Reader) (token : Token) : Step :=
  match reader.finished token with
  | .ok types => .more { reader with types := types, slot := .empty }
  | .error e => .stop (.error e)

/-- The nesting limit, if no further group may be opened. -/
def exceeded? (rules : Rules) (reader : Reader) : Option Nat :=
  rules.nesting.filter (· ≤ reader.frames.length)

/-- An opening bracket opens a group. -/
def enter (rules : Rules) (reader : Reader) (group : Group) (token : Token) : Step :=
  if rules.mode = .strict ∧ reader.slot.isComposite then
    .stop (.error (token.error .unexpectedOpener))
  else
    match reader.exceeded? rules with
    | some limit => .stop (.error (token.error (.tooDeep limit)))
    | none => .more ⟨[], .empty, ⟨reader.types, token, group⟩ :: reader.frames⟩

/-- A terminator ends the innermost list. -/
def close (rules : Rules) (reader : Reader) (token : Token) : Step :=
  match reader.finished token with
  | .error e => .stop (.error e)
  | .ok types =>
    if rules.mode = .strict ∧ token.kind ≠ reader.closer then
      .stop (.error (token.error (.wrongCloser reader.closer)))
    else
      match reader.frames with
      | [] => .stop (.ok types)
      | frame :: frames =>
        match frame.close types frames with
        | .ok outer => .more outer
        | .error e => .stop (.error e)

/-- Takes one token. A collection or a hash without a name takes its default name. -/
def step (rules : Rules) (reader : Reader) (token : Token) : Step :=
  match token.kind with
  | .blank => .more reader
  | .name => reader.takeName token
  | .separator => reader.separate token
  | .collectionStart =>
    reader.enter rules (.collection (reader.slot.name?.getD Ty.defaultCollection)) token
  | .tupleStart => reader.enter rules (.tuple reader.slot.name?) token
  | .hashStart => reader.enter rules (.hashKeys (reader.slot.name?.getD Ty.defaultHash)) token
  | .collectionEnd | .tupleEnd | .hashArrow | .hashEnd | .finish => reader.close rules token

/-- The number of terminators that end the list of a group and all that belongs to it. -/
def Group.openLists : Group → Nat
  | .hashKeys _ => 2
  | _ => 1

/-- The number of terminators that end all open groups. -/
def openLists (reader : Reader) : Nat :=
  reader.frames.foldr (fun frame count => frame.group.openLists + count) 0

theorem Frame.openLists_close {frame : Frame} {types : List Ty} {frames : List Frame}
    {outer : Reader} (h : frame.close types frames = .ok outer) :
    outer.openLists + 1 = (Reader.mk types .empty (frame :: frames)).openLists := by
  unfold Frame.close at h
  split at h
  · split at h
    · split at h
      · cases h
        simp [openLists, Group.openLists, *]
        omega
      · cases h
    · cases h
      simp [openLists, Group.openLists, *]
      omega
  · cases h
    simp [openLists, Group.openLists, *]
    omega
  · cases h
    simp [openLists, Group.openLists, *]
    omega
  · cases h
    simp [openLists, Group.openLists, *]
    omega

/-- A terminator that does not stop the reader leaves one list less to be ended. -/
theorem openLists_close {rules : Rules} {reader outer : Reader} {token : Token}
    (h : reader.close rules token = .more outer) : outer.openLists + 1 = reader.openLists := by
  unfold close at h
  split at h
  · cases h
  · split at h
    · cases h
    · split at h
      · cases h
      · next frame frames eq =>
        split at h
        · next closed =>
          cases h
          have := Frame.openLists_close closed
          simpa [openLists, eq] using this
        · cases h

/-- The end of the input ends every open list in turn. -/
def drain (rules : Rules) (reader : Reader) (token : Token) : Except SyntaxError (List Ty) :=
  match _next : reader.close rules token with
  | .stop outcome => outcome
  | .more outer => outer.drain rules token
termination_by reader.openLists
decreasing_by
  have := openLists_close _next
  omega

end Reader

end DocTypes
