import DocTypes.Path
import DocTypes.Reading

/-!
# Log records

Reading, checking, configuring and declaring each leave records of what they did. A record is kept
as its cause. Its level, its source and its message are functions of the cause.
-/

namespace DocTypes

/-- How important a record is. -/
inductive Record.Level where
  | trace
  | debug
  | warn
deriving DecidableEq, Repr

/-- The part of the library that leaves a record. -/
inductive Record.Source where
  | scanner
  | reader
  | kinds
  | settings
  | registry
deriving DecidableEq, Repr

/-- Something that is recorded.

* `token`: a token was read.
* `parsed`: a text was read as a list of types.
* `resolved`: the name of a kind was resolved, and the handle will be remembered.
* `unknownSetting`: the value of a setting has no meaning.
* `undefinedIncluder`: a module was to be included into a kind that is not defined.
* `undefinedOwner`: methods were to be added to a kind that is not defined. -/
inductive Record where
  | token (token : Token)
  | parsed (text : String) (types : List Ty)
  | resolved (name : String) (handle : Handle)
  | unknownSetting (setting value : String)
  | undefinedIncluder (included kind : String)
  | undefinedOwner (kind : String)
deriving DecidableEq, Repr

namespace Record

/-- The level of a record. -/
def level : Record → Level
  | .token _ => .trace
  | .parsed _ _ | .resolved _ _ => .debug
  | .unknownSetting _ _ | .undefinedIncluder _ _ | .undefinedOwner _ => .warn

/-- The source of a record. -/
def source : Record → Source
  | .token _ => .scanner
  | .parsed _ _ => .reader
  | .resolved _ _ => .kinds
  | .unknownSetting _ _ => .settings
  | .undefinedIncluder _ _ | .undefinedOwner _ => .registry

/-- The text of a record. -/
def message : Record → String
  | token read =>
    "token " ++ read.kind.label ++ " '" ++ read.text ++ "' at byte " ++ toString read.position
  | .parsed text types =>
    "parsed type annotation '" ++ text ++ "' as '" ++ Ty.renderList types ++ "'"
  | .resolved name handle => "resolved kind '" ++ name ++ "' to " ++ handle.path
  | .unknownSetting setting value =>
    "ignoring unrecognised " ++ setting ++ " value '" ++ value ++ "'"
  | .undefinedIncluder included kind =>
    "cannot include " ++ included ++ " into undefined kind " ++ kind
  | .undefinedOwner kind => "cannot define methods on undefined kind " ++ kind

end Record

/-- The records that reading a text leaves: one for each token, and one for the types. -/
def Reading.records (text : String) (reading : Reading) : List Record :=
  reading.tokens.map .token ++
    match reading.outcome with
    | .ok types => [.parsed text types]
    | .error _ => []

end DocTypes
