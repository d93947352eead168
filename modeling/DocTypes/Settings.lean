import DocTypes.Record
import DocTypes.Text

/-!
# Settings

A setting in the environment selects the mode in which types are read. It is written as one of a few
words, in any case of the ASCII letters and with blanks around it. A value that is no such word is
recorded, and the mode is then permissive, as it is without the setting.
-/

namespace DocTypes.Settings

/-- The name of the setting for the mode. -/
def modeVariable : String := "YARD_TYPES_STRICT_BRACKETS"

/-- The words that ask for the strict mode. -/
def strictWords : List String :=
  ["strict", "1", "true", "yes", "on"]

/-- The words that ask for the permissive mode. -/
def permissiveWords : List String :=
  ["permissive", "0", "false", "no", "off", ""]

/-- The value without blanks around it and in lower case. Only ASCII letters have a lower case
here. -/
def normal (value : String) : String :=
  String.ofList ((Text.trim value.toList).map Char.toLower)

/-- The mode that a value asks for. -/
def mode? (value : String) : Option Mode :=
  if normal value ∈ strictWords then some .strict
  else if normal value ∈ permissiveWords then some .permissive
  else none

/-- The mode for a setting that may be absent. -/
def mode (setting : Option String) : Mode :=
  (setting.bind mode?).getD .permissive

/-- The records that taking the setting leaves. -/
def records (setting : Option String) : List Record :=
  match setting with
  | none => []
  | some value => if (mode? value).isSome then [] else [.unknownSetting modeVariable value]

example : mode (some " Strict ") = .strict := by decide
example : mode (some "pedantic") = .permissive := by decide

end DocTypes.Settings
