import DocTypes.NameSet
import DocTypes.Path
import DocTypes.Table

/-!
# Registries of classes, modules and constants

A registry has two tables. One holds the definitions of the kinds, that is, of the classes and
modules. The other says what each constant path is bound to: a kind, perhaps under another path, or
a value of some class. All paths in the tables are relative, without a double colon in front.
-/

namespace DocTypes

/-- Whether a kind has instances, as a class has, or is only mixed into other kinds, as a module
is. -/
inductive Flavour where
  | instantiable
  | mixin
deriving DecidableEq, Repr

/-- The definition of a class or module: the modules it includes, in the order in which they were
included, and the methods that it gives to its instances. -/
structure Definition where
  flavour : Flavour
  superclass : Option String
  includes : List String
  methods : NameSet
deriving DecidableEq, Repr

/-- What a constant path is bound to: the kind defined under a path, or a value of a class. -/
inductive Binding where
  | kind (path : String)
  | constant (className : String)
deriving DecidableEq, Repr

/-- The defined kinds and the bound constants. -/
structure Registry where
  kinds : Table Definition
  constants : Table Binding

namespace Definition

/-- A kind that includes nothing and has no methods yet. -/
def plain (flavour : Flavour) (superclass : Option String) : Definition :=
  ⟨flavour, superclass, [], .empty⟩

/-- The definition with one module more, unless it is included already. -/
def mixIn (definition : Definition) (included : String) : Definition :=
  if included ∈ definition.includes then definition
  else { definition with includes := definition.includes ++ [included] }

/-- The definition with more methods. -/
def addMethods (definition : Definition) (methods : List String) : Definition :=
  { definition with methods := definition.methods.insertAll methods }

/-- The kinds whose methods an instance finds next: the last included module comes first, and the
superclass after all modules. -/
def parents (definition : Definition) : List String :=
  definition.includes.reverse ++ definition.superclass.toList

end Definition

namespace Registry

/-- The registry that defines nothing. -/
def empty : Registry := ⟨.empty, .empty⟩

/-- The path of the kind that a path stands for: what it is bound to, or else the path itself. -/
def canonicalKind (registry : Registry) (path : String) : String :=
  match registry.constants.get? (Path.relative path) with
  | some (.kind target) => target
  | some (.constant _) | none => Path.relative path

/-- The definition of the kind that a path stands for. -/
def definition? (registry : Registry) (path : String) : Option Definition :=
  registry.kinds.get? (registry.canonicalKind path)

/-- The flavour of the kind that a path stands for. -/
def flavour? (registry : Registry) (path : String) : Option Flavour :=
  (registry.definition? path).map Definition.flavour

end Registry

end DocTypes
