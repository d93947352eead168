import DocTypes.Record
import DocTypes.Registry

/-!
# Declarations

A registry is built by declarations, each of which names a path and says something about it. A
declaration about a kind that is not defined changes nothing and leaves a warning.
-/

namespace DocTypes

/-- One step in building a registry.

* `defineClass` and `defineModule` define a kind, or reopen it without changing what it is, and bind
  its path to it.
* `mixIn` includes a module into a defined kind, once.
* `defineMethods` adds methods to a defined kind.
* `defineConstant` binds a path to a value of a class.
* `defineAlias` binds a path to the kind that the target stands for at that moment. -/
inductive Declaration where
  | defineClass (path superclass : String)
  | defineModule (path : String)
  | mixIn (path included : String)
  | defineMethods (path : String) (methods : List String)
  | defineConstant (path className : String)
  | defineAlias (path target : String)
deriving DecidableEq, Repr

/-- The path that a declaration is about. -/
def Declaration.path : Declaration → String
  | .defineClass path _ => path
  | .defineModule path => path
  | .mixIn path _ => path
  | .defineMethods path _ => path
  | .defineConstant path _ => path
  | .defineAlias path _ => path

namespace Registry

/-- Binds a path. -/
def bind (registry : Registry) (path : String) (binding : Binding) : Registry :=
  { registry with constants := registry.constants.insert (Path.relative path) binding }

/-- Defines a kind, unless it is defined already, and binds its path to it. -/
def define (registry : Registry) (path : String) (flavour : Flavour) (superclass : Option String) :
    Registry where
  kinds := registry.kinds.insertNew (Path.relative path)
    (.plain flavour (superclass.map Path.relative))
  constants := registry.constants.insert (Path.relative path) (.kind (Path.relative path))

/-- Changes the definition under a path, if there is one. -/
def amend (registry : Registry) (path : String) (change : Definition → Definition) : Registry :=
  { registry with kinds := registry.kinds.adjust (Path.relative path) change }

/-- The registry after a declaration. -/
def declare (registry : Registry) : Declaration → Registry
  | .defineClass path superclass => registry.define path .instantiable (some superclass)
  | .defineModule path => registry.define path .mixin none
  | .mixIn path included => registry.amend path (·.mixIn (Path.relative included))
  | .defineMethods path methods => registry.amend path (·.addMethods methods)
  | .defineConstant path className => registry.bind path (.constant className)
  | .defineAlias path target => registry.bind path (.kind (registry.canonicalKind target))

/-- The registry after declarations in order. -/
def declareAll (registry : Registry) (declarations : List Declaration) : Registry :=
  declarations.foldl declare registry

/-- The warnings that a declaration leaves in a registry. -/
def warnings (registry : Registry) : Declaration → List Record
  | .mixIn path included =>
    if registry.kinds.contains (Path.relative path) then []
    else [.undefinedIncluder (Path.relative included) path]
  | .defineMethods path _ =>
    if registry.kinds.contains (Path.relative path) then [] else [.undefinedOwner path]
  | _ => []

end Registry

end DocTypes
