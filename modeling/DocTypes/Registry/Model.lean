import DocTypes.Inquiry
import DocTypes.Registry.Ancestors

/-!
# The object model of a registry

A registry knows what a path names, the class of every value, the ancestors of that class, and their
methods.
-/

namespace DocTypes.Registry

/-! ## Looking up constants

A nested path names something only when each scope around it is bound to a kind. The root class and
its ancestors see the constants of the top level, so such a scope in front is dropped, unless the
path as a whole is bound. -/

/-- The path is bound to a kind. -/
def bindsKind (registry : Registry) (path : String) : Bool :=
  match registry.constants.get? path with
  | some (.kind _) => true
  | some (.constant _) | none => false

/-- The kind that the scope stands for is the root class or one of its ancestors. -/
def isObjectScope (registry : Registry) (scope : String) : Bool :=
  registry.canonicalKind scope ∈ registry.ancestors rootClass

/-- The segments of a path without the scopes in front through which the top level is seen. -/
def dropObjectScopes (registry : Registry) : List String → List String
  | [] => []
  | [segment] => [segment]
  | scope :: segments =>
    if registry.constants.contains (Path.join (scope :: segments)) || !registry.isObjectScope scope
    then scope :: segments
    else dropObjectScopes registry segments

/-- Each scope around the last segment of a path is bound to a kind. -/
def scopesAreKinds (registry : Registry) (segments : List String) : Bool :=
  (List.range segments.length).all fun count =>
    count = 0 || registry.bindsKind (Path.scope segments count)

/-- What the segments of a path lead to. -/
def resolveSegments (registry : Registry) (segments : List String) : Resolution :=
  if registry.scopesAreKinds segments then
    match registry.constants.get? (Path.join segments) with
    | some (.kind target) => .kind ⟨target⟩
    | some (.constant className) => .constant className
    | none => .notFound
  else .notFound

/-- What a path leads to. -/
def resolve (registry : Registry) (path : String) : Resolution :=
  registry.resolveSegments (registry.dropObjectScopes (Path.segments (Path.relative path)))

/-! ## Values -/

/-- The name of the class of a value. A module is an instance of `Module` and any other kind of
`Class`. -/
def classOf (registry : Registry) : Value → String
  | .nil => "NilClass"
  | .bool true => "TrueClass"
  | .bool false => "FalseClass"
  | .integer _ => "Integer"
  | .float _ => "Float"
  | .string _ => "String"
  | .symbol _ => "Symbol"
  | .array _ => "Array"
  | .hash _ => "Hash"
  | .set _ => "Set"
  | .kind handle =>
    match registry.flavour? handle.path with
    | some .mixin => "Module"
    | some .instantiable | none => "Class"
  | .object object => object.className

/-- The kind is among the ancestors of the value's class. -/
def isKindOf (registry : Registry) (value : Value) (kind : Handle) : Bool :=
  registry.canonicalKind kind.path ∈ registry.ancestors (registry.classOf value)

/-- The kind under a canonical path has the method. -/
def hasMethod (registry : Registry) (kind method : String) : Bool :=
  match registry.kinds.get? kind with
  | some definition => method ∈ definition.methods
  | none => false

/-- The value has the method of its own. -/
def definesItself (value : Value) (method : String) : Bool :=
  match value with
  | .object object => object.defines method
  | _ => false

/-- The value has the method of its own, or an ancestor of its class gives it. -/
def respondsTo (registry : Registry) (value : Value) (method : String) : Bool :=
  definesItself value method
    || (registry.ancestors (registry.classOf value)).any (registry.hasMethod · method)

/-- The answers of a registry. -/
def model (registry : Registry) : Model where
  resolve := registry.resolve
  isKindOf := registry.isKindOf
  respondsTo := registry.respondsTo

end DocTypes.Registry
