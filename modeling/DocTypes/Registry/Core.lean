import DocTypes.Registry.Declaration

/-!
# The core registry

The classes and modules that every program has, with their superclasses, included modules and
methods. Kinds may be listed before their superclasses.
-/

namespace DocTypes.Registry

/-- One class or module of the core. A class is listed with its superclass and a module without. -/
structure CoreKind where
  path : String
  superclass : Option String
  includes : List String
  methods : List String

/-- The methods of the one class that has no superclass. -/
def basicMethods : List String :=
  ["!", "!=", "==", "__id__", "__send__", "equal?", "instance_eval", "instance_exec"]

/-- The other classes and the modules of the core. -/
def coreKinds : List CoreKind :=
  [⟨"Kernel", none, [],
     ["===", "=~", "class", "clone", "display", "dup", "eql?", "freeze", "frozen?", "hash",
      "inspect", "instance_of?", "instance_variables", "is_a?", "itself", "kind_of?", "method",
      "methods", "nil?", "object_id", "public_send", "respond_to?", "send", "tap", "then",
      "to_s"]⟩,
   ⟨"Comparable", none, [], ["<", "<=", ">", ">=", "between?", "clamp"]⟩,
   ⟨"Enumerable", none, [],
     ["all?", "any?", "count", "each_slice", "each_with_index", "each_with_object", "entries",
      "find", "first", "flat_map", "group_by", "include?", "inject", "map", "max", "min",
      "none?", "partition", "reduce", "reject", "select", "sort", "sort_by", "sum", "tally",
      "to_a", "to_set", "uniq", "zip"]⟩,
   ⟨"Object", some "BasicObject", ["Kernel"], []⟩,
   ⟨"NilClass", some "Object", [],
     ["&", "^", "|", "inspect", "nil?", "to_a", "to_f", "to_h", "to_i", "to_s"]⟩,
   ⟨"TrueClass", some "Object", [], ["&", "^", "|", "inspect", "to_s"]⟩,
   ⟨"FalseClass", some "Object", [], ["&", "^", "|", "inspect", "to_s"]⟩,
   ⟨"Numeric", some "Object", ["Comparable"],
     ["+@", "-@", "abs", "ceil", "coerce", "div", "divmod", "floor", "integer?", "negative?",
      "nonzero?", "positive?", "quo", "round", "step", "to_c", "to_int", "truncate", "zero?"]⟩,
   ⟨"Integer", some "Numeric", [],
     ["%", "*", "**", "+", "-", "/", "bit_length", "chr", "digits", "downto", "even?", "gcd",
      "lcm", "next", "odd?", "ord", "pred", "succ", "times", "to_f", "to_i", "to_r", "to_s",
      "upto"]⟩,
   ⟨"Float", some "Numeric", [],
     ["%", "*", "**", "+", "-", "/", "finite?", "infinite?", "nan?", "next_float", "prev_float",
      "rationalize", "to_f", "to_i", "to_r", "to_s"]⟩,
   ⟨"String", some "Object", ["Comparable"],
     ["%", "*", "+", "<<", "[]", "[]=", "bytes", "bytesize", "capitalize", "center", "chars",
      "chomp", "chop", "concat", "downcase", "each_char", "each_line", "empty?", "encoding",
      "end_with?", "gsub", "include?", "index", "length", "lines", "ljust", "lstrip", "match",
      "replace", "reverse", "rjust", "rstrip", "scan", "size", "slice", "split", "start_with?",
      "strip", "sub", "swapcase", "to_c", "to_f", "to_i", "to_r", "to_s", "to_str", "to_sym",
      "tr", "upcase"]⟩,
   ⟨"Symbol", some "Object", ["Comparable"],
     ["[]", "capitalize", "downcase", "empty?", "encoding", "end_with?", "id2name", "length",
      "name", "size", "slice", "start_with?", "succ", "swapcase", "to_proc", "to_s", "to_sym",
      "upcase"]⟩,
   ⟨"Array", some "Object", ["Enumerable"],
     ["&", "*", "+", "-", "<<", "[]", "[]=", "at", "clear", "compact", "concat", "delete", "dig",
      "each", "each_index", "empty?", "fetch", "fill", "first", "flatten", "index", "insert",
      "join", "last", "length", "pack", "pop", "push", "reverse", "rotate", "sample", "shift",
      "shuffle", "size", "slice", "to_a", "to_ary", "to_h", "transpose", "uniq", "unshift",
      "values_at"]⟩,
   ⟨"Hash", some "Object", ["Enumerable"],
     ["[]", "[]=", "clear", "default", "delete", "dig", "each", "each_key", "each_pair",
      "each_value", "empty?", "fetch", "has_key?", "has_value?", "include?", "invert", "key",
      "key?", "keys", "length", "member?", "merge", "size", "store", "to_a", "to_h",
      "transform_keys", "transform_values", "update", "value?", "values", "values_at"]⟩,
   ⟨"Set", some "Object", ["Enumerable"],
     ["&", "+", "-", "<<", "^", "add", "add?", "delete", "each", "empty?", "include?", "length",
      "member?", "merge", "size", "subset?", "superset?", "to_a", "to_set", "union", "|"]⟩,
   ⟨"Struct", some "Object", ["Enumerable"],
     ["==", "[]", "[]=", "deconstruct", "dig", "each", "each_pair", "length", "members", "size",
      "to_a", "to_h", "values", "values_at"]⟩,
   ⟨"Module", some "Object", [],
     ["<", "<=", "===", "ancestors", "const_defined?", "const_get", "constants", "include?",
      "included_modules", "instance_method", "instance_methods", "method_defined?",
      "module_eval", "name", "to_s"]⟩,
   ⟨"Class", some "Module", [], ["allocate", "new", "superclass"]⟩,
   ⟨"Math", none, [], []⟩]

/-- The declarations that define a core kind. -/
def CoreKind.declarations (kind : CoreKind) : List Declaration :=
  (match kind.superclass with
    | some superclass => .defineClass kind.path superclass
    | none => .defineModule kind.path)
  :: kind.includes.map (.mixIn kind.path) ++ [.defineMethods kind.path kind.methods]

/-- The other names of core kinds, and the constants of the core that are no kinds. -/
def coreConstants : List Declaration :=
  [.defineAlias "Fixnum" "Integer", .defineAlias "Bignum" "Integer",
   .defineConstant "Math::PI" "Float", .defineConstant "Math::E" "Float",
   .defineConstant "Float::INFINITY" "Float", .defineConstant "Float::NAN" "Float"]

/-- The registry of the core. -/
def core : Registry :=
  ((empty.define "BasicObject" .instantiable none).declareAll
    (.defineMethods "BasicObject" basicMethods :: coreKinds.flatMap CoreKind.declarations))
    |>.declareAll coreConstants

end DocTypes.Registry
