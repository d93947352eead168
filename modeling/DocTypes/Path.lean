/-!
# Constant paths

The path of a constant is its name within its scopes, joined by double colons, such as
`Net::HTTP`. A double colon in front says that the path starts at the top level, which it does in
any case. `segments` cuts a path at its double colons, from the left, and `join` puts the segments
together again (`join_segments`).

A class or module is known by its canonical path, which is its `Handle`. A `Resolution` is what
looking up the path of a constant leads to.
-/

namespace DocTypes

namespace Path

/-- The path without one double colon in front. -/
def relative (path : String) : String :=
  match path.toList with
  | ':' :: ':' :: rest => String.ofList rest
  | _ => path

/-- Cuts a text at its double colons, each found to the right of the one before. -/
def cut : List Char → List (List Char)
  | ':' :: ':' :: rest => [] :: cut rest
  | c :: rest =>
    match cut rest with
    | segment :: segments => (c :: segment) :: segments
    | [] => [[c]]
  | [] => [[]]

/-- Puts segments together with double colons between them. -/
def glue : List (List Char) → List Char
  | [] => []
  | [segment] => segment
  | segment :: segments => segment ++ ':' :: ':' :: glue segments

/-- The segments of a path. -/
def segments (path : String) : List String :=
  (cut path.toList).map String.ofList

/-- The path with the given segments. -/
def join (segments : List String) : String :=
  String.ofList (glue (segments.map String.toList))

/-- The scope made of the first segments of a path. -/
def scope (segments : List String) (count : Nat) : String :=
  join (segments.take count)

theorem cut_ne_nil (text : List Char) : cut text ≠ [] := by
  fun_cases cut text <;> simp

theorem glue_cut (text : List Char) : glue (cut text) = text := by
  fun_induction cut text with
  | case1 rest ih =>
    obtain ⟨segment, segments, eq⟩ := List.exists_cons_of_ne_nil (cut_ne_nil rest)
    rw [eq] at ih ⊢
    simp [glue, ih]
  | case2 c rest _ segment segments eq ih =>
    rw [eq] at ih
    cases segments <;> simp_all [glue]
  | case3 c rest _ eq => exact absurd eq (cut_ne_nil rest)
  | case4 => rfl

theorem join_segments (path : String) : join (segments path) = path := by
  have texts : (segments path).map String.toList = cut path.toList := by
    simp [segments, Function.comp_def]
  rw [join, texts, glue_cut, String.ofList_toList]

example : segments "A::B::C" = ["A", "B", "C"] := by decide
example : segments "a:::b" = ["a", ":b"] := by decide
example : scope ["A", "B", "C"] 2 = "A::B" := by decide

end Path

/-! ## What a path leads to -/

/-- A resolved class or module, such as `Comparable` or `Net::HTTP`. -/
structure Handle where
  path : String
deriving DecidableEq, Repr

namespace Handle

/-- Handles are ordered by the code points of their paths, which is also the order of the bytes of
their UTF-8 forms. -/
def le (a b : Handle) : Bool :=
  a.path ≤ b.path

/-- The different handles of a list in ascending order. -/
def ascending (handles : List Handle) : List Handle :=
  handles.eraseDups.mergeSort le

/-- The greatest handle of a list. -/
def greatest? (handles : List Handle) : Option Handle :=
  (ascending handles).getLast?

end Handle

/-- A path names a class or module, or a constant that is an instance of a class, or nothing. -/
inductive Resolution where
  | kind (handle : Handle)
  | constant (className : String)
  | notFound
deriving DecidableEq, Repr

end DocTypes
