import DocTypes.Proofs.Satisfaction
import DocTypes.Proofs.WellFormed

/-!
# What a failed check blames

A check can fail for three reasons, and for types that were read from a text only two of them are
left: the literals in such types are known words (`Ty.WellFormedList.known`). The error then names a
kind of the types that really stands for no kind, and the alternatives before the one that failed
were refused (`check_error_of_parse`).
-/

namespace DocTypes

open Ty

/-- A check of the types can look the name up: it is the name of a kind, of a collection or of a tuple
somewhere in the types, and not that of the truth values. -/
def Enforces (types : List Ty) (name : String) : Prop :=
  name ≠ booleanKind ∧ ∃ type ∈ withinList types, type.kindName? = some name

/-- The error tells the truth about a name that a check of the types can look up. -/
inductive Blames (model : Model) (types : List Ty) : CheckError → Prop
  | nameLookup {name : String} :
      Enforces types name → model.resolve name = .notFound → Blames model types (.nameLookup name)
  | kindMismatch {name className : String} :
      Enforces types name → model.resolve name = .constant className →
      Blames model types (.kindMismatch name className)

theorem name?_of_kindName? {type : Ty} {name : String} (named : type.kindName? = some name) :
    type.name? = some name := by
  cases type with
  | kind | collection | tuple => exact named
  | duck | literal | hash => cases named

/-- A name that only hashes have is never looked up. -/
theorem not_enforces_of_hashes {types : List Ty} {name : String}
    (onlyHashes : ∀ type ∈ withinList types, type.name? = some name →
      ∃ label keys values, type = .hash label keys values) : ¬ Enforces types name := by
  rintro ⟨-, type, inside, named⟩
  obtain ⟨label, keys, values, rfl⟩ := onlyHashes type inside (name?_of_kindName? named)
  cases named

/-! ## Outcomes with the right errors -/

/-- If the outcome is an error, then it has the property. -/
def FailsOnly (P : CheckError → Prop) (outcome : Except CheckError Bool) : Prop :=
  ∀ error, outcome = .error error → P error

namespace FailsOnly

variable {P : CheckError → Prop} {first second : Except CheckError Bool}

theorem answer (accepted : Bool) : FailsOnly P (pure accepted) :=
  nofun

theorem of_decides {Q : Prop} (h : Decides first Q) : FailsOnly P first := by
  obtain ⟨accepted, rfl, -⟩ := h
  exact answer accepted

theorem bind {next : Bool → Except CheckError Bool} (h : FailsOnly P first)
    (later : ∀ accepted, FailsOnly P (next accepted)) : FailsOnly P (first >>= next) := by
  intro error failed
  cases outcome : first with
  | error before =>
    rw [outcome] at h failed
    cases failed
    exact h error rfl
  | ok accepted =>
    rw [outcome] at failed
    exact later accepted error failed

theorem and (h : FailsOnly P first) (later : FailsOnly P second) :
    FailsOnly P (do if ← first then second else pure false) := by
  refine h.bind fun accepted => ?_
  cases accepted with
  | true => exact later
  | false => exact answer false

theorem or (h : FailsOnly P first) (later : FailsOnly P second) :
    FailsOnly P (do if ← first then pure true else second) := by
  refine h.bind fun accepted => ?_
  cases accepted with
  | true => exact answer true
  | false => exact later

theorem all {α : Type} {outcome : α → Except CheckError Bool}
    (each : ∀ item, FailsOnly P (outcome item)) (items : List α) :
    FailsOnly P (items.allM outcome) := by
  induction items with
  | nil => exact answer true
  | cons item items ih =>
    rw [allM_cons]
    exact (each item).and ih

end FailsOnly

/-! ## Evaluations with the right errors -/

/-- The literals of the types, at any depth, are known words. -/
def KnownLiterals (types : List Ty) : Prop :=
  ∀ name, Ty.literal name ∈ withinList types → name ∈ literalNames

section Evaluations

variable {model : Model} {top : List Ty}

/-- The look-up of a name fails only with the name to blame. -/
theorem failsOnly_evaluateKind {type : Ty} {name : String} (inside : type ∈ withinList top)
    (named : type.kindName? = some name) (value : Value) :
    FailsOnly (Blames model top) (evaluateKind model name value) := by
  intro error failed
  unfold evaluateKind at failed
  split at failed
  · cases failed
  · next other =>
    have enforced : Enforces top name := ⟨other, type, inside, named⟩
    cases found : model.resolve name with
    | kind handle =>
      rw [found] at failed
      cases failed
    | constant className =>
      rw [found] at failed
      cases failed
      exact .kindMismatch enforced found
    | notFound =>
      rw [found] at failed
      cases failed
      exact .nameLookup enforced found

mutual

/-- When the literals are known words, the evaluation of a type blames the right name. -/
theorem Ty.failsOnly_evaluate (known : KnownLiterals top) :
    (type : Ty) → type.within ⊆ withinList top → (value : Value) →
    FailsOnly (Blames model top) (type.evaluate model value)
  | .kind name, inside, value => failsOnly_evaluateKind (inside (mem_within _)) rfl value
  | .duck name, inside, value => .answer _
  | .literal name, inside, value =>
    .of_decides (decides_literal (known name (inside (mem_within _))) value)
  | .collection name types, inside, value => by
    obtain ⟨here, deeper⟩ := List.cons_subset.mp inside
    rw [Ty.evaluate]
    refine (failsOnly_evaluateKind here rfl value).and ?_
    cases value.elements? with
    | none => exact .answer false
    | some elements => exact .all (failsOnly_evaluateAny known types deeper) elements
  | .tuple name types, inside, value => by
    obtain ⟨here, deeper⟩ := List.cons_subset.mp inside
    simp only [Ty.evaluate]
    refine .and ?_ ?_
    · cases name with
      | none => exact .answer true
      | some name => exact failsOnly_evaluateKind here rfl value
    · cases value.sequence? with
      | none => exact .answer false
      | some sequence =>
        by_cases arity : sequence.length = types.length
        · simpa only [if_pos arity] using failsOnly_evaluateEach known types deeper 0 sequence
        · simpa only [if_neg arity] using .answer false
  | .hash name keys values, inside, value => by
    -- Only the types within the hash can fail, for its own name is not looked up.
    obtain ⟨keysInside, valuesInside⟩ := List.append_subset.mp (List.cons_subset.mp inside).2
    rw [Ty.evaluate]
    cases value.columns? with
    | none => exact .answer false
    | some columns =>
      exact .and (.all (failsOnly_evaluateAny known keys keysInside) columns.keys)
        (.all (failsOnly_evaluateAny known values valuesInside) columns.values)

theorem failsOnly_evaluateAny (known : KnownLiterals top) : (types : List Ty) → withinList types ⊆ withinList top →
    (value : Value) → FailsOnly (Blames model top) (evaluateAny model types value)
  | [], inside, value => .answer false
  | type :: types, inside, value => by
    obtain ⟨here, later⟩ := List.append_subset.mp inside
    exact (type.failsOnly_evaluate known here value).or (failsOnly_evaluateAny known types later value)

theorem failsOnly_evaluateEach (known : KnownLiterals top) : (types : List Ty) → withinList types ⊆ withinList top →
    (index : Nat) → (sequence : Sequence) →
    FailsOnly (Blames model top) (evaluateEach model index types sequence)
  | [], inside, index, sequence => .answer true
  | type :: types, inside, index, sequence => by
    obtain ⟨here, later⟩ := List.append_subset.mp inside
    rw [evaluateEach]
    cases sequence.get? index with
    | none => exact .answer false
    | some value =>
      exact (type.failsOnly_evaluate known here value).and
        (failsOnly_evaluateEach known types later (index + 1) sequence)

end

end Evaluations

/-! ## The alternative that fails -/

theorem evaluateAny_singleton (model : Model) (type : Ty) (value : Value) :
    evaluateAny model [type] value = type.evaluate model value := by
  rw [evaluateAny]
  cases type.evaluate model value with
  | error error => rfl
  | ok accepted => cases accepted <;> rfl

/-- When the alternatives come to an error, it is the error of one of them, and those before it were
refused. -/
theorem exists_failed_of_evaluateAny {model : Model} {types : List Ty} {value : Value}
    {error : CheckError} (failed : evaluateAny model types value = .error error) :
    ∃ before type after, types = before ++ type :: after ∧
      (∀ earlier ∈ before, earlier.evaluate model value = .ok false) ∧
      type.evaluate model value = .error error := by
  induction types with
  | nil => cases failed
  | cons type types ih =>
    rw [evaluateAny] at failed
    cases outcome : type.evaluate model value with
    | error found =>
      rw [outcome] at failed
      cases failed
      exact ⟨[], type, types, rfl, by simp, outcome⟩
    | ok accepted =>
      rw [outcome] at failed
      cases accepted with
      | true => cases failed
      | false =>
        obtain ⟨before, later, after, rfl, refused, here⟩ := ih failed
        exact ⟨type :: before, later, after, rfl,
          List.forall_mem_cons.mpr ⟨outcome, refused⟩, here⟩

/-! ## Literals that were read -/

namespace Ty

theorem mem_withinList_iff {inner : Ty} {types : List Ty} :
    inner ∈ withinList types ↔ ∃ type ∈ types, inner ∈ type.within := by
  induction types with
  | nil => simp [withinList]
  | cons type types ih => simp [withinList, ih]

mutual

/-- The literals within a well-formed type are known words. -/
theorem WellFormed.known {name : String} {depth : Nat} {type : Ty} :
    WellFormed depth type → Ty.literal name ∈ type.within → name ∈ literalNames
  | .kind _ _, inside => by simp [within] at inside
  | .duck _ _ _, inside => by simp [within] at inside
  | .literal word, inside => by
    obtain rfl : name = _ := by simpa [within] using inside
    exact word
  | .collection _ _ list, inside => list.known name (by simpa [within] using inside)
  | .tuple _ list, inside => list.known name (by simpa [within] using inside)
  | .hash _ keys values, inside => by
    rw [within, List.mem_cons, List.mem_append] at inside
    obtain same | inKeys | inValues := inside
    · cases same
    · exact keys.known name inKeys
    · exact values.known name inValues

theorem WellFormedList.known {depth : Nat} {types : List Ty} :
    WellFormedList depth types → KnownLiterals types
  | .intro _ members, name, inside => by
    obtain ⟨type, member, within⟩ := mem_withinList_iff.mp inside
    exact (members type member).known within

end

end Ty

/-- When the check of types that were read from a text fails, in either mode and by any model:

* no literal is to blame;
* a name that is to blame is that of a kind, a collection or a tuple of the types, it is not the name
  of the truth values, and it stands for what the error says;
* a name that only hashes have is not to blame;
* it is the error of one alternative, and the value did not satisfy those before it. -/
theorem check_error_of_parse {mode : Mode} {text : String} {types : List Ty} {model : Model}
    {value : Value} {error : CheckError} (parsed : parse mode text = .ok types)
    (failed : ((Checker.ofTypes types).check model value).outcome = .error error) :
    (∀ name, error ≠ .unsupportedLiteral name) ∧
      (∀ name, error = .nameLookup name →
        Enforces types name ∧ model.resolve name = .notFound) ∧
      (∀ name className, error = .kindMismatch name className →
        Enforces types name ∧ model.resolve name = .constant className) ∧
      (∀ name, (∀ type ∈ Ty.withinList types, type.name? = some name →
          ∃ label keys values, type = .hash label keys values) →
        error ≠ .nameLookup name ∧ ∀ className, error ≠ .kindMismatch name className) ∧
      ∃ before type after, types = before ++ type :: after ∧
        (∀ earlier ∈ before,
          ((Checker.ofTypes [earlier]).check model value).outcome = .ok false) ∧
        ((Checker.ofTypes [type]).check model value).outcome = .error error := by
  simp only [check_ofTypes, evaluateAny_singleton] at failed ⊢
  have blames : Blames model types error :=
    failsOnly_evaluateAny (wellFormedList_of_parse parsed).known types (List.Subset.refl _) value
      error failed
  refine ⟨?_, ?_, ?_, ?_, exists_failed_of_evaluateAny failed⟩
  · rintro name rfl
    cases blames
  · rintro name rfl
    cases blames with
    | nameLookup enforced missing => exact ⟨enforced, missing⟩
  · rintro name className rfl
    cases blames with
    | kindMismatch enforced found => exact ⟨enforced, found⟩
  · intro name onlyHashes
    have free : ¬ Enforces types name := not_enforces_of_hashes onlyHashes
    constructor
    · rintro rfl
      cases blames with
      | nameLookup enforced _ => exact free enforced
    · rintro className rfl
      cases blames with
      | kindMismatch enforced _ => exact free enforced

/-- The last item of an array in a hash meets a name that stands for nothing. The name of the hash
stands for nothing either, and is not to blame. -/
theorem check_error_of_parse_nested :
    parse .permissive "Symbol, Gone\x7bString => <Integer, Missing>" =
        .ok [.kind "Symbol", .hash "Gone" [.kind "String"]
          [.collection "Array" [.kind "Integer", .kind "Missing"]]] ∧
      ((Checker.ofTypes [.kind "Symbol", .hash "Gone" [.kind "String"]
          [.collection "Array" [.kind "Integer", .kind "Missing"]]]).check Registry.core.model
        (.hash [(.string "a", .array [.integer 1, .nil])])).outcome =
          .error (.nameLookup "Missing") ∧
      Enforces [.kind "Symbol", .hash "Gone" [.kind "String"]
          [.collection "Array" [.kind "Integer", .kind "Missing"]]] "Missing" ∧
      Registry.core.resolve "Missing" = .notFound := by
  have parsed : parse .permissive "Symbol, Gone\x7bString => <Integer, Missing>" =
      .ok [.kind "Symbol", .hash "Gone" [.kind "String"]
        [.collection "Array" [.kind "Integer", .kind "Missing"]]] := by
    decide +kernel
  have failed : ((Checker.ofTypes [.kind "Symbol", .hash "Gone" [.kind "String"]
        [.collection "Array" [.kind "Integer", .kind "Missing"]]]).check Registry.core.model
      (.hash [(.string "a", .array [.integer 1, .nil])])).outcome =
        .error (.nameLookup "Missing") := by
    decide +kernel
  exact ⟨parsed, failed, (check_error_of_parse parsed failed).2.1 "Missing" rfl⟩

end DocTypes
