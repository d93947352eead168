import DocTypes.Proofs.Run
import DocTypes.Proofs.Scan

/-!
# Well-formed types

A list of types is well-formed when its names have the forms that a scan cuts off, its bare names
stand for what they are, no list in it is empty, and its composites are nested no deeper than a
given depth. Every list of types that is read is well-formed (`wellFormedList_of_parse`): whatever
the mode, each token keeps the finished alternatives, the slot and the open groups of a reader
well-formed (`Reader.WellFormed.advance`).
-/

namespace DocTypes

open Token

namespace Ty

mutual

/-- `WellFormed depth type`: the names of the type have their forms, and composites are nested at
most `depth` deep.

* `kind`: a path that is no literal.
* `duck`: a word after `#`, which is the method.
* `literal`: one of the words that are literals.
* `collection`, `tuple`, `hash`: any name, where one is given, and well-formed lists. A collection
  does not have the name of a hash. -/
inductive WellFormed : Nat → Ty → Prop
  | kind {depth : Nat} {name : String} :
      PathForm name.toList → name ∉ literalNames → WellFormed depth (.kind name)
  | duck {depth : Nat} {name : String} {word : List Char} :
      WordForm word → name.toList = duckMarker :: word → message name = String.ofList word →
      WellFormed depth (.duck name)
  | literal {depth : Nat} {name : String} :
      name ∈ literalNames → WellFormed depth (.literal name)
  | collection {depth : Nat} {name : String} {types : List Ty} :
      NameForm name.toList → name ≠ defaultHash → WellFormedList depth types →
      WellFormed (depth + 1) (.collection name types)
  | tuple {depth : Nat} {name : Option String} {types : List Ty} :
      (∀ given ∈ name, NameForm given.toList) → WellFormedList depth types →
      WellFormed (depth + 1) (.tuple name types)
  | hash {depth : Nat} {name : String} {keys values : List Ty} :
      NameForm name.toList → WellFormedList depth keys → WellFormedList depth values →
      WellFormed (depth + 1) (.hash name keys values)

/-- The list is not empty and its members are well-formed. -/
inductive WellFormedList : Nat → List Ty → Prop
  | intro {depth : Nat} {types : List Ty} :
      types ≠ [] → (∀ type ∈ types, WellFormed depth type) → WellFormedList depth types

end

/-! ## Bare names -/

theorem ofName_of_duck {name : String} {word : List Char} (h : name.toList = duckMarker :: word) :
    ofName name = .duck name := by
  rw [ofName, if_pos (by rw [h]; rfl)]

theorem message_of_duck {name : String} {word : List Char} (h : name.toList = duckMarker :: word) :
    message name = String.ofList word := by
  simp [message, h]

theorem head?_ne_of_pathForm {text : List Char} (form : PathForm text) :
    text.head? ≠ some duckMarker := by
  obtain ⟨c, tail, -, noHash, rfl⟩ := form.head
  exact fun eq => noHash (Option.some.inj eq)

theorem ofName_of_kind {name : String} (form : PathForm name.toList) (h : name ∉ literalNames) :
    ofName name = .kind name := by
  rw [ofName, if_neg (head?_ne_of_pathForm form), if_neg h]

theorem pathForm_of_literal {name : String} (h : name ∈ literalNames) : PathForm name.toList := by
  refine pathForm_of_wordForm ?_
  simp only [literalNames, List.mem_cons, List.not_mem_nil, or_false] at h
  rcases h with rfl | rfl | rfl | rfl | rfl <;> decide

theorem ofName_of_literal {name : String} (h : name ∈ literalNames) :
    ofName name = .literal name := by
  rw [ofName, if_neg (head?_ne_of_pathForm (pathForm_of_literal h)), if_pos h]

/-- What a bare name stands for is well-formed. -/
theorem wellFormed_ofName {name : String} (form : NameForm name.toList) (depth : Nat) :
    WellFormed depth (ofName name) := by
  rcases form with path | ⟨word, letters, eq⟩
  · by_cases literal : name ∈ literalNames
    · rw [ofName_of_literal literal]
      exact .literal literal
    · rw [ofName_of_kind path literal]
      exact .kind path literal
  · rw [ofName_of_duck eq]
    exact .duck letters eq (message_of_duck eq)

theorem nameForm_defaultCollection : NameForm defaultCollection.toList :=
  .inl (pathForm_of_wordForm (by decide))

theorem nameForm_defaultHash : NameForm defaultHash.toList :=
  .inl (pathForm_of_wordForm (by decide))

end Ty

/-! ## Readers -/

namespace Reader

/-- The name in the slot has the form of a name, and the composite is well-formed. -/
def Slot.WellFormed (depth : Nat) (slot : Slot) : Prop :=
  (∀ given ∈ slot.name?, NameForm given.toList) ∧
    ∀ type ∈ slot.type?, type.WellFormed depth

/-- The name of the group has the form of a name, and the keys of a hash are well-formed. -/
def Group.WellFormed (depth : Nat) : Group → Prop
  | .collection name => NameForm name.toList
  | .tuple name => ∀ given ∈ name, NameForm given.toList
  | .hashKeys name => NameForm name.toList
  | .hashValues name keys => NameForm name.toList ∧ Ty.WellFormedList depth keys

/-- What was read around the open groups is well-formed. Within them the depth `depth` is left of
`limit`. -/
inductive Nested (limit : Nat) : Nat → List Frame → Prop
  | outermost : Nested limit limit []
  | group {depth : Nat} {frame : Frame} {frames : List Frame} :
      Nested limit (depth + 1) frames → (∀ type ∈ frame.types, type.WellFormed (depth + 1)) →
      frame.group.WellFormed depth → Nested limit depth (frame :: frames)

/-- All that a reader holds is well-formed. -/
inductive WellFormed (limit : Nat) : Reader → Prop
  | intro {depth : Nat} {types : List Ty} {slot : Slot} {frames : List Frame} :
      Nested limit depth frames → (∀ type ∈ types, type.WellFormed depth) →
      slot.WellFormed depth → WellFormed limit ⟨types, slot, frames⟩

section Invariant

variable {limit depth : Nat} {reader next outer : Reader} {token : Token} {frame : Frame}
  {frames : List Frame} {types : List Ty} {type : Ty} {name : Option String} {group : Group}

theorem Nested.depth_add_length (h : Nested limit depth frames) :
    depth + frames.length = limit := by
  induction h with
  | outermost => rfl
  | group _ _ _ ih =>
    rw [List.length_cons, Nat.add_comm _ 1, ← Nat.add_assoc]
    exact ih

/-- Below the limit a further group can be opened. -/
theorem Nested.exists_less (h : Nested limit depth frames) (below : frames.length < limit) :
    ∃ less, depth = less + 1 := by
  have left := h.depth_add_length
  exact ⟨depth - 1, by omega⟩

theorem wellFormed_empty : Slot.WellFormed depth .empty := by
  constructor <;> intro _ h <;> cases h

theorem wellFormed_name {given : String} (form : NameForm given.toList) :
    Slot.WellFormed depth (.name given) := by
  constructor
  · rintro _ ⟨⟩
    exact form
  · rintro _ ⟨⟩
    exact Ty.wellFormed_ofName form depth

theorem wellFormed_composite (named : ∀ given ∈ name, NameForm given.toList)
    (h : type.WellFormed depth) : Slot.WellFormed depth (.composite name type) := by
  refine ⟨named, ?_⟩
  rintro _ ⟨⟩
  exact h

theorem forall_mem_some {given : String} (form : NameForm given.toList) :
    ∀ other ∈ some given, NameForm other.toList := by
  rintro _ ⟨⟩
  exact form

theorem nameForm_getD {default : String} (named : ∀ given ∈ name, NameForm given.toList)
    (form : NameForm default.toList) : NameForm (name.getD default).toList := by
  cases name with
  | none => exact form
  | some given => exact named given rfl

/-- An opening bracket after a name, or without one, opens a well-formed group. -/
theorem wellFormed_of_opened? {kind : Token.Kind} (named : ∀ given ∈ name, NameForm given.toList)
    (h : Group.opened? name kind = some group) : group.WellFormed depth := by
  cases kind <;> cases h
  · exact nameForm_getD named Ty.nameForm_defaultCollection
  · exact named
  · exact nameForm_getD named Ty.nameForm_defaultHash

theorem wellFormed_snoc (h : ∀ type ∈ types, type.WellFormed depth) (last : type.WellFormed depth) :
    ∀ other ∈ types ++ [type], other.WellFormed depth := by
  intro other member
  rcases List.mem_append.mp member with before | here
  · exact h other before
  · rw [List.mem_singleton.mp here]
    exact last

/-- A group whose list is well-formed leaves a well-formed reader. -/
theorem WellFormed.of_closes (outside : Nested limit (depth + 1) frames)
    (before : ∀ type ∈ frame.types, type.WellFormed (depth + 1))
    (named : frame.group.WellFormed depth) (list : Ty.WellFormedList depth types)
    (closes : Closes frame types frames outer) : WellFormed limit outer := by
  cases closes with
  | collection group other =>
    rw [group] at named
    exact .intro outside before
      (wellFormed_composite (forall_mem_some named) (.collection named other list))
  | shorthand group pair =>
    rw [group] at named
    subst pair
    obtain ⟨-, members⟩ := list
    -- The pair is one list, and a hash has two.
    have single : ∀ type ∈ [_, _], Ty.WellFormedList depth [type] := fun type member =>
      .intro (by simp) fun other here => List.mem_singleton.mp here ▸ members type member
    exact .intro outside before (wellFormed_composite (forall_mem_some named)
      (.hash named (single _ (by simp)) (single _ (by simp))))
  | tuple group =>
    rw [group] at named
    exact .intro outside before (wellFormed_composite named (.tuple named list))
  | keys group =>
    rw [group] at named
    have inside : Nested limit depth ({ frame with group := .hashValues _ types } :: frames) :=
      .group outside before ⟨named, list⟩
    exact .intro inside (by simp) wellFormed_empty
  | values group =>
    rw [group] at named
    exact .intro outside before
      (wellFormed_composite (forall_mem_some named.1) (.hash named.1 named.2 list))

/-- Each token whose name has the form of a name keeps a reader well-formed. -/
theorem WellFormed.advance {mode : Mode} (h : WellFormed limit reader)
    (named : token.kind = .name → NameForm token.text.toList)
    (advance : Advance ⟨mode, some limit⟩ reader token next) : WellFormed limit next := by
  obtain @⟨depth, types, slot, frames, nested, before, held⟩ := h
  cases advance with
  | blank => exact .intro nested before held
  | name kind empty => exact .intro nested before (wellFormed_name (named kind))
  | separator kind stands =>
    exact .intro nested (wellFormed_snoc before (held.2 _ stands)) wellFormed_empty
  | opener opens first room =>
    -- The name is that of a composite when a group in permissive mode replaces it.
    obtain ⟨less, rfl⟩ := nested.exists_less (room limit rfl)
    have inside : Nested limit less (⟨types, token, _⟩ :: frames) :=
      .group nested before (wellFormed_of_opened? held.1 opens)
    exact .intro inside (by simp) wellFormed_empty
  | terminator ends stands right inner closes =>
    subst inner
    cases nested with
    | group outside around opened =>
      have list : Ty.WellFormedList depth (types ++ [_]) :=
        .intro (by simp) (wellFormed_snoc before (held.2 _ stands))
      exact .of_closes outside around opened list closes

/-- A well-formed reader stops with well-formed types. -/
theorem WellFormed.stops {rules : Rules} (h : WellFormed limit reader)
    (stops : reader.step rules token = .stop (.ok types)) : Ty.WellFormedList limit types := by
  obtain ⟨-, type, stands, -, outermost, rfl⟩ := step_eq_ok_iff.mp stops
  obtain ⟨nested, before, held⟩ := h
  subst outermost
  cases nested with
  | outermost => exact .intro (by simp) (wellFormed_snoc before (held.2 type stands))

end Invariant

end Reader

/-- In either mode, what is read is well-formed within the limit on nesting. -/
theorem wellFormedList_of_read {mode : Mode} {limit : Nat} {text : String} {types : List Ty}
    (h : (Reading.ofText ⟨mode, some limit⟩ text).outcome = .ok types) :
    Ty.WellFormedList limit types := by
  have start : Reader.WellFormed limit .start :=
    .intro .outermost (by simp) Reader.wellFormed_empty
  refine Reading.outcome_induction (Q := fun outcome => outcome = .ok types → _) ?_ ?_ ?_ start h
  · intro reader next token source wellFormed advance
    refine wellFormed.advance (fun kind => ?_) advance
    rcases source with scanned | rfl
    · have form := Scan.form_of_mem_tokens scanned
      rwa [kind] at form
    · cases kind
  · rintro reader token outcome - wellFormed stops rfl
    exact wellFormed.stops stops
  · intro c failed
    cases failed

theorem wellFormedList_of_parse {mode : Mode} {text : String} {types : List Ty}
    (h : parse mode text = .ok types) : Ty.WellFormedList Reader.nestingLimit types :=
  wellFormedList_of_read h

end DocTypes
