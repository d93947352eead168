import DocTypes.Proofs.Bracketed

/-!
# A second body replaces the first

In permissive mode brackets may be opened after a composite, which they replace. All that is left of
the replaced body is the name in the slot. It is the name that was written or, after a collection or
a hash without one, their default name. So the second body stands for what it stands for after
this name (`replaced_body_leaves_name`), and not always for what it stands for where the first body
is not there: see `tuple_takes_default_name`.
-/

namespace DocTypes

open Reader Token Grammar

namespace Reader

variable {nesting : Option Nat} {types : List Ty} {slot other : Slot} {frames : List Frame}
  {token : Token}

/-- Permissive mode opens a group after a composite as it does after its name alone. -/
theorem step_opener_of_name? {group : Group}
    (opens : Group.opened? slot.name? token.kind = some group) (same : slot.name? = other.name?) :
    Reader.step ⟨.permissive, nesting⟩ ⟨types, slot, frames⟩ token =
      Reader.step ⟨.permissive, nesting⟩ ⟨types, other, frames⟩ token := by
  have opens' : Group.opened? other.name? token.kind = some group := same ▸ opens
  rw [step_of_opened? opens, step_of_opened? opens']
  simp [enter, exceeded?]

end Reader

section Replacement

variable {name : Option String} {first second : String} {body replaced : Body}
  {tokens : List Token} {opener : Token}

theorem Encloses.exists_opened (encloses : Encloses body opener tokens) (name : Option String) :
    ∃ group, Group.opened? name opener.kind = some group := by
  cases encloses with
  | collection start | tuple start | hash start => exact ⟨_, congrArg _ start⟩

theorem Body.named_kept (named : ∀ given ∈ name, NameForm given.toList) :
    ∀ given ∈ body.kept name, NameForm given.toList := by
  cases body with
  | collection => exact forall_mem_some (nameForm_getD named Ty.nameForm_defaultCollection)
  | tuple => exact named
  | hash => exact forall_mem_some (nameForm_getD named Ty.nameForm_defaultHash)

/-- The tokens of a second body are read after a composite as they are after the name that it keeps. -/
theorem Encloses.outcome_eq {slot other : Slot} {ending : Scan.Ending} {stop : Nat}
    (encloses : Encloses body opener tokens) (same : slot.name? = other.name?) :
    (Reading.ofTokens (Mode.rules .permissive) ending stop ⟨[], slot, []⟩ (opener :: tokens)).outcome =
      (Reading.ofTokens (Mode.rules .permissive) ending stop ⟨[], other, []⟩
        (opener :: tokens)).outcome := by
  obtain ⟨group, opens⟩ := encloses.exists_opened slot.name?
  simp only [Reading.ofTokens, Mode.rules, step_opener_of_name? opens same]

/-- A second body is read as it is after the name that the first one leaves. -/
theorem Bracketed.parse_replaced_iff {type : Ty} {types : List Ty}
    (named : ∀ given ∈ name, NameForm given.toList) (before : Bracketed first replaced)
    (after : Bracketed second body) (stands : replaced.type? name = some type) :
    parse .permissive (name.getD "" ++ first ++ second) = .ok types ↔
      parse .permissive ((replaced.kept name).getD "" ++ second) = .ok types := by
  obtain ⟨label, written, labelled⟩ := (Spells.label? named .nil).madeOf
  have named' : ∀ given ∈ replaced.kept name, NameForm given.toList := Body.named_kept named
  obtain ⟨label', written', labelled'⟩ := (Spells.label? named' .nil).madeOf
  obtain ⟨opener, tokens, made, encloses⟩ := before.exists_encloses
  obtain ⟨opener', tokens', made', encloses'⟩ := after.exists_encloses
  have whole := (written.append made (.inr before.breaks)).append made' (.inr after.breaks)
  have alone := written'.append made' (.inr after.breaks)
  obtain ⟨slot, keeps, -, reads⟩ : ∃ slot : Slot, slot.name? = replaced.kept name ∧
      slot.isComposite = false ∧ Reads (Mode.rules .permissive) .start label' ⟨[], slot, []⟩ :=
    labelled'.reads _ [] []
  have rest : Slot.name? (.composite (replaced.kept name) type) = slot.name? := keeps.symm
  show (Reading.ofText (Mode.rules .permissive) _).outcome = .ok types ↔
    (Reading.ofText (Mode.rules .permissive) _).outcome = .ok types
  rw [whole.outcome_eq_ok_iff, alone.outcome_eq_ok_iff,
    Reading.outcome_of_reads (encloses.reads labelled stands .permissive),
    Reading.outcome_of_reads reads, encloses'.outcome_eq rest]

/-- The name that a body leaves makes no difference to a second body exactly if it was written, or
there is none, or it is the default name of both. -/
theorem Body.type?_kept_iff : body.type? (replaced.kept name) = body.type? name ↔
    name.isSome ∨ replaced.opener = .tupleStart ∨ replaced.opener = body.opener := by
  cases name with
  | some given => cases replaced <;> simp [kept]
  | none =>
    cases replaced with
    | tuple => simp [kept, opener]
    | collection =>
      cases body <;> simp [kept, type?, opener, Ty.defaultCollection, Ty.defaultHash]
    | hash =>
      cases body with
      | collection types =>
        rcases types with _ | ⟨key, _ | ⟨value, _ | _⟩⟩ <;>
          simp [kept, type?, opener, Ty.defaultHash]
      | tuple => simp [kept, type?, opener]
      | hash => simp [kept, type?, opener]

/-- All that a second body keeps of the first is the name in the slot. It stands for what it stands for
after this name. That is what it stands for without the first body if a name was written, or the
first body is a tuple, or both have the same brackets, and it is something else otherwise. -/
theorem replaced_body_leaves_name (named : ∀ given ∈ name, NameForm given.toList)
    (before : Bracketed first replaced) (after : Bracketed second body)
    (accepted : ∃ types, parse .permissive (name.getD "" ++ first) = .ok types) :
    (parse .permissive (name.getD "" ++ first ++ second)).toOption =
        (parse .permissive ((replaced.kept name).getD "" ++ second)).toOption ∧
      ((parse .permissive (name.getD "" ++ first ++ second)).toOption =
          (parse .permissive (name.getD "" ++ second)).toOption ↔
        name.isSome ∨ replaced.opener = .tupleStart ∨ replaced.opener = body.opener) := by
  have stands : ∃ type, replaced.type? name = some type := by
    obtain ⟨types, read⟩ := accepted
    have kept := before.toOption_parse named .permissive
    rw [read] at kept
    obtain ⟨type, stands, -⟩ := Option.map_eq_some_iff.mp kept.symm
    exact ⟨type, stands⟩
  obtain ⟨type, stands⟩ := stands
  have same : (parse .permissive (name.getD "" ++ first ++ second)).toOption =
      (parse .permissive ((replaced.kept name).getD "" ++ second)).toOption :=
    toOption_eq_of_ok_iff fun _ => before.parse_replaced_iff named after stands
  refine ⟨same, ?_⟩
  rw [same, after.toOption_parse (Body.named_kept named), after.toOption_parse named,
    ← Body.type?_kept_iff]
  exact (Option.map_injective fun _ _ => List.singleton_inj.mp).eq_iff

/-- Braces after angle brackets without a name are those of an array. After a written name they are
what they are without the first body. -/
theorem replaced_body_leaves_name_array :
    (parse .permissive "<A>\x7bb=>c\x7d").toOption =
        (parse .permissive "Array\x7bb=>c\x7d").toOption ∧
      (parse .permissive "<A>\x7bb=>c\x7d").toOption ≠
        (parse .permissive "\x7bb=>c\x7d").toOption ∧
      (parse .permissive "Set<A>\x7bb=>c\x7d").toOption =
        (parse .permissive "Set\x7bb=>c\x7d").toOption := by
  have before : Bracketed ("<" ++ "A" ++ ">") (.collection [.kind "A"]) :=
    .collection (by decide +kernel)
  have after : Bracketed ("\x7b" ++ "b" ++ "=>" ++ "c" ++ "\x7d") (.hash [.kind "b"] [.kind "c"]) :=
    .hash (by decide +kernel) (by decide +kernel)
  have unnamed : ∀ given ∈ (none : Option String), NameForm given.toList := by simp
  have named : ∀ given ∈ some "Set", NameForm given.toList :=
    forall_mem_some (.inl (pathForm_of_wordForm (by decide)))
  obtain ⟨array, other⟩ := replaced_body_leaves_name unnamed before after
    ⟨[.collection "Array" [.kind "A"]], by decide +kernel⟩
  obtain ⟨-, same⟩ := replaced_body_leaves_name named before after
    ⟨[.collection "Set" [.kind "A"]], by decide +kernel⟩
  exact ⟨array, mt other.mp (by decide), same.mpr (.inl rfl)⟩

/-- A tuple is named like the collection that it replaces, although no name was written. -/
theorem tuple_takes_default_name :
    Bracketed "<A>" (.collection [.kind "A"]) ∧ Bracketed "(B)" (.tuple [.kind "B"]) ∧
      (∃ types, parse .permissive "<A>" = .ok types) ∧
      parse .permissive "<A>(B)" = .ok [.tuple (some "Array") [.kind "B"]] ∧
      parse .permissive "(B)" = .ok [.tuple none [.kind "B"]] := by
  have before : Bracketed ("<" ++ "A" ++ ">") (.collection [.kind "A"]) :=
    .collection (by decide +kernel)
  have after : Bracketed ("(" ++ "B" ++ ")") (.tuple [.kind "B"]) := .tuple (by decide +kernel)
  exact ⟨before, after, ⟨[.collection "Array" [.kind "A"]], by decide +kernel⟩,
    by decide +kernel, by decide +kernel⟩

-- After braces, angle brackets are taken for the shorthand of a hash.
example : (parse .permissive "\x7bA=>B\x7d<C>").toOption = none := by decide +kernel

end Replacement

end DocTypes
