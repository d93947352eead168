import DocTypes.Proofs.Run
import DocTypes.Proofs.Scan

/-!
# The grammar of type expressions

The grammar is a relation between tokens and types, and is said without a reader:

    list        := alternative (separator alternative)*
    alternative := name
                 | name? '<' list '>'
                 | name? '(' list ')'
                 | name? '{' list '=>' list '}'

A reader in strict mode accepts exactly the texts whose tokens are a list, and gives the types that
the list stands for (`parse_strict_iff_describes`).

* `Derives.reads`: in either mode the tokens of a list lead a reader to its types. The induction
  is on the derivation, for every place where the list may stand.
* `Tracks` is what the tokens read so far are to a reader in strict mode: its open groups, its
  finished alternatives and its slot are derived from them in order. Each token keeps it
  (`Tracks.advance`).
-/

namespace DocTypes

open Reader

namespace Grammar

/-- The tokens of a name that may be missing. -/
inductive Label : List Token → Option String → Prop
  | missing : Label [] none
  | given {token : Token} : token.kind = .name → Label [token] (some token.text)

mutual

/-- `Derives depth tokens types`: the tokens are a list of alternatives that stands for `types`.
Brackets are nested at most `depth` deep. -/
inductive Derives : Nat → List Token → List Ty → Prop
  | single {depth : Nat} {tokens : List Token} {type : Ty} :
      DerivesOne depth tokens type → Derives depth tokens [type]
  | more {depth : Nat} {first rest : List Token} {separator : Token} {type : Ty}
      {types : List Ty} :
      DerivesOne depth first type → separator.kind = .separator → Derives depth rest types →
      Derives depth (first ++ [separator] ++ rest) (type :: types)

/-- `DerivesOne depth tokens type`: the tokens are an alternative that stands for `type`.

* `name`: a name stands for what its spelling says.
* `collection`: angle brackets after any name but that of a hash.
* `shorthand`: angle brackets after the name of a hash, around one key and one value.
* `tuple`: parentheses.
* `hash`: braces around keys and values. -/
inductive DerivesOne : Nat → List Token → Ty → Prop
  | name {depth : Nat} {token : Token} :
      token.kind = .name → DerivesOne depth [token] (.ofName token.text)
  | collection {depth : Nat} {label inner : List Token} {opener closer : Token}
      {name : Option String} {types : List Ty} :
      Label label name → name ≠ some Ty.defaultHash → opener.kind = .collectionStart →
      Derives depth inner types → closer.kind = .collectionEnd →
      DerivesOne (depth + 1) (label ++ [opener] ++ inner ++ [closer])
        (.collection (name.getD Ty.defaultCollection) types)
  | shorthand {depth : Nat} {label inner : List Token} {opener closer : Token} {key value : Ty} :
      Label label (some Ty.defaultHash) → opener.kind = .collectionStart →
      Derives depth inner [key, value] → closer.kind = .collectionEnd →
      DerivesOne (depth + 1) (label ++ [opener] ++ inner ++ [closer])
        (.hash Ty.defaultHash [key] [value])
  | tuple {depth : Nat} {label inner : List Token} {opener closer : Token}
      {name : Option String} {types : List Ty} :
      Label label name → opener.kind = .tupleStart →
      Derives depth inner types → closer.kind = .tupleEnd →
      DerivesOne (depth + 1) (label ++ [opener] ++ inner ++ [closer]) (.tuple name types)
  | hash {depth : Nat} {label keyTokens valueTokens : List Token} {opener arrow closer : Token}
      {name : Option String} {keys values : List Ty} :
      Label label name → opener.kind = .hashStart →
      Derives depth keyTokens keys → arrow.kind = .hashArrow →
      Derives depth valueTokens values → closer.kind = .hashEnd →
      DerivesOne (depth + 1)
        (label ++ [opener] ++ keyTokens ++ [arrow] ++ valueTokens ++ [closer])
        (.hash (name.getD Ty.defaultHash) keys values)

end

/-- The text is made of tokens, and without the blanks they are a list of alternatives that stands
for `types`, with brackets nested no deeper than the limit. -/
def Describes (text : String) (types : List Ty) : Prop :=
  (Scan.ofText text).ending = .finished ∧
    Derives nestingLimit (Token.significant (Scan.ofText text).tokens) types

/-! ## Tokens of the grammar are read -/

section Completeness

variable {rules : Rules} {label inner tokens : List Token} {opener closer : Token} {group : Group}
  {name : Option String} {frame : Frame} {frames : List Frame} {done types : List Ty}
  {type : Ty} {outer : Reader} {depth : Nat}

theorem Label.reads (h : Label label name) (rules : Rules) (done : List Ty) (frames : List Frame) :
    ∃ slot, slot.name? = name ∧ slot.isComposite = false ∧
      Reads rules ⟨done, .empty, frames⟩ label ⟨done, slot, frames⟩ := by
  cases h with
  | missing => exact ⟨.empty, rfl, rfl, .nil⟩
  | given kind => exact ⟨.name _, rfl, rfl, .single (.name kind rfl)⟩

/-- A name that may be missing and an opening bracket open a group. -/
theorem Label.reads_opener (h : Label label name)
    (opens : Group.opened? name opener.kind = some group)
    (room : ∀ limit ∈ rules.nesting, frames.length < limit) :
    Reads rules ⟨done, .empty, frames⟩ (label ++ [opener])
      ⟨[], .empty, ⟨done, opener, group⟩ :: frames⟩ := by
  obtain ⟨slot, rfl, noComposite, reads⟩ := h.reads rules done frames
  exact reads.snoc (.opener opens (fun _ => noComposite) room)

/-- The tokens lead a reader with an empty slot, wherever it stands, to the list of types. -/
def ReadsAs (rules : Rules) (depth : Nat) (tokens : List Token) (types : List Ty) : Prop :=
  ∀ done frames, (∀ limit ∈ rules.nesting, frames.length + depth ≤ limit) →
    ∃ before slot type, slot.type? = some type ∧ before ++ [type] = done ++ types ∧
      Reads rules ⟨done, .empty, frames⟩ tokens ⟨before, slot, frames⟩

/-- The list of a group and its closer complete the list. -/
theorem ReadsAs.closes (h : ReadsAs rules depth inner types)
    (room : ∀ limit ∈ rules.nesting, frames.length + (depth + 1) ≤ limit)
    (kind : closer.kind = frame.group.closer) (closes : Closes frame types frames outer) :
    Reads rules ⟨[], .empty, frame :: frames⟩ (inner ++ [closer]) outer := by
  have inside : ∀ limit ∈ rules.nesting, (frame :: frames).length + depth ≤ limit := by
    intro limit member
    have := room limit member
    simp only [List.length_cons]
    omega
  obtain ⟨before, slot, type, stands, rfl, reads⟩ := h [] (frame :: frames) inside
  refine reads.snoc (.terminator ?_ stands (fun _ => kind) rfl closes)
  rw [kind]
  cases frame.group <;> rfl

/-- A group with one list is read as what it becomes when its list is complete. -/
theorem Label.reads_group (h : Label label name)
    (opens : Group.opened? name opener.kind = some group)
    (list : ReadsAs rules depth inner types) (kind : closer.kind = group.closer)
    (closes : Closes ⟨done, opener, group⟩ types frames outer)
    (room : ∀ limit ∈ rules.nesting, frames.length + (depth + 1) ≤ limit) :
    Reads rules ⟨done, .empty, frames⟩ (label ++ [opener] ++ inner ++ [closer]) outer := by
  have outside : ∀ limit ∈ rules.nesting, frames.length < limit := by
    intro limit member
    have := room limit member
    omega
  rw [List.append_assoc]
  exact (h.reads_opener opens outside).append (list.closes room kind closes)

/-- The name of a collection is no name of a hash, given or not. -/
theorem getD_ne_defaultHash (h : name ≠ some Ty.defaultHash) :
    name.getD Ty.defaultCollection ≠ Ty.defaultHash := by
  cases name with
  | none => decide
  | some given => exact fun eq => h (congrArg some eq)

mutual

/-- A list is read as the types that it stands for. -/
theorem Derives.reads (rules : Rules) {depth : Nat} {tokens : List Token} {types : List Ty} :
    Derives depth tokens types → ReadsAs rules depth tokens types
  | .single one => by
    intro done frames room
    obtain ⟨slot, stands, reads⟩ := one.reads rules done frames room
    exact ⟨done, slot, _, stands, rfl, reads⟩
  | @Derives.more _ _ _ _ type _ one kind rest => by
    intro done frames room
    obtain ⟨slot, stands, reads⟩ := one.reads rules done frames room
    obtain ⟨before, last, other, stands', eq, reads'⟩ :=
      rest.reads rules (done ++ [type]) frames room
    refine ⟨before, last, other, stands', by rw [eq, List.append_assoc]; rfl, ?_⟩
    exact (reads.snoc (.separator kind stands)).append reads'

/-- An alternative fills the slot with the type that it stands for. -/
theorem DerivesOne.reads (rules : Rules) {depth : Nat} {tokens : List Token} {type : Ty} :
    DerivesOne depth tokens type → ∀ done frames,
      (∀ limit ∈ rules.nesting, frames.length + depth ≤ limit) →
      ∃ slot, slot.type? = some type ∧
        Reads rules ⟨done, .empty, frames⟩ tokens ⟨done, slot, frames⟩
  | .name kind, done, frames, room => ⟨.name _, rfl, .single (.name kind rfl)⟩
  | .collection label other opens list closes, done, frames, room =>
    ⟨.composite (some _) _, rfl, label.reads_group (congrArg _ opens) (list.reads rules) closes
      (.collection rfl (getD_ne_defaultHash other)) room⟩
  | .shorthand label opens list closes, done, frames, room =>
    ⟨.composite (some _) _, rfl, label.reads_group (congrArg _ opens) (list.reads rules) closes
      (.shorthand rfl rfl) room⟩
  | .tuple label opens list closes, done, frames, room =>
    ⟨.composite _ _, rfl, label.reads_group (congrArg _ opens) (list.reads rules) closes
      (.tuple rfl) room⟩
  | @DerivesOne.hash _ _ _ _ _ _ _ name keys values label opens keyList arrow valueList closes,
      done, frames, room => by
    refine ⟨.composite (some (name.getD Ty.defaultHash)) (.hash _ keys values), rfl, ?_⟩
    -- The arrow ends the list of keys, and the list of values starts in the same place.
    rw [List.append_assoc]
    exact (label.reads_group (congrArg _ opens) (keyList.reads rules) arrow (.keys rfl) room).append
      ((valueList.reads rules).closes room closes (.values rfl))

end

/-- The types of a list are the outcome of reading its tokens, in either mode. -/
theorem Derives.outcome (h : Derives depth tokens types) (stop : Nat)
    (room : ∀ limit ∈ rules.nesting, depth ≤ limit) :
    (Reading.ofTokens rules .finished stop .start tokens).outcome = .ok types := by
  have outside : ∀ limit ∈ rules.nesting, ([] : List Frame).length + depth ≤ limit := by
    intro limit member
    show 0 + depth ≤ limit
    rw [Nat.zero_add]
    exact room limit member
  obtain ⟨before, slot, type, stands, eq, reads⟩ := h.reads rules [] [] outside
  have stops : Reader.step rules ⟨before, slot, []⟩ (.atEnd stop) =
      .stop (.ok (before ++ [type])) :=
    step_eq_ok_iff.mpr ⟨rfl, type, stands, fun _ => rfl, rfl, rfl⟩
  calc
    (Reading.ofTokens rules .finished stop .start tokens).outcome
      = (Reading.ofTokens rules .finished stop .start (tokens ++ [])).outcome := by
        rw [List.append_nil]
    _ = (Reading.ofTokens rules .finished stop ⟨before, slot, []⟩ []).outcome :=
        Reading.outcome_of_reads reads
    _ = Reader.drain rules ⟨before, slot, []⟩ (.atEnd stop) := Reading.outcome_of_finished
    _ = .ok (before ++ [type]) := drain_of_stop stops
    _ = .ok types := by rw [eq, List.nil_append]

end Completeness

/-! ## What is read are tokens of the grammar -/

/-- Finished alternatives, each with the separator after it. -/
inductive Finished (depth : Nat) : List Token → List Ty → Prop
  | nil : Finished depth [] []
  | snoc {tokens last : List Token} {separator : Token} {types : List Ty} {type : Ty} :
      Finished depth tokens types → DerivesOne depth last type → separator.kind = .separator →
      Finished depth (tokens ++ last ++ [separator]) (types ++ [type])

/-- The alternative that has been begun. -/
inductive Begun (depth : Nat) : List Token → Slot → Prop
  | empty : Begun depth [] .empty
  | name {token : Token} : token.kind = .name → Begun depth [token] (.name token.text)
  | composite {tokens : List Token} {name : Option String} {type : Ty} :
      DerivesOne depth tokens type → Begun depth tokens (.composite name type)

/-- What has been read of a group before its innermost list. Its lists have the depth `depth`. -/
inductive Opened (depth : Nat) : List Token → Group → Prop
  | opener {label : List Token} {opener : Token} {name : Option String} {group : Group} :
      Label label name → Group.opened? name opener.kind = some group →
      Opened depth (label ++ [opener]) group
  | values {label inner : List Token} {opener arrow : Token} {keys : List Ty}
      {name : Option String} :
      Label label name → opener.kind = .hashStart → Derives depth inner keys →
      arrow.kind = .hashArrow →
      Opened depth (label ++ [opener] ++ inner ++ [arrow])
        (.hashValues (name.getD Ty.defaultHash) keys)

/-- The open groups from the outermost on, each after the alternatives finished before it. Within
them the depth `depth` is left of `limit`. -/
inductive Within (limit : Nat) : Nat → List Token → List Frame → Prop
  | outermost : Within limit limit [] []
  | group {depth : Nat} {before done begun : List Token} {frame : Frame} {frames : List Frame} :
      Within limit (depth + 1) before frames → Finished (depth + 1) done frame.types →
      Opened depth begun frame.group →
      Within limit depth (before ++ (done ++ begun)) (frame :: frames)

/-- What the tokens read so far are to a reader in strict mode. -/
inductive Tracks (limit : Nat) : List Token → Reader → Prop
  | intro {depth : Nat} {before done last : List Token} {types : List Ty} {slot : Slot}
      {frames : List Frame} :
      Within limit depth before frames → Finished depth done types → Begun depth last slot →
      Tracks limit (before ++ (done ++ last)) ⟨types, slot, frames⟩

section Soundness

variable {limit depth : Nat} {tokens before done begun last inner rest : List Token}
  {types more : List Ty} {type : Ty} {slot : Slot} {frame : Frame} {frames : List Frame} {closer token : Token}
  {reader next outer : Reader}

theorem Finished.derives (h : Finished depth done types) (later : Derives depth rest more) :
    Derives depth (done ++ rest) (types ++ more) := by
  induction h generalizing rest more with
  | nil => exact later
  | snoc _ one kind ih =>
    have longer := ih (.more one kind later)
    simpa using longer

theorem Begun.derives (h : Begun depth last slot) (stands : slot.type? = some type) :
    DerivesOne depth last type := by
  cases h with
  | empty => cases stands
  | name kind => cases stands; exact .name kind
  | composite one => cases stands; exact one

theorem Begun.label (h : Begun depth last slot) (noComposite : slot.isComposite = false) :
    Label last slot.name? := by
  cases h with
  | empty => exact .missing
  | name kind => exact .given kind
  | composite one => cases noComposite

theorem Within.depth_add_length (h : Within limit depth before frames) :
    depth + frames.length = limit := by
  induction h with
  | outermost => rfl
  | group _ _ _ ih =>
    rw [List.length_cons, Nat.add_comm _ 1, ← Nat.add_assoc]
    exact ih

/-- Below the limit a further group can be opened. -/
theorem Within.exists_less (h : Within limit depth before frames) (below : frames.length < limit) :
    ∃ less, depth = less + 1 := by
  have left := h.depth_add_length
  exact ⟨depth - 1, by omega⟩

theorem opened?_collection {name : Option String} {kind : Token.Kind} {given : String}
    (h : Group.opened? name kind = some (.collection given)) :
    kind = .collectionStart ∧ given = name.getD Ty.defaultCollection := by
  cases kind <;> cases h
  exact ⟨rfl, rfl⟩

theorem opened?_tuple {name given : Option String} {kind : Token.Kind}
    (h : Group.opened? name kind = some (.tuple given)) : kind = .tupleStart ∧ given = name := by
  cases kind <;> cases h
  exact ⟨rfl, rfl⟩

theorem opened?_hashKeys {name : Option String} {kind : Token.Kind} {given : String}
    (h : Group.opened? name kind = some (.hashKeys given)) :
    kind = .hashStart ∧ given = name.getD Ty.defaultHash := by
  cases kind <;> cases h
  exact ⟨rfl, rfl⟩

theorem opened?_ne_hashValues {name : Option String} {kind : Token.Kind} {given : String}
    {keys : List Ty} : Group.opened? name kind ≠ some (.hashValues given keys) := by
  cases kind <;> simp [Group.opened?]

theorem ne_of_getD_ne {name : Option String}
    (h : name.getD Ty.defaultCollection ≠ Ty.defaultHash) : name ≠ some Ty.defaultHash := by
  rintro rfl
  exact h rfl

theorem eq_of_getD_eq {name : Option String}
    (h : Ty.defaultHash = name.getD Ty.defaultCollection) : name = some Ty.defaultHash := by
  cases name with
  | none => exact absurd h (by decide)
  | some given => exact congrArg some h.symm

/-- A group that is ended by its own closer becomes a composite that is derived from its tokens, or
it goes on with the values of a hash. -/
theorem Tracks.of_closes (within : Within limit (depth + 1) before frames)
    (finished : Finished (depth + 1) done frame.types) (opened : Opened depth begun frame.group)
    (list : Derives depth inner types) (kind : closer.kind = frame.group.closer)
    (closes : Closes frame types frames outer) :
    Tracks limit (before ++ (done ++ (begun ++ inner ++ [closer]))) outer := by
  cases closes with
  | collection group other =>
    rw [group] at opened kind
    cases opened with
    | opener label opens =>
      obtain ⟨start, rfl⟩ := opened?_collection opens
      exact .intro within finished
        (.composite (.collection label (ne_of_getD_ne other) start list kind))
  | shorthand group pair =>
    rw [group] at opened kind
    cases opened with
    | opener label opens =>
      -- A collection without a name is no hash, so the name was written.
      obtain ⟨start, hash⟩ := opened?_collection opens
      obtain rfl := eq_of_getD_eq hash
      subst pair
      exact .intro within finished (.composite (.shorthand label start list kind))
  | tuple group =>
    rw [group] at opened kind
    cases opened with
    | opener label opens =>
      obtain ⟨start, rfl⟩ := opened?_tuple opens
      exact .intro within finished (.composite (.tuple label start list kind))
  | keys group =>
    rw [group] at opened kind
    cases opened with
    | opener label opens =>
      obtain ⟨start, rfl⟩ := opened?_hashKeys opens
      have inside : Within limit depth _ ({ frame with group := .hashValues _ types } :: frames) :=
        .group within finished (.values label start list kind)
      simpa using Tracks.intro inside .nil .empty
  | values group =>
    rw [group] at opened kind
    cases opened with
    | opener label opens => exact absurd opens opened?_ne_hashValues
    | values label start keyList arrow =>
      exact .intro within finished (.composite (.hash label start keyList arrow list kind))

/-- In strict mode each token that is no blank keeps what the tokens are to the reader. -/
theorem Tracks.advance (h : Tracks limit tokens reader) (significant : token.kind ≠ .blank)
    (advance : Advance ⟨.strict, some limit⟩ reader token next) :
    Tracks limit (tokens ++ [token]) next := by
  obtain @⟨depth, before, done, last, types, slot, frames, within, finished, begun⟩ := h
  cases advance with
  | blank blank => exact absurd blank significant
  | name kind empty =>
    cases begun with
    | empty => simpa using Tracks.intro within finished (.name kind)
    | name => cases empty
    | composite => cases empty
  | separator kind stands =>
    simpa using Tracks.intro within (.snoc finished (begun.derives stands) kind) .empty
  | opener opens first room =>
    have label := begun.label (first rfl)
    obtain ⟨less, rfl⟩ := within.exists_less (room limit rfl)
    have inside : Within limit less _ (⟨types, token, _⟩ :: frames) :=
      .group within finished (.opener label opens)
    simpa using Tracks.intro inside .nil .empty
  | terminator ends stands right inner closes =>
    subst inner
    have list := finished.derives (.single (begun.derives stands))
    cases within with
    | group outside before opened =>
      have kept := Tracks.of_closes outside before opened list (right rfl) closes
      simpa using kept

/-- A reader in strict mode that stops with types outside all groups has read a list. -/
theorem Tracks.derives {rules : Rules} (h : Tracks limit tokens reader)
    (stops : reader.step rules token = .stop (.ok types)) : Derives limit tokens types := by
  obtain ⟨-, type, stands, -, outermost, rfl⟩ := step_eq_ok_iff.mp stops
  obtain ⟨within, finished, begun⟩ := h
  subst outermost
  cases within with
  | outermost => exact finished.derives (.single (begun.derives stands))

theorem Tracks.derives_of_outcome {ending : Scan.Ending} {stop : Nat}
    (h : Tracks limit tokens reader) (kinds : ∀ token ∈ rest, token.kind ≠ .blank ∧ token.kind ≠ .finish)
    (read : (Reading.ofTokens ⟨.strict, some limit⟩ ending stop reader rest).outcome = .ok types) :
    ending = .finished ∧ Derives limit (tokens ++ rest) types := by
  induction rest generalizing tokens reader with
  | nil =>
    cases ending with
    | invalid c => cases read
    | finished =>
      rw [Reading.outcome_of_finished] at read
      cases taken : reader.step ⟨.strict, some limit⟩ (.atEnd stop) with
      | stop outcome =>
        rw [drain_of_stop taken] at read
        subst read
        simpa using h.derives taken
      -- Open groups are not ended by the end of the input here, so the first end decides.
      | more outer => exact absurd (step_eq_more_iff.mp taken) not_advance_atEnd
  | cons token rest ih =>
    obtain ⟨significant, noEnd⟩ := kinds token (by simp)
    cases taken : reader.step ⟨.strict, some limit⟩ token with
    | stop outcome =>
      rw [Reading.outcome_of_stop taken] at read
      subst read
      exact absurd (finish_of_strict taken) noEnd
    | more next =>
      have advance := step_eq_more_iff.mp taken
      rw [Reading.outcome_of_advance advance] at read
      have kept := h.advance significant advance
      have later := ih kept (fun t member => kinds t (by simp [member])) read
      simpa using later

end Soundness

/-! ## Strict mode accepts the grammar -/

theorem parse_eq_outcome (mode : Mode) (text : String) :
    parse mode text =
      (Reading.ofTokens mode.rules (Scan.ofText text).ending (Scan.ofText text).stop .start
        (Token.significant (Scan.ofText text).tokens)).outcome :=
  (Reading.outcome_significant _).symm

/-- What the grammar says of a text is read in either mode. -/
theorem Describes.parse_eq {text : String} {types : List Ty} (h : Describes text types)
    (mode : Mode) : parse mode text = .ok types := by
  obtain ⟨finished, list⟩ := h
  rw [parse_eq_outcome, finished]
  refine list.outcome _ fun limit member => ?_
  cases member
  exact Nat.le_refl _

theorem describes_of_parse {text : String} {types : List Ty}
    (h : parse .strict text = .ok types) : Describes text types := by
  rw [parse_eq_outcome] at h
  have start : Tracks nestingLimit [] .start := .intro .outermost .nil .empty
  refine start.derives_of_outcome (fun token member => ?_) h
  obtain ⟨scanned, significant⟩ := List.mem_filter.mp member
  exact ⟨of_decide_eq_true significant, Scan.kind_ne_finish scanned⟩

/-- Strict mode accepts exactly the texts of the grammar, with the types that the grammar gives
them. The grammar gives a text at most one list of types. -/
theorem parse_strict_iff_describes (text : String) :
    (∀ types, parse .strict text = .ok types ↔ Describes text types) ∧
      ∀ types again, Describes text types → Describes text again → types = again := by
  refine ⟨fun types => ⟨describes_of_parse, fun h => h.parse_eq .strict⟩, ?_⟩
  intro types again h h'
  exact Except.ok.inj ((h.parse_eq .strict).symm.trans (h'.parse_eq .strict))

/-- The shorthand of a hash with a tuple in it is a text of the grammar. -/
theorem describes_shorthand :
    Describes "Hash< A, x(#b) >" [.hash "Hash" [.kind "A"] [.tuple (some "x") [.duck "#b"]]] :=
  ((parse_strict_iff_describes _).1 _).mp (by decide +kernel)

end Grammar

end DocTypes
