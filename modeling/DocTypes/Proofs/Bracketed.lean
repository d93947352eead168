import DocTypes.Proofs.Juxtaposition

/-!
# Bracketed lists after a name

A `Body` is what a pair of brackets encloses, and `Bracketed text body` says so of a text. After a
name, or without one, it stands for a type (`Body.type?`), unless it is a collection named as a hash
that does not hold two types.

* `Encloses.reads`: a name and the tokens of a body fill the slot of a reader with the type.
* `Bracketed.toOption_parse`: so a name and a bracketed text are read as the type, or refused.
* `parse_shorthand_error`: a collection named as a hash that does not hold two types is refused at
  its opening bracket, after it has been read to its end.
* `shorthand_means_braces`: the shorthand of a hash means what the braces mean.
-/

namespace DocTypes

open Reader Token Grammar

/-- What a pair of brackets encloses.

* `collection`: the types of the elements, between angle brackets.
* `tuple`: the types of the positions, between parentheses.
* `hash`: the types of the keys and of the values, between braces. -/
inductive Body where
  | collection (types : List Ty)
  | tuple (types : List Ty)
  | hash (keys values : List Ty)
deriving DecidableEq, Repr

namespace Body

/-- The type that the brackets make after a name, or without one. After the name of a hash, angle
brackets make a type of one key and one value only. -/
def type? (name : Option String) : Body → Option Ty
  | collection types =>
    if name = some Ty.defaultHash then
      match types with
      | [key, value] => some (.hash Ty.defaultHash [key] [value])
      | _ => none
    else
      some (.collection (name.getD Ty.defaultCollection) types)
  | tuple types => some (.tuple name types)
  | hash keys values => some (.hash (name.getD Ty.defaultHash) keys values)

/-- The name in the slot after the brackets: the one before them, or their default name. -/
def kept (name : Option String) : Body → Option String
  | collection _ => some (name.getD Ty.defaultCollection)
  | tuple _ => name
  | hash _ _ => some (name.getD Ty.defaultHash)

/-- The kind of the opening bracket. -/
def opener : Body → Token.Kind
  | collection _ => .collectionStart
  | tuple _ => .tupleStart
  | hash _ _ => .hashStart

end Body

/-- The text is a body between its brackets. Strict mode accepts the lists in it, and they leave room
for the brackets around them. -/
inductive Bracketed : String → Body → Prop
  | collection {list : String} {types : List Ty} :
      AcceptedWithin (nestingLimit - 1) list types →
      Bracketed ("<" ++ list ++ ">") (.collection types)
  | tuple {list : String} {types : List Ty} :
      AcceptedWithin (nestingLimit - 1) list types →
      Bracketed ("(" ++ list ++ ")") (.tuple types)
  | hash {keyText valueText : String} {keys values : List Ty} :
      AcceptedWithin (nestingLimit - 1) keyText keys →
      AcceptedWithin (nestingLimit - 1) valueText values →
      Bracketed ("\x7b" ++ keyText ++ "=>" ++ valueText ++ "\x7d") (.hash keys values)

/-- The tokens are a body between its brackets. The opening bracket is the first one. -/
inductive Encloses : Body → Token → List Token → Prop
  | collection {opener closer : Token} {inner : List Token} {types : List Ty} :
      opener.kind = .collectionStart → Derives (nestingLimit - 1) inner types →
      closer.kind = .collectionEnd →
      Encloses (.collection types) opener (inner ++ [closer])
  | tuple {opener closer : Token} {inner : List Token} {types : List Ty} :
      opener.kind = .tupleStart → Derives (nestingLimit - 1) inner types →
      closer.kind = .tupleEnd →
      Encloses (.tuple types) opener (inner ++ [closer])
  | hash {opener arrow closer : Token} {keyTokens valueTokens : List Token}
      {keys values : List Ty} :
      opener.kind = .hashStart → Derives (nestingLimit - 1) keyTokens keys →
      arrow.kind = .hashArrow → Derives (nestingLimit - 1) valueTokens values →
      closer.kind = .hashEnd →
      Encloses (.hash keys values) opener (keyTokens ++ [arrow] ++ (valueTokens ++ [closer]))

section Reading

variable {name : Option String} {text list mark : String} {body : Body} {type : Ty}
  {types : List Ty} {label tokens inner more : List Token} {opener : Token}

/-- No name goes on in an opening bracket. -/
theorem Bracketed.breaks (bracketed : Bracketed text body) : Breaks text.toList := by
  cases bracketed <;> simp only [String.toList_append, List.append_assoc] <;>
    exact breaks_of_single rfl _

/-- A list between two texts that are made of something else than names. -/
theorem MadeOf.enclose (begun : MadeOf text tokens)
    (opens : ∀ token ∈ (significant tokens).getLast?, token.kind ≠ .name)
    (made : MadeOf list inner) (ends : MadeOf mark more) (breaks : Breaks mark.toList) :
    MadeOf (text ++ list ++ mark) (tokens ++ inner ++ more) :=
  (begun.append made (.inl opens)).append ends (.inr breaks)

theorem Bracketed.exists_encloses (bracketed : Bracketed text body) :
    ∃ opener tokens, MadeOf text (opener :: tokens) ∧ Encloses body opener tokens := by
  cases bracketed with
  | collection accepted =>
    obtain ⟨inner, made, list⟩ := accepted.exists_madeOf
    have opens : MadeOf "<" [⟨.collectionStart, "<", 0⟩] := by decide +kernel
    have closes : MadeOf ">" [⟨.collectionEnd, ">", 0⟩] := by decide +kernel
    have whole := opens.enclose (by decide) made closes (breaks_of_single rfl _)
    exact ⟨_, _, whole, .collection rfl list rfl⟩
  | tuple accepted =>
    obtain ⟨inner, made, list⟩ := accepted.exists_madeOf
    have opens : MadeOf "(" [⟨.tupleStart, "(", 0⟩] := by decide +kernel
    have closes : MadeOf ")" [⟨.tupleEnd, ")", 0⟩] := by decide +kernel
    have whole := opens.enclose (by decide) made closes (breaks_of_single rfl _)
    exact ⟨_, _, whole, .tuple rfl list rfl⟩
  | hash keysAccepted valuesAccepted =>
    obtain ⟨keyTokens, keysMade, keyList⟩ := keysAccepted.exists_madeOf
    obtain ⟨valueTokens, valuesMade, valueList⟩ := valuesAccepted.exists_madeOf
    have opens : MadeOf "\x7b" [⟨.hashStart, "\x7b", 0⟩] := by decide +kernel
    have arrow : MadeOf "=>" [⟨.hashArrow, "=>", 0⟩] := by decide +kernel
    have closes : MadeOf "\x7d" [⟨.hashEnd, "\x7d", 0⟩] := by decide +kernel
    have before := opens.enclose (by decide) keysMade arrow (.cons (by decide) (by decide))
    have whole := before.enclose (by simp [significant, List.getLast?_cons]) valuesMade closes
      (breaks_of_single rfl _)
    rw [List.append_assoc] at whole
    exact ⟨_, _, whole, .hash rfl keyList rfl valueList rfl⟩

/-- Angle brackets that make a type close the group that they opened. -/
theorem Body.closes_collection {done : List Ty} {frames : List Frame}
    (stands : (collection types).type? name = some type) :
    Closes ⟨done, opener, .collection (name.getD Ty.defaultCollection)⟩ types frames
      ⟨done, .composite ((collection types).kept name) type, frames⟩ := by
  simp only [Body.type?] at stands
  split at stands
  · next hash =>
    subst hash
    split at stands <;> cases stands
    exact .shorthand rfl rfl
  · next other =>
    cases stands
    exact .collection rfl (getD_ne_defaultHash other)

/-- A name and a body between its brackets fill the slot with the type that they stand for. -/
theorem Encloses.reads (encloses : Encloses body opener tokens) (labelled : Label label name)
    (stands : body.type? name = some type) (mode : Mode) :
    Reads mode.rules .start (label ++ opener :: tokens)
      ⟨[], .composite (body.kept name) type, []⟩ := by
  have room : ∀ limit ∈ mode.rules.nesting,
      ([] : List Frame).length + (nestingLimit - 1 + 1) ≤ limit := by
    rintro _ ⟨⟩
    decide
  have opens (group : Group) (opened : Group.opened? name opener.kind = some group) :
      Reads mode.rules .start (label ++ [opener]) ⟨[], .empty, [⟨[], opener, group⟩]⟩ :=
    labelled.reads_opener opened (by rintro _ ⟨⟩; decide)
  rw [List.append_cons]
  cases encloses with
  | collection start list close =>
    exact (opens _ (congrArg _ start)).append
      ((list.reads _).closes room close (Body.closes_collection stands))
  | tuple start list close =>
    cases stands
    exact (opens _ (congrArg _ start)).append ((list.reads _).closes room close (.tuple rfl))
  | hash start keyList arrow valueList close =>
    cases stands
    exact (opens _ (congrArg _ start)).append
      (((keyList.reads _).closes room arrow (.keys rfl)).append
        ((valueList.reads _).closes room close (.values rfl)))

/-- A collection named as a hash that does not hold two types is refused at its opening bracket when
it is closed. -/
theorem step_of_shorthand {rules : Rules} {reader : Reader} {closer : Token} {frame : Frame}
    {frames : List Frame} (stands : reader.slot.type? = some type)
    (inner : reader.frames = frame :: frames) (group : frame.group = .collection Ty.defaultHash)
    (closes : closer.kind = .collectionEnd) (count : (reader.types ++ [type]).length ≠ 2) :
    reader.step rules closer =
      .stop (.error (frame.opener.error (.shorthandArity (reader.types ++ [type]).length))) := by
  have ends : closer.kind.isTerminator = true := by rw [closes]; rfl
  have right : closer.kind = reader.closer := by rw [closes, closer_of_frame inner, group]; rfl
  have refused : frame.close (reader.types ++ [type]) frames =
      .error (frame.opener.error (.shorthandArity (reader.types ++ [type]).length)) := by
    simp only [Frame.close, group, if_true]
    split
    · next pair => exact absurd (congrArg List.length pair) count
    · rfl
  rw [step_of_isTerminator ends, close_of_frame stands (fun _ => right) inner, refused]

/-- The text of a shorthand is the name of a hash and a bracketed list. -/
theorem shorthand_eq_append (list : String) :
    "Hash<" ++ list ++ ">" = (some Ty.defaultHash).getD "" ++ ("<" ++ list ++ ">") := by
  simp [← String.toList_inj, Ty.defaultHash]

/-- The tokens of a list in angle brackets after the name of a hash, with the places of the first
two. -/
theorem exists_scan_shorthand (accepted : AcceptedWithin (nestingLimit - 1) list types) :
    ∃ inner closer, closer.kind = .collectionEnd ∧
      Derives (nestingLimit - 1) (significant inner) types ∧
      (Scan.ofText ("Hash<" ++ list ++ ">")).tokens =
        [⟨.name, "Hash", 0⟩, ⟨.collectionStart, "<", 4⟩] ++ inner ++ [closer] := by
  obtain ⟨finished, derived⟩ := accepted.derives 5
  let inner := (Scan.ofChars 5 list.toList).tokens
  have opens : single? '<' = some .collectionStart := rfl
  have closes : single? '>' = some .collectionEnd := rfl
  have begins : Scan.Yields 0 (Ty.defaultHash.toList ++ ('<' :: (list.toList ++ ['>']))) _ 5 _ :=
    .cons (lexeme?_of_nameForm Ty.nameForm_defaultHash (breaks_of_single opens _))
      (.single 4 (lexeme?_of_single opens _))
  have inside : Scan.Yields 5 ((concat inner).toList ++ ['>']) inner _ ['>'] :=
    Scan.yields_of_prefix List.prefix_rfl fun token last =>
      Scan.ends_of_single (Scan.form_of_mem_tokens (List.mem_of_getLast? last)) closes []
  rw [Scan.toList_concat_tokens finished] at inside
  have whole := (begins.append inside).append (.single _ (lexeme?_of_single closes []))
  have text : ("Hash<" ++ list ++ ">").toList =
      Ty.defaultHash.toList ++ ('<' :: (list.toList ++ ['>'])) := by
    rw [String.toList_append, String.toList_append]
    rfl
  have scan := congrArg Scan.tokens (Scan.ofChars_of_yields whole rfl)
  rw [← text] at scan
  refine ⟨_, _, ?_, derived, scan⟩
  rfl

/-- The list between the brackets of a shorthand is read to its end before its types are counted, so
the error is found at the opening bracket. -/
theorem parse_shorthand_error (accepted : AcceptedWithin (nestingLimit - 1) list types)
    (count : types.length ≠ 2) (mode : Mode) :
    parse mode ("Hash<" ++ list ++ ">") = .error ⟨.shorthandArity types.length, 4, some "<"⟩ := by
  obtain ⟨inner, closer, closes, derived, scan⟩ := exists_scan_shorthand accepted
  let opener : Token := ⟨.collectionStart, "<", 4⟩
  let frame : Frame := ⟨[], opener, .collection Ty.defaultHash⟩
  have label : Label [⟨.name, "Hash", 0⟩] (some Ty.defaultHash) := .given rfl
  have opens : Reads mode.rules .start ([⟨.name, "Hash", 0⟩] ++ [opener]) ⟨[], .empty, [frame]⟩ :=
    label.reads_opener rfl (by rintro _ ⟨⟩; decide)
  obtain ⟨before, slot, type, stands, rfl, reads⟩ :=
    derived.reads mode.rules [] [frame] (by rintro _ ⟨⟩; decide)
  have stops : Reader.step mode.rules ⟨before, slot, [frame]⟩ closer =
      .stop (.error (frame.opener.error (.shorthandArity (before ++ [type]).length))) :=
    step_of_shorthand stands rfl rfl closes count
  have whole : significant ([⟨.name, "Hash", 0⟩, opener] ++ inner ++ [closer]) =
      ([⟨.name, "Hash", 0⟩] ++ [opener]) ++ significant inner ++ [closer] := by
    simp [significant, opener, closes]
  show (Reading.ofTokens mode.rules (Scan.ofText ("Hash<" ++ list ++ ">")).ending _ .start
    (Scan.ofText ("Hash<" ++ list ++ ">")).tokens).outcome = _
  rw [scan, ← Reading.outcome_significant, whole, Reading.outcome_of_reads (opens.append reads)]
  exact Reading.outcome_of_stop stops

/-- A name and a bracketed text are read as the type that they stand for. -/
theorem Bracketed.parse_eq (named : ∀ given ∈ name, NameForm given.toList)
    (bracketed : Bracketed text body) (stands : body.type? name = some type) (mode : Mode) :
    parse mode (name.getD "" ++ text) = .ok [type] := by
  obtain ⟨label, given, labelled⟩ := (Spells.label? named .nil).madeOf
  obtain ⟨opener, tokens, made, encloses⟩ := bracketed.exists_encloses
  have whole := given.append made (.inr bracketed.breaks)
  refine (whole.outcome_eq_ok_iff mode.rules).mpr ?_
  have stops : Reader.step mode.rules ⟨[], .composite (body.kept name) type, []⟩ (.atEnd 0) =
      .stop (.ok [type]) :=
    step_eq_ok_iff.mpr ⟨rfl, type, rfl, fun _ => rfl, rfl, rfl⟩
  rw [← List.append_nil (label ++ _), Reading.outcome_of_reads (encloses.reads labelled stands mode)]
  exact drain_of_stop stops

/-- The only body that stands for no type is a collection named as a hash without two types. -/
theorem Body.type?_eq_none_iff : body.type? name = none ↔
    name = some Ty.defaultHash ∧ ∃ types, body = .collection types ∧ types.length ≠ 2 := by
  cases body with
  | collection types =>
    simp only [type?]
    split
    · next hash =>
      simp only [hash, true_and, collection.injEq, exists_eq_left', List.length_eq_two, ne_eq]
      split
      · simp
      · next noPair => simpa using noPair
    · next other => simp [other]
  | tuple types => simp [type?]
  | hash keys values => simp [type?]

/-- A name and a bracketed text are read as the type that they stand for, or refused if there is
none. -/
theorem Bracketed.toOption_parse (named : ∀ given ∈ name, NameForm given.toList)
    (bracketed : Bracketed text body) (mode : Mode) :
    (parse mode (name.getD "" ++ text)).toOption = (body.type? name).map ([·]) := by
  cases stands : body.type? name with
  | some type => rw [bracketed.parse_eq named stands]; rfl
  | none =>
    obtain ⟨rfl, types, rfl, count⟩ := Body.type?_eq_none_iff.mp stands
    cases bracketed with
    | collection accepted =>
      rw [← shorthand_eq_append, parse_shorthand_error accepted count]
      rfl

end Reading

/-! ## The shorthand of a hash -/

section Shorthand

variable {keyText valueText : String} {keys values : List Ty}

theorem parse_braces (keysAccepted : AcceptedWithin (nestingLimit - 1) keyText keys)
    (valuesAccepted : AcceptedWithin (nestingLimit - 1) valueText values) (mode : Mode) :
    parse mode ("\x7b" ++ keyText ++ " => " ++ valueText ++ "\x7d") =
      .ok [.hash "Hash" keys values] := by
  have spaced : "\x7b" ++ keyText ++ " => " ++ valueText ++ "\x7d" =
      (none : Option String).getD "" ++
        ("\x7b" ++ (keyText ++ " ") ++ "=>" ++ (" " ++ valueText) ++ "\x7d") := by
    simp [← String.toList_inj]
  rw [spaced]
  exact (Bracketed.hash keysAccepted.append_space valuesAccepted.space_append).parse_eq
    (by simp) rfl mode

/-- The list between the angle brackets is that of both texts. -/
theorem parse_shorthand (keysAccepted : AcceptedWithin (nestingLimit - 1) keyText keys)
    (valuesAccepted : AcceptedWithin (nestingLimit - 1) valueText values) (mode : Mode) :
    parse mode ("Hash<" ++ keyText ++ ", " ++ valueText ++ ">") =
      if keys.length = 1 ∧ values.length = 1 then
        .ok [.hash "Hash" keys values]
      else
        .error ⟨.shorthandArity (keys.length + values.length), 4, some "<"⟩ := by
  have list := keysAccepted.join valuesAccepted
  have grouped : "Hash<" ++ keyText ++ ", " ++ valueText ++ ">" =
      "Hash<" ++ (keyText ++ ", " ++ valueText) ++ ">" := by
    simp only [String.append_assoc]
  rw [grouped]
  split
  · next pair =>
    obtain ⟨key, rfl⟩ := List.length_eq_one_iff.mp pair.1
    obtain ⟨value, rfl⟩ := List.length_eq_one_iff.mp pair.2
    rw [shorthand_eq_append]
    exact (Bracketed.collection list).parse_eq (forall_mem_some Ty.nameForm_defaultHash) rfl mode
  · next noPair =>
    have someKey := keysAccepted.length_pos
    have someValue := valuesAccepted.length_pos
    have count : (keys ++ values).length ≠ 2 := by
      rw [List.length_append]
      omega
    rw [parse_shorthand_error list count, List.length_append]

/-- The shorthand of a hash means what the braces mean. After the name of a hash, angle brackets around
one key type and one value type are read as braces around the two are. With more types on either
side they are refused at the opening bracket, and the braces are still read. -/
theorem shorthand_means_braces (keysAccepted : AcceptedWithin (nestingLimit - 1) keyText keys)
    (valuesAccepted : AcceptedWithin (nestingLimit - 1) valueText values) (mode : Mode) :
    ((∃ types, parse mode ("Hash<" ++ keyText ++ ", " ++ valueText ++ ">") = .ok types) ↔
        keys.length = 1 ∧ values.length = 1) ∧
      (keys.length = 1 ∧ values.length = 1 →
        parse mode ("Hash<" ++ keyText ++ ", " ++ valueText ++ ">") =
          parse mode ("\x7b" ++ keyText ++ " => " ++ valueText ++ "\x7d")) ∧
      (¬ (keys.length = 1 ∧ values.length = 1) →
        ∃ e, parse mode ("Hash<" ++ keyText ++ ", " ++ valueText ++ ">") = .error e ∧
          e.position = 4 ∧ e.token = some "<" ∧
          e.message = "expected 2 types for key/value; got " ++
            toString (keys.length + values.length)) ∧
      parse mode ("\x7b" ++ keyText ++ " => " ++ valueText ++ "\x7d") =
        .ok [.hash "Hash" keys values] := by
  have braces := parse_braces keysAccepted valuesAccepted mode
  rw [parse_shorthand keysAccepted valuesAccepted mode, braces]
  split
  · next pair => exact ⟨⟨fun _ => pair, fun _ => ⟨_, rfl⟩⟩, fun _ => rfl, (absurd pair ·), rfl⟩
  · next noPair =>
    refine ⟨⟨?_, (absurd · noPair)⟩, (absurd · noPair), fun _ => ⟨_, rfl, rfl, rfl, rfl⟩, rfl⟩
    rintro ⟨_, ⟨⟩⟩

end Shorthand

/-- A pair is read as with braces, and a list of two keys is refused only with the shorthand. -/
theorem shorthand_means_braces_nested :
    parse .strict "Hash<(A, b), #c>" = parse .strict "\x7b(A, b) => #c\x7d" ∧
      (∃ e, parse .strict "Hash<A, b, #c>" = .error e ∧ e.position = 4 ∧ e.token = some "<" ∧
        e.message = "expected 2 types for key/value; got 3") ∧
      parse .strict "\x7bA, b => #c\x7d" =
        .ok [.hash "Hash" [.kind "A", .kind "b"] [.duck "#c"]] := by
  have tuple : AcceptedWithin (nestingLimit - 1) "(A, b)" [.tuple none [.kind "A", .kind "b"]] := by
    decide +kernel
  have list : AcceptedWithin (nestingLimit - 1) "A, b" [.kind "A", .kind "b"] := by decide +kernel
  have duck : AcceptedWithin (nestingLimit - 1) "#c" [.duck "#c"] := by decide +kernel
  obtain ⟨-, -, refused, braces⟩ := shorthand_means_braces list duck .strict
  exact ⟨(shorthand_means_braces tuple duck .strict).2.1 ⟨rfl, rfl⟩, refused (by decide), braces⟩

end DocTypes
