import DocTypes.Proofs.Building
import DocTypes.Registry.Model

/-!
# The scopes of a path that resolves

A path is looked up after the words in front are dropped through which the top level is seen. What is
left has only kinds around its last word. With the dropped words in front, a scope of the path leads
to a kind as well, apart from two cases (`scopes_of_resolve`): a part of the scope may be bound as a
whole to something else, and the last word of the scope may be a dropped one that is bound to no kind
itself.
-/

namespace DocTypes

open Token

/-! ## Paths and their segments -/

namespace Path

/-- One or more words. -/
def Words (segments : List String) : Prop :=
  segments ≠ [] ∧ ∀ segment ∈ segments, WordForm segment.toList

theorem cut_word {word : List Char} (all : ∀ c ∈ word, isWord c = true) (rest : List Char) :
    cut (word ++ rest) = (cut rest).modifyHead (word ++ ·) := by
  induction word with
  | nil =>
    rw [List.nil_append]
    cases cut rest <;> rfl
  | cons c word ih =>
    obtain ⟨hc, later⟩ := List.forall_mem_cons.mp all
    have single : ∀ tail, c = ':' → word ++ rest = ':' :: tail → False :=
      fun _ colon _ => ne_colon_of_isWord hc colon
    rw [List.cons_append, cut.eq_2 _ _ single, ih later]
    cases eq : cut rest with
    | nil => exact absurd eq (cut_ne_nil rest)
    | cons segment segments => rfl

/-- Words are found again after they were glued. -/
theorem cut_glue {words : List (List Char)} (nonempty : words ≠ [])
    (all : ∀ word ∈ words, WordForm word) : cut (glue words) = words := by
  induction words with
  | nil => exact absurd rfl nonempty
  | cons word words ih =>
    obtain ⟨first, later⟩ := List.forall_mem_cons.mp all
    cases words with
    | nil =>
      have alone := cut_word first.2 []
      simpa [cut, glue] using alone
    | cons next words =>
      have joined : glue (word :: next :: words) = word ++ ':' :: ':' :: glue (next :: words) := rfl
      rw [joined, cut_word first.2, cut, ih (by simp) later]
      simp

theorem segments_join {segments : List String} (words : Words segments) :
    Path.segments (join segments) = segments := by
  have forms : ∀ word ∈ segments.map String.toList, WordForm word := by
    simpa using words.2
  rw [Path.segments, join, String.toList_ofList, cut_glue (by simpa using words.1) forms]
  simp [Function.comp_def]

theorem relative_join {segments : List String} (words : Words segments) :
    relative (join segments) = join segments := by
  obtain ⟨segment, segments, rfl⟩ := List.exists_cons_of_ne_nil words.1
  obtain ⟨c, tail, hc, eq⟩ :=
    glue_head (words.2 segment (by simp)) (segments.map String.toList)
  exact relative_of_isWord hc (by rw [join, String.toList_ofList, List.map_cons, eq])

@[simp]
theorem join_singleton (segment : String) : join [segment] = segment :=
  String.ofList_toList

theorem words_singleton {word : String} (form : WordForm word.toList) : Words [word] :=
  ⟨List.cons_ne_nil word [], by simpa using form⟩

theorem relative_word {word : String} (form : WordForm word.toList) : relative word = word := by
  simpa using relative_join (words_singleton form)

/-- A path is made of words, but for a double colon in front. -/
theorem words_segments {path : String} (form : PathForm path.toList) :
    Words (Path.segments (relative path)) := by
  obtain ⟨words, nonempty, all, either⟩ := form
  have glued : relative path = String.ofList (glue words) := by
    obtain ⟨word, words, rfl⟩ := List.exists_cons_of_ne_nil nonempty
    obtain ⟨c, tail, hc, eq⟩ := glue_head (all word (by simp)) words
    obtain bare | rooted := either
    · rw [relative_of_isWord hc (bare.trans eq), ← bare, String.ofList_toList]
    · exact relative_of_colons rooted
  rw [glued, Path.segments, String.toList_ofList, cut_glue nonempty all]
  exact ⟨by simpa using nonempty, by simpa using all⟩

theorem Words.front {front back : List String} (words : Words (front ++ back)) (h : front ≠ []) :
    Words front :=
  ⟨h, fun segment member => words.2 segment (List.mem_append_left _ member)⟩

theorem Words.back {front back : List String} (words : Words (front ++ back)) (h : back ≠ []) :
    Words back :=
  ⟨h, fun segment member => words.2 segment (List.mem_append_right _ member)⟩

end Path

namespace Registry

variable {registry : Registry} {path : String} {segments dropped front back : List String}

/-! ## Bound paths -/

theorem bindsKind_iff :
    registry.bindsKind path = true ↔ ∃ kind, registry.constants.get? path = some (.kind kind) := by
  unfold bindsKind
  split <;> simp_all

theorem contains_of_bindsKind (h : registry.bindsKind path = true) :
    registry.constants.contains path = true := by
  obtain ⟨kind, bound⟩ := bindsKind_iff.mp h
  simp [Table.contains, bound]

/-- The scopes around the last segment are the fronts of the path. -/
theorem scopesAreKinds_iff :
    registry.scopesAreKinds segments = true ↔
      ∀ front back, segments = front ++ back → front ≠ [] → back ≠ [] →
        registry.bindsKind (Path.join front) = true := by
  simp only [scopesAreKinds, List.all_eq_true, List.mem_range, Bool.or_eq_true, decide_eq_true_eq]
  constructor
  · rintro kinds front back rfl outer inner
    have shorter : front.length < (front ++ back).length := by
      simpa using List.length_pos_iff.mpr inner
    have here := (kinds front.length shorter).resolve_left (by simpa using outer)
    rwa [Path.scope, List.take_left] at here
  · intro kinds count shorter
    by_cases whole : count = 0
    · exact .inl whole
    · refine .inr (kinds _ _ (List.take_append_drop count segments).symm ?_ ?_)
      · rw [← List.length_pos_iff, List.length_take]
        omega
      · rw [← List.length_pos_iff, List.length_drop]
        omega

theorem resolveSegments_of_bindsKind (scopes : registry.scopesAreKinds segments = true)
    (bound : registry.bindsKind (Path.join segments) = true) :
    ∃ handle, registry.resolveSegments segments = .kind handle := by
  obtain ⟨kind, found⟩ := bindsKind_iff.mp bound
  exact ⟨⟨kind⟩, by simp only [resolveSegments, scopes, found]; rfl⟩

theorem scopesAreKinds_of_resolveSegments (found : registry.resolveSegments segments ≠ .notFound) :
    registry.scopesAreKinds segments = true := by
  unfold resolveSegments at found
  split at found
  · assumption
  · exact absurd rfl found

/-! ## Dropped scopes -/

theorem dropObjectScopes_singleton (segment : String) :
    registry.dropObjectScopes [segment] = [segment] :=
  rfl

theorem dropObjectScopes_cons (scope next : String) (rest : List String) :
    registry.dropObjectScopes (scope :: next :: rest) =
      if registry.constants.contains (Path.join (scope :: next :: rest)) ||
          !registry.isObjectScope scope
      then scope :: next :: rest else registry.dropObjectScopes (next :: rest) :=
  rfl

/-- Of a path that is bound as a whole, nothing is dropped. -/
theorem dropObjectScopes_of_bound
    (bound : registry.constants.contains (Path.join segments) = true) :
    registry.dropObjectScopes segments = segments := by
  match segments with
  | [] | [_] => rfl
  | scope :: next :: rest => rw [dropObjectScopes_cons, if_pos (by simp [bound])]

/-- What is dropped are scopes through which the top level is seen, and the last segment stays. -/
theorem exists_dropped (registry : Registry) (nonempty : segments ≠ []) :
    ∃ dropped, segments = dropped ++ registry.dropObjectScopes segments ∧
      registry.dropObjectScopes segments ≠ [] ∧
      ∀ scope ∈ dropped, registry.isObjectScope scope = true := by
  fun_induction dropObjectScopes registry segments with
  | case1 => exact absurd rfl nonempty
  | case2 segment => exact ⟨[], rfl, by simp, by simp⟩
  | case3 scope segments last kept => exact ⟨[], rfl, by simp, by simp⟩
  | case4 scope segments last visible ih =>
    obtain ⟨dropped, parts, rest, all⟩ := ih last
    have here : registry.isObjectScope scope = true := by
      simp only [Bool.or_eq_true, not_or, Bool.not_eq_true', Bool.not_eq_false] at visible
      exact visible.2
    exact ⟨scope :: dropped, by rw [List.cons_append, ← parts], rest,
      List.forall_mem_cons.mpr ⟨here, all⟩⟩

/-- Scopes through which the top level is seen are dropped, unless the path is bound as a whole from
one of them on. -/
theorem dropObjectScopes_append (visible : ∀ scope ∈ front, registry.isObjectScope scope = true)
    (nonempty : back ≠ []) :
    registry.dropObjectScopes (front ++ back) = registry.dropObjectScopes back ∨
      ∃ passed shadow, front = passed ++ shadow ∧ shadow ≠ [] ∧
        registry.constants.contains (Path.join (shadow ++ back)) = true ∧
        registry.dropObjectScopes (front ++ back) = shadow ++ back := by
  induction front with
  | nil => exact .inl rfl
  | cons scope front ih =>
    obtain ⟨here, later⟩ := List.forall_mem_cons.mp visible
    by_cases bound : registry.constants.contains (Path.join (scope :: (front ++ back))) = true
    · exact .inr ⟨[], scope :: front, rfl, by simp, bound, dropObjectScopes_of_bound bound⟩
    · have step : registry.dropObjectScopes (scope :: (front ++ back)) =
          registry.dropObjectScopes (front ++ back) := by
        obtain ⟨next, rest, eq⟩ :=
          List.exists_cons_of_ne_nil (List.append_ne_nil_of_right_ne_nil front nonempty)
        rw [eq] at bound ⊢
        rw [dropObjectScopes_cons, if_neg (by simp [bound, here])]
      rw [List.cons_append, step]
      obtain through | ⟨passed, shadow, rfl, rest⟩ := ih later
      · exact .inl through
      · exact .inr ⟨scope :: passed, shadow, rfl, rest⟩

/-! ## Resolving a scope -/

theorem resolve_join (words : Path.Words segments) :
    registry.resolve (Path.join segments) =
      registry.resolveSegments (registry.dropObjectScopes segments) := by
  rw [resolve, Path.relative_join words, Path.segments_join words]

/-- A word is looked up as it is. -/
theorem resolve_word {name : String} (word : WordForm name.toList) :
    registry.resolve name = registry.resolveSegments [name] := by
  have joined : registry.resolve (Path.join [name]) = _ := resolve_join (Path.words_singleton word)
  rwa [Path.join_singleton] at joined

/-- The scopes that are left after dropping lead to kinds. -/
theorem exists_kind_of_front (scopes : registry.scopesAreKinds (front ++ back) = true)
    (words : Path.Words (front ++ back)) (outer : front ≠ []) (inner : back ≠ []) :
    registry.dropObjectScopes front = front ∧
      ∃ handle, registry.resolveSegments front = .kind handle := by
  have all := scopesAreKinds_iff.mp scopes
  have bound := all front back rfl outer inner
  refine ⟨dropObjectScopes_of_bound (contains_of_bindsKind bound),
    resolveSegments_of_bindsKind (scopesAreKinds_iff.mpr ?_) bound⟩
  rintro first second rfl outer between
  exact all first (second ++ back) (List.append_assoc ..) outer (by simp [between])

/-- A part of a scope, of two words or more and from one of the dropped words on, is bound as a whole,
and so the scope leads to what this part is bound to. -/
def Shadowed (registry : Registry) (dropped : List String) (scope : List String) : Prop :=
  ∃ passed part, scope = passed ++ part ∧ passed.length < dropped.length ∧ 2 ≤ part.length ∧
    registry.constants.contains (Path.join part) = true ∧
    registry.resolve (Path.join scope) = registry.resolveSegments part

/-- Behind dropped words, a scope leads to where it leads without them, unless it is shadowed. -/
theorem resolve_append (words : Path.Words (front ++ back))
    (visible : ∀ scope ∈ front, registry.isObjectScope scope = true)
    (within : front.length ≤ dropped.length) (nonempty : back ≠ []) :
    registry.resolve (Path.join (front ++ back)) =
        registry.resolveSegments (registry.dropObjectScopes back) ∨
      registry.Shadowed dropped (front ++ back) := by
  obtain through | ⟨passed, shadow, rfl, here, bound, stops⟩ :=
    dropObjectScopes_append visible nonempty
  · exact .inl (by rw [resolve_join words, through])
  · have one := List.length_pos_iff.mpr here
    have other := List.length_pos_iff.mpr nonempty
    rw [List.length_append] at within
    refine .inr ⟨passed, shadow ++ back, List.append_assoc .., by omega, ?_, bound, ?_⟩
    · rw [List.length_append]
      omega
    · rw [resolve_join words, stops]

/-- A scope that ends with a dropped word leads to the kind of this word, if it has one. -/
theorem resolve_dropped_front {scopes : List String} {last : String}
    (words : Path.Words (scopes ++ [last]))
    (visible : ∀ scope ∈ scopes, registry.isObjectScope scope = true)
    (within : (scopes ++ [last]).length ≤ dropped.length) :
    (∃ handle, registry.resolve (Path.join (scopes ++ [last])) = .kind handle) ∨
      registry.Shadowed dropped (scopes ++ [last]) ∨ registry.bindsKind last = false := by
  have shorter : scopes.length ≤ dropped.length := by
    rw [List.length_append] at within
    omega
  obtain alone | shadowed := resolve_append words visible shorter (List.cons_ne_nil last [])
  · cases kind : registry.bindsKind last with
    | true =>
      rw [alone, dropObjectScopes_singleton]
      exact .inl (resolveSegments_of_bindsKind rfl (by rwa [Path.join_singleton]))
    | false => exact .inr (.inr rfl)
  · exact .inr (.inl shadowed)

/-- A scope that goes on behind the dropped words leads to the kind that it leads to without them. -/
theorem resolve_kept_front (words : Path.Words (dropped ++ (front ++ back)))
    (visible : ∀ scope ∈ dropped, registry.isObjectScope scope = true)
    (scopes : registry.scopesAreKinds (front ++ back) = true) (outer : front ≠ [])
    (inner : back ≠ []) :
    (∃ handle, registry.resolve (Path.join (dropped ++ front)) = .kind handle) ∨
      registry.Shadowed dropped (dropped ++ front) := by
  have here : Path.Words (dropped ++ front) := by
    rw [← List.append_assoc] at words
    exact words.front (by simp [outer])
  obtain ⟨stays, kind⟩ := exists_kind_of_front scopes (words.back (by simp [outer])) outer inner
  obtain through | shadowed := resolve_append here visible (Nat.le_refl _) outer
  · exact .inl (by rwa [through, stays])
  · exact .inr shadowed

/-- When a path leads to something, the words in front of it are dropped through which the top level
is seen, and each scope in what is left leads to a kind.

Each scope of the path as it was written leads to a kind too, unless the scope is shadowed, or its
last word is a dropped one that is bound to no kind. When nothing was dropped, neither can be. -/
theorem scopes_of_resolve {registry : Registry} {path : String} (form : PathForm path.toList)
    (found : registry.resolve path ≠ .notFound) :
    ∃ dropped kept, registry.dropObjectScopes (Path.segments (Path.relative path)) = kept ∧
      Path.segments (Path.relative path) = dropped ++ kept ∧
      (∀ scope ∈ dropped, registry.isObjectScope scope = true) ∧
      (∀ front back, kept = front ++ back → front ≠ [] → back ≠ [] →
        ∃ handle, registry.resolve (Path.join front) = .kind handle) ∧
      ∀ front back, dropped ++ kept = front ++ back → front ≠ [] → back ≠ [] →
        (∃ handle, registry.resolve (Path.join front) = .kind handle) ∨
          registry.Shadowed dropped front ∨
          ∃ scopes last, front = scopes ++ [last] ∧ front.length ≤ dropped.length ∧
            registry.bindsKind last = false := by
  have words := Path.words_segments form
  obtain ⟨dropped, parts, rest, visible⟩ := exists_dropped registry words.1
  have scopes := scopesAreKinds_of_resolveSegments found
  rw [parts] at words
  generalize registry.dropObjectScopes (Path.segments (Path.relative path)) = kept at *
  refine ⟨dropped, kept, rfl, parts, visible, ?_, ?_⟩
  · rintro front back rfl outer inner
    have left := words.back rest
    obtain ⟨stays, kind⟩ := exists_kind_of_front scopes left outer inner
    rwa [resolve_join (left.front outer), stays]
  · intro front back cut outer inner
    by_cases within : front.length ≤ dropped.length
    · -- The scope ends with a dropped word.
      obtain ⟨between, rfl⟩ := List.prefix_of_prefix_length_le ⟨back, cut.symm⟩
        (List.prefix_append dropped kept) within
      obtain ⟨passed, last, ends⟩ := (List.eq_nil_or_concat front).resolve_left outer
      obtain rfl := ends.trans List.concat_eq_append
      have here : Path.Words (passed ++ [last]) := (cut ▸ words).front outer
      obtain kind | shadowed | missing :=
        resolve_dropped_front here (fun scope member => visible scope (by simp [member])) within
      · exact .inl kind
      · exact .inr (.inl shadowed)
      · exact .inr (.inr ⟨passed, last, rfl, within, missing⟩)
    · obtain ⟨between, rfl⟩ := List.prefix_of_prefix_length_le (List.prefix_append dropped kept)
        ⟨back, cut.symm⟩ (Nat.le_of_not_le within)
      rw [List.append_assoc, List.append_cancel_left_eq] at cut
      subst cut
      have further : between ≠ [] := by
        rintro rfl
        simp at within
      exact (resolve_kept_front words visible scopes further inner).imp_right .inl

/-- Two scopes are dropped, and the module around the class that is found leads to itself. -/
theorem scopes_of_resolve_rooted :
    PathForm "::Kernel::Object::Net::HTTP".toList ∧
      resolve (core.declareAll [.defineModule "Net", .defineClass "Net::HTTP" "Object"])
        "::Kernel::Object::Net::HTTP" = .kind ⟨"Net::HTTP"⟩ ∧
      ∃ handle, resolve (core.declareAll [.defineModule "Net", .defineClass "Net::HTTP" "Object"])
        "Net" = .kind handle := by
  have form : PathForm "::Kernel::Object::Net::HTTP".toList := by decide
  have found : resolve (core.declareAll [.defineModule "Net", .defineClass "Net::HTTP" "Object"])
      "::Kernel::Object::Net::HTTP" = .kind ⟨"Net::HTTP"⟩ := by decide +kernel
  have left : dropObjectScopes
      (core.declareAll [.defineModule "Net", .defineClass "Net::HTTP" "Object"])
      (Path.segments (Path.relative "::Kernel::Object::Net::HTTP")) = ["Net", "HTTP"] := by
    decide +kernel
  obtain ⟨dropped, kept, same, -, -, scopes, -⟩ := scopes_of_resolve form fun missing =>
    nomatch found.symm.trans missing
  exact ⟨form, found, scopes ["Net"] ["HTTP"] (same.symm.trans left) (by simp) (by simp)⟩

/-- A class inside a class is found through `Object`, but the constant that is bound there hides the
class around it. -/
theorem scope_hidden_by_constant :
    Built (core.declareAll [.defineClass "Queue" "Object", .defineClass "Queue::Item" "Object",
        .defineConstant "Object::Queue" "Integer"]) ∧
      PathForm "Object::Queue::Item".toList ∧
      resolve (core.declareAll [.defineClass "Queue" "Object", .defineClass "Queue::Item" "Object",
        .defineConstant "Object::Queue" "Integer"]) "Object::Queue::Item" =
          .kind ⟨"Queue::Item"⟩ ∧
      Path.segments (Path.relative "Object::Queue::Item") = ["Object", "Queue"] ++ ["Item"] ∧
      resolve (core.declareAll [.defineClass "Queue" "Object", .defineClass "Queue::Item" "Object",
        .defineConstant "Object::Queue" "Integer"]) (Path.join ["Object", "Queue"]) =
          .constant "Integer" :=
  ⟨⟨_, by decide, .inr rfl⟩, by decide, by decide +kernel, by decide, by decide +kernel⟩

end Registry

end DocTypes
