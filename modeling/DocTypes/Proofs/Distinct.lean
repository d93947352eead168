import Mathlib.Data.List.Induction
import DocTypes.Value

/-!
# The first occurrences in a list

A set is made of the first occurrences in a list of values: the values that equal none of those before
them (`ofMembers_first_occurrences`). The members are compared only with one another as they are
added, and not with what was left out. That this makes no difference is due to equality being
transitive (`equal_trans`): what was left out equals a member, and so does whatever equals it.

Apart from that equality is symmetric (`equal_comm`), and nothing else is needed of it. A value need
not equal itself, as a NaN does not, nor a container with a NaN in it, and then each of its occurrences
is a first one.
-/

namespace DocTypes.Value

/-! ## Equality is symmetric -/

mutual

/-- Of two values each equals the other, or neither does. -/
theorem equal_comm : (a b : Value) → a.equal b = b.equal a
  | .nil, b => by cases b <;> rfl
  | .bool _, b => by
    cases b with
    | bool _ => exact Bool.beq_comm
    | _ => rfl
  | .integer _, b => by
    cases b with
    | integer _ => exact Bool.beq_comm
    | _ => rfl
  | .float x, b => by
    cases b with
    | float y => exact Double.equal_comm x y
    | _ => rfl
  | .string _, b => by
    cases b with
    | string _ => exact Bool.beq_comm
    | _ => rfl
  | .symbol _, b => by
    cases b with
    | symbol _ => exact Bool.beq_comm
    | _ => rfl
  | .array as, b => by
    cases b with
    | array bs => exact equalLists_comm as bs
    | _ => rfl
  | .hash as, b => by
    cases b with
    | hash bs => exact equalPairs_comm as bs
    | _ => rfl
  | .set as, b => by
    cases b with
    | set bs => exact equalLists_comm as bs
    | _ => rfl
  | .kind _, b => by
    cases b with
    | kind _ => exact Bool.beq_comm
    | _ => rfl
  | .object a, b => by
    cases b with
    | object b => exact equalObjects_comm a b
    | _ => rfl
termination_by structural a => a

theorem equalLists_comm : (as bs : List Value) → equalLists as bs = equalLists bs as
  | [], bs => by cases bs <;> rfl
  | a :: as, bs => by
    cases bs with
    | nil => rfl
    | cons b bs => rw [equalLists, equalLists, equal_comm a b, equalLists_comm as bs]
termination_by structural as => as

theorem equalPairs_comm : (as bs : List (Value × Value)) → equalPairs as bs = equalPairs bs as
  | [], bs => by cases bs <;> rfl
  | a :: as, bs => by
    cases bs with
    | nil => rfl
    | cons b bs => rw [equalPairs, equalPairs, equalPair_comm a b, equalPairs_comm as bs]
termination_by structural as => as

theorem equalPair_comm : (a b : Value × Value) → equalPair a b = equalPair b a
  | (key, value), (key', value') => by
    rw [equalPair, equalPair, equal_comm key key', equal_comm value value']
termination_by structural a => a

theorem equalObjects_comm : (a b : Object Value) → equalObjects a b = equalObjects b a
  | ⟨class₁, methods₁, shape₁⟩, ⟨class₂, methods₂, shape₂⟩ => by
    have classes : (class₁ == class₂) = (class₂ == class₁) := Bool.beq_comm
    rw [equalObjects, equalObjects, classes, NameSet.same_comm methods₁ methods₂,
      equalShapes_comm shape₁ shape₂]
termination_by structural a => a

theorem equalShapes_comm : (a b : Shape Value) → equalShapes a b = equalShapes b a
  | .plain, b => by cases b <;> rfl
  | .list as, b => by
    cases b with
    | list bs => exact equalLists_comm as bs
    | _ => rfl
  | .map keys values, b => by
    cases b with
    | map keys' values' =>
      rw [equalShapes, equalShapes, equalLists_comm keys keys', equalLists_comm values values']
    | _ => rfl
termination_by structural a => a

end

/-! ## Equality is transitive -/

mutual

/-- What equals a value equals what the value equals. -/
theorem equal_trans : (a : Value) → {b c : Value} → a.equal b = true → b.equal c = true →
    a.equal c = true
  | .nil, b, _, first, second => by
    cases b with
    | nil => exact second
    | _ => cases first
  | .bool _, b, _, first, second => by
    cases b with
    | bool _ => exact eq_of_beq first ▸ second
    | _ => cases first
  | .integer _, b, _, first, second => by
    cases b with
    | integer _ => exact eq_of_beq first ▸ second
    | _ => cases first
  | .float x, b, c, first, second => by
    cases b with
    | float _ =>
      cases c with
      | float _ => exact Double.equal_trans first second
      | _ => cases second
    | _ => cases first
  | .string _, b, _, first, second => by
    cases b with
    | string _ => exact eq_of_beq first ▸ second
    | _ => cases first
  | .symbol _, b, _, first, second => by
    cases b with
    | symbol _ => exact eq_of_beq first ▸ second
    | _ => cases first
  | .array as, b, c, first, second => by
    cases b with
    | array _ =>
      cases c with
      | array _ => exact equalLists_trans as first second
      | _ => cases second
    | _ => cases first
  | .hash as, b, c, first, second => by
    cases b with
    | hash _ =>
      cases c with
      | hash _ => exact equalPairs_trans as first second
      | _ => cases second
    | _ => cases first
  | .set as, b, c, first, second => by
    cases b with
    | set _ =>
      cases c with
      | set _ => exact equalLists_trans as first second
      | _ => cases second
    | _ => cases first
  | .kind _, b, _, first, second => by
    cases b with
    | kind _ => exact eq_of_beq first ▸ second
    | _ => cases first
  | .object a, b, c, first, second => by
    cases b with
    | object _ =>
      cases c with
      | object _ => exact equalObjects_trans a first second
      | _ => cases second
    | _ => cases first
termination_by structural a => a

theorem equalLists_trans : (as : List Value) → {bs cs : List Value} → equalLists as bs = true →
    equalLists bs cs = true → equalLists as cs = true
  | [], bs, _, first, second => by
    cases bs with
    | nil => exact second
    | cons _ _ => cases first
  | a :: as, bs, cs, first, second => by
    cases bs with
    | nil => cases first
    | cons _ _ =>
      cases cs with
      | nil => cases second
      | cons _ _ =>
        simp only [equalLists, Bool.and_eq_true] at first second ⊢
        exact ⟨equal_trans a first.1 second.1, equalLists_trans as first.2 second.2⟩
termination_by structural as => as

theorem equalPairs_trans : (as : List (Value × Value)) → {bs cs : List (Value × Value)} →
    equalPairs as bs = true → equalPairs bs cs = true → equalPairs as cs = true
  | [], bs, _, first, second => by
    cases bs with
    | nil => exact second
    | cons _ _ => cases first
  | a :: as, bs, cs, first, second => by
    cases bs with
    | nil => cases first
    | cons _ _ =>
      cases cs with
      | nil => cases second
      | cons _ _ =>
        simp only [equalPairs, Bool.and_eq_true] at first second ⊢
        exact ⟨equalPair_trans a first.1 second.1, equalPairs_trans as first.2 second.2⟩
termination_by structural as => as

theorem equalPair_trans : (a : Value × Value) → {b c : Value × Value} → equalPair a b = true →
    equalPair b c = true → equalPair a c = true
  | (key, value), (_, _), (_, _), first, second => by
    simp only [equalPair, Bool.and_eq_true] at first second ⊢
    exact ⟨equal_trans key first.1 second.1, equal_trans value first.2 second.2⟩
termination_by structural a => a

theorem equalObjects_trans : (a : Object Value) → {b c : Object Value} →
    equalObjects a b = true → equalObjects b c = true → equalObjects a c = true
  | ⟨_, _, shape⟩, ⟨_, _, _⟩, ⟨_, _, _⟩, first, second => by
    simp only [equalObjects, Bool.and_eq_true, beq_iff_eq] at first second ⊢
    obtain ⟨⟨class₁, methods₁⟩, shape₁⟩ := first
    obtain ⟨⟨class₂, methods₂⟩, shape₂⟩ := second
    exact ⟨⟨class₁.trans class₂, NameSet.same_trans methods₁ methods₂⟩,
      equalShapes_trans shape shape₁ shape₂⟩
termination_by structural a => a

theorem equalShapes_trans : (a : Shape Value) → {b c : Shape Value} → equalShapes a b = true →
    equalShapes b c = true → equalShapes a c = true
  | .plain, b, _, first, second => by
    cases b with
    | plain => exact second
    | _ => cases first
  | .list as, b, c, first, second => by
    cases b with
    | list _ =>
      cases c with
      | list _ => exact equalLists_trans as first second
      | _ => cases second
    | _ => cases first
  | .map keys values, b, c, first, second => by
    cases b with
    | map _ _ =>
      cases c with
      | map _ _ =>
        simp only [equalShapes, Bool.and_eq_true] at first second ⊢
        exact ⟨equalLists_trans keys first.1 second.1, equalLists_trans values first.2 second.2⟩
      | _ => cases second
    | _ => cases first
termination_by structural a => a

end

/-! ## One value more -/

theorem distinctFrom_append (kept values more : List Value) :
    distinctFrom kept (values ++ more) = distinctFrom (distinctFrom kept values) more := by
  fun_induction distinctFrom kept values with
  | case1 => rfl
  | case2 kept value values found ih => rw [List.cons_append, distinctFrom, if_pos found, ih]
  | case3 kept value values new ih => rw [List.cons_append, distinctFrom, if_neg new, ih]

theorem distinct_step (values : List Value) (value : Value) :
    distinct (values ++ [value]) =
      if (distinct values).any (·.equal value) then distinct values
      else distinct values ++ [value] :=
  distinctFrom_append [] values [value]

/-- One of the values equals another value exactly when one of the members does: a value that was left
out has a member that equals it, and passes on to it what it equals. -/
theorem any_distinct (values : List Value) (value : Value) :
    (distinct values).any (·.equal value) = values.any (·.equal value) := by
  induction values using List.reverseRecOn with
  | nil => rfl
  | append_singleton values last ih =>
    rw [distinct_step, List.any_append, ← ih]
    by_cases dropped : (distinct values).any (·.equal last) = true
    · rw [if_pos dropped]
      obtain ⟨member, kept, same⟩ := List.any_eq_true.mp dropped
      by_cases again : last.equal value = true
      · have passed : (distinct values).any (·.equal value) = true :=
          List.any_eq_true.mpr ⟨member, kept, equal_trans member same again⟩
        rw [passed, Bool.true_or]
      · simp [again]
    · rw [if_neg dropped, List.any_append]

/-- A value is added unless it equals a value before it, kept or not. -/
theorem distinct_concat (values : List Value) (value : Value) :
    distinct (values ++ [value]) =
      if values.any (·.equal value) then distinct values else distinct values ++ [value] := by
  rw [distinct_step, any_distinct]

theorem distinct_sublist (values : List Value) : (distinct values).Sublist values := by
  induction values using List.reverseRecOn with
  | nil => exact .slnil
  | append_singleton values value ih =>
    rw [distinct_concat]
    split
    · exact ih.trans (List.sublist_append_left ..)
    · exact ih.append (.refl _)

/-- No member equals a later one. -/
theorem pairwise_distinct (values : List Value) :
    (distinct values).Pairwise fun earlier member => earlier.equal member = false := by
  induction values using List.reverseRecOn with
  | nil => exact .nil
  | append_singleton values value ih =>
    rw [distinct_concat]
    split
    · exact ih
    · next new =>
      have others : ∀ earlier ∈ distinct values, earlier.equal value = false := by
        intro earlier kept
        have held := (distinct_sublist values).subset kept
        simpa using List.any_eq_false.mp (Bool.not_eq_true _ ▸ new) earlier held
      exact List.pairwise_append.mpr ⟨ih, List.pairwise_singleton .., by simpa using others⟩

/-- Values that do not equal later ones are all kept. -/
theorem distinct_of_pairwise {values : List Value}
    (apart : values.Pairwise fun earlier value => earlier.equal value = false) :
    distinct values = values := by
  induction values using List.reverseRecOn with
  | nil => rfl
  | append_singleton values value ih =>
    obtain ⟨front, -, others⟩ := List.pairwise_append.mp apart
    have new : values.any (·.equal value) = false :=
      List.any_eq_false.mpr fun earlier held => by simp [others earlier held]
    rw [distinct_concat, new, ih front]
    rfl

/-! ## First occurrences -/

/-- There is a value at the position, and it equals none of the values before it. -/
def IsFirst (values : List Value) (position : Nat) : Prop :=
  ∃ value ∈ values[position]?, ∀ earlier ∈ values.take position, earlier.equal value = false

instance (values : List Value) (position : Nat) : Decidable (IsFirst values position) :=
  inferInstanceAs (Decidable (∃ value ∈ values[position]?, _))

/-- The positions of the first occurrences in a list, in ascending order. -/
def firstPositions (values : List Value) : List Nat :=
  (List.range values.length).filter (IsFirst values ·)

section First

variable {values more : List Value} {value : Value} {position : Nat}

theorem isFirst_append (inside : position < values.length) :
    IsFirst (values ++ more) position ↔ IsFirst values position := by
  unfold IsFirst
  rw [List.getElem?_append_left inside, List.take_append_of_le_length (Nat.le_of_lt inside)]

theorem isFirst_concat :
    IsFirst (values ++ [value]) values.length ↔ values.any (·.equal value) = false := by
  unfold IsFirst
  simp

theorem firstPositions_concat (values : List Value) (value : Value) :
    firstPositions (values ++ [value]) =
      if values.any (·.equal value) then firstPositions values
      else firstPositions values ++ [values.length] := by
  have front : (List.range values.length).filter (IsFirst (values ++ [value]) ·) =
      firstPositions values := by
    refine List.filter_congr fun position inside => ?_
    simp only [isFirst_append (List.mem_range.mp inside)]
  unfold firstPositions at front ⊢
  rw [List.length_append, List.length_singleton, List.range_succ, List.filter_append, front,
    List.filter_cons, List.filter_nil]
  simp only [isFirst_concat]
  cases values.any (·.equal value) <;> simp

/-- The members are the values at the positions of first occurrences. -/
theorem map_some_distinct (values : List Value) :
    (distinct values).map some = (firstPositions values).map (values[·]?) := by
  induction values using List.reverseRecOn with
  | nil => rfl
  | append_singleton values value ih =>
    have front : (firstPositions values).map ((values ++ [value])[·]?) =
        (distinct values).map some := by
      rw [ih]
      refine List.map_congr_left fun position first => ?_
      exact List.getElem?_append_left (List.mem_range.mp (List.mem_filter.mp first).1)
    rw [distinct_concat, firstPositions_concat]
    split
    · exact front.symm
    · rw [List.map_append, List.map_append, front]
      simp

/-- A later occurrence has a first one before it that equals it. -/
theorem exists_isFirst (found : values[position]? = some value) (later : ¬ IsFirst values position) :
    ∃ first < position, IsFirst values first ∧
      ∃ member, values[first]? = some member ∧ member.equal value = true := by
  induction position using Nat.strongRecOn generalizing value with
  | ind position ih =>
    have equals : ∃ earlier ∈ values.take position, earlier.equal value = true := by
      simpa [IsFirst, found] using later
    obtain ⟨earlier, front, same⟩ := equals
    obtain ⟨before, inside, here⟩ := List.mem_take_iff_getElem.mp front
    have held : values[before]? = some earlier := List.getElem?_eq_some_iff.mpr ⟨by omega, here⟩
    by_cases first : IsFirst values before
    · exact ⟨before, by omega, first, earlier, held, same⟩
    · obtain ⟨first, less, isFirst, member, kept, same'⟩ := ih before (by omega) held first
      exact ⟨first, by omega, isFirst, member, kept, equal_trans member same' same⟩

end First

/-- The members of the set of a list are the values at the positions of first occurrences, in their
order. No member equals an earlier one. Each value that is left out equals a member that was kept
from an earlier position. And the set of the members has the same members in the same order. -/
theorem ofMembers_first_occurrences (values : List Value) :
    ∃ members, ofMembers values = .set members ∧
      members.map some = (firstPositions values).map (values[·]?) ∧
      members.Sublist values ∧
      members.Pairwise (fun earlier member => member.equal earlier = false) ∧
      (∀ position value, values[position]? = some value → position ∉ firstPositions values →
        ∃ first ∈ firstPositions values, first < position ∧
          ∃ member, values[first]? = some member ∧ value.equal member = true) ∧
      ofMembers members = .set members := by
  refine ⟨distinct values, rfl, map_some_distinct values, distinct_sublist values, ?_,
    fun position value found dropped => ?_, ?_⟩
  · exact (pairwise_distinct values).imp fun apart => (equal_comm ..).trans apart
  · have inside (position : Nat) (value : Value) (found : values[position]? = some value) :
        position ∈ firstPositions values ↔ IsFirst values position := by
      have := (List.getElem?_eq_some_iff.mp found).1
      simp [firstPositions, this]
    rw [inside position value found] at dropped
    obtain ⟨first, less, isFirst, member, kept, same⟩ := exists_isFirst found dropped
    exact ⟨first, (inside first member kept).mpr isFirst, less, member, kept,
      (equal_comm ..).trans same⟩
  · rw [ofMembers, distinct_of_pairwise (pairwise_distinct values)]

example : firstPositions [.float .nan, .float ⟨0⟩, .array [.float .nan], .float .nan,
    .float ⟨0x8000000000000000⟩, .array [.float .nan]] = [0, 1, 2, 3, 5] := by
  decide

end DocTypes.Value
