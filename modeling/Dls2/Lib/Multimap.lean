import Mathlib.Data.List.Sort
import Mathlib.Data.List.TakeWhile
import Mathlib.Data.Multiset.Filter
import Mathlib.Data.Multiset.AddSub

/-!
# Maps with several values under one key

A `std::multimap` keeps its pairs in the order of their keys, and pairs of the same key in
the order in which they were inserted. What a multimap holds is a multiset of pairs; a range
of equal keys is the part of it with that key.
-/

namespace Dls2

universe u v

/-- Pairs in the order of their keys. -/
structure Multimap (Key : Type u) (Value : Type v) [LinearOrder Key] where
  entries : List (Key × Value)
  sorted : entries.Pairwise fun one other => one.1 ≤ other.1

namespace Multimap

variable {Key : Type u} {Value : Type v} [LinearOrder Key]

instance : EmptyCollection (Multimap Key Value) := ⟨[], .nil⟩

/-- The pairs with their multiplicities. -/
def toMultiset (map : Multimap Key Value) : Multiset (Key × Value) := map.entries

def size (map : Multimap Key Value) : Nat := map.entries.length

/-- An insertion before the first greater key keeps the order. -/
theorem sorted_orderedInsert (pair : Key × Value) {entries : List (Key × Value)}
    (sorted : entries.Pairwise fun one other => one.1 ≤ other.1) :
    (entries.orderedInsert (fun new old => new.1 < old.1) pair).Pairwise
      fun one other => one.1 ≤ other.1 := by
  induction entries with
  | nil => simp
  | cons head rest ih =>
    obtain ⟨least, ordered⟩ := List.pairwise_cons.mp sorted
    rw [List.orderedInsert_cons]
    split
    · have before : pair.1 < head.1 := ‹_›
      refine List.pairwise_cons.mpr ⟨?_, sorted⟩
      intro other member
      rcases List.mem_cons.mp member with rfl | later
      · exact before.le
      · exact before.le.trans (least other later)
    · have after : head.1 ≤ pair.1 := not_lt.mp ‹_›
      refine List.pairwise_cons.mpr ⟨?_, ih ordered⟩
      intro other member
      rcases (List.mem_orderedInsert _).mp member with rfl | old
      · exact after
      · exact least other old

/-- Insert a pair behind those of its key. -/
def insert (pair : Key × Value) (map : Multimap Key Value) : Multimap Key Value where
  entries := map.entries.orderedInsert (fun new old => new.1 < old.1) pair
  sorted := sorted_orderedInsert pair map.sorted

/-- Insert pairs one after the other. -/
def insertAll (pairs : List (Key × Value)) (map : Multimap Key Value) : Multimap Key Value :=
  pairs.foldl (fun map pair => map.insert pair) map

/-- From the first key that is not less to the first that is greater. -/
def equalRange (map : Multimap Key Value) (key : Key) : List (Key × Value) :=
  (map.entries.dropWhile fun pair => pair.1 < key).takeWhile fun pair => pair.1 ≤ key

def count (map : Multimap Key Value) (key : Key) : Nat := (map.equalRange key).length

@[simp] theorem toMultiset_empty : (∅ : Multimap Key Value).toMultiset = 0 := rfl

@[simp] theorem toMultiset_insert (pair : Key × Value) (map : Multimap Key Value) :
    (map.insert pair).toMultiset = pair ::ₘ map.toMultiset :=
  Multiset.coe_eq_coe.mpr (List.perm_orderedInsert _ pair map.entries)

@[simp] theorem toMultiset_insertAll (pairs : List (Key × Value)) (map : Multimap Key Value) :
    (map.insertAll pairs).toMultiset = pairs + map.toMultiset := by
  induction pairs generalizing map with
  | nil => simp [insertAll]
  | cons pair rest ih =>
    have step : map.insertAll (pair :: rest) = (map.insert pair).insertAll rest := rfl
    rw [step, ih, toMultiset_insert, ← Multiset.cons_coe, Multiset.add_cons, Multiset.cons_add]

/-- A copy of pairs holds these pairs. -/
theorem toMultiset_copy (pairs : List (Key × Value)) :
    (insertAll pairs ∅).toMultiset = (pairs : Multiset (Key × Value)) := by
  rw [toMultiset_insertAll, toMultiset_empty, Multiset.add_zero]

/-- Inserting a greatest key appends the pair. -/
theorem entries_insert_of_le {pair : Key × Value} {map : Multimap Key Value}
    (greatest : ∀ other ∈ map.entries, other.1 ≤ pair.1) :
    (map.insert pair).entries = map.entries ++ [pair] := by
  have none : ∀ other ∈ map.entries, decide (¬ pair.1 < other.1) = true := by
    intro other member
    exact decide_eq_true (not_lt.mpr (greatest other member))
  have all : map.entries.takeWhile (fun other => decide (¬ pair.1 < other.1)) = map.entries :=
    List.takeWhile_eq_self_iff.mpr none
  have rest : map.entries.dropWhile (fun other => decide (¬ pair.1 < other.1)) = [] :=
    List.dropWhile_eq_nil_iff.mpr none
  simp only [insert, List.orderedInsert_eq_take_drop, all, rest]

/-- Copying pairs that are in order keeps them as they are. -/
theorem entries_insertAll {pairs : List (Key × Value)} (map : Multimap Key Value)
    (sorted : (map.entries ++ pairs).Pairwise fun one other => one.1 ≤ other.1) :
    (map.insertAll pairs).entries = map.entries ++ pairs := by
  induction pairs generalizing map with
  | nil => simp [insertAll]
  | cons pair rest ih =>
    have greatest : ∀ other ∈ map.entries, other.1 ≤ pair.1 := by
      intro other member
      exact (List.pairwise_append.mp sorted).2.2 other member pair List.mem_cons_self
    have appended := entries_insert_of_le greatest
    have step : map.insertAll (pair :: rest) = (map.insert pair).insertAll rest := rfl
    rw [step, ih, appended, List.append_assoc]
    · rfl
    · rw [appended, List.append_assoc]
      exact sorted

theorem entries_copy {pairs : List (Key × Value)}
    (sorted : pairs.Pairwise fun one other => one.1 ≤ other.1) :
    (insertAll pairs ∅).entries = pairs :=
  entries_insertAll ∅ sorted

section Ranges

variable {Item : Type u} {test : Item → Bool} {items : List Item}

/-- In an order in which the test can only become false, it stays false. -/
theorem fails_of_falling {head : Item} {rest : List Item}
    (falling : (head :: rest).Pairwise fun one other => test other → test one)
    (fails : test head = false) : ∀ other ∈ rest, test other = false := by
  intro other member
  by_contra late
  have early := (List.pairwise_cons.mp falling).1 other member (by simpa using late)
  exact absurd early (by simp [fails])

/-- The start of such an order is all that passes. -/
theorem takeWhile_eq_filter (falling : items.Pairwise fun one other => test other → test one) :
    items.takeWhile test = items.filter test := by
  induction items with
  | nil => rfl
  | cons head rest ih =>
    cases passes : test head with
    | true => simp [passes, ih falling.of_cons]
    | false =>
      have none : rest.filter test = [] := by
        simpa using fails_of_falling falling passes
      simp [passes, none]

/-- What is left of it is all that does not pass. -/
theorem dropWhile_eq_filter (falling : items.Pairwise fun one other => test other → test one) :
    items.dropWhile test = items.filter fun item => !test item := by
  induction items with
  | nil => rfl
  | cons head rest ih =>
    cases passes : test head with
    | true => simp [passes, ih falling.of_cons]
    | false =>
      have all : rest.filter (fun item => !test item) = rest := by
        simpa using fails_of_falling falling passes
      simp [passes, all]

end Ranges

/-- A range of equal keys is what the map holds under the key. -/
theorem equalRange_eq_filter (map : Multimap Key Value) (key : Key) :
    map.equalRange key = map.entries.filter fun pair => pair.1 = key := by
  have below : map.entries.Pairwise fun one other =>
      decide (other.1 < key) = true → decide (one.1 < key) = true := by
    refine map.sorted.imp ?_
    simp only [decide_eq_true_eq]
    exact fun ordered less => ordered.trans_lt less
  have upTo : (map.entries.filter fun pair => !decide (pair.1 < key)).Pairwise fun one other =>
      decide (other.1 ≤ key) = true → decide (one.1 ≤ key) = true := by
    refine (map.sorted.filter _).imp ?_
    simp only [decide_eq_true_eq]
    exact fun ordered less => ordered.trans less
  rw [equalRange, dropWhile_eq_filter below, takeWhile_eq_filter upTo, List.filter_filter]
  refine List.filter_congr fun pair _ => ?_
  have same : pair.1 = key ↔ pair.1 ≤ key ∧ ¬ pair.1 < key := by
    rw [not_lt]
    exact le_antisymm_iff
  rw [decide_eq_decide.mpr same, Bool.decide_and, decide_not]

/-- The range as a multiset. -/
theorem coe_equalRange (map : Multimap Key Value) (key : Key) :
    (map.equalRange key : Multiset (Key × Value)) =
      map.toMultiset.filter fun pair => pair.1 = key := by
  rw [equalRange_eq_filter]
  rfl

end Multimap

end Dls2
