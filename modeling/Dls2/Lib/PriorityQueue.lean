import Mathlib.Data.List.Sort
import Mathlib.Data.Multiset.AddSub
import Mathlib.Order.RelClasses

/-!
# Priority queues

What a priority queue holds is a multiset, and its top is an entry that no other exceeds.
Entries that the comparison does not tell apart come out in any order, so that a queue is
known by its laws only. They are promised for comparisons that are strict weak orders.

A comparison by several keys, one after the other, is a strict weak order. Taking out the top
several times leaves a list of the greatest entries.
-/

namespace Dls2

universe u v w

/-- The operations of a priority queue. `top` is `none` for an empty queue. -/
structure PriorityQueue (Entry : Type u) (Queue : Type v) where
  empty : Queue
  push : Queue → Entry → Queue
  isEmpty : Queue → Bool
  top : Queue → Option Entry
  pop : Queue → Queue

section StrictWeakOrder

variable {Entry : Type u} {less : Entry → Entry → Prop}

/-- What is not less along a chain is not less at its ends. -/
instance isOrderConnected_of_isStrictWeakOrder [IsStrictWeakOrder Entry less] :
    IsOrderConnected Entry less where
  conn one between other ordered := by
    by_contra unrelated
    obtain ⟨notFirst, notSecond⟩ := not_or.mp unrelated
    have notFirst' : ¬ less between one :=
      fun back => notSecond (trans_of less back ordered)
    have notSecond' : ¬ less other between :=
      fun back => notFirst (trans_of less ordered back)
    exact (IsStrictWeakOrder.incomp_trans one between other ⟨notFirst, notFirst'⟩
      ⟨notSecond, notSecond'⟩).1 ordered

instance isStrictWeakOrder_of_isStrictTotalOrder [IsStrictTotalOrder Entry less] :
    IsStrictWeakOrder Entry less :=
  isStrictWeakOrder_of_isOrderConnected

/-- Compare by a key, and entries of the same key by `less`. -/
def ByKey {Key : Type w} [LT Key] (key : Entry → Key) (less : Entry → Entry → Prop)
    (one other : Entry) : Prop :=
  key one < key other ∨ key one = key other ∧ less one other

instance byKey_isStrictWeakOrder {Key : Type w} [LT Key] [IsStrictTotalOrder Key (· < ·)]
    [IsStrictWeakOrder Entry less] (key : Entry → Key) :
    IsStrictWeakOrder Entry (ByKey key less) := by
  have : Std.Asymm (ByKey key less) := by
    constructor
    rintro one other (apart | ⟨alike, ordered⟩) (back | ⟨same, back⟩)
    · exact asymm_of (· < ·) apart back
    · exact irrefl_of (· < ·) (key one) (same ▸ apart)
    · exact irrefl_of (· < ·) (key one) (alike ▸ back)
    · exact asymm_of less ordered back
  have : IsOrderConnected Entry (ByKey key less) := by
    constructor
    intro one between other ordered
    rcases trichotomous_of (· < ·) (key one) (key between) with below | same | above
    · exact .inl (.inl below)
    · rcases ordered with apart | ⟨alike, ordered⟩
      · exact .inr (.inl (same ▸ apart))
      · rcases IsOrderConnected.conn one between other ordered with first | second
        · exact .inl (.inr ⟨same, first⟩)
        · exact .inr (.inr ⟨same ▸ alike, second⟩)
    · rcases ordered with apart | ⟨alike, -⟩
      · exact .inr (.inl (trans_of (· < ·) above apart))
      · exact .inr (.inl (alike ▸ above))
  exact isStrictWeakOrder_of_isOrderConnected

end StrictWeakOrder

namespace PriorityQueue

variable {Entry : Type u} {Queue : Type v} {less : Entry → Entry → Prop}

/-- The laws of a priority queue that holds `contents`. -/
structure Lawful (operations : PriorityQueue Entry Queue) (less : Entry → Entry → Prop)
    (contents : Queue → Multiset Entry) : Prop where
  contents_empty : contents operations.empty = 0
  contents_push : ∀ queue entry, contents (operations.push queue entry) = entry ::ₘ contents queue
  isEmpty_iff : ∀ queue, operations.isEmpty queue = true ↔ contents queue = 0
  contents_pop : ∀ queue, contents queue ≠ 0 → ∃ entry, operations.top queue = some entry ∧
    contents queue = entry ::ₘ contents (operations.pop queue) ∧
    ∀ other ∈ contents queue, ¬ less entry other

theorem Lawful.exists_top {operations : PriorityQueue Entry Queue}
    {contents : Queue → Multiset Entry} (lawful : operations.Lawful less contents) {queue : Queue}
    (nonempty : operations.isEmpty queue = false) : ∃ entry,
      operations.top queue = some entry ∧
      contents queue = entry ::ₘ contents (operations.pop queue) ∧
      ∀ other ∈ contents queue, ¬ less entry other := by
  apply lawful.contents_pop
  rw [ne_eq, ← lawful.isEmpty_iff, nonempty]
  exact Bool.false_ne_true

/-- `taken` has come out of a queue with `whole` in it, and `rest` is left. -/
structure Extracted (less : Entry → Entry → Prop) (whole : Multiset Entry)
    (taken : List Entry) (rest : Multiset Entry) : Prop where
  whole_eq : whole = taken + rest
  descending : taken.Pairwise fun one later => ¬ less one later
  greatest : ∀ one ∈ taken, ∀ other ∈ rest, ¬ less one other

namespace Extracted

variable {whole rest smaller : Multiset Entry} {taken : List Entry} {entry : Entry}

theorem start : Extracted less whole [] whole where
  whole_eq := (Multiset.zero_add whole).symm
  descending := .nil
  greatest := by simp

/-- The next entry goes to the end of the list. -/
theorem pop (extracted : Extracted less whole taken rest) (split : rest = entry ::ₘ smaller)
    (top : ∀ other ∈ rest, ¬ less entry other) :
    Extracted less whole (taken ++ [entry]) smaller where
  whole_eq := by
    rw [extracted.whole_eq, split, ← Multiset.coe_add, Multiset.coe_singleton, Multiset.add_assoc,
      Multiset.singleton_add]
  descending := by
    refine List.pairwise_append.mpr ⟨extracted.descending, List.pairwise_singleton _ _, ?_⟩
    intro one member other last
    obtain rfl := List.mem_singleton.mp last
    exact extracted.greatest one member other (split ▸ Multiset.mem_cons_self other smaller)
  greatest := by
    intro one member other left
    have before : other ∈ rest := split ▸ Multiset.mem_cons_of_mem left
    rcases List.mem_append.mp member with early | last
    · exact extracted.greatest one early other before
    · obtain rfl := List.mem_singleton.mp last
      exact top other before

theorem card_whole (extracted : Extracted less whole taken rest) :
    whole.card = taken.length + rest.card := by
  rw [extracted.whole_eq, Multiset.card_add, Multiset.coe_card]

end Extracted

/-- `taken` are the `limit` greatest entries of `whole` in falling order, or all of them if
there are not so many. -/
structure Greatest (less : Entry → Entry → Prop) (limit : Nat) (whole : Multiset Entry)
    (taken : List Entry) : Prop where
  length_eq : taken.length = min limit whole.card
  leftOut : ∃ rest, Extracted less whole taken rest

/-- Extraction gives the greatest entries if it ends when nothing is left, or with enough. -/
theorem Extracted.toGreatest {limit : Nat} {whole rest : Multiset Entry} {taken : List Entry}
    (extracted : Extracted less whole taken rest) (bounded : taken.length ≤ limit)
    (ended : rest = 0 ∨ limit ≤ taken.length) : Greatest less limit whole taken where
  length_eq := by
    rw [extracted.card_whole]
    rcases ended with rfl | enough
    · rw [Multiset.card_zero, Nat.add_zero, Nat.min_eq_right bounded]
    · rw [Nat.le_antisymm bounded enough, Nat.min_eq_left (Nat.le_add_right limit _)]
  leftOut := ⟨rest, extracted⟩

/-- A list of entries in falling order, as a priority queue. -/
structure Descending (less : Entry → Entry → Prop) where
  entries : List Entry
  descending : entries.Pairwise fun one later => ¬ less one later

namespace Descending

variable [DecidableRel less] [IsStrictWeakOrder Entry less]

/-- Before the first entry that is not greater. -/
def push (queue : Descending less) (entry : Entry) : Descending less where
  entries := queue.entries.orderedInsert (fun one other => ¬ less one other) entry
  descending := by
    have : Std.Total fun one other => ¬ less one other :=
      ⟨fun one other => not_and_or.mp fun both => asymm_of less both.1 both.2⟩
    have : IsTrans Entry fun one other => ¬ less one other :=
      ⟨fun _ _ _ => IsOrderConnected.neg_trans⟩
    exact queue.descending.orderedInsert entry queue.entries

/-- The operations on such lists. -/
def operations (less : Entry → Entry → Prop) [DecidableRel less]
    [IsStrictWeakOrder Entry less] : PriorityQueue Entry (Descending less) where
  empty := ⟨[], .nil⟩
  push := push
  isEmpty queue := queue.entries.isEmpty
  top queue := queue.entries.head?
  pop queue := ⟨queue.entries.tail, queue.descending.tail⟩

def contents (queue : Descending less) : Multiset Entry := queue.entries

theorem lawful : (operations less).Lawful less contents where
  contents_empty := rfl
  contents_push queue entry :=
    Multiset.coe_eq_coe.mpr (List.perm_orderedInsert _ entry queue.entries)
  isEmpty_iff queue := by
    simp [operations, contents]
  contents_pop queue nonempty := by
    obtain ⟨entries, descending⟩ := queue
    cases entries with
    | nil => exact absurd rfl nonempty
    | cons entry rest =>
      refine ⟨entry, rfl, rfl, ?_⟩
      intro other member
      rcases List.mem_cons.mp member with rfl | later
      · exact irrefl_of less other
      · exact List.rel_of_pairwise_cons descending later

end Descending

end PriorityQueue

end Dls2
