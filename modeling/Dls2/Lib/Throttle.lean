import Mathlib.Algebra.Order.Group.Defs
import Mathlib.Algebra.Order.Sub.Basic
import Mathlib.Data.List.Chain
import Mathlib.Tactic.Abel

/-!
# Throttling a stream

A throttle lets an item through unless the last one that it let through is less than a
threshold ago. What it keeps of a stream is at least the threshold apart, and a stream that
never pauses is never silenced for longer than the threshold and one gap.
-/

namespace Dls2.Throttle

universe u v

variable {Item : Type u} {Time : Type v} [AddCommGroup Time] [LinearOrder Time]

/-- An item that comes now is let through. -/
def Admits (threshold : Time) (last : Option Time) (now : Time) : Prop :=
  ∀ time ∈ last, ¬ now - time < threshold

instance (threshold : Time) (last : Option Time) (now : Time) :
    Decidable (Admits threshold last now) :=
  match last with
  | none => isTrue nofun
  | some time => decidable_of_iff (¬ now - time < threshold) (by simp [Admits])

/-- What a throttle keeps of a stream, `last` being the time of the last item kept. -/
def kept (time : Item → Time) (threshold : Time) (last : Option Time) : List Item → List Item
  | [] => []
  | item :: rest =>
    if Admits threshold last (time item) then
      item :: kept time threshold (some (time item)) rest
    else kept time threshold last rest

variable {time : Item → Time} {threshold : Time} {last : Option Time} {item : Item}
  {items rest : List Item}

theorem kept_cons_of_admits (admits : Admits threshold last (time item)) :
    kept time threshold last (item :: rest) =
      item :: kept time threshold (some (time item)) rest :=
  if_pos admits

theorem kept_cons_of_not_admits (refused : ¬ Admits threshold last (time item)) :
    kept time threshold last (item :: rest) = kept time threshold last rest :=
  if_neg refused

theorem admits_none (now : Time) : Admits threshold none now := nofun

theorem kept_sublist (time : Item → Time) (threshold : Time) (last : Option Time)
    (items : List Item) : (kept time threshold last items).Sublist items := by
  induction items generalizing last with
  | nil => exact List.Sublist.refl _
  | cons item rest ih =>
    by_cases admits : Admits threshold last (time item)
    · rw [kept_cons_of_admits admits]
      exact (ih _).cons_cons item
    · rw [kept_cons_of_not_admits admits]
      exact (ih _).cons item

/-- The time of the last item kept, in the end. -/
def lastKept (time : Item → Time) (threshold : Time) (last : Option Time) (items : List Item) :
    Option Time :=
  ((kept time threshold last items).getLast?.map time).or last

/-- One more item is compared with the last one kept. -/
theorem kept_concat (time : Item → Time) (threshold : Time) (last : Option Time)
    (items : List Item) (item : Item) : kept time threshold last (items ++ [item]) =
      kept time threshold last items ++
        if Admits threshold (lastKept time threshold last items) (time item) then [item]
        else [] := by
  induction items generalizing last with
  | nil => rfl
  | cons first rest ih =>
    rw [List.cons_append]
    by_cases admits : Admits threshold last (time first)
    · have same : lastKept time threshold last (first :: rest) =
          lastKept time threshold (some (time first)) rest := by
        unfold lastKept
        rw [kept_cons_of_admits admits, List.getLast?_cons]
        cases (kept time threshold (some (time first)) rest).getLast? <;> rfl
      rw [kept_cons_of_admits admits, kept_cons_of_admits admits, ih, same, List.cons_append]
    · have same : lastKept time threshold last (first :: rest) =
          lastKept time threshold last rest := by
        unfold lastKept
        rw [kept_cons_of_not_admits admits]
      rw [kept_cons_of_not_admits admits, kept_cons_of_not_admits admits, ih, same]

theorem kept_concat_of_admits
    (admits : Admits threshold (lastKept time threshold last items) (time item)) :
    kept time threshold last (items ++ [item]) = kept time threshold last items ++ [item] ∧
      lastKept time threshold last (items ++ [item]) = some (time item) := by
  have longer : kept time threshold last (items ++ [item]) =
      kept time threshold last items ++ [item] := by
    rw [kept_concat, if_pos admits]
  refine ⟨longer, ?_⟩
  rw [lastKept, longer, List.getLast?_concat]
  rfl

theorem kept_concat_of_not_admits
    (refused : ¬ Admits threshold (lastKept time threshold last items) (time item)) :
    kept time threshold last (items ++ [item]) = kept time threshold last items ∧
      lastKept time threshold last (items ++ [item]) = lastKept time threshold last items := by
  have same : kept time threshold last (items ++ [item]) = kept time threshold last items := by
    rw [kept_concat, if_neg refused, List.append_nil]
  exact ⟨same, by rw [lastKept, same, lastKept]⟩

theorem kept_cons_none (time : Item → Time) (threshold : Time) (item : Item)
    (rest : List Item) : kept time threshold none (item :: rest) =
      item :: kept time threshold (some (time item)) rest :=
  kept_cons_of_admits (admits_none _)

section Ordered

variable [IsOrderedAddMonoid Time]

/-- Looking at the last item kept is enough: the others are longer ago. -/
theorem admits_lastKept_iff (sorted : items.Pairwise fun one other => time one ≤ time other)
    (now : Time) : Admits threshold (lastKept time threshold none items) now ↔
      ∀ earlier ∈ kept time threshold none items, ¬ now - time earlier < threshold := by
  have keptSorted := sorted.sublist (kept_sublist time threshold none items)
  unfold lastKept Admits
  rw [Option.or_none]
  rcases List.eq_nil_or_concat (kept time threshold none items) with none | ⟨others, final, whole⟩
  · simp [none]
  · rw [List.concat_eq_append] at whole
    rw [whole] at keptSorted ⊢
    simp only [List.getLast?_concat, Option.map_some, Option.mem_some_iff, forall_eq',
      List.forall_mem_append, List.forall_mem_singleton]
    refine ⟨fun late => ⟨fun earlier member recent => late ?_, late⟩, And.right⟩
    have before := (List.pairwise_append.mp keptSorted).2.2 earlier member final (by simp)
    exact (sub_le_sub_left before now).trans_lt recent

/-- After an item kept at some time, the next ones are at least the threshold away. -/
theorem kept_apart {since : Time} (sorted : items.Pairwise fun one other => time one ≤ time other)
    (later : ∀ item ∈ items, since ≤ time item) :
    (∀ item ∈ kept time threshold (some since) items, threshold ≤ time item - since) ∧
      (kept time threshold (some since) items).Pairwise
        fun one other => threshold ≤ time other - time one := by
  induction items generalizing since with
  | nil => exact ⟨nofun, .nil⟩
  | cons item rest ih =>
    obtain ⟨first, sorted⟩ := List.pairwise_cons.mp sorted
    obtain ⟨here, later⟩ := List.forall_mem_cons.mp later
    by_cases admits : Admits threshold (some since) (time item)
    · obtain ⟨away, apart⟩ := ih sorted first
      have enough : threshold ≤ time item - since := not_lt.mp (admits since rfl)
      rw [kept_cons_of_admits admits]
      refine ⟨List.forall_mem_cons.mpr ⟨enough, ?_⟩, List.pairwise_cons.mpr ⟨away, apart⟩⟩
      intro other member
      exact (away other member).trans (sub_le_sub_left here _)
    · rw [kept_cons_of_not_admits admits]
      exact ih sorted later

/-- What is kept is at least the threshold apart. -/
theorem kept_pairwise (sorted : items.Pairwise fun one other => time one ≤ time other) :
    (kept time threshold none items).Pairwise
      fun one other => threshold ≤ time other - time one := by
  cases items with
  | nil => exact .nil
  | cons item rest =>
    obtain ⟨first, sorted⟩ := List.pairwise_cons.mp sorted
    obtain ⟨away, apart⟩ := kept_apart sorted first
    rw [kept_cons_none]
    exact List.pairwise_cons.mpr ⟨away, apart⟩

/-- The stream never pauses for longer than the gap after an item. -/
def Steady (time : Item → Time) (gap : Time) (items : List Item) : Prop :=
  items.IsChain fun one other => time other - time one ≤ gap

/-- A stream that goes on after an item kept before `start`, the last item seen being less than
the threshold later. -/
theorem exists_kept_after {gap since start : Time} {seen : Item} (nonneg : 0 ≤ gap)
    (steady : Steady time gap (seen :: items)) (recent : time seen - since ≤ max threshold 0)
    (before : since < start) {final : Item} (ends : (seen :: items).getLast? = some final)
    (lasts : start + (max threshold 0 + gap) ≤ time final) :
    ∃ item ∈ kept time threshold (some since) items, start ≤ time item ∧
      time item ≤ start + (max threshold 0 + gap) := by
  induction items generalizing seen since with
  | nil =>
    obtain rfl : seen = final := by simpa using ends
    have bound : start + max threshold 0 ≤ since + max threshold 0 :=
      calc start + max threshold 0
          ≤ start + (max threshold 0 + gap) := by
            rw [← add_assoc]
            exact le_add_of_nonneg_right nonneg
        _ ≤ time seen := lasts
        _ ≤ max threshold 0 + since := sub_le_iff_le_add.mp recent
        _ = since + max threshold 0 := add_comm _ _
    exact absurd (le_of_add_le_add_right bound) before.not_ge
  | cons item rest ih =>
    obtain ⟨near, steady⟩ := List.isChain_cons_cons.mp steady
    rw [List.getLast?_cons_cons] at ends
    have inside : time item ≤ start + (max threshold 0 + gap) :=
      calc time item
          ≤ gap + time seen := sub_le_iff_le_add.mp near
        _ ≤ gap + (max threshold 0 + since) := by
            gcongr
            exact sub_le_iff_le_add.mp recent
        _ = since + (max threshold 0 + gap) := by abel
        _ ≤ start + (max threshold 0 + gap) := by
            gcongr
    by_cases admits : Admits threshold (some since) (time item)
    · rw [kept_cons_of_admits admits]
      rcases le_or_gt start (time item) with reached | early
      · exact ⟨item, List.mem_cons_self, reached, inside⟩
      · obtain ⟨found, member, window⟩ := ih steady (by simp) early ends
        exact ⟨found, List.mem_cons_of_mem _ member, window⟩
    · rw [kept_cons_of_not_admits admits]
      have close : time item - since < threshold := by
        simpa [Admits] using admits
      exact ih steady (le_max_of_le_left close.le) before ends

/-- In a stream that never pauses, something is kept in every window of the threshold and one
gap. -/
theorem exists_kept {gap start : Time} {first final : Item} (nonneg : 0 ≤ gap)
    (steady : Steady time gap items) (begins : items.head? = some first)
    (ends : items.getLast? = some final) (started : time first ≤ start)
    (lasts : start + (max threshold 0 + gap) ≤ time final) :
    ∃ item ∈ kept time threshold none items, start ≤ time item ∧
      time item ≤ start + (max threshold 0 + gap) := by
  cases items with
  | nil => cases begins
  | cons item rest =>
    obtain rfl : item = first := Option.some.inj begins
    rw [kept_cons_none]
    rcases started.eq_or_lt with rfl | before
    · refine ⟨item, List.mem_cons_self, le_rfl, ?_⟩
      exact le_add_of_nonneg_right (add_nonneg (le_max_right _ _) nonneg)
    · obtain ⟨found, member, window⟩ := exists_kept_after nonneg steady (by simp) before ends lasts
      exact ⟨found, List.mem_cons_of_mem _ member, window⟩

end Ordered

end Dls2.Throttle
