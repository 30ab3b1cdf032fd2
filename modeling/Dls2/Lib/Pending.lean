import Mathlib.Data.List.Basic

/-!
# Lists of calls in progress

Calls that several threads have begun are kept in a list. One of them goes on by
`List.set`, and is over with `List.eraseIdx`; these rules say which of the others are
still there.
-/

namespace Dls2.Pending

universe u v

variable {Call : Type u} {calls : List Call} {index : Nat} {call changed moved : Call}

/-- A call other than the one at `index` is still there when that one goes on. -/
theorem mem_set_of_mem_eraseIdx (member : call ∈ calls.eraseIdx index) :
    call ∈ calls.set index moved := by
  obtain ⟨other, different, found⟩ := List.mem_eraseIdx_iff_getElem?.mp member
  exact List.mem_of_getElem? ((List.getElem?_set_ne (Ne.symm different)).trans found)

/-- Dropping a call leaves the ones that differ from it. -/
theorem mem_eraseIdx_of_ne (member : call ∈ calls) (atIndex : calls[index]? = some changed)
    (different : call ≠ changed) : call ∈ calls.eraseIdx index := by
  obtain ⟨other, found⟩ := List.getElem?_of_mem member
  apply List.mem_eraseIdx_iff_getElem?.mpr
  refine ⟨other, ?_, found⟩
  rintro rfl
  exact different (Option.some.inj (found.symm.trans atIndex))

/-- A call that goes on leaves the ones that differ from it. -/
theorem mem_set_of_ne (member : call ∈ calls) (atIndex : calls[index]? = some changed)
    (different : call ≠ changed) : call ∈ calls.set index moved :=
  mem_set_of_mem_eraseIdx (mem_eraseIdx_of_ne member atIndex different)

/-- The call that goes on is in the list afterwards. -/
theorem mem_set_self (atIndex : calls[index]? = some changed) : moved ∈ calls.set index moved :=
  List.mem_set (List.getElem?_eq_some_iff.mp atIndex).choose moved

/-! ### What is seen of the calls -/

section View

variable {View : Type v} {view : Call → Option View} {before after : View}

/-- The place of the call at `index` among those that are seen. -/
def position (view : Call → Option View) (calls : List Call) (index : Nat) : Nat :=
  ((calls.take index).filterMap view).length

theorem exists_append_of_getElem? (atIndex : calls[index]? = some call) :
    ∃ earlier later, calls = earlier ++ call :: later ∧ earlier.length = index := by
  obtain ⟨inside, rfl⟩ := List.getElem?_eq_some_iff.mp atIndex
  have length := List.length_take_of_le (Nat.le_of_lt inside)
  refine ⟨calls.take index, calls.drop (index + 1), ?_, length⟩
  rw [← List.drop_eq_getElem_cons inside, List.take_append_drop]

theorem getElem?_position (atIndex : calls[index]? = some call) (seen : view call = some before) :
    (calls.filterMap view)[position view calls index]? = some before := by
  obtain ⟨earlier, later, rfl, rfl⟩ := exists_append_of_getElem? atIndex
  simp [position, seen]

/-- A call that goes on and is seen before and after. -/
theorem filterMap_set_of_some (atIndex : calls[index]? = some changed)
    (seen : view changed = some before) (moves : view moved = some after) :
    (calls.set index moved).filterMap view =
      (calls.filterMap view).set (position view calls index) after := by
  obtain ⟨earlier, later, rfl, rfl⟩ := exists_append_of_getElem? atIndex
  simp [position, seen, moves]

/-- A call that is not seen any more. -/
theorem filterMap_set_of_none (atIndex : calls[index]? = some changed)
    (seen : view changed = some before) (gone : view moved = none) :
    (calls.set index moved).filterMap view =
      (calls.filterMap view).eraseIdx (position view calls index) := by
  obtain ⟨earlier, later, rfl, rfl⟩ := exists_append_of_getElem? atIndex
  simp [position, seen, gone, List.eraseIdx_append_of_length_le]

/-- A call that goes on without being seen to. -/
theorem filterMap_set_of_eq (atIndex : calls[index]? = some changed)
    (same : view moved = view changed) :
    (calls.set index moved).filterMap view = calls.filterMap view := by
  obtain ⟨earlier, later, rfl, rfl⟩ := exists_append_of_getElem? atIndex
  simp [List.filterMap_append, List.filterMap_cons, same]

/-- A test that the call passes after its step exactly if it does before. -/
theorem any_set_of_eq {test : Call → Bool} (atIndex : calls[index]? = some changed)
    (same : test moved = test changed) : (calls.set index moved).any test = calls.any test := by
  obtain ⟨earlier, later, rfl, rfl⟩ := exists_append_of_getElem? atIndex
  simp [same]

end View

end Dls2.Pending
