import Mathlib.Data.List.TakeWhile

/-!
# Pieces with a mark in between

`join` writes pieces one after the other with a mark in between; `first` and `rest` cut
a text at its first mark. Without marks inside the pieces they take back the first piece
and leave the others joined.
-/

namespace Dls2.Separated

universe u

variable {α : Type u}

/-- The pieces, with the mark in between. -/
def join (mark : α) : List (List α) → List α
  | [] => []
  | [piece] => piece
  | piece :: next :: rest => piece ++ mark :: join mark (next :: rest)

variable [DecidableEq α]

/-- What comes before the first mark. -/
def first (mark : α) (text : List α) : List α := text.takeWhile (· ≠ mark)

/-- What comes after the first mark. -/
def rest (mark : α) (text : List α) : List α := (text.dropWhile (· ≠ mark)).tail

theorem length_rest_lt {mark : α} {text : List α} (nonempty : text ≠ []) :
    (rest mark text).length < text.length := by
  have shorter := (List.dropWhile_sublist (· ≠ mark) (l := text)).length_le
  have positive := List.length_pos_iff.mpr nonempty
  rw [rest, List.length_tail]
  omega

variable {mark : α} {piece more : List α}

theorem first_of_free (free : mark ∉ piece) : first mark piece = piece := by
  apply List.takeWhile_eq_self_iff.mpr
  intro symbol member
  exact decide_eq_true fun same => free (same ▸ member)

theorem rest_of_free (free : mark ∉ piece) : rest mark piece = [] := by
  have all : piece.dropWhile (· ≠ mark) = [] := by
    apply List.dropWhile_eq_nil_iff.mpr
    intro symbol member
    exact decide_eq_true fun same => free (same ▸ member)
  rw [rest, all, List.tail_nil]

theorem first_append (free : mark ∉ piece) : first mark (piece ++ mark :: more) = piece := by
  have inside : ∀ symbol ∈ piece, decide (symbol ≠ mark) = true :=
    fun symbol member => decide_eq_true fun same => free (same ▸ member)
  rw [first, List.takeWhile_append_of_pos inside]
  simp

theorem rest_append (free : mark ∉ piece) : rest mark (piece ++ mark :: more) = more := by
  have inside : ∀ symbol ∈ piece, decide (symbol ≠ mark) = true :=
    fun symbol member => decide_eq_true fun same => free (same ▸ member)
  rw [rest, List.dropWhile_append_of_pos inside]
  simp

omit [DecidableEq α] in
/-- A mark is not part of a pattern without marks, which therefore ends before it. -/
theorem prefix_append_iff {pattern : List α} (free : mark ∉ pattern) :
    pattern <+: piece ++ mark :: more ↔ pattern <+: piece := by
  constructor
  · intro begins
    rcases List.prefix_or_prefix_of_prefix begins (List.prefix_append piece (mark :: more)) with
      inside | ⟨beyond, rfl⟩
    · exact inside
    · cases beyond with
      | nil => simp
      | cons symbol beyond =>
        rw [List.prefix_append_right_inj, List.cons_prefix_cons] at begins
        exact absurd (by simp [begins.1]) free
  · intro inside
    exact inside.trans (List.prefix_append piece (mark :: more))

omit [DecidableEq α] in
theorem join_cons (mark : α) (piece : List α) {others : List (List α)} (nonempty : others ≠ []) :
    join mark (piece :: others) = piece ++ mark :: join mark others := by
  obtain ⟨next, later, rfl⟩ := List.exists_cons_of_ne_nil nonempty
  rfl

end Dls2.Separated
