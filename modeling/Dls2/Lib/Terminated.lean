import Mathlib.Algebra.BigOperators.Group.List.Basic
import Mathlib.Algebra.Ring.Nat

/-!
# Lists of pieces that end in a mark

`terminate` writes pieces one after the other, each followed by a mark; `pieces`
reads them back and drops what follows the last mark. A mark inside a piece cuts it
in two: reading gives back what was written exactly when there is none.
-/

namespace Dls2.Terminated

universe u

variable {α : Type u}

/-- The pieces, each followed by the mark. -/
def terminate (mark : α) (written : List (List α)) : List α :=
  written.flatMap (· ++ [mark])

theorem terminate_cons (mark : α) (piece : List α) (rest : List (List α)) :
    terminate mark (piece :: rest) = piece ++ mark :: terminate mark rest := by
  simp [terminate]

variable [DecidableEq α]

/-- Read on while `piece` is the beginning of the next piece. -/
def piecesFrom (mark : α) (piece : List α) : List α → List (List α)
  | [] => []
  | symbol :: rest =>
    if symbol = mark then piece :: piecesFrom mark [] rest
    else piecesFrom mark (piece ++ [symbol]) rest

def pieces (mark : α) (text : List α) : List (List α) := piecesFrom mark [] text

variable {mark : α}

/-- There are as many pieces as marks. -/
theorem length_piecesFrom (piece text : List α) :
    (piecesFrom mark piece text).length = text.count mark := by
  induction text generalizing piece with
  | nil => rfl
  | cons symbol rest ih =>
    unfold piecesFrom
    split
    · subst symbol
      simp [ih]
    · simp [*]

theorem length_pieces (text : List α) : (pieces mark text).length = text.count mark :=
  length_piecesFrom [] text

/-- Symbols up to the next mark belong to the current piece. -/
theorem piecesFrom_append (piece more rest : List α) (free : mark ∉ more) :
    piecesFrom mark piece (more ++ mark :: rest) = (piece ++ more) :: pieces mark rest := by
  induction more generalizing piece with
  | nil => simp [piecesFrom, pieces]
  | cons symbol more ih =>
    rw [List.mem_cons, not_or] at free
    have unmarked : symbol ≠ mark := Ne.symm free.1
    simp [piecesFrom, unmarked, ih _ free.2]

theorem pieces_append (more rest : List α) (free : mark ∉ more) :
    pieces mark (more ++ mark :: rest) = more :: pieces mark rest :=
  piecesFrom_append [] more rest free

/-- Without a mark nothing is read. -/
theorem pieces_eq_nil {text : List α} (free : mark ∉ text) : pieces mark text = [] := by
  rw [← List.length_eq_zero_iff, length_pieces]
  exact List.count_eq_zero.mpr free

/-- The first piece ends at the first mark. -/
theorem pieces_of_idxOf {text : List α} {pos : Nat} (found : text.idxOf? mark = some pos) :
    pieces mark text = text.take pos :: pieces mark (text.drop (pos + 1)) := by
  obtain ⟨bound, marked, before⟩ := List.idxOf?_eq_some_iff.mp found
  have free : mark ∉ text.take pos := by
    intro member
    obtain ⟨index, inside, same⟩ := List.mem_take_iff_getElem.mp member
    exact before index (by omega) (by simp [same])
  have cut : text = text.take pos ++ mark :: text.drop (pos + 1) := by
    rw [← marked, ← List.drop_eq_getElem_cons bound, List.take_append_drop]
  conv => lhs; rw [cut]
  exact pieces_append _ _ free

/-- The marks of the written text are those that end pieces and those inside them. -/
theorem count_terminate (written : List (List α)) : (terminate mark written).count mark =
    written.length + (written.map (List.count mark)).sum := by
  induction written with
  | nil => rfl
  | cons piece rest ih =>
    rw [terminate_cons, List.count_append, List.count_cons_self, ih]
    simp only [List.length_cons, List.map_cons, List.sum_cons]
    omega

theorem pieces_terminate (written : List (List α)) (free : ∀ piece ∈ written, mark ∉ piece) :
    pieces mark (terminate mark written) = written := by
  induction written with
  | nil => rfl
  | cons piece rest ih =>
    rw [terminate_cons, pieces_append piece _ (free piece List.mem_cons_self)]
    rw [ih fun other member => free other (List.mem_cons_of_mem _ member)]

/-- Marks inside the written pieces are read as ends of further pieces. -/
theorem length_pieces_terminate (written : List (List α)) :
    (pieces mark (terminate mark written)).length =
      written.length + (written.map (List.count mark)).sum := by
  rw [length_pieces, count_terminate]

/-- Nothing is counted inside the pieces if and only if there are no marks inside them. -/
theorem sum_eq_zero_iff_free {written : List (List α)} :
    (written.map (List.count mark)).sum = 0 ↔ ∀ piece ∈ written, mark ∉ piece := by
  rw [List.sum_eq_zero_iff_forall_eq_nat]
  simp [List.count_eq_zero]

end Dls2.Terminated
