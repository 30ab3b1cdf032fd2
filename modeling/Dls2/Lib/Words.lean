import Mathlib.Data.List.Basic

/-!
# Words

The words of a text are its maximal runs of symbols that do not separate, as reading
from a stream takes them.
-/

namespace Dls2.Words

universe u

variable {α : Type u} (separates : α → Bool)

/-- Read on while `word` is the beginning of the current word. -/
def wordsFrom (word : List α) : List α → List (List α)
  | [] => if word = [] then [] else [word]
  | symbol :: rest =>
    if separates symbol then (if word = [] then [] else [word]) ++ wordsFrom [] rest
    else wordsFrom (word ++ [symbol]) rest

def words (text : List α) : List (List α) := wordsFrom separates [] text

variable {separates} {word text : List α}

/-- Symbols that do not separate belong to the current word. -/
theorem wordsFrom_append {more : List α} (free : ∀ symbol ∈ more, separates symbol = false)
    (rest : List α) :
    wordsFrom separates word (more ++ rest) = wordsFrom separates (word ++ more) rest := by
  induction more generalizing word with
  | nil => simp
  | cons symbol more ih =>
    rw [List.forall_mem_cons] at free
    rw [List.cons_append, wordsFrom, if_neg (by simp [free.1]), ih free.2]
    simp

/-- There is no word in separators, and in nothing else. -/
theorem wordsFrom_eq_nil_iff : wordsFrom separates word text = [] ↔
    word = [] ∧ ∀ symbol ∈ text, separates symbol = true := by
  induction text generalizing word with
  | nil =>
    unfold wordsFrom
    split <;> simp_all
  | cons symbol rest ih =>
    unfold wordsFrom
    cases separation : separates symbol with
    | true =>
      rw [if_pos rfl, List.append_eq_nil_iff, ih]
      split <;> simp_all
    | false =>
      rw [if_neg Bool.false_ne_true, ih]
      simp [separation]

theorem words_eq_nil_iff : words separates text = [] ↔
    ∀ symbol ∈ text, separates symbol = true := by
  simp [words, wordsFrom_eq_nil_iff]

/-- A text without separators is one word. -/
theorem words_of_free (free : ∀ symbol ∈ word, separates symbol = false) (nonempty : word ≠ []) :
    words separates word = [word] := by
  have single : wordsFrom separates [] (word ++ []) = wordsFrom separates ([] ++ word) [] :=
    wordsFrom_append free []
  rw [List.append_nil] at single
  rw [words, single, List.nil_append, wordsFrom, if_neg nonempty]

end Dls2.Words
