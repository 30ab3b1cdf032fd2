import Mathlib.Data.List.Basic

/-!
# The first occurrence of a pattern

`search` returns where a pattern begins for the first time in a text, as the `find` of a
string does, and `substr` cuts a text from an offset on. An offset behind a pattern is the
sum of where it was found and its length, also where it was not found. `rfind` returns where a
symbol is for the last time.
-/

namespace Dls2.Search

universe u

variable {α : Type u}

/-- The pattern begins in the text at the position. -/
def Occurs (pattern text : List α) (position : Nat) : Prop := pattern <+: text.drop position

variable [DecidableEq α]

def search (pattern : List α) : List α → Option Nat
  | [] => if pattern = [] then some 0 else none
  | symbol :: rest =>
    if pattern <+: symbol :: rest then some 0 else (search pattern rest).map (· + 1)

/-- The end of the first occurrence. An unsigned `npos` wraps around, to one less than the
length of the pattern. -/
def endOf (pattern text : List α) : Nat :=
  match search pattern text with
  | some position => position + pattern.length
  | none => pattern.length - 1

omit [DecidableEq α] in
/-- What follows an offset, which must not be past the end. -/
def substr (text : List α) (offset : Nat) : Option (List α) :=
  if offset ≤ text.length then some (text.drop offset) else none

variable {pattern text : List α} {position : Nat}

omit [DecidableEq α] in
/-- A later occurrence is the first one if there is none at the beginning. -/
theorem first_cons_iff {symbol : α} {rest : List α} :
    (∀ earlier < position + 1, ¬ Occurs pattern (symbol :: rest) earlier) ↔
      ¬ pattern <+: symbol :: rest ∧ ∀ earlier < position, ¬ Occurs pattern rest earlier := by
  rw [Nat.forall_lt_succ_left]
  rfl

/-- What is found is the first occurrence. -/
theorem search_eq_some_iff : search pattern text = some position ↔
    Occurs pattern text position ∧ position ≤ text.length ∧
      ∀ earlier < position, ¬ Occurs pattern text earlier := by
  have before (before : List α) : ∀ earlier < 0, ¬ Occurs pattern before earlier :=
    fun earlier negative => absurd negative (Nat.not_lt_zero earlier)
  induction text generalizing position with
  | nil =>
    unfold search
    split
    next empty =>
      subst empty
      rw [Option.some.injEq, List.length_nil, Nat.le_zero, eq_comm]
      constructor
      · rintro rfl
        exact ⟨List.nil_prefix, rfl, before []⟩
      · exact fun found => found.2.1
    next nonempty => simp [Occurs, nonempty]
  | cons symbol rest ih =>
    unfold search
    split
    next here =>
      cases position with
      | zero => exact iff_of_true rfl ⟨here, Nat.zero_le _, before _⟩
      | succ position =>
        rw [first_cons_iff]
        exact iff_of_false (by simp) fun found => found.2.2.1 here
    next elsewhere =>
      cases position with
      | zero => exact iff_of_false (by simp) fun found => elsewhere found.1
      | succ position =>
        rw [Option.map_eq_some_iff, first_cons_iff, and_iff_right elsewhere]
        simp only [Nat.add_right_cancel_iff, exists_eq_right, ih, List.length_cons,
          Nat.add_le_add_iff_right]
        rfl

/-- What is found lies within the text. -/
theorem search_bound (found : search pattern text = some position) :
    position + pattern.length ≤ text.length := by
  obtain ⟨occurs, inside, -⟩ := search_eq_some_iff.mp found
  have fits := occurs.length_le
  rw [List.length_drop] at fits
  omega

/-- What follows a pattern can be cut out unless the text is too short for what `npos`
wraps around to. -/
theorem isSome_substr_endOf_iff :
    (substr text (endOf pattern text)).isSome ↔ pattern.length ≤ text.length + 1 := by
  unfold substr
  rw [Option.isSome_ite]
  cases found : search pattern text with
  | some position =>
    have bound := search_bound found
    simp only [endOf, found]
    omega
  | none =>
    simp only [endOf, found]
    omega

/-- A pattern is not found before its first symbol is. -/
theorem search_append {mark : α} {others before more : List α} (free : mark ∉ before) :
    search (mark :: others) (before ++ (mark :: others ++ more)) = some before.length := by
  induction before with
  | nil =>
    simp [search]
  | cons symbol before ih =>
    rw [List.mem_cons, not_or] at free
    have elsewhere : ¬ mark :: others <+: symbol :: (before ++ (mark :: others ++ more)) := by
      rw [List.cons_prefix_cons]
      exact fun begins => free.1 begins.1
    rw [List.cons_append, search, if_neg elsewhere, ih free.2]
    rfl

/-- The last position of a symbol. -/
def rfind (mark : α) : List α → Option Nat
  | [] => none
  | symbol :: rest =>
    match rfind mark rest with
    | some position => some (position + 1)
    | none => if symbol = mark then some 0 else none

theorem rfind_eq_none {mark : α} (absent : mark ∉ text) : rfind mark text = none := by
  induction text with
  | nil => rfl
  | cons symbol rest ih =>
    rw [List.mem_cons, not_or] at absent
    rw [rfind, ih absent.2]
    exact if_neg (Ne.symm absent.1)

/-- A symbol that does not come again is found where it is. -/
theorem rfind_append {mark : α} (before : List α) {after : List α} (absent : mark ∉ after) :
    rfind mark (before ++ mark :: after) = some before.length := by
  induction before with
  | nil =>
    rw [List.nil_append, rfind, rfind_eq_none absent]
    exact if_pos rfl
  | cons symbol before ih => rw [List.cons_append, rfind, ih, List.length_cons]

end Dls2.Search
