import Mathlib.Analysis.SpecialFunctions.Sqrt
import Mathlib.Algebra.BigOperators.Group.List.Basic
import Mathlib.Algebra.Order.BigOperators.Group.List
import Mathlib.Order.Bounds.Basic
import Dls2.Lib.CircularBuffer

/-!
# The moving window of the resource monitors

`NumericalMovingWindow` keeps the last samples in a circular buffer together with
their sum, the sum of their squares, and their extrema, which are rescanned only when
the overwritten sample was one of them. Over exact rational numbers its answers are
those of the list of the last samples.
-/

namespace Dls2.Utils

open CircularBuffer

/-! ### The statistics of a list -/

def sampleMean (samples : List ℚ) : ℚ :=
  if samples = [] then 0 else samples.sum / samples.length

def sampleVariance (samples : List ℚ) : ℚ :=
  if samples.length < 2 then 0
  else (samples.map fun v => (v - sampleMean samples) ^ 2).sum / (samples.length - 1)

/-- The squared distances from a point, from the two sums. -/
theorem sum_sq_sub (samples : List ℚ) (point : ℚ) :
    (samples.map fun v => (v - point) ^ 2).sum =
      (samples.map fun v => v * v).sum - 2 * point * samples.sum +
        samples.length * point * point := by
  induction samples with
  | nil => simp
  | cons v rest ih =>
    simp only [List.map_cons, List.sum_cons, List.length_cons, ih]
    push_cast
    ring

theorem sampleVariance_nonneg (samples : List ℚ) : 0 ≤ sampleVariance samples := by
  unfold sampleVariance
  split
  next => exact le_rfl
  next several =>
    have count : (2 : ℚ) ≤ samples.length := by
      exact_mod_cast not_lt.mp several
    have squares : 0 ≤ (samples.map fun v => (v - sampleMean samples) ^ 2).sum := by
      apply List.sum_nonneg
      intro square squared
      obtain ⟨v, -, rfl⟩ := List.mem_map.mp squared
      exact sq_nonneg _
    exact div_nonneg squares (by linarith)

/-- The variance from the two sums. -/
theorem sampleVariance_eq {samples : List ℚ} (several : 1 < samples.length) :
    sampleVariance samples =
      ((samples.map fun v => v * v).sum - samples.length * (samples.sum / samples.length) *
        (samples.sum / samples.length)) / (samples.length - 1) := by
  have nonempty : samples ≠ [] := List.ne_nil_of_length_pos (by omega)
  have count : (samples.length : ℚ) ≠ 0 := by
    simpa using nonempty
  have mean : sampleMean samples = samples.sum / samples.length := if_neg nonempty
  rw [sampleVariance, if_neg (by omega), sum_sq_sub, mean]
  congr 1
  field_simp
  ring

/-! ### The window -/

/-- `dls::NumericalMovingWindow`. The vector's own limit on `capacity_` keeps
`head_ + size_` far from the end of `size_t`. -/
@[ext] structure NumericalMovingWindow (capacity_ : ℕ) where
  /-- circular buffer storage -/
  data_ : Fin capacity_ → ℚ
  /-- current number of elements -/
  size_ : ℕ
  /-- index of the oldest element -/
  head_ : ℕ
  sum_ : ℚ
  sumSq_ : ℚ
  max_ : ℚ
  min_ : ℚ
  bounded : size_ ≤ capacity_
  inRange : 0 < capacity_ → head_ < capacity_

namespace NumericalMovingWindow

variable {capacity_ : ℕ}

/-- The constructor. -/
def init (capacity_ : ℕ) : NumericalMovingWindow capacity_ where
  data_ := fun _ => 0
  size_ := 0
  head_ := 0
  sum_ := 0
  sumSq_ := 0
  max_ := 0
  min_ := 0
  bounded := Nat.zero_le _
  inRange := id

/-- One round of the loop in `recomputeExtrema`. -/
def widen (extrema : ℚ × ℚ) (v : ℚ) : ℚ × ℚ :=
  (if v > extrema.1 then v else extrema.1, if v < extrema.2 then v else extrema.2)

def recomputeExtrema (window : NumericalMovingWindow capacity_) (positive : 0 < capacity_) :
    NumericalMovingWindow capacity_ :=
  if window.size_ = 0 then { window with max_ := 0, min_ := 0 }
  else
    let oldest := window.data_ ⟨window.head_, window.inRange positive⟩
    let extrema := (List.range' 1 (window.size_ - 1)).foldl
      (fun extrema i => widen extrema (window.data_ (slot positive window.head_ i)))
      (oldest, oldest)
    { window with max_ := extrema.1, min_ := extrema.2 }

/-- `push` while the window is not full. -/
def append (window : NumericalMovingWindow capacity_) (value : ℚ)
    (room : window.size_ < capacity_) : NumericalMovingWindow capacity_ :=
  let pos := slot (Nat.zero_lt_of_lt room) window.head_ window.size_
  let first := window.size_ + 1 = 1
  { data_ := Function.update window.data_ pos value
    size_ := window.size_ + 1
    head_ := window.head_
    sum_ := window.sum_ + value
    sumSq_ := window.sumSq_ + value * value
    max_ := if first then value else if value > window.max_ then value else window.max_
    min_ := if first then value else if value < window.min_ then value else window.min_
    bounded := room
    inRange := window.inRange }

/-- `push` into a full window, up to the rescan. -/
def overwrite (window : NumericalMovingWindow capacity_) (value : ℚ)
    (positive : 0 < capacity_) : NumericalMovingWindow capacity_ :=
  let oldest : Fin capacity_ := ⟨window.head_, window.inRange positive⟩
  let old := window.data_ oldest
  { data_ := Function.update window.data_ oldest value
    size_ := window.size_
    head_ := (window.head_ + 1) % capacity_
    sum_ := window.sum_ - old + value
    sumSq_ := window.sumSq_ - old * old + value * value
    max_ := if ¬ old = window.max_ ∧ value > window.max_ then value else window.max_
    min_ := if ¬ old = window.min_ ∧ value < window.min_ then value else window.min_
    bounded := window.bounded
    inRange := fun positive => Nat.mod_lt _ positive }

def push (window : NumericalMovingWindow capacity_) (value : ℚ) :
    NumericalMovingWindow capacity_ :=
  if positive : 0 < capacity_ then
    let value := if value < 0 then 0 else value
    if room : window.size_ < capacity_ then window.append value room
    else
      let old := window.data_ ⟨window.head_, window.inRange positive⟩
      let overwritten := window.overwrite value positive
      if old = window.min_ ∨ old = window.max_ then overwritten.recomputeExtrema positive
      else overwritten
  else window

/-- `clear` leaves the extrema for the next push to set. -/
def clear (window : NumericalMovingWindow capacity_) : NumericalMovingWindow capacity_ :=
  { window with
    size_ := 0
    head_ := 0
    sum_ := 0
    sumSq_ := 0
    bounded := Nat.zero_le _
    inRange := id }

def size (window : NumericalMovingWindow capacity_) : ℕ := window.size_

def mean (window : NumericalMovingWindow capacity_) : ℚ :=
  if window.size_ = 0 then 0 else window.sum_ / window.size_

/-- The local `var` of `stddev`, as first computed. -/
def var (window : NumericalMovingWindow capacity_) : ℚ :=
  let n : ℚ := window.size_
  let mean := window.sum_ / n
  (window.sumSq_ - n * mean * mean) / (n - 1)

noncomputable def stddev (window : NumericalMovingWindow capacity_) : ℝ :=
  if window.size_ ≤ 1 then 0
  else Real.sqrt (if window.var < 0 then 0 else window.var : ℚ)

def max (window : NumericalMovingWindow capacity_) : ℚ :=
  if window.size_ = 0 then 0 else window.max_

def min (window : NumericalMovingWindow capacity_) : ℚ :=
  if window.size_ = 0 then 0 else window.min_

inductive Operation where
  | push (value : ℚ)
  | clear
  deriving DecidableEq, Repr

def apply (window : NumericalMovingWindow capacity_) : Operation → NumericalMovingWindow capacity_
  | .push value => window.push value
  | .clear => window.clear

def run (capacity_ : ℕ) (operations : List Operation) : NumericalMovingWindow capacity_ :=
  operations.foldl apply (init capacity_)

/-! ### What the window holds -/

/-- The samples in the window, oldest first. -/
def values (window : NumericalMovingWindow capacity_) : List ℚ :=
  if positive : 0 < capacity_ then stored positive window.data_ window.head_ window.size_ else []

theorem values_of_positive (window : NumericalMovingWindow capacity_) (positive : 0 < capacity_) :
    window.values = stored positive window.data_ window.head_ window.size_ :=
  dif_pos positive

@[simp] theorem length_values (window : NumericalMovingWindow capacity_) :
    window.values.length = window.size_ := by
  unfold values
  split
  · exact length_stored ..
  · have bounded := window.bounded
    rw [List.length_nil]
    omega

theorem values_of_empty {window : NumericalMovingWindow capacity_} (empty : window.size_ = 0) :
    window.values = [] :=
  List.length_eq_zero_iff.mp (window.length_values.trans empty)

theorem values_ne_nil {window : NumericalMovingWindow capacity_} (some : window.size_ ≠ 0) :
    window.values ≠ [] := by
  rw [← length_values] at some
  exact List.ne_nil_of_length_pos (Nat.pos_of_ne_zero some)

/-- The window as a circular buffer. -/
def toBuffer (window : NumericalMovingWindow capacity_) : CircularBuffer ℚ capacity_ where
  items := window.values
  bounded := window.length_values.trans_le window.bounded

theorem slot_head {window : NumericalMovingWindow capacity_} (positive : 0 < capacity_) :
    slot positive window.head_ 0 = ⟨window.head_, window.inRange positive⟩ :=
  Fin.ext (Nat.mod_eq_of_lt (window.inRange positive))

theorem values_eq_cons {window : NumericalMovingWindow capacity_} (positive : 0 < capacity_)
    (some : window.size_ ≠ 0) :
    window.values = window.data_ ⟨window.head_, window.inRange positive⟩ ::
      (List.range' 1 (window.size_ - 1)).map
        fun i => window.data_ (slot positive window.head_ i) := by
  obtain ⟨rest, size⟩ := Nat.exists_eq_succ_of_ne_zero some
  rw [values_of_positive window positive, size, Nat.succ_sub_one, stored, List.range_eq_range',
    List.range'_succ, List.map_cons, slot_head]

@[simp] theorem values_recomputeExtrema (window : NumericalMovingWindow capacity_)
    (positive : 0 < capacity_) : (window.recomputeExtrema positive).values = window.values := by
  unfold recomputeExtrema
  split <;> rfl

theorem values_append {window : NumericalMovingWindow capacity_} {value : ℚ}
    (room : window.size_ < capacity_) :
    (window.append value room).values = window.values ++ [value] := by
  have positive := Nat.zero_lt_of_lt room
  rw [values_of_positive _ positive, values_of_positive _ positive]
  exact stored_update_next value room

theorem values_overwrite {window : NumericalMovingWindow capacity_} {value : ℚ}
    (positive : 0 < capacity_) (full : window.size_ = capacity_) :
    (window.overwrite value positive).values = window.values.tail ++ [value] := by
  rw [values_of_positive _ positive, values_of_positive _ positive]
  simp only [overwrite, full]
  rw [← slot_head]
  exact stored_update_oldest value

/-- A push clamps its value and is a push into the circular buffer. -/
theorem values_push (window : NumericalMovingWindow capacity_) (value : ℚ) :
    (window.push value).values = (window.toBuffer.pushBack (Max.max value 0)).items := by
  have clamped : (if value < 0 then 0 else value) = Max.max value 0 := (max_def_lt value 0).symm
  unfold push
  split
  next positive =>
    rw [clamped]
    dsimp only
    split
    next room =>
      rw [values_append room, items_pushBack_of_lt (by simpa [toBuffer] using room)]
      rfl
    next full =>
      have isFull : window.size_ = capacity_ := le_antisymm window.bounded (not_lt.mp full)
      have nonempty : window.values ≠ [] := values_ne_nil (by omega)
      have overwritten : (window.overwrite (Max.max value 0) positive).values =
          (window.values ++ [Max.max value 0]).tail := by
        rw [values_overwrite positive isFull, List.tail_append_of_ne_nil nonempty]
      rw [items_pushBack_of_full (by simpa [toBuffer] using full)]
      split
      · rw [values_recomputeExtrema, overwritten]
        rfl
      · exact overwritten
  next none =>
    have empty : window.values = [] := dif_neg none
    rw [items_pushBack_of_full (by simpa [toBuffer, empty] using none)]
    simp [toBuffer, empty]

/-! ### The running sums -/

/-- The sums are those of what the window holds. -/
structure Summed (window : NumericalMovingWindow capacity_) : Prop where
  sum : window.sum_ = window.values.sum
  sumSq : window.sumSq_ = (window.values.map fun v => v * v).sum

namespace Summed

variable {window : NumericalMovingWindow capacity_} {value : ℚ}

theorem recomputeExtrema (summed : Summed window) (positive : 0 < capacity_) :
    Summed (window.recomputeExtrema positive) := by
  have sums : (window.recomputeExtrema positive).sum_ = window.sum_ ∧
      (window.recomputeExtrema positive).sumSq_ = window.sumSq_ := by
    unfold NumericalMovingWindow.recomputeExtrema
    split <;> exact ⟨rfl, rfl⟩
  constructor
  · rw [sums.1, values_recomputeExtrema, summed.sum]
  · rw [sums.2, values_recomputeExtrema, summed.sumSq]

theorem append (summed : Summed window) (room : window.size_ < capacity_) :
    Summed (window.append value room) := by
  constructor
  · rw [values_append room, List.sum_append, List.sum_singleton, ← summed.sum]
    rfl
  · rw [values_append room, List.map_append, List.sum_append, ← summed.sumSq, List.map_singleton,
      List.sum_singleton]
    rfl

theorem overwrite (summed : Summed window) (positive : 0 < capacity_)
    (full : window.size_ = capacity_) : Summed (window.overwrite value positive) := by
  have nonempty : window.size_ ≠ 0 := by omega
  have cons := values_eq_cons positive nonempty
  have sum := summed.sum
  have sumSq := summed.sumSq
  rw [cons, List.sum_cons] at sum
  rw [cons, List.map_cons, List.sum_cons] at sumSq
  constructor
  · rw [values_overwrite positive full, cons, List.tail_cons, List.sum_append, List.sum_singleton]
    simp only [NumericalMovingWindow.overwrite, sum]
    ring
  · rw [values_overwrite positive full, cons, List.tail_cons, List.map_append, List.sum_append,
      List.map_singleton, List.sum_singleton]
    simp only [NumericalMovingWindow.overwrite, sumSq]
    ring

end Summed

/-! ### The cached extrema -/

/-- The greatest and the least of the samples. -/
structure Spans (samples : List ℚ) (greatest least : ℚ) : Prop where
  greatest : IsGreatest {v | v ∈ samples} greatest
  least : IsLeast {v | v ∈ samples} least

namespace Spans

variable {samples : List ℚ} {greatest least value : ℚ}

theorem singleton (value : ℚ) : Spans [value] value value := by
  constructor <;> simp [isGreatest_singleton, isLeast_singleton]

/-- One more sample needs one comparison a side. -/
theorem append (spans : Spans samples greatest least) (value : ℚ) :
    Spans (samples ++ [value]) (if value > greatest then value else greatest)
      (if value < least then value else least) := by
  have insert : {v | v ∈ samples ++ [value]} = insert value {v | v ∈ samples} := by
    ext v
    simp [or_comm]
  have upper : (if value > greatest then value else greatest) = Max.max value greatest := by
    rw [max_comm, max_def_lt]
  have lower : (if value < least then value else least) = Min.min value least :=
    (min_def_lt value least).symm
  constructor
  · rw [insert, upper]
    exact spans.greatest.insert value
  · rw [insert, lower]
    exact spans.least.insert value

/-- A sample that is neither extremum can go. -/
theorem tail {old : ℚ} (spans : Spans (old :: samples) greatest least)
    (notGreatest : old ≠ greatest) (notLeast : old ≠ least) : Spans samples greatest least where
  greatest := ⟨List.mem_of_ne_of_mem notGreatest.symm spans.greatest.1,
    fun _ held => spans.greatest.2 (List.mem_cons_of_mem old held)⟩
  least := ⟨List.mem_of_ne_of_mem notLeast.symm spans.least.1,
    fun _ held => spans.least.2 (List.mem_cons_of_mem old held)⟩

/-- The rescan: `extrema` span what was seen, and the loop sees the rest. -/
theorem foldl_widen (extrema : ℚ × ℚ) (spans : Spans samples extrema.1 extrema.2)
    (offsets : List ℕ) (read : ℕ → ℚ) :
    Spans (samples ++ offsets.map read)
      (offsets.foldl (fun extrema i => widen extrema (read i)) extrema).1
      (offsets.foldl (fun extrema i => widen extrema (read i)) extrema).2 := by
  induction offsets generalizing samples extrema with
  | nil => simpa using spans
  | cons i rest ih =>
    have longer := ih (widen extrema (read i)) (spans.append (read i))
    rwa [List.append_assoc, List.singleton_append] at longer

theorem max? (spans : Spans samples greatest least) : samples.max? = some greatest :=
  List.max?_eq_some_iff.mpr spans.greatest

theorem min? (spans : Spans samples greatest least) : samples.min? = some least :=
  List.min?_eq_some_iff.mpr spans.least

end Spans

/-- A window that is not empty knows its extrema. -/
def Spanned (window : NumericalMovingWindow capacity_) : Prop :=
  window.size_ ≠ 0 → Spans window.values window.max_ window.min_

namespace Spanned

variable {window : NumericalMovingWindow capacity_} {value : ℚ}

/-- The rescan needs no cached extrema. -/
theorem recomputeExtrema (positive : 0 < capacity_) :
    Spanned (window.recomputeExtrema positive) := by
  intro some
  have nonempty : window.size_ ≠ 0 := by
    intro empty
    apply some
    simp [NumericalMovingWindow.recomputeExtrema, empty]
  rw [values_recomputeExtrema, values_eq_cons positive nonempty]
  unfold NumericalMovingWindow.recomputeExtrema
  rw [if_neg nonempty]
  exact (Spans.singleton _).foldl_widen (_, _) _ _

theorem append (spanned : Spanned window) (room : window.size_ < capacity_) :
    Spanned (window.append value room) := by
  intro _
  rw [values_append room]
  by_cases first : window.size_ = 0
  · have empty : window.values = [] := values_of_empty first
    simpa [NumericalMovingWindow.append, first, empty] using Spans.singleton value
  · simpa [NumericalMovingWindow.append, first] using (spanned first).append value

/-- Without a rescan the overwritten sample was neither extremum. -/
theorem overwrite (spanned : Spanned window) (positive : 0 < capacity_)
    (full : window.size_ = capacity_)
    (between : ¬ (window.data_ ⟨window.head_, window.inRange positive⟩ = window.min_ ∨
      window.data_ ⟨window.head_, window.inRange positive⟩ = window.max_)) :
    Spanned (window.overwrite value positive) := by
  intro _
  have nonempty : window.size_ ≠ 0 := by omega
  have cons := values_eq_cons positive nonempty
  obtain ⟨notLeast, notGreatest⟩ := not_or.mp between
  have spans := spanned nonempty
  rw [cons] at spans
  rw [values_overwrite positive full, cons, List.tail_cons]
  simpa [NumericalMovingWindow.overwrite, notGreatest, notLeast] using
    (spans.tail notGreatest notLeast).append value

end Spanned

/-! ### Runs -/

/-- What every push and every clear keeps. -/
structure Consistent (window : NumericalMovingWindow capacity_) : Prop where
  summed : Summed window
  spanned : Spanned window

theorem consistent_init (capacity_ : ℕ) : Consistent (init capacity_) where
  summed := by
    have empty : (init capacity_).values = [] := values_of_empty rfl
    constructor <;> rw [empty] <;> rfl
  spanned := fun some => absurd rfl some

namespace Consistent

variable {window : NumericalMovingWindow capacity_}

theorem push (consistent : Consistent window) (value : ℚ) : Consistent (window.push value) := by
  unfold NumericalMovingWindow.push
  split
  next positive =>
    dsimp only
    split
    next room => exact ⟨consistent.summed.append room, consistent.spanned.append room⟩
    next full =>
      have isFull : window.size_ = capacity_ := le_antisymm window.bounded (not_lt.mp full)
      split
      next =>
        exact ⟨(consistent.summed.overwrite positive isFull).recomputeExtrema positive,
          Spanned.recomputeExtrema positive⟩
      next between =>
        exact ⟨consistent.summed.overwrite positive isFull,
          consistent.spanned.overwrite positive isFull between⟩
  next => exact consistent

theorem clear : Consistent window.clear where
  summed := by
    have empty : window.clear.values = [] := values_of_empty rfl
    constructor <;> rw [empty] <;> rfl
  spanned := fun some => absurd rfl some

end Consistent

theorem run_append (capacity_ : ℕ) (operations : List Operation) (operation : Operation) :
    run capacity_ (operations ++ [operation]) = (run capacity_ operations).apply operation := by
  simp [run]

theorem consistent_run (capacity_ : ℕ) (operations : List Operation) :
    Consistent (run capacity_ operations) := by
  induction operations using List.reverseRecOn with
  | nil => exact consistent_init capacity_
  | append_singleton operations operation ih =>
    rw [run_append]
    cases operation with
    | push value => exact ih.push value
    | clear => exact Consistent.clear

/-- The values pushed since the last clear. -/
def pushedValues (operations : List Operation) : List ℚ :=
  operations.foldl (fun pushed operation =>
    match operation with
    | .push value => pushed ++ [value]
    | .clear => []) []

/-- The values that a window should know about. -/
def lastValues (capacity_ : ℕ) (operations : List Operation) : List ℚ :=
  ((pushedValues operations).map (Max.max · 0)).rtake capacity_

theorem values_run (capacity_ : ℕ) (operations : List Operation) :
    (run capacity_ operations).values = lastValues capacity_ operations := by
  induction operations using List.reverseRecOn with
  | nil =>
    have empty : (run capacity_ []).values = [] := values_of_empty rfl
    simp [empty, lastValues, pushedValues, List.rtake]
  | append_singleton operations operation ih =>
    rw [run_append]
    cases operation with
    | push value =>
      have pushed : pushedValues (operations ++ [.push value]) =
          pushedValues operations ++ [value] := by
        simp [pushedValues]
      rw [apply, values_push, lastValues, pushed, List.map_append, List.map_singleton]
      exact items_pushBack ih _
    | clear =>
      have pushed : pushedValues (operations ++ [.clear]) = [] := by
        simp [pushedValues]
      have empty : ((run capacity_ operations).apply .clear).values = [] := values_of_empty rfl
      simp [empty, lastValues, pushed, List.rtake]

/-! ### Observations -/

section Observations

variable {window : NumericalMovingWindow capacity_}

theorem Consistent.mean_eq (consistent : Consistent window) :
    window.mean = sampleMean window.values := by
  unfold mean sampleMean
  split
  next empty => rw [if_pos (values_of_empty empty)]
  next some => rw [if_neg (values_ne_nil some), ← consistent.summed.sum, length_values]

theorem Consistent.max_eq (consistent : Consistent window) :
    window.max = window.values.max?.getD 0 := by
  unfold max
  split
  next empty => simp [values_of_empty empty]
  next some => rw [(consistent.spanned some).max?, Option.getD_some]

theorem Consistent.min_eq (consistent : Consistent window) :
    window.min = window.values.min?.getD 0 := by
  unfold min
  split
  next empty => simp [values_of_empty empty]
  next some => rw [(consistent.spanned some).min?, Option.getD_some]

theorem Consistent.var_eq (consistent : Consistent window) (several : 1 < window.size_) :
    window.var = sampleVariance window.values := by
  rw [sampleVariance_eq (by rwa [length_values]), length_values, ← consistent.summed.sum,
    ← consistent.summed.sumSq]
  rfl

theorem Consistent.stddev_sq (consistent : Consistent window) :
    window.stddev ^ 2 = (sampleVariance window.values : ℝ) := by
  have nonneg := sampleVariance_nonneg window.values
  unfold stddev
  split
  next few =>
    rw [sampleVariance, if_pos (by rw [length_values]; omega)]
    simp
  next several =>
    rw [consistent.var_eq (not_le.mp several), if_neg (not_lt.mpr nonneg)]
    exact Real.sq_sqrt (by exact_mod_cast nonneg)

end Observations

/-- A window answers as the list of the last clamped values does. -/
theorem observes_lastValues (capacity_ : ℕ) (operations : List Operation) :
    let window := run capacity_ operations
    let samples := lastValues capacity_ operations
    samples.length = Min.min capacity_ (pushedValues operations).length ∧
    window.size = samples.length ∧
    window.mean = sampleMean samples ∧
    window.max = samples.max?.getD 0 ∧
    window.min = samples.min?.getD 0 ∧
    window.stddev ^ 2 = (sampleVariance samples : ℝ) ∧
    (1 < window.size → ¬ window.var < 0) := by
  intro window samples
  have consistent := consistent_run capacity_ operations
  have values : window.values = samples := values_run capacity_ operations
  rw [← values]
  refine ⟨?_, (length_values window).symm, consistent.mean_eq, consistent.max_eq,
    consistent.min_eq, consistent.stddev_sq, fun several => ?_⟩
  · simp [values, samples, lastValues]
  · rw [consistent.var_eq several]
    exact not_lt.mpr (sampleVariance_nonneg _)

end NumericalMovingWindow

end Dls2.Utils
