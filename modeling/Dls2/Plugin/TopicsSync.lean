import Mathlib.Tactic.Linarith
import Dls2.Log.Spamming

/-!
# Synchronised inputs

A plugin reports whether the data of its inputs are close in time. `areTopicsSync` takes the
first input that receives data as the reference and compares every other input that receives
data to it, so two inputs are never compared to each other. The verdict depends on the order of
the inputs through the reference alone, and it holds in every order exactly if the inputs are
close to each other pair by pair.

Readers are present, and their state does not change during a call. Times are exact here, and a
threshold stands for the number it is written as, from which the `double` is at most half a last
digit away.
-/

namespace Dls2.Plugin

open Dls2.Log (toMs toMs_sub)

/-- What the comparison reads of an `InputInfo`. -/
structure TimedInput where
  /-- Nanoseconds. -/
  latestTimestamp : Int
  /-- `is_receiving_data` of the reader. -/
  isReceivingData : Bool
deriving DecidableEq, Repr

namespace TopicMonitor

/-- The number of the first input from number `i` on that receives data. -/
def refIdxFrom (i : Nat) : List TimedInput → Nat
  | [] => i
  | input :: rest => if input.isReceivingData then i else refIdxFrom (i + 1) rest

/-- The comparison of the inputs from number `i` on with the reference. -/
def comparedFrom (syncThresholdMs : ℚ) (refIdx : Nat) (inputReference : TimedInput) (i : Nat) :
    List TimedInput → Bool
  | [] => true
  | input :: rest =>
    if i = refIdx ∨ input.isReceivingData = false then
      comparedFrom syncThresholdMs refIdx inputReference (i + 1) rest
    else if |toMs (inputReference.latestTimestamp - input.latestTimestamp)| > syncThresholdMs then
      false
    else comparedFrom syncThresholdMs refIdx inputReference (i + 1) rest

def areTopicsSync (syncThresholdMs : ℚ) (inputInfo : List TimedInput) : Bool :=
  if inputInfo.length > 1 then
    let refIdx := refIdxFrom 0 inputInfo
    match inputInfo[refIdx]? with
    | none => true
    | some inputReference => comparedFrom syncThresholdMs refIdx inputReference 0 inputInfo
  else true

/-- The timestamps of the inputs that receive data. -/
def receivedStamps (inputInfo : List TimedInput) : List Int :=
  (inputInfo.filter TimedInput.isReceivingData).map TimedInput.latestTimestamp

/-- Two timestamps are close in time. -/
def Close (syncThresholdMs : ℚ) (stamp other : Int) : Prop :=
  |toMs (stamp - other)| ≤ syncThresholdMs

/-- Every later timestamp is close to the first one. -/
def CloseToFirst (syncThresholdMs : ℚ) : List Int → Prop
  | [] => True
  | reference :: rest => ∀ stamp ∈ rest, Close syncThresholdMs reference stamp

section Close

variable {syncThresholdMs : ℚ} {stamp other third : Int}

theorem Close.symm (close : Close syncThresholdMs stamp other) :
    Close syncThresholdMs other stamp := by
  unfold Close at close ⊢
  rwa [toMs_sub, abs_sub_comm, ← toMs_sub]

theorem Close.triangle (first : Close syncThresholdMs stamp other)
    (second : Close syncThresholdMs stamp third) :
    Close (2 * syncThresholdMs) other third := by
  have bound := abs_sub_le (toMs other) (toMs stamp) (toMs third)
  have reversed := first.symm
  unfold Close at reversed second ⊢
  rw [toMs_sub] at reversed second ⊢
  linarith only [bound, reversed, second]

theorem Close.twice (close : Close syncThresholdMs stamp other) :
    Close (2 * syncThresholdMs) stamp other := by
  have nonneg := abs_nonneg (toMs (stamp - other))
  unfold Close at close ⊢
  linarith only [nonneg, close]

theorem CloseToFirst.pairwise {stamps : List Int} (close : CloseToFirst syncThresholdMs stamps) :
    stamps.Pairwise (Close (2 * syncThresholdMs)) := by
  cases stamps with
  | nil => exact List.Pairwise.nil
  | cons reference rest =>
    refine List.Pairwise.cons (fun stamp member => (close stamp member).twice) ?_
    refine List.pairwise_of_forall_mem_list fun stamp member other member' => ?_
    exact (close stamp member).triangle (close other member')

/-- The first timestamp decides: the order of the others does not matter. -/
theorem closeToFirst_perm {stamps reordered : List Int} (perm : stamps.Perm reordered)
    (sameFirst : stamps.head? = reordered.head?) :
    CloseToFirst syncThresholdMs stamps ↔ CloseToFirst syncThresholdMs reordered := by
  cases stamps with
  | nil => rw [perm.nil_eq]
  | cons reference rest =>
    cases reordered with
    | nil => cases sameFirst
    | cons first rest' =>
      obtain rfl : reference = first := Option.some.inj sameFirst
      have permRest : rest.Perm rest' := List.Perm.cons_inv perm
      exact forall_congr' fun stamp => by rw [permRest.mem_iff]

end Close

/-- The search passes over every input without data. -/
theorem refIdxFrom_append {skipped : List TimedInput} (i : Nat) (rest : List TimedInput)
    (silent : ∀ input ∈ skipped, input.isReceivingData = false) :
    refIdxFrom i (skipped ++ rest) = refIdxFrom (i + skipped.length) rest := by
  induction skipped generalizing i with
  | nil => rfl
  | cons input skipped ih =>
    have off : input.isReceivingData = false := silent input List.mem_cons_self
    rw [List.cons_append, refIdxFrom, off, if_neg Bool.false_ne_true,
      ih (i + 1) fun input member => silent input (List.mem_cons_of_mem _ member),
      List.length_cons, Nat.add_right_comm, Nat.add_assoc]

/-- Before the reference nothing is compared. -/
theorem comparedFrom_append {syncThresholdMs : ℚ} {refIdx : Nat} {inputReference : TimedInput}
    {i : Nat} {skipped : List TimedInput} (rest : List TimedInput)
    (silent : ∀ input ∈ skipped, input.isReceivingData = false) :
    comparedFrom syncThresholdMs refIdx inputReference i (skipped ++ rest) =
      comparedFrom syncThresholdMs refIdx inputReference (i + skipped.length) rest := by
  induction skipped generalizing i with
  | nil => rfl
  | cons input skipped ih =>
    have off : input.isReceivingData = false := silent input List.mem_cons_self
    rw [List.cons_append, comparedFrom, if_pos (.inr off),
      ih fun input member => silent input (List.mem_cons_of_mem _ member), List.length_cons,
      Nat.add_right_comm, Nat.add_assoc]

/-- Behind the reference every input that receives data is compared. -/
theorem comparedFrom_eq_true_iff {syncThresholdMs : ℚ} {refIdx : Nat}
    {inputReference : TimedInput} {i : Nat} {inputs : List TimedInput} (behind : refIdx < i) :
    comparedFrom syncThresholdMs refIdx inputReference i inputs = true ↔
      ∀ stamp ∈ receivedStamps inputs,
        Close syncThresholdMs inputReference.latestTimestamp stamp := by
  induction inputs generalizing i with
  | nil => simp [comparedFrom, receivedStamps]
  | cons input rest ih =>
    have other : i ≠ refIdx := by omega
    have step := ih (i := i + 1) (by omega)
    rw [comparedFrom]
    cases receiving : input.isReceivingData with
    | false =>
      rw [if_pos (.inr rfl), step]
      simp [receivedStamps, receiving]
    | true =>
      rw [if_neg (by simp [other])]
      split_ifs with far
      · refine iff_of_false id fun close => ?_
        have here := close input.latestTimestamp (by simp [receivedStamps, receiving])
        exact absurd here (not_le.mpr far)
      · rw [step]
        simp only [receivedStamps, List.filter_cons, receiving, if_true, List.map_cons,
          List.forall_mem_cons]
        exact (and_iff_right (not_lt.mp far)).symm

theorem receivedStamps_append (front rest : List TimedInput) :
    receivedStamps (front ++ rest) = receivedStamps front ++ receivedStamps rest := by
  simp [receivedStamps]

theorem receivedStamps_eq_nil_iff {inputs : List TimedInput} :
    receivedStamps inputs = [] ↔ ∀ input ∈ inputs, input.isReceivingData = false := by
  simp [receivedStamps, List.filter_eq_nil_iff]

theorem areTopicsSync_silent {syncThresholdMs : ℚ} {inputInfo : List TimedInput}
    (silent : ∀ input ∈ inputInfo, input.isReceivingData = false) :
    areTopicsSync syncThresholdMs inputInfo = true := by
  have atEnd : refIdxFrom 0 inputInfo = inputInfo.length := by
    simpa [refIdxFrom] using refIdxFrom_append 0 [] silent
  have noReference : inputInfo[refIdxFrom 0 inputInfo]? = none := by simp [atEnd]
  simp [areTopicsSync, noReference]

/-- A call on inputs of which the first one with data is known. -/
theorem areTopicsSync_append {syncThresholdMs : ℚ} {skipped rest : List TimedInput}
    {inputReference : TimedInput} (silent : ∀ input ∈ skipped, input.isReceivingData = false)
    (receiving : inputReference.isReceivingData = true) :
    areTopicsSync syncThresholdMs (skipped ++ inputReference :: rest) = true ↔
      ∀ stamp ∈ receivedStamps rest,
        Close syncThresholdMs inputReference.latestTimestamp stamp := by
  have refIdx : refIdxFrom 0 (skipped ++ inputReference :: rest) = skipped.length := by
    rw [refIdxFrom_append 0 _ silent, refIdxFrom, if_pos receiving, Nat.zero_add]
  unfold areTopicsSync
  split_ifs with several
  · simp only [refIdx, List.getElem?_append_right le_rfl, Nat.sub_self, List.getElem?_cons_zero]
    -- the reference itself is skipped by its number
    rw [comparedFrom_append _ silent, Nat.zero_add, comparedFrom, if_pos (.inl rfl),
      comparedFrom_eq_true_iff (Nat.lt_succ_self _)]
  · have alone : rest = [] := by
      rw [List.length_append, List.length_cons] at several
      exact List.eq_nil_of_length_eq_zero (by omega)
    subst alone
    simp [receivedStamps]

theorem receivedStamps_cons {input : TimedInput} (rest : List TimedInput)
    (receiving : input.isReceivingData = true) :
    receivedStamps (input :: rest) = input.latestTimestamp :: receivedStamps rest := by
  rw [receivedStamps, List.filter_cons_of_pos receiving, List.map_cons, receivedStamps]

/-- The specification of the comparison: only the first timestamp is compared to the others. -/
theorem areTopicsSync_eq_true_iff (syncThresholdMs : ℚ) (inputInfo : List TimedInput) :
    areTopicsSync syncThresholdMs inputInfo = true ↔
      CloseToFirst syncThresholdMs (receivedStamps inputInfo) := by
  cases first : inputInfo.find? TimedInput.isReceivingData with
  | none =>
    have silent : ∀ input ∈ inputInfo, input.isReceivingData = false := by
      simpa using first
    rw [receivedStamps_eq_nil_iff.mpr silent]
    exact iff_of_true (areTopicsSync_silent silent) trivial
  | some inputReference =>
    obtain ⟨receiving, skipped, rest, rfl, skips⟩ := List.find?_eq_some_iff_append.mp first
    have silent : ∀ input ∈ skipped, input.isReceivingData = false := by simpa using skips
    rw [areTopicsSync_append silent receiving, receivedStamps_append,
      receivedStamps_eq_nil_iff.mpr silent, List.nil_append, receivedStamps_cons rest receiving,
      CloseToFirst]

theorem receivedStamps_perm {inputs reordered : List TimedInput} (perm : inputs.Perm reordered) :
    (receivedStamps inputs).Perm (receivedStamps reordered) := (perm.filter _).map _

/-- In every order the inputs are close to the first one exactly if they are close pair by
pair. -/
theorem forall_perm_closeToFirst_iff {syncThresholdMs : ℚ} {inputs : List TimedInput} :
    (∀ reordered, inputs.Perm reordered →
      CloseToFirst syncThresholdMs (receivedStamps reordered)) ↔
      (receivedStamps inputs).Pairwise (Close syncThresholdMs) := by
  constructor
  · intro close
    rw [receivedStamps, List.pairwise_map, List.pairwise_iff_forall_sublist]
    intro input other sublist
    have receiving : ∀ chosen ∈ [input, other], chosen.isReceivingData = true :=
      fun chosen member => (List.mem_filter.mp (sublist.subset member)).2
    -- the two of them can be moved to the front
    obtain ⟨rest, perm⟩ := (sublist.trans List.filter_sublist).exists_perm_append
    have first := close _ perm
    rw [List.cons_append, receivedStamps_cons _ (receiving input (by simp)), List.cons_append,
      receivedStamps_cons _ (receiving other (by simp))] at first
    exact first other.latestTimestamp List.mem_cons_self
  · intro close reordered perm
    have pairwise := (receivedStamps_perm perm).pairwise close fun {_ _} => Close.symm
    cases stamps : receivedStamps reordered with
    | nil => trivial
    | cons reference rest => exact (List.pairwise_cons.mp (stamps ▸ pairwise)).1

/-- Two runs on the same inputs in different orders, and what the verdict means. -/
theorem areTopicsSync_reordered (syncThresholdMs : ℚ) (inputInfo : List TimedInput) :
    (areTopicsSync syncThresholdMs inputInfo = true ↔
      CloseToFirst syncThresholdMs (receivedStamps inputInfo)) ∧
    (∀ reordered, inputInfo.Perm reordered →
      (receivedStamps inputInfo).head? = (receivedStamps reordered).head? →
      areTopicsSync syncThresholdMs inputInfo = areTopicsSync syncThresholdMs reordered) ∧
    ((∀ reordered, inputInfo.Perm reordered → areTopicsSync syncThresholdMs reordered = true) ↔
      (receivedStamps inputInfo).Pairwise (Close syncThresholdMs)) ∧
    (areTopicsSync syncThresholdMs inputInfo = true →
      (receivedStamps inputInfo).Pairwise (Close (2 * syncThresholdMs))) := by
  refine ⟨areTopicsSync_eq_true_iff _ _, fun reordered perm sameFirst => ?_, ?_, fun sync => ?_⟩
  · rw [Bool.eq_iff_iff, areTopicsSync_eq_true_iff, areTopicsSync_eq_true_iff]
    exact closeToFirst_perm (receivedStamps_perm perm) sameFirst
  · simp only [areTopicsSync_eq_true_iff]
    exact forall_perm_closeToFirst_iff
  · exact ((areTopicsSync_eq_true_iff _ _).mp sync).pairwise

/-- Three inputs with data, 200 ms apart, and a threshold of 200 ms: with the one in the middle
first they pass, though the outer two are 400 ms apart, and with an outer one first they do
not. -/
theorem areTopicsSync_depends_on_order :
    let early : TimedInput := ⟨100000000, true⟩
    let middle : TimedInput := ⟨300000000, true⟩
    let late : TimedInput := ⟨500000000, true⟩
    [middle, early, late].Perm [early, middle, late] ∧
      areTopicsSync 200 [middle, early, late] = true ∧
      areTopicsSync 200 [early, middle, late] = false ∧
      ¬ Close 200 early.latestTimestamp late.latestTimestamp := by
  refine ⟨by decide, by decide +kernel, by decide +kernel, ?_⟩
  unfold Close
  decide +kernel

end TopicMonitor

end Dls2.Plugin
