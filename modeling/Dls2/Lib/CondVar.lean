import Dls2.Lib.Transition

/-!
# Waiting on a condition variable

A thread that executes `wait(lock, predicate)` evaluates the predicate, and while it
is false goes to sleep until it is notified. The predicate is a disjunction of
tests, loaded one after the other. A notification wakes the thread only when it is
asleep already; there are no spurious wake-ups.

`Missed` says that the thread is going to sleep, or asleep, although a test holds:
it holds of a wait exactly when nothing but a notification can end it.
-/

namespace Dls2.CondVar

open Dls2.Transition

universe u v w

/-- The place of a thread in a wait. -/
inductive WaitPc (Test : Type u) where
  /-- The tests not loaded yet; none of the others has held. -/
  | testing (rest : List Test)
  /-- The predicate was false: the mutex is about to be released. -/
  | blocking
  | asleep
  | notified
  /-- The predicate was true. -/
  | through
deriving DecidableEq, Repr

variable {Test : Type u} (all : List Test) (holds : Test → Bool)

/-- One step of the waiting thread; `none` while it sleeps and when it is through. -/
def WaitPc.step : WaitPc Test → Option (WaitPc Test)
  | .testing [] => some .blocking
  | .testing (test :: rest) => some (if holds test then .through else .testing rest)
  | .blocking => some .asleep
  | .notified => some (.testing all)
  | .asleep | .through => none

/-- The effect of a notification on the thread. -/
def WaitPc.notify : WaitPc Test → WaitPc Test
  | .asleep => .notified
  | pc => pc

/-- The tests that are still to be loaded before the thread sleeps. -/
def WaitPc.remaining : WaitPc Test → Option (List Test)
  | .testing rest => some rest
  | .blocking | .asleep => some []
  | .notified | .through => none

/-- A test holds, and the thread is past it on its way to sleep. -/
structure Missed (pc : WaitPc Test) : Prop where
  present : ∃ test ∈ all, holds test = true
  past : ∃ rest, pc.remaining = some rest ∧ ∀ test ∈ rest, holds test = false

variable {all holds} {pc next : WaitPc Test}

/-- A thread that begins its tests has missed nothing. -/
theorem not_missed_testing_all : ¬ Missed all holds (.testing all) := by
  rintro ⟨⟨test, among, present⟩, rest, remaining, absent⟩
  obtain rfl := Option.some.inj remaining
  simp [absent test among] at present

theorem not_missed_through : ¬ Missed all holds .through := by
  rintro ⟨_, rest, remaining, _⟩
  cases remaining

/-- A sleeping thread has missed whatever test holds. -/
theorem missed_asleep_iff : Missed all holds .asleep ↔ ∃ test ∈ all, holds test = true :=
  ⟨Missed.present, fun present => ⟨present, [], rfl, by simp⟩⟩

/-- The thread's own steps never make it miss a test. -/
theorem Missed.of_step (missed : Missed all holds next) (taken : pc.step all holds = some next) :
    Missed all holds pc := by
  cases pc with
  | testing rest =>
    cases rest with
    | nil => exact ⟨missed.present, [], rfl, by simp⟩
    | cons test rest =>
      simp only [WaitPc.step, Option.some.injEq] at taken
      split at taken
      · subst taken
        exact absurd missed not_missed_through
      · rename_i absent
        subst taken
        obtain ⟨later, remaining, past⟩ := missed.past
        obtain rfl := Option.some.inj remaining
        refine ⟨missed.present, test :: rest, rfl, ?_⟩
        intro other among
        obtain rfl | among := List.mem_cons.mp among
        · simpa using absent
        · exact past other among
  | blocking => exact ⟨missed.present, [], rfl, by simp⟩
  | notified =>
    obtain rfl := Option.some.inj taken
    exact absurd missed not_missed_testing_all
  | asleep | through => cases taken

/-- A notification reaches a sleeping thread, and is lost on any other. -/
theorem missed_notify_iff :
    Missed all holds pc.notify ↔ Missed all holds pc ∧ pc ≠ .asleep := by
  cases pc with
  | asleep =>
    constructor
    · rintro ⟨_, rest, remaining, _⟩
      cases remaining
    · exact fun both => absurd rfl both.2
  | testing | blocking | notified | through => simp [WaitPc.notify]

section Runs

variable {State : Type v} {Label : Type w} {system : System State Label} {own : Label → Prop}
  {label : Label} {goal : State → Prop} {put : WaitPc Test → State}

/-- A thread that has missed a test falls asleep by its own steps. -/
theorem Missed.leadsTo (missed : Missed all holds pc) (mine : own label)
    (steps : ∀ pc next, pc.step all holds = some next →
      system.step (put pc) label = some (put next))
    (sleeps : goal (put .asleep)) : system.LeadsTo own goal (put pc) := by
  have asleep : system.LeadsTo own goal (put .asleep) := .here sleeps
  have blocking : system.LeadsTo own goal (put .blocking) := .step _ mine (steps _ _ rfl) asleep
  obtain ⟨rest, remaining, past⟩ := missed.past
  cases pc with
  | testing tests =>
    obtain rfl := Option.some.inj remaining
    clear remaining missed
    induction tests with
    | nil => exact .step _ mine (steps _ _ rfl) blocking
    | cons test tests ih =>
      have fails : (WaitPc.testing (test :: tests)).step all holds = some (.testing tests) := by
        simp [WaitPc.step, past test (List.mem_cons_self ..)]
      exact .step _ mine (steps _ _ fails)
        (ih fun other among => past other (List.mem_cons_of_mem _ among))
  | blocking => exact blocking
  | asleep => exact asleep
  | notified | through => cases remaining

end Runs

end Dls2.CondVar
