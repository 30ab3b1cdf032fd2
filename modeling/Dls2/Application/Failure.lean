import Dls2.Application.History

/-!
# Failing again

`setFailure` sets the member `failure`, and `checkFailure` returns it. `PeriodicApp::run`
starts with a local variable of the same name, which it clears; the member is never cleared.
An application that has failed once therefore leaves each later RUN for FAIL after one
round.
-/

namespace Dls2.Application

open Dls2.StateMachine Dls2.Transition

/-- The thread is about to enter ACTIVATION. -/
def Pc.entersActivation : Pc → Bool
  | .write _ (some .activation) => true
  | _ => false

/-- The machine enters ACTIVATION only while the member `failure` is clear, and nothing but
`setFailure` assigns it. -/
def EntersClear (run : App × AppHistory) : PeriodicLabel → Prop
  | .app (.thread _) => run.1.pc.entersActivation = true → run.1.failure = false
  | .app _ => True
  | .assignFailure _ => False

instance EntersClear.decidable (run : App × AppHistory) :
    (label : PeriodicLabel) → Decidable (EntersClear run label)
  | .app (.thread _) => inferInstanceAs (Decidable (_ → _))
  | .app (.request _) | .app .setFailure | .app .pause | .app .resume => isTrue trivial
  | .assignFailure _ => isFalse id

/-- A failure has been set since the machine entered ACTIVATION. -/
structure Blamed (app : App) (history : AppHistory) (state : AppState) : Prop where
  coherent : app.Coherent state
  member : app.failure = true → history.failureSet = true
  bound : app.pc.fails = true → history.failureSet = true

namespace Blamed

variable {app next : App} {history : AppHistory} {state : AppState} {label : PeriodicLabel}

theorem initial : Blamed .new .new .initialization :=
  ⟨App.coherent_new, nofun, nofun⟩

/-- A failure is forgotten on the way into ACTIVATION only. -/
theorem failureSet_record (set : history.failureSet = true)
    (stays : AppHistory.enters app next .activation = false) :
    (history.record app label next).failureSet = true := by
  simp [AppHistory.record, set, stays]

/-- A step that enters ACTIVATION leaves the thread unbound, with a clear member. -/
theorem clear_of_enters (coherent : app.Coherent state) {reached : AppState}
    (arrival : Arrives app state label next reached)
    (clear : EntersClear (app, history) label)
    (entered : AppHistory.enters app next .activation = true) :
    app.failure = false ∧ next.pc = .dispatch := by
  simp only [AppHistory.enters, coherent.current, arrival.coherent.current, Bool.and_eq_true,
    bne_iff_ne, beq_iff_eq, ne_eq, Option.some.injEq] at entered
  obtain ⟨elsewhere, rfl⟩ := entered
  rcases arrival.way with same | ⟨⟨result, rfl⟩, dispatched, event, place, _⟩
  · exact absurd same.symm elsewhere
  · exact ⟨clear (by rw [place]; rfl), dispatched⟩

theorem step (blamed : Blamed app history state) (clear : EntersClear (app, history) label)
    (taken : periodicStep app label = some next) :
    ∃ reached, Blamed next (history.record app label next) reached := by
  obtain ⟨reached, arrival⟩ := arrives blamed.coherent taken
  refine ⟨reached, arrival.coherent, ?_, ?_⟩
  · intro set
    rcases arrival.failure set with before | rfl | rfl
    · cases entered : AppHistory.enters app next .activation with
      | false => exact failureSet_record (blamed.member before) entered
      | true =>
        have unset := (clear_of_enters blamed.coherent arrival clear entered).1
        exact absurd (before.symm.trans unset) (by simp)
    · simp [AppHistory.record]
    · exact clear.elim
  · intro bound
    have set : history.failureSet = true := by
      rcases arrival.bound.failed bound with before | before
      · exact blamed.bound before
      · exact blamed.member before
    cases entered : AppHistory.enters app next .activation with
    | false => exact failureSet_record set entered
    | true =>
      have free := (clear_of_enters blamed.coherent arrival clear entered).2
      rw [free] at bound
      cases bound

theorem of_reachable {run : App × AppHistory}
    (reachable : recordedApp.ReachableUnder EntersClear run) :
    ∃ state, Blamed run.1 run.2 state := by
  apply reachable.invariant (fun run => ∃ state, Blamed run.1 run.2 state)
  · exact ⟨.initialization, initial⟩
  · rintro before label after ⟨state, blamed⟩ clear taken
    obtain ⟨steps, record⟩ := System.withHistory_step_iff.mp taken
    rw [record]
    exact blamed.step clear steps

end Blamed

/-- As long as the machine enters ACTIVATION with a clear member `failure`, it leaves RUN for
FAIL only if `setFailure` has been called since. -/
theorem fails_only_after_setFailure {run next : App × AppHistory} {label : PeriodicLabel}
    (reachable : recordedApp.ReachableUnder EntersClear run)
    (taken : recordedApp.step run label = some next) (before : run.1.sm.state = some .run)
    (after : next.1.sm.state = some .fail) : run.2.failureSet = true := by
  obtain ⟨state, blamed⟩ := Blamed.of_reachable reachable
  obtain ⟨steps, _⟩ := System.withHistory_step_iff.mp taken
  obtain ⟨reached, arrival⟩ := arrives blamed.coherent steps
  obtain rfl : state = .run := Option.some.inj (blamed.coherent.current.symm.trans before)
  obtain rfl : reached = .fail := Option.some.inj (arrival.coherent.current.symm.trans after)
  rcases arrival.way with same | ⟨_, _, event, place, known⟩
  · cases same
  · exact blamed.bound (fails_of_write place known)

/-- An application in RUN is told to fail, and is about to enter FAIL. -/
def intoFailure : List PeriodicLabel :=
  intoRun ++ [.app .setFailure] ++ List.replicate 7 (.app (.thread true))

/-- It goes through FAIL, DEACTIVATION, IDLE and a new activation. -/
def recovered : List PeriodicLabel :=
  intoFailure ++ List.replicate 2 (.app (.thread true)) ++
    [.app (.request .deactivationRequest)] ++ List.replicate 14 (.app (.thread true)) ++
    [.app (.request .activationRequest)] ++ List.replicate 22 (.app (.thread true))

/-- The first failure, as the condition admits. -/
theorem failure_after_setFailure : ∃ run next,
    recordedApp.run intoFailure = some run ∧ run.1.sm.state = some .run ∧
      recordedApp.step run (.app (.thread true)) = some next ∧
      next.1.sm.state = some .fail ∧ run.2.failureSet = true := by
  have admitted : recordedApp.AdmitsFrom EntersClear recordedApp.initial intoFailure := by
    decide
  have replay : (recordedApp.run intoFailure).any (fun run =>
      run.1.sm.state == some .run && (recordedApp.step run (.app (.thread true))).any fun next =>
        next.1.sm.state == some .fail) = true := by
    decide
  obtain ⟨run, replayed, passes⟩ := (Option.any_eq_true _ _).mp replay
  simp only [Bool.and_eq_true, beq_iff_eq, Option.any_eq_true] at passes
  obtain ⟨running, next, taken, failed⟩ := passes
  exact ⟨run, next, replayed, running, taken, failed, fails_only_after_setFailure
    (System.ReachableUnder.initial.runFrom admitted replayed) taken running failed⟩

/-- After a recovery the application fails again, although `setFailure` has not been called
since the machine entered ACTIVATION. -/
theorem fails_again_by_itself : ∃ run next,
    recordedApp.run recovered = some run ∧ run.1.sm.state = some .run ∧
      recordedApp.step run (.app (.thread true)) = some next ∧
      next.1.sm.state = some .fail ∧ run.2.failureSet = false := by
  have replay : (recordedApp.run recovered).any (fun run =>
      (run.1.sm.state == some .run && run.2.failureSet == false) &&
      (recordedApp.step run (.app (.thread true))).any fun next =>
        next.1.sm.state == some .fail) = true := by
    decide
  obtain ⟨run, replayed, passes⟩ := (Option.any_eq_true _ _).mp replay
  simp only [Bool.and_eq_true, beq_iff_eq, Option.any_eq_true] at passes
  obtain ⟨⟨running, unset⟩, next, taken, failed⟩ := passes
  exact ⟨run, next, replayed, running, taken, failed, unset⟩

end Dls2.Application
