import Dls2.Lib.Transition

/-!
# Logs of runs

Each step of a system may show an event, and the events of a run are appended to a log
beside the state. What is to be said about the order of events is said of an entry and of
those before it; it holds of the whole log if it holds each time an event is appended.
-/

namespace Dls2.Transition

universe u v w

variable {Event : Type w}

/-- Each entry of the log has its cause in those before it. -/
def Justified (Cause : List Event → Event → Prop) (log : List Event) : Prop :=
  ∀ before event after, log = before ++ event :: after → Cause before event

namespace Justified

variable {Cause : List Event → Event → Prop} {log : List Event} {event : Event}

theorem nil : Justified Cause [] := by
  intro before event after split
  simp at split

/-- An appended event is the only one that has to be justified. -/
theorem concat (justified : Justified Cause log) (cause : Cause log event) :
    Justified Cause (log ++ [event]) := by
  intro before entry after split
  rcases List.eq_nil_or_concat after with rfl | ⟨earlier, last, rfl⟩
  · obtain ⟨rfl, same⟩ := List.append_inj' split rfl
    obtain rfl := List.head_eq_of_cons_eq same
    exact cause
  · rw [List.concat_eq_append, ← List.cons_append, ← List.append_assoc] at split
    exact justified before entry earlier (List.append_inj' split rfl).1

end Justified

namespace System

variable {State : Type u} {Label : Type v} (system : System State Label)

/-- The system with the log of its run. -/
def withLog (events : State → Label → Option Event) : System (State × List Event) Label :=
  system.withHistory [] fun state label _ log => log ++ (events state label).toList

variable {system} {events : State → Label → Option Event}

theorem withLog_step_iff {run next : State × List Event} {label : Label} :
    (system.withLog events).step run label = some next ↔
      system.step run.1 label = some next.1 ∧
        next.2 = run.2 ++ (events run.1 label).toList :=
  withHistory_step_iff

/-- The entries of the log are the events of the steps. -/
theorem mem_log_iff {state final : State} {log after : List Event} {labels : List Label}
    (replayed : (system.withLog events).runFrom (state, log) labels = some (final, after))
    (event : Event) : event ∈ after ↔ event ∈ log ∨ ∃ before label later between,
      labels = before ++ label :: later ∧ system.runFrom state before = some between ∧
        events between label = some event := by
  induction labels generalizing state log with
  | nil =>
    obtain ⟨rfl, rfl⟩ := Prod.mk.inj (Option.some.inj replayed)
    simp
  | cons label rest ih =>
    obtain ⟨⟨next, longer⟩, taken, continued⟩ := runFrom_cons_iff.mp replayed
    obtain ⟨steps, appended⟩ := withLog_step_iff.mp taken
    simp only at steps appended
    rw [ih continued, appended, List.mem_append, Option.mem_toList, or_assoc]
    refine or_congr_right ?_
    constructor
    · rintro (here | ⟨before, other, later, between, rfl, reached, shown⟩)
      · exact ⟨[], label, rest, state, rfl, rfl, here⟩
      · refine ⟨label :: before, other, later, between, rfl, ?_, shown⟩
        rw [runFrom_cons, steps, Option.bind_some, reached]
    · rintro ⟨before, other, later, between, split, reached, shown⟩
      cases before with
      | nil =>
        obtain ⟨rfl, rfl⟩ := List.cons.inj split
        obtain rfl := Option.some.inj reached
        exact .inl shown
      | cons first before =>
        obtain ⟨rfl, rfl⟩ := List.cons.inj split
        rw [runFrom_cons, steps, Option.bind_some] at reached
        exact .inr ⟨before, other, later, between, rfl, reached, shown⟩

end System

end Dls2.Transition
