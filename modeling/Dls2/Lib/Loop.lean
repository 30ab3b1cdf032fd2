import Mathlib.Data.List.Basic

/-!
# Loops over lists with an early exit

A loop body that can fail and can leave the loop is a function into
`Option (ForInStep State)`, and the loop is core's `forIn`. The rules below carry
an invariant through such a loop: one for loops whose bodies are known to
succeed, indexed by the elements already visited, and one for whatever a loop
that happens to succeed preserves. The last rule is about two loops over the same
elements.
-/

namespace Dls2.Loop

universe u v

variable {Element : Type u} {State : Type v}
  {body : Element → State → Option (ForInStep State)}

/-- The invariant rule for total loops. `Inv visited state` holds before each
element; the body establishes it for one element more, or leaves the loop with
the postcondition. -/
theorem forIn_total (Inv : List Element → State → Prop) (Post : State → Prop)
    {elements : List Element}
    (step : ∀ visited element rest state, elements = visited ++ element :: rest →
      Inv visited state →
      (∃ next, body element state = some (.yield next) ∧ Inv (visited ++ [element]) next) ∨
        ∃ final, body element state = some (.done final) ∧ Post final)
    (finish : ∀ state, Inv elements state → Post state) {state : State} (holds : Inv [] state) :
    ∃ final, forIn elements state body = some final ∧ Post final := by
  suffices suffix : ∀ rest visited state, elements = visited ++ rest → Inv visited state →
      ∃ final, forIn rest state body = some final ∧ Post final from
    suffix elements [] state rfl holds
  intro rest
  induction rest with
  | nil =>
    intro visited state split holds
    obtain rfl : elements = visited := by simpa using split
    exact ⟨state, rfl, finish state holds⟩
  | cons element rest ih =>
    intro visited state split holds
    rcases step visited element rest state split holds with
      ⟨next, yields, kept⟩ | ⟨final, leaves, post⟩
    · obtain ⟨final, loops, post⟩ := ih (visited ++ [element]) next (by simp [split]) kept
      exact ⟨final, by simp [List.forIn_cons, yields, loops], post⟩
    · exact ⟨final, by simp [List.forIn_cons, leaves], post⟩

/-- What every successful body preserves a successful loop preserves. -/
theorem forIn_preserves (Inv : State → Prop)
    (step : ∀ element state outcome, Inv state → body element state = some outcome →
      Inv outcome.value)
    {elements : List Element} {state final : State} (holds : Inv state)
    (loops : forIn elements state body = some final) : Inv final := by
  induction elements generalizing state with
  | nil =>
    obtain rfl : state = final := by simpa using loops
    exact holds
  | cons element rest ih =>
    rw [List.forIn_cons] at loops
    obtain ⟨outcome, runs, continues⟩ := Option.bind_eq_some_iff.mp loops
    have kept := step element state outcome holds runs
    cases outcome with
    | done last =>
      obtain rfl : last = final := by simpa using continues
      exact kept
    | yield next => exact ih kept continues

/-- Both bodies leave the loop or neither does, with related states. -/
inductive Related (Rel : State → State → Prop) : ForInStep State → ForInStep State → Prop where
  | done {first second : State} (related : Rel first second) :
      Related Rel (.done first) (.done second)
  | yield {first second : State} (related : Rel first second) :
      Related Rel (.yield first) (.yield second)

/-- Two loops over the same elements that succeed end in related states, if the
bodies carry the relation along. -/
theorem forIn_related (Rel : State → State → Prop)
    (step : ∀ element first second firstOutcome secondOutcome, Rel first second →
      body element first = some firstOutcome → body element second = some secondOutcome →
      Related Rel firstOutcome secondOutcome)
    {elements : List Element} {first second firstFinal secondFinal : State}
    (related : Rel first second) (firstLoops : forIn elements first body = some firstFinal)
    (secondLoops : forIn elements second body = some secondFinal) :
    Rel firstFinal secondFinal := by
  induction elements generalizing first second with
  | nil =>
    obtain rfl : first = firstFinal := by simpa using firstLoops
    obtain rfl : second = secondFinal := by simpa using secondLoops
    exact related
  | cons element rest ih =>
    rw [List.forIn_cons] at firstLoops secondLoops
    obtain ⟨firstOutcome, firstRuns, firstContinues⟩ := Option.bind_eq_some_iff.mp firstLoops
    obtain ⟨secondOutcome, secondRuns, secondContinues⟩ := Option.bind_eq_some_iff.mp secondLoops
    have carried := step element first second _ _ related firstRuns secondRuns
    cases carried with
    | done left =>
      obtain rfl := Option.some.inj firstContinues
      obtain rfl := Option.some.inj secondContinues
      exact left
    | yield next => exact ih next firstContinues secondContinues

end Dls2.Loop
