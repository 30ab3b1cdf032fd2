import Dls2.Lib.Transition

/-!
# Refinement of systems

One step of a fine system is seen as some steps of a coarse one, often none. The states of the fine
system are mapped to those of the coarse one, and an invariant of the fine system may be used at
each step. Runs of the fine system are then runs of the coarse one.
-/

namespace Dls2.Transition

universe u v u' v'

/-- A fine system, seen as a coarse one. -/
structure Refinement {State : Type u} {Label : Type v} {State' : Type u'} {Label' : Type v'}
    (fine : System State Label) (coarse : System State' Label') where
  state : State → State'
  labels : State → Label → List Label'
  Inv : State → Prop
  initial : state fine.initial = coarse.initial
  holds : Inv fine.initial
  preserved : ∀ {before label next}, Inv before → fine.step before label = some next → Inv next
  step : ∀ {before label next}, Inv before → fine.step before label = some next →
    coarse.runFrom (state before) (labels before label) = some (state next)

namespace Refinement

variable {State : Type u} {Label : Type v} {State' : Type u'} {Label' : Type v'}
  {fine : System State Label} {coarse : System State' Label'} (refinement : Refinement fine coarse)
  {state : State}

/-- What is reached by steps that are seen as allowed ones is seen as reached by those. -/
theorem reachableUnder {allowed : State → Label → Prop} {allowed' : State' → Label' → Prop}
    (seen : ∀ {before label}, refinement.Inv before → allowed before label →
      coarse.AdmitsFrom allowed' (refinement.state before) (refinement.labels before label))
    (reachable : fine.ReachableUnder allowed state) :
    refinement.Inv state ∧ coarse.ReachableUnder allowed' (refinement.state state) := by
  apply reachable.invariant fun state => refinement.Inv state ∧
    coarse.ReachableUnder allowed' (refinement.state state)
  · exact ⟨refinement.holds, refinement.initial ▸ .initial⟩
  · rintro before label next ⟨holds, reached⟩ admitted taken
    exact ⟨refinement.preserved holds taken,
      reached.runFrom (seen holds admitted) (refinement.step holds taken)⟩

theorem reachable (reachable : fine.Reachable state) :
    coarse.Reachable (refinement.state state) :=
  (refinement.reachableUnder (fun _ _ => System.admitsFrom_true _ _) reachable).2

end Refinement

end Dls2.Transition
