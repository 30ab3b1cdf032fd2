/-!
# Guarded transition systems

A system is an executable step function: `step state label` is `some next` when
the labelled step is enabled and `none` when it is not. Concrete runs are
replayed by `runFrom`, and the invariant rules below speak about the same
function, so a replayed counterexample and a proved invariant concern one and
the same system.

`ReachableUnder` restricts every step of a run by a condition on the state
before the step and its label. `Reachable` is the unrestricted case.
-/

namespace Dls2.Transition

universe u v w

/-- An initial state and a guarded step function. -/
structure System (State : Type u) (Label : Type v) where
  initial : State
  step : State → Label → Option State

namespace System

variable {State : Type u} {Label : Type v} (system : System State Label)

/-- Replay labels from a state; `none` as soon as one of them is disabled. -/
def runFrom (state : State) : List Label → Option State
  | [] => some state
  | label :: rest => (system.step state label).bind fun next => runFrom next rest

/-- Replay labels from the initial state. -/
def run (labels : List Label) : Option State :=
  system.runFrom system.initial labels

/-- States reached by runs every step of which meets `allowed`. -/
inductive ReachableUnder (allowed : State → Label → Prop) : State → Prop where
  | initial : ReachableUnder allowed system.initial
  | step {state next : State} {label : Label}
      (prior : ReachableUnder allowed state) (admitted : allowed state label)
      (taken : system.step state label = some next) : ReachableUnder allowed next

/-- States reached by arbitrary runs. -/
abbrev Reachable : State → Prop := system.ReachableUnder fun _ _ => True

/-- Every label of a replay meets `allowed` at the state it is taken from. -/
def AdmitsFrom (allowed : State → Label → Prop) (state : State) : List Label → Prop
  | [] => True
  | label :: rest => allowed state label ∧
      ∀ next ∈ system.step state label, AdmitsFrom allowed next rest

instance AdmitsFrom.decidable {allowed : State → Label → Prop}
    [decidableAllowed : ∀ state label, Decidable (allowed state label)] (state : State) :
    (labels : List Label) → Decidable (system.AdmitsFrom allowed state labels)
  | [] => isTrue trivial
  | label :: rest =>
    match decidableAllowed state label with
    | isFalse refused => isFalse fun admitted => refused admitted.1
    | isTrue admitted =>
      match taken : system.step state label with
      | none => isTrue ⟨admitted, fun _ member => by simp [taken] at member⟩
      | some next =>
        match AdmitsFrom.decidable next rest with
        | isTrue later => isTrue ⟨admitted, fun other member => by
            rw [taken] at member
            obtain rfl := Option.some.inj member
            exact later⟩
        | isFalse refused => isFalse fun whole => refused (whole.2 next taken)

/-- A property holds at the start of a replay and after each of its steps. -/
def AlwaysFrom (holds : State → Prop) (state : State) (labels : List Label) : Prop :=
  ∀ before, before <+: labels → ∀ later ∈ system.runFrom state before, holds later

/-- The system with a record of its run beside the state. The record has no influence on the
steps. -/
def withHistory {History : Type w} (start : History)
    (record : State → Label → State → History → History) : System (State × History) Label where
  initial := (system.initial, start)
  step run label :=
    (system.step run.1 label).map fun next => (next, record run.1 label next run.2)

/-- Labels from `own` alone can take the state to one that satisfies `goal`. -/
inductive LeadsTo (own : Label → Prop) (goal : State → Prop) : State → Prop where
  | here {state : State} (holds : goal state) : LeadsTo own goal state
  | step {state : State} {label : Label} (next : State) (mine : own label)
      (taken : system.step state label = some next) (later : LeadsTo own goal next) :
      LeadsTo own goal state

/-- How many steps of a replay are counted by `counts`. -/
def countFrom (counts : State → Label → Bool) (state : State) : List Label → Nat
  | [] => 0
  | label :: rest => (if counts state label then 1 else 0) +
      match system.step state label with
      | none => 0
      | some next => countFrom counts next rest

variable {system}

@[simp] theorem runFrom_nil (state : State) : system.runFrom state [] = some state := rfl

@[simp] theorem runFrom_cons (state : State) (label : Label) (rest : List Label) :
    system.runFrom state (label :: rest) =
      (system.step state label).bind fun next => system.runFrom next rest := rfl

/-- A nonempty replay splits into its first step and the remaining replay. -/
theorem runFrom_cons_iff {state final : State} {label : Label} {rest : List Label} :
    system.runFrom state (label :: rest) = some final ↔
      ∃ next, system.step state label = some next ∧ system.runFrom next rest = some final := by
  simp [Option.bind_eq_some_iff]

/-- A replay of two lists one after the other. -/
theorem runFrom_append (state : State) (first second : List Label) :
    system.runFrom state (first ++ second) =
      (system.runFrom state first).bind fun next => system.runFrom next second := by
  induction first generalizing state with
  | nil => rfl
  | cons label rest ih => simp [Option.bind_assoc, ih]

/-- A stronger condition on steps reaches fewer states. -/
theorem ReachableUnder.mono {strong weak : State → Label → Prop} {state : State}
    (implies : ∀ state label, strong state label → weak state label)
    (reachable : system.ReachableUnder strong state) : system.ReachableUnder weak state := by
  induction reachable with
  | initial => exact .initial
  | step _ admitted taken ih => exact .step ih (implies _ _ admitted) taken

/-- Every state reached under a condition is reached. -/
theorem ReachableUnder.reachable {allowed : State → Label → Prop} {state : State}
    (reachable : system.ReachableUnder allowed state) : system.Reachable state :=
  reachable.mono fun _ _ _ => trivial

/-- The invariant rule: what holds initially and is preserved by every allowed
step holds in every state reached by allowed steps. -/
theorem ReachableUnder.invariant {allowed : State → Label → Prop} {state : State}
    (reachable : system.ReachableUnder allowed state) (Inv : State → Prop)
    (initial : Inv system.initial)
    (preserved : ∀ {state label next}, Inv state → allowed state label →
      system.step state label = some next → Inv next) : Inv state := by
  induction reachable with
  | initial => exact initial
  | step _ admitted taken ih => exact preserved ih admitted taken

/-- The invariant rule with what is already known of reached states: a step starts from
one of them. -/
theorem ReachableUnder.invariantFrom {allowed : State → Label → Prop} {state : State}
    (reachable : system.ReachableUnder allowed state) (Inv : State → Prop)
    (initial : Inv system.initial)
    (preserved : ∀ {state label next}, system.ReachableUnder allowed state → Inv state →
      allowed state label → system.step state label = some next → Inv next) : Inv state := by
  induction reachable with
  | initial => exact initial
  | step prior admitted taken ih => exact preserved prior ih admitted taken

/-- The invariant rule for runs that start in an arbitrary state. -/
theorem runFrom_invariant {state final : State} {labels : List Label}
    (replayed : system.runFrom state labels = some final) (Inv : State → Prop) (holds : Inv state)
    (preserved : ∀ {state label next}, Inv state →
      system.step state label = some next → Inv next) : Inv final := by
  induction labels generalizing state with
  | nil => exact Option.some.inj replayed ▸ holds
  | cons label rest ih =>
    obtain ⟨next, taken, later⟩ := runFrom_cons_iff.mp replayed
    exact ih later (preserved holds taken)

/-- A potential that pays for every counted step bounds how many there are. -/
theorem countFrom_le {counts : State → Label → Bool} (Inv : State → Prop)
    (potential : State → Nat)
    (pays : ∀ {state label next}, Inv state → system.step state label = some next →
      Inv next ∧ (if counts state label then 1 else 0) + potential next ≤ potential state)
    {state final : State} {labels : List Label} (holds : Inv state)
    (replayed : system.runFrom state labels = some final) :
    system.countFrom counts state labels ≤ potential state := by
  induction labels generalizing state with
  | nil => exact Nat.zero_le _
  | cons label rest ih =>
    obtain ⟨next, taken, later⟩ := runFrom_cons_iff.mp replayed
    obtain ⟨holdsNext, paid⟩ := pays holds taken
    have bound := ih holdsNext later
    simp only [countFrom, taken]
    omega

/-- Where a run can lead from a reachable state is reachable too. -/
theorem LeadsTo.reachable {own : Label → Prop} {goal : State → Prop} {state : State}
    (leads : system.LeadsTo own goal state) (reachable : system.Reachable state) :
    ∃ final, system.Reachable final ∧ goal final := by
  induction leads with
  | here holds => exact ⟨_, reachable, holds⟩
  | step _ _ taken _ ih => exact ih (.step reachable trivial taken)

/-- One way after another. -/
theorem LeadsTo.andThen {own : Label → Prop} {first goal : State → Prop} {state : State}
    (leads : system.LeadsTo own first state)
    (onward : ∀ middle, first middle → system.LeadsTo own goal middle) :
    system.LeadsTo own goal state := by
  induction leads with
  | here holds => exact onward _ holds
  | step next mine taken _ ih => exact .step next mine taken ih

/-- What the steps on the way preserve holds at its end. -/
theorem LeadsTo.keeping {own : Label → Prop} {goal Inv : State → Prop} {state : State}
    (leads : system.LeadsTo own goal state) (holds : Inv state)
    (preserved : ∀ {state label next}, Inv state → own label →
      system.step state label = some next → Inv next) :
    system.LeadsTo own (fun final => goal final ∧ Inv final) state := by
  induction leads with
  | here reached => exact .here ⟨reached, holds⟩
  | step next mine taken _ ih => exact .step next mine taken (ih (preserved holds mine taken))

/-- Replaying admitted labels from a reached state reaches the final state. -/
theorem ReachableUnder.runFrom {allowed : State → Label → Prop} {state final : State}
    {labels : List Label} (reachable : system.ReachableUnder allowed state)
    (admitted : system.AdmitsFrom allowed state labels)
    (replayed : system.runFrom state labels = some final) :
    system.ReachableUnder allowed final := by
  induction labels generalizing state with
  | nil => exact Option.some.inj replayed ▸ reachable
  | cons label rest ih =>
    obtain ⟨next, taken, later⟩ := runFrom_cons_iff.mp replayed
    exact ih (.step reachable admitted.1 taken) (admitted.2 next taken) later

/-- A property of a longer replay holds at its start, and from where the first step leads. -/
theorem alwaysFrom_cons_iff {holds : State → Prop} {state : State} {label : Label}
    {rest : List Label} : system.AlwaysFrom holds state (label :: rest) ↔
      holds state ∧ ∀ next ∈ system.step state label, system.AlwaysFrom holds next rest := by
  constructor
  · intro always
    refine ⟨always [] (List.nil_prefix) state rfl, ?_⟩
    intro next taken before ahead later replayed
    have longer := (List.cons_prefix_cons (a := label)).mpr ⟨rfl, ahead⟩
    exact always _ longer later (by simpa [Option.mem_def.mp taken] using replayed)
  · rintro ⟨here, always⟩ before ahead later replayed
    cases before with
    | nil => exact Option.some.inj replayed ▸ here
    | cons first before =>
      obtain ⟨rfl, shorter⟩ := List.cons_prefix_cons.mp ahead
      obtain ⟨next, taken, replayed⟩ := runFrom_cons_iff.mp replayed
      exact always next taken before shorter later replayed

/-- Where a step keeps the property exactly if it is allowed, a replay keeps it exactly if
all of its steps are. `Inv` may be used on the way. -/
theorem alwaysFrom_iff_admitsFrom {allowed : State → Label → Prop} {holds : State → Prop}
    (Inv : State → Prop)
    (preserved : ∀ {state label next}, Inv state → system.step state label = some next → Inv next)
    (exact : ∀ {state label}, Inv state → holds state →
      (allowed state label ↔ ∀ next ∈ system.step state label, holds next))
    {state : State} (inv : Inv state) (labels : List Label) :
    system.AlwaysFrom holds state labels ↔
      holds state ∧ system.AdmitsFrom allowed state labels := by
  induction labels generalizing state with
  | nil => simp [AlwaysFrom, AdmitsFrom]
  | cons label rest ih =>
    rw [alwaysFrom_cons_iff, AdmitsFrom]
    refine and_congr_right fun here => ?_
    rw [exact inv here]
    have split : ∀ next ∈ system.step state label, system.AlwaysFrom holds next rest ↔
        holds next ∧ system.AdmitsFrom allowed next rest :=
      fun next taken => ih (preserved inv taken)
    constructor
    · intro always
      exact ⟨fun next taken => ((split next taken).mp (always next taken)).1,
        fun next taken => ((split next taken).mp (always next taken)).2⟩
    · rintro ⟨kept, admitted⟩ next taken
      exact (split next taken).mpr ⟨kept next taken, admitted next taken⟩

/-- Conditions that mean the same in the states of a replay admit the same replays. -/
theorem admitsFrom_congr {first second : State → Label → Prop} (Inv : State → Prop)
    (preserved : ∀ {state label next}, Inv state → system.step state label = some next → Inv next)
    (same : ∀ {state} label, Inv state → (first state label ↔ second state label))
    {state : State} (inv : Inv state) (labels : List Label) :
    system.AdmitsFrom first state labels ↔ system.AdmitsFrom second state labels := by
  induction labels generalizing state with
  | nil => exact Iff.rfl
  | cons label rest ih =>
    refine and_congr (same label inv) ?_
    exact forall₂_congr fun next taken => ih (preserved inv taken)

section History

variable {History : Type w} {start : History}
  {record : State → Label → State → History → History}

theorem withHistory_step_iff {run next : State × History} {label : Label} :
    (system.withHistory start record).step run label = some next ↔
      system.step run.1 label = some next.1 ∧ next.2 = record run.1 label next.1 run.2 := by
  obtain ⟨state, history⟩ := next
  simp only [withHistory, Option.map_eq_some_iff, Prod.mk.injEq]
  constructor
  · rintro ⟨next, taken, rfl, rfl⟩
    exact ⟨taken, rfl⟩
  · rintro ⟨taken, rfl⟩
    exact ⟨state, taken, rfl, rfl⟩

/-- The record can be kept along every way. -/
theorem LeadsTo.recorded {own : Label → Prop} {goal : State → Prop} {state : State}
    (leads : system.LeadsTo own goal state) (history : History) :
    (system.withHistory start record).LeadsTo own (fun run => goal run.1) (state, history) := by
  induction leads generalizing history with
  | here holds => exact .here holds
  | step next mine taken _ ih =>
    exact .step (next, record _ _ next history) mine
      (withHistory_step_iff.mpr ⟨taken, rfl⟩) (ih _)

/-- Without its record a recorded run is a run. -/
theorem ReachableUnder.unrecorded {allowed : State → Label → Prop} {run : State × History}
    (reachable : (system.withHistory start record).ReachableUnder
      (fun run => allowed run.1) run) : system.ReachableUnder allowed run.1 := by
  induction reachable with
  | initial => exact .initial
  | step _ admitted taken ih => exact .step ih admitted (withHistory_step_iff.mp taken).1

/-- Every run of the system has a record. -/
theorem ReachableUnder.recorded {allowed : State → Label → Prop} {state : State}
    (reachable : system.ReachableUnder allowed state) : ∃ history,
      (system.withHistory start record).ReachableUnder (fun run => allowed run.1)
        (state, history) := by
  induction reachable with
  | initial => exact ⟨start, .initial⟩
  | @step before next label _ admitted taken ih =>
    obtain ⟨history, recorded⟩ := ih
    exact ⟨record before label next history,
      .step recorded admitted (withHistory_step_iff.mpr ⟨taken, rfl⟩)⟩

end History

/-- Without a condition every replay is admitted. -/
theorem admitsFrom_true (state : State) (labels : List Label) :
    system.AdmitsFrom (fun _ _ => True) state labels := by
  induction labels generalizing state with
  | nil => trivial
  | cons label rest ih => exact ⟨trivial, fun next _ => ih next⟩

/-- The final state of a replay from a reachable state is reachable. -/
theorem ReachableUnder.replay {state final : State} {labels : List Label}
    (reachable : system.Reachable state)
    (replayed : system.runFrom state labels = some final) : system.Reachable final :=
  reachable.runFrom (admitsFrom_true state labels) replayed

/-- A replay whose final state passes an executable test reaches such a state. -/
theorem exists_reachable_of_run {labels : List Label} {test : State → Bool}
    (passes : (system.run labels).any test = true) :
    ∃ state, system.Reachable state ∧ test state = true := by
  obtain ⟨state, replayed, holds⟩ := (Option.any_eq_true _ _).mp passes
  exact ⟨state, ReachableUnder.initial.replay replayed, holds⟩

/-- A replay of allowed steps whose final state passes an executable test reaches
such a state under the condition. -/
theorem exists_reachableUnder_of_run {allowed : State → Label → Prop} {labels : List Label}
    {test : State → Bool} (admitted : system.AdmitsFrom allowed system.initial labels)
    (passes : (system.run labels).any test = true) :
    ∃ state, system.ReachableUnder allowed state ∧ test state = true := by
  obtain ⟨state, replayed, holds⟩ := (Option.any_eq_true _ _).mp passes
  exact ⟨state, ReachableUnder.initial.runFrom admitted replayed, holds⟩

end System

end Dls2.Transition
