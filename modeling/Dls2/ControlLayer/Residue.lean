import Dls2.ControlLayer.Arbitration

/-!
# What earlier cycles leave behind

The message of a gather thread outlives its cycles. A cycle starts by clearing the
torques and the mode; references and gains are written only when the loop meets a
controller that sets them. This module compares two threads with different histories
whose last cycles visit the same snapshot.

Modes are arbitrary bytes here, and all vectors have one entry per joint.
-/

namespace Dls2.ControlLayer

open Dls2.Transition

/-- References and gains of a message. -/
@[ext] structure Setpoints (α : Type) where
  position : List α
  velocity : List α
  kp : List α
  kd : List α

def ControlSignal.setpoints {α : Type} (msg : ControlSignal α) : Setpoints α where
  position := msg.jointsPosition
  velocity := msg.jointsVelocity
  kp := msg.kp
  kd := msg.kd

/-- Every vector of the message has one entry per joint. -/
structure ControlSignal.Sized {α : Type} (joints : Nat) (msg : ControlSignal α) : Prop where
  position : msg.jointsPosition.length = joints
  velocity : msg.jointsVelocity.length = joints
  torques : msg.jointsTorques.length = joints
  kp : msg.kp.length = joints
  kd : msg.kd.length = joints

/-- The messages of all controllers of a snapshot do. -/
def SizedSnapshot {α : Type} (joints : Nat) (snapshot : List (ControllerData α)) : Prop :=
  ∀ controller ∈ snapshot, controller.controlSignal.Sized joints

/-- The messages are the same but for their timestamps. -/
def AgreeApartFromTimestamp {α : Type} (first second : ControlSignal α) : Prop :=
  { first with timestamp := second.timestamp } = second

/-- Mode, torques, references and gains are the rest of a message. -/
theorem agreeApartFromTimestamp_iff {α : Type} (first second : ControlSignal α) :
    AgreeApartFromTimestamp first second ↔
      (first.controlMode = second.controlMode ∧ first.jointsTorques = second.jointsTorques) ∧
        first.setpoints = second.setpoints := by
  constructor
  · intro agree
    obtain ⟨mode, position, velocity, torques, kp, kd, _⟩ := ControlSignal.ext_iff.mp agree
    exact ⟨⟨mode, torques⟩, Setpoints.ext position velocity kp kd⟩
  · rintro ⟨⟨mode, torques⟩, setpoints⟩
    ext1
    case controlMode => exact mode
    case jointsPosition => exact congrArg Setpoints.position setpoints
    case jointsVelocity => exact congrArg Setpoints.velocity setpoints
    case jointsTorques => exact torques
    case kp => exact congrArg Setpoints.kp setpoints
    case kd => exact congrArg Setpoints.kd setpoints
    case timestamp => rfl

section Cycle

variable {α : Type} [Semiring α]

/-- References and gains that are all zero. -/
def Setpoints.zero (joints : Nat) : Setpoints α where
  position := List.replicate joints 0
  velocity := List.replicate joints 0
  kp := List.replicate joints 0
  kd := List.replicate joints 0

/-- What the first position or velocity controller of a snapshot asks for: its own
reference, and zero for the rest. -/
def ControllerData.reset (joints : Nat) (controller : ControllerData α) : Setpoints α :=
  if controller.inMode .position then
    { Setpoints.zero joints with position := controller.controlSignal.jointsPosition }
  else { Setpoints.zero joints with velocity := controller.controlSignal.jointsVelocity }

/-- The references and gains that the controllers of a snapshot ask for, if one does. -/
def requested (joints : Nat) (snapshot : List (ControllerData α)) : Option (Setpoints α) :=
  match snapshot.find? ControllerData.setsPoint,
    snapshot.find? (ControllerData.inMode .impedance) with
  | some first, _ => some (first.reset joints)
  | none, some first => some first.controlSignal.setpoints
  | none, none => none

/-- A controller of the snapshot asks for references or gains. -/
def Requests (snapshot : List (ControllerData α)) : Prop :=
  ∃ controller ∈ snapshot, controller.setsPoint = true ∨ controller.inMode .impedance = true

/-- What was asked for last in a history of cycles, and zeros if nothing was. -/
def lastRequested (joints : Nat) (history : List (Nat × List (ControllerData α))) : Setpoints α :=
  history.foldl (fun earlier cycle => (requested joints cycle.2).getD earlier)
    (Setpoints.zero joints)

/-- There is something requested exactly when a controller requests it. -/
theorem isSome_requested (joints : Nat) (snapshot : List (ControllerData α)) :
    (requested joints snapshot).isSome = true ↔ Requests snapshot := by
  cases sets : snapshot.find? ControllerData.setsPoint with
  | some first =>
    have member := List.mem_of_find?_eq_some sets
    have found := List.find?_some sets
    simp only [requested, sets, Option.isSome_some, true_iff]
    exact ⟨first, member, .inl found⟩
  | none =>
    have noSetpoint := List.find?_eq_none.mp sets
    cases impedance : snapshot.find? (ControllerData.inMode .impedance) with
    | some first =>
      have member := List.mem_of_find?_eq_some impedance
      have found := List.find?_some impedance
      simp only [requested, sets, impedance, Option.isSome_some, true_iff]
      exact ⟨first, member, .inr found⟩
    | none =>
      have noImpedance := List.find?_eq_none.mp impedance
      simp only [requested, sets, impedance, Option.isSome_none, Bool.false_eq_true, false_iff]
      rintro ⟨controller, member, asks | asks⟩
      · exact noSetpoint controller member asks
      · exact noImpedance controller member asks

/-! ### References and gains through the loop -/

/-- The loop invariant: without a setpoint among the visited controllers, references
and gains are those of the first impedance controller or those the cycle found. -/
structure Carried (joints : Nat) (found : Setpoints α) (visited : List (ControllerData α))
    (loop : GatherLoop α) : Prop where
  noSetpoint : visited.find? ControllerData.setsPoint = none
  activePosition : loop.activePositionController = false
  activeVelocity : loop.activeVelocityController = false
  activeImpedence : loop.activeImpedenceController =
    (visited.find? (ControllerData.inMode .impedance)).isSome
  setpoints : loop.controlSignalMsg.setpoints = (requested joints visited).getD found
  sized : loop.controlSignalMsg.Sized joints

/-- What a cycle leaves in the message of the layer. -/
structure Left (joints : Nat) (found : Setpoints α) (snapshot : List (ControllerData α))
    (msg : ControlSignal α) : Prop where
  setpoints : msg.setpoints = (requested joints snapshot).getD found
  sized : msg.Sized joints

/-- Filling with zeros clears a vector with one entry per joint. -/
theorem fillZero_of_length {joints : Nat} {values : List α} (sized : values.length = joints) :
    fillZero values = List.replicate joints 0 := by
  rw [fillZero_eq_replicate, sized]

/-- The message after the mode has been set once. -/
def GatherLoop.entered (controller : ControllerData α) (loop : GatherLoop α) : ControlSignal α :=
  if loop.controlModeSetOnce then loop.controlSignalMsg
  else { loop.controlSignalMsg with controlMode := controller.controlSignal.controlMode }

omit [Semiring α] in
theorem GatherLoop.entered_eq (controller : ControllerData α) (loop : GatherLoop α) :
    (if loop.controlModeSetOnce then loop.controlSignalMsg
      else { loop.controlSignalMsg with controlMode := controller.controlSignal.controlMode }) =
      loop.entered controller := rfl

omit [Semiring α] in
/-- Setting the mode changes nothing else. -/
theorem GatherLoop.entered_same (controller : ControllerData α) (loop : GatherLoop α) :
    (loop.entered controller).setpoints = loop.controlSignalMsg.setpoints ∧
      (loop.entered controller).jointsTorques = loop.controlSignalMsg.jointsTorques := by
  unfold entered
  split
  · exact ⟨rfl, rfl⟩
  · exact ⟨rfl, rfl⟩

omit [Semiring α] in
theorem ControlSignal.Sized.entered {joints : Nat} {loop : GatherLoop α}
    (sized : loop.controlSignalMsg.Sized joints) (controller : ControllerData α) :
    (loop.entered controller).Sized joints := by
  unfold GatherLoop.entered
  split
  · exact sized
  · exact { sized with }

namespace Carried

variable {joints : Nat} {found : Setpoints α} {visited rest : List (ControllerData α)}
  {controller : ControllerData α} {loop : GatherLoop α}

/-- A cycle starts with what the message holds. -/
theorem start {msg : ControlSignal α} (sized : msg.Sized joints) :
    Carried joints msg.setpoints [] (GatherLoop.start msg) where
  noSetpoint := rfl
  activePosition := rfl
  activeVelocity := rfl
  activeImpedence := rfl
  setpoints := rfl
  sized := { sized with torques := by simpa [GatherLoop.start, fillZero] using sized.torques }

/-- A position or velocity controller leaves the loop. -/
theorem reset (holds : Carried joints found visited loop)
    (sized : controller.controlSignal.Sized joints)
    (sets : controller.setsPoint = true) :
    ∃ final, gatherStep controller loop = some (.done final) ∧
      Left joints found (visited ++ controller :: rest) final.controlSignalMsg := by
  have entered := holds.sized.entered controller
  have first : requested joints (visited ++ controller :: rest) =
      some (controller.reset joints) := by
    simp [requested, List.find?_append, holds.noSetpoint, sets]
  simp only [gatherStep, GatherLoop.entered_eq, holds.activePosition, holds.activeVelocity,
    Bool.not_false, Bool.and_true]
  generalize loop.entered controller = msg at entered
  cases position : controller.controlSignal.controlMode == ControlMode.position.toByte with
  | true =>
    refine ⟨_, if_pos rfl, ?_, ?_⟩
    · simp [first, ControllerData.reset, ControllerData.inMode, position, Setpoints.zero,
        ControlSignal.setpoints, fillZero_of_length, entered.velocity, entered.kp, entered.kd]
    · constructor <;> simp [fillZero, sized.position, entered.velocity, entered.torques,
        entered.kp, entered.kd]
  | false =>
    have velocity :
        (controller.controlSignal.controlMode == ControlMode.velocity.toByte) = true := by
      simpa [ControllerData.setsPoint, ControllerData.inMode, position] using sets
    simp only [velocity, if_true, Bool.false_eq_true, if_false]
    refine ⟨_, rfl, ?_, ?_⟩
    · simp [first, ControllerData.reset, ControllerData.inMode, position, Setpoints.zero,
        ControlSignal.setpoints, fillZero_of_length, entered.position, entered.kp, entered.kd]
    · constructor <;> simp [fillZero, sized.velocity, entered.position, entered.torques,
        entered.kp, entered.kd]

/-- The first impedance controller sets references and gains. -/
theorem impedance (holds : Carried joints found visited loop)
    (sized : controller.controlSignal.Sized joints) (notSetpoint : controller.setsPoint = false)
    (mode : controller.inMode .impedance = true)
    (first : visited.find? (ControllerData.inMode .impedance) = none) :
    ∃ next, gatherStep controller loop = some (.yield next) ∧
      Carried joints found (visited ++ [controller]) next := by
  have entered := holds.sized.entered controller
  have inactive : loop.activeImpedenceController = false := by simp [holds.activeImpedence, first]
  have now : requested joints (visited ++ [controller]) =
      some controller.controlSignal.setpoints := by
    simp [requested, List.find?_append, holds.noSetpoint, notSetpoint, first, mode]
  simp only [ControllerData.setsPoint, ControllerData.inMode, Bool.or_eq_false_iff]
    at notSetpoint mode
  simp only [gatherStep, GatherLoop.entered_eq, notSetpoint.1, notSetpoint.2, mode, inactive,
    Bool.false_and, Bool.not_false, Bool.and_true, Bool.or_true, if_true, Bool.false_eq_true,
    if_false]
  generalize loop.entered controller = msg at entered
  rw [addTorques_of_length (sized.torques.trans entered.torques.symm)]
  refine ⟨_, rfl, ?_⟩
  constructor
  case noSetpoint =>
    simp [List.find?_append, holds.noSetpoint, ControllerData.setsPoint, ControllerData.inMode,
      notSetpoint]
  case activePosition => exact holds.activePosition
  case activeVelocity => exact holds.activeVelocity
  case activeImpedence => simp [List.find?_append, ControllerData.inMode, mode]
  case setpoints =>
    rw [now]
    rfl
  case sized =>
    exact ⟨sized.position, sized.velocity, by simp [entered.torques, sized.torques], sized.kp,
      sized.kd⟩

/-- Any other controller leaves references and gains alone. -/
theorem other (holds : Carried joints found visited loop)
    (sized : controller.controlSignal.Sized joints) (notSetpoint : controller.setsPoint = false)
    (later : controller.inMode .impedance = true →
      (visited.find? (ControllerData.inMode .impedance)).isSome = true) :
    ∃ next, gatherStep controller loop = some (.yield next) ∧
      Carried joints found (visited ++ [controller]) next := by
  have entered := holds.sized.entered controller
  have setpoints := (loop.entered_same controller).1.trans holds.setpoints
  have same : (visited ++ [controller]).find? (ControllerData.inMode .impedance) =
      visited.find? (ControllerData.inMode .impedance) := by
    rw [List.find?_append]
    cases before : visited.find? (ControllerData.inMode .impedance) with
    | some first => rfl
    | none =>
      have notImpedance : controller.inMode .impedance ≠ true := by simpa [before] using later
      simp [notImpedance]
  have noSetpoint : (visited ++ [controller]).find? ControllerData.setsPoint = none := by
    simp [List.find?_append, holds.noSetpoint, notSetpoint]
  have notFirst : (controller.controlSignal.controlMode == ControlMode.impedance.toByte &&
      !loop.activeImpedenceController) = false := by
    rw [holds.activeImpedence, Bool.and_eq_false_imp]
    intro impedance
    simp [later impedance]
  simp only [ControllerData.setsPoint, ControllerData.inMode, Bool.or_eq_false_iff] at notSetpoint
  simp only [gatherStep, GatherLoop.entered_eq, notSetpoint.1, notSetpoint.2, notFirst,
    Bool.false_and, Bool.or_false, Bool.false_eq_true, if_false]
  generalize loop.entered controller = msg at setpoints entered
  have carried : ∀ torques : List α, torques.length = joints →
      Carried joints found (visited ++ [controller])
        { loop with controlSignalMsg := { msg with jointsTorques := torques },
                    controlModeSetOnce := true } := by
    intro torques length
    constructor
    case noSetpoint => exact noSetpoint
    case activePosition => exact holds.activePosition
    case activeVelocity => exact holds.activeVelocity
    case activeImpedence =>
      rw [same]
      exact holds.activeImpedence
    case setpoints =>
      have alike : requested joints (visited ++ [controller]) = requested joints visited := by
        simp only [requested, noSetpoint, same, holds.noSetpoint]
      rw [alike]
      exact setpoints
    case sized => exact { entered with torques := length }
  split
  · rw [addTorques_of_length (sized.torques.trans entered.torques.symm)]
    exact ⟨_, rfl, carried _ (by simp [entered.torques, sized.torques])⟩
  · exact ⟨_, rfl, carried msg.jointsTorques entered.torques⟩

end Carried

/-- The loop over a snapshot ends, with references and gains that were requested or
found. -/
theorem forIn_gatherStep_setpoints {joints : Nat} {snapshot : List (ControllerData α)}
    {msg : ControlSignal α} (msgSized : msg.Sized joints)
    (sized : SizedSnapshot joints snapshot) :
    ∃ final, forIn snapshot (GatherLoop.start msg) gatherStep = some final ∧
      Left joints msg.setpoints snapshot final.controlSignalMsg := by
  apply Loop.forIn_total (Carried joints msg.setpoints) _ _
    (fun loop holds => ⟨holds.setpoints, holds.sized⟩) (Carried.start msgSized)
  intro visited controller rest loop split holds
  subst split
  have controllerSized := sized controller (by simp)
  cases sets : controller.setsPoint with
  | true => exact .inr (holds.reset controllerSized sets)
  | false =>
    by_cases first : controller.inMode .impedance = true ∧
        visited.find? (ControllerData.inMode .impedance) = none
    · exact .inl (holds.impedance controllerSized sets first.1 first.2)
    · refine .inl (holds.other controllerSized sets fun impedance => ?_)
      exact Option.isSome_iff_ne_none.mpr fun none => first ⟨impedance, none⟩

/-! ### Two loops over one snapshot -/

/-- The loops differ at most in references and gains. -/
structure Alike (first second : GatherLoop α) : Prop where
  mode : first.controlSignalMsg.controlMode = second.controlSignalMsg.controlMode
  torques : first.controlSignalMsg.jointsTorques = second.controlSignalMsg.jointsTorques
  activePosition : first.activePositionController = second.activePositionController
  activeVelocity : first.activeVelocityController = second.activeVelocityController
  activeImpedence : first.activeImpedenceController = second.activeImpedenceController
  modeSetOnce : first.controlModeSetOnce = second.controlModeSetOnce

omit [Semiring α] in
/-- They set the same mode. -/
theorem Alike.entered {first second : GatherLoop α} (alike : Alike first second)
    (controller : ControllerData α) :
    (first.entered controller).controlMode = (second.entered controller).controlMode := by
  unfold GatherLoop.entered
  rw [← alike.modeSetOnce]
  split
  · exact alike.mode
  · rfl

/-- One controller keeps them alike. No branch is taken by references or gains. -/
theorem Alike.step {controller : ControllerData α} {first second : GatherLoop α}
    {firstOutcome secondOutcome : ForInStep (GatherLoop α)} (alike : Alike first second)
    (firstSteps : gatherStep controller first = some firstOutcome)
    (secondSteps : gatherStep controller second = some secondOutcome) :
    Loop.Related Alike firstOutcome secondOutcome := by
  have mode := alike.entered controller
  have torques : (first.entered controller).jointsTorques =
      (second.entered controller).jointsTorques := by
    rw [(first.entered_same controller).2, (second.entered_same controller).2, alike.torques]
  simp only [gatherStep, GatherLoop.entered_eq, ← alike.activePosition, ← alike.activeVelocity,
    ← alike.activeImpedence] at firstSteps secondSteps
  generalize first.entered controller = firstMsg at firstSteps mode torques
  generalize second.entered controller = secondMsg at secondSteps mode torques
  rw [← mode] at secondSteps
  split at firstSteps
  · rename_i position
    obtain rfl := Option.some.inj firstSteps
    obtain rfl := Option.some.inj ((if_pos position).symm.trans secondSteps)
    exact .done ⟨rfl, congrArg fillZero torques, rfl, rfl, rfl, rfl⟩
  rename_i notPosition
  rw [if_neg notPosition] at secondSteps
  split at firstSteps
  · rename_i velocity
    obtain rfl := Option.some.inj firstSteps
    obtain rfl := Option.some.inj ((if_pos velocity).symm.trans secondSteps)
    exact .done ⟨rfl, congrArg fillZero torques, rfl, rfl, rfl, rfl⟩
  rename_i notVelocity
  rw [if_neg notVelocity] at secondSteps
  split at firstSteps
  · rename_i adds
    rw [if_pos adds] at secondSteps
    obtain ⟨firstTorques, firstAdded, rfl⟩ := Option.map_eq_some_iff.mp firstSteps
    obtain ⟨secondTorques, secondAdded, rfl⟩ := Option.map_eq_some_iff.mp secondSteps
    rw [apply_ite ControlSignal.jointsTorques, ite_self] at firstAdded secondAdded
    rw [← torques, firstAdded] at secondAdded
    obtain rfl := Option.some.inj secondAdded
    refine .yield ⟨?_, rfl, rfl, rfl, rfl, rfl⟩
    dsimp only
    split
    · rfl
    · exact mode
  · rename_i idle
    obtain rfl := Option.some.inj firstSteps
    obtain rfl := Option.some.inj ((if_neg idle).symm.trans secondSteps)
    exact .yield ⟨mode, torques, rfl, rfl, rfl, rfl⟩

/-- Two cycles over one snapshot publish the same mode and the same torques. -/
theorem published_mode_torques {joints : Nat} {first second firstNext secondNext : Signals α}
    {now later : Nat} {snapshot : List (ControllerData α)}
    (firstSized : first.controlSignalMsg.Sized joints)
    (secondSized : second.controlSignalMsg.Sized joints)
    (firstTaken : controlSignalGather first now snapshot = some firstNext)
    (secondTaken : controlSignalGather second later snapshot = some secondNext) :
    firstNext.writerControlSignal.controlMode = secondNext.writerControlSignal.controlMode ∧
      firstNext.writerControlSignal.jointsTorques =
        secondNext.writerControlSignal.jointsTorques := by
  obtain ⟨firstFinal, firstLoops, rfl⟩ := Option.map_eq_some_iff.mp firstTaken
  obtain ⟨secondFinal, secondLoops, rfl⟩ := Option.map_eq_some_iff.mp secondTaken
  have cleared : fillZero first.controlSignalMsg.jointsTorques =
      fillZero second.controlSignalMsg.jointsTorques := by
    rw [fillZero_of_length firstSized.torques, fillZero_of_length secondSized.torques]
  have alike : Alike firstFinal secondFinal := by
    apply Loop.forIn_related Alike _ _ firstLoops secondLoops
    · intro controller first second firstOutcome secondOutcome alike firstSteps secondSteps
      exact alike.step firstSteps secondSteps
    · exact ⟨rfl, cleared, rfl, rfl, rfl, rfl⟩
  exact ⟨alike.mode, alike.torques⟩

/-! ### Histories -/

/-- A cycle over a snapshot of full vectors ends, and leaves what was requested or
found. -/
theorem controlSignalGather_setpoints {joints : Nat} {signals : Signals α}
    {snapshot : List (ControllerData α)} (msgSized : signals.controlSignalMsg.Sized joints)
    (sized : SizedSnapshot joints snapshot) (now : Nat) :
    ∃ next, controlSignalGather signals now snapshot = some next ∧
      Left joints signals.controlSignalMsg.setpoints snapshot next.controlSignalMsg ∧
      next.writerControlSignal = { next.controlSignalMsg with timestamp := now } := by
  obtain ⟨final, loops, left⟩ := forIn_gatherStep_setpoints msgSized sized
  exact ⟨_, congrArg (Option.map _) loops, ⟨left.setpoints, { left.sized with }⟩, rfl⟩

/-- A history of such cycles leaves what was requested last. -/
theorem runFrom_setpoints {joints : Nat} {history : List (Nat × List (ControllerData α))}
    (sized : ∀ cycle ∈ history, SizedSnapshot joints cycle.2) {signals : Signals α}
    (msgSized : signals.controlSignalMsg.Sized joints) :
    ∃ final, (gatherSystem α joints).runFrom signals history = some final ∧
      final.controlSignalMsg.Sized joints ∧
      final.controlSignalMsg.setpoints = history.foldl
        (fun earlier cycle => (requested joints cycle.2).getD earlier)
        signals.controlSignalMsg.setpoints := by
  induction history generalizing signals with
  | nil => exact ⟨signals, rfl, msgSized, rfl⟩
  | cons cycle rest ih =>
    obtain ⟨next, taken, left, _⟩ := controlSignalGather_setpoints msgSized
      (sized cycle (by simp)) cycle.1
    obtain ⟨final, replayed, finalSized, setpoints⟩ :=
      ih (fun later member => sized later (by simp [member])) left.sized
    refine ⟨final, ?_, finalSized, ?_⟩
    · have steps : (gatherSystem α joints).step signals cycle = some next := taken
      simp [steps, replayed]
    · rw [setpoints, left.setpoints]
      rfl

/-- The message of the constructor. -/
theorem ControlSignal.sized_sized (joints : Nat) :
    (ControlSignal.sized joints : ControlSignal α).Sized joints := by
  constructor <;> simp [ControlSignal.sized]

/-- Two threads with any histories behind them visit the same snapshot. What they
publish, apart from the timestamps, is the same exactly when a controller of the
snapshot requests references or gains, or what was requested last is the same in both
histories. -/
theorem published_agree_iff {joints : Nat} {first second : List (Nat × List (ControllerData α))}
    (firstSized : ∀ cycle ∈ first, SizedSnapshot joints cycle.2)
    (secondSized : ∀ cycle ∈ second, SizedSnapshot joints cycle.2)
    {snapshot : List (ControllerData α)} (sized : SizedSnapshot joints snapshot)
    (now later : Nat) :
    ∃ firstNext secondNext,
      (gatherSystem α joints).run (first ++ [(now, snapshot)]) = some firstNext ∧
      (gatherSystem α joints).run (second ++ [(later, snapshot)]) = some secondNext ∧
      (AgreeApartFromTimestamp firstNext.writerControlSignal secondNext.writerControlSignal ↔
        Requests snapshot ∨ lastRequested joints first = lastRequested joints second) := by
  have initial : (gatherSystem α joints).initial.controlSignalMsg.Sized joints :=
    ControlSignal.sized_sized joints
  obtain ⟨firstBefore, firstReplayed, firstMsg, firstFound⟩ := runFrom_setpoints firstSized initial
  obtain ⟨secondBefore, secondReplayed, secondMsg, secondFound⟩ :=
    runFrom_setpoints secondSized initial
  obtain ⟨firstNext, firstTaken, firstLeft, firstWritten⟩ :=
    controlSignalGather_setpoints firstMsg sized now
  obtain ⟨secondNext, secondTaken, secondLeft, secondWritten⟩ :=
    controlSignalGather_setpoints secondMsg sized later
  have firstStep : (gatherSystem α joints).step firstBefore (now, snapshot) = some firstNext :=
    firstTaken
  have secondStep : (gatherSystem α joints).step secondBefore (later, snapshot) =
      some secondNext := secondTaken
  refine ⟨firstNext, secondNext, ?_, ?_, ?_⟩
  · simp [System.run, System.runFrom_append, firstReplayed, firstStep]
  · simp [System.run, System.runFrom_append, secondReplayed, secondStep]
  have same := published_mode_torques firstMsg secondMsg firstTaken secondTaken
  have firstSetpoints : firstNext.writerControlSignal.setpoints =
      (requested joints snapshot).getD (lastRequested joints first) := by
    rw [firstWritten]
    exact firstLeft.setpoints.trans (congrArg _ firstFound)
  have secondSetpoints : secondNext.writerControlSignal.setpoints =
      (requested joints snapshot).getD (lastRequested joints second) := by
    rw [secondWritten]
    exact secondLeft.setpoints.trans (congrArg _ secondFound)
  rw [agreeApartFromTimestamp_iff, and_iff_right same, firstSetpoints, secondSetpoints,
    ← isSome_requested joints]
  cases requested joints snapshot <;> simp

end Cycle

/-- A position controller of a two joint robot. -/
def positionAt (position : List ℤ) : ControllerData ℤ where
  premultiplier := 1
  controlSignal := { ControlSignal.sized 2 with
    controlMode := ControlMode.position.toByte
    jointsPosition := position }

theorem published_agree_iff_position_twice :
    ∃ firstNext secondNext,
      (gatherSystem ℤ 2).run ([(0, [positionAt [1, 2]])] ++ [(1, [twoJoints .torque [3, 4]])]) =
        some firstNext ∧
      (gatherSystem ℤ 2).run ([] ++ [(0, [twoJoints .torque [3, 4]])]) = some secondNext ∧
      (AgreeApartFromTimestamp firstNext.writerControlSignal secondNext.writerControlSignal ↔
        Requests [twoJoints .torque [3, 4]] ∨
          lastRequested 2 [(0, [positionAt [1, 2]])] = lastRequested 2 []) := by
  apply published_agree_iff
  · intro cycle member controller inside
    obtain rfl := List.mem_singleton.mp member
    obtain rfl := List.mem_singleton.mp inside
    constructor <;> rfl
  · simp
  · intro controller inside
    obtain rfl := List.mem_singleton.mp inside
    constructor <;> rfl

/-- A position controller is unloaded and a torque controller stays. The position is
still in the message that is sent for the torque controller. -/
theorem position_survives :
    ∃ firstNext secondNext,
      (gatherSystem ℤ 2).run [(0, [positionAt [1, 2]]), (1, [twoJoints .torque [3, 4]])] =
        some firstNext ∧
      (gatherSystem ℤ 2).run [(1, [twoJoints .torque [3, 4]])] = some secondNext ∧
      firstNext.writerControlSignal.jointsPosition = [1, 2] ∧
      ¬ AgreeApartFromTimestamp firstNext.writerControlSignal
        secondNext.writerControlSignal := by
  refine ⟨_, _, rfl, rfl, rfl, ?_⟩
  intro agree
  exact absurd (congrArg ControlSignal.jointsPosition agree) (by decide)

end Dls2.ControlLayer
