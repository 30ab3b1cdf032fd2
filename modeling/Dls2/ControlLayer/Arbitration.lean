import Dls2.Lib.Loop
import Dls2.Lib.Transition
import Mathlib.Algebra.BigOperators.Group.List.Basic
import Mathlib.Algebra.Ring.Int.Defs

/-!
# Gathering control signals

One cycle of `ControlLayer::controlSignalGather` merges the signals of all
controllers into the one that is sent to the robot. Its loop visits a snapshot
of the controllers in the order of their names, keeps flags for what it has seen,
and ends at the first position or velocity controller.

Numbers are elements of a semiring, so that sums are exact. Writing a torque
outside of the vector of the layer makes the cycle fail.
-/

namespace Dls2.ControlLayer

open Dls2.Transition

/-- `ControlMode`. -/
inductive ControlMode where
  | torque
  | impedance
  | position
  | velocity
deriving DecidableEq, Repr

/-- The underlying value of an enumerator. -/
def ControlMode.toByte : ControlMode → UInt8
  | .torque => 0
  | .impedance => 1
  | .position => 2
  | .velocity => 3

/-- Enumerators are told apart by their values. -/
@[simp] theorem ControlMode.toByte_beq (first second : ControlMode) :
    (first.toByte == second.toByte) = decide (first = second) := by
  cases first <;> cases second <;> rfl

/-- The fields of a control signal message that a cycle reads or writes. -/
@[ext] structure ControlSignal (α : Type) where
  controlMode : UInt8
  jointsPosition : List α
  jointsVelocity : List α
  jointsTorques : List α
  kp : List α
  kd : List α
  timestamp : Nat

/-- A controller in a snapshot, with the message its reader has read last. -/
structure ControllerData (α : Type) where
  premultiplier : α
  controlSignal : ControlSignal α

/-- The message that is being put together, and the local flags of one cycle. -/
structure GatherLoop (α : Type) where
  controlSignalMsg : ControlSignal α
  activePositionController : Bool
  activeVelocityController : Bool
  activeImpedenceController : Bool
  controlModeSetOnce : Bool

section Cycle

variable {α : Type} [Semiring α]

/-- `std::fill` with zero. -/
def fillZero (values : List α) : List α := values.map fun _ => 0

/-- The inner loop: `torques[i] += premultiplier * controllerTorques[i]` for every
index of the controller's vector. -/
def addTorques (premultiplier : α) : List α → List α → Option (List α)
  | torques, [] => some torques
  | [], _ :: _ => none
  | torque :: torques, controllerTorque :: controllerTorques =>
    (addTorques premultiplier torques controllerTorques).map
      ((torque + premultiplier * controllerTorque) :: ·)

/-- The body of the loop over the snapshot. -/
def gatherStep (controllerData : ControllerData α) (loop : GatherLoop α) :
    Option (ForInStep (GatherLoop α)) :=
  let controllerMsg := controllerData.controlSignal
  let msg := if loop.controlModeSetOnce then loop.controlSignalMsg
    else { loop.controlSignalMsg with controlMode := controllerMsg.controlMode }
  let loop := { loop with controlModeSetOnce := true }
  let torqueControllerInTorqueMode := controllerMsg.controlMode == ControlMode.torque.toByte &&
    msg.controlMode == ControlMode.torque.toByte
  let torqueControllerInImpedenceMode := msg.controlMode == ControlMode.impedance.toByte &&
    controllerMsg.controlMode == ControlMode.torque.toByte
  let firstImpedenceController := controllerMsg.controlMode == ControlMode.impedance.toByte &&
    !loop.activeImpedenceController
  let firstPositionController := controllerMsg.controlMode == ControlMode.position.toByte &&
    !loop.activePositionController
  let firstVelocityController := controllerMsg.controlMode == ControlMode.velocity.toByte &&
    !loop.activeVelocityController
  if firstPositionController then
    some (.done { loop with controlSignalMsg := { msg with
      controlMode := ControlMode.position.toByte
      jointsPosition := controllerMsg.jointsPosition
      jointsVelocity := fillZero msg.jointsVelocity
      jointsTorques := fillZero msg.jointsTorques
      kp := fillZero msg.kp
      kd := fillZero msg.kd } })
  else if firstVelocityController then
    some (.done { loop with controlSignalMsg := { msg with
      controlMode := ControlMode.velocity.toByte
      jointsVelocity := controllerMsg.jointsVelocity
      jointsPosition := fillZero msg.jointsPosition
      jointsTorques := fillZero msg.jointsTorques
      kp := fillZero msg.kp
      kd := fillZero msg.kd } })
  else if torqueControllerInTorqueMode || torqueControllerInImpedenceMode ||
      firstImpedenceController then
    let msg := if firstImpedenceController then { msg with
        controlMode := ControlMode.impedance.toByte
        jointsPosition := controllerMsg.jointsPosition
        jointsVelocity := controllerMsg.jointsVelocity
        kp := controllerMsg.kp
        kd := controllerMsg.kd }
      else msg
    (addTorques controllerData.premultiplier msg.jointsTorques controllerMsg.jointsTorques).map
      fun torques => .yield { loop with
        controlSignalMsg := { msg with jointsTorques := torques }
        activeImpedenceController := loop.activeImpedenceController || firstImpedenceController }
  else some (.yield { loop with controlSignalMsg := msg })

/-- `saturateTorques` is not implemented yet. -/
def saturateTorques (req : List α) : List α := req

/-- The message of the layer and the message of its writer, which is what has been
published last. -/
structure Signals (α : Type) where
  controlSignalMsg : ControlSignal α
  writerControlSignal : ControlSignal α

/-- The message of the layer at the start of a cycle, and the flags. -/
def GatherLoop.start (msg : ControlSignal α) : GatherLoop α where
  controlSignalMsg := { msg with
    jointsTorques := fillZero msg.jointsTorques
    controlMode := ControlMode.torque.toByte }
  activePositionController := false
  activeVelocityController := false
  activeImpedenceController := false
  controlModeSetOnce := false

/-- One cycle of `controlSignalGather` over a snapshot of the controllers, at the
given time. -/
def controlSignalGather (signals : Signals α) (now : Nat) (snapshot : List (ControllerData α)) :
    Option (Signals α) :=
  (forIn snapshot (GatherLoop.start signals.controlSignalMsg) gatherStep).map fun loop =>
    let msg := { loop.controlSignalMsg with
      jointsTorques := saturateTorques loop.controlSignalMsg.jointsTorques }
    { controlSignalMsg := msg, writerControlSignal := { msg with timestamp := now } }

/-- The message that the constructor resizes to the number of joints. -/
def ControlSignal.sized (joints : Nat) : ControlSignal α where
  controlMode := 0
  jointsPosition := List.replicate joints 0
  jointsVelocity := List.replicate joints 0
  jointsTorques := List.replicate joints 0
  kp := List.replicate joints 0
  kd := List.replicate joints 0
  timestamp := 0

/-- The cycles of a gather thread, each with its time and its snapshot. -/
def gatherSystem (α : Type) [Semiring α] (joints : Nat) :
    System (Signals α) (Nat × List (ControllerData α)) where
  initial := ⟨.sized joints, .sized joints⟩
  step signals cycle := controlSignalGather signals cycle.1 cycle.2

/-! ### What a cycle is meant to publish -/

/-- The controller runs in the given mode. -/
def ControllerData.inMode (mode : ControlMode) (controller : ControllerData α) : Bool :=
  controller.controlSignal.controlMode == mode.toByte

/-- The controller asks for a position or for a velocity. -/
def ControllerData.setsPoint (controller : ControllerData α) : Bool :=
  controller.inMode .position || controller.inMode .velocity

/-- What the controller adds to the torque of one joint. -/
def ControllerData.contribution (joint : Nat) (controller : ControllerData α) : α :=
  controller.premultiplier * controller.controlSignal.jointsTorques.getD joint 0

/-- The sum over all torque controllers at one joint. -/
def torqueSum (snapshot : List (ControllerData α)) (joint : Nat) : α :=
  ((snapshot.filter (ControllerData.inMode .torque)).map (ControllerData.contribution joint)).sum

/-- The message whose references and gains the layer has after the given controllers: that
of the first impedance controller, or else its own from earlier cycles. -/
def referencesAfter (msg : ControlSignal α) (visited : List (ControllerData α)) :
    ControlSignal α :=
  (visited.find? (ControllerData.inMode .impedance)).elim msg ControllerData.controlSignal

/-- Case one: the first position or velocity controller sets its mode and its
setpoint. Everything else is zero, in vectors of the lengths that it finds. -/
structure FollowsSetpoint (joints : Nat) (before : ControlSignal α) (first : ControllerData α)
    (published : ControlSignal α) : Prop where
  mode : published.controlMode = first.controlSignal.controlMode
  position : first.inMode .position = true →
    published.jointsPosition = first.controlSignal.jointsPosition ∧
      published.jointsVelocity = List.replicate before.jointsVelocity.length 0
  velocity : first.inMode .velocity = true →
    published.jointsVelocity = first.controlSignal.jointsVelocity ∧
      published.jointsPosition = List.replicate before.jointsPosition.length 0
  torques : published.jointsTorques = List.replicate joints 0
  kp : published.kp = List.replicate before.kp.length 0
  kd : published.kd = List.replicate before.kd.length 0

/-- Case two: the first impedance controller sets the mode, the references and the
gains; its torques are added to those of all torque controllers. -/
structure FollowsImpedance (joints : Nat) (snapshot : List (ControllerData α))
    (first : ControllerData α) (published : ControlSignal α) : Prop where
  mode : published.controlMode = ControlMode.impedance.toByte
  position : published.jointsPosition = first.controlSignal.jointsPosition
  velocity : published.jointsVelocity = first.controlSignal.jointsVelocity
  kp : published.kp = first.controlSignal.kp
  kd : published.kd = first.controlSignal.kd
  torques : published.jointsTorques =
    (List.range joints).map fun joint => torqueSum snapshot joint + first.contribution joint

/-- Case three: the torques of all controllers are added up. -/
structure FollowsTorques (joints : Nat) (snapshot : List (ControllerData α))
    (published : ControlSignal α) : Prop where
  mode : published.controlMode = ControlMode.torque.toByte
  torques : published.jointsTorques = (List.range joints).map fun joint =>
    (snapshot.map (ControllerData.contribution joint)).sum

/-- The three cases, by the first position or velocity controller of the snapshot
and by its first impedance controller, for the message that the layer starts with. -/
def Arbitrates (joints : Nat) (msg : ControlSignal α) (snapshot : List (ControllerData α))
    (published : ControlSignal α) : Prop :=
  match snapshot.find? ControllerData.setsPoint,
    snapshot.find? (ControllerData.inMode .impedance) with
  | some first, _ => FollowsSetpoint joints
      (referencesAfter msg (snapshot.takeWhile fun controller => !controller.setsPoint)) first
      published
  | none, some first => FollowsImpedance joints snapshot first published
  | none, none => FollowsTorques joints snapshot published

/-! ### Torques -/

/-- The inner loop never changes the number of torques. -/
theorem addTorques_length {premultiplier : α} {torques controllerTorques sums : List α}
    (added : addTorques premultiplier torques controllerTorques = some sums) :
    sums.length = torques.length := by
  induction torques, controllerTorques using addTorques.induct generalizing sums with
  | case1 torques =>
    obtain rfl : torques = sums := by simpa [addTorques] using added
    rfl
  | case2 => simp [addTorques] at added
  | case3 torque torques controllerTorque controllerTorques ih =>
    simp only [addTorques, Option.map_eq_some_iff] at added
    obtain ⟨rest, added, rfl⟩ := added
    simp [ih added]

/-- On vectors of one length the inner loop adds entry by entry. -/
theorem addTorques_of_length {premultiplier : α} {torques controllerTorques : List α}
    (same : controllerTorques.length = torques.length) :
    addTorques premultiplier torques controllerTorques =
      some (List.zipWith (fun torque controllerTorque => torque + premultiplier * controllerTorque)
        torques controllerTorques) := by
  induction torques, controllerTorques using addTorques.induct with
  | case1 torques =>
    obtain rfl : torques = [] := List.length_eq_zero_iff.mp (by simpa using same.symm)
    rfl
  | case2 => simp at same
  | case3 torque torques controllerTorque controllerTorques ih =>
    simp [addTorques, ih (by simpa using same)]

/-- The contribution of a controller is added to a sum kept for each joint. -/
theorem addTorques_range {joints : Nat} {controller : ControllerData α} (total : Nat → α)
    (sized : controller.controlSignal.jointsTorques.length = joints) :
    addTorques controller.premultiplier ((List.range joints).map total)
        controller.controlSignal.jointsTorques =
      some ((List.range joints).map fun joint => total joint + controller.contribution joint) := by
  rw [addTorques_of_length (by simpa using sized)]
  apply congrArg some
  apply List.ext_getElem
  · simp [sized]
  intro joint inside _
  have bound : joint < controller.controlSignal.jointsTorques.length := by
    simp only [List.length_zipWith] at inside
    omega
  simp [ControllerData.contribution, List.getElem?_eq_getElem bound]

/-- Filling with zeros. -/
theorem fillZero_eq_replicate (values : List α) :
    fillZero values = List.replicate values.length 0 := by
  simp [fillZero]

/-! ### The loop over the snapshot -/

/-- The sum so far: torque controllers, and the first impedance controller. -/
def partialSum (visited : List (ControllerData α)) (joint : Nat) : α :=
  torqueSum visited joint + ((visited.find? (ControllerData.inMode .impedance)).elim 0
    (ControllerData.contribution joint))

/-- The loop invariant, for visited controllers that all are in torque or
impedance mode. -/
structure Accumulated (joints : Nat) (msg : ControlSignal α) (visited : List (ControllerData α))
    (loop : GatherLoop α) : Prop where
  noSetpoint : visited.find? ControllerData.setsPoint = none
  activePosition : loop.activePositionController = false
  activeVelocity : loop.activeVelocityController = false
  activeImpedence : loop.activeImpedenceController =
    (visited.find? (ControllerData.inMode .impedance)).isSome
  modeSetOnce : loop.controlModeSetOnce = !visited.isEmpty
  mode : loop.controlSignalMsg.controlMode =
    if (visited.find? (ControllerData.inMode .impedance)).isSome then ControlMode.impedance.toByte
    else ControlMode.torque.toByte
  torques : loop.controlSignalMsg.jointsTorques = (List.range joints).map (partialSum visited)
  position : loop.controlSignalMsg.jointsPosition = (referencesAfter msg visited).jointsPosition
  velocity : loop.controlSignalMsg.jointsVelocity = (referencesAfter msg visited).jointsVelocity
  kp : loop.controlSignalMsg.kp = (referencesAfter msg visited).kp
  kd : loop.controlSignalMsg.kd = (referencesAfter msg visited).kd

namespace Accumulated

variable {joints : Nat} {visited : List (ControllerData α)} {controller : ControllerData α}
  {loop : GatherLoop α} {msg : ControlSignal α}

/-- A cycle starts with nothing visited. -/
theorem start (sized : msg.jointsTorques.length = joints) :
    Accumulated joints msg [] (GatherLoop.start msg) where
  noSetpoint := rfl
  activePosition := rfl
  activeVelocity := rfl
  activeImpedence := rfl
  modeSetOnce := rfl
  mode := rfl
  torques := by
    have zero : (partialSum [] : Nat → α) = fun _ => 0 := by
      funext joint
      simp [partialSum, torqueSum]
    simp [GatherLoop.start, fillZero, zero, sized]
  position := rfl
  velocity := rfl
  kp := rfl
  kd := rfl

/-- A controller that is not the first impedance controller leaves the mode and the
references as they are. -/
theorem append (holds : Accumulated joints msg visited loop)
    (notSetpoint : controller.setsPoint = false)
    (same : (visited ++ [controller]).find? (ControllerData.inMode .impedance) =
      visited.find? (ControllerData.inMode .impedance)) {torques : List α}
    (summed : torques = (List.range joints).map (partialSum (visited ++ [controller]))) :
    Accumulated joints msg (visited ++ [controller]) { loop with
      controlSignalMsg := { loop.controlSignalMsg with jointsTorques := torques }
      controlModeSetOnce := true } where
  noSetpoint := by simp [List.find?_append, holds.noSetpoint, notSetpoint]
  activePosition := holds.activePosition
  activeVelocity := holds.activeVelocity
  activeImpedence := same ▸ holds.activeImpedence
  modeSetOnce := by simp
  mode := same ▸ holds.mode
  torques := summed
  position := by simpa only [referencesAfter, same] using holds.position
  velocity := by simpa only [referencesAfter, same] using holds.velocity
  kp := by simpa only [referencesAfter, same] using holds.kp
  kd := by simpa only [referencesAfter, same] using holds.kd

/-- A torque controller adds its torques. Setting the mode once changes nothing for
it: the cycle has started in torque mode. -/
theorem torque (holds : Accumulated joints msg visited loop)
    (mode : controller.controlSignal.controlMode = ControlMode.torque.toByte)
    (sized : controller.controlSignal.jointsTorques.length = joints) :
    ∃ next, gatherStep controller loop = some (.yield next) ∧
      Accumulated joints msg (visited ++ [controller]) next := by
  have kept : (if loop.controlModeSetOnce then loop.controlSignalMsg
      else { loop.controlSignalMsg with controlMode := ControlMode.torque.toByte }) =
      loop.controlSignalMsg := by
    cases visited with
    | nil =>
      have before : loop.controlSignalMsg.controlMode = ControlMode.torque.toByte := holds.mode
      rw [← before]
      split <;> rfl
    | cons => rw [holds.modeSetOnce]; rfl
  have added := addTorques_range (partialSum visited) sized
  rw [← holds.torques] at added
  have torqueMode : controller.inMode .torque = true := by simp [ControllerData.inMode, mode]
  have notImpedance : controller.inMode .impedance = false := by simp [ControllerData.inMode, mode]
  have notSetpoint : controller.setsPoint = false := by
    simp [ControllerData.setsPoint, ControllerData.inMode, mode]
  have same : (visited ++ [controller]).find? (ControllerData.inMode .impedance) =
      visited.find? (ControllerData.inMode .impedance) := by
    simp [List.find?_append, notImpedance]
  refine ⟨{ loop with
    controlSignalMsg := { loop.controlSignalMsg with
      jointsTorques := (List.range joints).map fun joint =>
        partialSum visited joint + controller.contribution joint }
    controlModeSetOnce := true }, ?_, ?_⟩
  · have aggregate := holds.mode
    simp only [gatherStep, mode, kept, ControlMode.toByte_beq]
    split at aggregate <;> simp [aggregate, added]
  · apply holds.append notSetpoint same
    apply List.map_congr_left
    intro joint _
    simp only [partialSum, same, torqueSum, List.filter_append, List.filter_cons, torqueMode]
    simp [add_right_comm]

/-- The first impedance controller sets mode and references and adds its torques. -/
theorem firstImpedance (holds : Accumulated joints msg visited loop)
    (mode : controller.controlSignal.controlMode = ControlMode.impedance.toByte)
    (sized : controller.controlSignal.jointsTorques.length = joints)
    (first : visited.find? (ControllerData.inMode .impedance) = none) :
    ∃ next, gatherStep controller loop = some (.yield next) ∧
      Accumulated joints msg (visited ++ [controller]) next := by
  have added := addTorques_range (partialSum visited) sized
  rw [← holds.torques] at added
  have impedanceMode : controller.inMode .impedance = true := by
    simp [ControllerData.inMode, mode]
  have notTorque : controller.inMode .torque = false := by simp [ControllerData.inMode, mode]
  have notSetpoint : controller.setsPoint = false := by
    simp [ControllerData.setsPoint, ControllerData.inMode, mode]
  have found : (visited ++ [controller]).find? (ControllerData.inMode .impedance) =
      some controller := by
    simp [List.find?_append, first, impedanceMode]
  have inactive : loop.activeImpedenceController = false := by simp [holds.activeImpedence, first]
  refine ⟨{ loop with
    controlSignalMsg := { loop.controlSignalMsg with
      controlMode := ControlMode.impedance.toByte
      jointsPosition := controller.controlSignal.jointsPosition
      jointsVelocity := controller.controlSignal.jointsVelocity
      kp := controller.controlSignal.kp
      kd := controller.controlSignal.kd
      jointsTorques := (List.range joints).map fun joint =>
        partialSum visited joint + controller.contribution joint }
    activeImpedenceController := true
    controlModeSetOnce := true }, ?_, ?_⟩
  · simp only [gatherStep, mode, inactive, ControlMode.toByte_beq]
    cases loop.controlModeSetOnce <;> simp [added]
  · constructor
    case noSetpoint => simp [List.find?_append, holds.noSetpoint, notSetpoint]
    case activePosition => exact holds.activePosition
    case activeVelocity => exact holds.activeVelocity
    case activeImpedence => simp [found]
    case modeSetOnce => simp
    case mode => simp [found]
    case torques =>
      apply List.map_congr_left
      intro joint _
      simp [partialSum, first, found, torqueSum, List.filter_append, notTorque]
    case position | velocity | kp | kd => simp [referencesAfter, found]

/-- A later impedance controller is passed over. -/
theorem laterImpedance (holds : Accumulated joints msg visited loop)
    (mode : controller.controlSignal.controlMode = ControlMode.impedance.toByte)
    {first : ControllerData α}
    (earlier : visited.find? (ControllerData.inMode .impedance) = some first) :
    ∃ next, gatherStep controller loop = some (.yield next) ∧
      Accumulated joints msg (visited ++ [controller]) next := by
  have notTorque : controller.inMode .torque = false := by simp [ControllerData.inMode, mode]
  have notSetpoint : controller.setsPoint = false := by
    simp [ControllerData.setsPoint, ControllerData.inMode, mode]
  have same : (visited ++ [controller]).find? (ControllerData.inMode .impedance) =
      visited.find? (ControllerData.inMode .impedance) := by
    simp [List.find?_append, earlier]
  have active : loop.activeImpedenceController = true := by simp [holds.activeImpedence, earlier]
  have setOnce : loop.controlModeSetOnce = true := by
    rw [holds.modeSetOnce]
    cases visited with
    | nil => simp at earlier
    | cons => rfl
  refine ⟨{ loop with controlModeSetOnce := true }, ?_, ?_⟩
  · simp [gatherStep, mode, active, setOnce]
  · apply holds.append notSetpoint same
    rw [holds.torques]
    apply List.map_congr_left
    intro joint _
    simp only [partialSum, same, torqueSum, List.filter_append]
    simp [notTorque]

/-- The first position or velocity controller ends the loop. -/
theorem setpoint (holds : Accumulated joints msg visited loop)
    (mode : controller.controlSignal.controlMode = ControlMode.position.toByte ∨
      controller.controlSignal.controlMode = ControlMode.velocity.toByte) :
    ∃ final, gatherStep controller loop = some (.done final) ∧
      FollowsSetpoint joints (referencesAfter msg visited) controller final.controlSignalMsg := by
  have zeros : fillZero loop.controlSignalMsg.jointsTorques = List.replicate joints 0 := by
    simp [fillZero_eq_replicate, holds.torques]
  have kp : fillZero loop.controlSignalMsg.kp =
      List.replicate (referencesAfter msg visited).kp.length 0 := by
    rw [fillZero_eq_replicate, holds.kp]
  have kd : fillZero loop.controlSignalMsg.kd =
      List.replicate (referencesAfter msg visited).kd.length 0 := by
    rw [fillZero_eq_replicate, holds.kd]
  obtain mode | mode := mode
  · refine ⟨{ loop with
      controlModeSetOnce := true
      controlSignalMsg := { loop.controlSignalMsg with
        controlMode := ControlMode.position.toByte
        jointsPosition := controller.controlSignal.jointsPosition
        jointsVelocity := fillZero loop.controlSignalMsg.jointsVelocity
        jointsTorques := fillZero loop.controlSignalMsg.jointsTorques
        kp := fillZero loop.controlSignalMsg.kp
        kd := fillZero loop.controlSignalMsg.kd } }, ?_, ?_⟩
    · simp only [gatherStep, mode, holds.activePosition, ControlMode.toByte_beq]
      cases loop.controlModeSetOnce <;> rfl
    · have notVelocity : controller.inMode .velocity = false := by
        simp [ControllerData.inMode, mode]
      have velocity : fillZero loop.controlSignalMsg.jointsVelocity =
          List.replicate (referencesAfter msg visited).jointsVelocity.length 0 := by
        rw [fillZero_eq_replicate, holds.velocity]
      exact ⟨mode.symm, fun _ => ⟨rfl, velocity⟩, by simp [notVelocity], zeros, kp, kd⟩
  · refine ⟨{ loop with
      controlModeSetOnce := true
      controlSignalMsg := { loop.controlSignalMsg with
        controlMode := ControlMode.velocity.toByte
        jointsVelocity := controller.controlSignal.jointsVelocity
        jointsPosition := fillZero loop.controlSignalMsg.jointsPosition
        jointsTorques := fillZero loop.controlSignalMsg.jointsTorques
        kp := fillZero loop.controlSignalMsg.kp
        kd := fillZero loop.controlSignalMsg.kd } }, ?_, ?_⟩
    · simp only [gatherStep, mode, holds.activeVelocity, ControlMode.toByte_beq]
      cases loop.controlModeSetOnce <;> rfl
    · have notPosition : controller.inMode .position = false := by
        simp [ControllerData.inMode, mode]
      have position : fillZero loop.controlSignalMsg.jointsPosition =
          List.replicate (referencesAfter msg visited).jointsPosition.length 0 := by
        rw [fillZero_eq_replicate, holds.position]
      exact ⟨mode.symm, by simp [notPosition], fun _ => ⟨rfl, position⟩, zeros, kp, kd⟩

/-- A controller that is neither in position nor in velocity mode extends what has
been accumulated. -/
theorem extend (holds : Accumulated joints msg visited loop)
    (mode : controller.controlSignal.controlMode = ControlMode.torque.toByte ∨
      controller.controlSignal.controlMode = ControlMode.impedance.toByte)
    (sized : controller.controlSignal.jointsTorques.length = joints) :
    ∃ next, gatherStep controller loop = some (.yield next) ∧
      Accumulated joints msg (visited ++ [controller]) next := by
  obtain mode | mode := mode
  · exact holds.torque mode sized
  · cases earlier : visited.find? (ControllerData.inMode .impedance) with
    | none => exact holds.firstImpedance mode sized earlier
    | some first => exact holds.laterImpedance mode earlier

end Accumulated

omit [Semiring α] in
/-- Without impedance controllers and setpoints all controllers are torque
controllers. -/
theorem inMode_torque_of_find? {snapshot : List (ControllerData α)}
    (known : ∀ controller ∈ snapshot, ∃ mode : ControlMode,
      controller.controlSignal.controlMode = mode.toByte)
    (noSetpoint : snapshot.find? ControllerData.setsPoint = none)
    (noImpedance : snapshot.find? (ControllerData.inMode .impedance) = none) :
    ∀ controller ∈ snapshot, controller.inMode .torque = true := by
  intro controller member
  obtain ⟨mode, same⟩ := known controller member
  have notSetpoint := List.find?_eq_none.mp noSetpoint controller member
  have notImpedance := List.find?_eq_none.mp noImpedance controller member
  cases mode <;> simp_all [ControllerData.setsPoint, ControllerData.inMode]

/-- What has been accumulated over a whole snapshot without setpoints. -/
theorem Accumulated.arbitrates {joints : Nat} {snapshot : List (ControllerData α)}
    {loop : GatherLoop α} {msg : ControlSignal α} (holds : Accumulated joints msg snapshot loop)
    (known : ∀ controller ∈ snapshot, ∃ mode : ControlMode,
      controller.controlSignal.controlMode = mode.toByte) :
    Arbitrates joints msg snapshot loop.controlSignalMsg := by
  have mode := holds.mode
  have torques := holds.torques
  simp only [Arbitrates, holds.noSetpoint]
  cases found : snapshot.find? (ControllerData.inMode .impedance) with
  | some first =>
    have references : referencesAfter msg snapshot = first.controlSignal := by
      simp [referencesAfter, found]
    refine ⟨by simpa [found] using mode, references ▸ holds.position, references ▸ holds.velocity,
      references ▸ holds.kp, references ▸ holds.kd, ?_⟩
    rw [torques]
    apply List.map_congr_left
    intro joint _
    simp [partialSum, found]
  | none =>
    have all := inMode_torque_of_find? known holds.noSetpoint found
    refine ⟨by simpa [found] using mode, ?_⟩
    rw [torques]
    apply List.map_congr_left
    intro joint _
    simp [partialSum, found, torqueSum, List.filter_eq_self.mpr all]

/-- The loop over a snapshot ends, with a message that follows the three cases. -/
theorem forIn_gatherStep {joints : Nat} {snapshot : List (ControllerData α)}
    {msg : ControlSignal α} (sized : msg.jointsTorques.length = joints)
    (known : ∀ controller ∈ snapshot, ∃ mode : ControlMode,
      controller.controlSignal.controlMode = mode.toByte)
    (lengths : ∀ controller ∈ snapshot,
      controller.controlSignal.jointsTorques.length = joints) :
    ∃ final, forIn snapshot (GatherLoop.start msg) gatherStep = some final ∧
      Arbitrates joints msg snapshot final.controlSignalMsg := by
  apply Loop.forIn_total (Accumulated joints msg) _ _ (fun loop holds => holds.arbitrates known)
    (Accumulated.start sized)
  intro visited controller rest loop split holds
  have member : controller ∈ snapshot := by simp [split]
  obtain ⟨mode, same⟩ := known controller member
  have setpoint : ∀ final : GatherLoop α, controller.setsPoint = true →
      FollowsSetpoint joints (referencesAfter msg visited) controller final.controlSignalMsg →
      Arbitrates joints msg snapshot final.controlSignalMsg := by
    intro final sets follows
    have first : snapshot.find? ControllerData.setsPoint = some controller := by
      simp [split, List.find?_append, holds.noSetpoint, sets]
    have earlier : snapshot.takeWhile (fun controller => !controller.setsPoint) = visited := by
      have none := List.find?_eq_none.mp holds.noSetpoint
      rw [split, List.takeWhile_append_of_pos (by simpa using none)]
      simp [sets]
    simpa only [Arbitrates, first, earlier] using follows
  cases mode with
  | torque => exact .inl (holds.extend (.inl same) (lengths controller member))
  | impedance => exact .inl (holds.extend (.inr same) (lengths controller member))
  | position =>
    obtain ⟨final, leaves, follows⟩ := holds.setpoint (.inl same)
    exact .inr ⟨final, leaves,
      setpoint final (by simp [ControllerData.setsPoint, ControllerData.inMode, same]) follows⟩
  | velocity =>
    obtain ⟨final, leaves, follows⟩ := holds.setpoint (.inr same)
    exact .inr ⟨final, leaves,
      setpoint final (by simp [ControllerData.setsPoint, ControllerData.inMode, same]) follows⟩

/-! ### Cycles -/

/-- No controller whatsoever changes the number of torques. -/
theorem gatherStep_length {controller : ControllerData α} {loop : GatherLoop α}
    {outcome : ForInStep (GatherLoop α)} (steps : gatherStep controller loop = some outcome) :
    outcome.value.controlSignalMsg.jointsTorques.length =
      loop.controlSignalMsg.jointsTorques.length := by
  have kept : (if loop.controlModeSetOnce then loop.controlSignalMsg
      else { loop.controlSignalMsg with
        controlMode := controller.controlSignal.controlMode }).jointsTorques =
      loop.controlSignalMsg.jointsTorques := by
    split <;> rfl
  simp only [gatherStep] at steps
  generalize (if loop.controlModeSetOnce then loop.controlSignalMsg else
    { loop.controlSignalMsg with controlMode := controller.controlSignal.controlMode }) = msg
    at kept steps
  split at steps
  · obtain rfl := Option.some.inj steps
    simp [fillZero, kept]
  split at steps
  · obtain rfl := Option.some.inj steps
    simp [fillZero, kept]
  split at steps
  · obtain ⟨torques, added, rfl⟩ := Option.map_eq_some_iff.mp steps
    have length := addTorques_length added
    split at length <;> simpa [kept] using length
  · obtain rfl := Option.some.inj steps
    simp [kept]

/-- In every reachable state of the layer its message has a torque for every joint. -/
theorem reachable_length {joints : Nat} {signals : Signals α}
    (reachable : (gatherSystem α joints).Reachable signals) :
    signals.controlSignalMsg.jointsTorques.length = joints := by
  apply reachable.invariant (fun signals => signals.controlSignalMsg.jointsTorques.length = joints)
  · simp [gatherSystem, ControlSignal.sized]
  rintro before ⟨now, snapshot⟩ next length _ taken
  obtain ⟨loop, loops, rfl⟩ := Option.map_eq_some_iff.mp taken
  apply Loop.forIn_preserves
    (fun loop : GatherLoop α => loop.controlSignalMsg.jointsTorques.length = joints) _ _ loops
  · intro controller loop outcome length steps
    exact (gatherStep_length steps).trans length
  simpa [GatherLoop.start, fillZero] using length

/-- After any earlier cycles, a cycle over a snapshot of controllers in known modes
with a torque for every joint publishes a message that follows the three cases. -/
theorem published_arbitrates {joints : Nat} {signals : Signals α}
    (reachable : (gatherSystem α joints).Reachable signals) (now : Nat)
    (snapshot : List (ControllerData α))
    (known : ∀ controller ∈ snapshot, ∃ mode : ControlMode,
      controller.controlSignal.controlMode = mode.toByte)
    (lengths : ∀ controller ∈ snapshot,
      controller.controlSignal.jointsTorques.length = joints) :
    ∃ next, (gatherSystem α joints).step signals (now, snapshot) = some next ∧
      Arbitrates joints signals.controlSignalMsg snapshot next.writerControlSignal := by
  obtain ⟨final, loops, follows⟩ := forIn_gatherStep (reachable_length reachable) known lengths
  refine ⟨_, congrArg (Option.map _) loops, ?_⟩
  unfold Arbitrates at follows ⊢
  split at follows
  · exact ⟨follows.mode, follows.position, follows.velocity, follows.torques, follows.kp,
      follows.kd⟩
  · exact ⟨follows.mode, follows.position, follows.velocity, follows.kp, follows.kd,
      follows.torques⟩
  · exact ⟨follows.mode, follows.torques⟩

end Cycle

/-- A controller of a two joint robot. -/
def twoJoints (mode : ControlMode) (torques : List ℤ) : ControllerData ℤ where
  premultiplier := 1
  controlSignal := { ControlSignal.sized 2 with
    controlMode := mode.toByte
    jointsTorques := torques }

/-- A second impedance controller between torque controllers is passed over. -/
theorem published_two_impedance :
    (∃ next, (gatherSystem ℤ 2).step (gatherSystem ℤ 2).initial (7, [twoJoints .torque [1, 2],
        twoJoints .impedance [10, 20], twoJoints .impedance [1000, 2000],
        twoJoints .torque [100, 200]]) = some next ∧
      Arbitrates 2 (.sized 2) [twoJoints .torque [1, 2], twoJoints .impedance [10, 20],
        twoJoints .impedance [1000, 2000], twoJoints .torque [100, 200]]
        next.writerControlSignal ∧
      next.writerControlSignal.jointsTorques = [111, 222]) := by
  have reachable : (gatherSystem ℤ 2).Reachable (gatherSystem ℤ 2).initial := .initial
  obtain ⟨next, taken, follows⟩ := published_arbitrates reachable 7
    [twoJoints .torque [1, 2], twoJoints .impedance [10, 20], twoJoints .impedance [1000, 2000],
      twoJoints .torque [100, 200]]
    (by simp only [List.forall_mem_cons, List.not_mem_nil, false_implies, implies_true, and_true]
        exact ⟨⟨.torque, rfl⟩, ⟨.impedance, rfl⟩, ⟨.impedance, rfl⟩, ⟨.torque, rfl⟩⟩)
    (by decide)
  exact ⟨next, taken, follows, follows.torques⟩

end Dls2.ControlLayer
