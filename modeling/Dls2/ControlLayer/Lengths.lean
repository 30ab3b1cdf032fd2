import Mathlib.Data.List.Induction
import Mathlib.Tactic.MkIffOfInductiveProp
import Dls2.ControlLayer.Residue

/-!
# Vectors of other lengths

Nothing checks how long the vectors of a controller's message are. Its torques are
added by index to those of the layer, so that a longer vector is written past the end;
its references and gains replace those of the layer, which are later filled with zeros
at whatever length they have. This module says which snapshots a cycle survives with a
message that has one entry per joint in every vector.
-/

namespace Dls2.ControlLayer

open Dls2.Transition

/-- References and gains have one entry per joint. -/
@[mk_iff] structure Setpoints.Sized {α : Type} (joints : Nat) (setpoints : Setpoints α) : Prop where
  position : setpoints.position.length = joints
  velocity : setpoints.velocity.length = joints
  kp : setpoints.kp.length = joints
  kd : setpoints.kd.length = joints

theorem ControlSignal.sized_iff {α : Type} {joints : Nat} {msg : ControlSignal α} :
    msg.Sized joints ↔ msg.jointsTorques.length = joints ∧ msg.setpoints.Sized joints := by
  constructor
  · intro sized
    exact ⟨sized.torques, sized.position, sized.velocity, sized.kp, sized.kd⟩
  · rintro ⟨torques, setpoints⟩
    exact ⟨setpoints.position, setpoints.velocity, torques, setpoints.kp, setpoints.kd⟩

section Condition

variable {α : Type}

/-- The mode of the layer's message when the controller is visited after others, none of
which has ended the loop. -/
def aggregateMode (before : List (ControllerData α)) (controller : ControllerData α) : UInt8 :=
  if before.any (ControllerData.inMode .impedance) then ControlMode.impedance.toByte
  else (before.head?.getD controller).controlSignal.controlMode

/-- The torques of the controller are added up. -/
def ControllerData.Adds (before : List (ControllerData α)) (controller : ControllerData α) :
    Prop :=
  controller.inMode .torque = true ∧
      (aggregateMode before controller = ControlMode.torque.toByte ∨
        aggregateMode before controller = ControlMode.impedance.toByte) ∨
    controller.inMode .impedance = true ∧ before.any (ControllerData.inMode .impedance) = false

instance (before : List (ControllerData α)) (controller : ControllerData α) :
    Decidable (controller.Adds before) :=
  inferInstanceAs (Decidable (_ ∨ _))

/-- The controllers before the first one in position or velocity mode. -/
def heard (snapshot : List (ControllerData α)) : List (ControllerData α) :=
  snapshot.takeWhile fun controller => !controller.setsPoint

/-- The first controller in position or velocity mode, if it is in the given one. -/
def deciding (mode : ControlMode) (snapshot : List (ControllerData α)) :
    Option (ControllerData α) :=
  (snapshot.find? ControllerData.setsPoint).filter (ControllerData.inMode mode)

/-- The first impedance controller that the loop comes to. -/
def leading (snapshot : List (ControllerData α)) : Option (ControllerData α) :=
  (heard snapshot).find? (ControllerData.inMode .impedance)

/-- The vectors of the snapshot that a cycle goes by have as many entries as the robot
has joints; those that are added have no more. -/
@[mk_iff] structure Fitting (joints : Nat) (snapshot : List (ControllerData α)) : Prop where
  torques : ∀ before controller after, heard snapshot = before ++ controller :: after →
    controller.Adds before → controller.controlSignal.jointsTorques.length ≤ joints
  position : ∀ controller ∈ (deciding .position snapshot).or (leading snapshot),
    controller.controlSignal.jointsPosition.length = joints
  velocity : ∀ controller ∈ (deciding .velocity snapshot).or (leading snapshot),
    controller.controlSignal.jointsVelocity.length = joints
  kp : ∀ controller ∈ leading snapshot, controller.controlSignal.kp.length = joints
  kd : ∀ controller ∈ leading snapshot, controller.controlSignal.kd.length = joints

/-- One controller more decides the mode if it is the first impedance controller. -/
theorem aggregateMode_append (before : List (ControllerData α))
    (controller later : ControllerData α) : aggregateMode (before ++ [controller]) later =
      if controller.inMode .impedance then ControlMode.impedance.toByte
      else aggregateMode before controller := by
  have head : (before ++ [controller]).head?.getD later = before.head?.getD controller := by
    cases before <;> rfl
  unfold aggregateMode
  rw [head, List.any_append, List.any_cons, List.any_nil, Bool.or_false]
  cases controller.inMode .impedance with
  | true => simp
  | false => rw [Bool.or_false, if_neg Bool.false_ne_true]

theorem heard_append {visited : List (ControllerData α)}
    (silent : visited.find? ControllerData.setsPoint = none) (rest : List (ControllerData α)) :
    heard (visited ++ rest) = visited ++ heard rest := by
  apply List.takeWhile_append_of_pos
  intro controller member
  simpa using List.find?_eq_none.mp silent controller member

end Condition

section Cycle

variable {α : Type} [Semiring α]

/-- The inner loop writes past the end exactly when the vector of the controller is
longer. -/
theorem addTorques_isSome (premultiplier : α) (torques controllerTorques : List α) :
    (addTorques premultiplier torques controllerTorques).isSome = true ↔
      controllerTorques.length ≤ torques.length := by
  induction torques, controllerTorques using addTorques.induct with
  | case1 torques => simp [addTorques]
  | case2 => simp [addTorques]
  | case3 torque torques controllerTorque controllerTorques ih => simp [addTorques, ih]

/-! ### One controller -/

/-- The loop invariant, for visited controllers that all are in torque, impedance or
unknown mode. -/
structure Held (joints : Nat) (found : Setpoints α) (visited : List (ControllerData α))
    (loop : GatherLoop α) : Prop where
  silent : visited.find? ControllerData.setsPoint = none
  activePosition : loop.activePositionController = false
  activeVelocity : loop.activeVelocityController = false
  activeImpedence : loop.activeImpedenceController =
    visited.any (ControllerData.inMode .impedance)
  mode : ∀ controller, (loop.entered controller).controlMode = aggregateMode visited controller
  torques : loop.controlSignalMsg.jointsTorques.length = joints
  setpoints : loop.controlSignalMsg.setpoints =
    ((visited.find? (ControllerData.inMode .impedance)).map
      fun first => first.controlSignal.setpoints).getD found

namespace Held

variable {joints : Nat} {found : Setpoints α} {visited : List (ControllerData α)}
  {controller : ControllerData α} {loop : GatherLoop α}

theorem start {msg : ControlSignal α} (sized : msg.jointsTorques.length = joints) :
    Held joints msg.setpoints [] (GatherLoop.start msg) where
  silent := rfl
  activePosition := rfl
  activeVelocity := rfl
  activeImpedence := rfl
  mode := fun _ => rfl
  torques := by simpa [GatherLoop.start, fillZero] using sized
  setpoints := rfl

/-- The message that a position or velocity controller leaves the loop with. -/
theorem setpoint (holds : Held joints found visited loop) (sets : controller.setsPoint = true) :
    ∃ final, gatherStep controller loop = some (.done final) ∧
      final.controlSignalMsg.jointsTorques.length = joints ∧
      final.controlSignalMsg.setpoints =
        { position := if controller.inMode .position then controller.controlSignal.jointsPosition
            else fillZero loop.controlSignalMsg.jointsPosition
          velocity := if controller.inMode .velocity then controller.controlSignal.jointsVelocity
            else fillZero loop.controlSignalMsg.jointsVelocity
          kp := fillZero loop.controlSignalMsg.kp
          kd := fillZero loop.controlSignalMsg.kd } := by
  obtain ⟨setpoints, torques⟩ := loop.entered_same controller
  have length := holds.torques
  have position : (loop.entered controller).jointsPosition = loop.controlSignalMsg.jointsPosition :=
    congrArg Setpoints.position setpoints
  have velocity : (loop.entered controller).jointsVelocity = loop.controlSignalMsg.jointsVelocity :=
    congrArg Setpoints.velocity setpoints
  have kp : (loop.entered controller).kp = loop.controlSignalMsg.kp :=
    congrArg Setpoints.kp setpoints
  have kd : (loop.entered controller).kd = loop.controlSignalMsg.kd :=
    congrArg Setpoints.kd setpoints
  rw [← position, ← velocity, ← kp, ← kd]
  rw [← torques] at length
  clear position velocity kp kd setpoints torques
  simp only [ControllerData.setsPoint, ControllerData.inMode, Bool.or_eq_true] at sets
  simp only [gatherStep, GatherLoop.entered_eq, holds.activePosition, holds.activeVelocity,
    Bool.not_false, Bool.and_true, ControllerData.inMode]
  generalize loop.entered controller = msg at length
  rcases sets with position | velocity
  · have other : (controller.controlSignal.controlMode == ControlMode.velocity.toByte) = false := by
      rw [beq_iff_eq.mp position]
      rfl
    exact ⟨_, if_pos position, by simpa [fillZero] using length, by simp [position, other,
      ControlSignal.setpoints]⟩
  · have other : (controller.controlSignal.controlMode == ControlMode.position.toByte) = false := by
      rw [beq_iff_eq.mp velocity]
      rfl
    simp only [other, velocity, Bool.false_eq_true, if_false, if_true]
    exact ⟨_, rfl, by simpa [fillZero] using length, by simp [ControlSignal.setpoints]⟩

/-- The first impedance controller replaces references and gains. -/
def replaced (controller : ControllerData α) (first : Bool) (msg : ControlSignal α) :
    ControlSignal α :=
  if first then { msg with
    controlMode := ControlMode.impedance.toByte
    jointsPosition := controller.controlSignal.jointsPosition
    jointsVelocity := controller.controlSignal.jointsVelocity
    kp := controller.controlSignal.kp
    kd := controller.controlSignal.kd }
  else msg

/-- The controller is the first in impedance mode. -/
def isFirst (visited : List (ControllerData α)) (controller : ControllerData α) : Bool :=
  controller.inMode .impedance && !visited.any (ControllerData.inMode .impedance)

/-- What is left after a controller that does not end the loop. -/
def after (controller : ControllerData α) (visited : List (ControllerData α))
    (loop : GatherLoop α) (torques : List α) : GatherLoop α :=
  let first := isFirst visited controller
  { loop with
    controlSignalMsg :=
      { replaced controller first (loop.entered controller) with jointsTorques := torques }
    activeImpedenceController := loop.activeImpedenceController || first
    controlModeSetOnce := true }

/-- The body of the loop, for a controller that does not end it. -/
theorem gatherStep_eq (holds : Held joints found visited loop)
    (silent : controller.setsPoint = false) : gatherStep controller loop =
      if controller.Adds visited then
        (addTorques controller.premultiplier loop.controlSignalMsg.jointsTorques
          controller.controlSignal.jointsTorques).map fun torques =>
            .yield (after controller visited loop torques)
      else some (.yield (after controller visited loop loop.controlSignalMsg.jointsTorques)) := by
  have mode := holds.mode controller
  have torques := (loop.entered_same controller).2
  have active := holds.activeImpedence
  simp only [ControllerData.setsPoint, ControllerData.inMode, Bool.or_eq_false_iff] at silent
  have adds : controller.Adds visited ↔
      (controller.controlSignal.controlMode == ControlMode.torque.toByte &&
          aggregateMode visited controller == ControlMode.torque.toByte ||
        aggregateMode visited controller == ControlMode.impedance.toByte &&
          controller.controlSignal.controlMode == ControlMode.torque.toByte ||
        isFirst visited controller) = true := by
    simp only [ControllerData.Adds, isFirst, ControllerData.inMode, Bool.or_eq_true,
      Bool.and_eq_true, beq_iff_eq, Bool.not_eq_true']
    tauto
  have first : (controller.controlSignal.controlMode == ControlMode.impedance.toByte &&
      !loop.activeImpedenceController) = isFirst visited controller := by
    rw [active]
    rfl
  simp only [gatherStep, GatherLoop.entered_eq, silent.1, silent.2, mode, first, Bool.false_and,
    Bool.false_eq_true, if_false, adds]
  split
  next =>
    have kept : (replaced controller (isFirst visited controller)
        (loop.entered controller)).jointsTorques = loop.controlSignalMsg.jointsTorques := by
      unfold replaced
      split <;> exact torques
    rw [← kept]
    rfl
  next passed =>
    have notFirst : isFirst visited controller = false := by
      simp only [Bool.or_eq_true, not_or, Bool.not_eq_true] at passed
      exact passed.2
    simp [after, replaced, notFirst, ← torques]

omit [Semiring α] in
/-- A controller that does not end the loop extends what has been visited. -/
theorem extend (holds : Held joints found visited loop) (silent : controller.setsPoint = false)
    {torques : List α} (length : torques.length = joints) :
    Held joints found (visited ++ [controller]) (after controller visited loop torques) := by
  constructor
  case silent => simp [List.find?_append, holds.silent, silent]
  case activePosition => exact holds.activePosition
  case activeVelocity => exact holds.activeVelocity
  case activeImpedence =>
    simp only [after, isFirst, holds.activeImpedence, List.any_append, List.any_cons, List.any_nil,
      Bool.or_false]
    cases visited.any (ControllerData.inMode .impedance) <;> simp
  case mode =>
    intro later
    have entered : (GatherLoop.entered later (after controller visited loop torques)).controlMode =
        (replaced controller (isFirst visited controller) (loop.entered controller)).controlMode :=
      rfl
    rw [entered, aggregateMode_append]
    cases first : isFirst visited controller with
    | true =>
      have impedance : controller.inMode .impedance = true := (Bool.and_eq_true_iff.mp first).1
      rw [impedance]
      rfl
    | false =>
      have mode := holds.mode controller
      cases impedance : controller.inMode .impedance with
      | true =>
        have earlier : visited.any (ControllerData.inMode .impedance) = true := by
          simpa [isFirst, impedance] using first
        rw [aggregateMode, if_pos earlier] at mode
        exact mode
      | false => exact mode
  case torques => exact length
  case setpoints =>
    have kept : (after controller visited loop torques).controlSignalMsg.setpoints =
        (replaced controller (isFirst visited controller) (loop.entered controller)).setpoints :=
      rfl
    rw [kept, List.find?_append]
    cases first : isFirst visited controller with
    | true =>
      obtain ⟨impedance, noneBefore⟩ := Bool.and_eq_true_iff.mp first
      have absent : visited.find? (ControllerData.inMode .impedance) = none := by
        simpa [List.find?_eq_none] using noneBefore
      simp [absent, impedance, replaced, ControlSignal.setpoints]
    | false =>
      have same := (loop.entered_same controller).1.trans holds.setpoints
      cases before : visited.find? (ControllerData.inMode .impedance) with
      | some leader =>
        rw [before] at same
        exact same
      | none =>
        have notImpedance : controller.inMode .impedance = false := by
          have absent : visited.any (ControllerData.inMode .impedance) = false := by
            simpa [List.find?_eq_none] using before
          simpa [isFirst, absent] using first
        rw [before] at same
        simpa [notImpedance, replaced] using same

omit [Semiring α] in
/-- References and gains are those of the first impedance controller, if there is one. -/
theorem length_iff (holds : Held joints found visited loop) (read : Setpoints α → List α)
    (foundSized : (read found).length = joints) :
    (read loop.controlSignalMsg.setpoints).length = joints ↔
      ∀ leader ∈ visited.find? (ControllerData.inMode .impedance),
        (read leader.controlSignal.setpoints).length = joints := by
  rw [holds.setpoints]
  cases visited.find? (ControllerData.inMode .impedance) with
  | none => simpa using foundSized
  | some leader => simp

end Held

/-! ### The loop -/

section Loop

theorem fits_append {β : Type*} {visited : List β} {last : β} {Adds : List β → β → Prop}
    {Fits : β → Prop}
    (fits : ∀ before one after, visited = before ++ one :: after → Adds before one → Fits one)
    (fitsLast : Adds visited last → Fits last) :
    ∀ before one after, visited ++ [last] = before ++ one :: after → Adds before one →
      Fits one := by
  intro before one after split adds
  cases after using List.reverseRecOn with
  | nil =>
    obtain ⟨rfl, same⟩ := List.append_inj' split rfl
    obtain rfl := List.singleton_inj.mp same
    exact fitsLast adds
  | append_singleton after final =>
    rw [← List.cons_append, ← List.append_assoc] at split
    exact fits before one after (List.append_inj' split rfl).1 adds

variable {joints : Nat} {found : Setpoints α} {visited : List (ControllerData α)}
  {controller : ControllerData α} {loop : GatherLoop α}

omit [Semiring α] in
/-- The loop has come to the end of the snapshot. -/
theorem sized_iff_of_end (holds : Held joints found visited loop) (foundSized : found.Sized joints)
    (fits : ∀ before controller after, visited = before ++ controller :: after →
      controller.Adds before → controller.controlSignal.jointsTorques.length ≤ joints) :
    loop.controlSignalMsg.Sized joints ↔ Fitting joints visited := by
  have all : heard visited = visited := by simpa [heard] using heard_append holds.silent []
  have leader : leading visited = visited.find? (ControllerData.inMode .impedance) := by
    rw [leading, all]
  have undecided : ∀ mode, deciding mode visited = none := by
    intro mode
    rw [deciding, holds.silent]
    rfl
  rw [ControlSignal.sized_iff, and_iff_right holds.torques, Setpoints.sized_iff, fitting_iff, all,
    and_iff_right fits, undecided, undecided, Option.none_or, leader]
  exact and_congr (holds.length_iff Setpoints.position foundSized.position)
    (and_congr (holds.length_iff Setpoints.velocity foundSized.velocity)
      (and_congr (holds.length_iff Setpoints.kp foundSized.kp)
        (holds.length_iff Setpoints.kd foundSized.kd)))

/-- The loop has come to a position or velocity controller. -/
theorem sized_iff_of_setpoint (holds : Held joints found visited loop)
    (foundSized : found.Sized joints)
    (fits : ∀ before controller after, visited = before ++ controller :: after →
      controller.Adds before → controller.controlSignal.jointsTorques.length ≤ joints)
    (sets : controller.setsPoint = true) (rest : List (ControllerData α)) :
    ∃ final, gatherStep controller loop = some (.done final) ∧
      (final.controlSignalMsg.Sized joints ↔ Fitting joints (visited ++ controller :: rest)) := by
  obtain ⟨final, leaves, torques, setpoints⟩ := holds.setpoint sets
  have all : heard (visited ++ controller :: rest) = visited := by
    rw [heard_append holds.silent]
    simp [heard, sets]
  have leader : leading (visited ++ controller :: rest) =
      visited.find? (ControllerData.inMode .impedance) := by
    rw [leading, all]
  have first : ∀ mode, deciding mode (visited ++ controller :: rest) =
      if controller.inMode mode then some controller else none := by
    intro mode
    simp [deciding, List.find?_append, holds.silent, sets, Option.filter]
  refine ⟨final, leaves, ?_⟩
  rw [ControlSignal.sized_iff, and_iff_right torques, Setpoints.sized_iff, fitting_iff, all,
    and_iff_right fits, first, first, leader, setpoints]
  refine and_congr ?_ (and_congr ?_ (and_congr ?_ ?_))
  · cases controller.inMode .position with
    | true => simp
    | false => simpa [fillZero, ControlSignal.setpoints] using
        holds.length_iff Setpoints.position foundSized.position
  · cases controller.inMode .velocity with
    | true => simp
    | false => simpa [fillZero, ControlSignal.setpoints] using
        holds.length_iff Setpoints.velocity foundSized.velocity
  · simpa [fillZero, ControlSignal.setpoints] using
      holds.length_iff Setpoints.kp foundSized.kp
  · simpa [fillZero, ControlSignal.setpoints] using
      holds.length_iff Setpoints.kd foundSized.kd

/-- The rest of the loop ends with a full message exactly when the snapshot fits. -/
theorem forIn_sized_iff (holds : Held joints found visited loop) (foundSized : found.Sized joints)
    (fits : ∀ before controller after, visited = before ++ controller :: after →
      controller.Adds before → controller.controlSignal.jointsTorques.length ≤ joints)
    (rest : List (ControllerData α)) :
    (∃ final, forIn rest loop gatherStep = some final ∧ final.controlSignalMsg.Sized joints) ↔
      Fitting joints (visited ++ rest) := by
  induction rest generalizing visited loop with
  | nil => simpa using sized_iff_of_end holds foundSized fits
  | cons controller rest ih =>
    cases sets : controller.setsPoint with
    | true =>
      obtain ⟨final, leaves, sized⟩ := sized_iff_of_setpoint holds foundSized fits sets rest
      rw [← sized]
      simp [List.forIn_cons, leaves]
    | false =>
      have split : visited ++ controller :: rest = (visited ++ [controller]) ++ rest := by simp
      by_cases overrun : controller.Adds visited ∧
          ¬ controller.controlSignal.jointsTorques.length ≤ joints
      · -- the first torque beyond the last joint is written past the end
        have fails : gatherStep controller loop = none := by
          rw [holds.gatherStep_eq sets, if_pos overrun.1, Option.map_eq_none_iff,
            ← Option.not_isSome_iff_eq_none, addTorques_isSome, holds.torques]
          exact overrun.2
        rw [List.forIn_cons, fails]
        refine iff_of_false (by simp) fun fitting => overrun.2 ?_
        apply fitting.torques visited controller (heard rest) _ overrun.1
        rw [heard_append holds.silent]
        simp [heard, sets]
      · have short : controller.Adds visited →
            controller.controlSignal.jointsTorques.length ≤ joints := by
          simpa using overrun
        have yields : ∃ torques, torques.length = joints ∧
            gatherStep controller loop =
              some (.yield (Held.after controller visited loop torques)) := by
          rw [holds.gatherStep_eq sets]
          split
          next adds =>
            have fitting := short adds
            rw [← holds.torques] at fitting
            obtain ⟨torques, added⟩ := Option.isSome_iff_exists.mp
              ((addTorques_isSome controller.premultiplier _ _).mpr fitting)
            exact ⟨torques, (addTorques_length added).trans holds.torques, by rw [added]; rfl⟩
          next => exact ⟨_, holds.torques, rfl⟩
        obtain ⟨torques, length, yields⟩ := yields
        rw [split, ← ih (holds.extend sets length) (fits_append fits short)]
        simp [List.forIn_cons, yields]

end Loop

/-! ### Histories -/

/-- A cycle whose message is full ends with a full message exactly when the snapshot
fits, and then publishes it. -/
theorem controlSignalGather_sized_iff {joints : Nat} {signals : Signals α}
    (sized : signals.controlSignalMsg.Sized joints) (now : Nat)
    (snapshot : List (ControllerData α)) :
    (∃ next, controlSignalGather signals now snapshot = some next ∧
      next.controlSignalMsg.Sized joints ∧ next.writerControlSignal.Sized joints) ↔
        Fitting joints snapshot := by
  have loops := forIn_sized_iff (Held.start sized.torques) (ControlSignal.sized_iff.mp sized).2
    (by simp) snapshot
  rw [List.nil_append] at loops
  rw [← loops]
  constructor
  · rintro ⟨next, taken, full, -⟩
    obtain ⟨final, ends, rfl⟩ := Option.map_eq_some_iff.mp taken
    exact ⟨final, ends, { full with }⟩
  · rintro ⟨final, ends, full⟩
    exact ⟨_, congrArg (Option.map _) ends, { full with }, { full with }⟩

/-- Every cycle of the history ends, and every message that it publishes has one entry per
joint in every vector. -/
def PublishesSized (joints : Nat) (signals : Signals α)
    (history : List (Nat × List (ControllerData α))) : Prop :=
  ∀ before cycle after, history = before ++ cycle :: after →
    ∃ next, (gatherSystem α joints).runFrom signals (before ++ [cycle]) = some next ∧
      next.writerControlSignal.Sized joints

theorem publishesSized_cons {joints : Nat} {signals next : Signals α}
    {cycle : Nat × List (ControllerData α)} {rest : List (Nat × List (ControllerData α))}
    (taken : controlSignalGather signals cycle.1 cycle.2 = some next) :
    PublishesSized joints signals (cycle :: rest) ↔
      next.writerControlSignal.Sized joints ∧ PublishesSized joints next rest := by
  have step : (gatherSystem α joints).step signals cycle = some next := taken
  constructor
  · intro publishes
    constructor
    · obtain ⟨last, ran, sized⟩ := publishes [] cycle rest rfl
      obtain rfl : next = last := by simpa [step] using ran
      exact sized
    · rintro before later after rfl
      obtain ⟨last, ran, sized⟩ := publishes (cycle :: before) later after rfl
      exact ⟨last, by simpa [step] using ran, sized⟩
  · rintro ⟨sized, publishes⟩ before later after split
    cases before with
    | nil =>
      obtain ⟨rfl, -⟩ := List.cons_eq_cons.mp split
      exact ⟨next, by simp [step], sized⟩
    | cons first before =>
      obtain ⟨rfl, rfl⟩ := List.cons_eq_cons.mp split
      obtain ⟨last, ran, sized⟩ := publishes before later after rfl
      exact ⟨last, by simpa [step] using ran, sized⟩

/-- The same for any thread whose message is full. -/
theorem publishesSized_iff {joints : Nat} {signals : Signals α}
    (sized : signals.controlSignalMsg.Sized joints)
    (history : List (Nat × List (ControllerData α))) :
    PublishesSized joints signals history ↔ ∀ cycle ∈ history, Fitting joints cycle.2 := by
  induction history generalizing signals with
  | nil => simp [PublishesSized]
  | cons cycle rest ih =>
    have fits := controlSignalGather_sized_iff sized cycle.1 cycle.2
    rw [List.forall_mem_cons, ← fits]
    constructor
    · intro publishes
      obtain ⟨next, ran, full⟩ := publishes [] cycle rest rfl
      have taken : controlSignalGather signals cycle.1 cycle.2 = some next := by
        obtain ⟨last, taken, same⟩ := System.runFrom_cons_iff.mp ran
        exact taken.trans same
      obtain ⟨loop, _, rfl⟩ := Option.map_eq_some_iff.mp taken
      exact ⟨⟨_, taken, { full with }, full⟩,
        (ih { full with }).mp ((publishesSized_cons taken).mp publishes).2⟩
    · rintro ⟨⟨next, taken, full, published⟩, later⟩
      exact (publishesSized_cons taken).mpr ⟨published, (ih full).mpr later⟩

/-- Over any history of cycles, no vector is written past its end and every published
message has one entry per joint in every vector, if and only if the snapshots of all
cycles fit. -/
theorem published_sized_iff (joints : Nat) (history : List (Nat × List (ControllerData α))) :
    PublishesSized joints (gatherSystem α joints).initial history ↔
      ∀ cycle ∈ history, Fitting joints cycle.2 :=
  publishesSized_iff (ControlSignal.sized_sized joints) history

end Cycle

/-- A torque controller for three joints on a robot with two. -/
theorem long_torques_overrun :
    ¬ PublishesSized 2 (gatherSystem ℤ 2).initial [(0, [twoJoints .torque [1, 2, 3]])] := by
  intro publishes
  obtain ⟨next, ran, -⟩ := publishes [] (0, [twoJoints .torque [1, 2, 3]]) [] rfl
  cases ran

/-- A position controller for three joints is published as it is. -/
example : ¬ Fitting 2 [positionAt [1, 2, 3]] := fun fitting =>
  absurd (fitting.position (positionAt [1, 2, 3]) rfl) (by decide)

end Dls2.ControlLayer
