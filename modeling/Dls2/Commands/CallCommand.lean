import Dls2.Lib.Terminated
import Dls2.Commands.CommandManager

/-!
# Calling commands

`callCommand` looks the command up among the discovered ones and calls it directly
when the manager owns it; otherwise it sends a message, which the reader of the
command turns into a call. On the first path `callCommand` changes the level itself
after `Command::call` has done so, and a `CommandWithoutArgs` does not override the
overload that is called. On the second path the arguments travel as one string.
-/

namespace Dls2.Commands

open Dls2.Assoc Dls2.Transition

/-- The fields of `dls2_interface::msg::CommandCall` that are used. -/
structure CommandCall where
  owner : String
  commandName : String
  args : String

/-- What a call leaves behind: the manager, and the argument lists that the callback
was run with. -/
structure Called where
  manager : CommandManager
  runs : List (List String)

/-- The loop of the reader: cut the string at its commas. What follows the last one is
dropped. -/
def parseArgs (args : List Char) : List String :=
  match found : args.idxOf? ',' with
  | none => []
  | some pos => String.ofList (args.take pos) :: parseArgs (args.drop (pos + 1))
termination_by args.length
decreasing_by
  have bound : pos < args.length := (List.idxOf?_eq_some_iff.mp found).1
  simp only [List.length_drop]
  omega

/-- The string that `sendMessage` makes of the arguments. -/
def encodeArgs (args : List String) : String :=
  if args.isEmpty then " "
  else args.foldl (fun outString elem => outString ++ elem ++ ",") ""

namespace CommandHelper

def changeCommandLevel (manager : CommandManager) (level : Int32) : CommandManager :=
  manager.changeLevel level.toUInt32

def getCurrentLevel (manager : CommandManager) : Int32 := manager.level.toInt32

end CommandHelper

namespace Command

/-- After a callback that returned `true`. -/
def nextLevel (cmd : Command) (manager : CommandManager) : Option CommandManager :=
  (cmd.getNextLevel (CommandHelper.getCurrentLevel manager).toUInt32).map
    (CommandHelper.changeCommandLevel manager)

/-- `call(std::vector<std::string>)`. A `CommandWithoutArgs` inherits that of
`CommandBase`, which does nothing. -/
def callWith (cmd : Command) (manager : CommandManager) (args : List String) :
    Option (Bool × Called) :=
  match cmd.commandClass with
  | .command =>
    if args.length ≠ cmd.numArg then some (false, ⟨manager, []⟩)
    else if cmd.f args then (cmd.nextLevel manager).map fun next => (true, ⟨next, [args]⟩)
    else some (true, ⟨manager, [args]⟩)
  | .commandWithoutArgs => some (false, ⟨manager, []⟩)

/-- `call()`. A `Command` inherits that of `CommandBase`. -/
def call (cmd : Command) (manager : CommandManager) : Option (Bool × Called) :=
  match cmd.commandClass with
  | .command => some (false, ⟨manager, []⟩)
  | .commandWithoutArgs =>
    if cmd.f [] then (cmd.nextLevel manager).map fun next => (true, ⟨next, [[]]⟩)
    else some (true, ⟨manager, [[]]⟩)

/-- The arguments that the callback is run with, if it is run. A `CommandWithoutArgs` has
none to count. -/
def accepted (cmd : Command) (args : List String) : Option (List String) :=
  match cmd.commandClass with
  | .command => if args.length = cmd.numArg then some args else none
  | .commandWithoutArgs => some []

/-- `getNextLevel`, where `read` is what is found past the end of the transition set. -/
def nextLevelOr (cmd : Command) (level read : UInt32) : UInt32 :=
  ((cmd.getNextLevel level).map Int32.toUInt32).getD read

/-- What the reader does with the arguments it has parsed: it calls the overload of its
class. -/
def deliver (cmd : Command) (manager : CommandManager) (args : List String) (read : UInt32) :
    Called :=
  match cmd.commandClass with
  | .command => ((cmd.callWith manager args).map Prod.snd).getD
      ⟨manager.changeLevel read, [args]⟩
  | .commandWithoutArgs => ((cmd.call manager).map Prod.snd).getD
      ⟨manager.changeLevel read, [[]]⟩

/-- The callback of the reader. Without a reader the message is not received. -/
def receive (cmd : Command) (manager : CommandManager) (msg : CommandCall) : Option Called :=
  if cmd.ddslink.isNone then some ⟨manager, []⟩
  else if (msg.owner ≠ "" ∧ msg.owner ≠ cmd.owner) ∨ msg.commandName ≠ cmd.name then
    some ⟨manager, []⟩
  else match cmd.commandClass with
    | .command => (cmd.callWith manager (parseArgs msg.args.toList)).map Prod.snd
    | .commandWithoutArgs => (cmd.call manager).map Prod.snd

end Command

namespace CommandManager

/-- The discovered commands of a name, as pairs of name and owner. -/
def findByName (cmds : List (String × String)) (name : String) : List (String × String) :=
  cmds.filter fun cmd => cmd.1 == name

/-- The discovered commands of an owner and a name. -/
def find (cmds : List (String × String)) (owner name : String) : List (String × String) :=
  (findByName cmds name).filter fun cmd => cmd.2 == owner

/-- The first half of `callCommand`: the commands that are meant, and the arguments
without a trailing `all`. -/
def cmdList (discovered : List (String × String)) (name : String) (args : List String)
    (owner : String) : List (String × String) × List String :=
  if owner = "" then
    if args.getLast? = some "all" then ([(name, "")], args.dropLast)
    else (findByName discovered name, args)
  else (find discovered owner name, args)

def sendMessage (cmdData : String × String) (args : List String) : CommandCall where
  owner := cmdData.2
  commandName := cmdData.1
  args := encodeArgs args

/-- The call of a command that the manager owns. Looking up a name that it does not
have dereferences the end iterator of the map. -/
def callOwn (manager : CommandManager) (name : String) (args : List String) : Option Called := do
  let cmd ← manager.getCommand name
  let (_, called) ← cmd.callWith manager args
  let next ← cmd.getNextLevel called.manager.level
  return { called with manager := called.manager.changeLevel next.toUInt32 }

/-- What `callCommand` returns, its effect here, and the message it sends. -/
def callCommand (manager : CommandManager) (discovered : List (String × String)) (name : String)
    (args : List String) (owner : String) : Option (Nat × Called × Option CommandCall) :=
  match cmdList discovered name args owner with
  | ([cmdData], args) =>
    if cmdData.2 = manager.owner then
      (manager.callOwn name args).map fun called => (1, called, none)
    else some (1, ⟨manager, []⟩, some (sendMessage cmdData args))
  | (cmds, _) => some (cmds.length, ⟨manager, []⟩, none)

end CommandManager

/-- The loop reads the pieces that end in a comma. -/
theorem parseArgs_eq (args : List Char) :
    parseArgs args = (Terminated.pieces ',' args).map String.ofList := by
  induction args using parseArgs.induct with
  | case1 args found =>
    rw [Terminated.pieces_eq_nil (List.idxOf?_eq_none_iff.mp found)]
    unfold parseArgs
    split
    · rfl
    · simp_all
  | case2 args pos found ih =>
    rw [Terminated.pieces_of_idxOf found, List.map_cons, ← ih]
    conv => lhs; unfold parseArgs
    split
    · simp_all
    · simp_all

/-- The loop writes each argument followed by a comma. -/
theorem foldl_encode (args : List String) (outString : String) :
    (args.foldl (fun outString elem => outString ++ elem ++ ",") outString).toList =
      outString.toList ++ Terminated.terminate ',' (args.map String.toList) := by
  induction args generalizing outString with
  | nil => simp [Terminated.terminate]
  | cons elem rest ih =>
    rw [List.foldl_cons, ih, List.map_cons, Terminated.terminate_cons]
    simp

/-- Commas inside the arguments. -/
def commas (args : List String) : Nat := ((args.map String.toList).map (List.count ',')).sum

/-- The reader finds one more argument for each comma inside an argument. -/
theorem length_parseArgs (args : List String) :
    (parseArgs (encodeArgs args).toList).length = args.length + commas args := by
  rw [parseArgs_eq, List.length_map]
  unfold encodeArgs
  split
  · have none : args = [] := List.isEmpty_iff.mp ‹_›
    subst none
    rfl
  · rw [foldl_encode]
    rw [String.toList_empty, List.nil_append, Terminated.length_pieces_terminate, List.length_map]
    rfl

/-- Without such commas the reader finds the arguments that were sent. -/
theorem parseArgs_encodeArgs {args : List String} (free : commas args = 0) :
    parseArgs (encodeArgs args).toList = args := by
  rw [parseArgs_eq]
  unfold encodeArgs
  split
  · have none : args = [] := List.isEmpty_iff.mp ‹_›
    subst none
    rfl
  · rw [foldl_encode]
    have pieces := Terminated.pieces_terminate (args.map String.toList)
      (Terminated.sum_eq_zero_iff_free.mp free)
    rw [String.toList_empty, List.nil_append, pieces, List.map_map]
    simp [Function.comp_def]

namespace Command

variable {cmd : Command} {manager : CommandManager} {args : List String} {called : Called}

/-- What a call is for: the callback is run once if the arguments are as many as the
command takes, and the next level is entered if it was run and returned `true`. -/
def expected (cmd : Command) (manager : CommandManager) (args : List String) : Option Called :=
  if args.length = cmd.numArg then
    if cmd.f args then
      (cmd.getNextLevel manager.level).map fun next =>
        ⟨manager.changeLevel next.toUInt32, [args]⟩
    else some ⟨manager, [args]⟩
  else some ⟨manager, []⟩

/-- The transition set leads from one level to the other. -/
def Leads (cmd : Command) (level next : UInt32) : Prop :=
  (cmd.getNextLevel level).map Int32.toUInt32 = some next

theorem nextLevel_eq (cmd : Command) (manager : CommandManager) : cmd.nextLevel manager =
    (cmd.getNextLevel manager.level).map fun next => manager.changeLevel next.toUInt32 := by
  simp only [nextLevel, CommandHelper.getCurrentLevel, UInt32.toUInt32_toInt32]
  rfl

/-- A `Command` that is called with arguments does what is expected of it. -/
theorem callWith_eq (typed : cmd.commandClass = .command) (manager : CommandManager)
    (args : List String) :
    (cmd.callWith manager args).map Prod.snd = cmd.expected manager args := by
  unfold callWith expected
  rw [typed, nextLevel_eq]
  by_cases matching : args.length = cmd.numArg
  · by_cases agreed : cmd.f args = true
    · simp [matching, agreed, Function.comp_def]
    · simp [matching, agreed]
  · simp [matching]

/-- Whatever the class, the callback is run with the accepted arguments, and the level
changes if it returns `true`. -/
theorem deliver_eq (cmd : Command) (manager : CommandManager) (args : List String)
    (read : UInt32) : cmd.deliver manager args read =
      match cmd.accepted args with
      | none => ⟨manager, []⟩
      | some given =>
        ⟨if cmd.f given then manager.changeLevel (cmd.nextLevelOr manager.level read)
          else manager, [given]⟩ := by
  cases typed : cmd.commandClass with
  | command =>
    simp only [deliver, accepted, typed, callWith_eq typed, expected]
    by_cases matching : args.length = cmd.numArg
    · simp only [matching, if_true, nextLevelOr]
      split
      · cases cmd.getNextLevel manager.level <;> rfl
      · rfl
    · simp [matching]
  | commandWithoutArgs =>
    simp only [deliver, accepted, typed, call, nextLevel_eq, nextLevelOr]
    split
    · cases cmd.getNextLevel manager.level <;> rfl
    · rfl

/-- The callback is run if and only if the arguments are as many as expected. -/
theorem runs_of_expected (expects : cmd.expected manager args = some called) :
    called.runs = if args.length = cmd.numArg then [args] else [] := by
  unfold expected at expects
  split at expects
  · split at expects
    · obtain ⟨_, _, rfl⟩ := Option.map_eq_some_iff.mp expects
      simp [*]
    · obtain rfl := Option.some.inj expects
      simp [*]
  · obtain rfl := Option.some.inj expects
    simp [*]

/-- What arrives as a message is the same call if the commas do not change whether the
arguments are as many as expected. -/
theorem expected_parseArgs
    (counted : args.length = cmd.numArg ↔ args.length + commas args = cmd.numArg) :
    cmd.expected manager (parseArgs (encodeArgs args).toList) = cmd.expected manager args := by
  by_cases matching : args.length = cmd.numArg
  · have free : commas args = 0 := by
      have same := counted.mp matching
      omega
    rw [parseArgs_encodeArgs free]
  · have other : (parseArgs (encodeArgs args).toList).length ≠ cmd.numArg := by
      rw [length_parseArgs]
      exact fun same => matching (counted.mpr same)
    simp [expected, matching, other]

/-- The active reader of a `Command` calls it with the arguments that it has parsed. -/
theorem receive_eq (typed : cmd.commandClass = .command) (reader : cmd.ddslink.isNone = false)
    (manager : CommandManager) (args : List String) :
    cmd.receive manager (CommandManager.sendMessage (cmd.name, cmd.owner) args) =
      cmd.expected manager (parseArgs (encodeArgs args).toList) := by
  rw [← callWith_eq typed]
  simp [receive, CommandManager.sendMessage, reader, typed]

/-- The active reader of a `CommandWithoutArgs` runs the callback whatever the message
says about arguments. -/
theorem receive_runs (untyped : cmd.commandClass = .commandWithoutArgs)
    (reader : cmd.ddslink.isNone = false)
    (received : cmd.receive manager (CommandManager.sendMessage (cmd.name, cmd.owner) args) =
      some called) : called.runs = [[]] := by
  have run : (cmd.call manager).map Prod.snd = some called := by
    simpa [receive, CommandManager.sendMessage, reader, untyped] using received
  obtain ⟨⟨result, effect⟩, taken, rfl⟩ := Option.map_eq_some_iff.mp run
  simp only [call, untyped] at taken
  split at taken
  · obtain ⟨next, _, same⟩ := Option.map_eq_some_iff.mp taken
    cases same
    rfl
  · cases taken
    rfl

end Command

namespace CommandManager

variable {cmd : Command} {manager : CommandManager} {name : String} {args : List String}

/-- A local call of a `Command` changes the level once more. -/
theorem callOwn_eq (registered : manager.getCommand name = some cmd)
    (typed : cmd.commandClass = .command) : manager.callOwn name args =
      (cmd.expected manager args).bind fun called =>
        (cmd.getNextLevel called.manager.level).map fun next =>
          { called with manager := called.manager.changeLevel next.toUInt32 } := by
  rw [← cmd.callWith_eq typed]
  simp only [callOwn, registered, Option.bind_eq_bind, Option.bind_some]
  cases cmd.callWith manager args with
  | none => rfl
  | some result => exact Option.map_eq_bind.symm

/-- A local call of a `CommandWithoutArgs` only changes the level. -/
theorem callOwn_runs {called : Called} (registered : manager.getCommand name = some cmd)
    (untyped : cmd.commandClass = .commandWithoutArgs)
    (own : manager.callOwn name args = some called) : called.runs = [] := by
  simp only [callOwn, registered, Command.callWith, untyped, Option.bind_eq_bind,
    Option.bind_some, Option.bind_eq_some_iff] at own
  obtain ⟨_, _, same⟩ := own
  cases same
  rfl

/-- Both paths do what is expected of the call. -/
def CallsAgree (manager : CommandManager) (cmd : Command) (discovered : List (String × String))
    (args : List String) (owner : String) : Prop :=
  ∃ called, cmd.expected manager args = some called ∧
    manager.callCommand discovered cmd.name args owner = some (1, called, none) ∧
    cmd.receive manager (sendMessage (cmd.name, cmd.owner) args) = some called

/-- A second change of the level does nothing, and commas inside the arguments do not
change whether they are as many as the command takes. -/
def Repeatable (cmd : Command) (level : UInt32) (args : List String) : Prop :=
  cmd.commandClass = .command ∧
  (args.length = cmd.numArg ↔ args.length + commas args = cmd.numArg) ∧
  if args.length = cmd.numArg ∧ cmd.f args = true then
    ∃ next, cmd.Leads level next ∧ cmd.Leads next next
  else cmd.Leads level level

/-- A second change of the level leaves what is expected if and only if the transition
set leads from the level that is reached to itself. -/
theorem again_iff {called : Called} :
    ((cmd.getNextLevel called.manager.level).map fun next =>
      ({ called with manager := called.manager.changeLevel next.toUInt32 } : Called)) =
        some called ↔ cmd.Leads called.manager.level called.manager.level := by
  unfold Command.Leads
  cases cmd.getNextLevel called.manager.level with
  | none => simp
  | some next =>
    rw [Option.map_some, Option.map_some, Option.some.injEq, Option.some.injEq]
    constructor
    · intro same
      exact congrArg (fun called : Called => called.manager.level) same
    · intro same
      rw [same]
      rfl

/-- When what is expected is reached by way of a stationary level. -/
theorem expected_stationary_iff : (∃ called, cmd.expected manager args = some called ∧
    cmd.Leads called.manager.level called.manager.level) ↔
      if args.length = cmd.numArg ∧ cmd.f args = true then
        ∃ next, cmd.Leads manager.level next ∧ cmd.Leads next next
      else cmd.Leads manager.level manager.level := by
  unfold Command.expected
  by_cases matching : args.length = cmd.numArg
  · by_cases agreed : cmd.f args = true
    · simp only [matching, agreed, and_self, if_true]
      unfold Command.Leads
      cases cmd.getNextLevel manager.level with
      | none => simp
      | some next => simp [changeLevel]
    · simp [matching, agreed]
  · simp [matching]

/-- A call of a registered, active command by way of `callCommand` on the manager that
owns it and the same call as a message do what is expected if and only if the command
is a `Command`, commas inside the arguments do not change whether their number is
right, and changing the level a second time has no effect. -/
theorem callsAgree_iff {owner caller : String} {discovered : List (String × String)}
    (name : String) (reachable : (system owner).Reachable manager)
    (registered : manager.getCommand name = some cmd) (active : cmd.active = true)
    (resolved : cmdList discovered name args caller = ([(name, manager.owner)], args)) :
    manager.CallsAgree cmd discovered args caller ↔ Repeatable cmd manager.level args := by
  have valid := Valid.of_reachable reachable
  have kept := valid.registered name cmd registered
  have reader : cmd.ddslink.isNone = false := by
    rw [kept.linked.ddslink, active]
    rfl
  have direct : manager.callCommand discovered cmd.name args caller =
      (manager.callOwn name args).map fun called => (1, called, none) := by
    rw [kept.name]
    simp [callCommand, resolved]
  unfold CallsAgree Repeatable
  cases typed : cmd.commandClass with
  | commandWithoutArgs =>
    -- locally the callback is never run, remotely it always is
    simp only [reduceCtorEq, false_and, iff_false]
    rintro ⟨called, _, here, there⟩
    rw [direct, Option.map_eq_some_iff] at here
    obtain ⟨_, own, same⟩ := here
    cases same
    have untouched := callOwn_runs registered typed own
    have run := Command.receive_runs typed reader there
    exact absurd (untouched.symm.trans run) (by simp)
  | command =>
    rw [direct, callOwn_eq registered typed, Command.receive_eq typed reader]
    constructor
    · rintro ⟨called, expects, here, there⟩
      refine ⟨rfl, ?_, ?_⟩
      · have sent := Command.runs_of_expected expects
        have received := Command.runs_of_expected there
        rw [sent, length_parseArgs] at received
        by_cases one : args.length = cmd.numArg <;>
          by_cases other : args.length + commas args = cmd.numArg <;> simp_all
      · apply expected_stationary_iff.mp
        refine ⟨called, expects, again_iff.mp ?_⟩
        simpa [expects, Option.map_eq_some_iff] using here
    · rintro ⟨_, counted, stationary⟩
      obtain ⟨called, expects, stays⟩ := expected_stationary_iff.mpr stationary
      refine ⟨called, expects, ?_, ?_⟩
      · rw [expects, Option.bind_some, again_iff.mpr stays]
        rfl
      · rw [Command.expected_parseArgs counted, expects]

/-- A command without a transition set is called with one argument. -/
theorem calls_agree_without_transitions : ∃ manager cmd,
    (system "app").run [.addCommand "setGain" 1 (fun args => args == ["2"]) ∅ true] =
      some manager ∧
    manager.getCommand "setGain" = some cmd ∧
    manager.CallsAgree cmd [("setGain", "app"), ("pause", "app")] ["2"] "app" := by
  have ran : (system "app").run
      [.addCommand "setGain" 1 (fun args => args == ["2"]) ∅ true] = some _ := rfl
  refine ⟨_, _, ran, rfl, ?_⟩
  have reachable := System.ReachableUnder.initial.replay ran
  apply (callsAgree_iff "setGain" reachable rfl rfl (by decide)).mpr
  refine ⟨rfl, by decide, ?_⟩
  rw [if_pos (by decide)]
  exact ⟨0, rfl, rfl⟩

/-- A command available at the levels 0 and 1 is taken two levels further by a local
call, and one by a message. -/
theorem local_call_advances_twice : ∃ manager cmd,
    (system "app").run [.addCommand "advance" 0 (fun _ => true)
      ((AList.singleton 0 1).insert 1 2) true] = some manager ∧
    manager.getCommand "advance" = some cmd ∧
    cmd.active = true ∧ cmd.testLevel manager.level = true ∧
    ¬ manager.CallsAgree cmd [("advance", "app")] [] "app" := by
  refine ⟨_, _, rfl, rfl, rfl, by decide, ?_⟩
  rintro ⟨called, expects, here, _⟩
  have once : called.manager.level = 1 := by
    cases expects
    rfl
  have twice : called.manager.level = 2 := by
    cases here
    rfl
  exact absurd (once.symm.trans twice) (by decide)

/-! ### The arguments of a remote call -/

/-- No comma is counted if and only if no argument has one. -/
theorem commas_eq_zero_iff : commas args = 0 ↔ ∀ arg ∈ args, ',' ∉ arg.toList := by
  rw [commas, Terminated.sum_eq_zero_iff_free, List.forall_mem_map]

/-- The reader finds the arguments that were sent if and only if none has a comma. -/
theorem parseArgs_encodeArgs_iff :
    parseArgs (encodeArgs args).toList = args ↔ ∀ arg ∈ args, ',' ∉ arg.toList := by
  rw [← commas_eq_zero_iff]
  constructor
  · intro same
    have length := length_parseArgs args
    rw [same] at length
    omega
  · exact parseArgs_encodeArgs

/-- A call of the only command of a given owner and name sends a message, unless it is
this manager's own. -/
theorem callCommand_remote {discovered : List (String × String)} {owner : String}
    (given : owner ≠ "") (remote : owner ≠ manager.owner)
    (found : find discovered owner name = [(name, owner)]) :
    manager.callCommand discovered name args owner =
      some (1, ⟨manager, []⟩, some (sendMessage (name, owner) args)) := by
  simp [callCommand, cmdList, given, found, remote]

/-- The message of a remote call, from which the reader parses its arguments. -/
def Transmits (manager : CommandManager) (discovered : List (String × String)) (name : String)
    (args : List String) (owner : String) : Prop :=
  ∃ called msg, manager.callCommand discovered name args owner = some (1, called, some msg) ∧
    parseArgs msg.args.toList = args

/-- A remote call transmits its arguments if and only if none of them has a comma. -/
theorem transmits_iff (manager : CommandManager) (discovered : List (String × String))
    (name : String) (args : List String) (owner : String) (given : owner ≠ "")
    (remote : owner ≠ manager.owner) (found : find discovered owner name = [(name, owner)]) :
    manager.Transmits discovered name args owner ↔ ∀ arg ∈ args, ',' ∉ arg.toList := by
  unfold Transmits
  rw [callCommand_remote given remote found, ← parseArgs_encodeArgs_iff]
  constructor
  · rintro ⟨called, msg, sent, same⟩
    cases sent
    exact same
  · intro same
    exact ⟨_, _, rfl, same⟩

/-- An empty argument arrives. -/
theorem transmits_empty_argument :
    (CommandManager.new "console").Transmits [("rename", "robot")] "rename" ["", "walk"] "robot" :=
  (transmits_iff (.new "console") [("rename", "robot")] "rename" ["", "walk"] "robot" (by decide)
    (by decide) (by decide)).mpr (by decide)

/-- One argument with a comma arrives as two. -/
theorem comma_splits_argument :
    ¬ (CommandManager.new "console").Transmits [("setGains", "robot")] "setGains" ["1,2"]
      "robot" := by
  rintro ⟨called, msg, sent, same⟩
  rw [callCommand_remote (by decide) (by decide) (by decide)] at sent
  cases sent
  exact absurd (parseArgs_encodeArgs_iff.mp same) (by decide)

end CommandManager

end Dls2.Commands
