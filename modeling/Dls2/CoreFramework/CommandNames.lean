import Mathlib.Data.List.Induction
import Dls2.Commands.Discovery
import Dls2.CoreFramework.ReadlineCompletion

/-!
# The names of commands

A command is advertised by the name of its participant, listed by `getCommandsList`,
offered by `command_generator` and taken apart again by `monitor`. Only the owner has to
be free of colons.
-/

namespace Dls2.CoreFramework

open Assoc Search Words Commands

/-- A command can be named on a line of the console. -/
structure WellNamed (cmd : Command) : Prop where
  owner_free : ':' ∉ cmd.owner.toList
  owner_word : ∀ character ∈ cmd.owner.toList, isspace character = false
  name_word : ∀ character ∈ cmd.name.toList, isspace character = false
  name_nonempty : cmd.name ≠ ""

/-- The process has the command. -/
def Lists (processes : Processes) (process command : String) : Prop :=
  ∃ commands, processes.lookup process = some commands ∧ command ∈ commands

namespace ConsoleLayer

theorem lists_insert {processes : Processes} {process command other found : String} :
    Lists (processes.insert process (((processes.lookup process).getD []).insert command))
      other found ↔ (other = process ∧ found = command) ∨ Lists processes other found := by
  unfold Lists
  by_cases same : other = process
  · subst same
    simp only [AList.lookup_insert, Option.some.injEq, exists_eq_left', List.mem_insert_iff,
      true_and]
    refine or_congr Iff.rfl ?_
    cases processes.lookup other <;> simp
  · simp [AList.lookup_insert_ne same, same]

/-- The commands of each process are the ones that have been found for it. -/
theorem lists_getProcessesAndCommands_iff (cmds : List (String × String))
    (command process found : String) :
    Lists (getProcessesAndCommands cmds command) process found ↔
      (found, process) ∈ cmds ∧ (command = "" ∨ found = command) := by
  unfold getProcessesAndCommands
  induction cmds using List.reverseRecOn with
  | nil => simp [Lists]
  | append_singleton cmds entry ih =>
    rw [List.foldl_append, List.foldl_cons, List.foldl_nil, List.mem_append, List.mem_singleton]
    split
    next chosen =>
      rw [lists_insert, ih]
      constructor
      · rintro (⟨rfl, rfl⟩ | ⟨member, meant⟩)
        · exact ⟨.inr rfl, chosen⟩
        · exact ⟨.inl member, meant⟩
      · rintro ⟨member | rfl, meant⟩
        · exact .inr ⟨member, meant⟩
        · exact .inl ⟨rfl, rfl⟩
    next other =>
      rw [ih]
      constructor
      · rintro ⟨member, meant⟩
        exact ⟨.inl member, meant⟩
      · rintro ⟨member | rfl, meant⟩
        · exact ⟨member, meant⟩
        · exact absurd meant other

/-- A token is taken apart at its first `::`. -/
theorem processAndCommand_append {process command : List Char} (free : ':' ∉ process)
    (nonempty : command ≠ []) :
    processAndCommand (process ++ colons ++ command) = (process, command) := by
  have found : search colons (process ++ colons ++ command) = some process.length := by
    rw [List.append_assoc]
    exact search_append free
  have positive := List.length_pos_iff.mpr nonempty
  have two : colons.length = 2 := rfl
  have follows : process.length ≠ (process ++ colons ++ command).length - 2 := by
    simp only [List.length_append, two]
    omega
  simp only [processAndCommand, found]
  rw [if_pos follows, ← two, ← List.length_append, List.drop_left, List.append_assoc,
    List.take_left]

end ConsoleLayer

namespace ReadlineCompletion

/-- What is offered are the full names that begin with the text, or whose commands do. -/
theorem mem_commandGenerator_iff {processes : Processes} {text offered : List Char} :
    offered ∈ commandGenerator processes text ↔ ∃ process command,
      Lists processes process command ∧ offered = process.toList ++ colons ++ command.toList ∧
        (text <+: offered ∨ text <+: command.toList) := by
  simp only [commandGenerator, List.mem_flatMap, List.mem_filterMap, Option.ite_some_none_eq_some]
  constructor
  · rintro ⟨⟨process, commands⟩, entry, command, member, begins, rfl⟩
    exact ⟨process, command, ⟨commands, AList.mem_lookup_iff.mpr entry, member⟩, rfl, begins⟩
  · rintro ⟨process, command, ⟨commands, entry, member⟩, rfl, begins⟩
    exact ⟨⟨process, commands⟩, AList.mem_lookup_iff.mp entry, command, member, begins, rfl⟩

end ReadlineCompletion

/-! ### From the registration to the call -/

/-- The token that names a command. -/
def token (cmd : Command) : List Char := cmd.participantName.toList

theorem token_eq (cmd : Command) : token cmd = cmd.owner.toList ++ colons ++ cmd.name.toList := by
  simp [token, Command.participantName, colons]

namespace WellNamed

variable {cmd : Command}

/-- The token has no white space. -/
theorem token_word (named : WellNamed cmd) :
    ∀ character ∈ token cmd, isspace character = false := by
  rw [token_eq]
  intro character member
  rw [List.mem_append, List.mem_append] at member
  rcases member with (owner | colon) | name
  · exact named.owner_word character owner
  · obtain rfl : character = ':' := by simpa [colons] using colon
    rfl
  · exact named.name_word character name

theorem words_token (named : WellNamed cmd) : words isspace (token cmd) = [token cmd] := by
  refine words_of_free named.token_word ?_
  simp [token_eq, colons]

/-- A line that begins with the token calls the command. -/
theorem monitor_token (named : WellNamed cmd) {line : List Char} {args : List (List Char)}
    (split : words isspace line = token cmd :: args) :
    ConsoleLayer.monitor false false (some line) =
      .callsCommand cmd.name.toList args cmd.owner.toList := by
  have written : ¬ line.all (· == ' ') = true := by
    intro blank
    have white := ConsoleLayer.isspace_of_blank ((ConsoleLayer.all_blank_iff line).mp blank)
    rw [words_eq_nil_iff.mpr white] at split
    cases split
  have nonempty : cmd.name.toList ≠ [] := mt String.toList_eq_nil_iff.mp named.name_nonempty
  have taken := ConsoleLayer.processAndCommand_append named.owner_free nonempty
  simp only [ConsoleLayer.monitor, ConsoleLayer.handleLine, Bool.false_eq_true, if_false, written,
    split, token_eq, taken]

end WellNamed

/-- Among commands that are listed once, an owner and a name select one. -/
theorem find_eq_singleton {cmds : List (String × String)} {owner name : String}
    (nodup : cmds.Nodup) (member : (name, owner) ∈ cmds) :
    CommandManager.find cmds owner name = [(name, owner)] := by
  have selects : ∀ entry : String × String,
      (entry.2 == owner && entry.1 == name) = decide (entry = (name, owner)) := by
    intro entry
    rw [Bool.eq_iff_iff]
    simp [Prod.ext_iff, and_comm]
  simp only [CommandManager.find, CommandManager.findByName, List.filter_filter, selects]
  rw [List.filter_eq, List.count_eq_one_of_mem nodup member, List.replicate_one]

variable {Prefix : Type}

/-- The commands that have been found are the registered ones, and the console offers and
calls them by their tokens. -/
structure Callable (registered : List (Command × Prefix)) (cmds : List (String × String)) :
    Prop where
  listed : cmds.Perm (registered.map fun entry => (entry.1.name, entry.1.owner))
  offered : ∀ text offered, offered ∈
      ReadlineCompletion.commandGenerator (ConsoleLayer.getProcessesAndCommands cmds "") text ↔
    ∃ entry ∈ registered, offered = token entry.1 ∧
      (text <+: offered ∨ text <+: entry.1.name.toList)
  word : ∀ entry ∈ registered, words isspace (token entry.1) = [token entry.1]
  called : ∀ entry ∈ registered, ∀ line args, words isspace line = token entry.1 :: args →
    ConsoleLayer.monitor false false (some line) =
      .callsCommand entry.1.name.toList args entry.1.owner.toList
  selected : ∀ entry ∈ registered,
    CommandManager.find cmds entry.1.owner entry.1.name = [(entry.1.name, entry.1.owner)]

variable [DecidableEq Prefix]

/-- Commands that are registered under different names are found, offered and called by
them. -/
theorem callable_of_advertised (registered : List (Command × Prefix))
    (participants : Participants Prefix) (matched : List Prefix)
    (linked : ∀ entry ∈ registered, entry.1.Registered)
    (named : ∀ entry ∈ registered, WellNamed entry.1)
    (distinct : (registered.map fun entry => entry.1.participantName).Nodup)
    (advertised : Advertised registered participants matched) :
    ∃ cmds, CommandManager.getCommandsList participants (some matched) = some cmds ∧
      Callable registered cmds := by
  have free := fun entry member => (named entry member).owner_free
  obtain ⟨cmds, found, listed⟩ :=
    CommandManager.getCommandsList_advertised linked free advertised
  have member : ∀ name owner, (name, owner) ∈ cmds ↔
      ∃ entry ∈ registered, entry.1.name = name ∧ entry.1.owner = owner := by
    intro name owner
    simp [listed.mem_iff]
  have nodup : cmds.Nodup := by
    rw [listed.nodup_iff]
    refine List.Nodup.of_map (fun pair => pair.2 ++ "::" ++ pair.1) ?_
    rw [List.map_map]
    exact distinct
  refine ⟨cmds, found, listed, ?_, ?_, ?_, ?_⟩
  · intro text offered
    rw [ReadlineCompletion.mem_commandGenerator_iff]
    simp only [ConsoleLayer.lists_getProcessesAndCommands_iff, true_or, and_true, member,
      token_eq]
    constructor
    · rintro ⟨_, _, ⟨entry, present, rfl, rfl⟩, complete, begins⟩
      exact ⟨entry, present, complete, begins⟩
    · rintro ⟨entry, present, complete, begins⟩
      exact ⟨_, _, ⟨entry, present, rfl, rfl⟩, complete, begins⟩
  · exact fun entry present => (named entry present).words_token
  · exact fun entry present line args split => (named entry present).monitor_token split
  · exact fun entry present =>
      find_eq_singleton nodup ((member _ _).mpr ⟨entry, present, rfl, rfl⟩)

theorem word_of_all {text : List Char} (all : text.all (!isspace ·) = true) :
    ∀ character ∈ text, isspace character = false := by
  simpa using all

/-- A command of the process `a` that has been registered. -/
def commandOfA (name : String) : Command :=
  (Command.command name "a" 0 (fun _ => true) ∅ true).registerCommand

/-- Names of commands with colons in them. -/
theorem callable_with_colons : ∃ cmds,
    CommandManager.getCommandsList [("a::b::c", 0), ("a:::d", 1)] (some [1, 0]) = some cmds ∧
      Callable [(commandOfA "b::c", 0), (commandOfA ":d", 1)] cmds := by
  have pair {property : Command × Nat → Prop} {first second : Command × Nat}
      (both : property first ∧ property second) :
      ∀ entry ∈ [first, second], property entry :=
    List.forall_mem_cons.mpr ⟨both.1, List.forall_mem_singleton.mpr both.2⟩
  refine callable_of_advertised _ _ _ (pair ⟨rfl, rfl⟩) (pair ⟨?_, ?_⟩) (by decide)
    ⟨by decide, pair ⟨⟨_, rfl, rfl⟩, ⟨_, rfl, rfl⟩⟩⟩
  · exact ⟨by decide, word_of_all (by decide), word_of_all (by decide), by decide⟩
  · exact ⟨by decide, word_of_all (by decide), word_of_all (by decide), by decide⟩

end Dls2.CoreFramework
