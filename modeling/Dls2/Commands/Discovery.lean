import Mathlib.Data.List.Perm.Basic
import Dls2.Lib.Search
import Dls2.Commands.CallCommand

/-!
# Discovering commands

Every registered command has a reader in a participant of its own, whose name is made of
its owner and its name. A `CommandManager` finds the commands again by the participants
of the readers that its writer has been matched with. Participants and readers are what
the middleware reports.
-/

namespace Dls2.Commands

open Search

variable {Prefix : Type}

/-- The participants that have been discovered: their names, and the prefixes of their
GUIDs. -/
abbrev Participants (Prefix : Type) := List (String × Prefix)

namespace CommandManager

/-- A command as name and owner, from the name of its participant. -/
def fromParticipantName (participantName : String) : Option (String × String) :=
  let text := participantName.toList
  let owner := match search "::".toList text with
    | some idx => text.take idx
    | none => text
  (substr text (endOf "::".toList text)).map fun name => (String.ofList name, String.ofList owner)

variable [DecidableEq Prefix]

/-- `getCommandsList`. There is no list of matched readers while there is no listener. -/
def getCommandsList (participants : Participants Prefix) (matched : Option (List Prefix)) :
    Option (List (String × String)) :=
  match matched with
  | none => some []
  | some readers =>
    (readers.flatMap fun reader => participants.filter fun info => info.2 = reader).mapM
      fun info => fromParticipantName info.1

end CommandManager

/-- The middleware reports the commands as they are registered: each has a reader that the
writer is matched with, in the only participant of its prefix. -/
structure Advertised [DecidableEq Prefix] (registered : List (Command × Prefix))
    (participants : Participants Prefix) (matched : List Prefix) : Prop where
  readers : matched.Perm (registered.map Prod.snd)
  participant : ∀ entry ∈ registered, ∃ name, entry.1.ddslink = some name ∧
    participants.filter (fun info => info.2 = entry.2) = [(name, entry.2)]

namespace Command

/-- The reader exists, under the name that `registerCommand` gives it. -/
def Registered (cmd : Command) : Prop := cmd.ddslink = some cmd.participantName

theorem Linked.registered {cmd : Command} (linked : cmd.Linked) (active : cmd.active = true) :
    cmd.Registered := by
  have link := linked.ddslink
  rwa [if_pos active] at link

end Command

namespace CommandManager

/-- The name of a participant is taken apart as it was put together. -/
theorem fromParticipantName_participantName {cmd : Command} (free : ':' ∉ cmd.owner.toList) :
    fromParticipantName cmd.participantName = some (cmd.name, cmd.owner) := by
  have text : cmd.participantName.toList =
      cmd.owner.toList ++ (':' :: [':'] ++ cmd.name.toList) := by
    simp [Command.participantName]
  have found : search "::".toList cmd.participantName.toList = some cmd.owner.toList.length := by
    rw [text]
    exact search_append free
  simp only [fromParticipantName, endOf, found, substr]
  simp [text]

variable [DecidableEq Prefix] {registered : List (Command × Prefix)}
  {participants : Participants Prefix} {matched : List Prefix}

/-- The readers of registered commands lead back to their names and owners, in the order
of the readers. -/
theorem getCommandsList_readers
    (linked : ∀ entry ∈ registered, entry.1.Registered)
    (free : ∀ entry ∈ registered, ':' ∉ entry.1.owner.toList)
    (participant : ∀ entry ∈ registered, ∃ name, entry.1.ddslink = some name ∧
      participants.filter (fun info => info.2 = entry.2) = [(name, entry.2)]) :
    getCommandsList participants (some (registered.map Prod.snd)) =
      some (registered.map fun entry => (entry.1.name, entry.1.owner)) := by
  induction registered with
  | nil => rfl
  | cons entry rest ih =>
    rw [List.forall_mem_cons] at linked free participant
    obtain ⟨name, link, only⟩ := participant.1
    have named : entry.1.participantName = name :=
      Option.some.inj (linked.1.symm.trans link)
    have rest := ih linked.2 free.2 participant.2
    simp only [getCommandsList] at rest
    simp only [getCommandsList, List.map_cons, List.flatMap_cons, only, List.singleton_append,
      List.mapM_cons, rest, ← named, fromParticipantName_participantName free.1]
    rfl

/-- The discovered commands are the registered ones. -/
theorem getCommandsList_advertised
    (linked : ∀ entry ∈ registered, entry.1.Registered)
    (free : ∀ entry ∈ registered, ':' ∉ entry.1.owner.toList)
    (advertised : Advertised registered participants matched) :
    ∃ cmds, getCommandsList participants (some matched) = some cmds ∧
      cmds.Perm (registered.map fun entry => (entry.1.name, entry.1.owner)) := by
  have composed : Relation.Comp (· = List.map Prod.snd ·) List.Perm matched registered := by
    rw [List.eq_map_comp_perm]
    exact advertised.readers
  obtain ⟨order, rfl, perm⟩ := composed
  refine ⟨_, getCommandsList_readers ?_ ?_ ?_, perm.map _⟩
  · exact fun entry member => linked entry (perm.mem_iff.mp member)
  · exact fun entry member => free entry (perm.mem_iff.mp member)
  · exact fun entry member => advertised.participant entry (perm.mem_iff.mp member)

end CommandManager

end Dls2.Commands
