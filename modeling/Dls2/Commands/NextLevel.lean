import Dls2.Commands.CallCommand

/-!
# Where an available command leads

`testLevel` says whether a command is available at a level and `getNextLevel` where
it leads from there. The two agree on an empty transition set and on a level that has
an entry. They disagree on the wildcard: `testLevel` accepts the level on its account,
while `getNextLevel` still looks for an entry of the level.
-/

namespace Dls2.Commands

namespace LevelType

/-- The only key is the wildcard. -/
def WildcardOnly (transitionSet : LevelType) : Prop := transitionSet.keys = [allStatesExceptZero]

instance (transitionSet : LevelType) : Decidable transitionSet.WildcardOnly :=
  inferInstanceAs (Decidable (_ = _))

/-- The wildcard matches a level that has no entry. -/
def Strays (transitionSet : LevelType) (level : UInt32) : Prop :=
  transitionSet.WildcardOnly ∧ level ≠ 0 ∧ level ≠ allStatesExceptZero

instance (transitionSet : LevelType) (level : UInt32) : Decidable (transitionSet.Strays level) :=
  inferInstanceAs (Decidable (_ ∧ _ ∧ _))

/-- The target that makes a command available at the level: the level itself for an
empty transition set, that of the wildcard if it matches, and else that of the level. -/
def availableTarget (transitionSet : LevelType) (level : UInt32) : Option UInt32 :=
  if transitionSet.entries.isEmpty then some level
  else if transitionSet.WildcardOnly ∧ level ≠ 0 then transitionSet.lookup allStatesExceptZero
  else transitionSet.lookup level

theorem wildcardOnly_iff (transitionSet : LevelType) : transitionSet.WildcardOnly ↔
    transitionSet.entries.length = 1 ∧ allStatesExceptZero ∈ transitionSet := by
  have length : transitionSet.keys.length = transitionSet.entries.length := List.length_map ..
  unfold WildcardOnly
  rw [← length, AList.mem_keys, List.length_eq_one_iff]
  constructor
  · intro only
    exact ⟨⟨_, only⟩, by simp [only]⟩
  · rintro ⟨⟨key, single⟩, member⟩
    rw [single, List.mem_singleton] at member
    rw [single, member]

theorem testLevel_iff (transitionSet : LevelType) (level : UInt32) :
    transitionSet.testLevel level = true ↔ transitionSet.entries.isEmpty = true ∨
      (transitionSet.WildcardOnly ∧ level ≠ 0) ∨ level ∈ transitionSet := by
  rw [wildcardOnly_iff]
  simp [testLevel, AList.lookup_isSome, or_assoc]

theorem WildcardOnly.mem_iff {transitionSet : LevelType} (only : transitionSet.WildcardOnly)
    (level : UInt32) : level ∈ transitionSet ↔ level = allStatesExceptZero := by
  rw [AList.mem_keys, only, List.mem_singleton]

theorem WildcardOnly.nonempty {transitionSet : LevelType} (only : transitionSet.WildcardOnly) :
    transitionSet.entries.isEmpty = false := by
  have single := ((wildcardOnly_iff transitionSet).mp only).1
  rw [List.isEmpty_eq_false_iff, ← List.length_pos_iff, single]
  exact Nat.zero_lt_one

/-- With an entry for the level both functions go by that entry. -/
theorem target_of_mem {transitionSet : LevelType} {level : UInt32}
    (member : level ∈ transitionSet) :
    transitionSet.availableTarget level = transitionSet.lookup level ∧
      transitionSet.getNextLevel level = (transitionSet.lookup level).map UInt32.toInt32 := by
  have nonempty : transitionSet.entries.isEmpty = false := by
    rw [List.isEmpty_eq_false_iff]
    intro empty
    have keys : transitionSet.keys = [] := by simp [AList.keys, List.keys, empty]
    rw [AList.mem_keys, keys] at member
    cases member
  constructor
  · unfold availableTarget
    rw [if_neg (by simp [nonempty])]
    split
    next matched => rw [(matched.1.mem_iff level).mp member]
    next => rfl
  · simp [getNextLevel, nonempty]

theorem Strays.testLevel {transitionSet : LevelType} {level : UInt32}
    (strays : transitionSet.Strays level) : transitionSet.testLevel level = true :=
  (testLevel_iff _ _).mpr (.inr (.inl ⟨strays.1, strays.2.1⟩))

theorem Strays.getNextLevel {transitionSet : LevelType} {level : UInt32}
    (strays : transitionSet.Strays level) : transitionSet.getNextLevel level = none := by
  have absent : transitionSet.lookup level = none := by
    rw [AList.lookup_eq_none, strays.1.mem_iff]
    exact strays.2.2
  simp [LevelType.getNextLevel, strays.1.nonempty, absent]

/-- An available level without an entry in a nonempty transition set strays. -/
theorem mem_of_testLevel {transitionSet : LevelType} {level : UInt32}
    (available : transitionSet.testLevel level = true) (kept : ¬ transitionSet.Strays level) :
    transitionSet.entries.isEmpty = true ∨ level ∈ transitionSet := by
  rcases (testLevel_iff _ _).mp available with empty | ⟨only, notZero⟩ | member
  · exact .inl empty
  · right
    rw [only.mem_iff]
    by_contra other
    exact kept ⟨only, notZero, other⟩
  · exact .inr member

end LevelType

namespace Command

/-- From a level at which it is available, a command goes on to the target that makes
it available, which is an entry of its transition set unless that is empty. -/
def GoesOn (cmd : Command) (manager : CommandManager) : Prop :=
  cmd.testLevel manager.level = true → ∃ next,
    cmd.transitionSet.availableTarget manager.level = some next ∧
    cmd.getNextLevel manager.level = some next.toInt32 ∧
    cmd.nextLevel manager = some (manager.changeLevel next) ∧
    (cmd.transitionSet.entries = [] ∧ next = manager.level ∨
      ∃ key, ⟨key, next⟩ ∈ cmd.transitionSet.entries)

/-- Where the next level is found, executing the command enters it. -/
theorem nextLevel_of_getNextLevel {cmd : Command} {manager : CommandManager} {next : UInt32}
    (found : cmd.getNextLevel manager.level = some next.toInt32) :
    cmd.nextLevel manager = some (manager.changeLevel next) := by
  rw [nextLevel_eq, found, Option.map_some, UInt32.toUInt32_toInt32]

variable {cmd : Command} {manager : CommandManager}

/-- A command goes on from a level that has an entry. -/
theorem goesOn_of_mem (member : manager.level ∈ cmd.transitionSet) : cmd.GoesOn manager := by
  intro _
  obtain ⟨next, entry⟩ := Option.isSome_iff_exists.mp (AList.lookup_isSome.mpr member)
  obtain ⟨target, found⟩ := LevelType.target_of_mem member
  rw [entry] at target found
  exact ⟨next, target, found, nextLevel_of_getNextLevel found,
    .inr ⟨manager.level, AList.mem_lookup_iff.mp entry⟩⟩

theorem goesOn_of_empty (empty : cmd.transitionSet.entries.isEmpty = true) :
    cmd.GoesOn manager := by
  intro _
  have found : cmd.getNextLevel manager.level = some manager.level.toInt32 := by
    simp [getNextLevel, LevelType.getNextLevel, empty]
  exact ⟨manager.level, if_pos empty, found, nextLevel_of_getNextLevel found,
    .inl ⟨List.isEmpty_iff.mp empty, rfl⟩⟩

/-- A level that does not stray has an entry unless the transition set is empty. -/
theorem goesOn_of_kept (kept : ¬ cmd.transitionSet.Strays manager.level) :
    cmd.GoesOn manager := by
  intro available
  rcases LevelType.mem_of_testLevel available kept with empty | member
  · exact goesOn_of_empty empty available
  · exact goesOn_of_mem member available

/-- A command does not go on from a level that only the wildcard matches. -/
theorem not_goesOn_of_strays (strays : cmd.transitionSet.Strays manager.level) :
    ¬ cmd.GoesOn manager := by
  intro goesOn
  obtain ⟨next, -, found, -⟩ := goesOn strays.testLevel
  rw [getNextLevel, strays.getNextLevel] at found
  cases found

/-- An available command goes on if and only if its availability is not due to the
wildcard alone, at a level other than the number of the wildcard itself. -/
theorem goesOn_iff (cmd : Command) (manager : CommandManager) :
    cmd.GoesOn manager ↔ ¬ cmd.transitionSet.Strays manager.level := by
  constructor
  · intro goesOn strays
    exact not_goesOn_of_strays strays goesOn
  · exact goesOn_of_kept

/-- An available command has a next level if its level does not stray. -/
theorem isSome_getNextLevel_iff {level : UInt32} (available : cmd.testLevel level = true) :
    (cmd.getNextLevel level).isSome = true ↔ ¬ cmd.transitionSet.Strays level := by
  constructor
  · intro found strays
    rw [getNextLevel, strays.getNextLevel] at found
    cases found
  · intro kept
    have goesOn : cmd.GoesOn ⟨cmd.owner, ∅, level⟩ := goesOn_of_kept kept
    obtain ⟨next, -, found, -⟩ := goesOn available
    exact Option.isSome_iff_exists.mpr ⟨_, found⟩

/-- The `deactivate` command that every app registers is available at level 1, where it
has no entry to go on with. -/
theorem deactivate_past_end :
    ¬ (command "deactivate" "app" 0 (fun _ => true) (AList.singleton allStatesExceptZero 0)
      true).GoesOn ⟨"app", ∅, 1⟩ :=
  not_goesOn_of_strays (by decide)

end Command

end Dls2.Commands
