import Mathlib.Data.String.Basic
import Mathlib.Data.Multiset.UnionInter
import Dls2.Lib.Multimap
import Dls2.Commands.CallCommand

/-!
# Looking commands up

The commands that are discovered are held in a multimap from names to owners, which `find`
turns around to search for an owner. A pair that is advertised several times is there several
times, and `callCommand` goes by how many are found.
-/

namespace Dls2.Commands

/-- Pairs of name and owner. -/
abbrev CommandsList := Multimap String String

namespace CommandsList

/-- The loop of `findByOwner`. -/
def ownedBy (cmds : CommandsList) (owner : String) : CommandsList :=
  cmds.entries.foldl (fun cmdlst it => if it.2 = owner then cmdlst.insert it else cmdlst) ∅

/-- What the loop has collected is not what is returned. -/
def findByOwner (cmds : CommandsList) (owner : String) : CommandsList :=
  if cmds.size = 0 then ∅
  else
    let _cmdlst := cmds.ownedBy owner
    cmds

def findByName (cmds : CommandsList) (name : String) : CommandsList :=
  if cmds.count name = 0 then ∅ else Multimap.insertAll (cmds.equalRange name) ∅

def find (cmds : CommandsList) (owner name : String) : CommandsList :=
  if cmds.count name = 0 then ∅
  else
    -- the owners are the keys here
    let cmdlst := Multimap.insertAll ((cmds.equalRange name).map Prod.swap) ∅
    if cmdlst.count owner = 0 then ∅
    else Multimap.insertAll ((cmdlst.equalRange owner).map Prod.swap) ∅

variable (cmds : CommandsList) (owner name : String)

/-- Every pair is returned. -/
theorem toMultiset_findByOwner : (cmds.findByOwner owner).toMultiset = cmds.toMultiset := by
  unfold findByOwner
  split
  · have none : cmds.entries = [] := List.length_eq_zero_iff.mp ‹cmds.size = 0›
    rw [Multimap.toMultiset, Multimap.toMultiset, none]
    rfl
  · rfl

/-- The first test only saves the copy of an empty range. -/
theorem findByName_eq : cmds.findByName name = Multimap.insertAll (cmds.equalRange name) ∅ := by
  unfold findByName
  split
  · rw [List.length_eq_zero_iff.mp ‹cmds.count name = 0›]
    rfl
  · rfl

/-- Both tests only save the copy of an empty range. -/
theorem find_eq : cmds.find owner name =
    Multimap.insertAll (((Multimap.insertAll ((cmds.equalRange name).map Prod.swap) ∅ :
      CommandsList).equalRange owner).map Prod.swap) ∅ := by
  unfold find
  split
  · rw [List.length_eq_zero_iff.mp ‹cmds.count name = 0›]
    rfl
  · simp only
    split
    next none =>
      rw [List.length_eq_zero_iff.mp none]
      rfl
    next => rfl

theorem toMultiset_findByName :
    (cmds.findByName name).toMultiset = cmds.toMultiset.filter fun cmd => cmd.1 = name := by
  rw [findByName_eq, Multimap.toMultiset_copy, Multimap.coe_equalRange]

/-- Turned around twice, the pairs are those of both the owner and the name. -/
theorem toMultiset_find : (cmds.find owner name).toMultiset =
    cmds.toMultiset.filter fun cmd => cmd.2 = owner ∧ cmd.1 = name := by
  rw [find_eq, Multimap.toMultiset_copy, ← Multiset.map_coe, Multimap.coe_equalRange,
    Multimap.toMultiset_copy, ← Multiset.map_coe, Multimap.coe_equalRange,
    Multiset.filter_map, Multiset.filter_filter, Multiset.map_map]
  simp

/-- The pairs found by name are in the order in which they are held. -/
theorem entries_findByName :
    (cmds.findByName name).entries = CommandManager.findByName cmds.entries name := by
  have sorted : (cmds.equalRange name).Pairwise fun one other => one.1 ≤ other.1 := by
    rw [Multimap.equalRange_eq_filter]
    exact cmds.sorted.filter _
  rw [findByName_eq, Multimap.entries_copy sorted, Multimap.equalRange_eq_filter]
  exact List.filter_congr fun cmd _ => (beq_eq_decide cmd.1 name).symm

/-- All pairs of an owner and a name are the same pair. -/
theorem entries_find :
    (cmds.find owner name).entries = CommandManager.find cmds.entries owner name := by
  have found : CommandManager.find cmds.entries owner name =
      cmds.entries.filter fun cmd => cmd.2 = owner ∧ cmd.1 = name := by
    rw [CommandManager.find, CommandManager.findByName, List.filter_filter]
    refine List.filter_congr fun cmd _ => ?_
    rw [Bool.decide_and, beq_eq_decide, beq_eq_decide]
  have same : (cmds.find owner name).entries.Perm
      (CommandManager.find cmds.entries owner name) := by
    rw [found]
    exact Multiset.coe_eq_coe.mp (toMultiset_find cmds owner name)
  have alike : ∀ cmd ∈ CommandManager.find cmds.entries owner name, cmd = (name, owner) := by
    rw [found]
    intro cmd member
    have both := of_decide_eq_true (List.mem_filter.mp member).2
    exact Prod.ext both.2 both.1
  rw [List.eq_replicate_of_mem alike] at same ⊢
  exact List.perm_replicate.mp same

end CommandsList

/-- A call that goes to everybody of the name, which looks nothing up. -/
def Broadcast (args : List String) (owner : String) : Prop :=
  owner = "" ∧ args.getLast? = some "all"

/-- What the lookups are for: each returns the pairs it is named after, with their
multiplicities, and `callCommand` returns how many there are. -/
structure LookupsExact (manager : CommandManager) (cmds : CommandsList) (owner name : String)
    (args : List String) : Prop where
  byOwner : (cmds.findByOwner owner).toMultiset = cmds.toMultiset.filter fun cmd => cmd.2 = owner
  byName : (cmds.findByName name).toMultiset = cmds.toMultiset.filter fun cmd => cmd.1 = name
  both : (cmds.find owner name).toMultiset =
    cmds.toMultiset.filter fun cmd => cmd.2 = owner ∧ cmd.1 = name
  intersection : (cmds.find owner name).toMultiset =
    (cmds.findByOwner owner).toMultiset ∩ (cmds.findByName name).toMultiset
  counted : ¬ Broadcast args owner →
    ∀ result ∈ manager.callCommand cmds.entries name args owner, result.1 =
      (cmds.toMultiset.filter fun cmd => (owner = "" ∨ cmd.2 = owner) ∧ cmd.1 = name).card

namespace CommandsList

variable {manager : CommandManager} {cmds : CommandsList} {owner name : String}
  {args : List String}

/-- The pairs that `callCommand` counts. -/
theorem cmdList_eq (looksUp : ¬ Broadcast args owner) :
    CommandManager.cmdList cmds.entries name args owner =
      (if owner = "" then (cmds.findByName name).entries else (cmds.find owner name).entries,
        args) := by
  rw [entries_findByName, entries_find]
  unfold CommandManager.cmdList
  split
  next anyone =>
    have notAll : args.getLast? ≠ some "all" := fun all => looksUp ⟨anyone, all⟩
    rw [if_neg notAll]
  next => rfl

/-- Whatever a call does, it returns how many commands have been found. -/
theorem count_of_callCommand (looksUp : ¬ Broadcast args owner)
    {result : Nat × Called × Option CommandCall}
    (taken : manager.callCommand cmds.entries name args owner = some result) :
    result.1 = (if owner = "" then (cmds.findByName name).toMultiset
      else (cmds.find owner name).toMultiset).card := by
  unfold CommandManager.callCommand at taken
  rw [cmdList_eq looksUp] at taken
  have counted : (if owner = "" then (cmds.findByName name).toMultiset
      else (cmds.find owner name).toMultiset).card = (if owner = "" then
        (cmds.findByName name).entries else (cmds.find owner name).entries).length := by
    split <;> rfl
  rw [counted]
  split at taken
  next cmdData args only =>
    rw [(Prod.mk.inj only).1]
    split at taken
    · obtain ⟨called, _, rfl⟩ := Option.map_eq_some_iff.mp taken
      rfl
    · obtain rfl := Option.some.inj taken
      rfl
  next several args other =>
    obtain rfl := Option.some.inj taken
    rw [(Prod.mk.inj other).1]

/-- The lookups are exact except for that by owner, which is so if nobody else has advertised
anything. -/
theorem lookupsExact_iff (manager : CommandManager) (cmds : CommandsList)
    (owner name : String) (args : List String) :
    LookupsExact manager cmds owner name args ↔ ∀ cmd ∈ cmds.entries, cmd.2 = owner := by
  have byOwner : (cmds.findByOwner owner).toMultiset =
      cmds.toMultiset.filter (fun cmd => cmd.2 = owner) ↔ ∀ cmd ∈ cmds.entries, cmd.2 = owner := by
    rw [toMultiset_findByOwner, eq_comm]
    exact Multiset.filter_eq_self
  constructor
  · intro lookups
    exact byOwner.mp lookups.byOwner
  · intro all
    refine ⟨byOwner.mpr all, toMultiset_findByName cmds name, toMultiset_find cmds owner name,
      ?_, ?_⟩
    · rw [byOwner.mpr all, toMultiset_findByName, toMultiset_find]
      ext cmd
      rw [Multiset.count_inter, Multiset.count_filter, Multiset.count_filter,
        Multiset.count_filter]
      by_cases owned : cmd.2 = owner <;> by_cases named : cmd.1 = name <;> simp [owned, named]
    · intro looksUp result taken
      rw [count_of_callCommand looksUp taken, toMultiset_findByName, toMultiset_find]
      split
      next anyone => simp [anyone]
      next someone => simp [someone]

/-- A command of somebody else is returned, too. -/
theorem not_lookupsExact_of_two_owners : ¬ LookupsExact (.new "console")
    ⟨[("stand", "estimator"), ("stand", "robot")], by simp⟩ "robot" "stand" [] := by
  intro lookups
  have returned := congrArg Multiset.card lookups.byOwner
  revert returned
  decide

end CommandsList

end Dls2.Commands
