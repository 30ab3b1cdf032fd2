import Dls2.Lib.Search
import Dls2.Lib.Words

/-!
# The lines of the console

`ConsoleLayer::monitor` reads a line, splits it at its white space and calls the command
that the first token names, with the other tokens as arguments. A token
`process::command` names the process as well. Only blanks count in the test for an empty
line, while any white space separates tokens.
-/

namespace Dls2.CoreFramework

open Search Words

/-- The white space that `operator>>` skips. -/
def isspace (character : Char) : Bool :=
  character == ' ' || (9 ≤ character.toNat && character.toNat ≤ 13)

def colons : List Char := "::".toList

/-- What `monitor` does with a line. `missingToken` is the access to the first token
where there is none. -/
inductive MonitorOutcome where
  | returns
  | resetsLineState
  | missingToken
  | callsCommand (commandName : List Char) (inputArguments : List (List Char))
      (processName : List Char)
  deriving DecidableEq, Repr

/-- What is printed after a call. -/
inductive CallReport where
  | nothing
  | processesOf (commandName : List Char)
  | processesAndCommands
  deriving DecidableEq, Repr

namespace ConsoleLayer

/-- The process and the command that the first token names. A token in which `::` is
found has at least two characters. -/
def processAndCommand (token : List Char) : List Char × List Char :=
  match search colons token with
  | some processNameEnd =>
    if processNameEnd ≠ token.length - 2 then
      (token.take processNameEnd, token.drop (processNameEnd + 2))
    else ([], token)
  | none => ([], token)

/-- The part of `monitor` after `readline` has returned a line. -/
def handleLine (command : List Char) : MonitorOutcome :=
  if command.all (· == ' ') then .resetsLineState
  else match words isspace command with
    | [] => .missingToken
    | token :: inputArguments =>
      let (processName, commandName) := processAndCommand token
      .callsCommand commandName inputArguments processName

/-- `shutdownRequested` is asked before and after `readline`. -/
def monitor (shutdownBefore shutdownAfter : Bool) (line : Option (List Char)) : MonitorOutcome :=
  if shutdownBefore then .returns
  else if shutdownAfter then .returns
  else match line with
    | none => .returns
    | some line => handleLine line

/-- The end of `monitor`, by the number of commands that `callCommand` has found. -/
def reportCall (commandName : List Char) (ret : Nat) : CallReport :=
  if ret > 1 then .processesOf commandName
  else if ret = 0 then .processesAndCommands
  else .nothing

end ConsoleLayer

/-! ### What a line means -/

/-- The first `::` of the token stands at the position. -/
structure FirstColons (token : List Char) (position : Nat) : Prop where
  occurs : Occurs colons token position
  first : ∀ earlier < position, ¬ Occurs colons token earlier

/-- A token names a process and a command, on the two sides of its first `::`, unless
there is none or nothing follows it. -/
inductive Names (token : List Char) : List Char → List Char → Prop where
  | both (position : Nat) (first : FirstColons token position)
      (follows : position + 2 ≠ token.length) :
      Names token (token.take position) (token.drop (position + 2))
  | command (bare : ∀ position, FirstColons token position → position + 2 = token.length) :
      Names token [] token

/-- A line without tokens is ignored; another one is called by its first token. -/
def Understands (line : List Char) (outcome : MonitorOutcome) : Prop :=
  match words isspace line with
  | [] => outcome = .resetsLineState
  | token :: rest => ∃ process command, Names token process command ∧
      outcome = .callsCommand command rest process

namespace ConsoleLayer

theorem search_colons_iff {token : List Char} {position : Nat} :
    search colons token = some position ↔ FirstColons token position := by
  constructor
  · intro found
    obtain ⟨occurs, -, first⟩ := search_eq_some_iff.mp found
    exact ⟨occurs, first⟩
  · intro colons
    have fits := colons.occurs.length_le
    rw [List.length_drop] at fits
    have two : Dls2.CoreFramework.colons.length = 2 := rfl
    exact search_eq_some_iff.mpr ⟨colons.occurs, by omega, colons.first⟩

theorem search_colons_eq_none_iff {token : List Char} :
    search colons token = none ↔ ∀ position, ¬ FirstColons token position := by
  simp only [← search_colons_iff, Option.eq_none_iff_forall_ne_some, ne_eq]

/-- There is one first `::`. -/
theorem firstColons_unique {token : List Char} {position other : Nat}
    (first : FirstColons token position) (second : FirstColons token other) :
    position = other := by
  rw [← search_colons_iff] at first second
  exact Option.some.inj (first.symm.trans second)

/-- The first token is taken apart as it should be. -/
theorem names_processAndCommand (token : List Char) :
    Names token (processAndCommand token).1 (processAndCommand token).2 := by
  unfold processAndCommand
  cases found : search colons token with
  | none =>
    exact .command fun position first =>
      absurd first (search_colons_eq_none_iff.mp found position)
  | some position =>
    have bound : position + 2 ≤ token.length := search_bound found
    have first := search_colons_iff.mp found
    dsimp only
    split
    next follows => exact .both position first (by omega)
    next ends =>
      refine .command fun other colons => ?_
      obtain rfl := firstColons_unique first colons
      omega

/-- Only blanks, as opposed to only white space. -/
theorem all_blank_iff (line : List Char) :
    line.all (· == ' ') = true ↔ ∀ character ∈ line, character = ' ' := by
  simp

theorem isspace_of_blank {line : List Char} (blank : ∀ character ∈ line, character = ' ') :
    ∀ character ∈ line, isspace character = true := by
  intro character member
  rw [blank character member]
  rfl

/-- A line with white space other than blanks and no token is not ignored. -/
theorem missingToken_of_white {line : List Char}
    (white : ∀ character ∈ line, isspace character = true)
    (other : ¬ ∀ character ∈ line, character = ' ') :
    monitor false false (some line) = .missingToken := by
  have none : words isspace line = [] := words_eq_nil_iff.mpr white
  rw [← all_blank_iff] at other
  simp only [monitor, handleLine, Bool.false_eq_true, if_false, other, none]

/-- While the console is not shut down, `monitor` does with a line what it should if and
only if the line consists of blanks or has a token. -/
theorem understands_iff (line : List Char) :
    Understands line (monitor false false (some line)) ↔
      (∀ character ∈ line, character = ' ') ∨ ∃ character ∈ line, isspace character = false := by
  unfold Understands
  by_cases blank : ∀ character ∈ line, character = ' '
  · have none : words isspace line = [] := words_eq_nil_iff.mpr (isspace_of_blank blank)
    have all := (all_blank_iff line).mpr blank
    refine iff_of_true ?_ (.inl blank)
    simp only [none, monitor, handleLine, all, Bool.false_eq_true, if_false, if_true]
  · by_cases white : ∀ character ∈ line, isspace character = true
    · have none : words isspace line = [] := words_eq_nil_iff.mpr white
      rw [missingToken_of_white white blank]
      refine iff_of_false (by simp [none]) ?_
      rintro (only | ⟨character, member, token⟩)
      · exact blank only
      · exact Bool.false_ne_true (token.symm.trans (white character member))
    · have some : words isspace line ≠ [] := fun none => white (words_eq_nil_iff.mp none)
      obtain ⟨token, rest, split⟩ := List.exists_cons_of_ne_nil some
      have notBlank := mt (all_blank_iff line).mp blank
      refine iff_of_true ?_ (.inr (by simpa using white))
      rw [split]
      refine ⟨_, _, names_processAndCommand token, ?_⟩
      simp only [monitor, handleLine, Bool.false_eq_true, if_false, notBlank, split]

/-- A line that consists of a tab has no token, and is not ignored. -/
theorem tab_misses_token : ¬ Understands ['\t'] (monitor false false (some ['\t'])) := by
  rw [missingToken_of_white (List.forall_mem_singleton.mpr rfl) (by simp)]
  intro ignored
  cases ignored

end ConsoleLayer

end Dls2.CoreFramework
