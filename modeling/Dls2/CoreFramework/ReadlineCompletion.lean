import Dls2.Lib.Assoc
import Dls2.Lib.Separated
import Dls2.CoreFramework.ConsoleLayer

/-!
# Completion in the console

`readline` asks `command_completion` for the words that can stand at the cursor, and
`display_matches` to print them where there are several. The first word of a line is
completed to a command, the word after a `load[Layer]` command to a library of its
folder. The command is cut out of the line three times: once after the blanks at its
beginning have been removed, and twice with them.

An exception is `none`. It escapes through `readline`.
-/

namespace Dls2.CoreFramework

open Assoc Search Separated

/-- The commands of each process. -/
abbrev Processes := Map String (List String)

/-- The files in the folders that exist. -/
abbrev Listing := String → Option (List (List Char))

/-- The cursor range of a completion is a part of the line. -/
structure CompletionRequest where
  lineBuffer : List Char
  start : Nat
  stop : Nat
  ordered : start ≤ stop
  inside : stop ≤ lineBuffer.length

namespace CompletionRequest

def text (request : CompletionRequest) : List Char :=
  (request.lineBuffer.take request.stop).drop request.start

/-- The line without the blanks at its beginning. -/
def line (request : CompletionRequest) : List Char := request.lineBuffer.dropWhile (· == ' ')

end CompletionRequest

namespace ConsoleLayer

/-- An empty command stands for all of them. -/
def getProcessesAndCommands (cmds : List (String × String)) (command : String) : Processes :=
  cmds.foldl (fun complete entry =>
    if command = "" ∨ entry.1 = command then
      complete.insert entry.2 (((complete.lookup entry.2).getD []).insert entry.1)
    else complete) ∅

def loadLayersPaths : List (String × String) :=
  [("loadController", "${DLS_INSTALL_CONTROLLER_DIR}"),
    ("loadGenerator", "${DLS_INSTALL_MOTION_GENERATOR_DIR}"),
    ("loadEstimator", "${DLS_INSTALL_ESTIMATOR_DIR}"),
    ("loadHardware", "${DLS_INSTALL_HARDWARE_DIR}"),
    ("loadService", "${DLS_INSTALL_SERVICE_DIR}"),
    ("loadDataVisualizer", "${DLS_INSTALL_DATA_VISUALIZER_DIR}"),
    ("loadSimulator", "${DLS_INSTALL_SIMULATOR_DIR}"),
    ("loadModel", "${DLS_INSTALL_MODEL_DIR}"),
    ("runProcedure", "${DLS_INSTALL_PROCEDURE_DIR}")]

def loadLayersPath (command : List Char) : Option String :=
  loadLayersPaths.lookup (String.ofList command)

def processTitle (process : List Char) : List Char := '\n' :: process ++ colons

def bullet (item : List Char) : List Char := " * ".toList ++ item

/-- The lines that are printed. -/
def printProcessesAndCommands (processes : Processes) : List (List Char) :=
  processes.entries.flatMap fun entry =>
    processTitle entry.1.toList :: entry.2.map fun command => bullet command.toList

end ConsoleLayer

namespace ReadlineCompletion

open ConsoleLayer

/-- The first word of the line without the process in front of it. -/
def loadLayerCommand (line : List Char) : Option (List Char) :=
  let processAndLoadLayerCommand := first ' ' line
  substr processAndLoadLayerCommand (endOf colons processAndLoadLayerCommand)

/-- The words that successive calls return. -/
def commandGenerator (processes : Processes) (text : List Char) : List (List Char) :=
  processes.entries.flatMap fun entry => entry.2.filterMap fun command =>
    let completeCommand := entry.1.toList ++ colons ++ command.toList
    if text <+: completeCommand ∨ text <+: command.toList then some completeCommand else none

/-- A shared library has `lib` in its name and ends with `.so`. -/
def isLibrary (filename : List Char) : Bool :=
  (search "lib".toList filename).isSome && ".so".toList.isSuffixOf filename

/-- A library has at least six characters in its name. -/
def libraries (files : List (List Char)) : Option (List (List Char)) :=
  (files.filter isLibrary).mapM fun filename =>
    (substr filename 3).map (·.take (filename.length - 6))

/-- The words that successive calls return. The line is cut as it stands. -/
def loadLayerArgumentGenerator (listing : Listing) (lineBuffer text : List Char) :
    Option (List (List Char)) := do
  let command ← loadLayerCommand lineBuffer
  let path ← loadLayersPath command
  match listing path with
  | none => some []
  | some files => (libraries files).map (List.filter (text <+: ·))

/-- No words are a null pointer. -/
def commandCompletion (processes : Processes) (listing : Listing) (request : CompletionRequest) :
    Option (List (List Char)) :=
  if request.start = 0 then some (commandGenerator processes request.text)
  else if request.line = [] then some []
  else do
    let command ← loadLayerCommand request.line
    if (loadLayersPath command).isSome ∧
        (request.line.length ≤ (first ' ' request.line).length + 1 ∨
          request.start ≠ request.stop) then
      loadLayerArgumentGenerator listing request.lineBuffer request.text
    else some []

/-- The variables of the loop of `display_matches`, and what is printed. -/
structure Display where
  processes : Processes
  previousProcess : List Char
  process : List Char
  command : List Char
  printed : List (List Char)

namespace Display

def new (processes : Processes) : Display := ⟨processes, [], [], [], []⟩

def print (display : Display) (line : List Char) : Display :=
  { display with printed := display.printed ++ [line] }

def printProcess (display : Display) : Display :=
  if display.process ≠ display.previousProcess ∧
      String.ofList display.process ∈ display.processes then
    { display.print (processTitle display.process) with previousProcess := display.process }
  else display

/-- `operator[]` enters a process that is missing. -/
def printCommand (display : Display) : Display :=
  let process := String.ofList display.process
  let display := { display with processes := emplace process [] display.processes }
  if String.ofList display.command ∈ (display.processes.lookup process).getD [] then
    display.print (bullet display.command)
  else display

/-- The body of the loop. -/
def displayMatch (command : List Char) (display : Display) (found : List Char) :
    Option Display := do
  let display ← match search colons found with
    | some processNameEnd => (substr found (processNameEnd + 2)).map fun command =>
      { display with process := found.take processNameEnd, command := command }
    | none => some (if found ≠ [] ∧ (loadLayersPath command).isSome then
        display.print (bullet found)
      else display)
  some display.printProcess.printCommand

end Display

/-- The lines that are printed. In front of the words that have been found stands what
they have in common. -/
def displayMatches (processes : Processes) (lineBuffer common : List Char)
    (found : List (List Char)) : Option (List (List Char)) :=
  if found.length > 0 then
    if lineBuffer ≠ [] then do
      let command ← loadLayerCommand lineBuffer
      let display ← (common :: found).foldlM (Display.displayMatch command) (.new processes)
      some display.printed
    else some (printProcessesAndCommands processes)
  else some []

/-! ### When an exception escapes -/

/-- No exception escapes from a request: neither from the completion, nor from the display
of its words, for which `readline` asks if there are several. -/
def Answers (processes : Processes) (listing : Listing) (request : CompletionRequest) : Prop :=
  ∃ found, commandCompletion processes listing request = some found ∧
    (1 < found.length → ∀ common,
      (displayMatches processes request.lineBuffer common found).isSome)

/-- The command in a word: what follows its first `::`. Without any, the first symbol is
left out. -/
inductive Loads (word : List Char) : List Char → Prop where
  | owned (position : Nat) (first : FirstColons word position) :
      Loads word (word.drop (position + 2))
  | bare (never : ∀ position, ¬ FirstColons word position) (nonempty : word ≠ []) :
      Loads word word.tail

/-- Without the blanks at its beginning, the line starts with a `load[Layer]` command whose
argument is to be completed. -/
def AwaitsArgument (request : CompletionRequest) : Prop :=
  ∃ command, Loads (first ' ' request.line) command ∧
    String.ofList command ∈ loadLayersPaths.map Prod.fst ∧
    (request.line.length ≤ (first ' ' request.line).length + 1 ∨ request.start ≠ request.stop)

/-- The line starts with a blank, and the cursor is at its beginning and several commands
could stand there, or the argument of a `load[Layer]` command is to be completed. -/
def Stumbles (processes : Processes) (request : CompletionRequest) : Prop :=
  request.lineBuffer.head? = some ' ' ∧
    ((request.start = 0 ∧ 1 < (commandGenerator processes request.text).length) ∨
      (request.start ≠ 0 ∧ AwaitsArgument request))

theorem first_eq_nil_iff {line : List Char} :
    first ' ' line = [] ↔ line = [] ∨ line.head? = some ' ' := by
  cases line <;> simp [first, List.takeWhile_cons]

theorem loadLayerCommand_eq_some_iff {line command : List Char} :
    loadLayerCommand line = some command ↔ Loads (first ' ' line) command := by
  unfold loadLayerCommand
  generalize first ' ' line = word
  have two : colons.length = 2 := rfl
  cases found : search colons word with
  | some position =>
    have bound : position + 2 ≤ word.length := search_bound found
    have colons := search_colons_iff.mp found
    simp only [endOf, found, substr, two]
    rw [if_pos bound, Option.some.injEq]
    constructor
    · rintro rfl
      exact .owned position colons
    · intro loads
      cases loads with
      | owned other first => rw [firstColons_unique colons first]
      | bare never => exact absurd colons (never position)
  | none =>
    have never := search_colons_eq_none_iff.mp found
    have tail : word.drop (2 - 1) = word.tail := List.drop_one
    simp only [endOf, found, substr, two, tail, Option.ite_some_none_eq_some]
    constructor
    · rintro ⟨nonempty, rfl⟩
      exact .bare never (List.length_pos_iff.mp nonempty)
    · intro loads
      cases loads with
      | owned position first => exact absurd first (never position)
      | bare _ nonempty => exact ⟨List.length_pos_iff.mpr nonempty, rfl⟩

/-- The command can be cut out unless the line is empty or starts with a blank. -/
theorem isSome_loadLayerCommand_iff (line : List Char) :
    (loadLayerCommand line).isSome ↔ line ≠ [] ∧ line.head? ≠ some ' ' := by
  have two : colons.length = 2 := rfl
  have empty := @first_eq_nil_iff line
  rw [← List.length_eq_zero_iff] at empty
  rw [loadLayerCommand, isSome_substr_endOf_iff, two, ← not_or, ← empty]
  omega

theorem isSome_loadLayersPath_iff (command : List Char) :
    (loadLayersPath command).isSome ↔ String.ofList command ∈ loadLayersPaths.map Prod.fst := by
  rw [loadLayersPath, List.lookup_isSome_iff, List.mem_map]
  refine exists_congr fun entry => and_congr_right fun _ => ?_
  rw [beq_iff_eq]
  exact eq_comm

/-- `lib` cannot overlap the `.so` at the end. -/
theorem length_of_lib_prefix {text : List Char}
    (begins : "lib".toList <+: text ++ ".so".toList) : 3 ≤ text.length := by
  match text with
  | [] | [_] | [_, _] => simp at begins
  | _ :: _ :: _ :: rest =>
    simp only [List.length_cons]
    omega

theorem length_of_isLibrary {filename : List Char} (library : isLibrary filename = true) :
    6 ≤ filename.length := by
  rw [isLibrary, Bool.and_eq_true, List.isSuffixOf_iff_suffix] at library
  obtain ⟨lib, stem, rfl⟩ := library
  obtain ⟨position, found⟩ := Option.isSome_iff_exists.mp lib
  have bound : position + 3 ≤ (stem ++ ".so".toList).length := search_bound found
  rw [List.length_append, show ".so".toList.length = 3 from rfl] at bound ⊢
  have occurs := (search_eq_some_iff.mp found).1
  rw [Occurs, List.drop_append_of_le_length (by omega)] at occurs
  have long := length_of_lib_prefix occurs
  rw [List.length_drop] at long
  omega

/-- The name of a library can be cut out. -/
theorem isSome_libraries (files : List (List Char)) : (libraries files).isSome := by
  unfold libraries
  induction files with
  | nil => rfl
  | cons filename rest ih =>
    rw [List.filter_cons]
    split
    next library =>
      have long := length_of_isLibrary library
      obtain ⟨names, others⟩ := Option.isSome_iff_exists.mp ih
      have fits : 3 ≤ filename.length := by omega
      rw [List.mapM_cons, others, substr, if_pos fits]
      rfl
    next => exact ih

/-- The folder is found where the command can be cut out. -/
theorem isSome_loadLayerArgumentGenerator_iff (listing : Listing) (lineBuffer text : List Char) :
    (loadLayerArgumentGenerator listing lineBuffer text).isSome ↔
      ∃ command, loadLayerCommand lineBuffer = some command ∧ (loadLayersPath command).isSome := by
  cases cut : loadLayerCommand lineBuffer with
  | none => simp [loadLayerArgumentGenerator, cut]
  | some command =>
    cases folder : loadLayersPath command with
    | none => simp [loadLayerArgumentGenerator, cut, folder]
    | some path =>
      cases files : listing path with
      | none => simp [loadLayerArgumentGenerator, cut, folder, files]
      | some names =>
        have cutOut := isSome_libraries names
        simp [loadLayerArgumentGenerator, cut, folder, files, cutOut]

/-- One turn of the loop raises nothing. -/
theorem isSome_displayMatch (command : List Char) (display : Display) (found : List Char) :
    (display.displayMatch command found).isSome := by
  unfold Display.displayMatch
  cases position : search colons found with
  | none => rfl
  | some processNameEnd =>
    have fits : processNameEnd + 2 ≤ found.length := search_bound position
    simp [substr, fits]

/-- Nor does the loop. -/
theorem isSome_foldlM_displayMatch (command : List Char) (found : List (List Char))
    (display : Display) : (found.foldlM (Display.displayMatch command) display).isSome := by
  induction found generalizing display with
  | nil => rfl
  | cons entry rest ih =>
    obtain ⟨next, turn⟩ := Option.isSome_iff_exists.mp (isSome_displayMatch command display entry)
    rw [List.foldlM_cons, turn]
    exact ih next

/-- Words are displayed unless the line starts with a blank. -/
theorem isSome_displayMatches_iff (processes : Processes) (lineBuffer common : List Char)
    {found : List (List Char)} (several : 0 < found.length) :
    (displayMatches processes lineBuffer common found).isSome ↔ lineBuffer.head? ≠ some ' ' := by
  have cut := isSome_loadLayerCommand_iff lineBuffer
  by_cases empty : lineBuffer = []
  · simp [displayMatches, several, empty]
  · rw [displayMatches, if_pos several, if_pos empty]
    rw [and_iff_right empty] at cut
    rw [← cut]
    cases loadLayerCommand lineBuffer with
    | none => rfl
    | some command =>
      obtain ⟨display, turns⟩ := Option.isSome_iff_exists.mp
        (isSome_foldlM_displayMatch command (common :: found) (.new processes))
      simp only [Option.bind_eq_bind, Option.bind_some, turns, Option.isSome_some]

variable {request : CompletionRequest}

/-- The line without the blanks at its beginning does not start with one. -/
theorem head?_line (request : CompletionRequest) : request.line.head? ≠ some ' ' := by
  intro blank
  have stays := List.head?_dropWhile_not (· == ' ') request.lineBuffer
  rw [CompletionRequest.line] at blank
  simp [blank] at stays

theorem line_eq_self (unblank : request.lineBuffer.head? ≠ some ' ') :
    request.line = request.lineBuffer := by
  unfold CompletionRequest.line
  cases text : request.lineBuffer with
  | nil => rfl
  | cons symbol rest =>
    rw [text, List.head?_cons, ne_eq, Option.some.injEq] at unblank
    simp [unblank]

/-- The cursor is not at the beginning of the line, so that only an argument can be
completed. -/
theorem commandCompletion_awaiting (processes : Processes) (listing : Listing)
    (later : request.start ≠ 0) (awaits : AwaitsArgument request) :
    commandCompletion processes listing request =
      loadLayerArgumentGenerator listing request.lineBuffer request.text := by
  obtain ⟨command, loads, key, cursor⟩ := awaits
  rw [← isSome_loadLayersPath_iff] at key
  rw [← loadLayerCommand_eq_some_iff] at loads
  have nonempty := ((isSome_loadLayerCommand_iff request.line).mp (by simp [loads])).1
  rw [commandCompletion, if_neg later, if_neg nonempty, loads]
  exact if_pos ⟨key, cursor⟩

theorem commandCompletion_idle (processes : Processes) (listing : Listing)
    (later : request.start ≠ 0) (idle : ¬ AwaitsArgument request) :
    commandCompletion processes listing request = some [] := by
  rw [commandCompletion, if_neg later]
  split
  next => rfl
  next nonempty =>
    obtain ⟨command, cut⟩ := Option.isSome_iff_exists.mp
      ((isSome_loadLayerCommand_iff request.line).mpr ⟨nonempty, head?_line request⟩)
    rw [cut]
    refine if_neg fun asked => idle ⟨command, ?_, ?_, asked.2⟩
    · exact loadLayerCommand_eq_some_iff.mp cut
    · exact (isSome_loadLayersPath_iff command).mp asked.1

/-- With a blank at the beginning of the line no argument is completed. -/
theorem loadLayerArgumentGenerator_blank (listing : Listing) (text : List Char)
    {lineBuffer : List Char} (blank : lineBuffer.head? = some ' ') :
    loadLayerArgumentGenerator listing lineBuffer text = none := by
  have uncut : loadLayerCommand lineBuffer = none := by
    rw [← Option.not_isSome_iff_eq_none, isSome_loadLayerCommand_iff]
    exact fun cut => cut.2 blank
  rw [loadLayerArgumentGenerator, uncut]
  rfl

/-- Without one, the folder that the completion has found is found again. -/
theorem isSome_loadLayerArgumentGenerator (listing : Listing)
    (unblank : request.lineBuffer.head? ≠ some ' ') (awaits : AwaitsArgument request) :
    (loadLayerArgumentGenerator listing request.lineBuffer request.text).isSome := by
  obtain ⟨command, loads, key, -⟩ := awaits
  rw [line_eq_self unblank] at loads
  rw [isSome_loadLayerArgumentGenerator_iff]
  exact ⟨command, loadLayerCommand_eq_some_iff.mpr loads,
    (isSome_loadLayersPath_iff command).mpr key⟩

/-- At the beginning of the line, commands are completed, and displayed unless it starts
with a blank. -/
theorem answers_start_iff (processes : Processes) (listing : Listing)
    (beginning : request.start = 0) : Answers processes listing request ↔
      ¬ (request.lineBuffer.head? = some ' ' ∧
        1 < (commandGenerator processes request.text).length) := by
  simp only [Answers, commandCompletion, if_pos beginning, Option.some.injEq, exists_eq_left']
  constructor
  · rintro display ⟨blank, several⟩
    exact (isSome_displayMatches_iff processes _ [] (by omega)).mp (display several []) blank
  · intro displayable several common
    rw [isSome_displayMatches_iff processes _ common (by omega)]
    exact fun blank => displayable ⟨blank, several⟩

/-- Elsewhere, arguments are completed unless the line starts with a blank. -/
theorem answers_later_iff (processes : Processes) (listing : Listing)
    (later : request.start ≠ 0) : Answers processes listing request ↔
      ¬ (request.lineBuffer.head? = some ' ' ∧ AwaitsArgument request) := by
  by_cases awaits : AwaitsArgument request
  · by_cases blank : request.lineBuffer.head? = some ' '
    · refine iff_of_false ?_ (by simp [blank, awaits])
      rintro ⟨found, completion, -⟩
      rw [commandCompletion_awaiting processes listing later awaits,
        loadLayerArgumentGenerator_blank listing _ blank] at completion
      cases completion
    · obtain ⟨found, completion⟩ := Option.isSome_iff_exists.mp
        (isSome_loadLayerArgumentGenerator listing blank awaits)
      rw [← commandCompletion_awaiting processes listing later awaits] at completion
      refine iff_of_true ⟨found, completion, ?_⟩ (by simp [blank])
      intro several common
      exact (isSome_displayMatches_iff processes _ common (by omega)).mpr blank
  · refine iff_of_true ⟨[], commandCompletion_idle processes listing later awaits, ?_⟩
      (by simp [awaits])
    rintro ⟨⟩

/-- No exception escapes from a request, unless the line starts with a blank and a command
is cut out of it, to display commands or to complete an argument. -/
theorem answers_iff (processes : Processes) (listing : Listing) (request : CompletionRequest) :
    Answers processes listing request ↔ ¬ Stumbles processes request := by
  by_cases beginning : request.start = 0
  · rw [answers_start_iff processes listing beginning]
    simp [Stumbles, beginning]
  · rw [answers_later_iff processes listing beginning]
    simp [Stumbles, beginning]

/-- Asking for the arguments of a command that stands after a blank. -/
def blankBeforeLoad : CompletionRequest where
  lineBuffer := " ControlLayer::loadController ".toList
  start := 30
  stop := 30
  ordered := Nat.le_refl 30
  inside := by decide

theorem blankBeforeLoad_escapes : ¬ Answers ∅ (fun _ => some []) blankBeforeLoad := by
  rintro ⟨found, completion, -⟩
  have escapes : commandCompletion ∅ (fun _ => some []) blankBeforeLoad = none := by decide
  rw [escapes] at completion
  cases completion

end ReadlineCompletion

end Dls2.CoreFramework
