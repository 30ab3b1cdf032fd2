import Mathlib.Data.List.Basic
import Dls2.Lib.Separated

/-!
# The list of layers on the command line

`Options::parseArgs` is documented to take a comma-separated list of layers to launch.
Its loop compares what is left of the list, commas included, with the names of the
layers, and only then has `getsubopt` cut it at the first comma.
-/

namespace Dls2.CoreFramework

open Separated

/-- The characters of a C string. -/
abbrev Text := List Char

/-- What the other arguments of the command line have set. -/
structure OtherOptions where
  showDocs : Bool
  launchSupervisor : Bool
  runStartup : Bool
  runServers : Bool
  killDls2 : Bool
  deriving DecidableEq, Repr

/-- The static members of `Options` that matter to the layers. -/
structure Options extends OtherOptions where
  launchHardware : Bool
  launchControl : Bool
  launchConsole : Bool
  launchLog : Bool
  launchEstimation : Bool
  launchService : Bool
  estimationLayerName : Text
  deriving DecidableEq, Repr

/-- What `value` points to: it starts uninitialised, and `getsubopt` makes it null for a
token without a value. -/
inductive Value where
  | uninitialised
  | null
  | text (value : Text)
  deriving DecidableEq, Repr

/-- How `parseArgs` ends. Printing a `value` that is null or uninitialised has no defined
behaviour. -/
inductive Outcome where
  | returnsTrue (options : Options)
  | returnsFalse
  | invalidCommandLine (error : Text)
  | undefined
  deriving DecidableEq, Repr

namespace Options

def defaultName : Text := "EstimationLayer".toList

def estimation : Text := "estimation".toList

/-- `parseArgs` clears the layers first. -/
def cleared (others : OtherOptions) : Options where
  toOtherOptions := others
  launchHardware := false
  launchControl := false
  launchConsole := false
  launchLog := false
  launchEstimation := false
  launchService := false
  estimationLayerName := defaultName

def tokens : List Text :=
  ["hardware".toList, "control".toList, "console".toList, "log".toList, estimation,
    "service".toList]

/-- `getsubopt`: the value of the first suboption, and what follows its comma. -/
def getsubopt (subopts : Text) : Value × Text :=
  let suboption := first ',' subopts
  let value :=
    if first '=' suboption ∈ tokens then
      if '=' ∈ suboption then .text (Separated.rest '=' suboption) else .null
    else .text suboption
  (value, Separated.rest ',' subopts)

/-- The name of the estimation layer carries what follows the prefix. -/
def estimationName (layer : Text) : Text := defaultName ++ layer.drop estimation.length

/-- The chain of comparisons in the loop; `none` is its last branch. -/
def launchLayer (options : Options) (layer : Text) : Option Options :=
  if layer = "hardware".toList then some { options with launchHardware := true }
  else if layer = "control".toList then some { options with launchControl := true }
  else if layer = "console".toList then some { options with launchConsole := true }
  else if layer = "log".toList then some { options with launchLog := true }
  else if estimation <+: layer then
    some { options with
      launchEstimation := true
      estimationLayerName := estimationName layer }
  else if layer = "service".toList then some { options with launchService := true }
  else none

/-- The branch for an unknown layer. -/
def unknownLayer : Value → Outcome
  | .uninitialised => .undefined
  | .null => .undefined
  | .text value => .invalidCommandLine ("unknown layer: ".toList ++ value)

def validate (options : Options) : Bool :=
  options.showDocs || options.launchEstimation || options.launchHardware ||
    options.launchControl || options.launchConsole || options.launchLog ||
    options.launchService || options.launchSupervisor || options.runStartup ||
    options.killDls2 || options.runServers

/-- The loop of `case 'l'`. -/
def parseLayers (options : Options) (value : Value) (subopts : Text) : Except Outcome Options :=
  if _ : subopts ≠ [] then
    match options.launchLayer subopts with
    | none => .error (unknownLayer value)
    | some options => parseLayers options (getsubopt subopts).1 (getsubopt subopts).2
  else .ok options
termination_by subopts.length
decreasing_by exact length_rest_lt ‹subopts ≠ []›

/-- `parseArgs` for a command line with one `-l` and other arguments. -/
def parseArgs (others : OtherOptions) (optarg : Text) : Outcome :=
  match parseLayers (cleared others) .uninitialised optarg with
  | .error outcome => outcome
  | .ok options => if options.validate then .returnsTrue options else .returnsFalse

end Options

/-! ### What the documentation says -/

inductive Layer where
  | hardware
  | control
  | console
  | log
  | service
  | estimation (suffix : Text)
  deriving DecidableEq, Repr

namespace Layer

/-- The layer that an item of the list names. -/
def ofItem (item : Text) : Option Layer :=
  if item = "hardware".toList then some .hardware
  else if item = "control".toList then some .control
  else if item = "console".toList then some .console
  else if item = "log".toList then some .log
  else if item = "service".toList then some .service
  else if Options.estimation <+: item then
    some (.estimation (item.drop Options.estimation.length))
  else none

def suffix? : Layer → Option Text
  | .estimation suffix => some suffix
  | _ => none

end Layer

/-- Exactly the listed layers are launched, and the last estimation layer is named. -/
def Options.launching (others : OtherOptions) (layers : List Layer) : Options where
  toOtherOptions := others
  launchHardware := decide (.hardware ∈ layers)
  launchControl := decide (.control ∈ layers)
  launchConsole := decide (.console ∈ layers)
  launchLog := decide (.log ∈ layers)
  launchService := decide (.service ∈ layers)
  launchEstimation := layers.any fun layer => layer.suffix?.isSome
  estimationLayerName := defaultName ++ ((layers.filterMap Layer.suffix?).getLast?.getD [])

def Outcome.Rejects (outcome : Outcome) : Prop :=
  outcome = .returnsFalse ∨ ∃ error, outcome = .invalidCommandLine error

/-- What is promised for a list of items: the listed layers are launched, or the list is
rejected if an item is none of them. -/
structure Options.KeepsPromise (others : OtherOptions) (items : List Text) : Prop where
  launches : (∀ item ∈ items, (Layer.ofItem item).isSome = true) →
    parseArgs others (join ',' items) =
      .returnsTrue (launching others (items.filterMap Layer.ofItem))
  rejects : (∃ item ∈ items, Layer.ofItem item = none) →
    (parseArgs others (join ',' items)).Rejects

namespace Options

/-- Launch a layer, under a name if it is an estimation layer. -/
def launch (options : Options) : Layer → Options
  | .hardware => { options with launchHardware := true }
  | .control => { options with launchControl := true }
  | .console => { options with launchConsole := true }
  | .log => { options with launchLog := true }
  | .service => { options with launchService := true }
  | .estimation suffix => { options with
      launchEstimation := true
      estimationLayerName := defaultName ++ suffix }

/-- The loop launches what the whole remainder names as an item. -/
theorem launchLayer_eq (options : Options) (layer : Text) :
    options.launchLayer layer = (Layer.ofItem layer).map options.launch := by
  unfold launchLayer Layer.ofItem
  by_cases service : layer = "service".toList
  · subst service
    rfl
  · simp only [if_neg service]
    split_ifs <;> rfl

end Options

/-- What names a layer and goes on after a comma is an estimation layer. -/
theorem Layer.ofItem_append {item more : Text} :
    Layer.ofItem (item ++ ',' :: more) =
      if Options.estimation <+: item then
        some (.estimation ((item ++ ',' :: more).drop Options.estimation.length))
      else none := by
  have comma : ',' ∈ item ++ ',' :: more := by simp
  have other : ∀ name : Text, ',' ∉ name → item ++ ',' :: more ≠ name :=
    fun name free same => free (same ▸ comma)
  unfold Layer.ofItem
  rw [if_neg (other _ (by decide)), if_neg (other _ (by decide)), if_neg (other _ (by decide)),
    if_neg (other _ (by decide)), if_neg (other _ (by decide))]
  simp only [prefix_append_iff (show ',' ∉ Options.estimation by decide)]

namespace Options

/-- The value of a suboption. -/
def suboptValue (suboption : Text) : Value :=
  if first '=' suboption ∈ tokens then
    if '=' ∈ suboption then .text (Separated.rest '=' suboption) else .null
  else .text suboption

variable {options : Options} {value : Value} {item more : Text}

theorem parseLayers_nil (options : Options) (value : Value) :
    parseLayers options value [] = .ok options := by
  unfold parseLayers
  simp

/-- The last item of the list. -/
theorem parseLayers_last (free : ',' ∉ item) (nonempty : item ≠ []) :
    parseLayers options value item =
      match Layer.ofItem item with
      | none => .error (unknownLayer value)
      | some layer => .ok (options.launch layer) := by
  unfold parseLayers
  rw [dif_pos nonempty, launchLayer_eq]
  cases Layer.ofItem item with
  | none => rfl
  | some layer =>
    have last : (getsubopt item).2 = [] := rest_of_free free
    simp only [Option.map_some, last, parseLayers_nil]

/-- An item that is followed by a comma. -/
theorem parseLayers_more (free : ',' ∉ item) :
    parseLayers options value (item ++ ',' :: more) =
      if estimation <+: item then
        parseLayers (options.launch
          (.estimation ((item ++ ',' :: more).drop estimation.length))) (suboptValue item) more
      else .error (unknownLayer value) := by
  conv => lhs; unfold parseLayers
  have suboption : getsubopt (item ++ ',' :: more) = (suboptValue item, more) := by
    simp only [getsubopt, first_append free, rest_append free]
    rfl
  rw [dif_pos (by simp), launchLayer_eq, Layer.ofItem_append, suboption]
  split_ifs <;> rfl

/-- Estimation items that are not the last ones are all launched, under a name with a
comma. -/
theorem parseLayers_append (options : Options) (value : Value) {before rest : List Text}
    {last : Text} (free : ∀ item ∈ before ++ [last], ',' ∉ item)
    (estimations : ∀ item ∈ before ++ [last], estimation <+: item) (nonempty : rest ≠ []) :
    ∃ suffix, ',' ∈ suffix ∧
      parseLayers options value (join ',' (before ++ last :: rest)) =
        parseLayers (options.launch (.estimation suffix)) (suboptValue last) (join ',' rest) := by
  induction before generalizing options value with
  | nil =>
    obtain ⟨shorter, begins⟩ := estimations last (by simp)
    refine ⟨shorter ++ ',' :: join ',' rest, by simp, ?_⟩
    rw [List.nil_append, join_cons ',' last nonempty, parseLayers_more (free last (by simp)),
      if_pos (estimations last (by simp)), ← begins]
    simp
  | cons item before ih =>
    have tail : before ++ last :: rest ≠ [] := by simp
    obtain ⟨suffix, comma, runs⟩ := ih (options.launch (.estimation
        ((item ++ ',' :: join ',' (before ++ last :: rest)).drop estimation.length)))
      (suboptValue item) (fun other member => free other (List.mem_cons_of_mem item member))
      (fun other member => estimations other (List.mem_cons_of_mem item member))
    refine ⟨suffix, comma, ?_⟩
    rw [List.cons_append, join_cons ',' item tail, parseLayers_more (free item (by simp)),
      if_pos (estimations item (by simp)), runs]
    rfl

/-- The first item that is no estimation item ends the loop. -/
theorem parseLayers_other {after : List Text} (free : ',' ∉ item) (other : ¬ estimation <+: item) :
    parseLayers options value (join ',' (item :: after)) =
      if after = [] then
        if item = [] then .ok options
        else match Layer.ofItem item with
          | none => .error (unknownLayer value)
          | some layer => .ok (options.launch layer)
      else .error (unknownLayer value) := by
  by_cases last : after = []
  · subst last
    by_cases empty : item = []
    · subst empty
      simpa [join] using parseLayers_nil options value
    · simpa [join, empty] using @parseLayers_last options value item free empty
  · rw [join_cons ',' item last, parseLayers_more free, if_neg other, if_neg last]

/-- What is printed for an unknown layer is what the suboption before it left. -/
theorem unknownLayer_rejects_iff (begins : estimation <+: item) :
    (unknownLayer (suboptValue item)).Rejects ↔ item ≠ estimation := by
  constructor
  · rintro (rejects | ⟨error, rejects⟩) rfl
    · exact absurd rejects (by decide)
    · have undefined : unknownLayer (suboptValue estimation) = .undefined := by decide
      rw [undefined] at rejects
      cases rejects
  · intro other
    have text : ∃ value, suboptValue item = .text value := by
      unfold suboptValue
      split_ifs with known valued
      · exact ⟨_, rfl⟩
      · rw [first_of_free valued] at known
        have only : ∀ token ∈ tokens, estimation <+: token → token = estimation := by decide
        exact absurd (only item known begins) other
      · exact ⟨_, rfl⟩
    obtain ⟨value, text⟩ := text
    exact .inr ⟨_, by rw [text]; rfl⟩

theorem ofItem_of_estimation (begins : estimation <+: item) :
    Layer.ofItem item = some (.estimation (item.drop estimation.length)) := by
  have different : ∀ name : Text, ¬ estimation <+: name → item ≠ name :=
    fun name plain same => plain (same ▸ begins)
  unfold Layer.ofItem
  rw [if_neg (different _ (by decide)), if_neg (different _ (by decide)),
    if_neg (different _ (by decide)), if_neg (different _ (by decide)),
    if_neg (different _ (by decide)), if_pos begins]

theorem validate_launch (options : Options) (layer : Layer) :
    (options.launch layer).validate = true := by
  cases layer <;> simp [launch, validate]

/-- One listed layer. -/
theorem launching_single (others : OtherOptions) (layer : Layer) :
    launching others [layer] = (cleared others).launch layer := by
  cases layer <;> simp [launching, cleared, launch, Layer.suffix?]

/-- Among estimation items the last one counts. -/
theorem launching_estimations (others : OtherOptions) {before : List Text} {last : Text}
    (estimations : ∀ item ∈ before ++ [last], estimation <+: item) :
    launching others ((before ++ [last]).filterMap Layer.ofItem) =
      (cleared others).launch (.estimation (last.drop estimation.length)) := by
  have layers : (before ++ [last]).filterMap Layer.ofItem =
      (before ++ [last]).map fun item => .estimation (item.drop estimation.length) := by
    rw [← List.filterMap_eq_map]
    exact List.filterMap_congr fun item member => ofItem_of_estimation (estimations item member)
  rw [layers]
  simp [launching, cleared, launch, Layer.suffix?, Function.comp_def]

/-- The lists that are treated as documented. Estimation items may be listed together,
any other layer only by itself. A list is rejected at its first item that is no
estimation item, if the suboption before that one has left a text to print. -/
inductive Served (others : OtherOptions) (items : List Text) : Prop where
  | estimations (all : ∀ item ∈ items, estimation <+: item)
  | single (item : Text) (only : items = [item]) (named : (Layer.ofItem item).isSome = true)
  | empty (only : items = [[]]) (idle : (cleared others).validate = false)
  | refused (before : List Text) (last item : Text) (after : List Text)
      (split : items = before ++ last :: item :: after)
      (begins : ∀ other ∈ before ++ [last], estimation <+: other)
      (ends : ¬ estimation <+: item) (printed : last ≠ estimation)
      (unknown : ∃ other ∈ items, Layer.ofItem other = none)
      (more : after = [] → item ≠ [])

variable {others : OtherOptions} {items : List Text}

theorem parseArgs_estimations {before : List Text} {last : Text}
    (free : ∀ item ∈ before ++ [last], ',' ∉ item)
    (estimations : ∀ item ∈ before ++ [last], estimation <+: item) :
    parseArgs others (join ',' (before ++ [last])) =
      .returnsTrue (launching others ((before ++ [last]).filterMap Layer.ofItem)) := by
  have begins := estimations last (by simp)
  have nonempty : last ≠ [] := by
    rintro rfl
    exact absurd begins (by decide)
  have whole : parseLayers (cleared others) .uninitialised (join ',' (before ++ [last])) =
      .ok ((cleared others).launch (.estimation (last.drop estimation.length))) := by
    rcases List.eq_nil_or_concat' before with rfl | ⟨front, previous, rfl⟩
    · rw [List.nil_append, join, parseLayers_last (free last (by simp)) nonempty,
        ofItem_of_estimation begins]
    · obtain ⟨suffix, -, runs⟩ := parseLayers_append (cleared others) .uninitialised
        (fun item member => free item (List.mem_append_left _ member))
        (fun item member => estimations item (List.mem_append_left _ member))
        (List.cons_ne_nil last [])
      rw [List.append_assoc, List.singleton_append, runs, join,
        parseLayers_last (free last (by simp)) nonempty, ofItem_of_estimation begins]
      rfl
  rw [launching_estimations others estimations]
  simp [parseArgs, whole, validate_launch]

theorem not_rejects_returnsTrue (options : Options) : ¬ (Outcome.returnsTrue options).Rejects := by
  rintro (same | ⟨error, same⟩) <;> cases same

theorem unknownLayer_ne_returnsTrue (value : Value) (options : Options) :
    unknownLayer value ≠ .returnsTrue options := by
  cases value <;> simp [unknownLayer]

theorem suffix_of_ofItem {suffix : Text}
    (named : Layer.ofItem item = some (.estimation suffix)) :
    suffix = item.drop estimation.length := by
  unfold Layer.ofItem at named
  split_ifs at named <;> cases named
  rfl

/-- The documented name has no comma. -/
theorem free_suffix (free : ∀ listed ∈ items, ',' ∉ listed) :
    ',' ∉ (((items.filterMap Layer.ofItem).filterMap Layer.suffix?).getLast?.getD []) := by
  cases last : ((items.filterMap Layer.ofItem).filterMap Layer.suffix?).getLast? with
  | none => simp
  | some suffix =>
    obtain ⟨layer, listedLayer, suffixed⟩ := List.mem_filterMap.mp (List.mem_of_getLast? last)
    obtain ⟨listed, member, named⟩ := List.mem_filterMap.mp listedLayer
    have estimated : layer = .estimation suffix := by
      cases layer <;> cases suffixed
      rfl
    have dropped : suffix = listed.drop estimation.length :=
      suffix_of_ofItem (estimated ▸ named)
    rw [Option.getD_some, dropped]
    exact fun comma => free listed member (List.mem_of_mem_drop comma)

/-- A layer that is no estimation layer keeps the name. -/
theorem launch_name {layer : Layer} (named : Layer.ofItem item = some layer)
    (other : ¬ estimation <+: item) (options : Options) :
    (options.launch layer).estimationLayerName = options.estimationLayerName := by
  cases layer with
  | estimation suffix =>
    unfold Layer.ofItem at named
    rw [if_neg other] at named
    split_ifs at named <;> cases named
  | _ => rfl

/-- A list at whose end an unknown layer is printed. -/
theorem keepsPromise_of_unknown (fails : parseLayers (cleared others) .uninitialised
    (join ',' items) = .error (unknownLayer value)) : KeepsPromise others items ↔
      (unknownLayer value).Rejects ∧ ∃ listed ∈ items, Layer.ofItem listed = none := by
  have ends : parseArgs others (join ',' items) = unknownLayer value := by
    rw [parseArgs, fails]
  constructor
  · intro promise
    have outside : ∃ listed ∈ items, Layer.ofItem listed = none := by
      by_contra none
      have all : ∀ listed ∈ items, (Layer.ofItem listed).isSome = true := by
        intro listed member
        rw [Option.isSome_iff_ne_none]
        exact fun unnamed => none ⟨listed, member, unnamed⟩
      exact unknownLayer_ne_returnsTrue value _ (ends.symm.trans (promise.launches all))
    exact ⟨ends ▸ promise.rejects outside, outside⟩
  · rintro ⟨rejects, listed, member, unnamed⟩
    refine ⟨fun all => ?_, fun _ => ends.symm ▸ rejects⟩
    exact absurd (all listed member) (by simp [unnamed])

theorem not_rejects_uninitialised : ¬ (unknownLayer .uninitialised).Rejects := by
  rintro (same | ⟨error, same⟩) <;> cases same

/-- Without a suboption before it, there is no text to print. -/
theorem not_keepsPromise_of_uninitialised (fails : parseLayers (cleared others) .uninitialised
    (join ',' items) = .error (unknownLayer .uninitialised)) : ¬ KeepsPromise others items := by
  rw [keepsPromise_of_unknown fails]
  exact fun promise => not_rejects_uninitialised promise.1

/-- An empty item at the end is not looked at. -/
theorem not_keepsPromise_of_returnsTrue {options : Options}
    (succeeds : parseArgs others (join ',' items) = .returnsTrue options)
    (unnamed : ∃ item ∈ items, Layer.ofItem item = none) : ¬ KeepsPromise others items := by
  intro promise
  have rejects := promise.rejects unnamed
  rw [succeeds] at rejects
  exact not_rejects_returnsTrue options rejects

/-- A list whose first item is no estimation item. -/
theorem keepsPromise_first {after : List Text} (free : ',' ∉ item)
    (other : ¬ estimation <+: item) : KeepsPromise others (item :: after) ↔
      after = [] ∧ ((Layer.ofItem item).isSome = true ∨
        item = [] ∧ (cleared others).validate = false) := by
  have runs := @parseLayers_other (cleared others) .uninitialised item after free other
  by_cases last : after = []
  · subst last
    rw [if_pos rfl] at runs
    by_cases empty : item = []
    · subst empty
      have unnamed : Layer.ofItem [] = none := by decide
      rw [if_pos rfl] at runs
      simp only [unnamed, Option.isSome_none, Bool.false_eq_true, false_or, true_and]
      cases valid : (cleared others).validate with
      | true =>
        have succeeds : parseArgs others (join ',' [[]]) = .returnsTrue (cleared others) := by
          rw [parseArgs, runs]
          simp only [valid, if_true]
        exact iff_of_false
          (not_keepsPromise_of_returnsTrue succeeds ⟨[], by simp, unnamed⟩) (by simp)
      | false =>
        refine iff_of_true ⟨fun all => ?_, fun _ => .inl ?_⟩ rfl
        · exact absurd (all [] (by simp)) (by simp [unnamed])
        · rw [parseArgs, runs]
          simp [valid]
    · rw [if_neg empty] at runs
      cases named : Layer.ofItem item with
      | none =>
        rw [named] at runs
        exact iff_of_false (not_keepsPromise_of_uninitialised runs) (by simp [empty])
      | some layer =>
        rw [named] at runs
        refine iff_of_true ⟨fun _ => ?_, ?_⟩ (by simp)
        · rw [parseArgs, runs]
          simp [validate_launch, named, launching_single]
        · simp [named]
  · rw [if_neg last] at runs
    exact iff_of_false (not_keepsPromise_of_uninitialised runs) (by simp [last])

/-- A list that begins with estimation items and goes on with another one. -/
theorem keepsPromise_later {before after : List Text} {last : Text}
    (free : ∀ listed ∈ before ++ last :: item :: after, ',' ∉ listed)
    (begins : ∀ listed ∈ before ++ [last], estimation <+: listed)
    (other : ¬ estimation <+: item) :
    KeepsPromise others (before ++ last :: item :: after) ↔
      (after = [] → item ≠ []) ∧ last ≠ estimation ∧
        ∃ listed ∈ before ++ last :: item :: after, Layer.ofItem listed = none := by
  obtain ⟨suffix, comma, runs⟩ := parseLayers_append (cleared others) .uninitialised
    (fun listed member => free listed (by
      rw [← List.singleton_append, ← List.append_assoc]
      exact List.mem_append_left _ member))
    begins (List.cons_ne_nil item after)
  have begun := begins last (by simp)
  rw [parseLayers_other (free item (by simp)) other] at runs
  by_cases final : after = []
  · subst final
    rw [if_pos rfl] at runs
    by_cases empty : item = []
    · subst empty
      rw [if_pos rfl] at runs
      have succeeds : parseArgs others (join ',' (before ++ last :: [[]])) =
          .returnsTrue ((cleared others).launch (.estimation suffix)) := by
        rw [parseArgs, runs]
        simp only [validate_launch, if_true]
      exact iff_of_false
        (not_keepsPromise_of_returnsTrue succeeds ⟨[], by simp, by decide⟩) (by simp)
    · rw [if_neg empty] at runs
      cases named : Layer.ofItem item with
      | none =>
        rw [named] at runs
        rw [keepsPromise_of_unknown runs, unknownLayer_rejects_iff begun]
        simp [empty]
      | some layer =>
        rw [named] at runs
        have all : ∀ listed ∈ before ++ last :: [item], (Layer.ofItem listed).isSome = true := by
          intro listed member
          rw [← List.singleton_append, ← List.append_assoc, List.mem_append] at member
          rcases member with estimated | single
          · simp [ofItem_of_estimation (begins listed estimated)]
          · simp [List.mem_singleton.mp single, named]
        refine iff_of_false (fun promise => ?_) ?_
        · -- the name of the estimation layer has swallowed the rest of the list
          have launches := promise.launches all
          rw [parseArgs, runs] at launches
          simp only [validate_launch, if_true, Outcome.returnsTrue.injEq] at launches
          have names := congrArg Options.estimationLayerName launches
          rw [launch_name named other] at names
          have swallowed := List.append_cancel_left names
          exact free_suffix free (swallowed ▸ comma)
        · rintro ⟨-, -, listed, member, unnamed⟩
          exact absurd (all listed member) (by simp [unnamed])
  · rw [if_neg final] at runs
    rw [keepsPromise_of_unknown runs, unknownLayer_rejects_iff begun]
    simp [final]

/-- A list of estimation items. -/
theorem keepsPromise_estimations (free : ∀ item ∈ items, ',' ∉ item) (nonempty : items ≠ [])
    (all : ∀ item ∈ items, estimation <+: item) : KeepsPromise others items := by
  obtain empty | ⟨before, last, rfl⟩ := List.eq_nil_or_concat' items
  · exact absurd empty nonempty
  · refine ⟨fun _ => parseArgs_estimations free all, ?_⟩
    rintro ⟨item, member, unnamed⟩
    rw [ofItem_of_estimation (all item member)] at unnamed
    cases unnamed

/-- A list ends its leading estimation items or consists of them. -/
theorem estimations_or_split (items : List Text) : (∀ item ∈ items, estimation <+: item) ∨
    ∃ before item after, items = before ++ item :: after ∧
      (∀ listed ∈ before, estimation <+: listed) ∧ ¬ estimation <+: item := by
  induction items with
  | nil => exact .inl (by simp)
  | cons item items ih =>
    by_cases begins : estimation <+: item
    · rcases ih with all | ⟨before, other, after, rfl, all, ends⟩
      · exact .inl (List.forall_mem_cons.mpr ⟨begins, all⟩)
      · exact .inr ⟨item :: before, other, after, rfl, List.forall_mem_cons.mpr ⟨begins, all⟩,
          ends⟩
    · exact .inr ⟨[], item, items, rfl, by simp, begins⟩

/-- A list of items is treated as documented if and only if it is one of those that are
served. -/
theorem keepsPromise_iff (others : OtherOptions) (items : List Text)
    (free : ∀ item ∈ items, ',' ∉ item) (nonempty : items ≠ []) :
    KeepsPromise others items ↔ Served others items := by
  constructor
  · intro promise
    rcases estimations_or_split items with all | ⟨before, item, after, rfl, begins, ends⟩
    · exact .estimations all
    · obtain rfl | ⟨front, last, rfl⟩ := List.eq_nil_or_concat' before
      · obtain ⟨rfl, named | ⟨rfl, idle⟩⟩ :=
          (keepsPromise_first (free item (by simp)) ends).mp promise
        · exact .single item rfl named
        · exact .empty rfl idle
      · rw [List.append_assoc, List.singleton_append] at free promise ⊢
        obtain ⟨more, printed, unknown⟩ := (keepsPromise_later free begins ends).mp promise
        exact .refused front last item after rfl begins ends printed unknown more
  · rintro (all | ⟨item, rfl, named⟩ | ⟨rfl, idle⟩ |
      ⟨before, last, item, after, rfl, begins, ends, printed, unknown, more⟩)
    · exact keepsPromise_estimations free nonempty all
    · by_cases begins : estimation <+: item
      · exact keepsPromise_estimations free nonempty (by simpa using begins)
      · exact (keepsPromise_first (free item (by simp)) begins).mpr ⟨rfl, .inl named⟩
    · exact (keepsPromise_first (by simp) (by decide)).mpr ⟨rfl, .inr ⟨rfl, idle⟩⟩
    · exact (keepsPromise_later free begins ends).mpr ⟨more, printed, unknown⟩

/-- Of two estimation layers the second one gives the name. -/
theorem keepsPromise_two_estimations : KeepsPromise ⟨false, false, false, false, false⟩
    ["estimation_fast".toList, "estimation_slow".toList] :=
  (keepsPromise_iff ⟨false, false, false, false, false⟩
    ["estimation_fast".toList, "estimation_slow".toList] (by decide) (by decide)).mpr
      (.estimations (by decide))

/-- The list `hardware,control` is not accepted. -/
theorem two_layers_refused : ¬ KeepsPromise ⟨false, false, false, false, false⟩
    ["hardware".toList, "control".toList] := by
  rw [keepsPromise_first (by decide) (by decide)]
  simp

end Options

end Dls2.CoreFramework
