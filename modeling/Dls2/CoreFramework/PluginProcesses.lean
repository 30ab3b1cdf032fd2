import Mathlib.Algebra.Ring.Nat
import Dls2.ChildProcess.Launcher
import Dls2.CoreFramework.PluginLayers

/-!
# The processes of a layer

A layer has in its table exactly the processes that it has launched and that it has neither seen to
have ended nor killed, whatever it is called to do, whatever the processes do and even where calls
throw. A process is killed only after its plugin's `shutdown` has been called for, whether or not
that call reached the plugin, and after it has had its time.
-/

namespace Dls2.CoreFramework.PluginLayers

open Assoc Dialogue Utils

/-! ### What a history says about a process -/

abbrev Log := List (Said Reply)

section Histories

variable {past : Log} {event : Said Reply} {child : ℕ} {name : String}

def started (child : ℕ) (args : List String) : Said Reply := ⟨.launch child args, true⟩

def seenEnded (child : ℕ) : Said Reply := ⟨.running child, some false⟩

def killed (child : ℕ) : Said Reply := ⟨.kill child, ()⟩

/-- `running` has thrown. -/
def thrown (child : ℕ) : Said Reply := ⟨.running child, none⟩

def Launched (child : ℕ) (past : Log) : Prop := ∃ args, started child args ∈ past

/-- The command line of the process has this name in both places. -/
def LaunchedFor (name : String) (child : ℕ) (past : Log) : Prop :=
  ∃ launcher type last, started child [launcher, name, name, type, last] ∈ past

/-- The layer has seen that the process has ended, or has killed it. -/
def Over (child : ℕ) (past : Log) : Prop := seenEnded child ∈ past ∨ killed child ∈ past

theorem eq_of_started {other : ℕ} {args args' : List String}
    (same : started child args = started other args') : child = other := by
  have question := congrArg Said.question same
  exact (Ask.launch.inj question).1

/-- The end of a process tells which one. -/
theorem eq_of_ends {other : ℕ} (ends : event = seenEnded child ∨ event = killed child) :
    (event = seenEnded other ∨ event = killed other) ↔ other = child := by
  rcases ends with rfl | rfl <;> simp [seenEnded, killed, eq_comm]

theorem ends_ne_started {args : List String} {other : ℕ}
    (ends : event = seenEnded child ∨ event = killed child) : event ≠ started other args := by
  rcases ends with rfl | rfl <;> simp [seenEnded, killed, started]

theorem started_ne_ends {args : List String} {other : ℕ} :
    ¬ (started child args = seenEnded other ∨ started child args = killed other) := by
  simp [seenEnded, killed, started]

/-- Neither a process that is launched nor the end of one. -/
def Quiet (event : Said Reply) : Prop :=
  ∀ child, (∀ args, event ≠ started child args) ∧ event ≠ seenEnded child ∧ event ≠ killed child

theorem launched_append :
    Launched child (past ++ [event]) ↔
      Launched child past ∨ ∃ args, event = started child args := by
  simp only [Launched, List.mem_append, List.mem_singleton, exists_or, eq_comm]

theorem over_append :
    Over child (past ++ [event]) ↔
      Over child past ∨ event = seenEnded child ∨ event = killed child := by
  simp only [Over, List.mem_append, List.mem_singleton, eq_comm]
  exact or_or_or_comm

theorem LaunchedFor.append (launched : LaunchedFor name child past) :
    LaunchedFor name child (past ++ [event]) := by
  obtain ⟨launcher, type, last, among⟩ := launched
  exact ⟨launcher, type, last, List.mem_append_left _ among⟩

theorem LaunchedFor.launched (launched : LaunchedFor name child past) : Launched child past := by
  obtain ⟨launcher, type, last, among⟩ := launched
  exact ⟨_, among⟩

theorem Quiet.launched_iff (quiet : Quiet event) :
    Launched child (past ++ [event]) ↔ Launched child past := by
  rw [launched_append, or_iff_left]
  rintro ⟨args, same⟩
  exact (quiet child).1 args same

theorem Quiet.over_iff (quiet : Quiet event) :
    Over child (past ++ [event]) ↔ Over child past := by
  rw [over_append, or_iff_left]
  exact fun either => either.elim (quiet child).2.1 (quiet child).2.2

end Histories

/-! ### The table -/

/-- The table has exactly the processes that are launched and not over. -/
structure Owns (past : Log) (plugins : Plugins) : Prop where
  fresh : ∀ child, Launched child past ∨ Over child past → child < plugins.launched
  exact : ∀ child, (∃ name, plugins.table.lookup name = some child) ↔
    Launched child past ∧ ¬ Over child past
  single : ∀ name other child, plugins.table.lookup name = some child →
    plugins.table.lookup other = some child → name = other
  named : ∀ name child, plugins.table.lookup name = some child → LaunchedFor name child past

namespace Owns

variable {past : Log} {plugins : Plugins} {event : Said Reply} {child : ℕ} {name : String}

theorem start : Owns [] .new where
  fresh child started := by simp [Launched, Over] at started
  exact child := by simp [Plugins.new, Launched]
  single name other child entry := by simp [Plugins.new] at entry
  named name child entry := by simp [Plugins.new] at entry

theorem quiet (owns : Owns past plugins) (quiet : Quiet event) :
    Owns (past ++ [event]) plugins where
  fresh child := by
    rw [quiet.launched_iff, quiet.over_iff]
    exact owns.fresh child
  exact child := by
    rw [quiet.launched_iff, quiet.over_iff]
    exact owns.exact child
  single := owns.single
  named name child entry := (owns.named name child entry).append

/-- A process that is launched is entered under a free name. -/
theorem launch (owns : Owns past plugins) (free : name ∉ plugins.table)
    (launcher type last : String) :
    Owns (past ++ [started plugins.launched [launcher, name, name, type, last]])
      ⟨emplace name plugins.launched plugins.table, plugins.launched + 1⟩ := by
  have entries (other : String) (child : ℕ) :
      (emplace name plugins.launched plugins.table).lookup other = some child ↔
        plugins.table.lookup other = some child ∨ other = name ∧ child = plugins.launched := by
    rw [lookup_emplace_eq]
    by_cases same : other = name
    · subst same
      simp [AList.lookup_eq_none.mpr free, eq_comm]
    · simp [same]
  have below (other : String) (child : ℕ) (entry : plugins.table.lookup other = some child) :
      child < plugins.launched :=
    owns.fresh child (.inl ((owns.exact child).mp ⟨other, entry⟩).1)
  constructor
  · intro child
    rw [launched_append, over_append, or_iff_left started_ne_ends]
    rintro ((before | ⟨args, same⟩) | before)
    · exact Nat.lt_succ_of_lt (owns.fresh child (.inl before))
    · exact Nat.lt_succ_of_le (Nat.le_of_eq (eq_of_started same).symm)
    · exact Nat.lt_succ_of_lt (owns.fresh child (.inr before))
  · intro child
    rw [launched_append, over_append, or_iff_left started_ne_ends]
    constructor
    · rintro ⟨other, entry⟩
      rcases (entries other child).mp entry with entry | ⟨rfl, rfl⟩
      · obtain ⟨launched, going⟩ := (owns.exact child).mp ⟨other, entry⟩
        exact ⟨.inl launched, going⟩
      · exact ⟨.inr ⟨_, rfl⟩, fun gone => Nat.lt_irrefl _ (owns.fresh _ (.inr gone))⟩
    · rintro ⟨launched | ⟨args, same⟩, going⟩
      · obtain ⟨other, entry⟩ := (owns.exact child).mpr ⟨launched, going⟩
        exact ⟨other, (entries other child).mpr (.inl entry)⟩
      · exact ⟨name, (entries name child).mpr (.inr ⟨rfl, (eq_of_started same).symm⟩)⟩
  · intro first second child entry entry'
    rcases (entries first child).mp entry with old | ⟨rfl, rfl⟩
    · rcases (entries second child).mp entry' with old' | ⟨rfl, rfl⟩
      · exact owns.single first second child old old'
      · exact absurd (below first _ old) (Nat.lt_irrefl _)
    · rcases (entries second _).mp entry' with old' | ⟨rfl, -⟩
      · exact absurd (below second _ old') (Nat.lt_irrefl _)
      · rfl
  · intro other child entry
    rcases (entries other child).mp entry with entry | ⟨rfl, rfl⟩
    · exact (owns.named other child entry).append
    · exact ⟨launcher, type, last, by simp⟩

/-- A process that is over is taken out. -/
theorem remove (owns : Owns past plugins) (entry : plugins.table.lookup name = some child)
    (ends : event = seenEnded child ∨ event = killed child) :
    Owns (past ++ [event]) { plugins with table := plugins.table.erase name } := by
  have launched (other : ℕ) : Launched other (past ++ [event]) ↔ Launched other past := by
    rw [launched_append, or_iff_left fun ⟨args, same⟩ => ends_ne_started ends same]
  have isOver (other : ℕ) : Over other (past ++ [event]) ↔ Over other past ∨ other = child := by
    rw [over_append, eq_of_ends ends]
  have entries (other : String) (found : ℕ) :
      (plugins.table.erase name).lookup other = some found ↔
        other ≠ name ∧ plugins.table.lookup other = some found := by
    by_cases same : other = name
    · subst same
      simp
    · simp [same, AList.lookup_erase_ne same]
  constructor
  · intro other
    rw [launched, isOver]
    rintro (before | before | rfl)
    · exact owns.fresh other (.inl before)
    · exact owns.fresh other (.inr before)
    · exact owns.fresh other (.inl ((owns.exact other).mp ⟨name, entry⟩).1)
  · intro found
    rw [launched, isOver, not_or, ← and_assoc, ← owns.exact]
    simp only [entries]
    constructor
    · rintro ⟨other, different, entry'⟩
      refine ⟨⟨other, entry'⟩, ?_⟩
      rintro rfl
      exact different (owns.single other name found entry' entry)
    · rintro ⟨⟨other, entry'⟩, different⟩
      refine ⟨other, ?_, entry'⟩
      rintro rfl
      exact different (Option.some.inj (entry'.symm.trans entry))
  · intro first second found entry entry'
    exact owns.single first second found ((entries first found).mp entry).2
      ((entries second found).mp entry').2
  · intro other found entry'
    exact (owns.named other found ((entries other found).mp entry').2).append

end Owns

/-! ### What may be asked -/

/-- The types on the command lines of the layers. -/
def pluginTypes : List String :=
  ["hardware", "estimator", "periodic_app_plugin", "python_periodic_app"]

theorem parseArgs_of_known (launcher name libName last : String) {type : String}
    (known : type ∈ pluginTypes) :
    ChildProcess.parseArgs [launcher, name, libName, type, last] =
      .ok ⟨name, libName, type, last⟩ := by
  simp only [pluginTypes, List.mem_cons, List.not_mem_nil, or_false] at known
  rcases known with rfl | rfl | rfl | rfl <;> rfl

/-- The environment has named this launcher. -/
def Named (launcher : String) (past : Log) : Prop :=
  ∃ env, ⟨.getenv env, some launcher⟩ ∈ past

def sleptFor : Said Reply → ℕ
  | ⟨.sleepFor ms, late⟩ => ms + late
  | _ => 0

/-- The milliseconds that have been slept. -/
def slept (said : Log) : ℕ := (said.map sleptFor).sum

/-- What is said while the end of a process is awaited. -/
def Awaits (child : ℕ) : Said Reply → Prop
  | ⟨.running asked, answer⟩ => asked = child ∧ answer = some true
  | ⟨.sleepFor _, _⟩ => True
  | ⟨.print _ _, _⟩ => True
  | _ => False

/-- `shutdown` has been called for the plugin, and its process has been running ever since. The
call may have come to nothing: a reply other than 1 is the number of participants found with the
command, and then nothing was sent. -/
def Called (name : String) (child elapsed : ℕ) (past : Log) : Prop :=
  ∃ before reply between, past = before ++ ⟨.callCommand "shutdown" [] name, reply⟩ :: between ∧
    (∀ event ∈ between, Awaits child event) ∧ elapsed ≤ slept between

/-- Launching needs a launcher and a type, and killing needs patience. -/
def May (past : Log) : Ask → Prop
  | .launch _ args => ∃ launcher name type last, args = [launcher, name, name, type, last] ∧
      type ∈ pluginTypes ∧ Named launcher past
  | .kill child => ∃ name, LaunchedFor name child past ∧ Called name child 2000 past
  | _ => True

def rules : Rules Reply where
  may := May
  keeps _ _ _ := True

section Programs

variable {past : Log} {plugins : Plugins} {kind : Kind} {name : String} {child : ℕ}

theorem Called.wait {elapsed : ℕ} {event : Said Reply} (asked : Called name child elapsed past)
    (awaits : Awaits child event) :
    Called name child (elapsed + sleptFor event) (past ++ [event]) := by
  obtain ⟨before, reply, between, rfl, waits, time⟩ := asked
  refine ⟨before, reply, between ++ [event], by simp, ?_, ?_⟩
  · intro other among
    rcases List.mem_append.mp among with among | among
    · exact waits other among
    · rwa [List.mem_singleton.mp among]
  · simpa [slept] using time

def left : Except Plugins Plugins → Plugins
  | .ok plugins => plugins
  | .error plugins => plugins

/-- The layer owns what a command leaves. -/
def Keeps (later : Log) (result : Except Plugins (Bool × Plugins)) : Prop :=
  Owns later (left (result.map Prod.snd))

/-- What the search for a launcher ends with. -/
def FindsLauncher (plugins : Plugins) (later : Log) : Except Plugins (Option String) → Prop
  | .ok none => Owns later plugins
  | .ok (some launcher) => Owns later plugins ∧ Named launcher later
  | .error _ => False

theorem meets_requireEnv (owns : Owns past plugins) (env : String) (nonempty : Bool)
    (missing : String) :
    (Plugins.requireEnv env nonempty missing).Meets rules (FindsLauncher plugins) past := by
  refine ⟨trivial, fun found _ => ?_⟩
  have asked : Owns (past ++ [⟨.getenv env, found⟩]) plugins :=
    owns.quiet (by simp [Quiet, started, seenEnded, killed])
  have refused (later : Log) (owns : Owns later plugins) :
      ((Plugins.error missing).bind fun _ => .done none : LayerProgram (Option String)).Meets rules
        (FindsLauncher plugins) later :=
    ⟨trivial, fun printed _ => owns.quiet (by simp [Quiet, started, seenEnded, killed])⟩
  cases found with
  | none => exact refused _ asked
  | some value =>
    change Program.Meets rules (FindsLauncher plugins)
      (if (nonempty && value == "") = true then _ else _) _
    split_ifs with empty
    · exact refused _ asked
    · exact ⟨asked, env, by simp⟩

theorem meets_load {launcher : LayerProgram (Option String)}
    (known : kind.componentType ∈ pluginTypes) (owns : Owns past plugins)
    (finds : launcher.Meets rules (FindsLauncher plugins) past) :
    (plugins.load kind launcher name).Meets rules Keeps past := by
  unfold Plugins.load
  by_cases taken : name ∈ plugins.table
  · rw [if_pos taken]
    exact ⟨trivial, fun printed _ => owns.quiet (by simp [Quiet, started, seenEnded, killed])⟩
  · rw [if_neg taken]
    refine Program.Meets.bind finds (fun later found held => ?_) fun later error held => held.elim
    cases found with
    | none => exact held
    | some launcher =>
      obtain ⟨owns, named⟩ := held
      refine ⟨⟨launcher, name, kind.componentType, kind.lastArg name, rfl, known, named⟩,
        fun launched _ => ?_⟩
      cases launched with
      | false => exact owns.quiet (by simp [Quiet, started, seenEnded, killed])
      | true =>
        have entered := owns.launch taken launcher kind.componentType (kind.lastArg name)
        cases detached : kind.detached with
        | false => exact entered
        | true =>
          exact ⟨trivial, fun _ _ => entered.quiet (by simp [Quiet, started, seenEnded, killed])⟩

/-- A call of `running` has thrown. -/
def Threw (later : Log) : Prop := ∃ child, thrown child ∈ later

/-- How the wait for the end of a process ends. -/
def Waited (plugins : Plugins) (name : String) (child : ℕ) (later : Log) :
    Except Plugins Bool → Prop
  | .ok true => ∃ before, later = before ++ [seenEnded child] ∧ Owns before plugins
  | .ok false => Owns later plugins ∧ Called name child 2000 later
  | .error kept => kept = plugins ∧ Owns later plugins ∧ Threw later

/-- A process that is not seen to end is running at every poll. -/
theorem meets_wait (owns : Owns past plugins) (asked : Called name child 0 past) :
    (wait Plugins.waiting (plugins.ended child) 2000 10 (by decide)).Meets rules
      (Waited plugins name child) past := by
  refine meets_waitFrom (fun elapsed later => Owns later plugins ∧ Called name child elapsed later)
    (fun elapsed later => Owns later plugins ∧ Called name child elapsed later)
    ?_ ?_ ?_ ⟨owns, asked⟩
  · intro elapsed later held
    exact held
  · rintro elapsed later late ⟨owns, before, reply, between, rfl, waits, time⟩
    exact ⟨owns, before, reply, between, rfl, waits, Nat.le_trans late time⟩
  · rintro elapsed later - ⟨owns, asked⟩
    refine ⟨trivial, fun answer _ => ?_⟩
    cases answer with
    | none =>
      exact ⟨rfl, owns.quiet (by simp [Quiet, started, seenEnded, killed]), child, by simp [thrown]⟩
    | some running =>
      cases running with
      | false => exact ⟨later, rfl, owns⟩
      | true =>
        have polled : Owns (later ++ [⟨.running child, some true⟩]) plugins :=
          owns.quiet (by simp [Quiet, started, seenEnded, killed])
        have still : Called name child elapsed (later ++ [⟨.running child, some true⟩]) :=
          asked.wait ⟨rfl, rfl⟩
        refine ⟨trivial, fun more _ => ⟨polled.quiet (by simp [Quiet, started, seenEnded, killed]),
          ?_⟩⟩
        rw [Nat.add_assoc]
        exact still.wait trivial

/-- What unloading ends with. It throws only where `running` does. -/
def Unloaded (plugins : Plugins) (name : String) (later : Log) :
    Except Plugins (Bool × Plugins) → Prop
  | .ok (_, kept) => Owns later kept ∧ ∀ other ∈ kept.table, other ≠ name ∧ other ∈ plugins.table
  | .error kept => Owns later kept ∧ Threw later

theorem meets_unload (owns : Owns past plugins) :
    (plugins.unload kind name).Meets rules (Unloaded plugins name) past := by
  unfold Plugins.unload
  cases entry : plugins.table.lookup name with
  | none =>
    refine ⟨trivial, fun printed _ =>
      ⟨owns.quiet (by simp [Quiet, started, seenEnded, killed]), fun other present => ?_⟩⟩
    refine ⟨?_, present⟩
    rintro rfl
    exact AList.lookup_eq_none.mp entry present
  | some child =>
    refine Program.meets_query_bind.mpr ⟨trivial, fun reply _ => ?_⟩
    have called : Owns (past ++ [⟨.callCommand "shutdown" [] name, reply⟩]) plugins :=
      owns.quiet (by simp [Quiet, started, seenEnded, killed])
    have asked : Called name child 0 (past ++ [⟨.callCommand "shutdown" [] name, reply⟩]) :=
      ⟨past, reply, [], rfl, by simp, Nat.zero_le _⟩
    -- what is printed after the process is out of the table
    have ending (later : Log)
        (removed : Owns later { plugins with table := plugins.table.erase name }) :
        Program.Meets rules (Unloaded plugins name)
          ((Plugins.printUnloaded (kind.unloaded name)).bind fun _ =>
            .done (true, { plugins with table := plugins.table.erase name })) later := by
      cases kind.unloaded name with
      | none => exact ⟨removed, fun other => AList.mem_erase.mp⟩
      | some text =>
        exact ⟨trivial, fun printed _ =>
          ⟨removed.quiet (by simp [Quiet, started, seenEnded, killed]),
            fun other => AList.mem_erase.mp⟩⟩
    refine Program.Meets.bind (meets_wait called asked) (fun later unloaded waited => ?_)
      fun later error waited => ?_
    · cases unloaded with
      | true =>
        obtain ⟨before, rfl, owns⟩ := waited
        exact ending _ (owns.remove entry (.inl rfl))
      | false =>
        obtain ⟨owns, asked⟩ := waited
        refine ⟨trivial, fun printed _ => ?_⟩
        have announced : Owns (later ++ [⟨.print _ _, printed⟩]) plugins :=
          owns.quiet (by simp [Quiet, started, seenEnded, killed])
        refine ⟨⟨name, ?_, asked.wait trivial⟩, fun done _ => ?_⟩
        · exact announced.named name child entry
        · exact ending _ (announced.remove entry (.inr rfl))
    · obtain ⟨rfl, owns, threw⟩ := waited
      exact ⟨owns, threw⟩

theorem Unloaded.keeps {later : Log} {result : Except Plugins (Bool × Plugins)}
    (unloaded : Unloaded plugins name later result) : Keeps later result := by
  cases result with
  | ok value => exact unloaded.1
  | error kept => exact unloaded.1

/-- How `close` ends: with an empty table, unless `running` throws. -/
def Closed (later : Log) : Except Plugins Plugins → Prop
  | .ok kept => Owns later kept ∧ ∀ name, name ∉ kept.table
  | .error kept => Owns later kept ∧ Threw later

theorem meets_unloadAll {names : List String} (owns : Owns past plugins)
    (listed : ∀ name ∈ plugins.table, name ∈ names) :
    (Plugins.unloadAll kind names plugins).Meets rules Closed past := by
  induction names generalizing past plugins with
  | nil => exact ⟨owns, fun name present => List.not_mem_nil (listed name present)⟩
  | cons name rest ih =>
    refine Program.Meets.bind (meets_unload owns) (fun later unloaded held => ?_)
      fun later error held => held
    obtain ⟨success, kept⟩ := unloaded
    refine ih held.1 fun other present => ?_
    obtain ⟨different, before⟩ := held.2 other present
    exact (List.mem_cons.mp (listed other before)).resolve_left different

theorem meets_close (owns : Owns past plugins) :
    (plugins.close kind).Meets rules Closed past := by
  refine meets_unloadAll owns fun name present => ?_
  exact List.mem_mergeSort.mpr (AList.mem_keys.mp present)

end Programs

/-! ### Sessions -/

section Sessions

variable {layer : PluginLayer} {past : Log} {plugins : Plugins}

theorem meets_loadHardware (libName : String) {childProcessName : String}
    (named : childProcessName = "" ∨ Named childProcessName past) (owns : Owns past plugins) :
    (HardwareLayer.loadHardware libName childProcessName plugins).Meets rules Keeps past := by
  refine meets_load (by decide) owns ?_
  split_ifs with empty
  · exact meets_requireEnv owns _ _ _
  · exact ⟨owns, named.resolve_left empty⟩

theorem meets_callback {name argument : String}
    {callback : String → Plugins → LayerProgram (Bool × Plugins)}
    (offered : layer.callback name = some callback) (owns : Owns past plugins) :
    (callback argument plugins).Meets rules Keeps past := by
  have unloading (kind : Kind) : (plugins.unload kind argument).Meets rules Keeps past :=
    (meets_unload owns).mono fun later result unloaded => unloaded.keeps
  cases layer with
  | hardware =>
    simp only [PluginLayer.callback] at offered
    split_ifs at offered
    · obtain rfl := Option.some.inj offered
      exact meets_loadHardware argument (.inl rfl) owns
    · obtain rfl := Option.some.inj offered
      refine Program.Meets.bind (meets_requireEnv owns _ _ _) (fun later found held => ?_)
        fun later error held => held.elim
      cases found with
      | none => exact held
      | some launcher => exact meets_loadHardware argument (.inr held.2) held.1
    · obtain rfl := Option.some.inj offered
      exact unloading HardwareLayer.kind
  | estimation robotName =>
    simp only [PluginLayer.callback] at offered
    split_ifs at offered
    · obtain rfl := Option.some.inj offered
      exact meets_load (by simp [EstimationLayer.kind, pluginTypes]) owns
        (meets_requireEnv owns _ _ _)
    · obtain rfl := Option.some.inj offered
      exact Program.Meets.bind (unloading _) (fun later value held => held)
        fun later error held => held
  | supervisor robotName =>
    simp only [PluginLayer.callback] at offered
    split_ifs at offered
    · obtain rfl := Option.some.inj offered
      exact meets_load (by simp [Supervisor.periodicAppPlugin, Supervisor.kind, pluginTypes]) owns
        (meets_requireEnv owns _ _ _)
    · obtain rfl := Option.some.inj offered
      exact unloading _
    · obtain rfl := Option.some.inj offered
      exact meets_load (by simp [Supervisor.pythonPeriodicApp, Supervisor.kind, pluginTypes]) owns
        (meets_requireEnv owns _ _ _)

theorem meets_call (call : Call) (owns : Owns past plugins) :
    (layer.call plugins call).Meets rules (fun later result => Owns later (left result)) past := by
  have closing (kind : Kind) :
      (plugins.close kind).Meets rules (fun later result => Owns later (left result)) past := by
    refine (meets_close owns).mono fun later result closed => ?_
    cases result with
    | ok kept => exact closed.1
    | error kept => exact closed.1
  cases call with
  | command name argument =>
    simp only [PluginLayer.call]
    cases offered : layer.callback name with
    | none => exact owns
    | some callback =>
      exact Program.Meets.bind (meets_callback offered owns) (fun later value held => held)
        fun later error held => held
  | close =>
    cases layer with
    | hardware => exact closing _
    | estimation robotName => exact closing _
    | supervisor robotName => exact owns

/-- The calls of a session, and what comes after them. -/
theorem meets_session_append {rest : List Call} {post : Log → Except Empty Plugins → Prop}
    (calls : List Call) (owns : Owns past plugins)
    (ending : ∀ later kept, Owns later kept → (layer.session rest kept).Meets rules post later) :
    (layer.session (calls ++ rest) plugins).Meets rules post past := by
  induction calls generalizing past plugins with
  | nil => exact ending past plugins owns
  | cons call calls ih =>
    rw [List.cons_append, PluginLayer.session, Program.meets_bind, Program.meets_attempt]
    refine (meets_call call owns).mono fun later ended held => ?_
    cases ended with
    | ok kept => exact ih held
    | error kept => exact ih held

theorem meets_session (calls : List Call) (owns : Owns past plugins) :
    (layer.session calls plugins).Meets rules
      (fun later result => ∃ kept, result = .ok kept ∧ Owns later kept) past := by
  rw [← List.append_nil calls]
  exact meets_session_append calls owns fun later kept owns => ⟨kept, rfl, owns⟩

/-- The history of a session from the beginning. -/
theorem session_run (layer : PluginLayer) (surroundings : Surroundings Reply) (calls : List Call) :
    ∃ said plugins, (layer.session calls .new).run surroundings [] = (said, .ok plugins) ∧
      Program.Keeps rules [] said ∧ Owns said plugins := by
  have meets : (layer.session calls .new).Meets rules _ [] := meets_session calls .start
  obtain ⟨said, log, keeps, -, plugins, ended, owns⟩ := meets.run fun _ _ => trivial
  exact ⟨said, plugins, Prod.ext log ended, keeps, owns⟩

/-- Whatever a layer is called to do and whatever its processes do, it has in its table exactly the
processes that it has launched and has neither seen to have ended nor killed, each under the one
name that it was launched for. -/
theorem table_exact (layer : PluginLayer) (surroundings : Surroundings Reply)
    (calls : List Call) : ∃ said plugins,
      (layer.session calls .new).run surroundings [] = (said, .ok plugins) ∧
      (∀ child, (∃! name, plugins.table.lookup name = some child) ↔
        Launched child said ∧ ¬ Over child said) ∧
      ∀ name child, plugins.table.lookup name = some child → LaunchedFor name child said := by
  obtain ⟨said, plugins, ran, -, owns⟩ := session_run layer surroundings calls
  refine ⟨said, plugins, ran, fun child => ?_, owns.named⟩
  rw [← owns.exact]
  constructor
  · rintro ⟨name, entry, -⟩
    exact ⟨name, entry⟩
  · rintro ⟨name, entry⟩
    exact ⟨name, entry, fun other entry' => owns.single other name child entry' entry⟩

/-- A process is killed only after its plugin's `shutdown` has been called for, under the name that
it was launched for, and after at least two seconds in which it has been running at every poll. A
plugin that the call does not find is killed all the same. -/
theorem kill_is_last (layer : PluginLayer) (surroundings : Surroundings Reply)
    (calls : List Call) : ∃ said plugins,
      (layer.session calls .new).run surroundings [] = (said, .ok plugins) ∧
      ∀ before child after, said = before ++ killed child :: after →
        ∃ name, LaunchedFor name child before ∧ Called name child 2000 before := by
  obtain ⟨said, plugins, ran, keeps, -⟩ := session_run layer surroundings calls
  refine ⟨said, plugins, ran, fun before child after split => ?_⟩
  exact keeps before _ after split

/-- Closing ends every process of the hardware layer and of the estimation layer, unless asking
about a process has thrown, in `close` or in a call before it. -/
theorem close_leaves_none (layer : PluginLayer) (own : ∀ robotName, layer ≠ .supervisor robotName)
    (surroundings : Surroundings Reply) (calls : List Call) : ∃ said plugins,
      (layer.session (calls ++ [.close]) .new).run surroundings [] = (said, .ok plugins) ∧
      ((∃ child, thrown child ∈ said) ∨
        (∀ name, name ∉ plugins.table) ∧ ∀ child, Launched child said → Over child said) := by
  have closing {later : Log} {kept : Plugins} (owns : Owns later kept) :
      (layer.close kept).Meets rules Closed later := by
    cases layer with
    | hardware => exact meets_close owns
    | estimation robotName => exact meets_close owns
    | supervisor robotName => exact absurd rfl (own robotName)
  have meets : (layer.session (calls ++ [.close]) .new).Meets rules
      (fun later result => ∃ kept, result = .ok kept ∧ Owns later kept ∧
        (Threw later ∨ ∀ name, name ∉ kept.table)) [] := by
    refine meets_session_append calls .start fun later kept owns => ?_
    rw [PluginLayer.session, Program.meets_bind, Program.meets_attempt]
    refine (closing owns).mono fun last ended held => ?_
    cases ended with
    | ok kept => exact ⟨kept, rfl, held.1, .inr held.2⟩
    | error kept => exact ⟨kept, rfl, held.1, .inl held.2⟩
  obtain ⟨said, log, -, -, plugins, ended, owns, closed⟩ := meets.run fun _ _ => trivial
  refine ⟨said, plugins, Prod.ext log ended, closed.imp_right fun empty => ⟨empty, ?_⟩⟩
  intro child launched
  by_contra going
  obtain ⟨name, entry⟩ := (owns.exact child).mpr ⟨launched, going⟩
  exact empty name (AList.lookup_isSome.mp (Option.isSome_iff_exists.mpr ⟨child, entry⟩))

/-- Processes that end when they are told to. -/
def obedient : Surroundings Reply
  | _, .getenv _ => some "child_process_launcher"
  | _, .launch _ _ => true
  | _, .detach _ => ()
  | _, .running _ => some false
  | _, .kill _ => ()
  | _, .callCommand _ _ _ => 1
  | _, .sleepFor _ => 0
  | _, .print _ _ => ()

theorem close_leaves_none_hardware : ∃ said plugins,
    (PluginLayer.hardware.session ([.command "loadHardware" "hyqreal"] ++ [.close]) .new).run
        obedient [] = (said, .ok plugins) ∧
      ((∃ child, thrown child ∈ said) ∨
        (∀ name, name ∉ plugins.table) ∧ ∀ child, Launched child said → Over child said) :=
  close_leaves_none .hardware (by simp) obedient _

/-- Every process is launched by a launcher that the environment has named, with a command line that
it accepts and has something to load for; and a process in the table goes by its name there. -/
theorem launches_accepted (layer : PluginLayer) (install : ChildProcess.Install)
    (surroundings : Surroundings Reply) (calls : List Call) : ∃ said plugins,
      (layer.session calls .new).run surroundings [] = (said, .ok plugins) ∧
      (∀ before child args answer after, said = before ++ ⟨.launch child args, answer⟩ :: after →
        ∃ launcher parsed, args.head? = some launcher ∧ Named launcher before ∧
          ChildProcess.parseArgs args = .ok parsed ∧ (install.component parsed).isSome = true) ∧
      ∀ name child, plugins.table.lookup name = some child → ∃ args parsed,
        started child args ∈ said ∧ ChildProcess.parseArgs args = .ok parsed ∧
          parsed.componentName = name ∧ parsed.libName = name := by
  obtain ⟨said, plugins, ran, keeps, owns⟩ := session_run layer surroundings calls
  refine ⟨said, plugins, ran, ?_, ?_⟩
  · rintro before child args answer after split
    obtain ⟨launcher, name, type, last, rfl, known, named⟩ := keeps before _ after split
    have parsed := parseArgs_of_known launcher name name last known
    refine ⟨launcher, _, rfl, named, parsed, ?_⟩
    rw [ChildProcess.component_isSome_iff install parsed]
    rintro rfl
    simp [pluginTypes] at known
  · intro name child entry
    obtain ⟨launcher, type, last, among⟩ := owns.named name child entry
    obtain ⟨before, after, split⟩ := List.append_of_mem among
    obtain ⟨launcher', name', type', last', same, known, -⟩ := keeps before _ after split
    obtain ⟨-, -, rfl, -⟩ : _ ∧ _ ∧ type = type' ∧ _ := by simpa using same
    exact ⟨_, _, among, parseArgs_of_known launcher name name last known, rfl, rfl⟩

end Sessions

end Dls2.CoreFramework.PluginLayers
