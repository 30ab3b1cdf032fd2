import Mathlib.Data.List.Chain
import Mathlib.Data.List.DropRight
import Dls2.Lib.Rounding
import Dls2.Utils.NumericalMovingWindow

/-!
# The processor usage of the system

`SystemResourceMonitor` keeps the last two snapshots of the processor counters. For each entry
of the older one it divides the growth of the busy counters by that of all counters, and pushes
the percentage into a window of that entry. Counters and their differences are unsigned words
that wrap.

An access with `[]` or `.at` that misses is `none`. Both operands of a usage, their product
and their quotient are rounded to a `double`, as the compiler's target does it; what the
windows make of usages is exact here.
-/

namespace Dls2.Utils

/-- One line of `/proc/stat`. -/
structure CpuTimes where
  user : UInt64
  nice : UInt64
  system : UInt64
  idle : UInt64
  iowait : UInt64
  irq : UInt64
  softirq : UInt64
  steal : UInt64
deriving DecidableEq, Repr

namespace CpuTimes

def total (times : CpuTimes) : UInt64 :=
  times.user + times.nice + times.system + times.idle + times.iowait +
    times.irq + times.softirq + times.steal

def idleAll (times : CpuTimes) : UInt64 := times.idle + times.iowait

/-- The counters that are not idle ones. -/
def busyAll (times : CpuTimes) : UInt64 :=
  times.user + times.nice + times.system + times.irq + times.softirq + times.steal

end CpuTimes

/-- What one read of `/proc/stat` gives; nothing if the file cannot be read. -/
abbrev Snapshot := List CpuTimes

/-- A number as a `double`. Nothing here comes near the ends of its range. -/
def toDouble (x : ℚ) : ℚ := Rounding.toDigits 53 x

/-- The usage of one processor between two snapshots. -/
def usage (prevTimes newTimes : CpuTimes) : ℚ :=
  let idleDiff := newTimes.idleAll - prevTimes.idleAll
  let totalDiff := newTimes.total - prevTimes.total
  if totalDiff > 0 then
    toDouble (toDouble (100 * toDouble (totalDiff - idleDiff).toNat) / toDouble totalDiff.toNat)
  else 0

/-- Both accesses of a round of the loop, and what is computed from them. -/
def coreUsage (prevCpusTimes newCpusTimes : Snapshot) (i : ℕ) : Option ℚ :=
  (newCpusTimes[i]?).bind fun newTimes =>
    (prevCpusTimes[i]?).map fun prevTimes => usage prevTimes newTimes

structure SystemResourceMonitor (windowSize : ℕ) where
  cpusTimes : List Snapshot
  cpuUsageW : List (NumericalMovingWindow windowSize)
  latestCpusUsage : List ℚ
  /-- Every usage that has gone into a window. -/
  pushed : List ℚ

namespace SystemResourceMonitor

variable {windowSize : ℕ}

def init (windowSize : ℕ) : SystemResourceMonitor windowSize := ⟨[], [], [], []⟩

/-- The loop that deletes old samples. -/
def dropOld : List Snapshot → List Snapshot
  | [] => []
  | oldest :: rest => if (oldest :: rest).length > 2 then dropOld rest else oldest :: rest

def readProcStat (monitor : SystemResourceMonitor windowSize) (cpusTimesTmp : Snapshot) :
    SystemResourceMonitor windowSize :=
  if cpusTimesTmp = [] then monitor
  else { monitor with cpusTimes := dropOld (monitor.cpusTimes ++ [cpusTimesTmp]) }

/-- One round of the loop over the processors; `latestCpusUsage` is the local `result`. -/
def round (prevCpusTimes newCpusTimes : Snapshot) (monitor : SystemResourceMonitor windowSize)
    (i : ℕ) : Option (SystemResourceMonitor windowSize) :=
  (coreUsage prevCpusTimes newCpusTimes i).bind fun usage =>
    (monitor.cpuUsageW[i]?).map fun window =>
      { monitor with
        cpuUsageW := monitor.cpuUsageW.set i (window.push usage)
        latestCpusUsage := monitor.latestCpusUsage ++ [(window.push usage).mean]
        pushed := monitor.pushed ++ [usage] }

/-- New windows if their number has changed. -/
def initWindows (monitor : SystemResourceMonitor windowSize) (coreNum : ℕ) :
    SystemResourceMonitor windowSize :=
  if monitor.cpuUsageW.length ≠ coreNum then
    { monitor with cpuUsageW := List.replicate coreNum (NumericalMovingWindow.init windowSize) }
  else monitor

def computeCpusUsage (monitor : SystemResourceMonitor windowSize) :
    Option (SystemResourceMonitor windowSize) :=
  if monitor.cpusTimes.length < 2 then some { monitor with latestCpusUsage := [] }
  else
    (monitor.cpusTimes.head?).bind fun prevCpusTimes =>
      (monitor.cpusTimes.getLast?).bind fun newCpusTimes =>
        let coreNum := prevCpusTimes.length
        (List.range coreNum).foldlM (round prevCpusTimes newCpusTimes)
          { monitor.initWindows coreNum with latestCpusUsage := [] }

/-- The part of `monitor` that is about the processors. -/
def monitor (self : SystemResourceMonitor windowSize) (cpusTimesTmp : Snapshot) :
    Option (SystemResourceMonitor windowSize) :=
  (self.readProcStat cpusTimesTmp).computeCpusUsage

def run (windowSize : ℕ) (snapshots : List Snapshot) : Option (SystemResourceMonitor windowSize) :=
  snapshots.foldlM monitor (init windowSize)

end SystemResourceMonitor

/-! ### One usage -/

def Percentage (usage : ℚ) : Prop := 0 ≤ usage ∧ usage ≤ 100

/-- The growth of the busy counters and that of the idle ones add up without wrapping. -/
def AddsUp (prevTimes newTimes : CpuTimes) : Prop :=
  (newTimes.busyAll - prevTimes.busyAll).toNat +
    (newTimes.idleAll - prevTimes.idleAll).toNat < 2 ^ 64

instance (prevTimes newTimes : CpuTimes) : Decidable (AddsUp prevTimes newTimes) :=
  inferInstanceAs (Decidable (_ < _))

/-- Nothing has grown, or a hundred times the growth of the busy counters does not exceed a
hundred times that of all counters, both as doubles, by more than half the last digit of 100. -/
def GrowthFits (prevTimes newTimes : CpuTimes) : Prop :=
  newTimes.total = prevTimes.total ∨
    toDouble (100 * toDouble (newTimes.busyAll - prevTimes.busyAll).toNat) ≤
      (100 + 1 / 2 ^ 47) * toDouble (newTimes.total - prevTimes.total).toNat

namespace CpuTimes

theorem total_eq (times : CpuTimes) : times.total = times.busyAll + times.idleAll := by
  unfold total busyAll idleAll
  grind

theorem total_sub (prevTimes newTimes : CpuTimes) :
    newTimes.total - prevTimes.total =
      (newTimes.busyAll - prevTimes.busyAll) + (newTimes.idleAll - prevTimes.idleAll) := by
  rw [total_eq, total_eq]
  grind

end CpuTimes

@[simp] theorem toDouble_zero : toDouble 0 = 0 := Rounding.toDigits_zero 53

theorem toDouble_pos {x : ℚ} (pos : 0 < x) : 0 < toDouble x :=
  Rounding.toDigits_pos pos (by norm_num)

theorem toDouble_nonneg {x : ℚ} (nonneg : 0 ≤ x) : 0 ≤ toDouble x :=
  Rounding.toDigits_nonneg nonneg (by norm_num)

/-- Up to 2^53 every natural number is a `double`. -/
theorem toDouble_natCast {n : ℕ} (short : n < 2 ^ 53) : toDouble n = n :=
  Rounding.toDigits_natCast short

/-- A natural number below 2^53 is at most what a greater one is rounded to. -/
theorem le_toDouble_natCast {n m : ℕ} (short : n < 2 ^ 53) (le : n ≤ m) :
    (n : ℚ) ≤ toDouble m := by
  obtain rfl | positive := Nat.eq_zero_or_pos n
  · exact_mod_cast toDouble_nonneg (Nat.cast_nonneg m)
  · rw [← toDouble_natCast short]
    exact Rounding.toDigits_mono (by exact_mod_cast positive) (by exact_mod_cast le) (by norm_num)

/-- 100 is 25 * 2^48 last digits, an even number of them. -/
theorem toDouble_le_hundred_iff {x : ℚ} (nonneg : 0 ≤ x) :
    toDouble x ≤ 100 ↔ x ≤ 100 + 1 / 2 ^ 47 := by
  obtain rfl | pos := nonneg.eq_or_lt
  · simp
    positivity
  have even : Even (25 * 2 ^ 48 : ℤ) := by decide
  have rounded := @Rounding.toDigits_le_iff ℚ _ _ _ _ 53 x (25 * 2 ^ 48) 6 even (by norm_num)
    (by norm_num) pos (by norm_num)
  norm_num at rounded ⊢
  exact rounded

theorem usage_eq (prevTimes newTimes : CpuTimes) :
    usage prevTimes newTimes =
      toDouble (toDouble (100 * toDouble (newTimes.busyAll - prevTimes.busyAll).toNat) /
        toDouble (newTimes.total - prevTimes.total).toNat) := by
  have busy : newTimes.total - prevTimes.total - (newTimes.idleAll - prevTimes.idleAll) =
      newTimes.busyAll - prevTimes.busyAll := by
    rw [CpuTimes.total_sub]
    grind
  simp only [usage, busy]
  split_ifs with grown
  · rfl
  · have zero : newTimes.total - prevTimes.total = 0 := by simpa using grown
    rw [zero]
    simp

/-- The growth of the total is positive as a `double` if there is one. -/
theorem toDouble_growth_pos {prevTimes newTimes : CpuTimes}
    (differs : newTimes.total ≠ prevTimes.total) :
    0 < toDouble (newTimes.total - prevTimes.total).toNat := by
  apply toDouble_pos
  have nonzero : (newTimes.total - prevTimes.total).toNat ≠ 0 := by
    intro zero
    have none : newTimes.total - prevTimes.total = 0 := UInt64.toNat_inj.mp zero
    exact differs (by grind)
  exact_mod_cast Nat.pos_of_ne_zero nonzero

theorem percentage_usage_iff (prevTimes newTimes : CpuTimes) :
    Percentage (usage prevTimes newTimes) ↔ GrowthFits prevTimes newTimes := by
  have product : 0 ≤ toDouble (100 * toDouble (newTimes.busyAll - prevTimes.busyAll).toNat) :=
    toDouble_nonneg (mul_nonneg (by norm_num) (toDouble_nonneg (Nat.cast_nonneg _)))
  have total : 0 ≤ toDouble (newTimes.total - prevTimes.total).toNat :=
    toDouble_nonneg (Nat.cast_nonneg _)
  have quotient := div_nonneg product total
  rw [Percentage, usage_eq, and_iff_right (toDouble_nonneg quotient),
    toDouble_le_hundred_iff quotient, GrowthFits]
  by_cases same : newTimes.total = prevTimes.total
  · simp [same]
    positivity
  · rw [or_iff_right same, div_le_iff₀ (toDouble_growth_pos same)]

/-- As long as a hundred times the busy growth is exact, only a growth that wraps is too much. -/
theorem growthFits_iff_addsUp {prevTimes newTimes : CpuTimes}
    (short : 100 * (newTimes.busyAll - prevTimes.busyAll).toNat < 2 ^ 53) :
    GrowthFits prevTimes newTimes ↔
      newTimes.total = prevTimes.total ∨ AddsUp prevTimes newTimes := by
  have sum := congrArg UInt64.toNat (CpuTimes.total_sub prevTimes newTimes)
  rw [UInt64.toNat_add] at sum
  have idleBound := (newTimes.idleAll - prevTimes.idleAll).toNat_lt
  rw [GrowthFits, AddsUp]
  refine or_congr_right' fun differs => ?_
  have positive := toDouble_growth_pos differs
  generalize (newTimes.busyAll - prevTimes.busyAll).toNat = busy at *
  generalize (newTimes.idleAll - prevTimes.idleAll).toNat = idle at *
  generalize (newTimes.total - prevTimes.total).toNat = total at *
  have exact : toDouble (100 * toDouble busy) = 100 * busy := by
    rw [toDouble_natCast (by omega)]
    exact_mod_cast toDouble_natCast short
  rw [exact]
  constructor
  · -- a growth that wraps is smaller than the busy one
    intro fits
    by_contra wraps
    have less : total + 1 ≤ busy := by omega
    rw [toDouble_natCast (by omega)] at fits
    have lessQ : (total : ℚ) + 1 ≤ busy := by exact_mod_cast less
    have shortQ : 100 * (busy : ℚ) < 2 ^ 53 := by exact_mod_cast short
    norm_num at fits shortQ
    linarith
  · intro fits
    have le := le_toDouble_natCast (n := busy) (m := total) (by omega) (by omega)
    nlinarith

/-! ### One pass over the processors -/

/-- No processor has disappeared, and every growth fits. -/
def Comparable (prevCpusTimes newCpusTimes : Snapshot) : Prop :=
  prevCpusTimes.length ≤ newCpusTimes.length ∧
    ∀ times ∈ prevCpusTimes.zip newCpusTimes, GrowthFits times.1 times.2

theorem coreUsage_eq_zip (prevCpusTimes newCpusTimes : Snapshot) (i : ℕ) :
    coreUsage prevCpusTimes newCpusTimes i =
      ((prevCpusTimes.zip newCpusTimes)[i]?).map fun times => usage times.1 times.2 := by
  rw [coreUsage, List.zip_eq_zipWith, List.getElem?_zipWith]
  cases newCpusTimes[i]? <;> cases prevCpusTimes[i]? <;> rfl

namespace SystemResourceMonitor

variable {windowSize : ℕ}

/-- Only percentages have been pushed. -/
def Sound (self : SystemResourceMonitor windowSize) : Prop :=
  ∀ usage ∈ self.pushed, Percentage usage

theorem dropOld_eq (cpusTimes : List Snapshot) : dropOld cpusTimes = cpusTimes.rtake 2 := by
  induction cpusTimes with
  | nil => rfl
  | cons oldest rest ih =>
    rw [dropOld]
    split_ifs with long
    · rw [ih]
      unfold List.rtake
      rw [List.length_cons] at long ⊢
      rw [show rest.length + 1 - 2 = rest.length - 2 + 1 by omega, List.drop_succ_cons]
    · unfold List.rtake
      rw [show (oldest :: rest).length - 2 = 0 by omega, List.drop_zero]

/-- A round goes through if the processor is in both snapshots. -/
theorem round_eq_some {prevCpusTimes newCpusTimes : Snapshot}
    (self : SystemResourceMonitor windowSize) {i : ℕ} {times : CpuTimes × CpuTimes}
    (window : i < self.cpuUsageW.length)
    (both : (prevCpusTimes.zip newCpusTimes)[i]? = some times) :
    ∃ next, round prevCpusTimes newCpusTimes self i = some next ∧
      next.cpusTimes = self.cpusTimes ∧ next.cpuUsageW.length = self.cpuUsageW.length ∧
      next.pushed = self.pushed ++ [usage times.1 times.2] := by
  unfold round
  rw [coreUsage_eq_zip, both, List.getElem?_eq_getElem window]
  exact ⟨_, rfl, rfl, List.length_set, rfl⟩

theorem round_eq_none {prevCpusTimes newCpusTimes : Snapshot}
    {self : SystemResourceMonitor windowSize} {i : ℕ}
    (missing : (prevCpusTimes.zip newCpusTimes)[i]? = none) :
    round prevCpusTimes newCpusTimes self i = none := by
  unfold round
  rw [coreUsage_eq_zip, missing]
  rfl

/-- As long as both snapshots last, the loop pushes one usage for each processor. -/
theorem rounds_eq_some {prevCpusTimes newCpusTimes : Snapshot}
    (self : SystemResourceMonitor windowSize) {count : ℕ}
    (windows : count ≤ self.cpuUsageW.length)
    (both : count ≤ (prevCpusTimes.zip newCpusTimes).length) :
    ∃ next, (List.range count).foldlM (round prevCpusTimes newCpusTimes) self = some next ∧
      next.cpusTimes = self.cpusTimes ∧ next.cpuUsageW.length = self.cpuUsageW.length ∧
      next.pushed = self.pushed ++
        ((prevCpusTimes.zip newCpusTimes).take count).map fun times => usage times.1 times.2 := by
  induction count with
  | zero => exact ⟨self, rfl, rfl, rfl, by simp⟩
  | succ count ih =>
    obtain ⟨middle, ran, kept, length, pushed⟩ := ih (by omega) (by omega)
    have found : (prevCpusTimes.zip newCpusTimes)[count]? = some _ := List.getElem?_eq_getElem both
    obtain ⟨next, step, kept', length', pushed'⟩ := round_eq_some middle (by omega) found
    refine ⟨next, ?_, kept'.trans kept, length'.trans length, ?_⟩
    · rw [List.range_succ, List.foldlM_append, ran]
      simpa using step
    · rw [pushed', pushed, List.append_assoc, List.take_add_one, found]
      simp

/-- If the new snapshot is shorter, the loop reads past its end. -/
theorem rounds_eq_none {prevCpusTimes newCpusTimes : Snapshot}
    {self : SystemResourceMonitor windowSize} {count : ℕ}
    (missing : (prevCpusTimes.zip newCpusTimes).length < count) :
    (List.range count).foldlM (round prevCpusTimes newCpusTimes) self = none := by
  induction count with
  | zero => cases missing
  | succ count ih =>
    rw [List.range_succ, List.foldlM_append]
    by_cases earlier : (prevCpusTimes.zip newCpusTimes).length < count
    · rw [ih earlier]
      rfl
    · -- the round that meets the end of the shorter snapshot
      have past : (prevCpusTimes.zip newCpusTimes)[count]? = none :=
        List.getElem?_eq_none (Nat.le_of_lt_succ missing)
      cases (List.range count).foldlM (round prevCpusTimes newCpusTimes) self with
      | none => rfl
      | some middle => simp [round_eq_none past]

theorem initWindows_spec (self : SystemResourceMonitor windowSize) (coreNum : ℕ) :
    (self.initWindows coreNum).cpuUsageW.length = coreNum ∧
      (self.initWindows coreNum).cpusTimes = self.cpusTimes ∧
      (self.initWindows coreNum).pushed = self.pushed := by
  unfold initWindows
  split_ifs with changed
  · exact ⟨List.length_replicate, rfl, rfl⟩
  · exact ⟨not_not.mp changed, rfl, rfl⟩

theorem computeCpusUsage_few {self : SystemResourceMonitor windowSize}
    (few : self.cpusTimes.length < 2) :
    self.computeCpusUsage = some { self with latestCpusUsage := [] } := if_pos few

theorem computeCpusUsage_shorter {self : SystemResourceMonitor windowSize}
    {prevCpusTimes newCpusTimes : Snapshot} (pair : self.cpusTimes = [prevCpusTimes, newCpusTimes])
    (shorter : newCpusTimes.length < prevCpusTimes.length) : self.computeCpusUsage = none := by
  have missing : (prevCpusTimes.zip newCpusTimes).length < prevCpusTimes.length := by
    rw [List.length_zip]
    omega
  unfold computeCpusUsage
  rw [pair]
  exact rounds_eq_none missing

theorem computeCpusUsage_pair {self : SystemResourceMonitor windowSize}
    {prevCpusTimes newCpusTimes : Snapshot} (pair : self.cpusTimes = [prevCpusTimes, newCpusTimes])
    (lasts : prevCpusTimes.length ≤ newCpusTimes.length) :
    ∃ next, self.computeCpusUsage = some next ∧ next.cpusTimes = self.cpusTimes ∧
      next.pushed = self.pushed ++
        (prevCpusTimes.zip newCpusTimes).map fun times => usage times.1 times.2 := by
  have length : (prevCpusTimes.zip newCpusTimes).length = prevCpusTimes.length := by
    rw [List.length_zip]
    omega
  obtain ⟨windows, kept, pushed⟩ := self.initWindows_spec prevCpusTimes.length
  obtain ⟨next, ran, kept', -, pushed'⟩ := rounds_eq_some
    { self.initWindows prevCpusTimes.length with latestCpusUsage := [] } windows.ge length.ge
  refine ⟨next, ?_, kept'.trans kept, ?_⟩
  · unfold computeCpusUsage
    rw [pair]
    exact ran
  · rw [pushed', List.take_of_length_le length.le]
    exact congrArg (· ++ _) pushed

/-- A list of at most two snapshots. -/
theorem cases_of_few {cpusTimes : List Snapshot} (few : cpusTimes.length ≤ 2) :
    cpusTimes.length < 2 ∨
      ∃ prevCpusTimes newCpusTimes, cpusTimes = [prevCpusTimes, newCpusTimes] := by
  rcases Nat.lt_or_eq_of_le few with less | two
  · exact .inl less
  · exact .inr (List.length_eq_two.mp two)

/-- The snapshots stay. -/
theorem computeCpusUsage_kept {self next : SystemResourceMonitor windowSize}
    (few : self.cpusTimes.length ≤ 2) (computed : self.computeCpusUsage = some next) :
    next.cpusTimes = self.cpusTimes := by
  obtain less | ⟨prevCpusTimes, newCpusTimes, pair⟩ := cases_of_few few
  · rw [computeCpusUsage_few less] at computed
    exact Option.some.inj computed ▸ rfl
  · by_cases lasts : prevCpusTimes.length ≤ newCpusTimes.length
    · obtain ⟨next', computed', kept, -⟩ := computeCpusUsage_pair pair lasts
      exact Option.some.inj (computed'.symm.trans computed) ▸ kept
    · rw [computeCpusUsage_shorter pair (not_le.mp lasts)] at computed
      cases computed

/-- A pass is safe and pushes percentages exactly if the two snapshots are comparable. -/
theorem computeCpusUsage_sound_iff {self : SystemResourceMonitor windowSize}
    (few : self.cpusTimes.length ≤ 2) :
    (∃ next, self.computeCpusUsage = some next ∧ next.Sound) ↔
      self.Sound ∧ self.cpusTimes.IsChain Comparable := by
  obtain less | ⟨prevCpusTimes, newCpusTimes, pair⟩ := cases_of_few few
  · have chain : self.cpusTimes.IsChain Comparable := by
      match self.cpusTimes, less with
      | [], _ => exact .nil
      | [single], _ => exact .singleton single
    rw [computeCpusUsage_few less, and_iff_left chain]
    constructor
    · rintro ⟨next, computed, sound⟩
      obtain rfl := Option.some.inj computed
      exact sound
    · exact fun sound => ⟨_, rfl, sound⟩
  · rw [pair, List.isChain_pair, Comparable]
    by_cases lasts : prevCpusTimes.length ≤ newCpusTimes.length
    · obtain ⟨next, computed, -, pushed⟩ := computeCpusUsage_pair pair lasts
      have sound : next.Sound ↔ self.Sound ∧
          ∀ times ∈ prevCpusTimes.zip newCpusTimes, GrowthFits times.1 times.2 := by
        unfold Sound
        rw [pushed, List.forall_mem_append, List.forall_mem_map]
        simp only [percentage_usage_iff]
      rw [and_iff_right lasts, ← sound, computed]
      simp
    · rw [computeCpusUsage_shorter pair (not_le.mp lasts)]
      exact iff_of_false (by simp) fun comparable => lasts comparable.2.1

/-! ### Runs -/

/-- The snapshots that could be read. -/
def readable (snapshots : List Snapshot) : List Snapshot := snapshots.filter (· ≠ [])

theorem run_append (snapshots : List Snapshot) (snapshot : Snapshot) :
    run windowSize (snapshots ++ [snapshot]) =
      (run windowSize snapshots).bind fun self => self.monitor snapshot := by
  rw [run, List.foldlM_append]
  exact Option.bind_congr fun self _ => by simp

theorem rtake_rtake_append (cpusTimes : List Snapshot) (snapshot : Snapshot) :
    (cpusTimes.rtake 2 ++ [snapshot]).rtake 2 = (cpusTimes ++ [snapshot]).rtake 2 := by
  have single : [snapshot].length ≤ 2 := by simp
  rw [CircularBuffer.rtake_append_of_ge _ single, CircularBuffer.rtake_append_of_ge _ single]
  congr 1
  simp [List.rtake_eq_reverse_take_reverse, List.take_take]

/-- Reading keeps the last two snapshots. -/
theorem cpusTimes_readProcStat {self : SystemResourceMonitor windowSize}
    {snapshots : List Snapshot} (holds : self.cpusTimes = (readable snapshots).rtake 2)
    (snapshot : Snapshot) :
    (self.readProcStat snapshot).cpusTimes = (readable (snapshots ++ [snapshot])).rtake 2 := by
  unfold readProcStat readable at *
  rw [List.filter_append]
  split_ifs with unread
  · simpa [unread] using holds
  · rw [List.filter_cons_of_pos (by simpa using unread), List.filter_nil, ← rtake_rtake_append,
      ← holds, ← dropOld_eq]

theorem pushed_readProcStat (self : SystemResourceMonitor windowSize) (snapshot : Snapshot) :
    (self.readProcStat snapshot).pushed = self.pushed := by
  unfold readProcStat
  split_ifs <;> rfl

theorem cpusTimes_run {snapshots : List Snapshot} {self : SystemResourceMonitor windowSize}
    (ran : run windowSize snapshots = some self) :
    self.cpusTimes = (readable snapshots).rtake 2 := by
  induction snapshots using List.reverseRecOn generalizing self with
  | nil =>
    obtain rfl := Option.some.inj ran
    rfl
  | append_singleton snapshots snapshot ih =>
    rw [run_append] at ran
    obtain ⟨before, ranBefore, monitored⟩ := Option.bind_eq_some_iff.mp ran
    have read := cpusTimes_readProcStat (ih ranBefore) snapshot
    rw [← read]
    refine computeCpusUsage_kept ?_ monitored
    rw [read, CircularBuffer.length_rtake]
    exact Nat.min_le_left _ _

/-- Only the last two snapshots are new to a chain. -/
theorem isChain_append_singleton_iff {relation : Snapshot → Snapshot → Prop}
    (snapshots : List Snapshot) (snapshot : Snapshot) :
    (snapshots ++ [snapshot]).IsChain relation ↔ snapshots.IsChain relation ∧
      ((snapshots ++ [snapshot]).rtake 2).IsChain relation := by
  obtain rfl | ⟨before, last, rfl⟩ := snapshots.eq_nil_or_concat'
  · simp [List.rtake]
  · have lastTwo : (before ++ [last] ++ [snapshot]).rtake 2 = [last, snapshot] := by
      rw [List.append_assoc, CircularBuffer.rtake_append_of_le before (by simp)]
      rfl
    rw [lastTwo, List.isChain_pair, List.isChain_append]
    simp

theorem isChain_readable_iff {relation : Snapshot → Snapshot → Prop} (snapshots : List Snapshot)
    (snapshot : Snapshot) :
    (readable (snapshots ++ [snapshot])).IsChain relation ↔
      (readable snapshots).IsChain relation ∧
        ((readable (snapshots ++ [snapshot])).rtake 2).IsChain relation := by
  unfold readable
  rw [List.filter_append]
  by_cases unread : snapshot = []
  · rw [List.filter_cons_of_neg (by simpa using unread), List.filter_nil, List.append_nil]
    exact (and_iff_left_of_imp fun chain => chain.drop _).symm
  · rw [List.filter_cons_of_pos (by simpa using unread), List.filter_nil]
    exact isChain_append_singleton_iff _ snapshot

/-- The run invariant, over snapshots that may be missing. -/
theorem run_sound_iff (windowSize : ℕ) (snapshots : List Snapshot) :
    (∃ self, run windowSize snapshots = some self ∧ self.Sound) ↔
      (readable snapshots).IsChain Comparable := by
  induction snapshots using List.reverseRecOn with
  | nil => exact iff_of_true ⟨init windowSize, rfl, by simp [Sound, init]⟩ .nil
  | append_singleton snapshots snapshot ih =>
    rw [isChain_readable_iff, ← ih, run_append]
    cases ran : run windowSize snapshots with
    | none => simp
    | some self =>
      have read := cpusTimes_readProcStat (cpusTimes_run ran) snapshot
      have few : (self.readProcStat snapshot).cpusTimes.length ≤ 2 := by
        rw [read, CircularBuffer.length_rtake]
        exact Nat.min_le_left _ _
      have pass := computeCpusUsage_sound_iff few
      rw [read] at pass
      have before : (self.readProcStat snapshot).Sound ↔ self.Sound := by
        unfold Sound
        rw [pushed_readProcStat]
      rw [before] at pass
      simpa [monitor] using pass

/-- Every snapshot of a run is there, and then no access misses and only percentages are pushed
exactly if each snapshot is comparable to the one before it. Where a hundred times the growth of
the busy counters is below 2^53, growths fit exactly if they add up without wrapping. -/
theorem run_percentages_iff (windowSize : ℕ) (snapshots : List {read : Snapshot // read ≠ []})
    (prevTimes newTimes : CpuTimes) :
    ((∃ self, run windowSize (snapshots.map Subtype.val) = some self ∧
        ∀ usage ∈ self.pushed, Percentage usage) ↔
      (snapshots.map Subtype.val).IsChain Comparable) ∧
    (100 * (newTimes.busyAll - prevTimes.busyAll).toNat < 2 ^ 53 →
      (GrowthFits prevTimes newTimes ↔
        newTimes.total = prevTimes.total ∨ AddsUp prevTimes newTimes)) := by
  refine ⟨?_, growthFits_iff_addsUp⟩
  have all : readable (snapshots.map Subtype.val) = snapshots.map Subtype.val := by
    rw [readable, List.filter_eq_self]
    intro snapshot member
    obtain ⟨read, -, rfl⟩ := List.mem_map.mp member
    simpa using read.2
  have sound := run_sound_iff windowSize (snapshots.map Subtype.val)
  rwa [all] at sound

/-- One processor is always busy and another half idle. -/
theorem run_percentages_busy :
    let zero : CpuTimes := ⟨0, 0, 0, 0, 0, 0, 0, 0⟩
    ∃ self, run 10 [[zero, zero], [{ zero with user := 10 }, { zero with user := 3, idle := 4 }]] =
        some self ∧ ∀ usage ∈ self.pushed, Percentage usage := by
  intro zero
  have first : GrowthFits zero { zero with user := 10 } :=
    ((run_percentages_iff 10 [] _ _).2 (by decide)).mpr (.inr (by decide))
  have second : GrowthFits zero { zero with user := 3, idle := 4 } :=
    ((run_percentages_iff 10 [] _ _).2 (by decide)).mpr (.inr (by decide))
  refine (run_percentages_iff 10 [⟨[zero, zero], List.cons_ne_nil _ _⟩,
    ⟨[{ zero with user := 10 }, { zero with user := 3, idle := 4 }], List.cons_ne_nil _ _⟩]
    zero zero).1.mpr ?_
  refine List.isChain_pair.mpr ⟨le_rfl, ?_⟩
  simp only [List.zip_cons_cons, List.zip_nil_right, List.forall_mem_cons, List.not_mem_nil,
    false_implies, implies_true, and_true]
  exact ⟨first, second⟩

/-- A processor goes off-line between two snapshots, and the loop reads past the end of the
second. In the second run `iowait` falls by 5 while `user` grows by 10, and the usage is 200. In
the third run `user` alone grows, and the usage is rounded to the double behind 100. -/
theorem run_percentages_fails :
    let zero : CpuTimes := ⟨0, 0, 0, 0, 0, 0, 0, 0⟩
    run 10 [[zero, zero], [zero]] = none ∧
      (run 10 [[{ zero with iowait := 5 }], [{ zero with user := 10 }]]).map
        SystemResourceMonitor.pushed = some [200] ∧
      (run 10 [[zero], [{ zero with user := 374427528575979 }]]).map
        SystemResourceMonitor.pushed = some [100 + 1 / 2 ^ 46] := by
  refine ⟨rfl, ?_, ?_⟩ <;> decide +kernel

end SystemResourceMonitor

end Dls2.Utils
