import Mathlib.Algebra.Group.Int.Defs
import Mathlib.Algebra.Group.Nat.Defs
import Dls2.CoreFramework.ConsoleLayer
import Dls2.Lib.Extraction

/-!
# The processor ticks of a process

`updateCpuTicks` reads the ticks that a process has spent from its `stat` file. The name of the
process stands in parentheses and may itself contain parentheses and white space, so the fields
are counted from the last closing one. A line that has been cut off anywhere before the last of
the numbers that are read is refused.

Files are texts here, and `none` is a file that cannot be opened.
-/

namespace Dls2.Utils

open CoreFramework (isspace)
open Search Extraction

/-- The bounds of a `long`. -/
def longMin : ℤ := -2 ^ 63

def longMax : ℤ := 2 ^ 63 - 1

/-- A `long` that becomes an `unsigned long long`. -/
def toUnsigned (value : ℤ) : ℕ := (value % 2 ^ 64).toNat

def getline (stat : List Char) : Option (List Char) :=
  if stat = [] then none else some (stat.takeWhile (· ≠ '\n'))

/-- `iss >> utime >> stime`. -/
def readTimes (iss : List Char) : Option (ℤ × ℤ) :=
  (number isspace longMin longMax iss).bind fun utime =>
    (number isspace longMin longMax utime.2).map fun stime => (utime.1, stime.1)

/-- The verdict, and the ticks that the caller finds. -/
def updateCpuTicks (statFile : Option (List Char)) (totalTicks : ℕ) : Bool × ℕ :=
  match statFile with
  | none => (false, totalTicks)
  | some stat =>
    match getline stat with
    | none => (false, totalTicks)
    | some line =>
      match rfind ')' line with
      | none => (false, totalTicks)
      | some rparen =>
        if rparen + 2 ≥ line.length then (false, totalTicks)
        else
          -- fields 3 to 13
          match skipWords isspace 11 (line.drop (rparen + 2)) with
          | none => (false, totalTicks)
          | some iss =>
            match readTimes iss with
            | none => (false, totalTicks)
            | some (utime, stime) => (true, toUnsigned (utime + stime))

/-- A line in the format of `stat`. -/
structure StatLine where
  pid : ℤ
  comm : List Char
  state : Char
  /-- Fields 4 to 13. -/
  skipped : List ℤ
  utime : ℕ
  stime : ℕ
  /-- The fields from the 16th on. -/
  later : List ℤ
  oneLine : '\n' ∉ comm
  letter : state.isAlpha = true
  ten : skipped.length = 10
  fits : utime + stime < 2 ^ 63

namespace StatLine

variable (line : StatLine)

/-- The line up to the parenthesis that closes the name. -/
def head : List Char := decimal line.pid ++ " (".toList ++ line.comm ++ [')']

/-- From there to the first digit of `stime`. -/
def middle : List Char :=
  ' ' :: line.state :: (line.skipped.map decimal).flatMap (' ' :: ·) ++
    ' ' :: decimal line.utime ++ [' ']

def print : List Char :=
  line.head ++ line.middle ++ decimal line.stime ++ (line.later.map decimal).flatMap (' ' :: ·)

end StatLine

/-! ### The characters of a line -/

/-- A character that is neither white space nor a parenthesis. -/
def Plain (symbol : Char) : Prop := isspace symbol = false ∧ symbol ≠ ')'

theorem plain_of_le {symbol : Char} (late : 42 ≤ symbol.toNat) : Plain symbol := by
  constructor
  · have noBlank : symbol ≠ ' ' := by
      rintro rfl
      simp at late
    simp only [isspace, Bool.or_eq_false_iff, beq_eq_false_iff_ne, Bool.and_eq_false_iff,
      decide_eq_false_iff_not]
    exact ⟨noBlank, .inr (by omega)⟩
  · rintro rfl
    simp at late

theorem plain_of_isAlpha {symbol : Char} (letter : symbol.isAlpha = true) : Plain symbol := by
  delta Char.isAlpha Char.isUpper Char.isLower at letter
  simp only [Bool.or_eq_true, Bool.and_eq_true, decide_eq_true_eq, UInt32.le_iff_toNat_le,
    ge_iff_le] at letter
  refine plain_of_le ?_
  change (65 ≤ symbol.toNat ∧ symbol.toNat ≤ 90) ∨ (97 ≤ symbol.toNat ∧ symbol.toNat ≤ 122)
    at letter
  omega

theorem plain_of_mem_decimal {value : ℤ} {symbol : Char} (member : symbol ∈ decimal value) :
    Plain symbol := by
  rcases mem_decimal member with rfl | digit
  · exact plain_of_le (by decide)
  · simp only [Char.isDigit, Bool.and_eq_true, decide_eq_true_eq, UInt32.le_iff_toNat_le,
      ge_iff_le] at digit
    refine plain_of_le ?_
    change 48 ≤ symbol.toNat ∧ symbol.toNat ≤ 57 at digit
    omega

/-- Blanks and plain characters only, as they stand behind the name. -/
def Fields (text : List Char) : Prop := ∀ symbol ∈ text, symbol = ' ' ∨ Plain symbol

theorem Fields.not_mem {text : List Char} (fields : Fields text) : ')' ∉ text ∧ '\n' ∉ text := by
  constructor
  · intro member
    rcases fields _ member with blank | plain
    · cases blank
    · exact plain.2 rfl
  · intro member
    rcases fields _ member with blank | plain
    · cases blank
    · exact absurd plain.1 (by decide)

theorem Fields.append {text more : List Char} (fields : Fields text) (later : Fields more) :
    Fields (text ++ more) := List.forall_mem_append.mpr ⟨fields, later⟩

theorem fields_decimal (value : ℤ) : Fields (decimal value) :=
  fun _ member => .inr (plain_of_mem_decimal member)

theorem fields_flatMap (values : List ℤ) :
    Fields ((values.map decimal).flatMap (' ' :: ·)) := by
  intro symbol member
  obtain ⟨written, printed, inside⟩ := List.mem_flatMap.mp member
  obtain ⟨value, -, rfl⟩ := List.mem_map.mp printed
  rcases List.mem_cons.mp inside with blank | digit
  · exact .inl blank
  · exact fields_decimal value symbol digit

namespace StatLine

variable (line : StatLine)

theorem fields_middle : Fields line.middle := by
  have state : Fields [' ', line.state] := by
    simpa [Fields] using Or.inr (plain_of_isAlpha line.letter)
  have blank : Fields [' '] := by simp [Fields]
  have utime : Fields (' ' :: decimal line.utime) := blank.append (fields_decimal line.utime)
  exact ((state.append (fields_flatMap line.skipped)).append utime).append blank

theorem newline_not_mem_head : '\n' ∉ line.head := by
  have pid := (fields_decimal line.pid).not_mem.2
  simp [head, pid, line.oneLine]

end StatLine

/-! ### The steps of a read -/

theorem getline_append {text ending : List Char} (nonempty : text ≠ []) (oneLine : '\n' ∉ text)
    (ends : ∀ symbol ∈ ending.head?, symbol = '\n') : getline (text ++ ending) = some text := by
  have all : ∀ symbol ∈ text, decide (symbol ≠ '\n') = true := by
    intro symbol member
    exact decide_eq_true fun same => oneLine (same ▸ member)
  have stops : Stops (fun symbol => decide (symbol ≠ '\n')) ending := by
    intro symbol first
    simpa using ends symbol first
  rw [getline, if_neg (by simp [nonempty]), takeWhile_append_of_stops all stops]

/-- The ticks in what stands behind the name. -/
def ticksOf (rest : List Char) : Option ℕ :=
  ((skipWords isspace 11 (rest.drop 1)).bind readTimes).map fun times =>
    toUnsigned (times.1 + times.2)

/-- What the caller finds. -/
def reported (totalTicks : ℕ) : Option ℕ → Bool × ℕ
  | none => (false, totalTicks)
  | some ticks => (true, ticks)

/-- The name ends at the last parenthesis, whatever it contains. -/
theorem updateCpuTicks_head (line : StatLine) {rest ending : List Char} (fields : Fields rest)
    (ends : ∀ symbol ∈ ending.head?, symbol = '\n') (totalTicks : ℕ) :
    updateCpuTicks (some (line.head ++ rest ++ ending)) totalTicks =
      reported totalTicks (ticksOf rest) := by
  obtain ⟨before, head⟩ : ∃ before, line.head = before ++ [')'] := ⟨_, rfl⟩
  have oneLine : '\n' ∉ line.head ++ rest := by
    simp [line.newline_not_mem_head, fields.not_mem.2]
  have nonempty : line.head ++ rest ≠ [] := by simp [head]
  have closing : rfind ')' (line.head ++ rest) = some before.length := by
    rw [head, List.append_assoc, List.singleton_append]
    exact rfind_append before fields.not_mem.1
  have behind : (line.head ++ rest).drop (before.length + 2) = rest.drop 1 := by
    rw [head, List.append_assoc, List.singleton_append, List.drop_append]
    simp
  have length : (line.head ++ rest).length = before.length + 1 + rest.length := by
    rw [head, List.length_append, List.length_append, List.length_singleton]
  simp only [updateCpuTicks, getline_append nonempty oneLine ends, closing, behind, length, ticksOf]
  split_ifs with short
  · -- at most the blank is there
    have nothing : rest.drop 1 = [] := List.drop_eq_nil_iff.mpr (by omega)
    rw [nothing]
    rfl
  · cases skipWords isspace 11 (rest.drop 1) with
    | none => rfl
    | some iss =>
      simp only [Option.bind_some]
      cases readTimes iss <;> rfl

namespace StatLine

variable (line : StatLine)

/-- The fields up to the 13th are skipped. -/
theorem skipWords_middle {rest : List Char} (stops : Stops (!isspace ·) rest) :
    skipWords isspace 11
      (line.state :: (line.skipped.map decimal).flatMap (' ' :: ·) ++ rest) = some rest := by
  have blank : isspace ' ' = true := rfl
  have words : ∀ each ∈ line.skipped.map decimal,
      each ≠ [] ∧ ∀ symbol ∈ each, isspace symbol = false := by
    intro each member
    obtain ⟨value, -, rfl⟩ := List.mem_map.mp member
    exact ⟨decimal_ne_nil value, fun _ digit => (plain_of_mem_decimal digit).1⟩
  have others := skipWords_append blank words stops
  rw [List.length_map, line.ten] at others
  have next : Stops (!isspace ·) ((line.skipped.map decimal).flatMap (' ' :: ·) ++ rest) := by
    cases line.skipped with
    | nil => exact stops
    | cons value values => exact stops_of_blank blank _
  have first : word isspace
      ([] ++ ([line.state] ++ ((line.skipped.map decimal).flatMap (' ' :: ·) ++ rest))) =
      some ([line.state], (line.skipped.map decimal).flatMap (' ' :: ·) ++ rest) :=
    word_append (by simp) (by simpa using (plain_of_isAlpha line.letter).1) (by simp) next
  rw [List.cons_append, skipWords]
  rw [List.nil_append, List.singleton_append] at first
  rw [first]
  exact others

/-- A number of ticks is read back. -/
theorem number_ticks {ticks : ℕ} (fits : ticks < 2 ^ 63) {rest : List Char}
    (stops : Stops Char.isDigit rest) :
    number isspace longMin longMax (' ' :: (decimal ticks ++ rest)) = some ((ticks : ℤ), rest) := by
  have inBounds : longMin ≤ ticks ∧ (ticks : ℤ) ≤ longMax := by
    unfold longMin longMax
    omega
  have read : number isspace longMin longMax ([' '] ++ (decimal ticks ++ rest)) =
      some ((ticks : ℤ), rest) :=
    number_append (by simp; rfl) (fun _ digit => (plain_of_mem_decimal digit).1) inBounds stops
  exact read

theorem utime_fits : line.utime < 2 ^ 63 := Nat.lt_of_le_of_lt (Nat.le_add_right ..) line.fits

theorem stime_fits : line.stime < 2 ^ 63 := Nat.lt_of_le_of_lt (Nat.le_add_left ..) line.fits

theorem stops_blank (rest : List Char) : Stops Char.isDigit (' ' :: rest) := by
  intro symbol first
  obtain rfl : ' ' = symbol := Option.some.inj first
  rfl

/-- What is left behind the 13th field, with more behind the line's middle. -/
theorem drop_middle (more : List Char) :
    (line.middle ++ more).drop 1 =
      line.state :: (line.skipped.map decimal).flatMap (' ' :: ·) ++
        ' ' :: (decimal line.utime ++ ' ' :: more) := by
  simp [middle]

theorem skipWords_line (more : List Char) :
    skipWords isspace 11 ((line.middle ++ more).drop 1) =
      some (' ' :: (decimal line.utime ++ ' ' :: more)) := by
  rw [drop_middle]
  exact line.skipWords_middle (stops_of_blank rfl _)

theorem number_utime (more : List Char) :
    number isspace longMin longMax (' ' :: (decimal line.utime ++ ' ' :: more)) =
      some ((line.utime : ℤ), ' ' :: more) :=
  number_ticks line.utime_fits (stops_blank more)

theorem ticksOf_print :
    ticksOf (line.middle ++ (decimal line.stime ++ (line.later.map decimal).flatMap (' ' :: ·))) =
      some (line.utime + line.stime) := by
  have stops : Stops Char.isDigit ((line.later.map decimal).flatMap (' ' :: ·)) := by
    cases line.later with
    | nil => simp [Stops]
    | cons value values => exact stops_blank _
  have sum : toUnsigned ((line.utime : ℤ) + line.stime) = line.utime + line.stime := by
    have fits := line.fits
    unfold toUnsigned
    omega
  rw [ticksOf, skipWords_line, Option.bind_some, readTimes, number_utime, Option.bind_some,
    number_ticks line.stime_fits stops, Option.map_some, Option.map_some, sum]

/-- Wherever the line is cut off before `stime`, a number is missing. -/
theorem ticksOf_cut {cut : List Char} (cutOff : cut <+: line.middle) : ticksOf cut = none := by
  have whole := line.skipWords_line []
  have utime := line.number_utime []
  rw [List.append_nil] at whole
  have missing : ∀ left, skipWords isspace 11 (cut.drop 1) = some left → readTimes left = none := by
    intro left skipped
    have leftOff := skipWords_isPrefix (cutOff.drop 1) whole skipped
    cases read : number isspace longMin longMax left with
    | none => rw [readTimes, read, Option.bind_none]
    | some readOfCut =>
      -- only the blank behind `utime` can be left
      have blank : ∀ symbol ∈ readOfCut.2, isspace symbol = true := by
        intro symbol member
        have inside := (number_isPrefix leftOff utime read).subset member
        obtain rfl := List.mem_singleton.mp inside
        rfl
      rw [readTimes, read, Option.bind_some, number_of_blank blank, Option.map_none]
  rw [ticksOf, Option.map_eq_none_iff, Option.bind_eq_none_iff]
  exact missing

/-- A complete line gives its two numbers, whatever the name of the process and whatever follows
the line. A line that has been cut off behind the name and before `stime` is refused. -/
theorem updateCpuTicks_print (totalTicks : ℕ) :
    (∀ more, updateCpuTicks (some line.print) totalTicks = (true, line.utime + line.stime) ∧
      updateCpuTicks (some (line.print ++ '\n' :: more)) totalTicks =
        (true, line.utime + line.stime)) ∧
    ∀ length more, updateCpuTicks (some (line.head ++ line.middle.take length)) totalTicks =
        (false, totalTicks) ∧
      updateCpuTicks (some (line.head ++ line.middle.take length ++ '\n' :: more)) totalTicks =
        (false, totalTicks) := by
  have fields : Fields
      (line.middle ++ (decimal line.stime ++ (line.later.map decimal).flatMap (' ' :: ·))) :=
    line.fields_middle.append ((fields_decimal _).append (fields_flatMap _))
  have printed : line.print = line.head ++
      (line.middle ++ (decimal line.stime ++ (line.later.map decimal).flatMap (' ' :: ·))) := by
    simp [print]
  have complete : ∀ ending : List Char, (∀ symbol ∈ ending.head?, symbol = '\n') →
      updateCpuTicks (some (line.print ++ ending)) totalTicks =
        (true, line.utime + line.stime) := by
    intro ending ends
    rw [printed, updateCpuTicks_head line fields ends, ticksOf_print]
    rfl
  have refused : ∀ (length : ℕ) (ending : List Char), (∀ symbol ∈ ending.head?, symbol = '\n') →
      updateCpuTicks (some (line.head ++ line.middle.take length ++ ending)) totalTicks =
        (false, totalTicks) := by
    intro length ending ends
    have some : Fields (line.middle.take length) :=
      fun symbol member => line.fields_middle symbol (List.mem_of_mem_take member)
    rw [updateCpuTicks_head line some ends, line.ticksOf_cut (List.take_prefix length _)]
    rfl
  refine ⟨fun more => ⟨?_, complete _ (by simp)⟩, fun length more => ⟨?_, refused _ _ (by simp)⟩⟩
  · simpa using complete [] (by simp)
  · simpa using refused length [] (by simp)

/-- A name with a parenthesis and a blank in it. -/
example :
    updateCpuTicks (some "7 (a) b) S 1 1 1 0 -1 4 9 0 0 0 12 30 0".toList) 5 = (true, 42) := by
  decide +kernel

end StatLine

end Dls2.Utils
