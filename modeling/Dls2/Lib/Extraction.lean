import Mathlib.Data.List.Basic
import Mathlib.Data.List.Infix
import Mathlib.Data.List.TakeWhile

/-!
# Extraction from a text stream

Reading words and decimal numbers from a stream. A stream is the text that is still to be read,
and a read returns what it has read and what is left. White space in front is skipped. A number
is read up to the first character that cannot belong to it, and it must fit into its type.

What printing writes can be read back. Of a text that has been cut off, a read never leaves more
than it does of the whole text.
-/

namespace Dls2.Extraction

variable (separates : Char → Bool)

/-- The next word. -/
def word (text : List Char) : Option (List Char × List Char) :=
  let start := text.dropWhile separates
  if start = [] then none
  else some (start.takeWhile (!separates ·), start.dropWhile (!separates ·))

/-- What is left after a number of words. -/
def skipWords : ℕ → List Char → Option (List Char)
  | 0, text => some text
  | count + 1, text => (word separates text).bind fun read => skipWords count read.2

/-- Whether a number is negative, and its digits with what follows them. -/
def sign : List Char → Bool × List Char
  | '-' :: rest => (true, rest)
  | '+' :: rest => (false, rest)
  | text => (false, text)

/-- The next number, if it is between the bounds. -/
def number (lower upper : ℤ) (text : List Char) : Option (ℤ × List Char) :=
  let signed := sign (text.dropWhile separates)
  let digits := signed.2.takeWhile Char.isDigit
  let magnitude : ℤ := Nat.ofDigitChars 10 digits 0
  let value := if signed.1 then -magnitude else magnitude
  if digits = [] ∨ value < lower ∨ upper < value then none
  else some (value, signed.2.dropWhile Char.isDigit)

/-- How a number is printed. -/
def decimal (value : ℤ) : List Char :=
  if value < 0 then '-' :: Nat.toDigits 10 value.natAbs else Nat.toDigits 10 value.natAbs

variable {separates}

/-! ### Beginnings -/

section Runs

variable {α : Type} {p : α → Bool}

/-- A run is followed by nothing or by something else. -/
def Stops (p : α → Bool) (rest : List α) : Prop := ∀ symbol ∈ rest.head?, p symbol = false

theorem dropWhile_of_stops {rest : List α} (stops : Stops p rest) : rest.dropWhile p = rest := by
  cases rest with
  | nil => rfl
  | cons symbol rest => rw [List.dropWhile_cons_of_neg (by simp [stops symbol rfl])]

theorem takeWhile_of_stops {rest : List α} (stops : Stops p rest) : rest.takeWhile p = [] := by
  cases rest with
  | nil => rfl
  | cons symbol rest => rw [List.takeWhile_cons_of_neg (by simp [stops symbol rfl])]

/-- A run is what `takeWhile` takes. -/
theorem takeWhile_append_of_stops {run rest : List α} (all : ∀ symbol ∈ run, p symbol = true)
    (stops : Stops p rest) : (run ++ rest).takeWhile p = run := by
  rw [List.takeWhile_append_of_pos all, takeWhile_of_stops stops, List.append_nil]

theorem dropWhile_append_of_stops {run rest : List α} (all : ∀ symbol ∈ run, p symbol = true)
    (stops : Stops p rest) : (run ++ rest).dropWhile p = rest := by
  rw [List.dropWhile_append_of_pos all, dropWhile_of_stops stops]

theorem dropWhile_isPrefix {cut text : List α} (cutOff : cut <+: text) :
    cut.dropWhile p <+: text.dropWhile p := by
  obtain ⟨missing, rfl⟩ := cutOff
  rw [List.dropWhile_append]
  split_ifs with nothing
  · rw [List.isEmpty_iff.mp nothing]
    exact List.nil_prefix
  · exact List.prefix_append _ _

end Runs

/-! ### Words -/

/-- White space ends a word. -/
theorem stops_of_blank {gap : Char} (blank : separates gap = true) (rest : List Char) :
    Stops (!separates ·) (gap :: rest) := by
  intro symbol head
  obtain rfl : gap = symbol := Option.some.inj head
  simpa using blank

theorem word_eq_some {text : List Char} {read : List Char × List Char}
    (found : word separates text = some read) :
    read.2 = (text.dropWhile separates).dropWhile (!separates ·) := by
  unfold word at found
  dsimp only at found
  split_ifs at found
  exact Option.some.inj found ▸ rfl

/-- A word that has been written is read back. -/
theorem word_append {front written rest : List Char}
    (blank : ∀ symbol ∈ front, separates symbol = true)
    (free : ∀ symbol ∈ written, separates symbol = false) (nonempty : written ≠ [])
    (stops : Stops (!separates ·) rest) :
    word separates (front ++ (written ++ rest)) = some (written, rest) := by
  have start : (front ++ (written ++ rest)).dropWhile separates = written ++ rest := by
    rw [List.dropWhile_append_of_pos blank, dropWhile_of_stops]
    intro symbol first
    obtain ⟨initial, others, rfl⟩ := List.exists_cons_of_ne_nil nonempty
    obtain rfl : initial = symbol := Option.some.inj first
    exact free initial List.mem_cons_self
  have all : ∀ symbol ∈ written, (!separates symbol) = true :=
    fun symbol member => by rw [free symbol member]; rfl
  unfold word
  rw [start]
  dsimp only
  rw [if_neg (by simp [nonempty]), takeWhile_append_of_stops all stops,
    dropWhile_append_of_stops all stops]

/-- Skipping words in a text that has been cut off leaves no more than skipping them in the whole
text. -/
theorem skipWords_isPrefix {cut text left leftOfCut : List Char} {count : ℕ} (cutOff : cut <+: text)
    (skipped : skipWords separates count text = some left)
    (skippedOfCut : skipWords separates count cut = some leftOfCut) : leftOfCut <+: left := by
  induction count generalizing cut text with
  | zero =>
    obtain rfl := Option.some.inj skipped
    obtain rfl := Option.some.inj skippedOfCut
    exact cutOff
  | succ count ih =>
    obtain ⟨read, found, later⟩ := Option.bind_eq_some_iff.mp skipped
    obtain ⟨readOfCut, foundInCut, laterOfCut⟩ := Option.bind_eq_some_iff.mp skippedOfCut
    refine ih ?_ later laterOfCut
    rw [word_eq_some found, word_eq_some foundInCut]
    exact dropWhile_isPrefix (dropWhile_isPrefix cutOff)

/-- Words that have been written with a gap in front of each are skipped. -/
theorem skipWords_append {gap : Char} (blank : separates gap = true) {written : List (List Char)}
    (words : ∀ each ∈ written, each ≠ [] ∧ ∀ symbol ∈ each, separates symbol = false)
    {rest : List Char} (stops : Stops (!separates ·) rest) :
    skipWords separates written.length (written.flatMap (gap :: ·) ++ rest) = some rest := by
  induction written with
  | nil => rfl
  | cons first others ih =>
    rw [List.forall_mem_cons] at words
    have next : Stops (!separates ·) (others.flatMap (gap :: ·) ++ rest) := by
      cases others with
      | nil => exact stops
      | cons second others => exact stops_of_blank blank _
    have read : word separates ([gap] ++ (first ++ (others.flatMap (gap :: ·) ++ rest))) =
        some (first, others.flatMap (gap :: ·) ++ rest) :=
      word_append (by simpa using blank) words.1.2 words.1.1 next
    have shape : (first :: others).flatMap (gap :: ·) ++ rest =
        [gap] ++ (first ++ (others.flatMap (gap :: ·) ++ rest)) := by
      simp
    rw [shape, List.length_cons, skipWords, read, Option.bind_some]
    exact ih words.2

/-! ### Numbers -/

theorem sign_of_ne {symbol : Char} (noMinus : symbol ≠ '-') (noPlus : symbol ≠ '+')
    (rest : List Char) : sign (symbol :: rest) = (false, symbol :: rest) := by
  unfold sign
  split <;> simp_all

theorem sign_isPrefix {cut text : List Char} (cutOff : cut <+: text) :
    (sign cut).2 <+: (sign text).2 := by
  obtain ⟨missing, rfl⟩ := cutOff
  cases cut with
  | nil => exact List.nil_prefix
  | cons symbol rest =>
    rw [List.cons_append]
    by_cases minus : symbol = '-'
    · subst minus
      exact List.prefix_append rest missing
    · by_cases plus : symbol = '+'
      · subst plus
        exact List.prefix_append rest missing
      · rw [sign_of_ne minus plus, sign_of_ne minus plus]
        exact List.prefix_append (symbol :: rest) missing

theorem number_eq_some {lower upper : ℤ} {text : List Char} {read : ℤ × List Char}
    (found : number separates lower upper text = some read) :
    read.2 = (sign (text.dropWhile separates)).2.dropWhile Char.isDigit := by
  unfold number at found
  dsimp only at found
  split_ifs at found
  all_goals exact Option.some.inj found ▸ rfl

theorem number_isPrefix {lower upper : ℤ} {cut text : List Char} {read readOfCut : ℤ × List Char}
    (cutOff : cut <+: text) (found : number separates lower upper text = some read)
    (foundInCut : number separates lower upper cut = some readOfCut) : readOfCut.2 <+: read.2 := by
  rw [number_eq_some found, number_eq_some foundInCut]
  exact dropWhile_isPrefix (sign_isPrefix (dropWhile_isPrefix cutOff))

/-- There is no number in white space. -/
theorem number_of_blank {lower upper : ℤ} {text : List Char}
    (blank : ∀ symbol ∈ text, separates symbol = true) :
    number separates lower upper text = none := by
  unfold number
  rw [List.dropWhile_eq_nil_iff.mpr blank]
  exact if_pos (.inl rfl)

theorem isDigit_of_mem_toDigits {magnitude : ℕ} {symbol : Char}
    (member : symbol ∈ Nat.toDigits 10 magnitude) : symbol.isDigit = true :=
  Nat.isDigit_of_mem_toDigits (by decide) (by decide) member

/-- Digits have no sign. -/
theorem sign_digits {digits : List Char} (all : ∀ symbol ∈ digits, symbol.isDigit = true)
    (nonempty : digits ≠ []) (rest : List Char) :
    sign (digits ++ rest) = (false, digits ++ rest) := by
  obtain ⟨first, others, rfl⟩ := List.exists_cons_of_ne_nil nonempty
  have digit : first.isDigit = true := all first List.mem_cons_self
  refine sign_of_ne ?_ ?_ (others ++ rest)
  · rintro rfl
    simp at digit
  · rintro rfl
    simp at digit

theorem sign_decimal (value : ℤ) (rest : List Char) :
    sign (decimal value ++ rest) =
      (decide (value < 0), Nat.toDigits 10 value.natAbs ++ rest) := by
  unfold decimal
  split_ifs with negative
  · rw [decide_eq_true negative]
    rfl
  · rw [decide_eq_false negative]
    exact sign_digits (fun _ => isDigit_of_mem_toDigits) Nat.toDigits_ne_nil rest

/-- The characters of a printed number. -/
theorem mem_decimal {value : ℤ} {symbol : Char} (member : symbol ∈ decimal value) :
    symbol = '-' ∨ symbol.isDigit = true := by
  unfold decimal at member
  split_ifs at member
  · rcases List.mem_cons.mp member with minus | digit
    · exact .inl minus
    · exact .inr (isDigit_of_mem_toDigits digit)
  · exact .inr (isDigit_of_mem_toDigits member)

theorem decimal_ne_nil (value : ℤ) : decimal value ≠ [] := by
  unfold decimal
  split_ifs <;> simp

/-- A number that has been printed is read back. -/
theorem number_append {lower upper value : ℤ} {front rest : List Char}
    (blank : ∀ symbol ∈ front, separates symbol = true)
    (free : ∀ symbol ∈ decimal value, separates symbol = false)
    (inBounds : lower ≤ value ∧ value ≤ upper) (stops : Stops Char.isDigit rest) :
    number separates lower upper (front ++ (decimal value ++ rest)) = some (value, rest) := by
  have start : (front ++ (decimal value ++ rest)).dropWhile separates = decimal value ++ rest := by
    rw [List.dropWhile_append_of_pos blank, dropWhile_of_stops]
    intro symbol first
    obtain ⟨initial, others, shape⟩ := List.exists_cons_of_ne_nil (decimal_ne_nil value)
    rw [shape] at first free
    obtain rfl : initial = symbol := Option.some.inj first
    exact free initial List.mem_cons_self
  have digits : ∀ symbol ∈ Nat.toDigits 10 value.natAbs, symbol.isDigit = true :=
    fun _ => isDigit_of_mem_toDigits
  have magnitude : (if decide (value < 0) = true then -(value.natAbs : ℤ) else value.natAbs) =
      value := by
    split_ifs with negative
    · have := of_decide_eq_true negative
      omega
    · have := of_decide_eq_false (Bool.eq_false_iff.mpr negative)
      omega
  unfold number
  simp only [start, sign_decimal, takeWhile_append_of_stops digits stops,
    dropWhile_append_of_stops digits stops, Nat.ofDigitChars_ten_toDigits]
  rw [magnitude, if_neg]
  rintro (none | below | above)
  · exact Nat.toDigits_ne_nil none
  · omega
  · omega

end Dls2.Extraction
