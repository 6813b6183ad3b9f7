import Mathlib

set_option autoImplicit false

/- Decimal numerals: the numbers that digit strings stand for, a bounded reader that
rejects what does not fit, and the trimming of zeros that say nothing. -/
namespace Decimal

/-- The number a digit string stands for. -/
def valueOf (digits : List Char) : Nat := Nat.ofDigitChars 10 digits 0

theorem valueOf_append (high low : List Char) :
    valueOf (high ++ low) = 10 ^ low.length * valueOf high + valueOf low := by
  rw [valueOf, Nat.ofDigitChars_append, Nat.ofDigitChars_eq_ofDigitChars_zero]
  rfl

@[simp] theorem valueOf_zeros (count : Nat) : valueOf (List.replicate count '0') = 0 := by
  simp [valueOf]

@[simp] theorem valueOf_toDigits (number : Nat) : valueOf (Nat.toDigits 10 number) = number :=
  Nat.ofDigitChars_ten_toDigits

/-- More digits never make a smaller number. -/
theorem le_ofDigitChars (start : Nat) (digits : List Char) :
    start ≤ Nat.ofDigitChars 10 digits start := by
  induction digits generalizing start with
  | nil => simp
  | cons digit rest ih =>
      rw [Nat.ofDigitChars_cons]
      have further := ih (10 * start + (digit.toNat - '0'.toNat))
      omega

/-- Why a text is not a number in range. -/
inductive NumberError where
  | empty
  | invalidDigit
  | posOverflow
  deriving DecidableEq, Repr

/-- Read digits from the left, stopping at the first that is none or exceeds the limit. -/
def readDigits (limit : Nat) : Nat → List Char → Except NumberError Nat
  | start, [] => .ok start
  | start, digit :: rest =>
      if digit.isDigit then
        let next := 10 * start + (digit.toNat - '0'.toNat)
        if next ≤ limit then readDigits limit next rest else .error .posOverflow
      else .error .invalidDigit

/-- Stopping early loses nothing: what fits in the end fits all along. -/
theorem readDigits_ok_iff {limit start : Nat} (fits : start ≤ limit) {digits : List Char}
    {number : Nat} : readDigits limit start digits = .ok number ↔
      digits.all Char.isDigit = true ∧ number = Nat.ofDigitChars 10 digits start ∧
        number ≤ limit := by
  induction digits generalizing start with
  | nil => simp only [readDigits, Except.ok.injEq, List.all_nil, Nat.ofDigitChars_nil]; grind
  | cons digit rest ih =>
      have further := le_ofDigitChars (10 * start + (digit.toNat - '0'.toNat)) rest
      simp only [readDigits, List.all_cons, Nat.ofDigitChars_cons, Bool.and_eq_true]
      by_cases isDigit : digit.isDigit = true
      · by_cases next : 10 * start + (digit.toNat - '0'.toNat) ≤ limit
        · simp only [isDigit, if_true, if_pos next, ih next, true_and]
        · simp only [isDigit, if_true, if_neg next, true_and, reduceCtorEq, false_iff]
          omega
      · simp [isDigit]

/-- Read an unsigned number up to a limit. A plus sign may stand in front. -/
def parse (limit : Nat) (text : List Char) : Except NumberError Nat :=
  if text = [] then .error .empty
  else if text = ['+'] ∨ text = ['-'] then .error .invalidDigit
  else readDigits limit 0 (if text.head? = some '+' then text.tail else text)

/-- Whatever is read respects the limit. -/
theorem parse_le {limit number : Nat} {text : List Char} (read : parse limit text = .ok number) :
    number ≤ limit := by
  unfold parse at read
  split at read
  · cases read
  · split at read
    · cases read
    · exact ((readDigits_ok_iff (Nat.zero_le limit)).mp read).2.2

/-- A digit string is read exactly when its number is within the limit. -/
theorem parse_digits_ok_iff {limit number : Nat} {digits : List Char}
    (all : digits.all Char.isDigit = true) (some : digits ≠ []) :
    parse limit digits = .ok number ↔ number = valueOf digits ∧ number ≤ limit := by
  cases digits with
  | nil => exact absurd rfl some
  | cons first rest =>
      have digit : first.isDigit = true := by simp_all
      have unsigned : first ≠ '+' ∧ first ≠ '-' := by
        constructor
        all_goals
          intro sign
          rw [sign] at digit
          exact absurd digit (by decide)
      have bare : parse limit (first :: rest) = readDigits limit 0 (first :: rest) := by
        simp [parse, unsigned]
      rw [bare, readDigits_ok_iff (Nat.zero_le limit), all, valueOf]
      simp only [true_and]

/-- A decimal numeral: digits on both sides of a point, at least one in all. -/
structure Numeral where
  whole : List Char
  fraction : List Char
  digits : (whole ++ fraction).all Char.isDigit = true
  some : whole ++ fraction ≠ []

namespace Numeral

variable (numeral : Numeral)

/-- The number it stands for. -/
def value : ℚ :=
  valueOf numeral.whole + (valueOf numeral.fraction : ℚ) / 10 ^ numeral.fraction.length

/-- The texts that write it. A point with nothing behind it may be left out. -/
def Writes (text : List Char) : Prop :=
  text = numeral.whole ++ '.' :: numeral.fraction ∨
    numeral.fraction = [] ∧ text = numeral.whole

theorem whole_digits : numeral.whole.all Char.isDigit = true := by
  have := numeral.digits
  simp_all

/-- Shifting the point past the fraction leaves the padded digits as a whole number. -/
theorem value_mul_pow {decimals : Nat} (within : numeral.fraction.length ≤ decimals) :
    numeral.value * 10 ^ decimals =
      valueOf (numeral.whole ++ numeral.fraction.rightpad decimals '0') := by
  have split : decimals = numeral.fraction.length + (decimals - numeral.fraction.length) := by
    omega
  have nonzero : (10 : ℚ) ^ numeral.fraction.length ≠ 0 := by positivity
  rw [List.rightpad, ← List.append_assoc, valueOf_append, valueOf_append, List.length_replicate,
    valueOf_zeros, value]
  push_cast
  rw [split, pow_add, Nat.add_sub_cancel_left]
  field_simp
  ring

end Numeral

/-- `str::trim_end_matches` at one character. -/
def trimEnd (character : Char) (text : List Char) : List Char := text.rdropWhile (· == character)

theorem trimEnd_spec (character : Char) (text : List Char) :
    ∃ count, text = trimEnd character text ++ List.replicate count character := by
  refine ⟨(text.rtakeWhile (· == character)).length, ?_⟩
  have trimmed : text.rtakeWhile (· == character) =
      List.replicate (text.rtakeWhile (· == character)).length character := by
    rw [List.eq_replicate_iff]
    exact ⟨rfl, fun other member => by simpa using List.mem_rtakeWhile_imp member⟩
  rw [← trimmed, trimEnd, List.rdropWhile_append_rtakeWhile]

/-- A character that is not trimmed protects everything in front of it. -/
theorem trimEnd_append_cons {character other : Char} (different : other ≠ character)
    (front back : List Char) :
    trimEnd character (front ++ other :: back) = front ++ other :: trimEnd character back := by
  have stops : (other :: front.reverse).dropWhile (· == character) = other :: front.reverse :=
    List.dropWhile_cons_of_neg (by simpa using different)
  simp only [trimEnd, List.rdropWhile, List.reverse_append, List.reverse_cons, List.append_assoc,
    List.singleton_append, List.dropWhile_append, stops]
  by_cases gone : back.reverse.dropWhile (· == character) = []
  · simp [gone]
  · simp [gone]

theorem trimEnd_digits {character : Char} (mark : character.isDigit = false) {digits : List Char}
    (all : digits.all Char.isDigit = true) : trimEnd character digits = digits := by
  rw [trimEnd, List.rdropWhile_eq_self_iff]
  intro nonempty same
  have last := List.all_eq_true.mp all _ (List.getLast_mem nonempty)
  rw [beq_iff_eq.mp same, mark] at last
  cases last

/-- A point goes when nothing stands behind it. -/
theorem trimEnd_point {whole fraction : List Char}
    (digits : (whole ++ fraction).all Char.isDigit = true) :
    trimEnd '.' (whole ++ '.' :: fraction) =
      if fraction = [] then whole else whole ++ '.' :: fraction := by
  rw [List.all_append, Bool.and_eq_true] at digits
  by_cases bare : fraction = []
  · have point : trimEnd '.' (whole ++ ['.']) = trimEnd '.' whole :=
      List.rdropWhile_concat_pos _ _ _ (by decide)
    rw [if_pos bare, bare, point, trimEnd_digits (by decide) digits.1]
  · rw [if_neg bare, trimEnd, List.rdropWhile_eq_self_iff]
    intro nonempty same
    rw [List.getLast_append_of_ne_nil _ (List.cons_ne_nil _ _), List.getLast_cons bare] at same
    have last := List.all_eq_true.mp digits.2 _ (List.getLast_mem bare)
    rw [beq_iff_eq.mp same] at last
    exact absurd last (by decide)

/-- Digits around a point, without the zeros behind it, still write the same number. -/
theorem trimmed_writes {whole fraction : List Char} (nonempty : whole ≠ [])
    (digits : (whole ++ fraction).all Char.isDigit = true) :
    ∃ numeral : Numeral, ∃ count,
      numeral.Writes (trimEnd '.' (trimEnd '0' (whole ++ '.' :: fraction))) ∧
      numeral.whole = whole ∧ fraction = numeral.fraction ++ List.replicate count '0' := by
  obtain ⟨count, split⟩ := trimEnd_spec '0' fraction
  have kept : (whole ++ trimEnd '0' fraction).all Char.isDigit = true := by
    rw [split, ← List.append_assoc, List.all_append, Bool.and_eq_true] at digits
    exact digits.1
  refine ⟨⟨whole, trimEnd '0' fraction, kept, by simp [nonempty]⟩, count, ?_, rfl, split⟩
  rw [trimEnd_append_cons (by decide), trimEnd_point kept]
  by_cases bare : trimEnd '0' fraction = []
  · rw [if_pos bare]
    exact Or.inr ⟨bare, rfl⟩
  · rw [if_neg bare]
    exact Or.inl rfl

end Decimal
