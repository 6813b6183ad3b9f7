import ProgrammaticSigner.Cli.Toolkit
import ProgrammaticSigner.Library.Decimal

set_option autoImplicit false

/- Token amounts as the user writes them and as they are printed. The reader pads the
fraction and reads one whole number, so its value must be tied back to the text. -/
namespace ProgrammaticSigner

open Outcome Decimal

/-- `ParseIntError` as it is printed. -/
def describeNumberError : NumberError → String
  | .empty => "cannot parse integer from empty string"
  | .invalidDigit => "invalid digit found in string"
  | .posOverflow => "number too large to fit in target type"

def maxU64 : Nat := 2 ^ 64 - 1

/-- `u64::from_str` -/
def parseU64 (text : Text) : Except Failure UInt64 :=
  ((Decimal.parse maxU64 text).mapError fun reason => [describeNumberError reason]).map UInt64.ofNat

theorem parseU64_ok_iff {text : Text} {amount : UInt64} :
    parseU64 text = .ok amount ↔ Decimal.parse maxU64 text = .ok amount.toNat := by
  unfold parseU64
  cases read : Decimal.parse maxU64 text with
  | error reason => simp [Except.mapError, Except.map]
  | ok number =>
      have fits : number < 2 ^ 64 := by
        have := parse_le read
        simp only [maxU64] at this
        omega
      simp only [Except.mapError, Except.map, Except.ok.injEq]
      constructor
      · intro same
        rw [← same, UInt64.toNat_ofNat_of_lt' fits]
      · intro same
        rw [same, UInt64.ofNat_toNat]

/-- The whole and the fractional part of an amount, split at the first point. -/
def amountParts (amount : Text) : Text × Text := (splitOnce '.' amount).getD (amount, [])

/-- `parse_token_amount`. Once the parts are digits, their length in bytes is their length. -/
def parseTokenAmount (amount : Text) (decimals : UInt8) : Except Failure UInt64 := do
  let whole := (amountParts amount).1
  let fraction := (amountParts amount).2
  ensure (¬(whole = [] ∧ fraction = []) ∧ (whole ++ fraction).all Char.isDigit = true)
    [s!"invalid amount {String.ofList amount}"]
  ensure (fraction.length ≤ decimals.toNat)
    [s!"amount {String.ofList amount} has more than {decimals.toNat} decimal places"]
  context s!"amount {String.ofList amount} is too large"
    (parseU64 (whole ++ fraction.rightpad decimals.toNat '0'))

/-- `real_number_string`: pad to a digit in front of the point, then insert the point. -/
def realNumberString (amount : UInt64) (decimals : UInt8) : Text :=
  let digits := Nat.toDigits 10 amount.toNat
  if 0 < decimals.toNat then
    let padded := digits.leftpad (decimals.toNat + 1) '0'
    padded.take (padded.length - decimals.toNat) ++
      '.' :: padded.drop (padded.length - decimals.toNat)
  else digits

/-- `real_number_string_trimmed` -/
def realNumberStringTrimmed (amount : UInt64) (decimals : UInt8) : Text :=
  if 0 < decimals.toNat then trimEnd '.' (trimEnd '0' (realNumberString amount decimals))
  else realNumberString amount decimals

theorem digits_no_point {digits : Text} (all : digits.all Char.isDigit = true) :
    '.' ∉ digits := by
  intro point
  exact absurd (List.all_eq_true.mp all _ point) (by decide)

theorem splitOnce_some {separator : Char} {text left right : Text}
    (split : splitOnce separator text = some (left, right)) :
    text = left ++ separator :: right := by
  induction text generalizing left with
  | nil => cases split
  | cons first rest ih =>
      rw [splitOnce] at split
      by_cases here : first = separator
      · rw [if_pos here] at split
        cases split
        rw [here]
        rfl
      · rw [if_neg here, Option.map_eq_some_iff] at split
        obtain ⟨parts, later, same⟩ := split
        cases same
        rw [ih later]
        rfl

theorem splitOnce_none {separator : Char} {text : Text} (absent : separator ∉ text) :
    splitOnce separator text = none := by
  induction text with
  | nil => rfl
  | cons first rest ih =>
      have other : first ≠ separator := fun same => absent (same ▸ List.mem_cons_self)
      rw [splitOnce, if_neg other, ih fun member => absent (List.mem_cons_of_mem _ member)]
      rfl

/-- The split finds the parts of whatever numeral the text writes. -/
theorem amountParts_of_writes {numeral : Numeral} {amount : Text}
    (writes : numeral.Writes amount) :
    amountParts amount = (numeral.whole, numeral.fraction) := by
  have plain := digits_no_point numeral.whole_digits
  rcases writes with pointed | bare
  · rw [amountParts, pointed, splitOnce_append numeral.fraction plain]
    rfl
  · rw [amountParts, bare.2, splitOnce_none plain, bare.1]
    rfl

/-- Where both parts are digits and not both empty, the text writes a numeral. -/
theorem writes_of_amountParts {amount : Text}
    (digits : ((amountParts amount).1 ++ (amountParts amount).2).all Char.isDigit = true)
    (nonempty : ¬((amountParts amount).1 = [] ∧ (amountParts amount).2 = [])) :
    ∃ numeral : Numeral, numeral.Writes amount ∧
      amountParts amount = (numeral.whole, numeral.fraction) := by
  refine ⟨⟨_, _, digits, by simpa using nonempty⟩, ?_, rfl⟩
  cases split : splitOnce '.' amount with
  | none =>
      right
      simp [amountParts, split]
  | some parts =>
      left
      simpa [amountParts, split] using splitOnce_some split

/-- An amount in tokens, in base units. -/
def InBaseUnits (amount : Text) (decimals : UInt8) (tokens : ℚ) : Prop :=
  ∃ numeral : Numeral, numeral.Writes amount ∧ numeral.fraction.length ≤ decimals.toNat ∧
    tokens = numeral.value * 10 ^ decimals.toNat

/-- The padded digits of a numeral are read as its value in base units. -/
theorem parse_padded_iff {numeral : Numeral} {decimals number : Nat}
    (within : numeral.fraction.length ≤ decimals) :
    Decimal.parse maxU64 (numeral.whole ++ numeral.fraction.rightpad decimals '0') = .ok number ↔
      (number : ℚ) = numeral.value * 10 ^ decimals ∧ number ≤ maxU64 := by
  have digits : (numeral.whole ++ numeral.fraction.rightpad decimals '0').all Char.isDigit =
      true := by
    have zeros : (List.replicate (decimals - numeral.fraction.length) '0').all Char.isDigit =
        true := by simp
    rw [List.rightpad, ← List.append_assoc, List.all_append, numeral.digits, zeros]
    rfl
  have nonempty : numeral.whole ++ numeral.fraction.rightpad decimals '0' ≠ [] := by
    rw [List.rightpad, ← List.append_assoc]
    exact List.append_ne_nil_of_left_ne_nil numeral.some _
  rw [parse_digits_ok_iff digits nonempty, numeral.value_mul_pow within, Nat.cast_inj]

theorem parseTokenAmount_ok_iff {amount : Text} {decimals : UInt8} {tokens : UInt64} :
    parseTokenAmount amount decimals = .ok tokens ↔
      InBaseUnits amount decimals (tokens.toNat : ℚ) := by
  have small : tokens.toNat ≤ maxU64 := by
    have := tokens.toNat_lt
    simp only [maxU64]
    omega
  simp only [parseTokenAmount, bind_unit_ok_iff, ensure_ok_iff, context_ok_iff, parseU64_ok_iff]
  constructor
  · rintro ⟨⟨nonempty, digits⟩, within, read⟩
    obtain ⟨numeral, writes, parts⟩ := writes_of_amountParts digits nonempty
    rw [parts] at within read
    exact ⟨numeral, writes, within, ((parse_padded_iff within).mp read).1⟩
  · rintro ⟨numeral, writes, within, value⟩
    rw [amountParts_of_writes writes]
    refine ⟨⟨fun empty => numeral.some ?_, numeral.digits⟩, within,
      (parse_padded_iff within).mpr ⟨value, small⟩⟩
    simpa using empty

/-- What is printed for an amount writes it. -/
theorem realNumberStringTrimmed_inBaseUnits (tokens : UInt64) (decimals : UInt8) :
    InBaseUnits (realNumberStringTrimmed tokens decimals) decimals (tokens.toNat : ℚ) := by
  have printed : (Nat.toDigits 10 tokens.toNat).all Char.isDigit = true :=
    List.all_eq_true.mpr fun digit member =>
      Nat.isDigit_of_mem_toDigits (by decide) (by decide) member
  unfold realNumberStringTrimmed realNumberString
  by_cases fractional : 0 < decimals.toNat
  · simp only [if_pos fractional]
    generalize shown : (Nat.toDigits 10 tokens.toNat).leftpad (decimals.toNat + 1) '0' = padded
    have digits : padded.all Char.isDigit = true := by
      rw [← shown, List.leftpad, List.all_append, printed]
      simp
    have long : decimals.toNat + 1 ≤ padded.length := by
      rw [← shown, List.length_leftpad]
      omega
    have joined := List.take_append_drop (padded.length - decimals.toNat) padded
    obtain ⟨numeral, count, writes, whole, fraction⟩ := @trimmed_writes
      (padded.take (padded.length - decimals.toNat))
      (padded.drop (padded.length - decimals.toNat))
      (List.ne_nil_of_length_pos (by rw [List.length_take]; omega)) (by rw [joined]; exact digits)
    have lengths := congrArg List.length fraction
    rw [List.length_drop, List.length_append, List.length_replicate] at lengths
    have within : numeral.fraction.length ≤ decimals.toNat := by omega
    refine ⟨numeral, writes, within, ?_⟩
    have same : decimals.toNat - numeral.fraction.length = count := by omega
    rw [numeral.value_mul_pow within, List.rightpad, same, ← fraction, whole, joined, ← shown,
      List.leftpad, valueOf_append, valueOf_zeros, valueOf_toDigits]
    simp
  · have none : decimals.toNat = 0 := by omega
    simp only [if_neg fractional]
    refine ⟨⟨Nat.toDigits 10 tokens.toNat, [], by simpa using printed,
      by simp [Nat.toDigits_ne_nil]⟩, Or.inr ⟨rfl, rfl⟩, by simp, ?_⟩
    simp [Numeral.value, none, valueOf]

/-- Amounts are read exactly, and what is printed for an amount reads back as it. -/
theorem token_amounts_exact :
    (∀ amount decimals tokens, parseTokenAmount amount decimals = .ok tokens ↔
      InBaseUnits amount decimals (tokens.toNat : ℚ)) ∧
    (∀ amount decimals, (∃ tokens, parseTokenAmount amount decimals = .ok tokens) ↔
      ∃ tokens ≤ (2 : ℚ) ^ 64 - 1, InBaseUnits amount decimals tokens) ∧
    ∀ tokens decimals,
      parseTokenAmount (realNumberStringTrimmed tokens decimals) decimals = .ok tokens := by
  refine ⟨fun amount decimals tokens => parseTokenAmount_ok_iff, fun amount decimals => ?_,
    fun tokens decimals =>
      parseTokenAmount_ok_iff.mpr (realNumberStringTrimmed_inBaseUnits tokens decimals)⟩
  simp only [parseTokenAmount_ok_iff]
  constructor
  · rintro ⟨tokens, units⟩
    refine ⟨tokens.toNat, ?_, units⟩
    have bound : tokens.toNat ≤ 2 ^ 64 - 1 := by
      have := tokens.toNat_lt
      omega
    calc (tokens.toNat : ℚ) ≤ ((2 ^ 64 - 1 : Nat) : ℚ) := Nat.cast_le.mpr bound
      _ = (2 : ℚ) ^ 64 - 1 := by norm_num
  · rintro ⟨tokens, bound, numeral, writes, within, value⟩
    have shifted := numeral.value_mul_pow within
    generalize valueOf (numeral.whole ++ _) = number at shifted
    rw [shifted] at value
    have fits : number < 2 ^ 64 := by
      rw [value] at bound
      have : (number : ℚ) < (2 ^ 64 : Nat) := by push_cast; linarith
      exact_mod_cast this
    refine ⟨UInt64.ofNat number, numeral, writes, within, ?_⟩
    rw [UInt64.toNat_ofNat_of_lt' fits, shifted]

example : parseTokenAmount ".5".toList 2 = .ok 50 := by decide +kernel

end ProgrammaticSigner
