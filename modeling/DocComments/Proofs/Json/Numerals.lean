import DocComments.Json.Token
import DocComments.Proofs.Text.Search
import Mathlib.Data.List.Basic
import Mathlib.Tactic.IntervalCases

/-!
# The numerals of JSON

The grammar of JSON numbers, part by part, and the texts that numbers are written as. A numeral of
the grammar passes the reader's test (`Numeral.isNumber`) and holds none but the characters that a
number token is made of (`Numeral.isNumberPart`). The digits of a natural are a numeral
(`Numeral.ofNat`), and so is the text of every finite number (`Numeral.render`).
-/

namespace DocComments

namespace Number

/-- The points of a grid that read back as a positive number are positive themselves. -/
theorem digits_pos_of_gridPoint? {significand : Nat} {exponent place : Int} {point : ShortDecimal}
    (positive : 0 < significand) (found : gridPoint? significand exponent place = some point) :
    0 < point.digits := by
  have lowPositive : 0 < (4 * significand -
      if significand = leadingBit ∧ leastExponent < exponent then 1 else 2) *
        (twoPow (exponent - 2).toNat * tenPow (-place).toNat) := by
    refine Nat.mul_pos ?_ (Nat.mul_pos (Nat.pow_pos (by decide)) (Nat.pow_pos (by decide)))
    split <;> omega
  simp only [gridPoint?] at found
  generalize (4 * significand -
    if significand = leadingBit ∧ leastExponent < exponent then 1 else 2) *
      (twoPow (exponent - 2).toNat * tenPow (-place).toNat) = low at found lowPositive
  generalize tenPow place.toNat * twoPow (-(exponent - 2)).toNat = step at found
  generalize 4 * significand * (twoPow (exponent - 2).toNat * tenPow (-place).toNat) = value
    at found
  -- The interval begins above zero, so the point below is only taken if it is not zero.
  rcases Nat.eq_zero_or_pos (value / step) with zero | nonzero
  · rw [zero] at found
    split at found <;> grind
  · split at found <;> grind

theorem digits_pos_or_shortest_eq {significand : Nat} (positive : 0 < significand)
    (exponent : Int) :
    0 < (shortest significand exponent).digits ∨ shortest significand exponent = ⟨0, 0⟩ := by
  simp only [shortest]
  cases found : (List.range gridCount).findSome? fun (finer : Nat) =>
      gridPoint? significand exponent (coarsePlace (significand.log2 + exponent) - finer) with
  | none => exact .inr rfl
  | some point =>
      obtain ⟨finer, -, hit⟩ := List.exists_of_findSome?_eq_some found
      exact .inl (digits_pos_of_gridPoint? positive hit)

end Number

namespace Json

/-- A row of decimal digits that is not empty. -/
structure Digits (text : Text) : Prop where
  nonempty : text ≠ []
  isDigit : ∀ c ∈ text, c.isDigit = true

/-- The whole part of a numeral: digits, of which the first is no zero unless it stands alone. -/
structure Whole (text : Text) : Prop extends Digits text where
  unpadded : text.length = 1 ∨ text.head? ≠ some '0'

/-- The fraction of a numeral, if there is one. -/
inductive Fraction : Text → Prop where
  | none : Fraction []
  | point {digits : Text} : Digits digits → Fraction ('.' :: digits)

/-- The exponent of a numeral, if there is one. -/
inductive Exponent : Text → Prop where
  | none : Exponent []
  | power {sign : Char} {digits : Text} :
    sign = '+' ∨ sign = '-' → Digits digits → Exponent ('e' :: sign :: digits)

/-- A numeral without a sign. -/
inductive Unsigned : Text → Prop where
  | parts {whole fraction exponent : Text} :
    Whole whole → Fraction fraction → Exponent exponent → Unsigned (whole ++ (fraction ++ exponent))

/-- A numeral. -/
inductive Numeral : Text → Prop where
  | positive {text : Text} : Unsigned text → Numeral text
  | negative {text : Text} : Unsigned text → Numeral ('-' :: text)

namespace Digits

variable {digits rest : Text}

theorem append (front : Digits digits) (back : ∀ c ∈ rest, c.isDigit = true) :
    Digits (digits ++ rest) where
  nonempty := by simp [front.nonempty]
  isDigit c member := (List.mem_append.mp member).elim (front.isDigit c) (back c)

theorem prepend (back : Digits digits) (front : ∀ c ∈ rest, c.isDigit = true) :
    Digits (rest ++ digits) where
  nonempty := by simp [back.nonempty]
  isDigit c member := (List.mem_append.mp member).elim (front c) (back.isDigit c)

theorem isDigit_of_mem_zeros (count : Nat) : ∀ c ∈ List.replicate count '0', c.isDigit = true := by
  intro c member
  rw [List.eq_of_mem_replicate member]
  decide

theorem ofNat (n : Nat) : Digits (Nat.toDigits 10 n) where
  nonempty := Nat.toDigits_ne_nil
  isDigit _ member := Nat.isDigit_of_mem_toDigits (by decide) (by decide) member

end Digits

theorem Exponent.eq_of_head? {text : Text} (exponent : Exponent text) {c : Char}
    (first : text.head? = some c) : c = 'e' := by
  cases exponent with
  | none => simp at first
  | power _ _ => simpa using first.symm

theorem Exponent.isDigit_eq_false_of_head? {text : Text} (exponent : Exponent text) (c : Char)
    (first : text.head? = some c) : c.isDigit = false := by
  rw [exponent.eq_of_head? first]
  decide

theorem Exponent.isSome_readExponent? {text : Text} (exponent : Exponent text) :
    (Decimal.readExponent? text).isSome := by
  cases exponent with
  | none => rfl
  | power sign row =>
      rcases sign with rfl | rfl
      · simpa [Decimal.readExponent?, Decimal.takeSign, row.nonempty] using row.isDigit
      · simpa [Decimal.readExponent?, Decimal.takeSign, row.nonempty] using row.isDigit

/-- What follows the whole part of a numeral starts with no digit. -/
theorem Fraction.isDigit_eq_false_of_head? {fraction exponent : Text} (part : Fraction fraction)
    (power : Exponent exponent) (c : Char) (first : (fraction ++ exponent).head? = some c) :
    c.isDigit = false := by
  cases part with
  | none => exact power.isDigit_eq_false_of_head? c first
  | point _ =>
      have dot : '.' = c := by simpa using first
      simp [← dot]

namespace Unsigned

variable {text : Text}

theorem isDigit_of_head? (numeral : Unsigned text) {c : Char} (first : text.head? = some c) :
    c.isDigit = true := by
  rcases numeral with ⟨whole, -, -⟩
  obtain ⟨head, tail, rfl⟩ := List.exists_cons_of_ne_nil whole.nonempty
  have same : head = c := by simpa using first
  exact same ▸ whole.isDigit head (by simp)

theorem isNumber_minus (numeral : Unsigned text) : isNumber ('-' :: text) = true := by
  rcases numeral with ⟨whole, part, power⟩
  have stop := part.isDigit_eq_false_of_head? power
  simp only [Json.isNumber, Text.takeWhile_append_of_stop whole.isDigit stop,
    Text.dropWhile_append_of_stop whole.isDigit stop, Bool.and_eq_true]
  refine ⟨?_, ?_⟩
  · rcases whole.unpadded with single | unpadded
    · simp [single]
    · simp [whole.nonempty, unpadded]
  · cases part with
    | none =>
        split
        next rest point =>
          rw [List.nil_append] at point
          exact absurd (power.eq_of_head? (by rw [point, List.head?_cons])) (by decide)
        next => exact power.isSome_readExponent?
    | point row =>
        have stop := power.isDigit_eq_false_of_head?
        simp [Text.takeWhile_append_of_stop row.isDigit stop,
          Text.dropWhile_append_of_stop row.isDigit stop, row.nonempty, power.isSome_readExponent?]

theorem isNumberPart (numeral : Unsigned text) : ∀ c ∈ text, isNumberPart c = true := by
  have digit {digits : Text} (row : Digits digits) : ∀ c ∈ digits, Json.isNumberPart c = true := by
    intro c member
    simp [Json.isNumberPart, row.isDigit c member]
  rcases numeral with ⟨whole, part, power⟩
  simp only [List.mem_append]
  rintro c (member | member | member)
  · exact digit whole.toDigits c member
  · cases part with
    | none => simp at member
    | point row =>
        rcases List.mem_cons.mp member with rfl | member
        · decide
        · exact digit row c member
  · cases power with
    | none => simp at member
    | power sign row =>
        simp only [List.mem_cons] at member
        rcases member with rfl | rfl | member
        · decide
        · rcases sign with rfl | rfl <;> decide
        · exact digit row c member

end Unsigned

namespace Numeral

variable {text : Text}

theorem ne_nil (numeral : Numeral text) : text ≠ [] := by
  cases numeral with
  | positive size =>
      obtain ⟨whole, -, -⟩ := size
      simp [whole.nonempty]
  | negative _ => simp

theorem isNumber (numeral : Numeral text) : isNumber text = true := by
  cases numeral with
  | positive size =>
      have unsigned : ∀ rest, text ≠ '-' :: rest := by
        rintro rest rfl
        exact absurd (size.isDigit_of_head? rfl) (by decide)
      simpa only [Json.isNumber] using size.isNumber_minus
  | negative size => exact size.isNumber_minus

theorem isNumberPart (numeral : Numeral text) : ∀ c ∈ text, isNumberPart c = true := by
  cases numeral with
  | positive size => exact size.isNumberPart
  | negative size =>
      intro c member
      rcases List.mem_cons.mp member with rfl | member
      · decide
      · exact size.isNumberPart c member

end Numeral

/-- The first digit of a positive natural is no zero. -/
theorem head?_toDigits_ne {n : Nat} (positive : 0 < n) : (Nat.toDigits 10 n).head? ≠ some '0' := by
  induction n using Nat.strong_induction_on with
  | _ n ih =>
    rcases Nat.lt_or_ge n 10 with small | large
    · rw [Nat.toDigits_of_lt_base small]
      interval_cases n <;> decide
    · rw [Nat.toDigits_of_base_le (by decide) large,
        List.head?_append_of_ne_nil _ Nat.toDigits_ne_nil]
      exact ih (n / 10) (by omega) (by omega)

theorem Whole.ofNat (n : Nat) : Whole (Nat.toDigits 10 n) where
  toDigits := Digits.ofNat n
  unpadded := by
    rcases Nat.eq_zero_or_pos n with rfl | positive
    · exact .inl rfl
    · exact .inr (head?_toDigits_ne positive)

theorem Numeral.ofNat (n : Nat) : Numeral (Nat.toDigits 10 n) := by
  simpa using positive (.parts (Whole.ofNat n) .none .none)

/-- A numeral with a fraction and no exponent. -/
theorem Unsigned.point {whole digits : Text} (front : Whole whole) (back : Digits digits) :
    Unsigned (whole ++ '.' :: digits) := by
  simpa using parts front (.point back) .none

/-- Digits written out with a point are a numeral if the first of them is no zero. -/
theorem Unsigned.plainText {digits : Text} (row : Digits digits)
    (unpadded : digits.head? ≠ some '0') (exponent : Int) :
    Unsigned (NumberLayout.plainText digits exponent) := by
  have zero : Digits ['0'] := ⟨by simp, Digits.isDigit_of_mem_zeros 1⟩
  simp only [NumberLayout.plainText]
  split
  · exact point ⟨zero, .inl rfl⟩ (row.prepend (Digits.isDigit_of_mem_zeros _))
  · split
    · refine point ⟨row.append (Digits.isDigit_of_mem_zeros _), .inr ?_⟩ zero
      rwa [List.head?_append_of_ne_nil _ row.nonempty]
    · next longer =>
      refine point ⟨⟨?_, fun c member => ?_⟩, .inr ?_⟩ ⟨?_, fun c member => ?_⟩
      · simp [row.nonempty]
      · exact row.isDigit c (List.mem_of_mem_take member)
      · rwa [List.head?_take, if_neg (by omega)]
      · simp only [ne_eq, List.drop_eq_nil_iff]
        omega
      · exact row.isDigit c (List.mem_of_mem_drop member)

/-- Digits written with an exponent are a numeral, whatever the first of them is. -/
theorem Unsigned.scientificText {digits : Text} (row : Digits digits) (exponent : Int) :
    Unsigned (NumberLayout.scientificText ['+'] digits exponent) := by
  have power : Exponent ('e' ::
      if exponent < 0 then '-' :: Nat.toDigits 10 (-exponent).toNat
      else ['+'] ++ Nat.toDigits 10 exponent.toNat) := by
    split
    · exact .power (.inr rfl) (Digits.ofNat _)
    · exact .power (.inl rfl) (Digits.ofNat _)
  have single {c : Char} (isDigit : c.isDigit = true) : Whole [c] := ⟨⟨by simp, by simpa⟩, .inl rfl⟩
  simp only [NumberLayout.scientificText]
  match digits, row with
  | [], row => exact absurd rfl row.nonempty
  | [first], row => exact .parts (single (row.isDigit first (by simp))) .none power
  | first :: next :: rest, row =>
      refine .parts (single (row.isDigit first (by simp))) (.point ⟨by simp, ?_⟩) power
      exact fun c member => row.isDigit c (List.mem_cons_of_mem first member)

/-- The text of a finite size is a numeral. -/
theorem Unsigned.finiteText (significand : Nat) (exponent : Int) :
    Unsigned (numberLayout.finiteText significand exponent) := by
  have zero : Unsigned "0.0".toList := point (Whole.ofNat 0) (Digits.ofNat 0)
  simp only [NumberLayout.finiteText]
  split
  · exact zero
  · next nonzero =>
    rcases Number.digits_pos_or_shortest_eq (Nat.pos_of_ne_zero nonzero) exponent with
      positive | default
    · split
      · exact plainText (Digits.ofNat _) (head?_toDigits_ne positive) _
      · exact scientificText (Digits.ofNat _) _
    · rw [default]
      exact zero

/-- The text of a finite number is a numeral. -/
theorem Numeral.render {number : Number} {significand : Nat} {exponent : Int}
    (finite : number.magnitude = .finite significand exponent) :
    Numeral (numberLayout.render number) := by
  simp only [NumberLayout.render, finite]
  split
  · exact negative (Unsigned.finiteText significand exponent)
  · exact positive (Unsigned.finiteText significand exponent)

end Json

end DocComments
