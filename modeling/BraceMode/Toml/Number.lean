import BraceMode.Toml.Scalar

/-! Numbers of a settings file. An integer has to fit 64 bits with sign. Any other number is kept as its
digits and a power of ten, without rounding; it only has to stay below what a binary number of 64 bits can
come close to. -/

namespace BraceMode.Toml

/-- Digits of a class with single underscores between them. -/
def separated? (p : Char → Bool) : List Char → Option (List Char)
  | [] => none
  | [c] => if p c then some [c] else none
  | c :: '_' :: t => if p c then (separated? p t).map (c :: ·) else none
  | c :: t => if p c then (separated? p t).map (c :: ·) else none

/-- Decimal digits without leading zeros. -/
def wholeDigits? (t : List Char) : Option (List Char) := do
  let digits ← separated? Lexis.isDigit t
  if digits.head? = some '0' ∧ digits.length ≠ 1 then none else some digits

/-- Splits off a sign; true for minus. -/
def sign : List Char → Bool × List Char
  | '-' :: t => (true, t)
  | '+' :: t => (false, t)
  | t => (false, t)

def withSign (negative : Bool) (n : Nat) : Int := if negative then -Int.ofNat n else Int.ofNat n

/-! Integers -/

/-- A number whose digits follow a base mark. -/
def radix? (base : Nat) (p : Char → Bool) (t : List Char) : Option Int :=
  (separated? p t).map fun digits => Int.ofNat (digitsValue base digits)

/-- The integer a whole word writes; it has to fit 64 bits with sign. -/
def integer? (word : List Char) : Option Int := do
  let n : Int ← match word with
    | '0' :: 'x' :: t => radix? 16 Lexis.isHexDigit t
    | '0' :: 'o' :: t => radix? 8 Lexis.isOctalDigit t
    | '0' :: 'b' :: t => radix? 2 (fun c => c == '0' || c == '1') t
    | t => (wholeDigits? (sign t).2).map fun digits => withSign (sign t).1 (digitsValue 10 digits)
  if -0x8000000000000000 ≤ n ∧ n < 0x8000000000000000 then some n else none

/-! Numbers with a fraction or an exponent -/

/-- The number `coefficient * 10 ^ exponent` with a sign, or one that no digits write. -/
inductive Decimal where
  | finite (negative : Bool) (coefficient : Nat) (exponent : Int)
  | infinite (negative : Bool)
  | notANumber (negative : Bool)
  deriving DecidableEq, Repr

/-- Halfway from the largest binary number of 64 bits to the next power of two. From here on a number is
nearer to infinity. -/
def infinityBound : Nat := (Nat.pow 2 54 - 1) * Nat.pow 2 970

/-- Ten to this power is beyond `infinityBound`. -/
def exponentCap : Nat := 309

/-- Whether `coefficient * 10 ^ exponent` is `infinityBound` or more. The answer no longer depends on an
exponent beyond its cap, so large powers are never computed. -/
def reachesInfinity (coefficient : Nat) : Int → Bool
  | .ofNat n => decide (infinityBound ≤ coefficient * Nat.pow 10 (min n exponentCap))
  | .negSucc n => decide (infinityBound * Nat.pow 10 (min (n + 1) (coefficient.log2 + 1)) ≤ coefficient)

theorem pow_ten_le {i j : Nat} (h : i ≤ j) : Nat.pow 10 i ≤ Nat.pow 10 j :=
  Nat.pow_le_pow_right (by decide) h

theorem reachesInfinity_ofNat (coefficient n : Nat) :
    reachesInfinity coefficient (.ofNat n) = decide (infinityBound ≤ coefficient * Nat.pow 10 n) := by
  have hcap : infinityBound ≤ Nat.pow 10 exponentCap := by decide +kernel
  by_cases hn : n ≤ exponentCap
  · simp [reachesInfinity, Nat.min_eq_left hn]
  · have hmin : min n exponentCap = exponentCap := Nat.min_eq_right (by omega)
    have hpow : Nat.pow 10 exponentCap ≤ Nat.pow 10 n := pow_ten_le (by omega)
    rcases Nat.eq_zero_or_pos coefficient with hc | hc
    · simp [reachesInfinity, hc]
    · have hbelow : infinityBound ≤ coefficient * Nat.pow 10 exponentCap :=
        Nat.le_trans hcap (Nat.le_mul_of_pos_left _ hc)
      have habove : infinityBound ≤ coefficient * Nat.pow 10 n :=
        Nat.le_trans hbelow (Nat.mul_le_mul_left _ hpow)
      simp only [reachesInfinity, hmin, hbelow, habove]

theorem reachesInfinity_negSucc (coefficient n : Nat) :
    reachesInfinity coefficient (.negSucc n) =
      decide (infinityBound * Nat.pow 10 (n + 1) ≤ coefficient) := by
  have hpos : 1 ≤ infinityBound := by decide +kernel
  have hpow (k : Nat) (hk : coefficient.log2 + 1 ≤ k) :
      ¬ infinityBound * Nat.pow 10 k ≤ coefficient := by
    have hlog : coefficient < Nat.pow 2 (coefficient.log2 + 1) := Nat.lt_log2_self
    have hbase : Nat.pow 2 (coefficient.log2 + 1) ≤ Nat.pow 10 (coefficient.log2 + 1) :=
      Nat.pow_le_pow_left (by decide) _
    have hexp : Nat.pow 10 (coefficient.log2 + 1) ≤ Nat.pow 10 k := pow_ten_le hk
    have hmul : Nat.pow 10 k ≤ infinityBound * Nat.pow 10 k := Nat.le_mul_of_pos_left _ hpos
    omega
  by_cases hn : n + 1 ≤ coefficient.log2 + 1
  · simp [reachesInfinity, Nat.min_eq_left hn]
  · have hmin : min (n + 1) (coefficient.log2 + 1) = coefficient.log2 + 1 :=
      Nat.min_eq_right (by omega)
    simp only [reachesInfinity, hmin, hpow _ (Nat.le_refl _), hpow (n + 1) (by omega)]

/-- Splits a text at the first character of a class, which goes to neither side. -/
def splitFirst (p : Char → Bool) (t : List Char) : List Char × Option (List Char) :=
  (t.takeWhile fun c => !p c, (t.dropWhile fun c => !p c).tail?)

/-- The power of ten behind an exponent mark; leading zeros are allowed. -/
def exponent? (t : List Char) : Option Int :=
  (separated? Lexis.isDigit (sign t).2).map fun digits => withSign (sign t).1 (digitsValue 10 digits)

/-- The number that digits with a point, an exponent or both write. One that reaches infinity is refused if it
is positive. -/
def finite? (negative : Bool) (t : List Char) : Option Decimal := do
  let (mantissa, power) := splitFirst (fun c => c == 'e' || c == 'E') t
  let (whole, fraction) := splitFirst (· == '.') mantissa
  let wholeDigits ← wholeDigits? whole
  let fractionDigits ← match fraction with
    | some digits => separated? Lexis.isDigit digits
    | none => if power.isSome then some [] else none
  let exponent ← match power with
    | some t => exponent? t
    | none => some 0
  let coefficient := digitsValue 10 (wholeDigits ++ fractionDigits)
  let exponent := exponent - Int.ofNat fractionDigits.length
  if !negative && reachesInfinity coefficient exponent then none
  else some (.finite negative coefficient exponent)

/-- The number a whole word writes that is no integer. -/
def decimal? (word : List Char) : Option Decimal :=
  let (negative, t) := sign word
  if t = "inf".toList then some (.infinite negative)
  else if t = "nan".toList then some (.notANumber negative)
  else finite? negative t

/-- Characters of a number or a truth value. -/
def isScalarChar (c : Char) : Bool := c.isAlphanum || "+-_.".toList.contains c

end BraceMode.Toml
