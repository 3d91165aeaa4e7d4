import BraceMode.Lexis.CharClass

/-! Number literals, measured in characters. A literal that starts with `0` is hexadecimal or octal and
never has a fraction, so `0.5` is `0` followed by `.5`; an exponent counts only with its digits. -/

namespace BraceMode.Lexis.Number

/-- A sign, if one is there. -/
def signSize : List Char → Nat
  | c :: _ => if c = '+' ∨ c = '-' then 1 else 0
  | [] => 0

/-- `e` or `E`, a sign or none, and digits: all of it or nothing. -/
def exponentSize : List Char → Nat
  | c :: t =>
    if c = 'e' ∨ c = 'E' then
      let digits := run isDigit (t.drop (signSize t))
      if digits = 0 then 0 else 1 + signSize t + digits
    else 0
  | [] => 0

/-- A point and the digits after it, of which there may be none. -/
def fractionSize : List Char → Nat
  | '.' :: t => 1 + run isDigit t
  | _ => 0

/-- `x` or `X` and hexadecimal digits: all of it or nothing. -/
def hexSize : List Char → Nat
  | c :: t =>
    if c = 'x' ∨ c = 'X' then
      let digits := run isHexDigit t
      if digits = 0 then 0 else 1 + digits
    else 0
  | [] => 0

/-- What follows a leading point. -/
def afterPoint (t : List Char) : Nat :=
  let digits := run isDigit t
  if digits = 0 then 0 else digits + exponentSize (t.drop digits)

/-- What follows a leading zero. -/
def afterZero (t : List Char) : Nat :=
  let hex := hexSize t
  if hex = 0 then run isOctalDigit t else hex

/-- What follows a leading digit other than zero. -/
def afterDigit (t : List Char) : Nat :=
  let whole := run isDigit t
  let withFraction := whole + fractionSize (t.drop whole)
  withFraction + exponentSize (t.drop withFraction)

/-- How many characters of `t` follow the first character `c` of a number literal. -/
def tailSize (c : Char) (t : List Char) : Nat :=
  if c = '.' then afterPoint t else if c = '0' then afterZero t else afterDigit t

/-- Whether `c` followed by `t` starts a number literal. -/
def starts (c : Char) (t : List Char) : Bool :=
  isDigit c || c == '.' && (t.head?.any isDigit)

theorem signSize_le (t : List Char) : signSize t ≤ t.length := by
  cases t with
  | nil => simp [signSize]
  | cons c t =>
    simp only [signSize, List.length_cons]
    split <;> omega

theorem exponentSize_le (t : List Char) : exponentSize t ≤ t.length := by
  cases t with
  | nil => simp [exponentSize]
  | cons c t =>
    have hsign := signSize_le t
    have hdigits := run_le isDigit (t.drop (signSize t))
    rw [List.length_drop] at hdigits
    simp only [exponentSize, List.length_cons]
    split
    · split <;> omega
    · omega

theorem fractionSize_le (t : List Char) : fractionSize t ≤ t.length := by
  unfold fractionSize
  split
  · rename_i t
    have := run_le isDigit t
    simp only [List.length_cons]
    omega
  · omega

theorem hexSize_le (t : List Char) : hexSize t ≤ t.length := by
  cases t with
  | nil => simp [hexSize]
  | cons c t =>
    have := run_le isHexDigit t
    simp only [hexSize, List.length_cons]
    split
    · split <;> omega
    · omega

/-- Two measures one behind the other stay within the text if each of them does. -/
theorem add_size_le {f g : List Char → Nat} (hf : ∀ t, f t ≤ t.length) (hg : ∀ t, g t ≤ t.length) (t : List Char) :
    f t + g (t.drop (f t)) ≤ t.length := by
  have h := hg (t.drop (f t))
  have := hf t
  rw [List.length_drop] at h
  omega

/-- A number literal ends within its text. -/
theorem tailSize_le (c : Char) (t : List Char) : tailSize c t ≤ t.length := by
  unfold tailSize
  split
  · simp only [afterPoint]
    split
    · omega
    · exact add_size_le (run_le isDigit) exponentSize_le t
  · split
    · simp only [afterZero]
      split
      · exact run_le isOctalDigit t
      · exact hexSize_le t
    · exact add_size_le (add_size_le (run_le isDigit) fractionSize_le) exponentSize_le t

end BraceMode.Lexis.Number
