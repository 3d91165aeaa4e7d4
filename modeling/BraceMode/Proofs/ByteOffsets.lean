import BraceMode.Lexis.Number
import BraceMode.Text.Utf8

/-! Byte offsets into a text. An offset is good when it falls between two characters; `dropBytes?` cuts a
text there and fails at any other offset. Number literals are measured in characters and those measures
are used as byte lengths, with look-ahead at single bytes. `tailBytes?` is that reading, every cut of it
checked; it never fails and agrees with `tailSize`, because a measured character is one byte long. -/

namespace BraceMode

namespace Text

/-! ## Cuts -/

@[simp] theorem dropBytes?_zero (t : List Char) : dropBytes? 0 t = some t := by
  cases t <;> rfl

theorem dropBytes?_cons (c : Char) (t : List Char) (n : Nat) :
    dropBytes? (c.utf8Size + n) (c :: t) = dropBytes? n t := by
  obtain ⟨k, hk⟩ := Nat.exists_eq_succ_of_ne_zero (show c.utf8Size + n ≠ 0 by have := c.utf8Size_pos; omega)
  rw [hk, dropBytes?, if_pos (by omega)]
  congr 1
  omega

/-- The byte size of a beginning is a good offset. -/
theorem dropBytes?_byteSize (s t : List Char) : dropBytes? (byteSize s) (s ++ t) = some t := by
  induction s with
  | nil => exact dropBytes?_zero t
  | cons c s ih => rw [byteSize_cons, List.cons_append, dropBytes?_cons, ih]

/-- The good offsets are the byte sizes of beginnings. -/
theorem dropBytes?_eq_some_iff (n : Nat) (t u : List Char) :
    dropBytes? n t = some u ↔ ∃ s, t = s ++ u ∧ byteSize s = n := by
  constructor
  · intro h
    fun_induction dropBytes? n t with
    | case1 t => exact ⟨[], Option.some.inj h, rfl⟩
    | case2 => cases h
    | case3 n c t hc ih =>
      obtain ⟨s, rfl, hs⟩ := ih h
      exact ⟨c :: s, rfl, by rw [byteSize_cons]; omega⟩
    | case4 => cases h
  · rintro ⟨s, rfl, rfl⟩
    exact dropBytes?_byteSize s u

/-- Cutting twice is cutting once behind both. -/
theorem dropBytes?_add {a : Nat} {t u : List Char} (h : dropBytes? a t = some u) (b : Nat) :
    dropBytes? (a + b) t = dropBytes? b u := by
  obtain ⟨s, rfl, rfl⟩ := (dropBytes?_eq_some_iff a t u).mp h
  induction s with
  | nil => simp
  | cons c s ih =>
    rw [byteSize_cons, List.cons_append, Nat.add_assoc, dropBytes?_cons]
    exact ih (dropBytes?_byteSize s u)

theorem utf8Size_eq_one_of_le {c : Char} (h : c.toNat ≤ 127) : c.utf8Size = 1 := by
  rw [Char.utf8Size_eq_one_iff, UInt32.le_iff_toNat_le]
  exact h

/-- A run of one-byte characters may be measured in either way. -/
theorem dropBytes?_run {p : Char → Bool} (hp : ∀ c, p c = true → c.utf8Size = 1) (t : List Char) :
    dropBytes? (Lexis.run p t) t = some (t.drop (Lexis.run p t)) := by
  induction t with
  | nil => rfl
  | cons c t ih =>
    by_cases hc : p c = true
    · have hrun : Lexis.run p (c :: t) = c.utf8Size + Lexis.run p t := by
        rw [hp c hc]
        simp [Lexis.run, hc, Nat.add_comm]
      rw [hrun, dropBytes?_cons, ih, hp c hc, Nat.add_comm, List.drop_succ_cons]
    · simp [Lexis.run, hc]

/-! ## Bytes of one-byte characters -/

theorem encode_cons (c : Char) (t : List Char) : encode (c :: t) = String.utf8EncodeChar c ++ encode t :=
  rfl

/-- No byte of a longer character is taken for a one-byte character. -/
theorem head?_utf8EncodeChar_iff (c : Char) {a : Char} (ha : a.toNat ≤ 127) :
    (String.utf8EncodeChar c).head? = some (UInt8.ofNat a.toNat) ↔ c = a := by
  have hbyte (n : Nat) (hn : n < 256) : some (UInt8.ofNat n) = some (UInt8.ofNat a.toNat) ↔ n = a.toNat := by
    rw [Option.some.injEq, ← UInt8.toNat_inj, UInt8.toNat_ofNat_of_lt' hn,
      UInt8.toNat_ofNat_of_lt' (show a.toNat < 2 ^ 8 by omega)]
  have hchar : c.val.toNat = a.toNat ↔ c = a := by
    rw [← Char.toNat_inj]; rfl
  unfold String.utf8EncodeChar
  simp only
  split
  · rw [List.head?_cons, hbyte _ (by omega), hchar]
  · have hne : c ≠ a := by
      rintro rfl
      exact absurd ha ‹_›
    simp only [hne, iff_false]
    split
    · rw [List.head?_cons, hbyte _ (by omega)]; omega
    · split
      · rw [List.head?_cons, hbyte _ (by omega)]; omega
      · rw [List.head?_cons, hbyte _ (by omega)]; omega

theorem head?_encode_iff (t : List Char) {a : Char} (ha : a.toNat ≤ 127) :
    (encode t).head? = some (UInt8.ofNat a.toNat) ↔ t.head? = some a := by
  cases t with
  | nil => simp [encode]
  | cons c t =>
    have hhead := head?_utf8EncodeChar_iff c ha
    obtain ⟨b, bs, hb⟩ := List.exists_cons_of_ne_nil (String.utf8EncodeChar_ne_nil (c := c))
    rw [hb, List.head?_cons] at hhead
    rw [encode_cons, hb, List.cons_append, List.head?_cons, hhead, List.head?_cons, Option.some.injEq]

/-- The byte behind a one-byte character is the first byte of what follows it. -/
theorem getElem?_one_encode_cons {c : Char} (hc : c.toNat ≤ 127) (t : List Char) :
    (encode (c :: t))[1]? = (encode t).head? := by
  rw [encode_cons, String.utf8EncodeChar_eq_singleton (utf8Size_eq_one_of_le hc), List.singleton_append,
    List.getElem?_cons_succ, List.head?_eq_getElem?]

end Text

namespace Lexis

/-! ## Number literals -/

theorem utf8Size_of_le {c bound : Char} (h : c ≤ bound) (hb : bound.toNat ≤ 127) : c.utf8Size = 1 :=
  Text.utf8Size_eq_one_of_le (Nat.le_trans h hb)

theorem utf8Size_of_isDigit {c : Char} (h : isDigit c = true) : c.utf8Size = 1 := by
  simp only [isDigit, Bool.and_eq_true, decide_eq_true_eq] at h
  exact utf8Size_of_le h.2 (by decide)

theorem utf8Size_of_isOctalDigit {c : Char} (h : isOctalDigit c = true) : c.utf8Size = 1 := by
  simp only [isOctalDigit, Bool.and_eq_true, decide_eq_true_eq] at h
  exact utf8Size_of_le h.2 (by decide)

theorem utf8Size_of_isHexDigit {c : Char} (h : isHexDigit c = true) : c.utf8Size = 1 := by
  simp only [isHexDigit, Bool.or_eq_true, Bool.and_eq_true, decide_eq_true_eq] at h
  rcases h with (h | h) | h
  · exact utf8Size_of_isDigit h
  · exact utf8Size_of_le h.2 (by decide)
  · exact utf8Size_of_le h.2 (by decide)

namespace Number

def exponentBytes? (t : List Char) : Option Nat :=
  let bytes := Text.encode t
  if bytes.head? = some 0x65 ∨ bytes.head? = some 0x45 then do
    let sign := if bytes[1]? = some 0x2B ∨ bytes[1]? = some 0x2D then 1 else 0
    let digits := run isDigit (← Text.dropBytes? (1 + sign) t)
    return if digits = 0 then 0 else 1 + sign + digits
  else some 0

def afterPointBytes? (t : List Char) : Option Nat :=
  let digits := run isDigit t
  if digits = 0 then some 0
  else do return digits + (← exponentBytes? (← Text.dropBytes? digits t))

/-- Digits, a point and the digits behind it, cut at byte offsets. -/
def wholeBytes? (t : List Char) : Option Nat := do
  let whole := run isDigit t
  if (← Text.dropBytes? whole t).head? = some '.' then
    return whole + 1 + run isDigit (← Text.dropBytes? (whole + 1) t)
  else return whole

def afterDigitBytes? (t : List Char) : Option Nat := do
  let size ← wholeBytes? t
  return size + (← exponentBytes? (← Text.dropBytes? size t))

/-- The length of what follows the first character `c` of a number literal. No cut is needed behind a
zero. -/
def tailBytes? (c : Char) (t : List Char) : Option Nat :=
  if c = '.' then afterPointBytes? t else if c = '0' then some (afterZero t) else afterDigitBytes? t

theorem dropBytes?_digits (t : List Char) :
    Text.dropBytes? (run isDigit t) t = some (t.drop (run isDigit t)) :=
  Text.dropBytes?_run (fun _ => utf8Size_of_isDigit) t

theorem dropBytes?_sign (t : List Char) :
    Text.dropBytes? (signSize t) t = some (t.drop (signSize t)) := by
  cases t with
  | nil => rfl
  | cons c t =>
    simp only [signSize]
    split
    · rename_i h
      have hc : c.utf8Size = 1 := by rcases h with rfl | rfl <;> rfl
      simpa [hc] using Text.dropBytes?_byteSize [c] t
    · rfl

/-- The bytes that announce an exponent and its sign belong to characters of their own. -/
theorem sign_of_bytes {c : Char} (hc : c.toNat ≤ 127) (t : List Char) :
    (if (Text.encode (c :: t))[1]? = some 0x2B ∨ (Text.encode (c :: t))[1]? = some 0x2D then 1 else 0) =
      signSize t := by
  have hplus : (Text.encode t).head? = some 0x2B ↔ t.head? = some '+' :=
    Text.head?_encode_iff t (a := '+') (by decide)
  have hminus : (Text.encode t).head? = some 0x2D ↔ t.head? = some '-' :=
    Text.head?_encode_iff t (a := '-') (by decide)
  simp only [Text.getElem?_one_encode_cons hc, hplus, hminus]
  cases t with
  | nil => rfl
  | cons d t => simp [signSize]

theorem exponentBytes?_eq (t : List Char) : exponentBytes? t = some (exponentSize t) := by
  have hlower : (Text.encode t).head? = some 0x65 ↔ t.head? = some 'e' :=
    Text.head?_encode_iff t (a := 'e') (by decide)
  have hupper : (Text.encode t).head? = some 0x45 ↔ t.head? = some 'E' :=
    Text.head?_encode_iff t (a := 'E') (by decide)
  simp only [exponentBytes?, hlower, hupper]
  cases t with
  | nil => rfl
  | cons c t =>
    simp only [List.head?_cons, Option.some.injEq, exponentSize]
    by_cases h : c = 'e' ∨ c = 'E'
    · have hsmall : c.toNat ≤ 127 := by rcases h with rfl | rfl <;> decide
      have hsize : c.utf8Size = 1 := Text.utf8Size_eq_one_of_le hsmall
      have hcut : Text.dropBytes? (1 + signSize t) (c :: t) = some (t.drop (signSize t)) := by
        rw [← hsize, Text.dropBytes?_cons, dropBytes?_sign]
      rw [if_pos h, if_pos h, sign_of_bytes hsmall, hcut]
      rfl
    · rw [if_neg h, if_neg h]

/-- An exponent may be measured in either way. -/
theorem dropBytes?_exponent (t : List Char) :
    Text.dropBytes? (exponentSize t) t = some (t.drop (exponentSize t)) := by
  cases t with
  | nil => rfl
  | cons c t =>
    simp only [exponentSize]
    split
    · rename_i h
      have hc : c.utf8Size = 1 := by rcases h with rfl | rfl <;> rfl
      split
      · rfl
      · rw [Nat.add_assoc, ← hc, Text.dropBytes?_cons, Text.dropBytes?_add (dropBytes?_sign t),
          dropBytes?_digits, List.drop_drop, hc, Nat.add_comm 1, List.drop_succ_cons]
    · rfl

theorem afterPointBytes?_eq (t : List Char) : afterPointBytes? t = some (afterPoint t) := by
  simp only [afterPointBytes?, afterPoint, dropBytes?_digits]
  split
  · rfl
  · simp [exponentBytes?_eq]

theorem dropBytes?_afterPoint (t : List Char) :
    Text.dropBytes? (afterPoint t) t = some (t.drop (afterPoint t)) := by
  simp only [afterPoint]
  split
  · exact Text.dropBytes?_zero t
  · rw [Text.dropBytes?_add (dropBytes?_digits t), dropBytes?_exponent, List.drop_drop]

theorem dropBytes?_fraction (t : List Char) :
    Text.dropBytes? (fractionSize t) t = some (t.drop (fractionSize t)) := by
  unfold fractionSize
  split
  · rename_i t
    have hpoint : Text.dropBytes? 1 ('.' :: t) = some t := Text.dropBytes?_byteSize ['.'] t
    rw [Text.dropBytes?_add hpoint, dropBytes?_digits, Nat.add_comm, List.drop_succ_cons]
  · exact Text.dropBytes?_zero t

/-- The digits, and the point and the digits behind them. -/
theorem dropBytes?_whole_fraction (t : List Char) :
    let whole := run isDigit t
    let withFraction := whole + fractionSize (t.drop whole)
    Text.dropBytes? withFraction t = some (t.drop withFraction) := by
  intro whole withFraction
  rw [Text.dropBytes?_add (dropBytes?_digits t), dropBytes?_fraction, List.drop_drop]

theorem wholeBytes?_eq (t : List Char) :
    wholeBytes? t = some (run isDigit t + fractionSize (t.drop (run isDigit t))) := by
  simp only [wholeBytes?, Text.dropBytes?_add (dropBytes?_digits t), dropBytes?_digits]
  cases t.drop (run isDigit t) with
  | nil => rfl
  | cons c u =>
    by_cases hc : c = '.'
    · have hpoint : Text.dropBytes? 1 ('.' :: u) = some u := Text.dropBytes?_byteSize ['.'] u
      simp [hc, hpoint, fractionSize, Nat.add_assoc]
    · simp [hc, fractionSize]

theorem afterDigitBytes?_eq (t : List Char) : afterDigitBytes? t = some (afterDigit t) := by
  have hcut := dropBytes?_whole_fraction t
  simp only [afterDigitBytes?, wholeBytes?_eq, Option.bind_eq_bind, Option.bind_some, hcut,
    exponentBytes?_eq]
  rfl

theorem dropBytes?_afterDigit (t : List Char) :
    Text.dropBytes? (afterDigit t) t = some (t.drop (afterDigit t)) := by
  simp only [afterDigit]
  rw [Text.dropBytes?_add (dropBytes?_whole_fraction t), dropBytes?_exponent, List.drop_drop]

theorem dropBytes?_afterZero (t : List Char) :
    Text.dropBytes? (afterZero t) t = some (t.drop (afterZero t)) := by
  simp only [afterZero]
  split
  · exact Text.dropBytes?_run (fun _ => utf8Size_of_isOctalDigit) t
  · cases t with
    | nil => rfl
    | cons c t =>
      simp only [hexSize]
      split
      · rename_i h
        have hc : c.utf8Size = 1 := by rcases h with rfl | rfl <;> rfl
        split
        · rfl
        · rw [← hc, Text.dropBytes?_cons, Text.dropBytes?_run fun _ => utf8Size_of_isHexDigit, hc,
            Nat.add_comm, List.drop_succ_cons]
      · rfl

/-- Every cut behind the first character of a number literal falls between two characters. -/
theorem tailBytes?_eq (c : Char) (t : List Char) : tailBytes? c t = some (tailSize c t) := by
  unfold tailBytes? tailSize
  rw [afterPointBytes?_eq, afterDigitBytes?_eq]
  split
  · rfl
  · split <;> rfl

theorem dropBytes?_tailSize (c : Char) (t : List Char) :
    Text.dropBytes? (tailSize c t) t = some (t.drop (tailSize c t)) := by
  unfold tailSize
  split
  · exact dropBytes?_afterPoint t
  · split
    · exact dropBytes?_afterZero t
    · exact dropBytes?_afterDigit t

end Number

end Lexis

end BraceMode
