import Mathlib.Computability.RegularExpressions
import Mathlib.Data.List.TakeWhile
import BraceMode.Proofs.Pieces

/-! Number literals are the longest matches of their grammar. The grammar is a regular expression, written
down without regard to how a literal is measured. A measure of parts, each as long as it can be, is a
longest match of the whole only where no part could have given characters back to the one behind it: a
part must end in front of anything that the next part may start with. `Stops` says so of the digits and of
the fraction, and `Longest.mul` puts the parts together. -/

namespace BraceMode

namespace Lexis

theorem takeWhile_of_run_ne_zero {p : Char → Bool} {t : List Char} (h : run p t ≠ 0) :
    t.takeWhile p ≠ [] ∧ ∀ c ∈ t.takeWhile p, p c = true := by
  refine ⟨?_, fun c hc => List.mem_takeWhile_imp hc⟩
  intro hnil
  exact h (congrArg List.length hnil)

namespace Number

/-! ## The grammar -/

def oneOf (cs : List Char) : RegularExpression Char := (cs.map RegularExpression.char).sum

def optional (p : RegularExpression Char) : RegularExpression Char := 1 + p

def oneOrMore (p : RegularExpression Char) : RegularExpression Char := p * p.star

def digit : RegularExpression Char := oneOf "0123456789".toList

def nonzeroDigit : RegularExpression Char := oneOf "123456789".toList

def octalDigit : RegularExpression Char := oneOf "01234567".toList

def hexDigit : RegularExpression Char := oneOf "0123456789abcdefABCDEF".toList

/-- An exponent, `[eE][+-]?[0-9]+`. -/
def exponent : RegularExpression Char :=
  oneOf ['e', 'E'] * (optional (oneOf ['+', '-']) * oneOrMore digit)

/-- A fraction, `\.[0-9]*`. -/
def fraction : RegularExpression Char := .char '.' * digit.star

/-- The hexadecimal part behind a zero, `[xX][0-9a-fA-F]+`. -/
def hexTail : RegularExpression Char := oneOf ['x', 'X'] * oneOrMore hexDigit

/-- The number literals: a leading point, a zero alone, hexadecimal, octal and decimal. -/
def grammar : RegularExpression Char :=
  .char '.' * (oneOrMore digit * optional exponent) +
    .char '0' + .char '0' * hexTail + .char '0' * oneOrMore octalDigit +
    nonzeroDigit * (digit.star * optional fraction * optional exponent)

/-! ## Characters -/

theorem mem_oneOf {cs w : List Char} : w ∈ (oneOf cs).matches' ↔ ∃ c ∈ cs, w = [c] := by
  induction cs with
  | nil => simp [oneOf, RegularExpression.matches'_zero]
  | cons c cs ih =>
    have hcons : (oneOf (c :: cs)).matches' = {[c]} + (oneOf cs).matches' := rfl
    rw [hcons, Language.mem_add, ih, List.exists_mem_cons_iff]
    rfl

theorem mem_oneOf_mul {cs w : List Char} {p : RegularExpression Char} :
    w ∈ (oneOf cs * p).matches' ↔ ∃ c t, w = c :: t ∧ c ∈ cs ∧ t ∈ p.matches' := by
  rw [RegularExpression.matches'_mul, Language.mem_mul]
  constructor
  · rintro ⟨a, ha, t, ht, rfl⟩
    obtain ⟨c, hc, rfl⟩ := mem_oneOf.mp ha
    exact ⟨c, t, rfl, hc, ht⟩
  · rintro ⟨c, t, rfl, hc, ht⟩
    exact ⟨[c], mem_oneOf.mpr ⟨c, hc, rfl⟩, t, ht, rfl⟩

theorem mem_optional {p : RegularExpression Char} {w : List Char} :
    w ∈ (optional p).matches' ↔ w = [] ∨ w ∈ p.matches' := Iff.rfl

theorem mem_star_oneOf {cs w : List Char} : w ∈ (oneOf cs).star.matches' ↔ ∀ c ∈ w, c ∈ cs := by
  rw [RegularExpression.matches'_star, Language.mem_kstar]
  constructor
  · rintro ⟨ws, rfl, hws⟩ c hc
    obtain ⟨a, ha, hca⟩ := List.mem_flatten.mp hc
    obtain ⟨d, hd, rfl⟩ := mem_oneOf.mp (hws a ha)
    rw [List.mem_singleton.mp hca]
    exact hd
  · intro h
    refine ⟨w.map fun c => [c], by rw [← List.flatMap_def, List.flatMap_singleton'], ?_⟩
    intro a ha
    obtain ⟨c, hc, rfl⟩ := List.mem_map.mp ha
    exact mem_oneOf.mpr ⟨c, h c hc, rfl⟩

theorem mem_oneOrMore_oneOf {cs w : List Char} :
    w ∈ (oneOrMore (oneOf cs)).matches' ↔ w ≠ [] ∧ ∀ c ∈ w, c ∈ cs := by
  simp only [oneOrMore, mem_oneOf_mul, mem_star_oneOf]
  constructor
  · rintro ⟨c, t, rfl, hc, ht⟩
    exact ⟨List.cons_ne_nil c t, List.forall_mem_cons.mpr ⟨hc, ht⟩⟩
  · rintro ⟨hne, h⟩
    obtain ⟨c, t, rfl⟩ := List.exists_cons_of_ne_nil hne
    obtain ⟨hc, ht⟩ := List.forall_mem_cons.mp h
    exact ⟨c, t, rfl, hc, ht⟩

/-- Equality and order of characters are those of their code points. -/
theorem eq_iff_toNat_eq (c d : Char) : c = d ↔ c.toNat = d.toNat := Char.toNat_inj.symm

theorem le_iff_toNat_le (c d : Char) : c ≤ d ↔ c.toNat ≤ d.toNat := Iff.rfl

theorem mem_digits (c : Char) : c ∈ "0123456789".toList ↔ isDigit c = true := by
  simp [isDigit, eq_iff_toNat_eq, le_iff_toNat_le]
  omega

theorem mem_octalDigits (c : Char) : c ∈ "01234567".toList ↔ isOctalDigit c = true := by
  simp [isOctalDigit, eq_iff_toNat_eq, le_iff_toNat_le]
  omega

theorem mem_hexDigits (c : Char) : c ∈ "0123456789abcdefABCDEF".toList ↔ isHexDigit c = true := by
  simp [isHexDigit, isDigit, eq_iff_toNat_eq, le_iff_toNat_le]
  omega

theorem mem_nonzeroDigits (c : Char) : c ∈ "123456789".toList ↔ isDigit c = true ∧ c ≠ '0' := by
  simp [isDigit, eq_iff_toNat_eq, le_iff_toNat_le]
  omega

/-! ## Longest beginnings -/

/-- Where a text begins with a match of `p`, its first `size` characters are one, and none is longer. -/
structure Longest (p : RegularExpression Char) (size : List Char → Nat) : Prop where
  mem : ∀ w rest, w ∈ p.matches' → (w ++ rest).take (size (w ++ rest)) ∈ p.matches'
  le : ∀ w rest, w ∈ p.matches' → w.length ≤ size (w ++ rest)

/-- A match of `p` in front of a character outside of `more` is measured as it is. -/
def Stops (p : RegularExpression Char) (size : List Char → Nat) (more : Char → Bool) : Prop :=
  ∀ w c rest, w ∈ p.matches' → more c = false → size (w ++ c :: rest) = w.length

section

variable {p q : RegularExpression Char} {f g : List Char → Nat} {more more' : Char → Bool}

theorem Longest.congr (h : Longest p f) (hfg : ∀ w rest, w ∈ p.matches' → g (w ++ rest) = f (w ++ rest)) :
    Longest p g := by
  constructor
  · intro w rest hw
    rw [hfg w rest hw]
    exact h.mem w rest hw
  · intro w rest hw
    rw [hfg w rest hw]
    exact h.le w rest hw

/-- A match of `p` is measured as it is in front of a match of `q` that cannot carry it on. -/
theorem Stops.eq_length (hp : Stops p f more) (hfirst : ∀ c t, c :: t ∈ q.matches' → more c = false)
    {u v : List Char} (hu : u ∈ p.matches') (hv : v ∈ q.matches') (hne : v ≠ []) (rest : List Char) :
    f (u ++ (v ++ rest)) = u.length := by
  obtain ⟨c, t, rfl⟩ := List.exists_cons_of_ne_nil hne
  exact hp u c (t ++ rest) hu (hfirst c t hv)

/-- Longest matches of `p` and `q` one behind the other are a longest match of both, if no match of `q` starts
with a character that a match of `p` might go on with. -/
theorem Longest.mul (hp : Longest p f) (hstop : Stops p f more) (hq : Longest q g)
    (hfirst : ∀ c t, c :: t ∈ q.matches' → more c = false) :
    Longest (p * q) fun t => f t + g (t.drop (f t)) := by
  constructor
  · rintro w rest ⟨u, hu, v, hv, rfl⟩
    simp only [List.append_assoc]
    by_cases hne : v = []
    · subst hne
      rw [List.nil_append, List.take_add]
      exact ⟨_, hp.mem u rest hu, _, hq.mem [] _ hv, rfl⟩
    · rw [hstop.eq_length hfirst hu hv hne, List.take_add, List.take_left, List.drop_left]
      exact ⟨u, hu, _, hq.mem v rest hv, rfl⟩
  · rintro w rest ⟨u, hu, v, hv, rfl⟩
    simp only [List.append_assoc, List.length_append]
    by_cases hne : v = []
    · have hle := hp.le u rest hu
      simp only [hne, List.nil_append, List.length_nil]
      omega
    · have hle := hq.le v rest hv
      rw [hstop.eq_length hfirst hu hv hne, List.drop_left]
      omega

theorem Stops.mul (hp : Stops p f more) (hq : Stops q g more')
    (hfirst : ∀ c t, c :: t ∈ q.matches' → more c = false) :
    Stops (p * q) (fun t => f t + g (t.drop (f t))) fun c => more c || more' c := by
  rintro w c rest ⟨u, hu, v, hv, rfl⟩ hc
  obtain ⟨hmore, hmore'⟩ := Bool.or_eq_false_iff.mp hc
  have hf : f (u ++ (v ++ c :: rest)) = u.length := by
    by_cases hne : v = []
    · rw [hne]
      exact hp u c rest hu hmore
    · exact hp.eq_length hfirst hu hv hne (c :: rest)
  have hg : g (v ++ c :: rest) = v.length := hq v c rest hv hmore'
  simp only [List.append_assoc]
  rw [hf, List.drop_left, hg, List.length_append]

end

/-! ## Runs of a class -/

section

variable {cs : List Char} {p : Char → Bool} (hp : ∀ c, c ∈ cs ↔ p c = true)
include hp

theorem mem_star_class {w : List Char} : w ∈ (oneOf cs).star.matches' ↔ ∀ c ∈ w, p c = true := by
  simp only [mem_star_oneOf, hp]

theorem mem_oneOrMore_class {w : List Char} :
    w ∈ (oneOrMore (oneOf cs)).matches' ↔ w ≠ [] ∧ ∀ c ∈ w, p c = true := by
  simp only [mem_oneOrMore_oneOf, hp]

theorem longest_star : Longest (oneOf cs).star (run p) := by
  constructor
  · intro w rest _
    rw [take_run, mem_star_class hp]
    exact fun c hc => List.mem_takeWhile_imp hc
  · intro w rest hw
    rw [run_append ((mem_star_class hp).mp hw)]
    omega

theorem longest_oneOrMore : Longest (oneOrMore (oneOf cs)) (run p) := by
  constructor
  · intro w rest hw
    obtain ⟨hne, hall⟩ := (mem_oneOrMore_class hp).mp hw
    rw [take_run, mem_oneOrMore_class hp]
    refine ⟨?_, fun c hc => List.mem_takeWhile_imp hc⟩
    rw [List.takeWhile_append_of_pos hall]
    exact List.append_ne_nil_of_left_ne_nil hne _
  · intro w rest hw
    rw [run_append ((mem_oneOrMore_class hp).mp hw).2]
    omega

end

/-- A run of a class ends in front of a character outside of it. -/
theorem run_append_cons {p : Char → Bool} {w : List Char} (hw : ∀ c ∈ w, p c = true) {c : Char}
    (hc : p c = false) (rest : List Char) : run p (w ++ c :: rest) = w.length := by
  rw [run_append hw, run_cons_of_neg hc, Nat.add_zero]

theorem mem_star_digit {w : List Char} : w ∈ digit.star.matches' ↔ ∀ c ∈ w, isDigit c = true :=
  mem_star_class mem_digits

/-! ## Exponents -/

theorem mem_sign {w : List Char} :
    w ∈ (optional (oneOf ['+', '-'])).matches' ↔ w = [] ∨ w = ['+'] ∨ w = ['-'] := by
  simp [mem_optional, mem_oneOf]

theorem mem_exponent {w : List Char} :
    w ∈ exponent.matches' ↔ ∃ e sign ds, w = e :: (sign ++ ds) ∧ (e = 'e' ∨ e = 'E') ∧
      sign ∈ (optional (oneOf ['+', '-'])).matches' ∧ ds ≠ [] ∧ ∀ c ∈ ds, isDigit c = true := by
  simp only [exponent, mem_oneOf_mul, List.mem_cons, List.not_mem_nil, or_false]
  constructor
  · rintro ⟨e, t, rfl, he, sign, hsign, ds, hds, rfl⟩
    exact ⟨e, sign, ds, rfl, he, hsign, (mem_oneOrMore_class mem_digits).mp hds⟩
  · rintro ⟨e, sign, ds, rfl, he, hsign, hds⟩
    exact ⟨e, _, rfl, he, sign, hsign, ds, (mem_oneOrMore_class mem_digits).mpr hds, rfl⟩

theorem take_signSize (t : List Char) :
    t.take (signSize t) ∈ (optional (oneOf ['+', '-'])).matches' := by
  rw [mem_sign]
  cases t with
  | nil => exact .inl rfl
  | cons c t =>
    simp only [signSize]
    split
    · rename_i hc
      rcases hc with rfl | rfl
      · exact .inr (.inl rfl)
      · exact .inr (.inr rfl)
    · exact .inl rfl

theorem signSize_append {sign ds : List Char} (hsign : sign ∈ (optional (oneOf ['+', '-'])).matches')
    (hne : ds ≠ []) (hds : ∀ c ∈ ds, isDigit c = true) (rest : List Char) :
    signSize (sign ++ (ds ++ rest)) = sign.length := by
  rcases mem_sign.mp hsign with rfl | rfl | rfl
  · obtain ⟨d, ds, rfl⟩ := List.exists_cons_of_ne_nil hne
    have hd : isDigit d = true := hds d List.mem_cons_self
    have hsign : ¬(d = '+' ∨ d = '-') := by
      rintro (rfl | rfl) <;> cases hd
    exact if_neg hsign
  · rfl
  · rfl

theorem longest_exponent : Longest (optional exponent) exponentSize := by
  constructor
  · intro w rest _
    generalize w ++ rest = t
    cases t with
    | nil => exact .inl rfl
    | cons e t =>
      simp only [exponentSize]
      split
      · rename_i he
        split
        · exact .inl rfl
        · rename_i hdigits
          have hsplit : (e :: t).take (1 + signSize t + run isDigit (t.drop (signSize t))) =
              e :: (t.take (signSize t) ++ (t.drop (signSize t)).takeWhile isDigit) := by
            rw [Nat.add_assoc, Nat.add_comm, List.take_succ_cons, List.take_add, take_run]
          rw [hsplit]
          exact .inr (mem_exponent.mpr
            ⟨e, _, _, rfl, he, take_signSize t, takeWhile_of_run_ne_zero hdigits⟩)
      · exact .inl rfl
  · intro w rest hw
    rcases hw with rfl | hw
    · exact Nat.zero_le _
    · obtain ⟨e, sign, ds, rfl, he, hsign, hne, hds⟩ := mem_exponent.mp hw
      have hpos := List.length_pos_iff.mpr hne
      rw [List.cons_append, List.append_assoc, exponentSize, if_pos he,
        signSize_append hsign hne hds, List.drop_left, run_append hds, if_neg (by omega)]
      simp only [List.length_cons, List.length_append]
      omega

/-! ## Fractions -/

theorem mem_fraction {w : List Char} :
    w ∈ fraction.matches' ↔ ∃ ds, w = '.' :: ds ∧ ∀ c ∈ ds, isDigit c = true := by
  constructor
  · rintro ⟨a, rfl, ds, hds, rfl⟩
    exact ⟨ds, rfl, mem_star_digit.mp hds⟩
  · rintro ⟨ds, rfl, hds⟩
    exact ⟨['.'], rfl, ds, mem_star_digit.mpr hds, rfl⟩

theorem longest_fraction : Longest (optional fraction) fractionSize := by
  constructor
  · intro w rest _
    generalize w ++ rest = t
    unfold fractionSize
    split
    · rename_i t
      refine .inr (mem_fraction.mpr ⟨t.takeWhile isDigit, ?_, fun c hc => List.mem_takeWhile_imp hc⟩)
      rw [Nat.add_comm, List.take_succ_cons, take_run]
    · exact .inl rfl
  · intro w rest hw
    rcases hw with rfl | hw
    · exact Nat.zero_le _
    · obtain ⟨ds, rfl, hds⟩ := mem_fraction.mp hw
      rw [List.cons_append, fractionSize, run_append hds, List.length_cons]
      omega

theorem stops_fraction : Stops (optional fraction) fractionSize fun c => isDigit c || c == '.' := by
  intro w c rest hw hc
  obtain ⟨hdigit, hpoint⟩ := Bool.or_eq_false_iff.mp hc
  rcases hw with rfl | hw
  · have hne : c ≠ '.' := by simpa using hpoint
    simp [fractionSize, hne]
  · obtain ⟨ds, rfl, hds⟩ := mem_fraction.mp hw
    rw [List.cons_append, fractionSize, run_append_cons hds hdigit, List.length_cons, Nat.add_comm]

/-! ## What follows the first character -/

def pointTail : RegularExpression Char := oneOrMore digit * optional exponent

def zeroTail : RegularExpression Char := 1 + hexTail + oneOrMore octalDigit

def digitTail : RegularExpression Char := digit.star * optional fraction * optional exponent

theorem exponent_first {c : Char} {t : List Char} (h : c :: t ∈ (optional exponent).matches') :
    c = 'e' ∨ c = 'E' := by
  rcases h with h | h
  · cases h
  · obtain ⟨e, sign, ds, heq, he, -⟩ := mem_exponent.mp h
    cases heq
    exact he

theorem longest_pointTail : Longest pointTail afterPoint := by
  have hstops : Stops (oneOrMore digit) (run isDigit) isDigit := by
    intro w c rest hw hc
    exact run_append_cons ((mem_oneOrMore_class mem_digits).mp hw).2 hc rest
  have hmul : Longest pointTail fun t => run isDigit t + exponentSize (t.drop (run isDigit t)) := by
    refine (longest_oneOrMore mem_digits).mul hstops longest_exponent ?_
    intro c t h
    rcases exponent_first h with rfl | rfl <;> rfl
  refine hmul.congr ?_
  rintro w rest ⟨ds, hds, e, -, rfl⟩
  obtain ⟨hne, hall⟩ := (mem_oneOrMore_class mem_digits).mp hds
  have hpos := List.length_pos_iff.mpr hne
  have hrun : run isDigit (ds ++ e ++ rest) ≠ 0 := by
    rw [List.append_assoc, run_append hall]
    omega
  exact if_neg hrun

theorem longest_digitTail : Longest digitTail afterDigit := by
  have hstops : Stops digit.star (run isDigit) isDigit := by
    intro w c rest hw hc
    exact run_append_cons (mem_star_digit.mp hw) hc rest
  have hpoint (c : Char) (t : List Char) (h : c :: t ∈ (optional fraction).matches') : isDigit c = false := by
    rcases h with h | h
    · cases h
    · obtain ⟨ds, heq, -⟩ := mem_fraction.mp h
      cases heq
      rfl
  have hexponent (c : Char) (t : List Char) (h : c :: t ∈ (optional exponent).matches') :
      (isDigit c || (isDigit c || c == '.')) = false := by
    rcases exponent_first h with rfl | rfl <;> rfl
  exact ((longest_star mem_digits).mul hstops longest_fraction hpoint).mul
    (hstops.mul stops_fraction hpoint) longest_exponent hexponent

theorem mem_hexTail {w : List Char} :
    w ∈ hexTail.matches' ↔
      ∃ x ds, w = x :: ds ∧ (x = 'x' ∨ x = 'X') ∧ ds ≠ [] ∧ ∀ c ∈ ds, isHexDigit c = true := by
  simp only [hexTail, mem_oneOf_mul, List.mem_cons, List.not_mem_nil, or_false, hexDigit,
    mem_oneOrMore_class mem_hexDigits]

theorem mem_zeroTail {w : List Char} :
    w ∈ zeroTail.matches' ↔ (w = [] ∨ w ∈ hexTail.matches') ∨ w ≠ [] ∧ ∀ c ∈ w, isOctalDigit c = true := by
  rw [← mem_oneOrMore_class mem_octalDigits]
  rfl

theorem longest_zeroTail : Longest zeroTail afterZero := by
  constructor
  · intro w rest _
    generalize w ++ rest = t
    rw [mem_zeroTail, afterZero]
    split
    · by_cases hdigits : run isOctalDigit t = 0
      · rw [hdigits]
        exact .inl (.inl rfl)
      · rw [take_run]
        exact .inr (takeWhile_of_run_ne_zero hdigits)
    · rename_i hhex
      refine .inl (.inr ?_)
      cases t with
      | nil => exact absurd rfl hhex
      | cons x t =>
        simp only [hexSize] at hhex ⊢
        split at hhex
        · rename_i hx
          split at hhex
          · exact absurd rfl hhex
          · rename_i hdigits
            rw [if_pos hx, if_neg hdigits, Nat.add_comm, List.take_succ_cons, take_run]
            exact mem_hexTail.mpr ⟨x, _, rfl, hx, takeWhile_of_run_ne_zero hdigits⟩
        · exact absurd rfl hhex
  · intro w rest hw
    rcases mem_zeroTail.mp hw with (rfl | hhex) | ⟨hne, hall⟩
    · exact Nat.zero_le _
    · obtain ⟨x, ds, rfl, hx, hne, hall⟩ := mem_hexTail.mp hhex
      have hpos := List.length_pos_iff.mpr hne
      have hsize : hexSize (x :: (ds ++ rest)) = 1 + (ds.length + run isHexDigit rest) := by
        rw [hexSize, if_pos hx, run_append hall, if_neg (by omega)]
      rw [List.cons_append, afterZero, hsize, if_neg (by omega), List.length_cons]
      omega
    · obtain ⟨d, ds, rfl⟩ := List.exists_cons_of_ne_nil hne
      have hd : isOctalDigit d = true := hall d List.mem_cons_self
      have hx : ¬(d = 'x' ∨ d = 'X') := by
        rintro (rfl | rfl) <;> cases hd
      have hsize : hexSize (d :: ds ++ rest) = 0 := if_neg hx
      rw [afterZero, hsize, if_pos rfl, run_append hall]
      omega

/-! ## The longest literal -/

def tail (c : Char) : RegularExpression Char :=
  if c = '.' then pointTail else if c = '0' then zeroTail else digitTail

theorem longest_tail (c : Char) : Longest (tail c) (tailSize c) := by
  have hsize : tailSize c =
      if c = '.' then afterPoint else if c = '0' then afterZero else afterDigit := by
    funext t
    unfold tailSize
    split
    · rfl
    · split <;> rfl
  rw [hsize, tail]
  split
  · exact longest_pointTail
  · split
    · exact longest_zeroTail
    · exact longest_digitTail

theorem mem_char_mul {a : Char} {p : RegularExpression Char} {c : Char} {t : List Char} :
    c :: t ∈ (.char a * p : RegularExpression Char).matches' ↔ c = a ∧ t ∈ p.matches' := by
  constructor
  · rintro ⟨u, rfl, v, hv, heq⟩
    obtain ⟨rfl, rfl⟩ := List.cons_eq_cons.mp heq
    exact ⟨rfl, hv⟩
  · rintro ⟨rfl, ht⟩
    exact ⟨[c], rfl, t, ht, rfl⟩

/-- A literal is a point or a digit and what may follow it. -/
theorem mem_grammar_iff {w : List Char} :
    w ∈ grammar.matches' ↔
      ∃ c t, w = c :: t ∧ (c = '.' ∨ isDigit c = true) ∧ t ∈ (tail c).matches' := by
  cases w with
  | nil =>
    have hnil : [] ∉ grammar.matches' := by
      rw [← RegularExpression.rmatch_iff_matches']
      decide
    simp [hnil]
  | cons c t =>
    have hcases : c :: t ∈ grammar.matches' ↔
        c = '.' ∧ t ∈ pointTail.matches' ∨ c = '0' ∧ t ∈ zeroTail.matches' ∨
          (isDigit c = true ∧ c ≠ '0') ∧ t ∈ digitTail.matches' := by
      have hzero : c :: t ∈ (.char '0' : RegularExpression Char).matches' ↔ c = '0' ∧ t = [] :=
        List.cons_eq_cons
      have htail : t ∈ zeroTail.matches' ↔
          (t = [] ∨ t ∈ hexTail.matches') ∨ t ∈ (oneOrMore octalDigit).matches' := Iff.rfl
      simp only [grammar, RegularExpression.matches'_add, Language.mem_add, mem_char_mul, hzero, htail,
        pointTail, digitTail, nonzeroDigit, mem_oneOf_mul, List.cons.injEq, mem_nonzeroDigits, and_assoc,
        exists_and_left, exists_eq_left', and_or_left, or_assoc]
    rw [hcases]
    constructor
    · rintro (⟨rfl, ht⟩ | ⟨rfl, ht⟩ | ⟨⟨hdigit, hzero⟩, ht⟩)
      · exact ⟨_, _, rfl, .inl rfl, ht⟩
      · exact ⟨_, _, rfl, .inr rfl, ht⟩
      · have hpoint : c ≠ '.' := by
          rintro rfl
          cases hdigit
        exact ⟨c, t, rfl, .inr hdigit, by rwa [tail, if_neg hpoint, if_neg hzero]⟩
    · rintro ⟨_, _, heq, hc, ht⟩
      cases heq
      unfold tail at ht
      split at ht
      · exact .inl ⟨‹_›, ht⟩
      · rename_i hpoint
        split at ht
        · exact .inr (.inl ⟨‹_›, ht⟩)
        · rename_i hzero
          exact .inr (.inr ⟨⟨hc.resolve_left hpoint, hzero⟩, ht⟩)

theorem starts_iff (c : Char) (t : List Char) :
    starts c t = true ↔ isDigit c = true ∨ c = '.' ∧ ∃ d u, t = d :: u ∧ isDigit d = true := by
  cases t <;> simp [starts]

theorem not_isBlank_of_starts {c : Char} {t : List Char} (h : starts c t = true) :
    Text.isBlank c = false := by
  rcases (starts_iff c t).mp h with hdigit | ⟨rfl, -⟩
  · simp only [isDigit, le_iff_toNat_le, Bool.and_eq_true, decide_eq_true_eq, Char.reduceToNat] at hdigit
    simp [Text.isBlank, Text.inRanges, Text.blankRanges]
    omega
  · rfl

/-- Where a literal starts, what follows its first character begins with a match. -/
theorem exists_mem_tail {c : Char} {t : List Char} (h : starts c t = true) :
    ∃ w rest, t = w ++ rest ∧ w ∈ (tail c).matches' := by
  rcases (starts_iff c t).mp h with hdigit | ⟨rfl, d, u, rfl, hd⟩
  · have hpoint : c ≠ '.' := by
      rintro rfl
      cases hdigit
    refine ⟨[], t, rfl, ?_⟩
    rw [tail, if_neg hpoint]
    split
    · exact .inl (.inl rfl)
    · exact ⟨[], ⟨[], Language.nil_mem_kstar _, [], .inl rfl, rfl⟩, [], .inl rfl, rfl⟩
  · have hds : [d] ∈ (oneOrMore digit).matches' :=
      (mem_oneOrMore_class mem_digits).mpr ⟨List.cons_ne_nil d [], by simpa using hd⟩
    exact ⟨[d], u, rfl, [d], hds, [], .inl rfl, rfl⟩

/-- Where a literal starts, the measured one is in the grammar and none in the grammar is longer. -/
theorem longest_of_starts {c : Char} {t : List Char} (h : starts c t = true) :
    c :: t.take (tailSize c t) ∈ grammar.matches' ∧
      ∀ u, u <+: c :: t → u ∈ grammar.matches' → u.length ≤ 1 + tailSize c t := by
  constructor
  · obtain ⟨w, rest, rfl, hw⟩ := exists_mem_tail h
    refine mem_grammar_iff.mpr ⟨c, _, rfl, ?_, (longest_tail c).mem w rest hw⟩
    rcases (starts_iff c _).mp h with hdigit | ⟨hpoint, -⟩
    · exact .inr hdigit
    · exact .inl hpoint
  · rintro u ⟨rest, heq⟩ hu
    obtain ⟨d, w, rfl, -, hw⟩ := mem_grammar_iff.mp hu
    rw [List.cons_append] at heq
    obtain ⟨rfl, rfl⟩ := List.cons_eq_cons.mp heq
    have hle := (longest_tail d).le w rest hw
    rw [List.length_cons]
    omega

theorem starts_of_mem_grammar {c : Char} {t : List Char} (h : c :: t ∈ grammar.matches') :
    starts c t = true := by
  obtain ⟨_, _, heq, hc, ht⟩ := mem_grammar_iff.mp h
  cases heq
  rw [starts_iff]
  rcases hc with rfl | hdigit
  · obtain ⟨ds, hds, e, -, rfl⟩ := ht
    obtain ⟨hne, hall⟩ := (mem_oneOrMore_class mem_digits).mp hds
    obtain ⟨d, ds, rfl⟩ := List.exists_cons_of_ne_nil hne
    exact .inr ⟨rfl, d, ds ++ e, rfl, hall d List.mem_cons_self⟩
  · exact .inl hdigit

/-- A whole literal is measured as a whole. -/
theorem tailSize_of_mem_grammar {c : Char} {t : List Char} (h : c :: t ∈ grammar.matches') :
    tailSize c t = t.length := by
  have hle := (longest_of_starts (starts_of_mem_grammar h)).2 (c :: t) List.prefix_rfl h
  have hbound := tailSize_le c t
  rw [List.length_cons] at hle
  omega

end Number

end Lexis

namespace Mode

variable (m : Mode)

/-- A step at the start of a literal takes the measured one. -/
theorem step_of_starts {h : Host} {c : Cursor} {s : State} (hs : s.region = .code)
    (hend : h.atLineEnd c = false) {d : Char} {t : List Char} (hrest : c.rest = d :: t)
    (hstart : Lexis.Number.starts d t = true) :
    (m.step h c s).cursor = c.advance (1 + Lexis.Number.tailSize d t) ∧
      (m.step h c s).style = some .number := by
  have hblank := Lexis.Number.not_isBlank_of_starts hstart
  rw [m.step_of_not_isBlank s hrest hblank hend, hs, hrest, Lexeme.read, Lexeme.ofCode_of_starts hstart]
  exact ⟨rfl, rfl⟩

/-- A line that is a literal is one number. -/
theorem readLine_of_mem_grammar {s : State} (hs : s.region = .code) {w : List Char}
    (hw : w ∈ Lexis.Number.grammar.matches') :
    (m.readLine s w).tokens = [⟨w, some .number, 0, Text.byteSize w⟩] := by
  obtain ⟨c, t, rfl, -⟩ := Lexis.Number.mem_grammar_iff.mp hw
  have hstart := Lexis.Number.starts_of_mem_grammar hw
  have hread : Lexeme.read m.vocabulary [] s.region (c :: t) =
      { size := (c :: t).length, style := some .number } := by
    rw [hs, Lexeme.read, Lexeme.ofCode_of_starts hstart, Lexis.Number.tailSize_of_mem_grammar hw,
      Nat.add_comm]
    rfl
  exact m.readLine_tokens_of_pieces
    (pieces_eq_singleton (Lexis.Number.not_isBlank_of_starts hstart) hread rfl)

/-- **A number is the longest match of the grammar.** Take any state in code, and any host that does not see
the line end at the cursor. Where the rest of the line starts with a digit, or with a point and a digit, a
step takes exactly the longest beginning of the rest that is in the grammar, and shows it as a number. So
every text of the grammar, read as a line, is one number. -/
theorem number_is_longest_match (s : State) (hs : s.region = .code) :
    (∀ (h : Host) (c : Cursor) (d : Char) (t : List Char), h.atLineEnd c = false →
      d ∈ "0123456789".toList → c.rest = d :: t ∨ c.rest = '.' :: d :: t →
      ∃ w, w <+: c.rest ∧ w ∈ Lexis.Number.grammar.matches' ∧
        (∀ u, u <+: c.rest → u ∈ Lexis.Number.grammar.matches' → u.length ≤ w.length) ∧
        (m.step h c s).cursor = c.advance w.length ∧ (m.step h c s).style = some .number) ∧
    ∀ w ∈ Lexis.Number.grammar.matches',
      (m.readLine s w).tokens = [⟨w, some .number, 0, Text.byteSize w⟩] := by
  refine ⟨?_, fun w hw => m.readLine_of_mem_grammar hs hw⟩
  intro h c d t hend hd hrest
  have hdigit : Lexis.isDigit d = true := (Lexis.Number.mem_digits d).mp hd
  obtain ⟨e, u, hcut, hstart⟩ : ∃ e u, c.rest = e :: u ∧ Lexis.Number.starts e u = true := by
    rcases hrest with hrest | hrest
    · exact ⟨d, t, hrest, (Lexis.Number.starts_iff d t).mpr (.inl hdigit)⟩
    · exact ⟨'.', d :: t, hrest, (Lexis.Number.starts_iff '.' _).mpr (.inr ⟨rfl, d, t, rfl, hdigit⟩)⟩
  obtain ⟨hmem, hle⟩ := Lexis.Number.longest_of_starts hstart
  obtain ⟨hcursor, hstyle⟩ := m.step_of_starts hs hend hcut hstart
  have hlength : (e :: u.take (Lexis.Number.tailSize e u)).length = 1 + Lexis.Number.tailSize e u := by
    have hbound := Lexis.Number.tailSize_le e u
    rw [List.length_cons, List.length_take]
    omega
  refine ⟨_, ?_, hmem, ?_, ?_, hstyle⟩
  · rw [hcut]
    exact List.cons_prefix_cons.mpr ⟨rfl, List.take_prefix _ u⟩
  · rw [hcut, hlength]
    exact hle
  · rw [hlength]
    exact hcursor

/-- An exponent without digits is left over, also before a character of more than one byte; and a whole line
in hexadecimal. -/
theorem number_is_longest_match_leftover :
    let m : Mode := {}
    let s : State := { m.start 0 with nesting := { root := .root 0, inner := [.opened 3 7 .paren] } }
    let c : Cursor := { passed := ['='], rest := ".5e+é".toList }
    s.region = .code ∧
      (∃ w, w <+: c.rest ∧ w ∈ Lexis.Number.grammar.matches' ∧
        (∀ u, u <+: c.rest → u ∈ Lexis.Number.grammar.matches' → u.length ≤ w.length) ∧
        (m.step (.faithful 4) c s).cursor = c.advance w.length ∧
        (m.step (.faithful 4) c s).style = some .number) ∧
      (m.step (.faithful 4) c s).cursor.rest = "e+é".toList ∧
      (m.readLine s "0X1f".toList).tokens = [⟨"0X1f".toList, some .number, 0, 4⟩] := by
  intro m s c
  obtain ⟨hstep, hline⟩ := m.number_is_longest_match s rfl
  refine ⟨rfl, ?_, by decide +kernel, ?_⟩
  · exact hstep (.faithful 4) c '5' "e+é".toList rfl (by decide) (.inr rfl)
  · exact hline "0X1f".toList ((RegularExpression.rmatch_iff_matches' _ _).mp (by decide +kernel))

end Mode

end BraceMode
