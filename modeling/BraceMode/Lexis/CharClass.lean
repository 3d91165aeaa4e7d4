/-! Character classes of the language. Digits are ASCII digits; a name may also hold any character from
U+00A1 upwards, blanks of that range included, because a name is read before blanks are looked for. -/

namespace BraceMode.Lexis

/-- ASCII letters, digits and the underscore: what a label word must not run into. -/
def isWordChar (c : Char) : Bool := c.isAlphanum || c == '_'

def isNameChar (c : Char) : Bool := isWordChar c || c == '$' || decide (0xA1 ≤ c.toNat)

/-- A colon belongs to the class although it is punctuation where an operator would start. -/
def isOperatorChar (c : Char) : Bool := "+-*&^%:=<>!|/".toList.contains c

def isDigit (c : Char) : Bool := decide ('0' ≤ c) && decide (c ≤ '9')

def isOctalDigit (c : Char) : Bool := decide ('0' ≤ c) && decide (c ≤ '7')

def isHexDigit (c : Char) : Bool :=
  isDigit c || decide ('a' ≤ c) && decide (c ≤ 'f') || decide ('A' ≤ c) && decide (c ≤ 'F')

/-- The length of the longest beginning of `t` in class `p`. -/
def run (p : Char → Bool) (t : List Char) : Nat := (t.takeWhile p).length

theorem take_run (p : Char → Bool) (t : List Char) : t.take (run p t) = t.takeWhile p := by
  induction t with
  | nil => rfl
  | cons c t ih =>
    by_cases h : p c = true
    · simpa [run, h] using ih
    · simp [run, h]

theorem drop_run (p : Char → Bool) (t : List Char) : t.drop (run p t) = t.dropWhile p := by
  induction t with
  | nil => rfl
  | cons c t ih =>
    by_cases h : p c = true
    · simpa [run, h] using ih
    · simp [run, h]

/-- Behind a run stands nothing of its class. -/
theorem not_of_drop_run {p : Char → Bool} {t : List Char} {c : Char} {u : List Char}
    (h : t.drop (run p t) = c :: u) : p c = false := by
  rw [drop_run] at h
  have hhead := t.head_dropWhile_not p (h ▸ List.cons_ne_nil c u)
  simpa [h] using hhead

theorem run_append {p : Char → Bool} {w : List Char} (hw : ∀ c ∈ w, p c = true) (rest : List Char) :
    run p (w ++ rest) = w.length + run p rest := by
  simp [run, List.takeWhile_append_of_pos hw]

theorem run_cons_of_neg {p : Char → Bool} {c : Char} (hc : p c = false) (t : List Char) :
    run p (c :: t) = 0 := by
  simp [run, hc]

theorem run_le (p : Char → Bool) (t : List Char) : run p t ≤ t.length :=
  (List.takeWhile_sublist p).length_le

end BraceMode.Lexis
