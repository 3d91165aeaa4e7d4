import BraceMode.Text.Ranges

/-! Blank characters are those with the `White_Space` property of Unicode, kept as a table of closed
ranges. Every text is its blank lead followed by what trimming leaves, and what trimming leaves never
starts with a blank, so trimming twice is trimming once. -/

namespace BraceMode.Text

def blankRanges : List (Nat × Nat) :=
  [(0x09, 0x0D), (0x20, 0x20), (0x85, 0x85), (0xA0, 0xA0), (0x1680, 0x1680), (0x2000, 0x200A),
   (0x2028, 0x2029), (0x202F, 0x202F), (0x205F, 0x205F), (0x3000, 0x3000)]

def isBlank (c : Char) : Bool := inRanges blankRanges c

/-- The longest blank beginning of a text. -/
def lead (t : List Char) : List Char := t.takeWhile isBlank

def trimStart (t : List Char) : List Char := t.dropWhile isBlank

/-- A text of blanks only; the empty text counts. -/
def allBlank (t : List Char) : Bool := t.all isBlank

theorem lead_append_trimStart (t : List Char) : lead t ++ trimStart t = t :=
  List.takeWhile_append_dropWhile

theorem isBlank_of_mem_lead {c : Char} {t : List Char} (h : c ∈ lead t) : isBlank c = true :=
  List.all_eq_true.mp (List.all_takeWhile (l := t) (p := isBlank)) c h

theorem trimStart_eq_nil_iff (t : List Char) : trimStart t = [] ↔ allBlank t = true := by
  induction t with
  | nil => simp [trimStart, allBlank]
  | cons c t ih =>
    by_cases h : isBlank c = true
    · have ht : trimStart (c :: t) = trimStart t := by simp [trimStart, h]
      rw [ht, ih]
      simp [allBlank, h]
    · simp [trimStart, allBlank, h]

theorem not_isBlank_of_trimStart {c : Char} {t r : List Char} (h : trimStart t = c :: r) :
    isBlank c = false := by
  induction t with
  | nil => simp [trimStart] at h
  | cons d t ih =>
    by_cases hd : isBlank d = true
    · exact ih (by simpa [trimStart, hd] using h)
    · simp only [trimStart, List.dropWhile_cons, hd] at h
      simp only [Bool.false_eq_true, if_false, List.cons.injEq] at h
      rw [← h.1]; simpa using hd

theorem trimStart_trimStart (t : List Char) : trimStart (trimStart t) = trimStart t := by
  cases h : trimStart t with
  | nil => rfl
  | cons c r => simp [trimStart, not_isBlank_of_trimStart h]

end BraceMode.Text
