import BraceMode.Proofs.LineEnds
import BraceMode.Reindent

/-! What re-indenting writes. A rewritten line has the content of its source line, so rewriting it again in
the same state changes nothing; and the rewritten text is in cut form again, line for line. The second
part needs one look at the last line, which may vanish when it is blank. -/

namespace BraceMode

namespace Text

theorem not_allBlank_iff (t : List Char) : allBlank t = false ↔ trimStart t ≠ [] := by
  rw [ne_eq, trimStart_eq_nil_iff, Bool.not_eq_true]

/-- Whether the last line of a text is blank and no line feed ends it. -/
def endsBlank (t : List Char) : Bool := !endsLine t && (lines t).getLast?.any allBlank

theorem endsBlank_unlines_append {ls : List (List Char)} {tail : List Char}
    (hls : ∀ l ∈ ls, '\n' ∉ l) (ht : '\n' ∉ tail) :
    endsBlank (unlines ls ++ tail) = true ↔ tail ≠ [] ∧ allBlank tail = true := by
  have hends : endsLine (unlines ls ++ tail) = true ↔ ls ≠ [] ∧ tail = [] :=
    endsLine_unlines_append ht
  rw [endsBlank, Bool.and_eq_true, Bool.not_eq_true', ← Bool.not_eq_true, hends,
    lines_unlines_append hls ht]
  by_cases htail : tail = []
  · cases ls with
    | nil => simp [htail, lastLine]
    | cons l ls => simp [htail]
  · simp [htail, lastLine]

theorem trimStart_append_of_allBlank {s : List Char} (h : allBlank s = true) (t : List Char) :
    trimStart (s ++ t) = trimStart t :=
  List.dropWhile_append_of_pos fun c hc => List.all_eq_true.mp h c hc

theorem trimStart_append_of_ne_nil {s : List Char} (h : trimStart s ≠ []) (t : List Char) :
    trimStart (s ++ t) = trimStart s ++ t := by
  induction s with
  | nil => exact absurd rfl h
  | cons c s ih =>
    by_cases hc : isBlank c = true
    · have hs : trimStart (c :: s) = trimStart s := by simp [trimStart, hc]
      rw [hs] at h ⊢
      rw [← ih h]
      simp [trimStart, hc]
    · simp [trimStart, hc]

theorem allBlank_replicate (n : Nat) : allBlank (List.replicate n ' ') = true := by
  have h : isBlank ' ' = true := by decide
  rw [allBlank, List.all_replicate]
  simp [h]

theorem getLast?_trimStart {t : List Char} (h : trimStart t ≠ []) :
    (trimStart t).getLast? = t.getLast? := by
  conv => rhs; rw [← lead_append_trimStart t]
  rw [List.getLast?_append, List.getLast?_eq_some_getLast h, Option.some_or]

end Text

namespace Mode

variable (m : Mode) (s : State)

/-! ## One line -/

theorem trimStart_indentTo (column : Int) (t : List Char) :
    Text.trimStart (indentTo column (Text.trimStart t)) = Text.trimStart t := by
  rw [indentTo, Text.trimStart_append_of_allBlank (Text.allBlank_replicate _),
    Text.trimStart_trimStart]

/-- The three ways in which a line is written. -/
theorem reindentLine_cases (t : List Char) :
    (Text.trimStart t = [] ∧ m.reindentLine s t = []) ∨
      (Text.trimStart t ≠ [] ∧ m.suggest s t = none ∧ m.reindentLine s t = t) ∨
      ∃ column, Text.trimStart t ≠ [] ∧ m.suggest s t = some column ∧
        m.reindentLine s t = indentTo column (Text.trimStart t) := by
  by_cases hc : Text.trimStart t = []
  · exact .inl ⟨hc, by simp [reindentLine, hc]⟩
  · cases hs : m.suggest s t with
    | none => exact .inr (.inl ⟨hc, rfl, by simp [reindentLine, hc, suggest_trimStart, hs]⟩)
    | some column =>
      exact .inr (.inr ⟨column, hc, rfl, by simp [reindentLine, hc, suggest_trimStart, hs]⟩)

@[simp] theorem reindentLine_nil : m.reindentLine s [] = [] := rfl

/-- Only the blanks in front of a line change. -/
theorem trimStart_reindentLine (t : List Char) :
    Text.trimStart (m.reindentLine s t) = Text.trimStart t := by
  obtain ⟨hc, hw⟩ | ⟨-, -, hw⟩ | ⟨column, -, -, hw⟩ := m.reindentLine_cases s t
  · rw [hw, hc]; rfl
  · rw [hw]
  · rw [hw, trimStart_indentTo]

theorem reindentLine_eq_nil_iff (t : List Char) :
    m.reindentLine s t = [] ↔ Text.allBlank t = true := by
  rw [← Text.trimStart_eq_nil_iff]
  constructor
  · intro h
    rw [← m.trimStart_reindentLine s t, h]; rfl
  · intro h
    simp [reindentLine, h]

theorem reindentLine_ne_nil {t : List Char} (h : Text.allBlank t = false) : m.reindentLine s t ≠ [] := by
  rw [ne_eq, m.reindentLine_eq_nil_iff, h]
  exact Bool.noConfusion

/-- A line that stands where it should is written as it is. -/
theorem reindentLine_reindentLine (t : List Char) :
    m.reindentLine s (m.reindentLine s t) = m.reindentLine s t := by
  obtain ⟨-, hw⟩ | ⟨-, -, hw⟩ | ⟨column, hc, hs, hw⟩ := m.reindentLine_cases s t
  · rw [hw, reindentLine_nil]
  · rw [hw, hw]
  · rw [hw, reindentLine, trimStart_indentTo]
    simp [hc, suggest_trimStart, hs]

theorem newline_not_mem_reindentLine {t : List Char} (h : '\n' ∉ t) :
    '\n' ∉ m.reindentLine s t := by
  obtain ⟨-, hw⟩ | ⟨-, -, hw⟩ | ⟨column, -, -, hw⟩ := m.reindentLine_cases s t
  · simp [hw]
  · rwa [hw]
  · rw [hw, indentTo, List.mem_append, not_or]
    refine ⟨by simp [List.mem_replicate], fun hm => h ?_⟩
    rw [← Text.lead_append_trimStart t]
    exact List.mem_append_right _ hm

/-- A line that is not blank ends as it did. -/
theorem getLast?_reindentLine {t : List Char} (h : Text.trimStart t ≠ []) :
    (m.reindentLine s t).getLast? = t.getLast? := by
  rw [← Text.getLast?_trimStart h, ← m.trimStart_reindentLine s t]
  refine (Text.getLast?_trimStart ?_).symm
  rwa [m.trimStart_reindentLine s t]

/-! ## Line after line -/

@[simp] theorem feed_cons (t : List Char) (ts : List (List Char)) :
    m.feed s (t :: ts) = m.feed (m.readLine s t).state ts := rfl

theorem reindentFrom_cons (t : List Char) (ts : List (List Char)) :
    m.reindentFrom s (t :: ts) =
      m.reindentLine s t :: m.reindentFrom (m.readLine s (m.reindentLine s t)).state ts := rfl

theorem reindentFrom_append (ts us : List (List Char)) :
    m.reindentFrom s (ts ++ us) =
      m.reindentFrom s ts ++ m.reindentFrom (m.feed s (m.reindentFrom s ts)) us := by
  induction ts generalizing s with
  | nil => rfl
  | cons t ts ih => simp only [List.cons_append, reindentFrom_cons, ih, feed_cons]

/-- Both runs read the same rewritten lines, so they are in the same state at every line. -/
theorem reindentFrom_reindentFrom (ts : List (List Char)) :
    m.reindentFrom s (m.reindentFrom s ts) = m.reindentFrom s ts := by
  induction ts generalizing s with
  | nil => rfl
  | cons t ts ih => simp only [reindentFrom_cons, reindentLine_reindentLine, ih]

theorem newline_not_mem_reindentFrom {ts : List (List Char)} (h : ∀ t ∈ ts, '\n' ∉ t) :
    ∀ w ∈ m.reindentFrom s ts, '\n' ∉ w := by
  induction ts generalizing s with
  | nil => simp [reindentFrom]
  | cons t ts ih =>
    intro w hw
    rcases List.mem_cons.mp hw with rfl | hw
    · exact m.newline_not_mem_reindentLine s (h t (by simp))
    · exact ih _ (fun u hu => h u (List.mem_cons_of_mem t hu)) w hw

/-- A rewritten line ends in a carriage return exactly when its source line does and is not blank. -/
theorem reindentFrom_getLast?_ne_iff (ts : List (List Char)) :
    (∀ w ∈ m.reindentFrom s ts, w.getLast? ≠ some '\r') ↔
      ∀ t ∈ ts, ¬(Text.allBlank t = false ∧ t.getLast? = some '\r') := by
  induction ts generalizing s with
  | nil => simp [reindentFrom]
  | cons t ts ih =>
    have hhead : (m.reindentLine s t).getLast? ≠ some '\r' ↔
        ¬(Text.allBlank t = false ∧ t.getLast? = some '\r') := by
      rw [Text.not_allBlank_iff]
      by_cases hc : Text.trimStart t = []
      · simp [(m.reindentLine_eq_nil_iff s t).mpr ((Text.trimStart_eq_nil_iff t).mp hc), hc]
      · simp [m.getLast?_reindentLine s hc, hc]
    simp only [reindentFrom_cons, List.forall_mem_cons, hhead, ih]

/-! ## The whole text -/

theorem reindentFrom_lastLine (tail : List Char) :
    m.reindentFrom s (Text.lastLine tail) =
      if tail = [] then [] else [m.reindentLine s tail] := by
  unfold Text.lastLine
  split <;> rfl

/-- A text in cut form is rewritten into one in cut form. -/
theorem reindent_unlines_append {ls : List (List Char)} {tail : List Char}
    (hls : ∀ l ∈ ls, '\n' ∉ l) (ht : '\n' ∉ tail) :
    m.reindent (Text.unlines ls ++ tail) =
      let ws := m.reindentFrom (m.start 0) (ls.map Text.dropReturn)
      Text.unlines ws ++ m.reindentLine (m.feed (m.start 0) ws) tail := by
  simp only [reindent, Text.lines_unlines_append hls ht, reindentFrom_append, reindentFrom_lastLine,
    Text.endsLine_unlines_append ht]
  by_cases htail : tail = []
  · cases ls with
    | nil => simp [htail, reindentFrom]
    | cons l ls => simp [htail]
  · -- The line feed that goes is the one behind the last line, not one of its characters.
    have hout (ws : List (List Char)) (w : List Char) :
        (Text.unlines (ws ++ [w])).dropLast = Text.unlines ws ++ w := by
      have : Text.unlines (ws ++ [w]) = (Text.unlines ws ++ w) ++ ['\n'] := by simp [Text.unlines]
      rw [this, List.dropLast_concat]
    simp [htail, hout]

/-- The lines of the rewritten text, when no line that a line feed ends keeps a carriage return. -/
theorem lines_reindent {ls : List (List Char)} {tail : List Char}
    (hls : ∀ l ∈ ls, '\n' ∉ l) (ht : '\n' ∉ tail)
    (hr : ¬Text.doubleReturn <:+: Text.unlines ls ++ tail) :
    Text.lines (m.reindent (Text.unlines ls ++ tail)) =
      let ws := m.reindentFrom (m.start 0) (ls.map Text.dropReturn)
      ws ++ Text.lastLine (m.reindentLine (m.feed (m.start 0) ws) tail) := by
  have hws := m.newline_not_mem_reindentFrom (m.start 0) (Text.not_mem_of_mem_map_dropReturn hls)
  have hreturn := (m.reindentFrom_getLast?_ne_iff (m.start 0) _).mpr fun l hl =>
    fun h => Text.getLast?_dropReturn_ne hr l hl h.2
  rw [m.reindent_unlines_append hls ht]
  simp only
  rw [Text.lines_unlines_append hws (m.newline_not_mem_reindentLine _ ht),
    Text.map_dropReturn_eq_self hreturn]

/-- The lines written are those of the rewritten text, and at most an empty one more. -/
theorem exists_reindentFrom_lines (t : List Char) (hr : ¬Text.doubleReturn <:+: t) :
    ∃ extra, m.reindentFrom (m.start 0) (Text.lines t) = Text.lines (m.reindent t) ++ extra ∧
      ∀ w ∈ extra, w = [] := by
  obtain ⟨ls, tail, rfl, hls, ht⟩ := Text.exists_eq_unlines_append t
  rw [m.lines_reindent hls ht hr, Text.lines_unlines_append hls ht, reindentFrom_append,
    reindentFrom_lastLine]
  let w := m.reindentLine (m.feed (m.start 0) (m.reindentFrom (m.start 0) (ls.map Text.dropReturn))) tail
  by_cases htail : tail = []
  · exact ⟨[], by simp [htail, Text.lastLine], by simp⟩
  · by_cases hw : w = []
    · exact ⟨[w], by simp [htail, hw, w, Text.lastLine], by simp [hw]⟩
    · exact ⟨[], by simp [htail, hw, w, Text.lastLine], by simp⟩

/-- Where a line that is not blank stands in the rewritten text, and what is written there. -/
theorem getElem?_lines_reindent {t l : List Char} {before after : List (List Char)}
    (hr : ¬Text.doubleReturn <:+: t) (hl : Text.lines t = before ++ l :: after)
    (hc : Text.allBlank l = false) :
    (Text.lines (m.reindent t))[before.length]? =
      some (m.reindentLine (m.feed (m.start 0) (m.reindentFrom (m.start 0) before)) l) := by
  obtain ⟨extra, hwritten, hextra⟩ := m.exists_reindentFrom_lines t hr
  let w := m.reindentLine (m.feed (m.start 0) (m.reindentFrom (m.start 0) before)) l
  have hat : (m.reindentFrom (m.start 0) (Text.lines t))[before.length]? = some w := by
    rw [hl, reindentFrom_append, List.getElem?_append_right (by simp)]
    simp [reindentFrom_cons, w]
  have hw : w ≠ [] := m.reindentLine_ne_nil _ hc
  rw [hwritten, List.getElem?_append] at hat
  split at hat
  · exact hat
  · exact absurd (hextra w (List.mem_of_getElem? hat)) hw

end Mode

end BraceMode
