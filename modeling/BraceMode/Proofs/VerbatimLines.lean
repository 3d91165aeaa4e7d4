import BraceMode.Proofs.ReindentCheck
import BraceMode.Proofs.SuggestedColumns

/-! Lines inside a literal or a comment. Nothing is suggested for them, so re-indenting has no column to move
them to and writes them as they are, with one exception: a line of blanks is emptied before anything is
suggested, and inside a literal the blanks were part of its value. -/

namespace BraceMode.Mode

variable (m : Mode)

theorem suggest_eq_none_iff (s : State) (t : List Char) : m.suggest s t = none ↔ s.region ≠ .code := by
  unfold suggest
  split
  · rename_i h
    simp [h]
  · rename_i h
    simp [h]

/-- Outside code a line is written as it is, or as an empty one when it is blank. -/
theorem reindentLine_of_region_ne_code {s : State} (hs : s.region ≠ .code) (l : List Char) :
    m.reindentLine s l = Text.keptPart l := by
  obtain ⟨hc, hw⟩ | ⟨hc, -, hw⟩ | ⟨column, -, hsome, -⟩ := m.reindentLine_cases s l
  · rw [hw, Text.keptPart_of_allBlank ((Text.trimStart_eq_nil_iff l).mp hc)]
  · rw [hw, Text.keptPart_of_not_allBlank ((Text.not_allBlank_iff l).mpr hc)]
  · rw [(m.suggest_eq_none_iff s l).mpr hs] at hsome
    cases hsome

theorem take_reindentFrom (s : State) (ts : List (List Char)) (i : Nat) :
    (m.reindentFrom s ts).take i = m.reindentFrom s (ts.take i) := by
  induction ts generalizing s i with
  | nil => simp [reindentFrom]
  | cons t ts ih =>
    cases i with
    | zero => rfl
    | succ i => exact congrArg (m.reindentLine s t :: ·) (ih _ i)

/-- A line that begins outside code in the source is written outside code too. -/
theorem getElem?_reindentFrom_of_region_ne_code {s : State} {ts : List (List Char)} {i : Nat} {l : List Char}
    (hl : ts[i]? = some l) (hin : (m.feed s (ts.take i)).region ≠ .code) :
    (m.reindentFrom s ts)[i]? = some (Text.keptPart l) := by
  have hregion := m.region_feed_reindentFrom (s := s) (u := s) rfl (ts.take i)
  rw [hregion] at hin
  rw [getElem?_reindentFrom, hl, take_reindentFrom]
  exact congrArg some (m.reindentLine_of_region_ne_code hin l)

/-- **Re-indenting keeps what stands inside a literal or a comment, but for blanks.** Let no line feed stand
behind two carriage returns, and let a line of the source begin while a literal or a comment is open.
Nothing is suggested for the line. If it is not blank, it is written as it is, character for character. If
it is blank, nothing is written in its place. -/
theorem reindent_verbatim_inside (t : List Char) (hr : ¬Text.doubleReturn <:+: t) {i : Nat} {l : List Char}
    (hl : (Text.lines t)[i]? = some l)
    (hin : (m.feed (m.start 0) ((Text.lines t).take i)).region ≠ .code) :
    (m.highlight t)[i]?.map HighlightedLine.indent = some none ∧
      (Text.allBlank l = false → (Text.lines (m.reindent t))[i]? = some l) ∧
      (Text.allBlank l = true → (Text.lines (m.reindent t))[i]?.getD [] = []) := by
  have hwritten := m.getElem?_reindentFrom_of_region_ne_code hl hin
  obtain ⟨extra, hlines, hextra⟩ := m.exists_reindentFrom_lines t hr
  rw [hlines, List.getElem?_append] at hwritten
  refine ⟨?_, fun hblank => ?_, fun hblank => ?_⟩
  · rw [highlight, getElem?_highlightFrom, hl]
    exact congrArg some ((m.suggest_eq_none_iff _ l).mpr hin)
  · rw [Text.keptPart_of_not_allBlank hblank] at hwritten
    split at hwritten
    · exact hwritten
    · -- A line that goes with the end of the text is empty, and this one is not.
      rw [hextra l (List.mem_of_getElem? hwritten)] at hblank
      cases hblank
  · rw [Text.keptPart_of_allBlank hblank] at hwritten
    split at hwritten
    · rw [hwritten]
      rfl
    · rename_i hlen
      rw [List.getElem?_eq_none (Nat.le_of_not_lt hlen)]
      rfl

/-- A tab inside a string that goes on behind a backslash, and three blanks inside a comment. -/
theorem reindent_verbatim_inside_literal :
    let m : Mode := {}
    let t := "\x7b\n'a\\\n\tb' /*\n   \n*/\n\x7d\n".toList
    ¬Text.doubleReturn <:+: t ∧ (Text.lines t)[2]? = some "\tb' /*".toList ∧
      (m.feed (m.start 0) ((Text.lines t).take 2)).region = .literal .single ∧
      (Text.lines (m.reindent t))[2]? = some "\tb' /*".toList := by
  intro m t
  have hr : ¬Text.doubleReturn <:+: t := by decide +kernel
  have hl : (Text.lines t)[2]? = some "\tb' /*".toList := by decide +kernel
  have hin : (m.feed (m.start 0) ((Text.lines t).take 2)).region = .literal .single := by decide +kernel
  obtain ⟨-, hkept, -⟩ := m.reindent_verbatim_inside t hr hl (by rw [hin]; exact Region.noConfusion)
  exact ⟨hr, hl, hin, hkept (by decide +kernel)⟩

/-- A line of blanks inside a literal loses them. -/
theorem reindent_empties_blank_inside :
    let m : Mode := {}
    let t := "`a\n  \nb`\n".toList
    ¬Text.doubleReturn <:+: t ∧ (Text.lines t)[1]? = some "  ".toList ∧
      (m.feed (m.start 0) ((Text.lines t).take 1)).region = .literal .backtick ∧
      (Text.lines (m.reindent t))[1]? = some [] ∧ m.reindent t = "`a\n\nb`\n".toList := by
  decide +kernel

end BraceMode.Mode
