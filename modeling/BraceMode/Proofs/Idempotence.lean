import BraceMode.Proofs.Rewritten

/-! When re-indenting twice is re-indenting once. Both runs rewrite line for line in the same states, so all
that can go wrong is the cut into lines: a rewritten line that ends in a carriage return loses it in the
second run. That is also the only way, which makes the condition exact. -/

namespace BraceMode

namespace Text

/-- A character more at the end shows in the content unless the whole text is blank. -/
theorem allBlank_of_trimStart_concat_eq {t : List Char} {c : Char}
    (h : trimStart (t ++ [c]) = trimStart t) : allBlank (t ++ [c]) = true := by
  rw [← trimStart_eq_nil_iff, h]
  apply Classical.byContradiction
  intro hne
  rw [trimStart_append_of_ne_nil hne] at h
  have hlen := congrArg List.length h
  simp at hlen

end Text

namespace Mode

/-- A rewritten line that is rewritten to itself from its own cut has nothing to lose in the cut. -/
theorem getLast?_ne_of_reindentLine_dropReturn (m : Mode) (s : State) {t : List Char}
    (h : m.reindentLine s (Text.dropReturn (m.reindentLine s t)) = m.reindentLine s t) :
    (m.reindentLine s t).getLast? ≠ some '\r' := by
  intro hr
  obtain ⟨k, hk⟩ := List.getLast?_eq_some_iff.mp hr
  have hcontent := congrArg Text.trimStart h
  rw [trimStart_reindentLine, hk] at hcontent
  simp only [Text.dropReturn, List.getLast?_concat, if_true, List.dropLast_concat] at hcontent
  have hblank := Text.allBlank_of_trimStart_concat_eq hcontent.symm
  rw [← hk, ← Text.trimStart_eq_nil_iff, trimStart_reindentLine, Text.trimStart_eq_nil_iff,
    ← m.reindentLine_eq_nil_iff s, hk] at hblank
  simp at hblank

theorem getLast?_ne_of_reindentFrom_dropReturn (m : Mode) (s : State) {ts : List (List Char)}
    (h : m.reindentFrom s ((m.reindentFrom s ts).map Text.dropReturn) = m.reindentFrom s ts) :
    ∀ w ∈ m.reindentFrom s ts, w.getLast? ≠ some '\r' := by
  induction ts generalizing s with
  | nil => simp [reindentFrom]
  | cons t ts ih =>
    simp only [reindentFrom_cons, List.map_cons] at h
    obtain ⟨hhead, htail⟩ := List.cons_eq_cons.mp h
    rw [hhead] at htail
    intro w hw
    rcases List.mem_cons.mp hw with rfl | hw
    · exact m.getLast?_ne_of_reindentLine_dropReturn s hhead
    · exact ih _ htail w hw

/-- Re-indenting a rewritten text changes nothing exactly when no rewritten line loses a carriage return
to the cut. -/
theorem reindent_unlines_append_eq_self_iff (m : Mode) {ts : List (List Char)} {tail : List Char}
    (hts : ∀ t ∈ ts, '\n' ∉ t) (ht : '\n' ∉ tail) :
    let ws := m.reindentFrom (m.start 0) ts
    let w := m.reindentLine (m.feed (m.start 0) ws) tail
    m.reindent (Text.unlines ws ++ w) = Text.unlines ws ++ w ↔ ∀ w ∈ ws, w.getLast? ≠ some '\r' := by
  intro ws w
  have hws : ∀ w ∈ ws, '\n' ∉ w := m.newline_not_mem_reindentFrom (m.start 0) hts
  have hw : '\n' ∉ w := m.newline_not_mem_reindentLine _ ht
  rw [m.reindent_unlines_append hws hw]
  constructor
  · intro h
    have hcut := m.newline_not_mem_reindentFrom (m.start 0) (Text.not_mem_of_mem_map_dropReturn hws)
    have hlines := (Text.unlines_append_inj hcut hws (m.newline_not_mem_reindentLine _ hw) hw h).1
    exact m.getLast?_ne_of_reindentFrom_dropReturn (m.start 0) hlines
  · intro h
    have hcut : ws.map Text.dropReturn = ws := Text.map_dropReturn_eq_self h
    have hfrom : m.reindentFrom (m.start 0) ws = ws := m.reindentFrom_reindentFrom (m.start 0) ts
    have hlast : m.reindentLine (m.feed (m.start 0) ws) w = w := m.reindentLine_reindentLine _ tail
    simp only [hcut, hfrom, hlast]

/-- **Re-indenting is idempotent up to doubled carriage returns.** A second run changes the result of the
first exactly when the text has a line, ended by a line feed, that is not blank and still ends in a
carriage return; so it never does when no line feed stands behind two carriage returns. -/
theorem reindent_reindent_eq_iff (m : Mode) (t : List Char) :
    (m.reindent (m.reindent t) = m.reindent t ↔
      ∀ l ∈ Text.endedLines t, ¬(Text.allBlank l = false ∧ l.getLast? = some '\r')) ∧
    (¬Text.doubleReturn <:+: t → m.reindent (m.reindent t) = m.reindent t) := by
  obtain ⟨ls, tail, rfl, hls, ht⟩ := Text.exists_eq_unlines_append t
  have hcut := Text.not_mem_of_mem_map_dropReturn hls
  have hiff : m.reindent (m.reindent (Text.unlines ls ++ tail)) = m.reindent (Text.unlines ls ++ tail) ↔
      ∀ l ∈ Text.endedLines (Text.unlines ls ++ tail),
        ¬(Text.allBlank l = false ∧ l.getLast? = some '\r') := by
    rw [m.reindent_unlines_append hls ht, Text.endedLines_unlines_append hls ht,
      ← m.reindentFrom_getLast?_ne_iff (m.start 0)]
    exact m.reindent_unlines_append_eq_self_iff hcut ht
  refine ⟨hiff, fun hr => hiff.mpr ?_⟩
  rw [Text.endedLines_unlines_append hls ht]
  exact fun l hl h => Text.getLast?_dropReturn_ne hr l hl h.2

end Mode

end BraceMode
