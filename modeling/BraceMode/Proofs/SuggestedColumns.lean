import BraceMode.Proofs.SameTokens

/-! The rewritten text stands where it is suggested to stand. While a text is rewritten, the column of a line
is suggested in the state that the lines written before it leave. Reading the finished text passes through
the same states, since it reads the same lines; and a line is suggested the same column before and after
it is moved. So every line, looked at afresh, is where its suggestion says. -/

namespace BraceMode.Mode

variable (m : Mode)

/-! ## One line -/

/-- Moving a line does not change what is suggested for it. -/
theorem suggest_reindentLine (s : State) (l : List Char) :
    m.suggest s (m.reindentLine s l) = m.suggest s l := by
  rw [← m.suggest_trimStart s (m.reindentLine s l), trimStart_reindentLine, suggest_trimStart]

theorem allBlank_reindentLine (s : State) (l : List Char) :
    Text.allBlank (m.reindentLine s l) = Text.allBlank l := by
  rw [Bool.eq_iff_iff, ← Text.trimStart_eq_nil_iff, ← Text.trimStart_eq_nil_iff, trimStart_reindentLine]

/-- A line that is not blank is written where it is suggested, or as it is when nothing is suggested. -/
theorem reindentLine_of_suggest (s : State) {l : List Char} (hc : Text.allBlank l = false) :
    match m.suggest s (m.reindentLine s l) with
    | some column =>
      m.reindentLine s l = List.replicate (max column 0).toNat ' ' ++ Text.trimStart l
    | none => m.reindentLine s l = l := by
  have hne := (Text.not_allBlank_iff l).mp hc
  rw [suggest_reindentLine]
  obtain ⟨hblank, -⟩ | ⟨-, hs, hw⟩ | ⟨column, -, hs, hw⟩ := m.reindentLine_cases s l
  · exact absurd hblank hne
  · rw [hs]
    exact hw
  · have hspaces : (max column 0).toNat = column.toNat := by omega
    rw [hs]
    simp only [hspaces]
    exact hw

/-! ## Line after line -/

/-- A line is read in the state that the lines before it leave. -/
theorem getElem?_highlightFrom (s : State) (ts : List (List Char)) (i : Nat) :
    (m.highlightFrom s ts)[i]? = ts[i]?.map (m.highlightLine (m.feed s (ts.take i))) := by
  induction ts generalizing s i with
  | nil => rfl
  | cons t ts ih =>
    cases i with
    | zero => rfl
    | succ i => exact ih _ i

/-- A line is written in the state that the lines written before it leave. -/
theorem getElem?_reindentFrom (s : State) (ts : List (List Char)) (i : Nat) :
    (m.reindentFrom s ts)[i]? = ts[i]?.map (m.reindentLine (m.feed s ((m.reindentFrom s ts).take i))) := by
  induction ts generalizing s i with
  | nil => rfl
  | cons t ts ih =>
    cases i with
    | zero => rfl
    | succ i => exact ih _ i

/-! ## The whole text -/

/-- In the finished text a line is read in the state in which it was written. -/
theorem exists_state_of_getElem?_lines_reindent {t : List Char} (hr : ¬Text.doubleReturn <:+: t)
    {i : Nat} {w : List Char} (hw : (Text.lines (m.reindent t))[i]? = some w) :
    ∃ s l, (Text.lines t)[i]? = some l ∧ w = m.reindentLine s l ∧
      (m.highlight (m.reindent t))[i]? = some (m.highlightLine s w) := by
  obtain ⟨extra, hwritten, -⟩ := m.exists_reindentFrom_lines t hr
  have hi : i < (Text.lines (m.reindent t)).length := (List.getElem?_eq_some_iff.mp hw).1
  -- The lines written before this one are the first lines of the finished text: both runs feed the same.
  have hat := m.getElem?_reindentFrom (m.start 0) (Text.lines t) i
  rw [hwritten, List.getElem?_append_left hi, hw, List.take_append_of_le_length (Nat.le_of_lt hi)] at hat
  obtain ⟨l, hl, hline⟩ := Option.map_eq_some_iff.mp hat.symm
  refine ⟨_, l, hl, hline.symm, ?_⟩
  rw [highlight, getElem?_highlightFrom, hw]
  rfl

/-- A line that is not blank is written somewhere. -/
theorem exists_getElem?_lines_reindent {t : List Char} (hr : ¬Text.doubleReturn <:+: t) {i : Nat}
    {l : List Char} (hl : (Text.lines t)[i]? = some l) (hc : Text.allBlank l = false) :
    ∃ w, (Text.lines (m.reindent t))[i]? = some w := by
  obtain ⟨hi, hat⟩ := List.getElem?_eq_some_iff.mp hl
  have hsplit : Text.lines t = (Text.lines t).take i ++ l :: (Text.lines t).drop (i + 1) := by
    rw [← hat, List.getElem_cons_drop, List.take_append_drop]
  have hw := m.getElem?_lines_reindent hr hsplit hc
  rw [List.length_take_of_le (Nat.le_of_lt hi)] at hw
  exact ⟨_, hw⟩

theorem length_lines_reindent {t : List Char} (hr : ¬Text.doubleReturn <:+: t) :
    (Text.lines (m.reindent t)).length + (if Text.endsBlank t then 1 else 0) = (Text.lines t).length := by
  obtain ⟨extra, hcontent, hextra⟩ := m.exists_content_highlight_reindent t hr
  have hlen := congrArg List.length hcontent
  simp only [List.length_map, List.length_append, hextra, highlight, length_highlightFrom] at hlen
  exact hlen.symm

theorem endsLine_reindent {t : List Char} (h : Text.endsLine t = true) :
    Text.endsLine (m.reindent t) = true := by
  obtain ⟨ls, tail, rfl, hls, ht⟩ := Text.exists_eq_unlines_append t
  obtain ⟨hne, rfl⟩ := (Text.endsLine_unlines_append ht).mp h
  rw [m.reindent_unlines_append hls ht]
  simp only [reindentLine_nil]
  refine (Text.endsLine_unlines_append ht).mpr ⟨?_, rfl⟩
  rwa [ne_eq, ← List.length_eq_zero_iff, length_reindentFrom, List.length_map, List.length_eq_zero_iff]

/-- **The rewritten text obeys its own suggestions**, where no line feed stands behind two carriage returns.
It has the lines of the source, but for a last one that is blank and not ended by a line feed. Blank lines
stay blank. A line that is not blank is its content behind as many spaces as the finished text suggests
for it, none for a negative column; where nothing is suggested, it is the source line itself. And a text
that ends with a line feed keeps it. -/
theorem reindent_obeys_suggestions (t : List Char) (hr : ¬Text.doubleReturn <:+: t) :
    let source := Text.lines t
    let written := Text.lines (m.reindent t)
    let shown := m.highlight (m.reindent t)
    written.length + (if Text.endsBlank t then 1 else 0) = source.length ∧
      (∀ (i : Nat) (l w : List Char), source[i]? = some l → written[i]? = some w →
        Text.allBlank w = Text.allBlank l) ∧
      (∀ (i : Nat) (l : List Char), source[i]? = some l → Text.allBlank l = false →
        ∃ (w : List Char) (line : HighlightedLine), written[i]? = some w ∧ shown[i]? = some line ∧
          match line.indent with
          | some column => w = List.replicate (max column 0).toNat ' ' ++ Text.trimStart l
          | none => w = l) ∧
      (Text.endsLine t = true → Text.endsLine (m.reindent t) = true) := by
  refine ⟨m.length_lines_reindent hr, ?_, ?_, m.endsLine_reindent⟩
  · intro i l w hl hw
    obtain ⟨s, l', hl', rfl, -⟩ := m.exists_state_of_getElem?_lines_reindent hr hw
    obtain rfl : l = l' := Option.some.inj (hl.symm.trans hl')
    exact m.allBlank_reindentLine s l
  · intro i l hl hc
    obtain ⟨w, hw⟩ := m.exists_getElem?_lines_reindent hr hl hc
    obtain ⟨s, l', hl', rfl, hshown⟩ := m.exists_state_of_getElem?_lines_reindent hr hw
    obtain rfl : l = l' := Option.some.inj (hl.symm.trans hl')
    exact ⟨_, _, hw, hshown, m.reindentLine_of_suggest s hc⟩

/-- A line that lines up with a bracket, one inside a comment, and a blank last line. -/
theorem reindent_obeys_suggestions_aligned :
    let m : Mode := {}
    let t := "f(a,\n\tb /* c\n d */ \x7b\n\x7d)\r\n\t".toList
    ¬Text.doubleReturn <:+: t ∧
      (Text.lines (m.reindent t)).length + 1 = (Text.lines t).length ∧
      (m.highlight (m.reindent t)).map HighlightedLine.indent = [some 0, some 3, none, some 1] ∧
      (Text.lines (m.reindent t))[1]? = some "   b /* c".toList ∧
      (Text.lines (m.reindent t))[2]? = some " d */ \x7b".toList := by
  intro m t
  have hr : ¬Text.doubleReturn <:+: t := by decide +kernel
  have hends : Text.endsBlank t = true := by decide +kernel
  have hindents : (m.highlight (m.reindent t)).map HighlightedLine.indent =
      [some 0, some 3, none, some 1] := by decide +kernel
  have hindent (i : Nat) {line : HighlightedLine} (h : (m.highlight (m.reindent t))[i]? = some line) :
      [some 0, some 3, none, some 1][i]? = some line.indent := by
    rw [← hindents, List.getElem?_map, h]
    rfl
  obtain ⟨hlen, -, hlines, -⟩ := m.reindent_obeys_suggestions t hr
  rw [hends] at hlen
  obtain ⟨w, line, hw, hline, hmoved⟩ := hlines 1 "\tb /* c".toList (by decide +kernel) (by decide +kernel)
  obtain ⟨w', line', hw', hline', hkept⟩ := hlines 2 " d */ \x7b".toList (by decide +kernel)
    (by decide +kernel)
  rw [← Option.some.inj (hindent 1 hline)] at hmoved
  rw [← Option.some.inj (hindent 2 hline')] at hkept
  refine ⟨hr, hlen, hindents, ?_, ?_⟩
  · rw [hw, hmoved]
    decide +kernel
  · rw [hw', hkept]

end BraceMode.Mode
