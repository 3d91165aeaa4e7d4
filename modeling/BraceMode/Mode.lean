import BraceMode.Layout.State
import BraceMode.Settings

/-! A mode holds what stays fixed while a buffer is edited. Its widths are in range by construction, so
everything said of a mode holds for accepted settings and for no others. -/

namespace BraceMode

structure Mode where
  indentUnit : Nat := 2
  tabSize : Nat := 4
  vocabulary : Vocabulary := .basic
  indentUnit_inRange : Settings.inRange indentUnit = true := by decide
  tabSize_inRange : Settings.inRange tabSize = true := by decide

namespace Mode

/-- The mode for the given settings, or the width that forbids it. -/
def ofSettings (s : Settings) : Except Settings.OutOfRange Mode :=
  match h : s.fault? with
  | some e => .error e
  | none => .ok {
      indentUnit := s.indentUnit
      tabSize := s.tabSize
      vocabulary := Vocabulary.basic.extend s.extraKeywords s.extraAtoms
      indentUnit_inRange := ((Settings.fault?_eq_none_iff s).mp h).1
      tabSize_inRange := ((Settings.fault?_eq_none_iff s).mp h).2 }

/-- The state of a fresh buffer whose outermost lines stand at column `base`. -/
def start (m : Mode) (base : Int) : State := .start (wrapColumn (base - m.indentUnit))

theorem tabSize_pos (m : Mode) : 0 < m.tabSize := by
  have := m.tabSize_inRange
  simp only [Settings.inRange, Bool.and_eq_true, decide_eq_true_eq] at this
  omega

theorem max_tabSize (m : Mode) : max 1 m.tabSize = m.tabSize := by
  have := m.tabSize_pos
  omega

theorem indentUnit_pos (m : Mode) : 0 < m.indentUnit := by
  have := m.indentUnit_inRange
  simp only [Settings.inRange, Bool.and_eq_true, decide_eq_true_eq] at this
  omega

theorem indentUnit_le (m : Mode) : m.indentUnit ≤ maxWidth := by
  have := m.indentUnit_inRange
  simp only [Settings.inRange, Bool.and_eq_true, decide_eq_true_eq] at this
  omega

/-- The root of a buffer whose outermost lines stand at the first column. -/
theorem start_zero (m : Mode) : m.start 0 = .start (-m.indentUnit) := by
  have hunit := m.indentUnit_le
  unfold maxWidth at hunit
  rw [start, Int.zero_sub, wrapColumn_of_holds]
  unfold HoldsColumn maxColumn
  omega

end Mode

end BraceMode
