import BraceMode.Proofs.Resumption
import BraceMode.Proofs.Rewritten
import BraceMode.Proofs.TabStops

/-! Columns stay in range. Re-indenting feeds back: a suggestion widens a line, its brackets are read in the
widened line, and their columns are the next suggestions. But a suggestion is at most one unit beyond what is
kept already, and behind it a line adds no more than a tab for each of its characters. So `reach`, a unit for
every line and a tab for every character, bounds all columns that the lines so far have brought about, and
where the reach of a whole text can be held, nothing is ever cut off on the way. -/

namespace BraceMode

structure Frame.Within (low high : Int) (f : Frame) : Prop where
  indented : low ≤ f.indented ∧ f.indented ≤ high
  column : low ≤ f.column ∧ f.column ≤ high

structure State.Within (low high : Int) (s : State) : Prop where
  frames : ∀ f ∈ s.nesting.toList, f.Within low high
  indented : low ≤ s.indented ∧ s.indented ≤ high

/-- A step of the loop that reads a line, when it starts at the given cursor and state: the two widths that it
may ask for need no clamping, and the columns kept before, in and behind it are at least that of a root. -/
structure Mode.StepsInRange (m : Mode) (c : Cursor) (s : State) : Prop where
  indentation : (Host.faithful m.tabSize).indentation c.mark ≤ maxColumn
  column : (Host.faithful m.tabSize).column (m.step (.faithful m.tabSize) c.mark s).cursor ≤ maxColumn
  before : s.Within (-m.indentUnit) maxColumn
  ready : (Mode.prepare (.faithful m.tabSize) c.mark s).Within (-m.indentUnit) maxColumn
  after : (m.step (.faithful m.tabSize) c.mark s).state.Within (-m.indentUnit) maxColumn

/-- The columns that re-indented lines can get to: a unit for each line, a tab for each character. -/
def Mode.reach (m : Mode) (ts : List (List Char)) : Nat :=
  m.tabSize * ts.flatten.length + m.indentUnit * ts.length

/-! ## Frames and states -/

theorem clampColumn_within (n : Nat) : 0 ≤ clampColumn n ∧ clampColumn n ≤ n := by
  unfold clampColumn
  omega

namespace Nesting

variable {P : Frame → Prop} {n : Nesting}

theorem forall_mem_toList : (∀ f ∈ n.toList, P f) ↔ P n.root ∧ ∀ f ∈ n.inner, P f := by
  simp [toList]

theorem forall_mem_modifyTop {g : Frame → Frame} (hg : ∀ f, P f → P (g f)) (h : ∀ f ∈ n.toList, P f) :
    ∀ f ∈ (n.modifyTop g).toList, P f := by
  obtain ⟨root, inner⟩ := n
  rw [forall_mem_toList] at h ⊢
  cases inner with
  | nil => exact ⟨hg root h.1, h.2⟩
  | cons f fs =>
    obtain ⟨hf, hfs⟩ := List.forall_mem_cons.mp h.2
    exact ⟨h.1, List.forall_mem_cons.mpr ⟨hg f hf, hfs⟩⟩

theorem top_mem_toList (n : Nesting) : n.top ∈ n.toList := by
  obtain ⟨root, inner⟩ := n
  cases inner with
  | nil => exact List.mem_cons_self
  | cons f fs => simp [toList, top]

end Nesting

namespace Frame.Within

variable {low high high' : Int} {f : Frame}

theorem mono (h : f.Within low high) (hle : high ≤ high') : f.Within low high' :=
  ⟨⟨h.indented.1, Int.le_trans h.indented.2 hle⟩, ⟨h.column.1, Int.le_trans h.column.2 hle⟩⟩

theorem anchor (h : f.Within low high) : low ≤ f.anchor ∧ f.anchor ≤ high :=
  Frame.anchor_of_both (P := fun x => low ≤ x ∧ x ≤ high) h.indented h.column

/-- A frame suggests a column that is at most a unit beyond its own. -/
theorem columnFor_le (h : f.Within low high) (hlow : -(maxColumn : Int) - 1 ≤ low) (unit : Nat)
    (t : List Char) : f.columnFor unit t ≤ high + unit := by
  have hindented := h.indented.2
  have hanchor := h.anchor
  have hwrap : wrapColumn (f.anchor + unit) ≤ f.anchor + unit := wrapColumn_le (by omega)
  unfold columnFor
  split
  · omega
  · split <;> omega

end Frame.Within

namespace State.Within

variable {low high high' : Int} {s : State}

theorem mono (h : s.Within low high) (hle : high ≤ high') : s.Within low high' :=
  ⟨fun f hf => (h.frames f hf).mono hle, ⟨h.indented.1, Int.le_trans h.indented.2 hle⟩⟩

theorem modifyTop {g : Frame → Frame} (hg : ∀ f : Frame, f.Within low high → (g f).Within low high)
    (h : s.Within low high) : ({ s with nesting := s.nesting.modifyTop g } : State).Within low high :=
  ⟨Nesting.forall_mem_modifyTop hg h.frames, h.indented⟩

theorem startLine {indentation : Int} (hin : low ≤ indentation ∧ indentation ≤ high)
    (h : s.Within low high) : (s.startLine indentation).Within low high :=
  ⟨Nesting.forall_mem_modifyTop (fun _ hf => ⟨hf.indented, hf.column⟩) h.frames, hin⟩

theorem apply {column : Int} (hin : low ≤ column ∧ column ≤ high) (h : s.Within low high)
    (change : Change) : (s.apply column change).Within low high := by
  cases change with
  | keep => exact h
  | relabel => exact h.modifyTop fun _ hf => ⟨hf.indented, hf.column⟩
  | push kind =>
    refine ⟨fun f hf => ?_, h.indented⟩
    rw [State.apply, Nesting.toList_push, List.mem_append, List.mem_singleton] at hf
    rcases hf with hf | rfl
    · exact h.frames f hf
    · exact ⟨h.indented, hin⟩
  | pop =>
    obtain ⟨region, ⟨root, inner⟩, indented, fresh⟩ := s
    cases inner with
    | nil => exact h
    | cons f fs =>
      obtain ⟨hroot, hinner⟩ := Nesting.forall_mem_toList.mp h.frames
      obtain ⟨hf, hfs⟩ := List.forall_mem_cons.mp hinner
      refine ⟨Nesting.forall_mem_toList.mpr ⟨hroot, hfs⟩, ?_⟩
      simp only [State.apply, Nesting.pop?]
      split
      · exact hf.indented
      · exact h.indented

theorem absorb {column : Int} (hin : low ≤ column ∧ column ≤ high) (h : s.Within low high) (l : Lexeme) :
    (Mode.absorb column l s).1.Within low high := by
  have hentered : (s.enter l.entered).Within low high := ⟨h.frames, h.indented⟩
  have haligned : (s.enter l.entered).align.Within low high :=
    hentered.modifyTop fun _ hf => ⟨hf.indented, hf.column⟩
  unfold Mode.absorb
  split
  · exact hentered
  · have happlied := haligned.apply hin ((s.enter l.entered).align.change l.mark)
    exact ⟨happlied.frames, happlied.indented⟩

end State.Within

/-! ## One step -/

namespace Host

/-- No column of a line lies beyond its width. -/
theorem column_le_fullWidth (tabSize : Nat) (c : Cursor) :
    (faithful tabSize).column c ≤ Text.fullWidth (max 1 tabSize) c.line := by
  rw [Cursor.line, List.append_assoc]
  exact Nat.le_trans (Text.width_le_fullWidth tabSize _) (Text.fullWidth_le_append (by omega) _ _)

theorem indentation_le_fullWidth (tabSize : Nat) (c : Cursor) :
    (faithful tabSize).indentation c ≤ Text.fullWidth (max 1 tabSize) c.line := by
  have h := Text.fullWidth_le_append (show 0 < max 1 tabSize by omega) (Text.lead c.line)
    (Text.trimStart c.line)
  rw [Text.lead_append_trimStart] at h
  exact Nat.le_trans (Text.width_le_fullWidth tabSize _) h

end Host

namespace Mode

variable (m : Mode) {low : Int} {high : Nat} {c : Cursor} {s : State}

theorem within_prepare {h : Host} (hlow : low ≤ 0) (hindentation : h.indentation c ≤ high)
    (hs : s.Within low high) : (prepare h c s).Within low high := by
  have hin := clampColumn_within (h.indentation c)
  unfold prepare
  split
  · exact hs.startLine (by omega)
  · exact hs

theorem markColumn_within (h : Host) (c : Cursor) (l : Lexeme) :
    0 ≤ markColumn h c l ∧ markColumn h c l ≤ h.column c := by
  have hin := clampColumn_within (h.column c)
  unfold markColumn
  split <;> omega

/-- A step keeps columns that are no larger than those kept before it and those that it asks for. -/
theorem within_step {h : Host} (hlow : low ≤ 0) (hindentation : h.indentation c ≤ high)
    (hcolumn : h.column (m.step h c s).cursor ≤ high) (hs : s.Within low high) :
    (m.step h c s).state.Within low high := by
  have hready := within_prepare hlow hindentation hs
  simp only [step] at hcolumn ⊢
  split at hcolumn
  · rename_i hblank
    rw [if_pos hblank]
    exact hready
  · rename_i hblank
    rw [if_neg hblank]
    obtain ⟨hnonneg, hle⟩ := markColumn_within h (c.advance _) _
    exact hready.absorb ⟨Int.le_trans hlow hnonneg, Int.le_trans hle (Int.ofNat_le.mpr hcolumn)⟩ _

/-- What a step of the loop may ask for is no larger than the line is wide. -/
theorem asked_le_fullWidth (c : Cursor) (s : State) :
    (Host.faithful m.tabSize).indentation c.mark ≤ Text.fullWidth m.tabSize c.line ∧
      (Host.faithful m.tabSize).column (m.step (.faithful m.tabSize) c.mark s).cursor ≤
        Text.fullWidth m.tabSize c.line := by
  have hindentation := Host.indentation_le_fullWidth m.tabSize c.mark
  have hcolumn := Host.column_le_fullWidth m.tabSize (m.step (.faithful m.tabSize) c.mark s).cursor
  rw [line_step] at hcolumn
  rw [m.max_tabSize, Cursor.line_mark] at hindentation hcolumn
  exact ⟨hindentation, hcolumn⟩

theorem within_step_mark (hlow : low ≤ 0) (hwidth : Text.fullWidth m.tabSize c.line ≤ high)
    (hs : s.Within low high) : (m.step (.faithful m.tabSize) c.mark s).state.Within low high := by
  obtain ⟨hindentation, hcolumn⟩ := m.asked_le_fullWidth c s
  exact m.within_step hlow (Nat.le_trans hindentation hwidth) (Nat.le_trans hcolumn hwidth) hs

theorem stepsInRange (hwidth : Text.fullWidth m.tabSize c.line ≤ maxColumn)
    (hs : s.Within (-m.indentUnit) maxColumn) : m.StepsInRange c s := by
  obtain ⟨hindentation, hcolumn⟩ := m.asked_le_fullWidth c s
  have hlow : -(m.indentUnit : Int) ≤ 0 := by omega
  exact {
    indentation := Nat.le_trans hindentation hwidth
    column := Nat.le_trans hcolumn hwidth
    before := hs
    ready := within_prepare hlow (Nat.le_trans hindentation hwidth) hs
    after := m.within_step_mark hlow hwidth hs }

/-! ## One line -/

theorem within_readSome (hlow : low ≤ 0) (hwidth : Text.fullWidth m.tabSize c.line ≤ high)
    (hs : s.Within low high) (n : Nat) :
    (m.readSome (.faithful m.tabSize) n c s).2.Within low high := by
  induction n generalizing c s with
  | zero => exact hs
  | succ n ih =>
    refine ih ?_ (m.within_step_mark hlow hwidth hs)
    rwa [line_step, Cursor.line_mark]

theorem within_readAll (hlow : low ≤ 0) (hwidth : Text.fullWidth m.tabSize c.line ≤ high)
    (hs : s.Within low high) : (m.readAll (.faithful m.tabSize) c s).state.Within low high := by
  fun_induction readAll m (.faithful m.tabSize) c s with
  | case1 => exact hs
  | case2 c s _ next => exact m.within_step_mark hlow hwidth hs
  | case3 c s _ next _ _ more ih =>
    refine ih ?_ (m.within_step_mark hlow hwidth hs)
    rwa [line_step, Cursor.line_mark]

theorem suggest_le {t : List Char} {column : Int} (hs : s.Within (-m.indentUnit) high)
    (h : m.suggest s t = some column) : column ≤ high + m.indentUnit := by
  have hunit := m.indentUnit_le
  unfold suggest at h
  split at h
  · rw [← Option.some.inj h]
    refine (hs.frames _ s.nesting.top_mem_toList).columnFor_le ?_ m.indentUnit _
    unfold maxWidth at hunit
    unfold maxColumn
    omega
  · cases h

/-- A line is written within a unit of the columns kept, and a tab for each character. -/
theorem fullWidth_reindentLine_le (hs : s.Within (-m.indentUnit) high) (t : List Char) :
    Text.fullWidth m.tabSize (m.reindentLine s t) ≤ high + m.reach [t] := by
  have hreach : m.reach [t] = m.tabSize * t.length + m.indentUnit := by simp [reach]
  rw [hreach]
  obtain ⟨-, hw⟩ | ⟨-, -, hw⟩ | ⟨column, -, hsome, hw⟩ := m.reindentLine_cases s t
  · rw [hw, Text.fullWidth_nil]
    omega
  · have hwidth := Text.fullWidth_append_le m.tabSize_pos [] t
    rw [Text.fullWidth_nil, List.nil_append] at hwidth
    rw [hw]
    omega
  · have hspaces := m.suggest_le hs hsome
    have hwidth := Text.fullWidth_append_le m.tabSize_pos (List.replicate column.toNat ' ')
      (Text.trimStart t)
    have hcontent : m.tabSize * (Text.trimStart t).length ≤ m.tabSize * t.length :=
      Nat.mul_le_mul_left _ (List.dropWhile_suffix Text.isBlank).length_le
    rw [Text.fullWidth_replicate] at hwidth
    rw [hw, indentTo]
    omega

/-! ## Line after line -/

theorem reach_cons (t : List Char) (ts : List (List Char)) : m.reach (t :: ts) = m.reach [t] + m.reach ts := by
  simp only [reach, List.flatten_cons, List.flatten_nil, List.length_append, List.length_cons,
    List.length_nil, Nat.mul_add]
  omega

theorem reach_append (ts us : List (List Char)) : m.reach (ts ++ us) = m.reach ts + m.reach us := by
  induction ts with
  | nil => simp [reach]
  | cons t ts ih =>
    rw [List.cons_append, reach_cons, ih, m.reach_cons t ts]
    omega

/-- Lines that are re-indented keep to their reach. -/
theorem within_feed_reindentFrom (hs : s.Within (-m.indentUnit) high) (ts : List (List Char)) :
    (m.feed s (m.reindentFrom s ts)).Within (-m.indentUnit) ((high + m.reach ts : Nat) : Int) := by
  have hlow : -(m.indentUnit : Int) ≤ 0 := by omega
  induction ts generalizing s high with
  | nil => exact hs.mono (by omega)
  | cons t ts ih =>
    have hwidth := m.fullWidth_reindentLine_le hs t
    have hwider : s.Within (-m.indentUnit) ((high + m.reach [t] : Nat) : Int) := hs.mono (by omega)
    have hread := m.within_readAll (c := .ofLine (m.reindentLine s t)) hlow hwidth hwider
    rw [reach_cons, ← Nat.add_assoc, reindentFrom_cons, feed_cons]
    exact ih hread

theorem within_start : (m.start 0).Within (-m.indentUnit) ((0 : Nat) : Int) := by
  rw [m.start_zero]
  refine ⟨fun f hf => ?_, by simp only [State.start]; omega⟩
  obtain rfl : f = .root (-m.indentUnit) := List.mem_singleton.mp hf
  constructor <;> simp only [Frame.root] <;> omega

/-- **No column is cut off** while a text is re-indented whose characters, as tabs, and lines, as units, make
up a column that can be held. In the state in which a line is rewritten, a unit may be added to either column
of the top frame; and in every step in which the rewritten line is read, and behind the last one, all columns
are kept as they are and none is less than that of the root. -/
theorem reindent_columns_in_range {t : List Char}
    (hsize : m.tabSize * t.length + m.indentUnit * (Text.lines t).length ≤ maxColumn) :
    (∀ above l below, Text.lines t = above ++ l :: below →
      let s := m.feed (m.start 0) (m.reindentFrom (m.start 0) above)
      HoldsColumn (s.nesting.top.column + m.indentUnit) ∧
        HoldsColumn (s.nesting.top.indented + m.indentUnit) ∧
        ∀ n,
          let place := m.readSome (.faithful m.tabSize) n (.ofLine (m.reindentLine s l)) s
          m.StepsInRange place.1 place.2) ∧
      (m.feed (m.start 0) (m.reindentFrom (m.start 0) (Text.lines t))).Within (-m.indentUnit) maxColumn := by
  have hlow : -(m.indentUnit : Int) ≤ 0 := by omega
  have hreach : m.reach (Text.lines t) ≤ maxColumn := by
    have hchars := Nat.mul_le_mul_left m.tabSize (Text.length_flatten_lines_le t)
    unfold reach
    omega
  refine ⟨fun above l below hlines => ?_, ?_⟩
  · intro s
    have hs : s.Within (-m.indentUnit) _ := m.within_feed_reindentFrom m.within_start above
    have hbound : m.reach above + m.reach [l] ≤ maxColumn := by
      rw [hlines, reach_append, reach_cons] at hreach
      omega
    have hunit : m.indentUnit ≤ m.reach [l] := by
      simp [reach]
    have htop := hs.frames _ s.nesting.top_mem_toList
    obtain ⟨hindentedLow, hindented⟩ := htop.indented
    obtain ⟨hcolumnLow, hcolumn⟩ := htop.column
    have hwidth := m.fullWidth_reindentLine_le hs l
    have hkept : s.Within (-m.indentUnit) maxColumn := hs.mono (by omega)
    refine ⟨by unfold HoldsColumn; omega, by unfold HoldsColumn; omega, fun n => ?_⟩
    refine m.stepsInRange ?_ (m.within_readSome hlow ?_ hkept n)
    · rw [line_readSome, Cursor.line_ofLine]
      omega
    · rw [Cursor.line_ofLine]
      omega
  · exact (m.within_feed_reindentFrom m.within_start (Text.lines t)).mono (by omega)

/-- The second line lines up with a bracket of the first, so its own bracket is where the suggestion put it. -/
theorem reindent_columns_in_range_fed_back :
    let m : Mode := { indentUnit := 64, tabSize := 64 }
    let t := "f(\ta\n\tg(\tb\n\t\th))".toList
    let s := m.feed (m.start 0) (m.reindentFrom (m.start 0) ["f(\ta".toList, "\tg(\tb".toList])
    m.tabSize * t.length + m.indentUnit * (Text.lines t).length ≤ maxColumn ∧
      s.nesting.top.column = 66 ∧ HoldsColumn (s.nesting.top.column + m.indentUnit) ∧
      m.StepsInRange (.ofLine (m.reindentLine s "\t\th))".toList)) s := by
  intro m t s
  have hsize : m.tabSize * t.length + m.indentUnit * (Text.lines t).length ≤ maxColumn := by decide +kernel
  obtain ⟨hlines, -⟩ := m.reindent_columns_in_range hsize
  obtain ⟨hcolumn, -, hsteps⟩ := hlines ["f(\ta".toList, "\tg(\tb".toList] "\t\th))".toList [] (by decide +kernel)
  exact ⟨hsize, by decide +kernel, hcolumn, hsteps 0⟩

end Mode

end BraceMode
