import BraceMode.Proofs.OpenBrackets

/-! Blank lines carry no information. An empty line is not read at all, and a line of blanks does no more than
start a line: it settles the frame on top and notes an indentation. The next line that holds anything starts
in the same way, and what it finds noted it notes anew. So two states are alike when a line started in one
is a line started in the other, and no line can tell them apart, unless a label is shown, which the
suggestion sees and a started line does not. Where no label word is a keyword there is none to be seen. -/

namespace BraceMode

/-- States that are the same once a line has started in them. -/
structure State.Alike (s u : State) : Prop where
  region : s.region = u.region
  nesting : s.nesting.modifyTop .startLine = u.nesting.modifyTop .startLine

/-- The states that a host can bring about: it starts a buffer at any column, and takes steps wherever it
likes, with whatever answers about the line. -/
inductive Mode.Reachable (m : Mode) : State → Prop
  | start (base : Int) : Reachable m (m.start base)
  | step {s} (h : Host) (c : Cursor) : Reachable m s → Reachable m (m.step h c s).state

/-! ## No label is shown -/

namespace State.Plain

variable {s : State}

theorem align (h : s.Plain) : s.align.Plain := by
  refine ⟨s.nesting.root_kind_modifyTop_align.trans h.root, ?_⟩
  show .label ∉ (s.nesting.modifyTop .align).inner.map Frame.kind
  rw [s.nesting.kinds_modifyTop_align]
  exact h.inner

theorem push (h : s.Plain) (column : Int) {kind : FrameKind} (hkind : kind ≠ .label) :
    (s.apply column (.push kind)).Plain :=
  ⟨h.root, List.not_mem_cons_of_ne_of_not_mem hkind.symm h.inner⟩

theorem pop (h : s.Plain) (column : Int) : (s.apply column .pop).Plain := by
  obtain ⟨region, ⟨root, inner⟩, indented, fresh⟩ := s
  cases inner with
  | nil => exact h
  | cons f fs => exact ⟨h.root, List.not_mem_of_not_mem_cons h.inner⟩

/-- A mark that is no label shows none. -/
theorem apply_change (h : s.Plain) (column : Int) {mark : Option Mark} (hmark : mark ≠ some .label) :
    (s.apply column (s.change mark)).Plain := by
  cases mark with
  | none => exact h
  | some mark =>
    cases mark with
    | label => exact absurd rfl hmark
    | punct p =>
      simp only [State.change, Option.map_some, Option.getD_some, Mark.change]
      split
      · rename_i kind hopen
        refine h.push column ?_
        rintro rfl
        cases p <;> cases hopen
      · split
        · exact h.pop column
        · exact h

theorem absorb (h : s.Plain) (column : Int) {l : Lexeme} (hmark : l.mark ≠ some .label) :
    (Mode.absorb column l s).1.Plain := by
  have hentered : (s.enter l.entered).Plain := ⟨h.root, h.inner⟩
  unfold Mode.absorb
  split
  · exact hentered
  · obtain ⟨hroot, hinner⟩ := hentered.align.apply_change column hmark
    exact ⟨hroot, hinner⟩

end State.Plain

theorem Lexeme.mark_read_ne_label {v : Vocabulary} (hv : v.Unlabelled) (kept : List Char) (r : Region)
    (t : List Char) : (read v kept r t).mark ≠ some .label := by
  cases t with
  | nil => cases r <;> simp [read, ofCode, ofLiteral, ofComment]
  | cons c t =>
    rcases read_cases hv kept r c t with ⟨p, -, hl⟩ | ⟨-, hnone⟩
    · simp [hl]
    · simp [hnone]

namespace Mode

variable {m : Mode}

theorem plain_step (hv : m.vocabulary.Unlabelled) (h : Host) (c : Cursor) {s : State} (hs : s.Plain) :
    (m.step h c s).state.Plain := by
  have hready : (prepare h c s).Plain := by
    unfold prepare
    split
    · exact (hs.startLine _).2
    · exact hs
  simp only [step]
  split
  · exact hready
  · exact hready.absorb _ (Lexeme.mark_read_ne_label hv _ _ _)

namespace Reachable

variable {s : State}

theorem plain (hv : m.vocabulary.Unlabelled) (h : m.Reachable s) : s.Plain := by
  induction h with
  | start base => exact m.start_plain base
  | step host c _ ih => exact plain_step hv host c ih

theorem readAll (h : m.Reachable s) (host : Host) (c : Cursor) : m.Reachable (m.readAll host c s).state := by
  fun_induction Mode.readAll m host c s with
  | case1 => exact h
  | case2 c s => exact h.step host c.mark
  | case3 c s _ _ _ _ _ ih => exact ih (h.step host c.mark)

/-- What is reachable stays so line after line. -/
theorem readLine (h : m.Reachable s) (t : List Char) : m.Reachable (m.readLine s t).state :=
  h.readAll _ _

end Reachable

end Mode

/-! ## Lines that cannot tell states apart -/

/-- A line that has started changes the suggestion of a frame only where it ends a label. -/
theorem Frame.columnFor_startLine {f : Frame} (h : f.kind ≠ .label) (unit : Int) (t : List Char) :
    f.startLine.columnFor unit t = f.columnFor unit t := by
  have haligned : f.startLine.alignment.isAligned = f.alignment.isAligned := by
    simp only [startLine]
    cases f.alignment <;> rfl
  have hanchor : f.startLine.anchor = f.anchor := by
    rw [anchor, anchor, haligned]
    rfl
  have hclosed : f.startLine.closedBy t = f.closedBy t := by simp only [closedBy, kind_startLine h]
  simp only [columnFor, kind_startLine h, hanchor, hclosed]
  rfl

namespace State.Alike

variable {s u v : State}

theorem refl (s : State) : s.Alike s := ⟨rfl, rfl⟩

theorem symm (h : s.Alike u) : u.Alike s := ⟨h.region.symm, h.nesting.symm⟩

theorem trans (h : s.Alike u) (h' : u.Alike v) : s.Alike v :=
  ⟨h.region.trans h'.region, h.nesting.trans h'.nesting⟩

/-- A line started in a state is like the state. -/
theorem startLine (s : State) (indentation : Int) : s.Alike (s.startLine indentation) :=
  ⟨rfl, s.nesting.startLine_startLine.symm⟩

theorem lineState_eq (h : s.Alike u) (m : Mode) (t : List Char) : m.lineState s t = m.lineState u t := by
  simp only [Mode.lineState, State.startLine, h.region, h.nesting]

theorem suggest_eq (h : s.Alike u) (hs : s.Plain) (hu : u.Plain) (m : Mode) (t : List Char) :
    m.suggest s t = m.suggest u t := by
  have htop : s.nesting.top.startLine = u.nesting.top.startLine := by
    rw [← s.nesting.top_modifyTop .startLine, h.nesting, u.nesting.top_modifyTop]
  have hcolumn : s.nesting.top.columnFor m.indentUnit (Text.trimStart t) =
      u.nesting.top.columnFor m.indentUnit (Text.trimStart t) := by
    rw [← Frame.columnFor_startLine hs.top_kind_ne, htop, Frame.columnFor_startLine hu.top_kind_ne]
  simp only [Mode.suggest, h.region, hcolumn]

/-- A line that is not empty reads the same in both, and leaves the same state. -/
theorem readLine_eq (h : s.Alike u) (m : Mode) {t : List Char} (ht : t ≠ []) :
    (m.readLine s t).tokens = (m.readLine u t).tokens ∧
      (m.readLine s t).state = (m.readLine u t).state := by
  constructor
  · rw [m.readLine_tokens, m.readLine_tokens, h.region]
  · rw [m.readLine_state s ht, m.readLine_state u ht, h.lineState_eq, h.region]

end State.Alike

/-! ## Blank lines -/

namespace Mode

variable (m : Mode)

/-- A blank line leaves a state that is like the one before it. -/
theorem alike_readLine_of_allBlank (s : State) {t : List Char} (hb : Text.allBlank t = true) :
    s.Alike (m.readLine s t).state := by
  by_cases ht : t = []
  · rw [ht, readLine_nil]
    exact .refl s
  · rw [m.readLine_state_trimStart s ht, (Text.trimStart_eq_nil_iff t).mpr hb, pieces_nil]
    exact .startLine s _

/-- The lines that are not blank look the same with and without the blank ones, from states that are
alike. -/
theorem highlightFrom_filter_of_alike {m : Mode} (hv : m.vocabulary.Unlabelled) {s u : State}
    (hs : m.Reachable s) (hu : m.Reachable u) (h : s.Alike u) (ts : List (List Char)) :
    ((ts.zip (m.highlightFrom s ts)).filter fun p => !Text.allBlank p.1).map Prod.snd =
      m.highlightFrom u (ts.filter fun t => !Text.allBlank t) := by
  induction ts generalizing s u with
  | nil => rfl
  | cons t ts ih =>
    rw [highlightFrom_cons, List.zip_cons_cons]
    cases hb : Text.allBlank t with
    | true =>
      have hnext : (m.readLine s t).state.Alike u := (m.alike_readLine_of_allBlank s hb).symm.trans h
      simpa [hb] using ih (hs.readLine t) hu hnext
    | false =>
      have ht : t ≠ [] := by
        rintro rfl
        cases hb
      obtain ⟨htokens, hstate⟩ := h.readLine_eq m ht
      have hline : m.highlightLine s t = m.highlightLine u t := by
        simp only [highlightLine, htokens, h.suggest_eq (hs.plain hv) (hu.plain hv)]
      have hrest := ih (hs.readLine t) (hu.readLine t) (hstate ▸ .refl _)
      simpa [hb, highlightFrom_cons, hline] using hrest

/-- **Blank lines carry no information.** Where no label word is a keyword, take any lines from any state
that a host can bring about, and leave out the blank ones, those of white space and the empty ones. Then
every other line is suggested the same column and shows the same tokens as before. -/
theorem highlightFrom_without_blank_lines {m : Mode} (hv : m.vocabulary.Unlabelled) {s : State}
    (hs : m.Reachable s) (ts : List (List Char)) :
    m.highlightFrom s (ts.filter fun t => !Text.allBlank t) =
      ((ts.zip (m.highlightFrom s ts)).filter fun p => !Text.allBlank p.1).map Prod.snd :=
  (highlightFrom_filter_of_alike hv hs hs (.refl s) ts).symm

/-- Blank lines of both kinds behind a bracket that nothing has followed yet, and inside a literal that a
backslash carries on. -/
theorem highlightFrom_without_blank_lines_carried :
    let m : Mode := {}
    let s := (m.readLine (m.start 4) "f( // c".toList).state
    let carried := "x = 'a\\".toList
    let closed := " b')".toList
    let lines := [" \t".toList, carried, [], " ".toList, closed, [], "y".toList]
    m.vocabulary.Unlabelled ∧ m.Reachable s ∧
      m.highlightFrom s [carried, closed, "y".toList] =
        ((lines.zip (m.highlightFrom s lines)).filter fun p => !Text.allBlank p.1).map Prod.snd := by
  intro m s carried closed lines
  have hv : m.vocabulary.Unlabelled := by
    intro w hw
    simp only [Vocabulary.labels, List.mem_cons, List.not_mem_nil, or_false] at hw
    rcases hw with rfl | rfl <;> rfl
  have hs : m.Reachable s := (Reachable.start 4).readLine _
  exact ⟨hv, hs, highlightFrom_without_blank_lines hv hs lines⟩

end Mode

end BraceMode
