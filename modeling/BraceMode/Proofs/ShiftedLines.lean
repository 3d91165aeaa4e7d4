import BraceMode.Proofs.Coverage
import BraceMode.Proofs.KeptColumns
import BraceMode.Proofs.SameTokens
import BraceMode.Proofs.TabStops

/-! Suggestions move with the text. Lines moved right by a multiple of the tab size meet every tab stop that
they met before, so each column of theirs is larger by the same amount, and so is each indentation and each
column that a frame keeps. Two numbers do not move. The column of the root is one, and nothing asks for it,
since the root is never aligned; the indentation before the first line is the other, and that line overwrites
it before any bracket is read. What is added to a column may wrap around, in the base, in a suggestion and in
the move itself; it makes no difference in which order, so a suggestion moves as far as a word can say. -/

namespace BraceMode

def Text.moveRight (k : Nat) (t : List Char) : List Char :=
  if t = [] then [] else List.replicate k ' ' ++ t

def Frame.shift (k : Nat) (f : Frame) : Frame :=
  { f with indented := f.indented + k, column := f.column + k }

/-- The frames `k` columns further right; the root has no column that could move, and its indentation, which
nothing clamps, may wrap around. -/
def Nesting.shift (k : Nat) (n : Nesting) : Nesting where
  root := { n.root with indented := wrapColumn (n.root.indented + k) }
  inner := n.inner.map (Frame.shift k)

def State.shift (k : Nat) (s : State) : State :=
  { s with nesting := s.nesting.shift k, indented := s.indented + k }

/-! ## Columns -/

namespace Text

theorem fullWidth_replicate_append {tab k : Nat} (htab : 0 < tab) (hk : tab ∣ k) (t : List Char) :
    fullWidth tab (List.replicate k ' ' ++ t) = k + fullWidth tab t := by
  have hspaces : fullWidth tab (List.replicate k ' ') = k := fullWidth_replicate k
  rw [fullWidth_append_of_dvd htab (hspaces.symm ▸ hk), hspaces]

theorem lead_replicate_append (k : Nat) (t : List Char) :
    lead (List.replicate k ' ' ++ t) = List.replicate k ' ' ++ lead t :=
  List.takeWhile_append_of_pos (List.all_eq_true.mp (allBlank_replicate k))

theorem trimStart_moveRight (k : Nat) (t : List Char) : trimStart (moveRight k t) = trimStart t := by
  unfold moveRight
  split
  · rename_i h
    rw [h]
  · exact trimStart_append_of_allBlank (allBlank_replicate k) t

end Text

/-- The column that is kept of a text moved right. -/
theorem clampColumn_width_replicate_append {tabSize k : Nat} (htab : 0 < tabSize) (hk : tabSize ∣ k)
    {t : List Char} (hfit : k + Text.fullWidth tabSize t ≤ maxColumn) :
    clampColumn (Text.width tabSize (List.replicate k ' ' ++ t)) =
      clampColumn (Text.width tabSize t) + k := by
  have hmax : max 1 tabSize = tabSize := by omega
  have hmoved := Text.fullWidth_replicate_append htab hk t
  have hword : maxColumn < Text.wordSize := by decide
  rw [Text.width_eq_fullWidth (by rw [hmax]; omega), Text.width_eq_fullWidth (by rw [hmax]; omega), hmax,
    hmoved]
  unfold clampColumn
  omega

/-- Two frames of one kind give columns that differ as their indentations and anchors do. -/
theorem Frame.columnFor_add {k : Nat} {f g : Frame} (hkind : g.kind = f.kind)
    (hindented : g.indented = wrapColumn (f.indented + k)) (hanchor : g.anchor = wrapColumn (f.anchor + k))
    (unit : Int) (t : List Char) : g.columnFor unit t = wrapColumn (f.columnFor unit t + k) := by
  have hclosed : g.closedBy t = f.closedBy t := by simp only [closedBy, hkind]
  have hsum : f.anchor + k + unit = f.anchor + unit + k := by omega
  rw [columnFor, columnFor, hkind, hclosed, hanchor, hindented]
  by_cases hlabel : f.kind = .label ∧ startsWithLabel t = true
  · rw [if_pos hlabel, if_pos hlabel]
  · rw [if_neg hlabel, if_neg hlabel]
    split
    · rfl
    · rw [wrapColumn_wrapColumn_add, wrapColumn_wrapColumn_add, hsum]

/-! ## One token -/

namespace Nesting

variable (k : Nat) (n : Nesting)

/-- A change of the top frame that is the same on every column commutes with the shift. -/
theorem modifyTop_shift {g : Frame → Frame} (hinner : ∀ f, g (f.shift k) = (g f).shift k)
    (hroot : ∀ f : Frame, g { f with indented := wrapColumn (f.indented + k) } =
      { g f with indented := wrapColumn ((g f).indented + k) }) :
    (n.shift k).modifyTop g = (n.modifyTop g).shift k := by
  obtain ⟨root, inner⟩ := n
  cases inner with
  | nil => simp [modifyTop, shift, hroot]
  | cons f fs => simp [modifyTop, shift, hinner]

theorem top_kind_shift : (n.shift k).top.kind = n.top.kind := by
  obtain ⟨root, inner⟩ := n
  cases inner <;> rfl

/-- The top frame gives a line a column that is `k` larger. At the root that is so because it hangs. -/
theorem columnFor_shift {root i : Int} (h : Grounded root (n.shift k) i) (unit : Int) (t : List Char) :
    (n.shift k).top.columnFor unit t = wrapColumn (n.top.columnFor unit t + k) := by
  obtain ⟨bottom, inner⟩ := n
  cases inner with
  | nil =>
    have hbottom : bottom.alignment = .hanging := h.hanging
    have hanchor : Frame.anchor { bottom with indented := wrapColumn (bottom.indented + k) } =
        wrapColumn (bottom.anchor + k) := by
      simp [Frame.anchor, hbottom, Alignment.isAligned]
    exact Frame.columnFor_add (f := bottom) (g := { bottom with indented := wrapColumn (bottom.indented + k) })
      rfl rfl hanchor unit t
  | cons f fs =>
    have hmem : f.shift k ∈ (Nesting.shift k ⟨bottom, f :: fs⟩).inner := List.mem_cons_self
    have hindented : IsColumn (f.indented + k) := (h.inner _ hmem).1
    have hanchor : (f.shift k).anchor = f.anchor + k := by
      unfold Frame.anchor Frame.shift
      split <;> rfl
    have hkept : IsColumn (f.anchor + k) := hanchor ▸ h.anchor hmem
    exact Frame.columnFor_add (f := f) (g := f.shift k) rfl (wrapColumn_of_holds hindented.holds).symm
      (hanchor.trans (wrapColumn_of_holds hkept.holds).symm) unit t

end Nesting

namespace State

variable (k : Nat) (s : State)

theorem align_shift : (s.shift k).align = s.align.shift k := by
  simp only [align, shift, s.nesting.modifyTop_shift k (g := .align) (fun _ => rfl) fun _ => rfl]

theorem change_shift (mark : Option Mark) : (s.shift k).change mark = s.change mark := by
  simp only [change, shift, s.nesting.top_kind_shift k]

theorem apply_shift (column : Int) (change : Change) :
    (s.shift k).apply (column + k) change = (s.apply column change).shift k := by
  cases change with
  | push kind => rfl
  | keep => rfl
  | relabel =>
    simp only [apply, shift, s.nesting.modifyTop_shift k (g := fun f => { f with kind := .label })
      (fun _ => rfl) fun _ => rfl]
  | pop =>
    obtain ⟨region, ⟨root, inner⟩, indented, fresh⟩ := s
    cases inner with
    | nil => rfl
    | cons f fs =>
      simp only [apply, shift, Nesting.shift, Nesting.pop?, List.map_cons, Frame.shift]
      split <;> rfl

theorem startLine_shift (indentation : Int) :
    (s.shift k).startLine (indentation + k) = (s.startLine indentation).shift k := by
  simp only [startLine, shift, s.nesting.modifyTop_shift k (g := .startLine) (fun _ => rfl) fun _ => rfl]

end State

/-- A lexeme acts on shifted frames as on the others. Its column is shifted too, if it has any use for it. -/
theorem Mode.absorb_shift {k : Nat} {l : Lexeme} {column column' : Int}
    (hcolumn : l.mark.isSome = true → column' = column + k) (s : State) :
    (absorb column' l (s.shift k)).1 = (absorb column l s).1.shift k := by
  have henter : (s.shift k).enter l.entered = (s.enter l.entered).shift k := rfl
  unfold absorb
  split
  · exact henter
  · simp only [henter, State.align_shift, State.change_shift]
    cases hmark : l.mark with
    | none => rfl
    | some mark =>
      rw [hcolumn (by simp [hmark]), State.apply_shift]
      rfl

/-- One piece. -/
theorem Piece.act_shift {tabSize k : Nat} (htab : 0 < tabSize) (hk : tabSize ∣ k) {before : List Char}
    (hfit : k + Text.fullWidth tabSize before ≤ maxColumn) (p : Piece) (s : State) :
    (p.act tabSize (List.replicate k ' ' ++ before) (s.shift k)).1 = (p.act tabSize before s).1.shift k := by
  unfold act
  cases p.lexeme? with
  | none => rfl
  | some l =>
    refine Mode.absorb_shift (fun hmark => ?_) s
    rw [if_pos hmark, if_pos hmark, clampColumn_width_replicate_append htab hk hfit]

/-- Piece after piece. -/
theorem layOut_shift {tabSize k : Nat} (htab : 0 < tabSize) (hk : tabSize ∣ k) {before : List Char}
    {ps : List Piece} (hfit : k + Text.fullWidth tabSize (before ++ ps.flatMap Piece.text) ≤ maxColumn)
    (s : State) :
    (layOut tabSize (List.replicate k ' ' ++ before) (s.shift k) ps).1 =
      (layOut tabSize before s ps).1.shift k := by
  induction ps generalizing before s with
  | nil => rfl
  | cons p ps ih =>
    have hbefore : k + Text.fullWidth tabSize before ≤ maxColumn := by
      have := Text.fullWidth_le_append htab before ((p :: ps).flatMap Piece.text)
      omega
    rw [List.flatMap_cons, ← List.append_assoc] at hfit
    simp only [layOut, p.act_shift htab hk hbefore, List.append_assoc]
    exact ih hfit _

/-! ## One line -/

/-- The second state is the first one `k` columns further right, but for the indentation, which the next
line is to overwrite. -/
structure State.Moved (k : Nat) (s s' : State) : Prop where
  region : s'.region = s.region
  nesting : s'.nesting = s.nesting.shift k
  grounded : ∃ root, Grounded root s'.nesting s'.indented

namespace Mode

variable (m : Mode) {k : Nat} {s s' : State}

theorem moved_start (base : Int) (k : Nat) : (m.start base).Moved k (m.start (base + k)) := by
  refine ⟨rfl, ?_, _, .start _⟩
  have hroot : base + k - m.indentUnit = base - m.indentUnit + k := by omega
  simp only [start, State.start, Frame.root, Nesting.shift, List.map_nil, wrapColumn_wrapColumn_add, hroot]

theorem suggest_moveRight (h : s.Moved k s') (t : List Char) :
    m.suggest s' (Text.moveRight k t) = (m.suggest s t).map fun column => wrapColumn (column + k) := by
  obtain ⟨root, hgrounded⟩ := h.grounded
  rw [h.nesting] at hgrounded
  simp only [suggest, h.region, Text.trimStart_moveRight]
  split
  · rw [h.nesting, s.nesting.columnFor_shift k hgrounded, Option.map_some]
  · rfl

theorem content_moveRight (h : s.Moved k s') (t : List Char) :
    (m.highlightLine s' (Text.moveRight k t)).content = (m.highlightLine s t).content := by
  rw [content_highlightLine, content_highlightLine, Text.trimStart_moveRight, h.region]

/-- The state in which a line is read is shifted in full: the line brings its own indentation. -/
theorem lineState_moveRight (h : s.Moved k s') (hk : m.tabSize ∣ k) {t : List Char} (ht : t ≠ [])
    (hfit : k + Text.fullWidth m.tabSize t ≤ maxColumn) :
    m.lineState s' (Text.moveRight k t) = (m.lineState s t).shift k := by
  have hlead : k + Text.fullWidth m.tabSize (Text.lead t) ≤ maxColumn := by
    have := Text.fullWidth_le_append m.tabSize_pos (Text.lead t) (Text.trimStart t)
    rw [Text.lead_append_trimStart] at this
    omega
  have hindentation : clampColumn (Text.indentation m.tabSize (Text.moveRight k t)) =
      clampColumn (Text.indentation m.tabSize t) + k := by
    rw [Text.moveRight, if_neg ht, Text.indentation, Text.lead_replicate_append,
      clampColumn_width_replicate_append m.tabSize_pos hk hlead]
    rfl
  rw [lineState, lineState, hindentation, ← State.startLine_shift]
  simp only [State.startLine, State.shift, h.region, h.nesting]

theorem readLine_moveRight (h : s.Moved k s') (hk : m.tabSize ∣ k) {t : List Char}
    (hfit : k + Text.fullWidth m.tabSize t ≤ maxColumn) :
    (m.readLine s t).state.Moved k (m.readLine s' (Text.moveRight k t)).state := by
  by_cases ht : t = []
  · rw [ht, Text.moveRight, if_pos rfl, readLine_nil, readLine_nil]
    exact h
  · have hne : Text.moveRight k t ≠ [] := by simp [Text.moveRight, ht]
    have hlead : Text.lead (Text.moveRight k t) = List.replicate k ' ' ++ Text.lead t := by
      rw [Text.moveRight, if_neg ht, Text.lead_replicate_append]
    have hpieces :
        Text.lead t ++ (pieces m.vocabulary s.region (Text.trimStart t)).flatMap Piece.text = t := by
      rw [flatMap_text_pieces, Text.lead_append_trimStart]
    have hstate : (m.readLine s' (Text.moveRight k t)).state = (m.readLine s t).state.shift k := by
      rw [m.readLine_state_trimStart s' hne, m.readLine_state_trimStart s ht, hlead,
        m.lineState_moveRight h hk ht hfit, Text.trimStart_moveRight, h.region]
      exact layOut_shift m.tabSize_pos hk (hpieces.symm ▸ hfit) _
    obtain ⟨root, hgrounded⟩ := h.grounded
    have hread := hgrounded.walk (m.walk_momentsFrom (.ofLine (Text.moveRight k t)) s')
    exact ⟨by rw [hstate]; rfl, by rw [hstate]; rfl, root, hread⟩

/-! ## Line after line -/

theorem highlightFrom_moveRight (hk : m.tabSize ∣ k) (h : s.Moved k s') {ts : List (List Char)}
    (hfit : ∀ t ∈ ts, k + Text.fullWidth m.tabSize t ≤ maxColumn) :
    (m.highlightFrom s' (ts.map (Text.moveRight k))).map (fun l => (l.indent, l.content)) =
      (m.highlightFrom s ts).map fun l =>
        (l.indent.map fun column => wrapColumn (column + k), l.content) := by
  induction ts generalizing s s' with
  | nil => rfl
  | cons t ts ih =>
    obtain ⟨hline, hrest⟩ := List.forall_mem_cons.mp hfit
    rw [List.map_cons, highlightFrom_cons, highlightFrom_cons, List.map_cons, List.map_cons,
      ih (m.readLine_moveRight h hk hline) hrest, m.content_moveRight h t]
    congr 2
    exact m.suggest_moveRight h t

/-- **Suggestions move with the base column.** Let every line that is not empty be moved right by `k` spaces,
for a multiple `k` of the tab size that keeps the widths of all lines in range, and let the base move as far.
Then each line is suggested a column that is `k` larger, just so where the moved columns can be held and in any
case as a word holds the sum, and none where it was none; and it shows the same tokens in the same styles
behind the blanks it starts with. -/
theorem highlight_moves_with_base (base : Int) (hk : m.tabSize ∣ k) {ts : List (List Char)}
    (hfit : ∀ t ∈ ts, k + Text.fullWidth m.tabSize t ≤ maxColumn) :
    let lines := m.highlightFrom (m.start base) ts
    let moved := m.highlightFrom (m.start (base + k)) (ts.map (Text.moveRight k))
    ((∀ l ∈ lines, ∀ column ∈ l.indent, HoldsColumn (column + k)) →
        moved.map HighlightedLine.indent = lines.map fun l => l.indent.map (· + (k : Int))) ∧
      moved.map HighlightedLine.indent =
        lines.map (fun l => l.indent.map fun column => wrapColumn (column + k)) ∧
      moved.map HighlightedLine.content = lines.map HighlightedLine.content := by
  intro lines moved
  have hall := m.highlightFrom_moveRight hk (m.moved_start base k) hfit
  have hwrapped : moved.map HighlightedLine.indent =
      lines.map fun l => l.indent.map fun column => wrapColumn (column + k) := by
    simpa [lines, moved, Function.comp_def] using congrArg (List.map Prod.fst) hall
  refine ⟨fun hheld => ?_, hwrapped, ?_⟩
  · rw [hwrapped]
    refine List.map_congr_left fun l hl => Option.map_congr fun column hcolumn => ?_
    exact wrapColumn_of_holds (hheld l hl column hcolumn)
  · simpa [lines, moved, Function.comp_def] using congrArg (List.map Prod.snd) hall

/-- A tab in front of a line and one inside another, a literal over two lines, a label at the outermost level
and a pop that restores an indentation, moved by two tab stops. -/
theorem highlight_moves_with_base_tabs :
    let m : Mode := { tabSize := 3, vocabulary := Vocabulary.basic.extend ["case"] [] }
    let ts := ["case f(a,".toList, "\tb [".toList, [], " `\t".toList, "  x` ], c)".toList, "case".toList]
    let lines := m.highlightFrom (m.start (-1)) ts
    let moved := m.highlightFrom (m.start (-1 + (6 : Nat))) (ts.map (Text.moveRight 6))
    m.tabSize ∣ 6 ∧ (∀ t ∈ ts, 6 + Text.fullWidth m.tabSize t ≤ maxColumn) ∧
      (∀ l ∈ lines, ∀ column ∈ l.indent, HoldsColumn (column + (6 : Nat))) ∧
      lines.map HighlightedLine.indent = [some (-1), some 8, some 5, some 5, none, some (-3)] ∧
      moved.map HighlightedLine.indent = [some 5, some 14, some 11, some 11, none, some 3] ∧
      moved.map HighlightedLine.content = lines.map HighlightedLine.content := by
  intro m ts lines moved
  have hk : m.tabSize ∣ 6 := by decide
  have hfit : ∀ t ∈ ts, 6 + Text.fullWidth m.tabSize t ≤ maxColumn := by decide +kernel
  have hheld : ∀ l ∈ lines, ∀ column ∈ l.indent, HoldsColumn (column + (6 : Nat)) := by decide +kernel
  have hlines : lines.map HighlightedLine.indent = [some (-1), some 8, some 5, some 5, none, some (-3)] := by
    decide +kernel
  obtain ⟨hindent, -, hcontent⟩ := m.highlight_moves_with_base (-1) hk hfit
  refine ⟨hk, hfit, hheld, hlines, ?_, hcontent⟩
  rw [hindent hheld]
  simpa [Function.comp_def] using congrArg (List.map (Option.map (· + (6 : Int)))) hlines

end Mode

end BraceMode
