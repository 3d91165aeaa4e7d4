import BraceMode.Proofs.BlockStyle
import BraceMode.Proofs.KeptColumns
import BraceMode.Proofs.OpenBrackets
import BraceMode.Proofs.ReindentCheck
import BraceMode.Proofs.TabStops

/-! Checking the indentation and re-indenting, compared. The one reads the text as it is and compares screen
columns, the other reads the lines it writes and compares texts. As long as no line differs the two pass the
same states, so they can be compared line by line. A line that is written as it is stands in the column
suggested, provided that the column is not negative, and without labels none is but where a sum wraps around.
A line that stands there is written as it is, provided that the blanks in front of it are spaces. -/

namespace BraceMode

namespace Mode

variable (m : Mode)

/-- Whether a line is written as it is, or goes when it is blank. -/
def Stays (s : State) (l : List Char) : Prop := m.reindentLine s l = Text.keptPart l

def Placed (s : State) (l : List Char) : Prop :=
  Tool.isMisplaced (Text.indentation m.tabSize l) (m.suggest s l) l = false

/-- A line that is not blank, stands in code and does not close the top frame is suggested a column one unit
beyond the anchor of that frame: whether this sum can be held. -/
def UnitFits (s : State) (l : List Char) : Prop :=
  Text.allBlank l = false → s.region = .code → s.nesting.top.closedBy (Text.trimStart l) = false →
    HoldsColumn (s.nesting.top.anchor + m.indentUnit)

/-! ## One line -/

/-- Where no label word is a keyword, a fresh buffer gets to a negative suggestion only by a unit that cannot
be added. -/
theorem suggest_feed_start (hv : m.vocabulary.Unlabelled) (ts : List (List Char)) {l : List Char}
    {column : Int} :
    let s := m.feed (m.start 0) ts
    m.suggest s l = some column → s.region = .code ∧ column ≤ maxColumn ∧
      (0 ≤ column ↔ (s.nesting.top.closedBy (Text.trimStart l) = false →
        HoldsColumn (s.nesting.top.anchor + m.indentUnit))) := by
  intro s h
  have hplain : s.Plain := (m.entries_feed hv (m.start_plain 0) ts).2
  have hgrounded : Grounded (-m.indentUnit) s.nesting s.indented := by
    refine Grounded.walk (m.walk_moments (m.start 0) ts) ?_
    rw [m.start_zero]
    exact .start _
  unfold suggest at h
  split at h
  · rename_i hcode
    rw [← Option.some.inj h]
    exact ⟨hcode, hgrounded.columnFor m.indentUnit_le hplain.root hplain.top_kind_ne _⟩
  · cases h

theorem stays_of_reindentLine_eq {s : State} {l : List Char} (h : m.reindentLine s l = l) :
    m.Stays s l := by
  cases hblank : Text.allBlank l with
  | true => rw [Stays, (m.reindentLine_eq_nil_iff s l).mpr hblank, Text.keptPart_of_allBlank hblank]
  | false => rw [Stays, h, Text.keptPart_of_not_allBlank hblank]

/-- A line that stays is placed, since spaces reach the column suggested, unless that column is negative. -/
theorem Stays.placed_iff {m : Mode} (hv : m.vocabulary.Unlabelled) {ts : List (List Char)} {l : List Char}
    (h : m.Stays (m.feed (m.start 0) ts) l) :
    m.Placed (m.feed (m.start 0) ts) l ↔ m.UnitFits (m.feed (m.start 0) ts) l := by
  obtain ⟨hc, -⟩ | ⟨-, hnone, -⟩ | ⟨column, hc, hsome, hw⟩ := m.reindentLine_cases (m.feed (m.start 0) ts) l
  · have hblank := (Text.trimStart_eq_nil_iff l).mp hc
    simp [Placed, Tool.isMisplaced, UnitFits, hblank]
  · have hregion : (m.feed (m.start 0) ts).region ≠ .code := by
      intro hcode
      simp [suggest, hcode] at hnone
    simp [Placed, Tool.isMisplaced, UnitFits, hnone, hregion]
  · have hblank := (Text.not_allBlank_iff l).mpr hc
    obtain ⟨hcode, hle, hnonneg⟩ := m.suggest_feed_start hv ts hsome
    have hfits : m.UnitFits (m.feed (m.start 0) ts) l ↔ 0 ≤ column := by
      simp only [UnitFits, hblank, hcode, forall_const, hnonneg]
    rw [hfits]
    constructor
    · intro hplaced
      have hcolumn : column = Text.indentation m.tabSize l := by
        simpa [Placed, Tool.isMisplaced, hblank, hsome] using hplaced
      omega
    · intro hcolumn
      obtain ⟨n, rfl⟩ := Int.eq_ofNat_of_zero_le hcolumn
      have hl : l = indentTo n (Text.trimStart l) := by
        rw [← hw, h, Text.keptPart_of_not_allBlank hblank]
      have hword : n < Text.wordSize := Nat.lt_of_le_of_lt (Int.ofNat_le.mp hle) (by decide)
      have hindentation : Text.indentation m.tabSize l = n := by
        rw [hl]
        exact indentation_indentTo m.tabSize hword (Text.lead_trimStart l)
      simp [Placed, Tool.isMisplaced, hsome, hindentation]

/-- A placed line stays when the blanks in front of it are spaces. -/
theorem Placed.stays {m : Mode} {s : State} {l : List Char} (h : m.Placed s l)
    (hsize : l.length < Text.wordSize) (hspaces : ∀ c ∈ Text.lead l, c = ' ') : m.Stays s l := by
  obtain ⟨hc, hw⟩ | ⟨-, -, hw⟩ | ⟨column, hc, hsome, hw⟩ := m.reindentLine_cases s l
  · rw [Stays, hw, Text.keptPart_of_allBlank ((Text.trimStart_eq_nil_iff l).mp hc)]
  · exact m.stays_of_reindentLine_eq hw
  · have hlead : Text.lead l = List.replicate (Text.lead l).length ' ' :=
      List.eq_replicate_iff.mpr ⟨rfl, hspaces⟩
    have hword : (Text.lead l).length < Text.wordSize :=
      Nat.lt_of_le_of_lt (List.takeWhile_sublist Text.isBlank).length_le hsize
    have hindentation : Text.indentation m.tabSize l = (Text.lead l).length := by
      rw [Text.indentation, hlead, Text.width_replicate m.tabSize hword, List.length_replicate]
    have hcolumn : column = (Text.lead l).length := by
      simpa [Placed, Tool.isMisplaced, (Text.not_allBlank_iff l).mpr hc, hsome, hindentation] using h
    apply m.stays_of_reindentLine_eq
    rw [hw, hcolumn, indentTo, Int.toNat_natCast, ← hlead, Text.lead_append_trimStart]

theorem suggest_start (m : Mode) (l : List Char) : m.suggest (m.start 0) l = some 0 := by
  rw [m.start_zero]
  show some (wrapColumn (-m.indentUnit + m.indentUnit)) = some 0
  rw [Int.add_left_neg]
  rfl

/-- A line without blanks in front stays where it is suggested to go no further than to the first column. -/
theorem stays_of_lead_eq_nil {m : Mode} {s : State} {l : List Char} {column : Int} (hlead : Text.lead l = [])
    (hsome : m.suggest s l = some column) (hle : column ≤ 0) : m.Stays s l := by
  have hl : Text.trimStart l = l := by
    have hcut := Text.lead_append_trimStart l
    rwa [hlead, List.nil_append] at hcut
  obtain ⟨hc, hw⟩ | ⟨-, hnone, -⟩ | ⟨column', -, hsome', hw⟩ := m.reindentLine_cases s l
  · rw [Stays, hw, Text.keptPart_of_allBlank ((Text.trimStart_eq_nil_iff l).mp hc)]
  · cases hsome.symm.trans hnone
  · obtain rfl := Option.some.inj (hsome.symm.trans hsome')
    apply m.stays_of_reindentLine_eq
    rw [hw, indentTo, Int.toNat_of_nonpos hle, hl]
    rfl

/-! ## Line after line -/

/-- Whether something holds of every line, in the state that the lines before it leave. -/
def Throughout (P : State → List Char → Prop) (s : State) (ts : List (List Char)) : Prop :=
  ∀ before l after, ts = before ++ l :: after → P (m.feed s before) l

section Throughout

variable {m} {P Q : State → List Char → Prop} {s : State}

theorem Throughout.imp {ts : List (List Char)} (h : m.Throughout P s ts)
    (himp : ∀ before, ∀ l ∈ ts, P (m.feed s before) l → Q (m.feed s before) l) : m.Throughout Q s ts := by
  intro before l after hts
  exact himp before l (by simp [hts]) (h before l after hts)

/-- What agrees on every line of a run agrees on the run. -/
theorem Throughout.congr {R : State → List Char → Prop} {ts : List (List Char)} (h : m.Throughout R s ts)
    (hiff : ∀ before, ∀ l ∈ ts, R (m.feed s before) l → (P (m.feed s before) l ↔ Q (m.feed s before) l)) :
    m.Throughout P s ts ↔ m.Throughout Q s ts := by
  constructor <;> intro hall before l after hts
  · exact (hiff before l (by simp [hts]) (h before l after hts)).mp (hall before l after hts)
  · exact (hiff before l (by simp [hts]) (h before l after hts)).mpr (hall before l after hts)

theorem throughout_nil : m.Throughout P s [] := by
  intro before l after h
  cases before <;> cases h

theorem throughout_cons {l : List Char} {ts : List (List Char)} :
    m.Throughout P s (l :: ts) ↔ P s l ∧ m.Throughout P (m.readLine s l).state ts := by
  constructor
  · intro h
    exact ⟨h [] l ts rfl, fun before l' after hts => h (l :: before) l' after (by rw [hts]; rfl)⟩
  · rintro ⟨hl, hts⟩ before l' after h
    cases before with
    | nil =>
      obtain ⟨rfl, -⟩ := List.cons_eq_cons.mp h
      exact hl
    | cons b before =>
      obtain ⟨rfl, hrest⟩ := List.cons_eq_cons.mp h
      exact hts before l' after hrest

theorem throughout_append {ts us : List (List Char)} :
    m.Throughout P s (ts ++ us) ↔ m.Throughout P s ts ∧ m.Throughout P (m.feed s ts) us := by
  induction ts generalizing s with
  | nil => simp [throughout_nil, feed]
  | cons t ts ih => rw [List.cons_append, throughout_cons, throughout_cons, ih, and_assoc, feed_cons]

theorem throughout_lastLine {tail : List Char} (hnil : P s []) :
    m.Throughout P s (Text.lastLine tail) ↔ P s tail := by
  unfold Text.lastLine
  split
  · rename_i htail
    simp [htail, hnil, throughout_nil]
  · simp [throughout_cons, throughout_nil]

end Throughout

/-- No line is moved exactly when each one is written as it is in the state in which it is read: up to the
first line that is moved, the run that writes and the run that reads pass the same states. -/
theorem reindentFrom_eq_self_iff (s : State) (ts : List (List Char)) :
    m.reindentFrom s ts = ts ↔ m.Throughout (fun s l => m.reindentLine s l = l) s ts := by
  induction ts generalizing s with
  | nil => simp [reindentFrom, throughout_nil]
  | cons t ts ih =>
    rw [reindentFrom_cons, List.cons_eq_cons, throughout_cons]
    refine and_congr_right fun ht => ?_
    rw [ht, ih]

/-- No line is counted exactly when every line is placed. -/
theorem countP_isMisplacedPair_eq_zero_iff (s : State) (ts : List (List Char)) :
    ((m.highlightFrom s ts).zip ts).countP (Tool.isMisplacedPair m) = 0 ↔ m.Throughout m.Placed s ts := by
  rw [List.countP_eq_zero]
  induction ts generalizing s with
  | nil => simp [highlightFrom, throughout_nil]
  | cons t ts ih =>
    rw [highlightFrom_cons, List.zip_cons_cons, List.forall_mem_cons, throughout_cons, ← ih,
      Bool.not_eq_true]
    exact Iff.rfl

/-! ## The whole text -/

/-- When no line is listed as changed, every line stays. -/
theorem throughout_stays {t : List Char} (h : Tool.changedLines t (m.reindent t) = []) :
    m.Throughout m.Stays (m.start 0) (Text.lines t) := by
  obtain ⟨ls, tail, rfl, hls, ht⟩ := Text.exists_eq_unlines_append t
  have hts := Text.not_mem_of_mem_map_dropReturn hls
  have hsame := ((m.changedLines_reindent_eq_nil_iff _).mp h).1
  rw [m.reindent_unlines_append hls ht, Text.tidied_unlines_append hls ht] at hsame
  obtain ⟨hlines, hlast⟩ := Text.unlines_append_inj (m.newline_not_mem_reindentFrom (m.start 0) hts) hts
    (m.newline_not_mem_reindentLine _ ht) (Text.newline_not_mem_keptPart ht) hsame
  -- The ended lines are all compared. A blank last part is not, and it stays by going.
  rw [Text.lines_unlines_append hls ht, throughout_append, throughout_lastLine rfl]
  refine ⟨?_, ?_⟩
  · exact ((m.reindentFrom_eq_self_iff _ _).mp hlines).imp fun _ _ _ => m.stays_of_reindentLine_eq
  · rwa [hlines] at hlast

/-- When every line stays, no line is listed as changed, unless a blank one has to go or a line ends in a
carriage return. -/
theorem changedLines_eq_nil {t : List Char} (h : m.Throughout m.Stays (m.start 0) (Text.lines t))
    (hkept : ∀ l ∈ Text.lines t, Text.keptPart l = l)
    (hreturn : ∀ l ∈ Text.lines t, l.getLast? ≠ some '\r') :
    Tool.changedLines t (m.reindent t) = [] := by
  obtain ⟨ls, tail, rfl, hls, ht⟩ := Text.exists_eq_unlines_append t
  rw [Text.lines_unlines_append hls ht] at h hkept hreturn
  obtain ⟨hended, hlast⟩ := throughout_append.mp h
  have hlines : m.reindentFrom (m.start 0) (ls.map Text.dropReturn) = ls.map Text.dropReturn := by
    refine (m.reindentFrom_eq_self_iff _ _).mpr (hended.imp fun _ l hl hstays => ?_)
    exact hstays.trans (hkept l (List.mem_append_left _ hl))
  refine (m.changedLines_reindent_eq_nil_iff _).mpr ⟨?_, ?_⟩
  · rw [m.reindent_unlines_append hls ht, Text.tidied_unlines_append hls ht]
    simp only [hlines]
    rw [(throughout_lastLine rfl).mp hlast]
  · rw [Text.not_doubleReturn_isInfix_iff hls ht]
    exact fun l hl => hreturn l (List.mem_append_left _ hl)

end Mode

/-! ## A bracket at the last column

Behind enough tabs a bracket is kept at `maxColumn`, and to the line below it no unit can be added. -/

def tabbedCall (n : Nat) : List Char := 'x' :: (List.replicate n '\t' ++ "(a".toList)

theorem tabbedCall_ne_nil (n : Nat) : tabbedCall n ≠ [] := List.cons_ne_nil _ _

theorem getLast?_tabbedCall (n : Nat) : (tabbedCall n).getLast? = some 'a' := by
  have hcut : tabbedCall n = 'x' :: (List.replicate n '\t' ++ ['(']) ++ ['a'] := by simp [tabbedCall]
  rw [hcut, List.getLast?_concat]

theorem lines_tabbedCall (n : Nat) :
    Text.lines ('x' :: (List.replicate n '\t' ++ "(a\nb\n".toList)) = [tabbedCall n, ['b']] := by
  have hcut : 'x' :: (List.replicate n '\t' ++ "(a\nb\n".toList) = tabbedCall n ++ '\n' :: ['b', '\n'] := by
    simp [tabbedCall]
  have hfeed : '\n' ∉ tabbedCall n := by simp [tabbedCall, List.mem_replicate]
  rw [hcut, Text.lines_append_newline hfeed, Text.dropReturn_eq_self (by simp [getLast?_tabbedCall])]
  rfl

theorem width_tabs {tab n : Nat} (htab : 2 ≤ tab) (hn : 0 < n) (hword : tab * n < Text.wordSize) :
    Text.width tab ('x' :: List.replicate n '\t') = tab * n := by
  have hmax : max 1 tab = tab := by omega
  have hfull (k : Nat) : Text.fullWidth tab ('x' :: List.replicate (k + 1) '\t') = tab * (k + 1) := by
    induction k with
    | zero =>
      have hmod : 1 % tab = 1 := Nat.mod_eq_of_lt (by omega)
      show 1 + tab - 1 % tab = tab * 1
      omega
    | succ k ih =>
      rw [List.replicate_succ', ← List.cons_append, Text.fullWidth_concat, ih, Text.stop, if_pos rfl,
        Nat.mul_mod_right]
      rfl
  obtain ⟨k, rfl⟩ := Nat.exists_eq_succ_of_ne_zero (Nat.ne_of_gt hn)
  rw [Text.width_eq_fullWidth (by rw [hmax, hfull]; exact hword), hmax, hfull]

theorem pieces_tabbedCall {n : Nat} (hn : 0 < n) :
    pieces Vocabulary.basic .code (tabbedCall n) =
      [⟨['x'], some { size := 1, style := some .variable }⟩, ⟨List.replicate n '\t', none⟩,
        ⟨['('], some { size := 1, mark := some (.punct .leftParen) }⟩,
        ⟨['a'], some { size := 1, style := some .variable }⟩] := by
  obtain ⟨k, rfl⟩ := Nat.exists_eq_succ_of_ne_zero (Nat.ne_of_gt hn)
  have hfirst : Piece.first Vocabulary.basic .code (tabbedCall (k + 1)) =
      ⟨['x'], some { size := 1, style := some .variable }⟩ := rfl
  have hblank : Text.allBlank (List.replicate (k + 1) '\t') = true := by
    rw [Text.allBlank, List.all_replicate]
    rfl
  have hcall : pieces Vocabulary.basic .code "(a".toList =
      [⟨['('], some { size := 1, mark := some (.punct .leftParen) }⟩,
        ⟨['a'], some { size := 1, style := some .variable }⟩] := by decide +kernel
  rw [pieces_of_ne_nil _ _ (tabbedCall_ne_nil _), hfirst]
  show _ :: pieces Vocabulary.basic .code (List.replicate (k + 1) '\t' ++ "(a".toList) = _
  rw [pieces_lead_append _ _ _ (by simp) hblank rfl, hcall]

/-- Tabs that reach the last column leave a frame there. -/
theorem readLine_tabbedCall {n : Nat} (hfar : maxColumn ≤ 64 * n) (hword : 64 * n < Text.wordSize) :
    let m : Mode := { tabSize := 64 }
    (m.readLine (m.start 0) (tabbedCall n)).state =
      { nesting := { root := .root (-2), inner := [⟨0, maxColumn, .paren, .aligned⟩] }, fresh := false } := by
  intro m
  have hn : 0 < n := by
    unfold maxColumn at hfar
    omega
  have hcolumn : clampColumn (Text.width m.tabSize ('x' :: List.replicate n '\t')) = maxColumn := by
    rw [width_tabs (by decide) hn hword, clampColumn, Nat.min_eq_right hfar]
  rw [m.readLine_state _ (tabbedCall_ne_nil _)]
  show (layOut _ _ _ (pieces Vocabulary.basic .code _)).1 = _
  rw [pieces_tabbedCall hn]
  simp only [layOut, Piece.act, List.nil_append, List.singleton_append, Option.isSome_some, if_true, hcolumn]
  rfl

namespace Tool

/-- The line below such a call is suggested to stand a unit beyond the last column, which is left of the first
one. It is not moved there, and it does not stand there. -/
theorem counts_tabbedCall {n : Nat} (hfar : maxColumn ≤ 64 * n) (hword : 64 * n < Text.wordSize) :
    let m : Mode := { tabSize := 64 }
    let source := 'x' :: (List.replicate n '\t' ++ "(a\nb\n".toList)
    changedLines source (m.reindent source) = [] ∧
      ((m.highlight source).zip (Text.lines source)).countP (isMisplacedPair m) = 1 := by
  intro m source
  have hlines : Text.lines source = [tabbedCall n, ['b']] := lines_tabbedCall n
  have hcall := m.suggest_start (tabbedCall n)
  have hbelow : m.suggest (m.readLine (m.start 0) (tabbedCall n)).state ['b'] = some (-2147483647) := by
    rw [readLine_tabbedCall hfar hword]
    decide
  constructor
  · refine m.changedLines_eq_nil ?_ ?_ ?_
    · rw [hlines, Mode.throughout_cons, Mode.throughout_cons]
      exact ⟨Mode.stays_of_lead_eq_nil rfl hcall (by decide),
        Mode.stays_of_lead_eq_nil rfl hbelow (by decide), Mode.throughout_nil⟩
    · rw [hlines]
      simp [Text.keptPart_of_not_allBlank (show Text.allBlank (tabbedCall n) = false from rfl),
        Text.keptPart_of_not_allBlank (show Text.allBlank ['b'] = false from rfl)]
    · rw [hlines]
      simp [getLast?_tabbedCall]
  · rw [Mode.highlight, hlines, Mode.highlightFrom, Mode.highlightFrom, Mode.highlightFrom, hcall, hbelow]
    rfl

/-! ## The commands -/

end Tool

end BraceMode
