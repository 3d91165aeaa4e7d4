import Mathlib.Order.Bounds.Defs
import BraceMode.Proofs.EventLog
import BraceMode.Proofs.Walk

/-! Where block comments end. A line that starts in a comment belongs to it through its first terminator, and
as a whole when it has none. The blanks that it starts with are a token apart, but no blank is part of a
terminator, so the first one of the line is the first one behind them. A star and a slash on two lines do not
meet: the search starts again with every line, and behind the two characters that open a comment. A comment
acts on the region alone, so all that happens to the frames is what a line start does to the top one. -/

namespace BraceMode

namespace Lexis.Comment

def terminator : List Char := ['*', '/']

def EndsAt (t : List Char) (i : Nat) : Prop := terminator <+: t.drop i

instance (t : List Char) (i : Nat) : Decidable (EndsAt t i) := inferInstanceAs (Decidable (_ <+: _))

end Lexis.Comment

/-- A token of a comment that goes on behind it: a comment, or blanks without a style, that leaves the frames
`n` open. -/
structure Moment.Inside (n : Nesting) (mo : Moment) : Prop where
  style : mo.token.style = some .comment ∨ mo.token.style = none ∧ mo.token.isBlank = true
  region : mo.after.region = .comment
  nesting : mo.after.nesting = n

structure Moment.Ends (n : Nesting) (t : List Char) (mo : Moment) : Prop where
  style : mo.token.style = some .comment
  region : mo.after.region = .code
  nesting : mo.after.nesting = n
  stop : mo.token.stop = Text.byteSize t

/-- A line that shows comments only, behind at most one token of blanks. -/
def HighlightedLine.IsComment (l : HighlightedLine) : Prop :=
  ∃ blanks comments, l.tokens = blanks ++ comments ∧ blanks.length ≤ 1 ∧
    (∀ k ∈ blanks, k.style = none ∧ k.isBlank = true) ∧ ∀ k ∈ comments, k.style = some .comment

/-- Lines that belong to the block comment that state `s` is in, to their last character. The frames stay as
they are or, once a line has started, are those of `n`. -/
structure Mode.StaysInside (m : Mode) (n : Nesting) (s : State) (ts : List (List Char)) : Prop where
  lines : ∀ l ∈ m.highlightFrom s ts, l.IsComment
  moments : ∀ mo ∈ m.moments s ts, mo.Inside n
  region : (m.feed s ts).region = .comment
  nesting : (m.feed s ts).nesting = s.nesting ∨ (m.feed s ts).nesting = n
  trace : m.trace s ts = []

/-- A line on which the block comment that state `s` is in ends behind the first `k` characters, with the
frames `n` open. What is left of the line is read as code. -/
def Mode.LeavesAt (m : Mode) (n : Nesting) (s : State) (t : List Char) (k : Nat) : Prop :=
  let ps := pieces m.vocabulary .code (t.drop k)
  ∃ blanks last later, m.momentsFrom (.ofLine t) s = blanks ++ last :: later ∧ blanks.length ≤ 1 ∧
    (∀ mo ∈ blanks, mo.token.style = none ∧ mo.Inside n) ∧ last.Ends n (t.take k) ∧
    later.map (fun mo => (mo.token, mo.after)) = trail m.tabSize (t.take k) last.after ps ∧
    (m.readLine s t).state = (layOut m.tabSize (t.take k) last.after ps).1 ∧
    (m.readLine s t).events = .switch .comment .code :: (layOut m.tabSize (t.take k) last.after ps).2

namespace Lexis.Comment

/-! ## The first terminator -/

theorem closing?_eq_none_iff (t : List Char) : closing? t = none ↔ ¬terminator <:+: t := by
  fun_induction closing? t with
  | case1 => simp [terminator]
  | case2 t =>
    have hbegins : terminator <:+: '*' :: '/' :: t := (List.prefix_append terminator t).isInfix
    simp [hbegins]
  | case3 c t hc ih =>
    have hbegins : ¬terminator <+: c :: t := by
      rintro ⟨u, hu⟩
      obtain ⟨rfl, rfl⟩ := List.cons_eq_cons.mp hu
      exact hc u rfl rfl
    rw [Option.map_eq_none_iff, ih, List.infix_cons_iff, or_iff_right hbegins]

/-- The search finds the first terminator. -/
theorem closing?_of_isLeast {t : List Char} {i : Nat} (h : IsLeast {i | EndsAt t i} i) :
    closing? t = some (i + 2) := by
  obtain ⟨hat, hleast⟩ := h
  fun_induction closing? t generalizing i with
  | case1 =>
    obtain ⟨u, hu⟩ := hat
    simp [terminator] at hu
  | case2 t =>
    have hzero : EndsAt ('*' :: '/' :: t) 0 := List.prefix_append terminator t
    rw [Nat.le_zero.mp (hleast hzero)]
  | case3 c t hc ih =>
    cases i with
    | zero =>
      obtain ⟨u, hu⟩ := hat
      obtain ⟨rfl, rfl⟩ := List.cons_eq_cons.mp hu
      exact absurd rfl (hc u rfl)
    | succ i =>
      rw [ih hat fun j hj => Nat.le_of_succ_le_succ (hleast (a := j + 1) hj)]
      rfl

theorem endsAt_append_iff (a b : List Char) (k : Nat) : EndsAt (a ++ b) (a.length + k) ↔ EndsAt b k := by
  rw [EndsAt, List.drop_length_add_append, EndsAt]

theorem isInfix_iff_exists_endsAt (t : List Char) : terminator <:+: t ↔ ∃ i, EndsAt t i := by
  constructor
  · rintro ⟨a, b, rfl⟩
    rw [List.append_assoc]
    exact ⟨a.length, (endsAt_append_iff a _ 0).mpr (List.prefix_append terminator b)⟩
  · rintro ⟨i, hi⟩
    exact hi.isInfix.trans (List.drop_suffix i t).isInfix

/-- The first terminator behind a text `a` is the first one of what stands behind it. -/
theorem exists_isLeast_of_append {a b : List Char} {i : Nat}
    (h : IsLeast {i | a.length ≤ i ∧ EndsAt (a ++ b) i} i) :
    ∃ k, i = a.length + k ∧ IsLeast {i | EndsAt b i} k := by
  obtain ⟨⟨hle, hat⟩, hleast⟩ := h
  obtain ⟨k, rfl⟩ := Nat.exists_eq_add_of_le hle
  refine ⟨k, rfl, (endsAt_append_iff a b k).mp hat, fun j hj => ?_⟩
  have hbehind := hleast ⟨Nat.le_add_right a.length j, (endsAt_append_iff a b j).mpr hj⟩
  exact Nat.le_of_add_le_add_left hbehind

/-- No terminator stands among the blanks at the beginning of a text. -/
theorem length_lead_le_of_endsAt {t : List Char} {i : Nat} (h : EndsAt t i) :
    (Text.lead t).length ≤ i := by
  by_contra hlt
  have hi : i < (Text.lead t).length := Nat.not_le.mp hlt
  have hcut : t.drop i = (Text.lead t).drop i ++ Text.trimStart t := by
    conv => lhs; rw [← Text.lead_append_trimStart t]
    exact List.drop_append_of_le_length (Nat.le_of_lt hi)
  obtain ⟨u, hu⟩ := h
  rw [hcut, List.drop_eq_getElem_cons hi] at hu
  obtain ⟨hstar, -⟩ := List.cons_eq_cons.mp hu
  have hblank : Text.isBlank '*' = true := hstar ▸ Text.isBlank_of_mem_lead (List.getElem_mem hi)
  exact absurd hblank (by decide)

end Lexis.Comment

namespace Lexeme

open Lexis.Comment (EndsAt)

theorem ofComment_of_not_isInfix {t : List Char} (h : ¬Lexis.Comment.terminator <:+: t) :
    ofComment t = { size := t.length, style := some .comment } := by
  simp [ofComment, Lexis.Comment.size, (Lexis.Comment.closing?_eq_none_iff t).mpr h]

theorem ofComment_of_isLeast {t : List Char} {i : Nat} (h : IsLeast {i | EndsAt t i} i) :
    ofComment t = { size := i + 2, style := some .comment, entered := [.code] } := by
  simp [ofComment, Lexis.Comment.size, Lexis.Comment.closing?_of_isLeast h]

end Lexeme

/-! ## A line that begins with a comment -/

/-- A comment acts on the region alone. -/
theorem Mode.absorb_comment {l : Lexeme} (hl : l.style = some .comment) (column : Int) (s : State) :
    absorb column l s = (s.enter l.entered, Event.switches s.region l.entered) := by
  simp [absorb, hl]

namespace Mode

variable (m : Mode)

/-- A line whose content begins with a comment: the blanks in front of it start the line, the comment enters
whatever it enters, and the rest of the line is read from there. -/
theorem exists_momentsFrom_comment (s : State) {t u : List Char} {c : Char} {l : Lexeme}
    (ht : Text.trimStart t = c :: u) (hl : Lexeme.read m.vocabulary [] s.region (c :: u) = l)
    (hstyle : l.style = some .comment) :
    let size := (Text.lead t).length + l.size
    let next := (m.lineState s t).enter l.entered
    let ps := pieces m.vocabulary next.region (t.drop size)
    (∃ blanks last later, m.momentsFrom (.ofLine t) s = blanks ++ last :: later ∧ blanks.length ≤ 1 ∧
        (Text.lead t = [] → blanks = []) ∧
        (∀ mo ∈ blanks, mo.token.style = none ∧ mo.token.isBlank = true ∧ mo.after = m.lineState s t) ∧
        last.token.style = some .comment ∧ last.token.stop = Text.byteSize (t.take size) ∧
        last.after = next ∧
        later.map (fun mo => (mo.token, mo.after)) = trail m.tabSize (t.take size) next ps) ∧
      (m.readLine s t).state = (layOut m.tabSize (t.take size) next ps).1 ∧
      (m.readLine s t).events =
        Event.switches s.region l.entered ++ (layOut m.tabSize (t.take size) next ps).2 := by
  intro size next ps
  have hne : t ≠ [] := by
    rintro rfl
    cases ht
  have hcut : Text.lead t ++ c :: u = t := ht ▸ Text.lead_append_trimStart t
  have htake : Text.lead t ++ (c :: u).take l.size = t.take size := by
    conv => rhs; rw [← hcut]
    rw [List.take_length_add_append]
  have hdrop : (c :: u).drop l.size = t.drop size := by
    conv => rhs; rw [← hcut]
    rw [List.drop_length_add_append]
  have hpieces : pieces m.vocabulary s.region (c :: u) = ⟨(c :: u).take l.size, some l⟩ :: ps := by
    rw [pieces_of_ne_nil _ _ (List.cons_ne_nil c u),
      Piece.first_of_not_isBlank _ _ u (Text.not_isBlank_of_trimStart ht), hl]
    simp only [ps, ← hdrop, List.length_take, ← List.drop_eq_drop_min]
    rfl
  have hact (before : List Char) (s : State) :
      (⟨(c :: u).take l.size, some l⟩ : Piece).act m.tabSize before s =
        (s.enter l.entered, Event.switches s.region l.entered) :=
    absorb_comment hstyle _ s
  constructor
  · obtain ⟨blanks, hmap, hone, hnone, hblanks⟩ := m.exists_map_momentsFrom_ofLine s t
    rw [ht, hpieces, trail, hact, htake] at hmap
    obtain ⟨init, lasts, hsplit, hinit, hlasts⟩ := List.map_eq_append_iff.mp hmap
    obtain ⟨last, later, rfl, hlast, hlater⟩ := List.map_eq_cons_iff.mp hlasts
    obtain ⟨htoken, hafter⟩ := Prod.mk.inj hlast
    refine ⟨init, last, later, hsplit, ?_, ?_, ?_, ?_, ?_, hafter, hlater⟩
    · rw [← hinit, List.length_map] at hone
      exact hone
    · intro hlead
      rw [hnone hlead] at hinit
      exact List.map_eq_nil_iff.mp hinit
    · intro mo hmo
      exact hblanks _ (hinit ▸ List.mem_map_of_mem hmo)
    · rw [htoken]
      exact hstyle
    · rw [htoken, Piece.toToken, ← Text.byteSize_append, htake]
  · have hread := m.readLine_spec_trimStart s hne
    rw [ht, hpieces, layOut, hact, htake] at hread
    exact Prod.mk.inj hread

/-- A line whose content is one comment. -/
theorem exists_momentsFrom_commentLine (s : State) {t u : List Char} {c : Char} {l : Lexeme}
    (ht : Text.trimStart t = c :: u) (hl : Lexeme.read m.vocabulary [] s.region (c :: u) = l)
    (hstyle : l.style = some .comment) (hsize : l.size = (c :: u).length) :
    (∃ blanks last, m.momentsFrom (.ofLine t) s = blanks ++ [last] ∧ blanks.length ≤ 1 ∧
        (Text.lead t = [] → blanks = []) ∧
        (∀ mo ∈ blanks, mo.token.style = none ∧ mo.token.isBlank = true ∧ mo.after = m.lineState s t) ∧
        last.token.style = some .comment ∧ last.token.stop = Text.byteSize t ∧
        last.after = (m.lineState s t).enter l.entered) ∧
      (m.readLine s t).state = (m.lineState s t).enter l.entered ∧
      (m.readLine s t).events = Event.switches s.region l.entered := by
  have hall : (Text.lead t).length + l.size = t.length := by
    rw [hsize, ← ht, ← List.length_append, Text.lead_append_trimStart]
  obtain ⟨⟨blanks, last, later, hsplit, hone, hnone, hblanks, hlast, hstop, hafter, hlater⟩, hstate, hevents⟩ :=
    m.exists_momentsFrom_comment s ht hl hstyle
  simp only [hall, List.take_length, List.drop_length, pieces_nil, trail, layOut, List.map_eq_nil_iff,
    List.append_nil] at hstop hlater hstate hevents
  rw [hlater] at hsplit
  exact ⟨⟨blanks, last, hsplit, hone, hnone, hblanks, hlast, hstop, hafter⟩, hstate, hevents⟩

/-! ## Lines inside a comment -/

variable {m} {s : State} {n : Nesting}

/-- The blanks in front of a line belong to the comment that the line is in. -/
theorem inside_blanks (hr : s.region = .comment) (hn : s.nesting.modifyTop .startLine = n) {t : List Char}
    {mo : Moment} (h : mo.token.style = none ∧ mo.token.isBlank = true ∧ mo.after = m.lineState s t) :
    mo.Inside n := by
  obtain ⟨hstyle, hblank, hafter⟩ := h
  exact ⟨.inr ⟨hstyle, hblank⟩, hafter ▸ hr, hafter ▸ hn⟩

variable (m)

/-- The tokens of a line without a terminator, and the state that they leave. -/
theorem exists_momentsFrom_inside (hr : s.region = .comment) {t : List Char}
    (ht : ¬Lexis.Comment.terminator <:+: t) :
    (∃ blanks comments, m.momentsFrom (.ofLine t) s = blanks ++ comments ∧ blanks.length ≤ 1 ∧
        (∀ mo ∈ blanks, mo.token.style = none ∧ mo.token.isBlank = true) ∧
        (∀ mo ∈ comments, mo.token.style = some .comment) ∧
        ∀ mo ∈ blanks ++ comments, mo.after = m.lineState s t) ∧
      (t ≠ [] → (m.readLine s t).state = m.lineState s t) ∧ (m.readLine s t).events = [] := by
  cases hcontent : Text.trimStart t with
  | nil =>
    -- a line of blanks is one token without a style, and an empty line does not even start
    constructor
    · obtain ⟨blanks, hmap, hone, -, hblanks⟩ := m.exists_map_momentsFrom_ofLine s t
      rw [hcontent, pieces_nil, trail, List.append_nil] at hmap
      have hall {mo : Moment} (hmo : mo ∈ m.momentsFrom (.ofLine t) s) :=
        hblanks _ (hmap ▸ List.mem_map_of_mem hmo)
      refine ⟨m.momentsFrom (.ofLine t) s, [], (List.append_nil _).symm, ?_, ?_, by simp, ?_⟩
      · rw [← hmap, List.length_map] at hone
        exact hone
      · intro mo hmo
        exact ⟨(hall hmo).1, (hall hmo).2.1⟩
      · intro mo hmo
        rw [List.append_nil] at hmo
        exact (hall hmo).2.2
    · by_cases hne : t = []
      · rw [hne, readLine_nil]
        exact ⟨fun h => absurd rfl h, rfl⟩
      · have hread := m.readLine_spec_trimStart s hne
        rw [hcontent, pieces_nil, layOut] at hread
        obtain ⟨hstate, hevents⟩ := Prod.mk.inj hread
        exact ⟨fun _ => hstate, hevents⟩
  | cons c u =>
    have hin : ¬Lexis.Comment.terminator <:+: c :: u := by
      intro hin
      exact ht (hin.trans (hcontent ▸ (List.dropWhile_suffix Text.isBlank).isInfix))
    have hread : Lexeme.read m.vocabulary [] s.region (c :: u) =
        { size := (c :: u).length, style := some .comment } := by
      rw [hr]
      exact Lexeme.ofComment_of_not_isInfix hin
    obtain ⟨⟨blanks, last, hsplit, hone, -, hblanks, hstyle, -, hafter⟩, hstate, hevents⟩ :=
      m.exists_momentsFrom_commentLine s hcontent hread rfl rfl
    refine ⟨⟨blanks, [last], hsplit, hone, ?_, ?_, ?_⟩, fun _ => hstate, hevents⟩
    · intro mo hmo
      exact ⟨(hblanks mo hmo).1, (hblanks mo hmo).2.1⟩
    · intro mo hmo
      rw [List.mem_singleton.mp hmo]
      exact hstyle
    · intro mo hmo
      rcases List.mem_append.mp hmo with hmo | hmo
      · exact (hblanks mo hmo).2.2
      · rw [List.mem_singleton.mp hmo]
        exact hafter

/-- Frames that have seen a line start look the same to the next one. -/
theorem startLine_of_eq_or_eq {k : Nesting} (hn : s.nesting.modifyTop .startLine = n)
    (hk : k = s.nesting ∨ k = n) : k.modifyTop .startLine = n := by
  rcases hk with rfl | rfl
  · exact hn
  · rw [← hn, Nesting.startLine_startLine]

/-- **A line without a terminator belongs to the comment**, and the comment goes on behind it. -/
theorem inside_line (hr : s.region = .comment) (hn : s.nesting.modifyTop .startLine = n) {t : List Char}
    (ht : ¬Lexis.Comment.terminator <:+: t) :
    (m.highlightLine s t).IsComment ∧ (∀ mo ∈ m.momentsFrom (.ofLine t) s, mo.Inside n) ∧
      (m.readLine s t).state.region = .comment ∧
      ((m.readLine s t).state.nesting = s.nesting ∨ (m.readLine s t).state.nesting = n) ∧
      (m.readLine s t).events = [] := by
  obtain ⟨⟨blanks, comments, hsplit, hone, hblanks, hcomments, hafter⟩, hstate, hevents⟩ :=
    m.exists_momentsFrom_inside hr ht
  refine ⟨⟨blanks.map Moment.token, comments.map Moment.token, ?_, ?_, ?_, ?_⟩, ?_, ?_, ?_, hevents⟩
  · rw [← List.map_append, ← hsplit]
    exact (m.map_token_momentsFrom (.ofLine t) s).symm
  · rwa [List.length_map]
  · exact List.forall_mem_map.mpr hblanks
  · exact List.forall_mem_map.mpr hcomments
  · intro mo hmo
    rw [hsplit] at hmo
    have hmoment := hafter mo hmo
    refine ⟨?_, hmoment ▸ hr, hmoment ▸ hn⟩
    rcases List.mem_append.mp hmo with hmo | hmo
    · exact .inr (hblanks mo hmo)
    · exact .inl (hcomments mo hmo)
  · by_cases hne : t = []
    · rw [hne, readLine_nil]
      exact hr
    · rw [hstate hne]
      exact hr
  · by_cases hne : t = []
    · rw [hne, readLine_nil]
      exact .inl rfl
    · rw [hstate hne]
      exact .inr hn

/-- **Lines without a terminator belong to the comment**, however many. -/
theorem staysInside (hr : s.region = .comment) (hn : s.nesting.modifyTop .startLine = n)
    {ts : List (List Char)} (hts : ∀ t ∈ ts, ¬Lexis.Comment.terminator <:+: t) :
    m.StaysInside n s ts := by
  induction ts generalizing s with
  | nil => exact ⟨by simp [highlightFrom], by simp [moments], hr, .inl rfl, rfl⟩
  | cons t ts ih =>
    obtain ⟨ht, hrest⟩ := List.forall_mem_cons.mp hts
    obtain ⟨hline, hinside, hregion, hnesting, hevents⟩ := m.inside_line hr hn ht
    -- a line start does nothing to frames that have seen one, so `n` is the same for the lines below
    have hbehind := ih hregion (startLine_of_eq_or_eq hn hnesting) hrest
    refine ⟨?_, ?_, hbehind.region, ?_, ?_⟩
    · rw [highlightFrom_cons]
      exact List.forall_mem_cons.mpr ⟨hline, hbehind.lines⟩
    · exact List.forall_mem_append.mpr ⟨hinside, hbehind.moments⟩
    · rcases hbehind.nesting with hsame | hstarted
      · rcases hnesting with h | h
        · exact .inl (hsame.trans h)
        · exact .inr (hsame.trans h)
      · exact .inr hstarted
    · rw [trace, hevents, hbehind.trace]
      rfl

variable {m} in
theorem StaysInside.startLine_nesting {ts : List (List Char)} (h : m.StaysInside n s ts)
    (hn : s.nesting.modifyTop .startLine = n) : (m.feed s ts).nesting.modifyTop .startLine = n :=
  startLine_of_eq_or_eq hn h.nesting

/-! ## The line on which a comment ends -/

/-- **The comment ends with the first terminator of a line.** -/
theorem leavesAt (hr : s.region = .comment) (hn : s.nesting.modifyTop .startLine = n) {t : List Char}
    {i : Nat} (hi : IsLeast {i | Lexis.Comment.EndsAt t i} i) : m.LeavesAt n s t (i + 2) := by
  -- the reader looks behind the blanks only, where the first terminator is the same one
  have hbehind : IsLeast {i | (Text.lead t).length ≤ i ∧
      Lexis.Comment.EndsAt (Text.lead t ++ Text.trimStart t) i} i := by
    rw [Text.lead_append_trimStart]
    exact ⟨⟨Lexis.Comment.length_lead_le_of_endsAt hi.1, hi.1⟩, fun j hj => hi.2 hj.2⟩
  obtain ⟨k, rfl, hk⟩ := Lexis.Comment.exists_isLeast_of_append hbehind
  have hlexeme := Lexeme.ofComment_of_isLeast hk
  have hne : Text.trimStart t ≠ [] := by
    intro hnil
    obtain ⟨u, hu⟩ := hk.1
    rw [hnil] at hu
    simp [Lexis.Comment.terminator] at hu
  obtain ⟨c, u, hcontent⟩ := List.exists_cons_of_ne_nil hne
  have hread : Lexeme.read m.vocabulary [] s.region (c :: u) =
      { size := k + 2, style := some .comment, entered := [.code] } := by
    rw [hr, ← hcontent]
    exact hlexeme
  obtain ⟨⟨blanks, last, later, hsplit, hone, -, hblanks, hstyle, hstop, hafter, hlater⟩, hstate, hevents⟩ :=
    m.exists_momentsFrom_comment s hcontent hread rfl
  have hregion : last.after.region = .code := by
    rw [hafter]
    rfl
  rw [← hafter, hregion] at hlater hstate hevents
  rw [hr] at hevents
  refine ⟨blanks, last, later, hsplit, hone, ?_, ⟨hstyle, hregion, ?_, hstop⟩, hlater, hstate, hevents⟩
  · intro mo hmo
    exact ⟨(hblanks mo hmo).1, inside_blanks hr hn (hblanks mo hmo)⟩
  · rw [hafter]
    exact hn

end Mode

/-! ## A comment that starts in code -/

/-- What a step does that reads a block comment from its opening characters at the cursor on, in a state
`ready` in code. The terminator is looked for behind the two characters that open the comment. -/
structure Step.OpensComment (after : Step) (c : Cursor) (ready : State) : Prop where
  style : after.style = some .comment
  closed : ∀ i, IsLeast {i | 2 ≤ i ∧ Lexis.Comment.EndsAt c.rest i} i →
    after.cursor = c.advance (i + 2) ∧ after.state.region = .code
  unclosed : (∀ i, 2 ≤ i → ¬Lexis.Comment.EndsAt c.rest i) →
    after.cursor = c.advance c.rest.length ∧ after.state.region = .comment
  nesting : after.state.nesting = ready.nesting
  events : ∀ e ∈ after.events, e.isPush = false ∧ e.isPop = false

namespace Mode

variable (m : Mode)

theorem opensComment_step {h : Host} {c : Cursor} {s : State} {u : List Char} (hs : s.region = .code)
    (hend : h.atLineEnd c = false) (hrest : c.rest = '/' :: '*' :: u) :
    (m.step h c s).OpensComment c (prepare h c s) := by
  have hl : Lexeme.read m.vocabulary c.token s.region c.rest = (Lexeme.ofComment u).behind 2 .comment := by
    rw [hs, hrest]
    rfl
  have hstep := m.step_of_not_isBlank s hrest rfl hend
  simp only [hl, absorb_comment (l := (Lexeme.ofComment u).behind 2 .comment) rfl] at hstep
  have hregion : (m.step h c s).state.region = (Lexeme.ofComment u).regionAfter .comment := by
    rw [hstep]
    simp only [State.enter, Lexeme.behind, List.getLastD_cons, Lexeme.regionAfter]
  refine ⟨?_, ?_, ?_, ?_, ?_⟩
  · rw [hstep]
    rfl
  · intro i hi
    rw [hrest] at hi
    obtain ⟨k, rfl, hk⟩ := Lexis.Comment.exists_isLeast_of_append (a := ['/', '*']) hi
    rw [hregion, hstep, Lexeme.ofComment_of_isLeast hk]
    exact ⟨congrArg c.advance (Nat.add_assoc 2 k 2).symm, rfl⟩
  · intro hnone
    have hin : ¬Lexis.Comment.terminator <:+: u := by
      intro hin
      obtain ⟨k, hk⟩ := (Lexis.Comment.isInfix_iff_exists_endsAt u).mp hin
      refine hnone (2 + k) (Nat.le_add_right 2 k) ?_
      rw [hrest]
      exact (Lexis.Comment.endsAt_append_iff ['/', '*'] u k).mpr hk
    rw [hregion, hstep, Lexeme.ofComment_of_not_isInfix hin, hrest]
    exact ⟨congrArg c.advance (Nat.add_comm 2 u.length), rfl⟩
  · rw [hstep]
    rfl
  · rw [hstep]
    exact fun e he => Event.not_isPush_of_mem_switches he

/-- **A block comment extends over lines to the first terminator.** From any state in a comment, lines without
a terminator belong to it as a whole, whatever else stands on them. On the first line with a terminator the
comment ends right behind the first one, and the reader is in code there. Up to that point no frame is opened
or closed: the frames are those of the state or, once a line has started, the same with what a line start
does to the top one. In code, a comment goes from its opening characters to the first terminator that begins
behind them. -/
theorem comment_extends_to_first_terminator (s : State) :
    (s.region = .comment → ∀ ts : List (List Char), (∀ t ∈ ts, ¬Lexis.Comment.terminator <:+: t) →
      let n := s.nesting.modifyTop .startLine
      m.StaysInside n s ts ∧
        ∀ t i, IsLeast {i | Lexis.Comment.EndsAt t i} i → m.LeavesAt n (m.feed s ts) t (i + 2)) ∧
    (s.region = .code → ∀ (h : Host) (c : Cursor) (u : List Char), h.atLineEnd c = false →
      c.rest = '/' :: '*' :: u → (m.step h c s).OpensComment c (prepare h c s)) := by
  constructor
  · intro hr ts hts n
    have hstays : m.StaysInside n s ts := m.staysInside hr rfl hts
    refine ⟨hstays, fun t i hi => ?_⟩
    exact m.leavesAt hstays.region (hstays.startLine_nesting rfl) hi
  · intro hs h c u hend hrest
    exact m.opensComment_step hs hend hrest

/-- A star and a slash on two lines, with an empty line between them, inside a parenthesis that nothing has
followed yet; then a run of stars and two terminators. And a slash right behind the opening characters. -/
theorem comment_extends_to_first_terminator_split :
    let m : Mode := {}
    let s := m.feed (m.start 2) ["f( /*".toList]
    let n := s.nesting.modifyTop .startLine
    let ts := ["a *".toList, [], "/ ( \"".toList]
    let t := "\t**/ x */".toList
    let c : Cursor := .ofLine "/*/ b*/".toList
    (s.region = .comment ∧ s.nesting ≠ n ∧ m.StaysInside n s ts ∧
        IsLeast {i | Lexis.Comment.EndsAt t i} 2 ∧ m.LeavesAt n (m.feed s ts) t 4) ∧
      IsLeast {i | 2 ≤ i ∧ Lexis.Comment.EndsAt c.rest i} 5 ∧
        (m.step (.faithful m.tabSize) c (m.start 0)).cursor = c.advance 7 := by
  intro m s n ts t c
  have hr : s.region = .comment := by decide +kernel
  have hts : ∀ t ∈ ts, ¬Lexis.Comment.terminator <:+: t := by decide +kernel
  have hleast {P : Nat → Prop} {k : Nat} (hat : P k) (hbefore : ∀ j < k, ¬P j) : IsLeast {i | P i} k :=
    ⟨hat, fun j hj => Nat.not_lt.mp fun hlt => hbefore j hlt hj⟩
  have ht : IsLeast {i | Lexis.Comment.EndsAt t i} 2 := hleast (by decide +kernel) (by decide +kernel)
  have hc : IsLeast {i | 2 ≤ i ∧ Lexis.Comment.EndsAt c.rest i} 5 :=
    hleast (by decide +kernel) (by decide +kernel)
  obtain ⟨hstays, hleaves⟩ := (m.comment_extends_to_first_terminator s).1 hr ts hts
  have hopens := (m.comment_extends_to_first_terminator (m.start 0)).2 rfl (.faithful m.tabSize) c _ rfl rfl
  exact ⟨⟨hr, by decide +kernel, hstays, ht, hleaves t 2 ht⟩, hc, (hopens.closed 5 hc).1⟩

end Mode

end BraceMode
