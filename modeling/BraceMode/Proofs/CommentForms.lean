import BraceMode.Capabilities
import BraceMode.Proofs.CommentEnds
import BraceMode.Proofs.LineEnds

/-! The comments that an editor is told to write are comments to the reader. A block comment is one token for
each of its lines, behind the blanks that the line starts with: the text of a comment ends with its first
terminator and otherwise with its line, so a body without a terminator is read to the end, line after line,
and the terminator at the end of the last line is the first one that is found. Nothing in between looks at
the frames. -/

namespace BraceMode

/-- Lines that, read from state `s` on, are one block comment. All tokens but the last leave the reader inside
it, and the last one ends it with the last line. The frames are those of the first line when it has started,
and nothing is logged but the way into the comment and the way out. -/
def Mode.ReadsAsBlock (m : Mode) (s : State) (ts : List (List Char)) : Prop :=
  let n := s.nesting.modifyTop .startLine
  ∃ init last line, m.moments s ts = init ++ [last] ∧ ts.getLast? = some line ∧
    (∀ mo ∈ init, mo.Inside n) ∧ last.Ends n line ∧ m.feed s ts = last.after ∧
    m.trace s ts = [.switch .code .comment, .switch .comment .code]

namespace Lexis.Comment

/-! ## The first terminator -/

theorem isInfix_cons_iff {c : Char} (hc : c ≠ '*') (t : List Char) :
    terminator <:+: c :: t ↔ terminator <:+: t := by
  rw [List.infix_cons_iff, or_iff_right]
  intro h
  exact hc (List.cons_prefix_cons.mp h).1.symm

theorem isInfix_concat_iff {c : Char} (hc : c ≠ '/') (t : List Char) :
    terminator <:+: t ++ [c] ↔ terminator <:+: t := by
  rw [List.infix_concat_iff, or_iff_right]
  rintro ⟨u, hu⟩
  have hlast := congrArg List.getLast? hu
  simp [terminator, hc.symm] at hlast

/-- The terminator behind `a` is the first one if `a` holds none, not even one that it shares a star with. -/
theorem isLeast_endsAt_append {a : List Char} (h : ¬terminator <:+: a ++ ['*']) :
    IsLeast {i | EndsAt (a ++ terminator) i} a.length := by
  constructor
  · exact (endsAt_append_iff a terminator 0).mpr List.prefix_rfl
  · intro j hj
    by_contra hlt
    have hle : j < a.length := Nat.not_le.mp hlt
    have hcut : (a ++ terminator).drop j = a.drop j ++ ['*'] ++ ['/'] := by
      rw [List.drop_append_of_le_length (Nat.le_of_lt hle), List.append_assoc]
      rfl
    have hat : terminator <+: a.drop j ++ ['*'] ++ ['/'] := hcut ▸ hj
    have hshort : terminator <+: a.drop j ++ ['*'] := by
      refine List.prefix_of_prefix_length_le hat (List.prefix_append _ _) ?_
      simp [terminator]
      omega
    have hsuffix : a.drop j ++ ['*'] <:+ a ++ ['*'] :=
      ⟨a.take j, by rw [← List.append_assoc, List.take_append_drop]⟩
    exact h (hshort.isInfix.trans hsuffix.isInfix)

end Lexis.Comment

theorem Lexeme.ofComment_append {a : List Char} (h : ¬Lexis.Comment.terminator <:+: a ++ ['*']) :
    ofComment (a ++ Lexis.Comment.terminator) =
      { size := (a ++ Lexis.Comment.terminator).length, style := some .comment, entered := [.code] } := by
  rw [ofComment_of_isLeast (Lexis.Comment.isLeast_endsAt_append h), List.length_append]
  rfl

/-! ## From the opening characters to the terminator -/

namespace Mode

variable (m : Mode) {s : State} {n : Nesting}

/-- Lines without a terminator, and a last one that ends with its first: a comment to the last character. -/
theorem ends_lines (hr : s.region = .comment) (hn : s.nesting.modifyTop .startLine = n)
    {ls : List (List Char)} (hls : ∀ l ∈ ls, ¬Lexis.Comment.terminator <:+: l) {z : List Char}
    (hz : ¬Lexis.Comment.terminator <:+: z ++ ['*']) :
    let t := z ++ Lexis.Comment.terminator
    (∃ init last, m.moments s (ls ++ [t]) = init ++ [last] ∧ (∀ mo ∈ init, mo.Inside n) ∧
        last.Ends n t ∧ m.feed s (ls ++ [t]) = last.after) ∧
      m.trace s (ls ++ [t]) = [.switch .comment .code] := by
  intro t
  have hstays := m.staysInside hr hn hls
  have hleaves : m.LeavesAt n (m.feed s ls) t t.length := by
    rw [List.length_append]
    exact m.leavesAt hstays.region (hstays.startLine_nesting hn) (Lexis.Comment.isLeast_endsAt_append hz)
  obtain ⟨blanks, last, later, hsplit, -, hblanks, hends, hlater, hstate, hevents⟩ := hleaves
  simp only [List.take_length, List.drop_length, pieces_nil, trail, List.map_eq_nil_iff, layOut]
    at hends hlater hstate hevents
  refine ⟨⟨m.moments s ls ++ blanks, last, ?_, ?_, hends, ?_⟩, ?_⟩
  · rw [moments_append, moments, moments, hsplit, hlater, List.append_nil, List.append_assoc]
  · exact List.forall_mem_append.mpr ⟨hstays.moments, fun mo hmo => (hblanks mo hmo).2⟩
  · rw [feed_append]
    exact hstate
  · rw [trace_append, hstays.trace, trace, trace, hevents]
    rfl

end Mode

/-! ## The two forms -/

theorem Text.dropReturn_isInfix_of_mem {ls : List (List Char)} {l : List Char} (hl : l ∈ ls)
    (tail : List Char) : dropReturn l <:+: unlines ls ++ tail := by
  obtain ⟨before, after, rfl⟩ := List.append_of_mem hl
  have hbegins : dropReturn l <+: l := by
    unfold dropReturn
    split
    · exact List.dropLast_prefix l
    · exact List.prefix_rfl
  refine hbegins.isInfix.trans ⟨unlines before, '\n' :: unlines after ++ tail, ?_⟩
  simp [unlines]

/-- The lines of a block comment: the whole of it, or the opening characters with the first line of the text,
lines of the text, and its last line with the terminator. -/
theorem lines_blockComment (t : List Char) :
    let comment := '/' :: '*' :: ' ' :: (t ++ ' ' :: Lexis.Comment.terminator)
    Text.lines comment = [comment] ∨
      ∃ x ls y, Text.lines comment =
          ('/' :: '*' :: ' ' :: x) :: (ls ++ [y ++ ' ' :: Lexis.Comment.terminator]) ∧
        ∀ l ∈ x :: y :: ls, l <:+: t := by
  intro comment
  obtain ⟨ls, tail, rfl, hls, htail⟩ := Text.exists_eq_unlines_append t
  cases ls with
  | nil =>
    have hline : '\n' ∉ comment := by simpa [comment, Lexis.Comment.terminator] using htail
    exact .inl (by rw [Text.lines_of_not_mem hline, Text.lastLine, if_neg (List.cons_ne_nil _ _)])
  | cons l ls =>
    let y := tail ++ ' ' :: Lexis.Comment.terminator
    have hcut : comment = Text.unlines (('/' :: '*' :: ' ' :: l) :: ls) ++ y := by
      simp [comment, y, Text.unlines]
    have hlines : ∀ k ∈ ('/' :: '*' :: ' ' :: l) :: ls, '\n' ∉ k := by
      simpa using hls
    have hlast : '\n' ∉ y := by simpa [y, Lexis.Comment.terminator] using htail
    have hfirst : Text.dropReturn ('/' :: '*' :: ' ' :: l) = '/' :: '*' :: ' ' :: Text.dropReturn l := by
      rw [Text.dropReturn_cons (by simp), Text.dropReturn_cons (by simp), Text.dropReturn_cons (by simp)]
    have hinfix {k : List Char} (hk : k ∈ l :: ls) := Text.dropReturn_isInfix_of_mem hk tail
    refine .inr ⟨Text.dropReturn l, ls.map Text.dropReturn, tail, ?_, ?_⟩
    · rw [hcut, Text.lines_unlines_append hlines hlast, List.map_cons, hfirst, Text.lastLine,
        if_neg (by simp [y])]
      rfl
    · intro k hk
      rcases List.mem_cons.mp hk with hk | hk
      · exact hk ▸ hinfix List.mem_cons_self
      · rcases List.mem_cons.mp hk with hk | hk
        · exact hk ▸ (List.suffix_append _ tail).isInfix
        · obtain ⟨j, hj, rfl⟩ := List.mem_map.mp hk
          exact hinfix (List.mem_cons_of_mem l hj)

namespace Mode

variable (m : Mode) {s : State}

/-- A line of code that is a block comment from its first character to its last. -/
theorem opens_line (hs : s.region = .code) {u : List Char} {entered : List Region}
    (hu : Lexeme.ofComment u = { size := u.length, style := some .comment, entered := entered }) :
    let t := '/' :: '*' :: u
    ∃ first, m.momentsFrom (.ofLine t) s = [first] ∧ first.token.style = some .comment ∧
      first.token.stop = Text.byteSize t ∧ first.after = (m.lineState s t).enter (.comment :: entered) ∧
      (m.readLine s t).state = first.after ∧
      (m.readLine s t).events = Event.switches .code (.comment :: entered) := by
  intro t
  have hread : Lexeme.read m.vocabulary [] s.region t =
      { size := t.length, style := some .comment, entered := .comment :: entered } := by
    have hcode : Lexeme.read m.vocabulary [] .code t = (Lexeme.ofComment u).behind 2 .comment := rfl
    rw [hs, hcode, hu, Lexeme.behind, Nat.add_comm]
    rfl
  obtain ⟨⟨blanks, last, hsplit, -, hnone, -, hstyle, hstop, hafter⟩, hstate, hevents⟩ :=
    m.exists_momentsFrom_commentLine s (t := t) rfl hread rfl rfl
  rw [hnone rfl, List.nil_append] at hsplit
  rw [hs] at hevents
  exact ⟨last, hsplit, hstyle, hstop, hafter, hstate.trans hafter.symm, hevents⟩

/-- A line comment is one token from its first character to its last, and code goes on behind it. -/
theorem readLine_lineComment (hs : s.region = .code) (u : List Char) :
    let t := '/' :: '/' :: u
    (m.readLine s t).tokens = [⟨t, some .comment, 0, Text.byteSize t⟩] ∧
      (m.readLine s t).state = m.lineState s t ∧ (m.readLine s t).events = [] := by
  intro t
  have hread : Lexeme.read m.vocabulary [] s.region t = { size := t.length, style := some .comment } := by
    have hcode : Lexeme.read m.vocabulary [] .code t = { size := 2 + u.length, style := some .comment } :=
      rfl
    rw [hs, hcode, Nat.add_comm]
    rfl
  obtain ⟨-, hstate, hevents⟩ := m.exists_momentsFrom_commentLine s (t := t) rfl hread rfl rfl
  exact ⟨m.readLine_tokens_of_pieces (pieces_eq_singleton rfl hread rfl), hstate, hevents⟩

/-- A block comment on one line. -/
theorem readsAsBlock_singleton (hs : s.region = .code) {z : List Char}
    (hz : ¬Lexis.Comment.terminator <:+: z ++ ['*']) :
    m.ReadsAsBlock s ['/' :: '*' :: (z ++ Lexis.Comment.terminator)] := by
  obtain ⟨last, hmoments, hstyle, hstop, hafter, hstate, hevents⟩ :=
    m.opens_line hs (Lexeme.ofComment_append hz)
  refine ⟨[], last, _, ?_, rfl, by simp, ⟨hstyle, ?_, ?_, hstop⟩, hstate, ?_⟩
  · rw [moments, moments, List.append_nil, hmoments]
    rfl
  · rw [hafter]
    rfl
  · rw [hafter]
    rfl
  · rw [trace, trace, List.append_nil, hevents]
    rfl

/-- A block comment on several lines. -/
theorem readsAsBlock_lines (hs : s.region = .code) {x : List Char} (hx : ¬Lexis.Comment.terminator <:+: x)
    {ls : List (List Char)} (hls : ∀ l ∈ ls, ¬Lexis.Comment.terminator <:+: l) {z : List Char}
    (hz : ¬Lexis.Comment.terminator <:+: z ++ ['*']) :
    m.ReadsAsBlock s (('/' :: '*' :: x) :: (ls ++ [z ++ Lexis.Comment.terminator])) := by
  obtain ⟨first, hmoments, hstyle, -, hafter, hstate, hevents⟩ :=
    m.opens_line hs (Lexeme.ofComment_of_not_isInfix hx)
  have hregion : first.after.region = .comment := by
    rw [hafter]
    rfl
  have hnesting : first.after.nesting = s.nesting.modifyTop .startLine := by
    rw [hafter]
    rfl
  have hstarted : first.after.nesting.modifyTop .startLine = s.nesting.modifyTop .startLine := by
    rw [hnesting, Nesting.startLine_startLine]
  obtain ⟨⟨init, last, hsplit, hinit, hends, hfeed⟩, htrace⟩ :=
    m.ends_lines hregion hstarted hls hz
  refine ⟨first :: init, last, _, ?_, ?_, ?_, hends, ?_, ?_⟩
  · rw [moments, hmoments, hstate, hsplit]
    rfl
  · rw [← List.cons_append, List.getLast?_concat]
  · exact List.forall_mem_cons.mpr ⟨⟨.inl hstyle, hregion, hnesting⟩, hinit⟩
  · rw [← hfeed, ← hstate]
    rfl
  · rw [trace, hevents, hstate, htrace]
    rfl

/-- **The comment forms are comments.** In any state in code, wrap any text without a terminator in the block
form: its lines are one block comment, that is, they show nothing but comments and blanks, end the comment
with the last character of the last line and not before, and open and close no frame. Any text behind the
line form, read as one line, is one comment over the whole line: the line has started, and nothing else has
changed. -/
theorem comment_forms_are_comments (s : State) (hs : s.region = .code) :
    (∀ t : String, ¬Lexis.Comment.terminator <:+: t.toList →
      m.ReadsAsBlock s (Text.lines (({} : Capabilities).blockComment t).toList)) ∧
    ∀ t : String,
      let line := (({} : Capabilities).commentLine t).toList
      (m.readLine s line).tokens = [⟨line, some .comment, 0, Text.byteSize line⟩] ∧
        (m.readLine s line).state = m.lineState s line ∧ (m.readLine s line).events = [] := by
  constructor
  · intro t ht
    have hbody : (({} : Capabilities).blockComment t).toList =
        '/' :: '*' :: ' ' :: (t.toList ++ ' ' :: Lexis.Comment.terminator) := by
      simp [Capabilities.blockComment, Lexis.Comment.terminator]
    have hclear {z : List Char} (hz : ¬Lexis.Comment.terminator <:+: z) :
        ¬Lexis.Comment.terminator <:+: z ++ [' '] ++ ['*'] := by
      rwa [Lexis.Comment.isInfix_concat_iff (by decide), Lexis.Comment.isInfix_concat_iff (by decide)]
    have hspace {z : List Char} (hz : ¬Lexis.Comment.terminator <:+: z) :
        ¬Lexis.Comment.terminator <:+: ' ' :: z := by
      rwa [Lexis.Comment.isInfix_cons_iff (by decide)]
    rw [hbody]
    rcases lines_blockComment t.toList with hone | ⟨x, ls, y, hmany, hpart⟩
    · rw [hone]
      have h := m.readsAsBlock_singleton hs (hclear (hspace ht))
      simpa using h
    · have hfree : ∀ l ∈ x :: y :: ls, ¬Lexis.Comment.terminator <:+: l := by
        intro l hl hin
        exact ht (hin.trans (hpart l hl))
      obtain ⟨hx, hy, hls⟩ := by simpa using hfree
      have h := m.readsAsBlock_lines hs (hspace hx) hls (hclear hy)
      rw [hmany]
      simpa using h
  · intro t
    have hline : (({} : Capabilities).commentLine t).toList = '/' :: '/' :: ' ' :: t.toList := by
      simp [Capabilities.commentLine]
    simp only [hline]
    exact m.readLine_lineComment hs _

/-- A star and a slash on two lines, an empty line, a bracket, a quote and a star at the end, inside a
parenthesis that nothing has followed yet. -/
theorem comment_forms_are_comments_split :
    let m : Mode := {}
    let s := m.feed (m.start 2) ["f(".toList]
    let t := "a *\r\n/ ( \"\n\n\t*"
    s.region = .code ∧ ¬Lexis.Comment.terminator <:+: t.toList ∧
      m.ReadsAsBlock s (Text.lines (({} : Capabilities).blockComment t).toList) ∧
      (m.readLine s (({} : Capabilities).commentLine t).toList).events = [] := by
  intro m s t
  have hs : s.region = .code := by decide +kernel
  have ht : ¬Lexis.Comment.terminator <:+: t.toList := by decide +kernel
  obtain ⟨hblock, hline⟩ := m.comment_forms_are_comments s hs
  exact ⟨hs, ht, hblock t ht, (hline t).2.2⟩

end Mode

end BraceMode
