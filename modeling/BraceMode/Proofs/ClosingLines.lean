import BraceMode.Proofs.FrameOrigins

/-! Lines that close a frame, as the suggestion sees them and as reading finds them. The suggestion looks at
the top frame before the line starts, and reading looks at it afterwards, when a label is no longer shown.
So the two agree on every closer but one: a brace in front of which the top frame shows a label closes that
frame and is not suggested so, and a brace at a root that a label has turned into a brace frame is
suggested as closing and closes nothing. -/

namespace BraceMode

def closers : List Char := ['}', ']', ')']

namespace Mode

variable (m : Mode)

/-- Whether the first token of a line that is not blank closes a frame. -/
def closesFirst (s : State) (t : List Char) : Bool :=
  ((m.momentsFrom (.ofLine t) s).find? fun mo => !mo.token.isBlank).any Moment.closes

end Mode

/-! ## What the suggestion sees -/

theorem startsWithLabel_of_mem_closers {c : Char} (hc : c ∈ closers) (r : List Char) :
    startsWithLabel (c :: r) = false := by
  simp only [closers, List.mem_cons, List.not_mem_nil, or_false] at hc
  rcases hc with rfl | rfl | rfl <;> simp [startsWithLabel, Vocabulary.labels]

theorem Frame.closedBy_cons (f : Frame) (c : Char) (r : List Char) :
    f.closedBy (c :: r) = true ↔ f.kind.closer? = some c := by
  unfold closedBy
  cases f.kind.closer? with
  | none => simp
  | some d =>
    simp only [List.head?_cons, Option.isSome_some, Bool.true_and, beq_iff_eq]
    exact eq_comm

/-- A line that starts with a closer is given the anchor of the top frame exactly when it closes that. -/
theorem Mode.suggest_eq_anchor_iff (m : Mode) {s : State} (hcode : s.region = .code) {t r : List Char}
    {c : Char} (ht : Text.trimStart t = c :: r) (hc : c ∈ closers) :
    m.suggest s t = some s.nesting.top.anchor ↔ s.nesting.top.kind.closer? = some c := by
  have hlabel : ¬(s.nesting.top.kind = .label ∧ startsWithLabel (c :: r) = true) := by
    simp [startsWithLabel_of_mem_closers hc]
  rw [suggest, if_pos hcode, ht, Frame.columnFor_of_not_label hlabel,
    ← Frame.closedBy_cons s.nesting.top c r, Option.some.injEq]
  split
  · rename_i hclosed
    simp [hclosed]
  · rename_i hclosed
    have hunit := m.indentUnit_le
    unfold maxWidth at hunit
    simp only [hclosed, Bool.false_eq_true, iff_false]
    exact wrapColumn_add_ne m.indentUnit_pos (by omega) _

/-! ## What reading finds -/

namespace Mode

variable (m : Mode)

/-- In front of a character that is not blank the next token is the one looked for. -/
theorem find?_momentsFrom {c : Cursor} (s : State) {d : Char} {r : List Char} (hc : c.rest = d :: r)
    (hd : Text.isBlank d = false) :
    let before := c.passed.reverse ++ c.token
    let p := Piece.first m.vocabulary s.region (d :: r)
    (m.momentsFrom c s).find? (fun mo => !mo.token.isBlank) =
      some ⟨s, p.toToken (Text.byteSize before),
        (p.act m.tabSize before (prepare (.faithful m.tabSize) c.mark s)).1⟩ := by
  intro before p
  have hblank : (p.toToken (Text.byteSize before)).isBlank = false :=
    Piece.not_allBlank_first m.vocabulary s.region r hd
  rw [m.momentsFrom_of_rest_ne_nil s (by simp [hc]), hc, List.find?_cons_of_pos]
  exact Bool.not_eq_eq_eq_not.mpr hblank

/-- The first token of a line that is not blank is read when the line has started, at the same depth. -/
theorem exists_find?_momentsFrom (s : State) {t r : List Char} {c : Char} (ht : Text.trimStart t = c :: r) :
    ∃ mo start, (m.momentsFrom (.ofLine t) s).find? (fun mo => !mo.token.isBlank) = some mo ∧
      mo.before.nesting.depth = s.nesting.depth ∧
      mo.token = (Piece.first m.vocabulary s.region (c :: r)).toToken start ∧
      Takes mo.token (m.lineState s t).nesting (m.lineState s t).indented mo.after.nesting
        mo.after.indented := by
  have hc := Text.not_isBlank_of_trimStart ht
  have htakes (before : List Char) := Piece.takes_first m.vocabulary (Text.byteSize before) m.tabSize before
    (m.lineState s t) (List.cons_ne_nil c r)
  have hsplit := Text.lead_append_trimStart t
  rw [ht] at hsplit
  cases hlead : Text.lead t with
  | nil =>
    have hline : t = c :: r := by rw [← hsplit, hlead]; rfl
    have hfind := m.find?_momentsFrom (c := .ofLine t) s hline hc
    exact ⟨_, _, hfind, rfl, rfl, htakes []⟩
  | cons b bs =>
    -- The blanks in front start the line and are passed over.
    have hb : Text.isBlank b = true := Text.isBlank_of_mem_lead (hlead ▸ List.mem_cons_self)
    have hline : t = b :: (bs ++ c :: r) := by rw [← hsplit, hlead]; rfl
    have hfirst : Piece.first m.vocabulary s.region t = ⟨Text.lead t, none⟩ := by
      rw [hline]
      exact Piece.first_of_isBlank m.vocabulary s.region _ hb
    let d : Cursor := (Cursor.ofLine t).mark.advance (Text.lead t).length
    have hmoments : m.momentsFrom (.ofLine t) s =
        ⟨s, Piece.toToken 0 ⟨Text.lead t, none⟩, m.lineState s t⟩ :: m.momentsFrom d (m.lineState s t) := by
      have h := m.momentsFrom_of_rest_ne_nil (c := .ofLine t) s (by simp [Cursor.ofLine, hline])
      simp only [show (Cursor.ofLine t).rest = t from rfl, hfirst] at h
      exact h
    have hrest : d.rest = c :: r := (Lexis.drop_run Text.isBlank t).trans ht
    have htoken : d.token ≠ [] := by
      have htake : d.token = Text.lead t := Lexis.take_run Text.isBlank t
      simp [htake, hlead]
    have hfind := m.find?_momentsFrom (c := d) (m.lineState s t) hrest hc
    rw [prepare_mark_of_token_ne_nil m.tabSize _ htoken] at hfind
    have hblank : (Piece.toToken 0 ⟨Text.lead t, none⟩).isBlank = true := Text.allBlank_lead t
    rw [hmoments, List.find?_cons_of_neg (by simp [hblank])]
    exact ⟨_, _, hfind, s.nesting.depth_modifyTop .startLine, rfl, htakes _⟩

/-- A line that starts with a closer closes the top frame exactly when the closer fits that, once a label is
no longer shown, and there is a frame inside the root. -/
theorem closesFirst_iff {s : State} (hcode : s.region = .code) {t r : List Char} {c : Char}
    (ht : Text.trimStart t = c :: r) :
    m.closesFirst s t = true ↔
      s.nesting.inner ≠ [] ∧ s.nesting.top.startLine.kind.closer? = some c := by
  obtain ⟨mo, start, hfind, hdepth, htoken, htakes⟩ := m.exists_find?_momentsFrom s ht
  have htop : (m.lineState s t).nesting.top = s.nesting.top.startLine := s.nesting.top_modifyTop .startLine
  have hinner : (m.lineState s t).nesting.inner ≠ [] ↔ s.nesting.inner ≠ [] := by
    have hlength : (m.lineState s t).nesting.inner.length = s.nesting.inner.length :=
      Nat.succ.inj (s.nesting.depth_modifyTop .startLine)
    rw [← List.length_pos_iff, hlength, List.length_pos_iff]
  have hline : (m.lineState s t).nesting.depth = s.nesting.depth := s.nesting.depth_modifyTop .startLine
  have hcloses (kind : FrameKind) : mo.token.closes kind = true ↔ kind.closer? = some c := by
    rw [htoken, hcode, Piece.closes_first m.vocabulary start r (Text.not_isBlank_of_trimStart ht),
      beq_iff_eq]
  rw [closesFirst, hfind, Option.any_some, Moment.closes, decide_eq_true_iff, hdepth, ← hline,
    htakes.depth_lt_iff, hcloses, htop, hinner]

/-! ## The two together -/

/-- The top frame of a reachable state with nothing inside the root is the root, as a root, as a brace or with
a label. -/
theorem top_kind_of_inner_eq_nil (base : Int) (ts : List (List Char)) :
    let n := (m.feed (m.start base) ts).nesting
    n.inner = [] → n.top.kind = .top ∨ n.top.kind = .brace ∨ n.top.kind = .label := by
  intro n hinner
  have htop : n.top = n.root := by simp [Nesting.top, hinner]
  rw [htop]
  exact m.root_kind_feed base ts

/-- **Which closing lines are suggested as such, and which close a frame.** For a line that starts with a
closer, in any state that a run reaches in code, the two come apart in two cases and in no other, both with
a brace: when the top frame is inside the root and shows a label, the line closes it and is not suggested
as closing; when the root has become a brace frame and nothing is open inside it, the line is suggested as
closing and closes nothing. Neither happens where no label word is a keyword. -/
theorem closing_suggested_iff_closes (base : Int) (ts : List (List Char)) {t r : List Char} {c : Char}
    (hcode : (m.feed (m.start base) ts).region = .code) (ht : Text.trimStart t = c :: r)
    (hc : c ∈ closers) :
    let s := m.feed (m.start base) ts
    let suggested : Prop := m.suggest s t = some s.nesting.top.anchor
    let closes : Prop := m.closesFirst s t = true
    (closes ∧ ¬suggested ↔ c = '}' ∧ s.nesting.inner ≠ [] ∧ s.nesting.top.kind = .label) ∧
      (suggested ∧ ¬closes ↔ c = '}' ∧ s.nesting.inner = [] ∧ s.nesting.top.kind = .brace) ∧
      (m.vocabulary.Unlabelled → (suggested ↔ closes)) := by
  intro s suggested closes
  have hsuggested : suggested ↔ s.nesting.top.kind.closer? = some c :=
    m.suggest_eq_anchor_iff hcode ht hc
  have hcloses : closes ↔ s.nesting.inner ≠ [] ∧ s.nesting.top.startLine.kind.closer? = some c :=
    m.closesFirst_iff hcode ht
  have hbrace : FrameKind.brace.closer? = some c ↔ c = '}' := by
    simp only [FrameKind.closer?, Option.some.injEq]
    exact eq_comm
  by_cases hlabel : s.nesting.top.kind = .label
  · -- The suggestion sees the label, which has no closer. Reading sees a brace frame.
    have hstarted : s.nesting.top.startLine.kind = .brace := if_pos hlabel
    have hno : ¬suggested := by simp [hsuggested, hlabel, FrameKind.closer?]
    rw [hstarted, hbrace] at hcloses
    refine ⟨?_, ?_, fun hv => ?_⟩
    · simp [hno, hcloses, hlabel, and_comm]
    · simp [hno, hlabel]
    · exact absurd hlabel (m.entries_feed hv (m.start_plain base) ts).2.top_kind_ne
  · rw [Frame.kind_startLine hlabel, ← hsuggested] at hcloses
    by_cases hinner : s.nesting.inner = []
    · -- Nothing closes the root, whatever its kind has become.
      have hno : ¬closes := by simp [hcloses, hinner]
      have hroot : suggested ↔ c = '}' ∧ s.nesting.top.kind = .brace := by
        rcases m.top_kind_of_inner_eq_nil base ts hinner with hkind | hkind | hkind
        · simp [hsuggested, s, hkind, FrameKind.closer?]
        · simp [hsuggested, s, hkind, hbrace]
        · exact absurd hkind hlabel
      refine ⟨by simp [hno, hinner], by simp [hno, hroot, hinner], fun hv => ?_⟩
      have hplain : s.Plain := (m.entries_feed hv (m.start_plain base) ts).2
      have hkind : s.nesting.top.kind = .top := by
        rw [hplain.top_kind]
        simp [State.kinds, hinner]
      simp [hno, hroot, hkind]
    · simp [hcloses, hinner, hlabel]

/-- A closer that fits the top frame and one that does not. -/
theorem closing_suggested_iff_closes_bracket :
    let m : Mode := {}
    let lines := ["f(a, [".toList, "x".toList]
    let s := m.feed (m.start 0) lines
    s.region = .code ∧ Text.trimStart " ], b)".toList = ']' :: ", b)".toList ∧
      (m.suggest s " ], b)".toList = some s.nesting.top.anchor ↔ m.closesFirst s " ], b)".toList = true) ∧
      m.closesFirst s " ], b)".toList = true ∧ m.suggest s " ], b)".toList = some 0 ∧
      (m.suggest s "\t)".toList = some s.nesting.top.anchor ↔ m.closesFirst s "\t)".toList = true) ∧
      m.closesFirst s "\t)".toList = false := by
  intro m lines s
  have hv : m.vocabulary.Unlabelled := by decide +kernel
  have hcode : s.region = .code := by decide +kernel
  have hbracket : Text.trimStart " ], b)".toList = ']' :: ", b)".toList := by decide +kernel
  have hparen : Text.trimStart "\t)".toList = [')'] := by decide +kernel
  obtain ⟨-, -, hagree⟩ := m.closing_suggested_iff_closes 0 lines hcode hbracket (by decide)
  obtain ⟨-, -, hagree'⟩ := m.closing_suggested_iff_closes 0 lines hcode hparen (by decide)
  refine ⟨hcode, hbracket, hagree hv, ?_, ?_, hagree' hv, ?_⟩
  · decide +kernel
  · decide +kernel
  · decide +kernel

/-- Behind a label the closing brace of its block is suggested one unit too far in, and closes the block. At
the outermost level a label makes a stray brace look like a closing one. -/
theorem closing_not_suggested_behind_label :
    let m : Mode := { vocabulary := Vocabulary.basic.extend ["case"] [] }
    let s := m.feed (m.start 0) ["switch (x) \x7b".toList, "  case 1:".toList]
    let u := m.feed (m.start 0) ["case".toList, "x".toList]
    (s.region = .code ∧ m.closesFirst s ['}'] = true ∧ s.nesting.top.anchor = 0 ∧
        m.suggest s ['}'] = some 2) ∧
      (u.region = .code ∧ m.closesFirst u ['}'] = false ∧ u.nesting.top.anchor = -2 ∧
        m.suggest u ['}'] = some (-2)) := by
  decide +kernel

end Mode

end BraceMode
