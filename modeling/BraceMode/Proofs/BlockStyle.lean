import BraceMode.Proofs.BlockLine
import BraceMode.Proofs.SameTokens

/-! Texts in block style are re-indented by depth. Two runs go over such a text: one reads the source, the
other the lines as they are written. They agree on the region and on the kinds of the open frames. In
the second one the frames are also where depth says: each carries one unit more than the frame it stands
on, and no frame is aligned. A line preserves this whether or not its first token closes a frame, and the
column suggested for a line can be read off it. -/

namespace BraceMode

/-- Frames of which each carries one unit of indentation for every frame it stands on, as long as that can be
held. -/
def Stacked (unit : Nat) : List Frame → Prop
  | [] => True
  | f :: fs =>
    (unit * fs.length ≤ maxColumn → f.indented = (unit * fs.length : Nat)) ∧ Stacked unit fs

/-- Open frames, between two lines, that are where depth says. -/
structure Blocked (unit : Nat) (n : Nesting) : Prop where
  root : n.root = .root (-unit)
  stacked : Stacked unit n.inner
  hanging : ∀ f ∈ n.inner.tail, f.alignment = .hanging
  top : n.top.alignment ≠ .aligned

namespace Blocked

variable {unit : Nat} {n : Nesting}

theorem root_kind (h : Blocked unit n) : n.root.kind = .top := by rw [h.root]; rfl

theorem root_alignment (h : Blocked unit n) : n.root.alignment = .hanging := by rw [h.root]; rfl

/-- Frames that hang have no alignment left to settle. -/
theorem of_hanging (hroot : n.root = .root (-unit)) (hstacked : Stacked unit n.inner)
    (hhanging : ∀ f ∈ n.inner, f.alignment = .hanging) : Blocked unit n := by
  refine ⟨hroot, hstacked, fun f hf => hhanging f (List.mem_of_mem_tail hf), ?_⟩
  have htop : n.top.alignment = .hanging := by
    obtain ⟨root, inner⟩ := n
    cases inner with
    | nil =>
      rw [show root = .root (-unit) from hroot]
      rfl
    | cons f fs => exact hhanging f List.mem_cons_self
  rw [htop]
  exact Alignment.noConfusion

/-- The next line settles the only frame that may still be pending. -/
theorem startLine (h : Blocked unit n) :
    Blocked unit (n.modifyTop .startLine) ∧
      ∀ f ∈ (n.modifyTop .startLine).inner, f.alignment = .hanging := by
  obtain ⟨root, inner⟩ := n
  obtain ⟨hroot, hstacked, hhanging, htop⟩ := h
  cases inner with
  | nil =>
    have hsame : root.startLine = .root (-unit) := by
      rw [show root = .root (-unit) from hroot]
      rfl
    exact ⟨of_hanging hsame hstacked hhanging, hhanging⟩
  | cons f fs =>
    have hf : f.startLine.alignment = .hanging := by
      have hne : f.alignment ≠ .aligned := htop
      show f.alignment.settle .hanging = .hanging
      cases ha : f.alignment with
      | pending => rfl
      | aligned => exact absurd ha hne
      | hanging => rfl
    have hall : ∀ g ∈ f.startLine :: fs, g.alignment = .hanging :=
      List.forall_mem_cons.mpr ⟨hf, hhanging⟩
    exact ⟨of_hanging hroot hstacked hall, hall⟩

/-- Orderly tokens leave the frames where depth says. -/
theorem layOut_of_orderly {u : State} {ps : List Piece} {start : Nat} (h : Blocked unit u.nesting)
    (hhanging : ∀ f ∈ u.nesting.inner, f.alignment = .hanging)
    (hindent : unit * u.nesting.inner.length ≤ maxColumn → u.indented = (unit * u.nesting.inner.length : Nat))
    (hps : ∀ p ∈ ps, p.Read)
    (ho : Orderly [] u.kinds (place start ps)) (tabSize : Nat) (before : List Char) :
    Blocked unit (layOut tabSize before u ps).1.nesting := by
  have hon : OnLine u.nesting.root u.nesting.inner u.indented [] (place start ps) u.nesting u.indented :=
    ⟨rfl, rfl, by simp, .inl (closesWithin_nil _)⟩
  obtain ⟨mine, hend⟩ := hon.layOut start tabSize before hps h.root_kind h.root_alignment hhanging ho
  rcases hend.at_end with hn | ⟨f, hn, hindented, hpending⟩
  · rw [hn]
    exact of_hanging h.root h.stacked hhanging
  · rw [hn]
    refine ⟨h.root, ⟨fun hfits => hindented.trans (hindent hfits), h.stacked⟩, hhanging, ?_⟩
    show f.alignment ≠ .aligned
    rw [hpending]
    exact Alignment.noConfusion

/-- So do orderly tokens behind one that takes the innermost frame away. -/
theorem layOut_of_closes {u : State} {p : Piece} {ps : List Piece} {start : Nat} {f : Frame}
    {fs : List Frame} (h : Blocked unit u.nesting) (hinner : u.nesting.inner = f :: fs)
    (hhanging : ∀ g ∈ u.nesting.inner, g.alignment = .hanging) (hread : ∀ q ∈ p :: ps, q.Read)
    (hf : (p.toToken start).closes f.kind = true)
    (ho : Orderly [] (matchToken u.kinds (p.toToken start)) (place (start + Text.byteSize p.text) ps))
    (tabSize : Nat) (before : List Char) :
    Blocked unit (layOut tabSize before u (p :: ps)).1.nesting := by
  obtain ⟨hp, hps⟩ := List.forall_mem_cons.mp hread
  have hstacked := h.stacked
  rw [hinner] at hstacked hhanging
  obtain ⟨-, hfs⟩ := List.forall_mem_cons.mp hhanging
  have hacts := hp.acts start tabSize before h.root_kind
  obtain ⟨hnesting, hindented⟩ := hacts.of_closes hinner hf
  rw [State.kinds, ← hacts.kinds] at ho
  refine layOut_of_orderly ?_ ?_ ?_ hps ho tabSize (before ++ p.text)
  · rw [hnesting]
    exact of_hanging h.root hstacked.2 hfs
  · rw [hnesting]
    exact hfs
  · rw [hnesting, hindented]
    exact hstacked.1

theorem closes_top (h : Blocked unit n) {k : Token} {t : List Char}
    (hk : ∀ f : Frame, k.closes f.kind = f.closedBy t) :
    (n.inner.map Frame.kind).head?.any k.closes = n.top.closedBy t := by
  obtain ⟨root, inner⟩ := n
  cases inner with
  | nil =>
    have hroot : root.kind = .top := h.root_kind
    simp [Nesting.top, Frame.closedBy, hroot, FrameKind.closer?]
  | cons f fs => exact hk f

/-- The content of a line in block style, written where depth says, leaves the frames where depth says. -/
theorem layOut_content {m : Mode} {s u : State} {l : List Char} (hv : m.vocabulary.Unlabelled)
    (hb : m.BlockLine s l) (hc : Text.allBlank l = false) (h : Blocked unit u.nesting)
    (hhanging : ∀ f ∈ u.nesting.inner, f.alignment = .hanging) (hkinds : u.kinds = s.kinds)
    (hindent : u.nesting.top.closedBy (Text.trimStart l) = false →
      unit * u.nesting.inner.length ≤ maxColumn → u.indented = (unit * u.nesting.inner.length : Nat))
    (tabSize : Nat) (before : List Char) :
    Blocked unit
      (layOut tabSize before u (pieces m.vocabulary s.region (Text.trimStart l))).1.nesting := by
  obtain ⟨k, ks, hks, hk⟩ := m.exists_contentTokens_eq_cons s hc
  have hread : ∀ p ∈ pieces m.vocabulary s.region (Text.trimStart l), p.Read :=
    fun p hp => read_of_mem_pieces hv hp
  have hclose := h.closes_top (m.closes_contentTokens (hb.code hc) hks)
  cases hclosed : u.nesting.top.closedBy (Text.trimStart l) with
  | false =>
    have ho := hb.orderly hks hk (by rw [← hkinds, ← hclosed]; exact hclose)
    rw [← hks, ← hkinds] at ho
    exact h.layOut_of_orderly hhanging (hindent hclosed) hread ho tabSize before
  | true =>
    rw [hclosed] at hclose
    cases hinner : u.nesting.inner with
    | nil => simp [hinner] at hclose
    | cons f fs =>
      have hf : k.closes f.kind = true := by simpa [hinner] using hclose
      have ho := hb.orderly_tail hks hk (Token.opens?_of_closes hf)
      rw [← hkinds] at ho
      cases hpieces : pieces m.vocabulary s.region (Text.trimStart l) with
      | nil => simp [Mode.contentTokens, hpieces, place] at hks
      | cons p ps =>
        rw [hpieces] at hread
        rw [Mode.contentTokens, hpieces] at hks
        obtain ⟨rfl, rfl⟩ := List.cons_eq_cons.mp hks
        exact h.layOut_of_closes hinner hhanging hread hf ho tabSize before

/-- The column that the top frame gives to a line, read off the depth. -/
theorem columnFor (h : Blocked unit n) (hlabel : n.top.kind ≠ .label) {t : List Char}
    (hfits : unit * (n.inner.length - if n.top.closedBy t then 1 else 0) ≤ maxColumn) :
    n.top.columnFor unit t = (unit * (n.inner.length - if n.top.closedBy t then 1 else 0) : Nat) := by
  have hanchor : n.top.anchor = n.top.indented := by
    have haligned : n.top.alignment.isAligned = false := by simpa [Alignment.isAligned] using h.top
    rw [Frame.anchor, haligned]
    rfl
  rw [Frame.columnFor_of_not_label fun h => hlabel h.1, hanchor]
  obtain ⟨root, inner⟩ := n
  cases inner with
  | nil =>
    have hroot : root = .root (-unit) := h.root
    have hclosed : root.closedBy t = false := by
      rw [hroot]
      rfl
    show (if root.closedBy t then root.indented else wrapColumn (root.indented + unit)) = _
    rw [hclosed, hroot, if_neg Bool.false_ne_true]
    show wrapColumn (-unit + unit) = (unit * (0 - _) : Nat)
    rw [Int.add_left_neg, Nat.zero_sub, Nat.mul_zero]
    rfl
  | cons f fs =>
    have hindented : unit * fs.length ≤ maxColumn → f.indented = (unit * fs.length : Nat) := h.stacked.1
    have hsum : unit * (fs.length + 1) = unit * fs.length + unit := Nat.mul_succ unit fs.length
    show (if f.closedBy t then f.indented else wrapColumn (f.indented + unit)) =
      (unit * (fs.length + 1 - if f.closedBy t then 1 else 0) : Nat)
    have hfits : unit * (fs.length + 1 - if f.closedBy t then 1 else 0) ≤ maxColumn := hfits
    cases hclosed : f.closedBy t with
    | true =>
      rw [hclosed] at hfits
      exact hindented hfits
    | false =>
      rw [hclosed] at hfits
      have hle : unit * fs.length + unit ≤ maxColumn := hsum ▸ hfits
      have hheld : HoldsColumn (f.indented + unit) := by
        rw [hindented (by omega)]
        unfold HoldsColumn
        omega
      show wrapColumn (f.indented + unit) = (unit * (fs.length + 1) : Nat)
      rw [wrapColumn_of_holds hheld, hindented (by omega), hsum]
      rfl

end Blocked

/-! ## Two runs -/

/-- The spaces that a line is written with are its indentation. -/
theorem indentation_indentTo (tabSize : Nat) {column : Nat} (hcolumn : column < Text.wordSize)
    {t : List Char} (ht : Text.lead t = []) : Text.indentation tabSize (indentTo column t) = column := by
  have hspace : ∀ c ∈ List.replicate column ' ', Text.isBlank c = true :=
    List.all_eq_true.mp (Text.allBlank_replicate column)
  have hlead : Text.lead (indentTo column t) = List.replicate column ' ' := by
    rw [indentTo, Int.toNat_natCast, Text.lead, List.takeWhile_append_of_pos hspace]
    rw [show t.takeWhile Text.isBlank = [] from ht, List.append_nil]
  rw [Text.indentation, hlead, Text.width_replicate tabSize hcolumn]

namespace Mode

def depthColumn (m : Mode) (s : State) (l : List Char) : Nat :=
  m.indentUnit * (s.nesting.inner.length - if s.nesting.top.closedBy (Text.trimStart l) then 1 else 0)

/-- The run over the written lines follows the run over the source: the same region and the same kinds of
frames, where depth says. -/
structure Follows (m : Mode) (s u : State) : Prop where
  region : s.region = u.region
  kinds : u.kinds = s.kinds
  plain : s.Plain
  blocked : Blocked m.indentUnit u.nesting

namespace Follows

variable {m : Mode} {s u : State} {l : List Char}

theorem start (m : Mode) : m.Follows (m.start 0) (m.start 0) := by
  have hroot : (m.start 0).nesting.root = .root (-m.indentUnit) := by
    rw [m.start_zero]
    rfl
  exact ⟨rfl, rfl, ⟨rfl, by simp [State.kinds, Mode.start, State.start]⟩,
    .of_hanging hroot trivial (by simp [Mode.start, State.start])⟩

theorem plain_written (h : m.Follows s u) : u.Plain :=
  ⟨h.blocked.root_kind, by rw [h.kinds]; exact h.plain.inner⟩

theorem depth (h : m.Follows s u) : u.nesting.inner.length = s.nesting.inner.length := by
  simpa [State.kinds] using congrArg List.length h.kinds

theorem closedBy (h : m.Follows s u) (t : List Char) :
    u.nesting.top.closedBy t = s.nesting.top.closedBy t := by
  unfold Frame.closedBy
  rw [h.plain.top_kind, h.plain_written.top_kind, h.kinds]

/-- How a line that is not blank is written. -/
theorem reindentLine (h : m.Follows s u) (hcode : s.region = .code) (hc : Text.allBlank l = false)
    (hfits : m.depthColumn s l ≤ maxColumn) :
    m.reindentLine u l = indentTo (m.depthColumn s l) (Text.trimStart l) := by
  have hne := (Text.not_allBlank_iff l).mp hc
  have hdepth : m.depthColumn s l = m.depthColumn u l := by
    rw [depthColumn, depthColumn, h.closedBy, h.depth]
  have hsuggest : m.suggest u (Text.trimStart l) = some (m.depthColumn s l : Int) := by
    rw [hdepth] at hfits ⊢
    rw [m.suggest_trimStart u l, suggest, if_pos (h.region.symm.trans hcode),
      h.blocked.columnFor h.plain_written.top_kind_ne hfits]
    rfl
  simp only [Mode.reindentLine, hne, if_false, hsuggest]

theorem startLine (h : m.Follows s u) (indentation : Int) : m.Follows s (u.startLine indentation) := by
  obtain ⟨hkinds, -⟩ := h.plain_written.startLine indentation
  exact ⟨h.region, hkinds.trans h.kinds, h.plain, h.blocked.startLine.1⟩

/-- One line of a text in block style. -/
theorem readLine (h : m.Follows s u) (hv : m.vocabulary.Unlabelled) (hb : m.BlockLine s l) :
    m.Follows (m.readLine s l).state (m.readLine u (m.reindentLine u l)).state := by
  obtain ⟨hkinds, hplain⟩ := m.kinds_readLine hv h.plain l
  obtain ⟨hkinds', -⟩ := m.kinds_readLine hv h.plain_written (m.reindentLine u l)
  rw [m.trimStart_reindentLine, ← h.region, h.kinds, ← hkinds] at hkinds'
  refine ⟨m.region_reindentLine h.region l, hkinds', hplain, ?_⟩
  cases hc : Text.allBlank l with
  | true =>
    rw [(m.reindentLine_eq_nil_iff u l).mpr hc, readLine_nil]
    exact h.blocked
  | false =>
    have hstart : m.Follows s (m.lineState u (m.reindentLine u l)) := h.startLine _
    rw [m.readLine_state_trimStart u (m.reindentLine_ne_nil u hc), m.trimStart_reindentLine, ← h.region]
    refine hstart.blocked.layOut_content hv hb hc h.blocked.startLine.2 hstart.kinds ?_ _ _
    intro hclosed hfits
    rw [hstart.closedBy] at hclosed
    rw [hstart.depth] at hfits ⊢
    have hdepth : m.depthColumn s l = m.indentUnit * s.nesting.inner.length := by
      rw [depthColumn, hclosed]
      rfl
    rw [← hdepth] at hfits ⊢
    have hword : m.depthColumn s l < Text.wordSize := Nat.lt_of_le_of_lt hfits (by decide)
    show clampColumn (Text.indentation m.tabSize (m.reindentLine u l)) = _
    rw [h.reindentLine (hb.code hc) hc hfits, indentation_indentTo _ hword (Text.lead_trimStart l),
      clampColumn, Nat.min_eq_left hfits]

/-- Lines of a text in block style, one after the other. -/
theorem feed (h : m.Follows s u) (hv : m.vocabulary.Unlabelled) {ls : List (List Char)}
    (hls : ∀ before l after, ls = before ++ l :: after → m.BlockLine (m.feed s before) l) :
    m.Follows (m.feed s ls) (m.feed u (m.reindentFrom u ls)) := by
  induction ls generalizing s u with
  | nil => exact h
  | cons l ls ih =>
    refine ih (h.readLine hv (hls [] l ls rfl)) ?_
    intro before k after hsplit
    refine hls (l :: before) k after ?_
    rw [hsplit]
    rfl

end Follows

/-- **A text in block style is re-indented by depth**, where no label word is a keyword and no line feed
stands behind two carriage returns. A line that is not blank gets as many units as frames are open before
it, or one less when it starts with the closer of the innermost one, up to the column `maxColumn`. -/
theorem reindent_blockStyle (m : Mode) (t : List Char) (hv : m.vocabulary.Unlabelled)
    (hr : ¬Text.doubleReturn <:+: t) (hb : m.BlockStyle t) {before after : List (List Char)}
    {l : List Char} (hl : Text.lines t = before ++ l :: after) (hc : Text.allBlank l = false) :
    let s := m.feed (m.start 0) before
    let d := s.nesting.inner.length
    let e := if s.nesting.top.closedBy (Text.trimStart l) then 1 else 0
    m.indentUnit * (d - e) ≤ maxColumn →
      (Text.lines (m.reindent t))[before.length]? =
        some (List.replicate (m.indentUnit * (d - e)) ' ' ++ Text.trimStart l) := by
  intro s d e hfits
  have hfollows : m.Follows s (m.feed (m.start 0) (m.reindentFrom (m.start 0) before)) := by
    refine (Follows.start m).feed hv ?_
    intro before' k after' hsplit
    refine hb before' k (after' ++ l :: after) ?_
    rw [hl, hsplit, List.append_assoc]
    rfl
  rw [m.getElem?_lines_reindent hr hl hc, hfollows.reindentLine ((hb before l after hl).code hc) hc hfits]
  rfl

/-- A closer two frames deep, in a text with a comment behind a bracket, a blank line, groups that close on
their line and a closer of nothing. -/
theorem reindent_blockStyle_nested :
    let m : Mode := {}
    let t := "if (a) \x7b // x\n\n  f(b[0], c) ]\n  \x7d else \x7b\ng(\nd\n\t)\n\x7d\n".toList
    let before :=
      ["if (a) \x7b // x", "", "  f(b[0], c) ]", "  \x7d else \x7b", "g(", "d"].map String.toList
    m.vocabulary.Unlabelled ∧ ¬Text.doubleReturn <:+: t ∧ m.BlockStyle t ∧
      (m.feed (m.start 0) before).nesting.inner.length = 2 ∧
      (Text.lines (m.reindent t))[6]? = some "  )".toList := by
  intro m t before
  have hv : m.vocabulary.Unlabelled := by decide +kernel
  have hr : ¬Text.doubleReturn <:+: t := by decide +kernel
  have hb : m.BlockStyle t := by decide +kernel
  have hl : Text.lines t = before ++ "\t)".toList :: ["\x7d".toList] := by decide +kernel
  have hc : Text.allBlank "\t)".toList = false := by decide +kernel
  have hd : (m.feed (m.start 0) before).nesting.inner.length = 2 := by decide +kernel
  have he : (m.feed (m.start 0) before).nesting.top.closedBy (Text.trimStart "\t)".toList) = true := by
    decide +kernel
  have hline := m.reindent_blockStyle t hv hr hb hl hc
  simp only [hd, he] at hline
  exact ⟨hv, hr, hb, hd, hline (by decide)⟩

end Mode

end BraceMode
