import BraceMode.Proofs.Pieces
import BraceMode.Proofs.Rewritten

/-! Re-indenting keeps the tokens. The source and the rewritten text are read by two runs whose states share
little: columns, indentations and alignments differ from the first moved line on. What they do share at
every line is the region, and by the cut into pieces that is all the tokens depend on; the blanks in
front of a line add at most one token and leave the region alone. -/

namespace BraceMode

/-- Tokens without the one that holds the blanks a line starts with. -/
def dropLead : List Token → List Token
  | [] => []
  | k :: ks => if Text.allBlank k.text then ks else k :: ks

def HighlightedLine.content (l : HighlightedLine) : List (List Char × Option Style) :=
  (dropLead l.tokens).map fun k => (k.text, k.style)

/-! ## The content of a line -/

theorem map_place (n : Nat) (ps : List Piece) :
    (place n ps).map (fun k => (k.text, k.style)) = ps.map fun p => (p.text, p.style) := by
  induction ps generalizing n with
  | nil => rfl
  | cons p ps ih =>
    simp only [place, List.map_cons, ih]
    rfl

theorem dropLead_place_pieces (v : Vocabulary) (r : Region) (n : Nat) (t : List Char) :
    dropLead (place n (pieces v r (Text.trimStart t))) = place n (pieces v r (Text.trimStart t)) := by
  cases ht : Text.trimStart t with
  | nil => simp [place, dropLead]
  | cons c u =>
    have hblank := Piece.not_allBlank_first v r u (Text.not_isBlank_of_trimStart ht)
    rw [pieces_of_ne_nil v r (by simp)]
    simp [place, dropLead, Piece.toToken, hblank]

namespace Mode

/-- What a line shows depends on the region it is read in and on its content. -/
theorem content_highlightLine (m : Mode) (s : State) (t : List Char) :
    (m.highlightLine s t).content =
      (pieces m.vocabulary s.region (Text.trimStart t)).map fun p => (p.text, p.style) := by
  simp only [HighlightedLine.content, highlightLine, m.readLine_tokens s t]
  rw [pieces_eq_lead_append m.vocabulary s.region t]
  split
  · rw [List.nil_append, dropLead_place_pieces, map_place]
  · simp only [List.singleton_append, place, dropLead, Piece.toToken, Text.allBlank_lead, if_true,
      map_place]

/-- So does the region behind it. -/
theorem region_readLine_trimStart (m : Mode) (s : State) (t : List Char) :
    (m.readLine s t).state.region =
      (pieces m.vocabulary s.region (Text.trimStart t)).foldl (fun r p => p.regionAfter r) s.region := by
  rw [m.region_readLine s t, pieces_eq_lead_append m.vocabulary s.region t, List.foldl_append]
  split <;> rfl

theorem content_reindentLine (m : Mode) {s u : State} (h : s.region = u.region) (t : List Char) :
    (m.highlightLine u (m.reindentLine u t)).content = (m.highlightLine s t).content := by
  rw [content_highlightLine, content_highlightLine, trimStart_reindentLine, h]

theorem region_reindentLine (m : Mode) {s u : State} (h : s.region = u.region) (t : List Char) :
    (m.readLine s t).state.region = (m.readLine u (m.reindentLine u t)).state.region := by
  rw [region_readLine_trimStart, region_readLine_trimStart, trimStart_reindentLine, h]

/-! ## Two runs -/

/-- The runs over source lines and rewritten lines stay in the same region and show the same. -/
theorem content_highlightFrom (m : Mode) {s u : State} (h : s.region = u.region)
    (ts : List (List Char)) :
    (m.highlightFrom u (m.reindentFrom u ts)).map HighlightedLine.content =
      (m.highlightFrom s ts).map HighlightedLine.content := by
  induction ts generalizing s u with
  | nil => rfl
  | cons t ts ih =>
    rw [reindentFrom_cons, highlightFrom_cons, highlightFrom_cons, List.map_cons, List.map_cons,
      m.content_reindentLine h t, ih (m.region_reindentLine h t)]

theorem region_feed_reindentFrom (m : Mode) {s u : State} (h : s.region = u.region)
    (ts : List (List Char)) : (m.feed s ts).region = (m.feed u (m.reindentFrom u ts)).region := by
  induction ts generalizing s u with
  | nil => exact h
  | cons t ts ih => exact ih (m.region_reindentLine h t)

theorem highlightFrom_append (m : Mode) (s : State) (ts us : List (List Char)) :
    m.highlightFrom s (ts ++ us) = m.highlightFrom s ts ++ m.highlightFrom (m.feed s ts) us := by
  induction ts generalizing s with
  | nil => rfl
  | cons t ts ih => rw [List.cons_append, highlightFrom_cons, highlightFrom_cons, ih]; rfl

@[simp] theorem length_highlightFrom (m : Mode) (s : State) (ts : List (List Char)) :
    (m.highlightFrom s ts).length = ts.length := by
  induction ts generalizing s with
  | nil => rfl
  | cons t ts ih => rw [highlightFrom_cons, List.length_cons, ih, List.length_cons]

/-! ## Two texts -/

/-- The rewritten text shows what the source shows, less a last line that vanishes. -/
theorem exists_content_highlight_reindent (m : Mode) (t : List Char) (hr : ¬Text.doubleReturn <:+: t) :
    ∃ extra, (m.highlight t).map HighlightedLine.content =
        (m.highlight (m.reindent t)).map HighlightedLine.content ++ extra ∧
      extra.length = if Text.endsBlank t then 1 else 0 := by
  obtain ⟨ls, tail, rfl, hls, ht⟩ := Text.exists_eq_unlines_append t
  let ts := ls.map Text.dropReturn
  let ws := m.reindentFrom (m.start 0) ts
  let w := m.reindentLine (m.feed (m.start 0) ws) tail
  have hsource : m.highlight (Text.unlines ls ++ tail) =
      m.highlightFrom (m.start 0) ts ++ m.highlightFrom (m.feed (m.start 0) ts) (Text.lastLine tail) := by
    rw [highlight, Text.lines_unlines_append hls ht, highlightFrom_append]
  have hwritten : m.highlight (m.reindent (Text.unlines ls ++ tail)) =
      m.highlightFrom (m.start 0) ws ++ m.highlightFrom (m.feed (m.start 0) ws) (Text.lastLine w) := by
    rw [highlight, m.lines_reindent hls ht hr, highlightFrom_append]
  have hregion : (m.feed (m.start 0) ts).region = (m.feed (m.start 0) ws).region :=
    m.region_feed_reindentFrom rfl ts
  rw [hsource, hwritten, List.map_append, List.map_append, m.content_highlightFrom rfl ts]
  simp only [Text.endsBlank_unlines_append hls ht, List.append_assoc]
  by_cases htail : tail = []
  · have hw : w = [] := by simp only [w, htail, reindentLine_nil]
    exact ⟨[], by simp [hw, htail, Text.lastLine, highlightFrom], by simp [htail]⟩
  · cases hblank : Text.allBlank tail with
    | true =>
      have hw : w = [] := (m.reindentLine_eq_nil_iff _ tail).mpr hblank
      refine ⟨(m.highlightFrom (m.feed (m.start 0) ts) [tail]).map HighlightedLine.content, ?_, ?_⟩
      · simp [hw, htail, Text.lastLine, highlightFrom]
      · simp [htail]
    | false =>
      have hw : w ≠ [] := m.reindentLine_ne_nil _ hblank
      refine ⟨[], ?_, by simp⟩
      simp only [Text.lastLine, htail, hw, if_false, List.append_nil, highlightFrom_cons, List.map_cons]
      rw [m.content_reindentLine hregion tail]
      rfl

/-- **Re-indenting keeps the tokens of every line** behind the blanks it starts with, in text and style. A
text in which no line feed stands behind two carriage returns keeps its lines too, but for a last line
that is blank and not ended by a line feed. -/
theorem content_highlight_reindent (m : Mode) (t : List Char) (hr : ¬Text.doubleReturn <:+: t) :
    (m.highlight (m.reindent t)).length + (if Text.endsBlank t then 1 else 0) =
        (m.highlight t).length ∧
      ∀ (i : Nat) (line : HighlightedLine), (m.highlight (m.reindent t))[i]? = some line →
        ∃ source : HighlightedLine, (m.highlight t)[i]? = some source ∧
          line.content = source.content := by
  obtain ⟨extra, hcontent, hextra⟩ := m.exists_content_highlight_reindent t hr
  constructor
  · have hlen := congrArg List.length hcontent
    simp only [List.length_map, List.length_append, hextra] at hlen
    exact hlen.symm
  · intro i line hi
    have hat : ((m.highlight t).map HighlightedLine.content)[i]? = some line.content := by
      rw [hcontent, List.getElem?_append_left, List.getElem?_map, hi]
      · rfl
      · rw [List.length_map]
        exact (List.getElem?_eq_some_iff.mp hi).1
    rw [List.getElem?_map, Option.map_eq_some_iff] at hat
    obtain ⟨source, hsource, hsame⟩ := hat
    exact ⟨source, hsource, hsame.symm⟩

/-- Tabs, a literal that goes on behind a backslash, a comment over two lines and a blank end. -/
theorem content_highlight_reindent_mixed :
    let m : Mode := {}
    let t := "f(a,\n\tb \x7b\n'x\\\n\t y'\r\n\x7d\n/* c\n  d */ e)\n\t".toList
    ¬Text.doubleReturn <:+: t ∧ (m.highlight (m.reindent t)).length + 1 = (m.highlight t).length ∧
      ∀ (i : Nat) (line : HighlightedLine), (m.highlight (m.reindent t))[i]? = some line →
        ∃ source : HighlightedLine, (m.highlight t)[i]? = some source ∧
          line.content = source.content := by
  intro m t
  have hr : ¬Text.doubleReturn <:+: t := by decide +kernel
  have hb : Text.endsBlank t = true := by decide +kernel
  obtain ⟨hlen, hcontent⟩ := m.content_highlight_reindent t hr
  rw [hb] at hlen
  exact ⟨hr, hlen, hcontent⟩

end Mode

end BraceMode
