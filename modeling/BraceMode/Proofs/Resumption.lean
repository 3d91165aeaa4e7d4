import BraceMode.Proofs.Coverage

/-! Taking up a line in the middle. By the cut into pieces the tokens of a line depend on its characters, on
the region it is read in and on which words the vocabulary holds. So two readings that share these agree
token for token, whatever their frames, columns and widths; and what stands behind any token may be read
as a line of its own, from any state in the region that the loop is in there. -/

namespace BraceMode

def Token.shift (n : Nat) (k : Token) : Token := { k with start := n + k.start, stop := n + k.stop }

/-- The cursor and the state of the reading loop behind the next `n` tokens. -/
def Mode.readSome (m : Mode) (h : Host) : Nat → Cursor → State → Cursor × State
  | 0, c, s => (c, s)
  | n + 1, c, s =>
    let next := m.step h c.mark s
    m.readSome h n next.cursor next.state

/-! ## Vocabularies with the same words -/

/-- Lists that hold each other's words hold the same words. -/
theorem contains_eq_of_all {xs ys : List String} (hxy : xs.all ys.contains = true)
    (hyx : ys.all xs.contains = true) (word : String) : xs.contains word = ys.contains word := by
  simp only [List.all_eq_true, List.contains_iff_mem] at hxy hyx
  rw [Bool.eq_iff_iff, List.contains_iff_mem, List.contains_iff_mem]
  exact ⟨hxy word, hyx word⟩

theorem Vocabulary.classify_eq_of_same {v w : Vocabulary} (h : v.same w = true) :
    v.classify = w.classify := by
  simp only [same, Bool.and_eq_true] at h
  obtain ⟨⟨⟨hk, hk'⟩, ha⟩, ha'⟩ := h
  have hkeyword : v.isKeyword = w.isKeyword := funext (contains_eq_of_all hk hk')
  have hatom : v.isAtom = w.isAtom := funext (contains_eq_of_all ha ha')
  funext word
  rw [classify, classify, hkeyword, hatom]

/-- Words are the only lexemes that ask the vocabulary, and they ask for the class. -/
theorem Lexeme.read_eq_of_classify {v w : Vocabulary} (h : v.classify = w.classify) (r : Region)
    (t : List Char) : read v [] r t = read w [] r t := by
  cases r with
  | literal q => rfl
  | comment => rfl
  | code =>
    cases t with
    | nil => rfl
    | cons c t =>
      have hword : ofWord v [] c t = ofWord w [] c t := by simp only [ofWord, h]
      simp only [read, ofCode, hword]

theorem pieces_eq_of_classify {v w : Vocabulary} (h : v.classify = w.classify) (r : Region)
    (t : List Char) : pieces v r t = pieces w r t := by
  fun_induction pieces v r t with
  | case1 => rw [pieces_nil]
  | case2 r t ht p ih =>
    have hp : p = Piece.first w r t := by
      simp only [p, Piece.first, Lexeme.read_eq_of_classify h]
    rw [pieces_of_ne_nil w r ht, ih, hp]

/-! ## The loop in the middle of a line -/

theorem place_add (n k : Nat) (ps : List Piece) : place (n + k) ps = (place k ps).map (Token.shift n) := by
  induction ps generalizing k with
  | nil => rfl
  | cons p ps ih =>
    simp only [place, List.map_cons, Token.shift, Piece.toToken, Nat.add_assoc, ih]

namespace Mode

/-- What the loop still yields, from wherever it stands in a line. -/
theorem readAll_tokens (m : Mode) (tabSize : Nat) (c : Cursor) (s : State) :
    (m.readAll (.faithful tabSize) c s).tokens =
      place (Text.byteSize (c.passed.reverse ++ c.token)) (pieces m.vocabulary s.region c.rest) := by
  by_cases hc : c.rest = []
  · rw [readAll_of_rest_eq_nil m _ s hc, hc, pieces_nil]
    rfl
  · rw [(m.readAll_faithful_eq tabSize c s hc).1, region_prepare]

theorem region_readAll (m : Mode) (tabSize : Nat) (c : Cursor) (s : State) :
    (m.readAll (.faithful tabSize) c s).state.region =
      (pieces m.vocabulary s.region c.rest).foldl (fun r p => p.regionAfter r) s.region := by
  by_cases hc : c.rest = []
  · rw [readAll_of_rest_eq_nil m _ s hc, hc, pieces_nil]
    rfl
  · have hstate := congrArg Prod.fst (m.readAll_faithful_eq tabSize c s hc).2.2
    simp only at hstate
    rw [hstate, region_layOut, region_prepare]

theorem line_readSome (m : Mode) (h : Host) (n : Nat) (c : Cursor) (s : State) :
    (m.readSome h n c s).1.line = c.line := by
  induction n generalizing c s with
  | zero => rfl
  | succ n ih => rw [readSome, ih, line_step, Cursor.line_mark]

/-- The loop goes on from where it stands behind its first tokens. -/
theorem readAll_readSome (m : Mode) (tabSize : Nat) {n : Nat} {c : Cursor} {s : State}
    (hn : n ≤ (m.readAll (.faithful tabSize) c s).tokens.length) :
    let cut := m.readSome (.faithful tabSize) n c s
    let more := m.readAll (.faithful tabSize) cut.1 cut.2
    (m.readAll (.faithful tabSize) c s).tokens.drop n = more.tokens ∧
      (m.readAll (.faithful tabSize) c s).state = more.state := by
  induction n generalizing c s with
  | zero => exact ⟨rfl, rfl⟩
  | succ n ih =>
    by_cases hc : c.rest = []
    · rw [readAll_of_rest_eq_nil m _ s hc] at hn
      simp at hn
    · rw [m.readAll_faithful tabSize s hc] at hn ⊢
      exact ih (Nat.le_of_succ_le_succ hn)

/-- Behind its first tokens the loop yields the others and ends as the whole line does. -/
theorem resume_readLine (m : Mode) (s : State) {t : List Char} {pre post : List Token}
    (ht : (m.readLine s t).tokens = pre ++ post) :
    let cut := m.readSome (.faithful m.tabSize) pre.length (.ofLine t) s
    let more := m.readAll (.faithful m.tabSize) cut.1 cut.2
    post = more.tokens ∧ (m.readLine s t).state = more.state := by
  have hlen : pre.length ≤ (m.readLine s t).tokens.length := by
    rw [ht, List.length_append]
    omega
  obtain ⟨hdrop, hstate⟩ := m.readAll_readSome m.tabSize hlen
  refine ⟨?_, hstate⟩
  rw [← hdrop]
  change post = (m.readLine s t).tokens.drop pre.length
  rw [ht, List.drop_left]

/-- Behind the first tokens of a line stands what their texts leave of it. -/
theorem text_readSome (m : Mode) (s : State) {t : List Char} {pre post : List Token}
    (ht : (m.readLine s t).tokens = pre ++ post) :
    let cut := m.readSome (.faithful m.tabSize) pre.length (.ofLine t) s
    pre.flatMap Token.text ++ cut.1.rest = t ∧
      pre.flatMap Token.text = cut.1.passed.reverse ++ cut.1.token := by
  intro cut
  obtain ⟨hpost, -⟩ := m.resume_readLine s ht
  have hrest : post.flatMap Token.text = cut.1.rest := by
    rw [hpost, readAll_tokens, flatMap_text_place, flatMap_text_pieces]
  have hall : pre.flatMap Token.text ++ cut.1.rest = t := by
    have htokens : (m.readLine s t).tokens.flatMap Token.text = t := by
      rw [m.readLine_tokens, flatMap_text_place, flatMap_text_pieces]
    rw [← hrest, ← List.flatMap_append, ← ht, htokens]
  have hline : cut.1.passed.reverse ++ cut.1.token ++ cut.1.rest = t :=
    m.line_readSome (.faithful m.tabSize) pre.length (.ofLine t) s
  exact ⟨hall, List.append_cancel_right (hall.trans hline.symm)⟩

/-- **Tokens do not depend on the layout.** Two modes whose vocabularies hold the same words show the same
tokens for a line, and leave it in the same region, from any two states in one region. Moreover, what
stands behind the tokens `pre` of the line may be read as a line of its own, from any state in the region
in which the loop is there: that yields the remaining tokens, moved by the bytes cut off, and ends in the
same region. -/
theorem readLine_resumable (m m' : Mode) (s s' : State) (t : List Char)
    (hv : m.vocabulary.same m'.vocabulary = true) (hs : s.region = s'.region) :
    ((m.readLine s t).tokens = (m'.readLine s' t).tokens ∧
        (m.readLine s t).state.region = (m'.readLine s' t).state.region) ∧
      ∀ pre post, (m.readLine s t).tokens = pre ++ post →
        let cut := m.readSome (.faithful m.tabSize) pre.length (.ofLine t) s
        pre.flatMap Token.text ++ cut.1.rest = t ∧
          ∀ u : State, u.region = cut.2.region →
            (m'.readLine u cut.1.rest).tokens.map
                (Token.shift (Text.byteSize (pre.flatMap Token.text))) = post ∧
              (m'.readLine u cut.1.rest).state.region = (m.readLine s t).state.region := by
  have hpieces := pieces_eq_of_classify (Vocabulary.classify_eq_of_same hv)
  refine ⟨⟨?_, ?_⟩, ?_⟩
  · rw [m.readLine_tokens, m'.readLine_tokens, hpieces, hs]
  · rw [m.region_readLine, m'.region_readLine, hpieces, hs]
  · intro pre post ht cut
    obtain ⟨htext, hbefore⟩ := m.text_readSome s ht
    obtain ⟨htokens, hstate⟩ := m.resume_readLine s ht
    -- The rest has the same pieces wherever it is read. Only the offset they are placed from differs.
    refine ⟨htext, fun u hu => ⟨?_, ?_⟩⟩
    · rw [m'.readLine_tokens, ← place_add, Nat.add_zero, ← hpieces, hu, htokens, readAll_tokens, ← hbefore]
    · rw [m'.region_readLine, ← hpieces, hu, hstate, region_readAll]

/-- The rest of a line that starts inside a comment, behind its tab, read by a mode with other widths in a
state with a frame of its own. -/
theorem readLine_resumable_comment :
    let m : Mode := {}
    let m' : Mode := { indentUnit := 8, tabSize := 3, vocabulary := Vocabulary.basic.extend ["if"] ["len"] }
    let s : State := { m.start 0 with region := .comment }
    let s' : State :=
      { region := .comment, nesting := { root := .root 5, inner := [.opened 3 7 .paren] }, indented := 9 }
    let t := "\té */ if (".toList
    m.vocabulary.same m'.vocabulary = true ∧ s.region = s'.region ∧
      (m.readLine s t).tokens = (m'.readLine s' t).tokens ∧
      (m'.readLine s' "é */ if (".toList).tokens.map (Token.shift 1) = (m.readLine s t).tokens.drop 1 := by
  intro m m' s s' t
  have hv : m.vocabulary.same m'.vocabulary = true := by decide +kernel
  obtain ⟨⟨hsame, -⟩, hcut⟩ := m.readLine_resumable m' s s' t hv rfl
  have hsplit : (m.readLine s t).tokens =
      [⟨['\t'], none, 0, 1⟩] ++ (m.readLine s t).tokens.drop 1 := by decide +kernel
  have hrest : (m.readSome (.faithful m.tabSize) 1 (.ofLine t) s).1.rest = "é */ if (".toList := by
    decide +kernel
  have hregion : s'.region = (m.readSome (.faithful m.tabSize) 1 (.ofLine t) s).2.region := by
    decide +kernel
  obtain ⟨-, hresumed⟩ := hcut _ _ hsplit
  obtain ⟨htokens, -⟩ := hresumed s' hregion
  rw [List.length_singleton, hrest] at htokens
  exact ⟨hv, rfl, hsame, htokens⟩

end Mode

end BraceMode
