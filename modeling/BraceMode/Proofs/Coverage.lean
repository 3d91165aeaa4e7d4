import BraceMode.Proofs.ByteOffsets
import BraceMode.Proofs.Pieces

/-! The tokens of a line lie end to end over it. Pieces make up the text they are cut from and none of them
is empty, so this is a matter of placing them; the state, reachable or not, has no say in it. -/

namespace BraceMode

structure Covers (t : List Char) (ts : List Token) : Prop where
  nil_iff : ts = [] ↔ t = []
  first : ∀ k, ts.head? = some k → k.start = 0
  next : ∀ j k, [j, k] <:+: ts → k.start = j.stop
  nonempty : ∀ k ∈ ts, k.start < k.stop
  last : ∀ k, ts.getLast? = some k → k.stop = Text.byteSize t
  /-- Both ends of a token fall between two characters, with its text between them. -/
  cut : ∀ k ∈ ts, ∃ after, Text.dropBytes? k.start t = some (k.text ++ after) ∧
    Text.dropBytes? k.stop t = some after
  texts : ts.flatMap Token.text = t

/-! ## Placing pieces -/

theorem place_append (n : Nat) (ps qs : List Piece) :
    place n (ps ++ qs) = place n ps ++ place (n + Text.byteSize (ps.flatMap Piece.text)) qs := by
  induction ps generalizing n with
  | nil => rfl
  | cons p ps ih =>
    simp only [List.cons_append, place, ih, List.flatMap_cons, Text.byteSize_append, Nat.add_assoc]

theorem flatMap_text_place (n : Nat) (ps : List Piece) :
    (place n ps).flatMap Token.text = ps.flatMap Piece.text := by
  induction ps generalizing n with
  | nil => rfl
  | cons p ps ih =>
    simp only [place, List.flatMap_cons, ih]
    rfl

/-- A placed token stands behind the pieces before its own. -/
theorem exists_of_mem_place {n : Nat} {ps : List Piece} {k : Token} (h : k ∈ place n ps) :
    ∃ qs p rs, ps = qs ++ p :: rs ∧ k = p.toToken (n + Text.byteSize (qs.flatMap Piece.text)) := by
  induction ps generalizing n with
  | nil => cases h
  | cons p ps ih =>
    rcases List.mem_cons.mp h with rfl | h
    · exact ⟨[], p, ps, rfl, rfl⟩
    · obtain ⟨qs, q, rs, rfl, rfl⟩ := ih h
      refine ⟨p :: qs, q, rs, rfl, ?_⟩
      simp only [List.flatMap_cons, Text.byteSize_append, Nat.add_assoc]

theorem next_place {n : Nat} {ps : List Piece} {j k : Token} (h : [j, k] <:+: place n ps) :
    k.start = j.stop := by
  induction ps generalizing n with
  | nil => simp [place] at h
  | cons p ps ih =>
    rcases List.infix_cons_iff.mp h with h | h
    · cases ps with
      | nil => simp [place] at h
      | cons q ps =>
        simp only [place, List.cons_prefix_cons] at h
        obtain ⟨rfl, rfl, -⟩ := h
        rfl
    · exact ih h

theorem stop_of_getLast?_place {n : Nat} {ps : List Piece} {k : Token}
    (h : (place n ps).getLast? = some k) : k.stop = n + Text.byteSize (ps.flatMap Piece.text) := by
  rcases List.eq_nil_or_concat ps with rfl | ⟨qs, p, rfl⟩
  · cases h
  · rw [List.concat_eq_append, place_append, place, place, List.getLast?_concat] at h
    cases h
    simp [Piece.toToken, Nat.add_assoc]

/-! ## Pieces make up their text -/

theorem flatMap_text_pieces (v : Vocabulary) (r : Region) (t : List Char) :
    (pieces v r t).flatMap Piece.text = t := by
  fun_induction pieces v r t with
  | case1 => rfl
  | case2 r t _ p ih => rw [List.flatMap_cons, ih, Piece.first_text_append_drop]

theorem text_ne_nil_of_mem_pieces {v : Vocabulary} {r : Region} {t : List Char} {p : Piece}
    (h : p ∈ pieces v r t) : p.text ≠ [] := by
  fun_induction pieces v r t with
  | case1 => cases h
  | case2 r t ht q ih =>
    rcases List.mem_cons.mp h with rfl | h
    · exact Piece.first_text_ne_nil v r ht
    · exact ih h

theorem covers_place_pieces (v : Vocabulary) (r : Region) (t : List Char) :
    Covers t (place 0 (pieces v r t)) := by
  have htexts := flatMap_text_pieces v r t
  refine ⟨?_, ?_, fun j k => next_place, ?_, ?_, ?_, ?_⟩
  · by_cases ht : t = []
    · simp [ht, place]
    · rw [pieces_of_ne_nil v r ht]
      simp [place, ht]
  · intro k hk
    cases hps : pieces v r t with
    | nil => rw [hps] at hk; cases hk
    | cons p ps => rw [hps] at hk; cases hk; rfl
  · intro k hk
    obtain ⟨qs, p, rs, hps, rfl⟩ := exists_of_mem_place hk
    have hp : p ∈ pieces v r t := by simp [hps]
    have := Text.byteSize_pos (text_ne_nil_of_mem_pieces hp)
    simp only [Piece.toToken]
    omega
  · intro k hk
    rw [stop_of_getLast?_place hk, htexts, Nat.zero_add]
  · intro k hk
    obtain ⟨qs, p, rs, hps, rfl⟩ := exists_of_mem_place hk
    have ht : t = qs.flatMap Piece.text ++ (p.text ++ rs.flatMap Piece.text) := by
      rw [← htexts, hps]
      simp
    refine ⟨rs.flatMap Piece.text, ?_, ?_⟩
    · rw [ht, Piece.toToken, Nat.zero_add]
      exact Text.dropBytes?_byteSize _ _
    · rw [ht, Piece.toToken, Nat.zero_add, ← Text.byteSize_append, ← List.append_assoc]
      exact Text.dropBytes?_byteSize _ _
  · rw [flatMap_text_place, htexts]

/-! ## The reading loop -/

namespace Cursor

/-- A cursor always stands between two characters, and so does the start of its token. -/
theorem dropBytes?_line (c : Cursor) :
    Text.dropBytes? c.start c.line = some (c.token ++ c.rest) ∧
      Text.dropBytes? c.pos c.line = some c.rest := by
  have hstart : Text.dropBytes? c.start c.line = some (c.token ++ c.rest) := by
    rw [start, ← Text.byteSize_reverse, line, List.append_assoc]
    exact Text.dropBytes?_byteSize _ _
  refine ⟨hstart, ?_⟩
  rw [pos, Text.dropBytes?_add hstart]
  exact Text.dropBytes?_byteSize _ _

end Cursor

namespace Mode

/-- Before the end of the line the cursor moves in every step. -/
theorem start_lt_pos_step (m : Mode) (tabSize : Nat) {c : Cursor} (s : State) (hc : c.rest ≠ []) :
    let after := (m.step (.faithful tabSize) c.mark s).cursor
    after.start < after.pos := by
  intro after
  have htoken : after.token ≠ [] := by
    obtain ⟨n, hn⟩ := m.exists_step_cursor (.faithful tabSize) c.mark s
    have hlt := m.rest_step_lt tabSize (c := c.mark) s hc
    simp only [after]
    rw [hn] at hlt ⊢
    exact Cursor.token_ne_nil_of_rest_lt hlt
  have := Text.byteSize_pos htoken
  simp only [Cursor.pos]
  omega

/-- **A line is read to its end and its tokens cover it**, from every state. In every step before the end
the cursor moves, so no character is ever skipped for want of progress, and both its offsets fall
between two characters. So do the offsets at which a number literal is cut while it is measured, although
they count characters. -/
theorem readLine_covers (m : Mode) (s : State) (t : List Char) :
    Covers t (m.readLine s t).tokens ∧ (m.readLine s t).cursor.rest = [] ∧
      (∀ (c : Cursor) (u : State), c.rest ≠ [] →
        let after := (m.step (.faithful m.tabSize) c.mark u).cursor
        after.start < after.pos ∧ Text.dropBytes? after.start c.line = some (after.token ++ after.rest) ∧
          Text.dropBytes? after.pos c.line = some after.rest) ∧
      ∀ (c : Char) (u : List Char),
        Lexis.Number.tailBytes? c u = some (Lexis.Number.tailSize c u) ∧
          Text.dropBytes? (Lexis.Number.tailSize c u) u = some (u.drop (Lexis.Number.tailSize c u)) := by
  refine ⟨?_, ?_, ?_, ?_⟩
  · rw [m.readLine_tokens s t]
    exact covers_place_pieces m.vocabulary s.region t
  · by_cases ht : t = []
    · rw [ht, readLine_nil]; rfl
    · exact (m.readLine_spec s ht).2.1
  · intro c u hc after
    have hline : after.line = c.line := by
      rw [← c.line_mark]
      exact m.line_step _ _ _
    exact ⟨m.start_lt_pos_step m.tabSize u hc, hline ▸ after.dropBytes?_line⟩
  · intro c u
    exact ⟨Lexis.Number.tailBytes?_eq c u, Lexis.Number.dropBytes?_tailSize c u⟩

end Mode

end BraceMode
