import BraceMode.Highlight

/-! Reading a line in two passes. The first cuts the line into pieces and looks at nothing but the
vocabulary, the region and the characters; the second lets the pieces act on the frames, one after the
other. `readLine` does both in one loop and is proved to be their composition. So whatever is said of
tokens holds in every layout, and whatever is said of frames is an induction over a list of pieces. -/

namespace BraceMode

/-- What one step reads: a lexeme, or a run of blanks, which is none. -/
structure Piece where
  text : List Char
  lexeme? : Option Lexeme
  deriving DecidableEq, Repr

theorem Text.lead_trimStart (t : List Char) : lead (trimStart t) = [] := by
  have h := lead_append_trimStart (trimStart t)
  rw [trimStart_trimStart] at h
  simpa using h

theorem Text.allBlank_lead (t : List Char) : allBlank (lead t) = true :=
  List.all_eq_true.mpr fun _ => isBlank_of_mem_lead

theorem Text.byteSize_reverse (t : List Char) : byteSize t.reverse = byteSize t := by
  induction t with
  | nil => rfl
  | cons c t ih => simp [ih, Nat.add_comm]

/-- A lexeme leaves its own region behind, whatever it does to the frames. -/
theorem Mode.region_absorb (column : Int) (l : Lexeme) (s : State) :
    (absorb column l s).1.region = l.regionAfter s.region := by
  have happly (t : State) (ch : Change) : (t.apply column ch).region = t.region := by
    cases ch with
    | pop =>
      simp only [State.apply]
      split <;> rfl
    | _ => rfl
  unfold absorb
  split
  · rfl
  · simp only [happly]
    rfl

namespace Piece

def style (p : Piece) : Option Style := p.lexeme?.bind Lexeme.style

def regionAfter (p : Piece) (r : Region) : Region :=
  match p.lexeme? with
  | none => r
  | some l => l.regionAfter r

def first (v : Vocabulary) (r : Region) (t : List Char) : Piece :=
  if Lexis.run Text.isBlank t ≠ 0 then ⟨Text.lead t, none⟩
  else
    let l := Lexeme.read v [] r t
    ⟨t.take l.size, some l⟩

def toToken (start : Nat) (p : Piece) : Token := ⟨p.text, p.style, start, start + Text.byteSize p.text⟩

/-- What a piece does to a state when `before` stands on the line in front of it. -/
def act (tabSize : Nat) (before : List Char) (p : Piece) (s : State) : State × List Event :=
  match p.lexeme? with
  | none => (s, [])
  | some l =>
    Mode.absorb (if l.mark.isSome then clampColumn (Text.width tabSize before) else 0) l s

/-! ## The first piece -/

theorem run_isBlank_eq_zero_iff (c : Char) (t : List Char) :
    Lexis.run Text.isBlank (c :: t) = 0 ↔ Text.isBlank c = false := by
  by_cases h : Text.isBlank c = true <;> simp [Lexis.run, h]

theorem first_of_isBlank (v : Vocabulary) (r : Region) {c : Char} (t : List Char)
    (h : Text.isBlank c = true) : first v r (c :: t) = ⟨Text.lead (c :: t), none⟩ := by
  have hrun : Lexis.run Text.isBlank (c :: t) ≠ 0 := by
    rw [ne_eq, run_isBlank_eq_zero_iff, h]
    exact Bool.noConfusion
  exact if_pos hrun

theorem first_of_not_isBlank (v : Vocabulary) (r : Region) {c : Char} (t : List Char)
    (h : Text.isBlank c = false) :
    first v r (c :: t) =
      ⟨(c :: t).take (Lexeme.read v [] r (c :: t)).size, some (Lexeme.read v [] r (c :: t))⟩ := by
  have hrun : ¬Lexis.run Text.isBlank (c :: t) ≠ 0 := by
    rw [Classical.not_not, run_isBlank_eq_zero_iff, h]
  exact if_neg hrun

theorem first_text_ne_nil (v : Vocabulary) (r : Region) {t : List Char} (h : t ≠ []) :
    (first v r t).text ≠ [] := by
  obtain ⟨c, t, rfl⟩ := List.exists_cons_of_ne_nil h
  cases hc : Text.isBlank c with
  | true => simp [first_of_isBlank v r t hc, Text.lead, hc]
  | false =>
    have := Lexeme.read_size_pos v [] r c t
    rw [first_of_not_isBlank v r t hc]
    simp only [ne_eq, List.take_eq_nil_iff, not_or]
    exact ⟨by omega, h⟩

theorem first_text_append_drop (v : Vocabulary) (r : Region) (t : List Char) :
    (first v r t).text ++ t.drop (first v r t).text.length = t := by
  apply List.prefix_iff_eq_append.mp
  unfold first
  split
  · exact List.takeWhile_prefix Text.isBlank
  · exact List.take_prefix _ t

/-- A cursor that takes the first piece of what is left has it as its token. -/
theorem token_advance_first (v : Vocabulary) (r : Region) (c : Cursor) :
    (c.mark.advance (first v r c.rest).text.length).token = (first v r c.rest).text := by
  have hcut := first_text_append_drop v r c.rest
  have htake := congrArg (List.take (first v r c.rest).text.length) hcut
  simpa [Cursor.advance, Cursor.mark] using htake.symm

/-- No piece behind the blanks of a text is blank. -/
theorem not_allBlank_first (v : Vocabulary) (r : Region) {c : Char} (t : List Char)
    (hc : Text.isBlank c = false) : Text.allBlank (first v r (c :: t)).text = false := by
  have htext := first_text_append_drop v r (c :: t)
  cases hp : (first v r (c :: t)).text with
  | nil => exact absurd hp (first_text_ne_nil v r (by simp))
  | cons d u =>
    rw [hp] at htext
    obtain ⟨rfl, -⟩ := List.cons_eq_cons.mp htext
    simp [Text.allBlank, hc]

theorem length_drop_first_lt (v : Vocabulary) (r : Region) {t : List Char} (h : t ≠ []) :
    (t.drop (first v r t).text.length).length < t.length := by
  have hpos := List.length_pos_iff.mpr (first_text_ne_nil v r h)
  have hlen := List.length_pos_iff.mpr h
  rw [List.length_drop]
  omega

/-- A piece changes the region and nothing else that the next piece depends on. -/
theorem region_act (tabSize : Nat) (before : List Char) (p : Piece) (s : State) :
    (p.act tabSize before s).1.region = p.regionAfter s.region := by
  unfold act regionAfter
  split
  · rfl
  · rename_i l _
    exact Mode.region_absorb _ l s

end Piece

def pieces (v : Vocabulary) (r : Region) (t : List Char) : List Piece :=
  if _h : t = [] then []
  else
    let p := Piece.first v r t
    p :: pieces v (p.regionAfter r) (t.drop p.text.length)
termination_by t.length
decreasing_by exact Piece.length_drop_first_lt v r _h

/-- The tokens that show pieces lying end to end from byte offset `start` on. -/
def place (start : Nat) : List Piece → List Token
  | [] => []
  | p :: ps => p.toToken start :: place (start + Text.byteSize p.text) ps

/-- The state and the events after the pieces of a line, when `before` stands in front of them. -/
def layOut (tabSize : Nat) (before : List Char) (s : State) : List Piece → State × List Event
  | [] => (s, [])
  | p :: ps =>
    let next := p.act tabSize before s
    let more := layOut tabSize (before ++ p.text) next.1 ps
    (more.1, next.2 ++ more.2)

@[simp] theorem pieces_nil (v : Vocabulary) (r : Region) : pieces v r [] = [] := by
  rw [pieces]; rfl

theorem pieces_of_ne_nil (v : Vocabulary) (r : Region) {t : List Char} (h : t ≠ []) :
    pieces v r t =
      let p := Piece.first v r t
      p :: pieces v (p.regionAfter r) (t.drop p.text.length) := by
  rw [pieces, dif_neg h]

/-- A lexeme that takes all of a text is its only piece. -/
theorem pieces_eq_singleton {v : Vocabulary} {r : Region} {c : Char} {t : List Char} {l : Lexeme}
    (hc : Text.isBlank c = false) (hl : Lexeme.read v [] r (c :: t) = l) (hsize : l.size = (c :: t).length) :
    pieces v r (c :: t) = [⟨c :: t, some l⟩] := by
  rw [pieces_of_ne_nil v r (List.cons_ne_nil c t), Piece.first_of_not_isBlank v r t hc, hl, hsize,
    List.take_length]
  simp

/-- Blanks in front of a text are one piece more and change nothing behind it. -/
theorem pieces_lead_append (v : Vocabulary) (r : Region) {lead : List Char} (t : List Char)
    (hl : lead ≠ []) (hb : Text.allBlank lead = true) (ht : Text.lead t = []) :
    pieces v r (lead ++ t) = ⟨lead, none⟩ :: pieces v r t := by
  have hlead : Text.lead (lead ++ t) = lead := by
    rw [Text.lead, List.takeWhile_append_of_pos fun c hc => List.all_eq_true.mp hb c hc]
    rw [show t.takeWhile Text.isBlank = [] from ht, List.append_nil]
  have hfirst : Piece.first v r (lead ++ t) = ⟨lead, none⟩ := by
    obtain ⟨c, l, rfl⟩ := List.exists_cons_of_ne_nil hl
    have hc : Text.isBlank c = true := List.all_eq_true.mp hb c List.mem_cons_self
    rw [List.cons_append, Piece.first_of_isBlank v r (l ++ t) hc, ← List.cons_append, hlead]
  rw [pieces_of_ne_nil v r (by simp [hl]), hfirst]
  simp [Piece.regionAfter]

/-- The pieces of a line are those of its content, behind one of blanks if it starts with any. -/
theorem pieces_eq_lead_append (v : Vocabulary) (r : Region) (t : List Char) :
    pieces v r t =
      (if Text.lead t = [] then [] else [⟨Text.lead t, none⟩]) ++ pieces v r (Text.trimStart t) := by
  conv => lhs; rw [← Text.lead_append_trimStart t]
  split
  · rename_i h
    rw [h]; rfl
  · rename_i h
    exact pieces_lead_append v r _ h (Text.allBlank_lead t) (Text.lead_trimStart t)

namespace Mode

/-! ## The loop is the two passes -/

/-- The step at the end of `c` acts as the first piece of what is left. -/
theorem step_mark_faithful (m : Mode) (tabSize : Nat) (c : Cursor) (s : State) (hc : c.rest ≠ []) :
    let ready := prepare (.faithful tabSize) c.mark s
    let p := Piece.first m.vocabulary ready.region c.rest
    let next := p.act tabSize (c.passed.reverse ++ c.token) ready
    m.step (.faithful tabSize) c.mark s =
      { cursor := c.mark.advance p.text.length, state := next.1, style := p.style, events := next.2 } := by
  obtain ⟨d, t, hd⟩ := List.exists_cons_of_ne_nil hc
  intro ready p next
  cases hb : Text.isBlank d with
  | true =>
    have hp : p = ⟨Text.lead c.rest, none⟩ := by
      simp only [p, hd]
      exact Piece.first_of_isBlank _ _ t hb
    have hrun : Lexis.run Text.isBlank c.rest ≠ 0 := by
      rw [hd, ne_eq, Piece.run_isBlank_eq_zero_iff, hb]
      exact Bool.noConfusion
    have hnext : next = (ready, []) := by simp [next, Piece.act, hp]
    rw [hnext, hp]
    simp only [step, Cursor.rest_mark, hrun, ne_eq, not_false_eq_true, true_or, if_true]
    rfl
  | false =>
    let l := Lexeme.read m.vocabulary [] ready.region c.rest
    have hp : p = ⟨c.rest.take l.size, some l⟩ := by
      simp only [p, l, hd]
      exact Piece.first_of_not_isBlank _ _ t hb
    have hend : (Host.faithful tabSize).atLineEnd c.mark = false := by simp [Host.faithful, hc]
    have hstep := m.step_of_not_isBlank (c := c.mark) s hd hb hend
    have hadvance : c.mark.advance p.text.length = c.mark.advance l.size := by
      simp only [hp, Cursor.advance, Cursor.rest_mark, List.length_take]
      rw [← List.take_eq_take_min, ← List.drop_eq_drop_min]
    have hcolumn : markColumn (.faithful tabSize) (c.mark.advance l.size) l =
        if l.mark.isSome then clampColumn (Text.width tabSize (c.passed.reverse ++ c.token)) else 0 := by
      simp [markColumn, Host.faithful, Cursor.advance, Cursor.mark]
    have hnext : next = absorb (markColumn (.faithful tabSize) (c.mark.advance l.size) l) l ready := by
      simp only [next, Piece.act, hp, hcolumn]
    have hstyle : p.style = l.style := by simp [Piece.style, hp]
    rw [hnext, hadvance, hstyle, hstep, ← region_prepare (.faithful tabSize) c.mark s]
    rfl

theorem readAll_of_rest_eq_nil (m : Mode) (h : Host) {c : Cursor} (s : State) (hc : c.rest = []) :
    m.readAll h c s = { cursor := c, state := s } := by
  rw [readAll, if_pos hc]

/-- Behind the first character of a line there is nothing to prepare. -/
theorem prepare_mark_of_token_ne_nil (tabSize : Nat) {c : Cursor} (s : State) (h : c.token ≠ []) :
    prepare (.faithful tabSize) c.mark s = s := by
  have hstart : (Host.faithful tabSize).atLineStart c.mark = false := by
    simp [Host.faithful, Cursor.mark, h]
  simp [prepare, hstart]

/-- From a cursor before the end of the line, the loop places the pieces of what is left and lays them
out. Only the first step may find itself at the line start. -/
theorem readAll_faithful_eq (m : Mode) (tabSize : Nat) (c : Cursor) (s : State) (hc : c.rest ≠ []) :
    let ready := prepare (.faithful tabSize) c.mark s
    let before := c.passed.reverse ++ c.token
    let ps := pieces m.vocabulary ready.region c.rest
    let reading := m.readAll (.faithful tabSize) c s
    reading.tokens = place (Text.byteSize before) ps ∧ reading.cursor.rest = [] ∧
      (reading.state, reading.events) = layOut tabSize before ready ps := by
  induction hn : c.rest.length using Nat.strongRecOn generalizing c s with
  | _ n ih =>
    intro ready before ps reading
    let p := Piece.first m.vocabulary ready.region c.rest
    let next := p.act tabSize before ready
    let d := c.mark.advance p.text.length
    have hps : ps = p :: pieces m.vocabulary next.1.region d.rest := by
      rw [Piece.region_act]
      exact pieces_of_ne_nil _ _ hc
    have hread : reading =
        let more := m.readAll (.faithful tabSize) d next.1
        { more with
          tokens := d.toToken p.style :: more.tokens
          events := next.2 ++ more.events } := by
      simp only [reading, m.readAll_faithful tabSize s hc, m.step_mark_faithful tabSize c s hc]
      rfl
    have htext : d.token = p.text := Piece.token_advance_first m.vocabulary ready.region c
    have hbefore : d.passed.reverse ++ d.token = before ++ p.text := by
      rw [htext]
      simp [d, before, Cursor.advance, Cursor.mark]
    have htoken : d.toToken p.style = p.toToken (Text.byteSize before) := by
      have hstart : d.start = Text.byteSize before := by
        simp [d, before, Cursor.start, Cursor.advance, Cursor.mark, Text.byteSize_reverse, Nat.add_comm]
      simp only [Cursor.toToken, Piece.toToken, hstart, htext]
    rw [hps, hread]
    by_cases hd : d.rest = []
    · simp [readAll_of_rest_eq_nil m _ _ hd, hd, place, layOut, htoken, next]
    · have hlt : d.rest.length < n := hn ▸ Piece.length_drop_first_lt _ _ hc
      have hne : d.token ≠ [] := htext ▸ Piece.first_text_ne_nil _ _ hc
      obtain ⟨htokens, hend, hlaid⟩ := ih _ hlt d next.1 hd rfl
      rw [prepare_mark_of_token_ne_nil tabSize _ hne] at htokens hlaid
      rw [hbefore] at htokens hlaid
      obtain ⟨hstate, hevents⟩ := Prod.mk.inj hlaid
      refine ⟨?_, hend, ?_⟩
      · simp only [place, htokens, htoken, Text.byteSize_append]
      · simp only [layOut, hstate, hevents, next]

/-! ## One line -/

def lineState (m : Mode) (s : State) (t : List Char) : State :=
  s.startLine (clampColumn (Text.indentation m.tabSize t))

theorem readLine_spec (m : Mode) (s : State) {t : List Char} (ht : t ≠ []) :
    let ps := pieces m.vocabulary s.region t
    (m.readLine s t).tokens = place 0 ps ∧ (m.readLine s t).cursor.rest = [] ∧
      ((m.readLine s t).state, (m.readLine s t).events) = layOut m.tabSize [] (m.lineState s t) ps :=
  m.readAll_faithful_eq m.tabSize (.ofLine t) s ht

theorem readLine_tokens (m : Mode) (s : State) (t : List Char) :
    (m.readLine s t).tokens = place 0 (pieces m.vocabulary s.region t) := by
  by_cases ht : t = []
  · simp [ht, place]
  · exact (m.readLine_spec s ht).1

/-- A line of one piece is one token. -/
theorem readLine_tokens_of_pieces (m : Mode) {s : State} {t : List Char} {p : Piece}
    (h : pieces m.vocabulary s.region t = [p]) :
    (m.readLine s t).tokens = [⟨p.text, p.style, 0, Text.byteSize p.text⟩] := by
  rw [m.readLine_tokens, h]
  simp [place, Piece.toToken]

theorem readLine_state (m : Mode) (s : State) {t : List Char} (ht : t ≠ []) :
    (m.readLine s t).state =
      (layOut m.tabSize [] (m.lineState s t) (pieces m.vocabulary s.region t)).1 :=
  congrArg Prod.fst (m.readLine_spec s ht).2.2

theorem region_layOut (tabSize : Nat) (before : List Char) (s : State) (ps : List Piece) :
    (layOut tabSize before s ps).1.region = ps.foldl (fun r p => p.regionAfter r) s.region := by
  induction ps generalizing before s with
  | nil => rfl
  | cons p ps ih => simp only [layOut, ih, Piece.region_act, List.foldl_cons]

/-- The region behind a line depends on the region before it and the characters alone. -/
theorem region_readLine (m : Mode) (s : State) (t : List Char) :
    (m.readLine s t).state.region =
      (pieces m.vocabulary s.region t).foldl (fun r p => p.regionAfter r) s.region := by
  by_cases ht : t = []
  · simp [ht]
  · rw [m.readLine_state s ht, region_layOut]
    rfl

end Mode

end BraceMode
