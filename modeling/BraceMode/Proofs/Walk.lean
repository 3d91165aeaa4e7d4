import BraceMode.Proofs.Brackets
import BraceMode.Proofs.Resumption

/-! A run token by token. Each token is kept with the states before and behind it, so what it did shows from
outside: a frame more, a frame less, or neither. `Takes` says once what a token can do to the open frames,
in every vocabulary and label words included. A run is a walk of such steps, with a line starting before
some of them, so whatever the steps and the line starts preserve holds wherever a run ends. -/

namespace BraceMode

structure Moment where
  before : State
  token : Token
  after : State
  deriving DecidableEq, Repr

namespace Moment

def opens (mo : Moment) : Bool := decide (mo.before.nesting.depth < mo.after.nesting.depth)

def closes (mo : Moment) : Bool := decide (mo.after.nesting.depth < mo.before.nesting.depth)

end Moment

def Token.isLabel (k : Token) : Bool :=
  k.style == some .keyword && Vocabulary.isLabel (String.ofList k.text)

namespace Mode

/-- The tokens that the reading loop yields from a cursor on, each with the states around it. -/
def momentsFrom (m : Mode) (c : Cursor) (s : State) : List Moment :=
  let behind (n : Nat) : State := (m.readSome (.faithful m.tabSize) n c s).2
  (m.readAll (.faithful m.tabSize) c s).tokens.mapIdx fun n k => ⟨behind n, k, behind (n + 1)⟩

def moments (m : Mode) (s : State) : List (List Char) → List Moment
  | [] => []
  | t :: ts => m.momentsFrom (.ofLine t) s ++ m.moments (m.readLine s t).state ts

end Mode

def trail (tabSize : Nat) (before : List Char) (s : State) : List Piece → List (Token × State)
  | [] => []
  | p :: ps =>
    let next := (p.act tabSize before s).1
    (p.toToken (Text.byteSize before), next) :: trail tabSize (before ++ p.text) next ps

/-! ## What a token can do -/

/-- What a token does to the open frames and the indentation: nothing, settle the alignment of the top
frame, label the top frame, open a frame or close one. A closer that finds no frame inside the root does
no more than settle. -/
inductive Takes (k : Token) : Nesting → Int → Nesting → Int → Prop
  | quiet {n i} : k.isQuiet = true → k.isLabel = false → Takes k n i n i
  | plain {n i} : k.isLabel = false → k.opens? = none → (k.closes n.top.kind = false ∨ n.inner = []) →
      k.isQuiet = false → Takes k n i (n.modifyTop .align) i
  | label {n i} : k.isLabel = true →
      Takes k n i ((n.modifyTop .align).modifyTop fun f => { f with kind := .label }) i
  | opens {n i} (kind : FrameKind) (width : Nat) : k.opens? = some kind →
      Takes k n i ((n.modifyTop .align).push (.opened i (clampColumn width) kind)) i
  | closes {root f fs i} : k.closes f.kind = true → Takes k ⟨root, f :: fs⟩ i ⟨root, fs⟩ f.indented

/-- A lexeme is punctuation, without a style, or it has a style and marks a label exactly when it is a
keyword that reads like one. -/
theorem Lexeme.mark_of_read {v : Vocabulary} {r : Region} {c : Char} {t : List Char} {l : Lexeme}
    (h : read v [] r (c :: t) = l) :
    (∃ p, Punct.ofChar? c = some p ∧ l = { size := 1, mark := some (.punct p) }) ∨
      l.style ≠ none ∧
        l.mark =
          if l.style = some .keyword ∧ Vocabulary.isLabel (String.ofList ((c :: t).take l.size)) = true
          then some .label else none := by
  cases r with
  | literal q => subst h; exact .inr ⟨by simp [read, ofLiteral], by simp [read, ofLiteral]⟩
  | comment => subst h; exact .inr ⟨by simp [read, ofComment], by simp [read, ofComment]⟩
  | code =>
    rcases ofCode_cases c t with ⟨l', hfixed, hl⟩ | hword
    · have heq : l' = l := (hl v []).symm.trans h
      subst heq
      rcases hfixed.mark_cases with hpunct | ⟨hstyle, hkeyword, hmark⟩
      · exact .inl hpunct
      · exact .inr ⟨hstyle, by simp [hkeyword, hmark]⟩
    · have heq : ofWord v [] c t = l := (hword v []).symm.trans h
      subst heq
      exact .inr ⟨by simp [ofWord], by simp [ofWord]⟩

namespace Token

theorem punct?_of_style {k : Token} (h : k.style ≠ none) : k.punct? = none := by
  cases hp : k.punct? with
  | none => rfl
  | some p => exact absurd ((k.punct?_eq_some_iff p).mp hp).1 h

theorem punct?_of_isQuiet {k : Token} (h : k.isQuiet = true) : k.punct? = none := by
  rcases Bool.or_eq_true_iff.mp h with hb | hc
  · exact punct?_of_isBlank hb
  · exact punct?_of_style (by simp [beq_iff_eq.mp hc])

theorem punct?_of_isLabel {k : Token} (h : k.isLabel = true) : k.punct? = none := by
  obtain ⟨hs, -⟩ := Bool.and_eq_true_iff.mp h
  exact punct?_of_style (by simp [beq_iff_eq.mp hs])

theorem isQuiet_of_punct? {k : Token} {q : Punct} (h : k.punct? = some q) : k.isQuiet = false := by
  cases hq : k.isQuiet with
  | false => rfl
  | true => exact absurd (punct?_of_isQuiet hq) (by simp [h])

theorem opens?_of_punct? {k : Token} (h : k.punct? = none) : k.opens? = none := by simp [opens?, h]

theorem closes_of_punct? {k : Token} (h : k.punct? = none) (kind : FrameKind) : k.closes kind = false := by
  simp [closes, h]

end Token

/-- Punctuation opens a frame, closes the top one or does no more than settle it. -/
theorem takes_punct {k : Token} {q : Punct} (hp : k.punct? = some q) (width : Nat) (s : State) :
    let after := s.align.apply (clampColumn width) (Mark.change s.nesting.top.kind (.punct q))
    Takes k s.nesting s.indented after.nesting after.indented := by
  intro after
  have hlabel : k.isLabel = false := by
    simp [Token.isLabel, ((k.punct?_eq_some_iff q).mp hp).1]
  cases hopen : q.opens? with
  | some kind =>
    simp only [after, Mark.change, hopen, State.apply]
    exact .opens kind width (by simp [Token.opens?, hp, hopen])
  | none =>
    have hopen' : k.opens? = none := by simp [Token.opens?, hp, hopen]
    have hloud : k.isQuiet = false := Token.isQuiet_of_punct? hp
    cases hclose : q.closes s.nesting.top.kind with
    | false =>
      simp only [after, Mark.change, hopen, hclose, Bool.false_eq_true, if_false, State.apply]
      exact .plain hlabel hopen' (.inl (by simp [Token.closes, hp, hclose])) hloud
    | true =>
      simp only [after, Mark.change, hopen, hclose, if_true, State.apply]
      obtain ⟨region, ⟨root, inner⟩, indented, fresh⟩ := s
      cases inner with
      | nil => exact .plain hlabel hopen' (.inr rfl) hloud
      | cons f fs =>
        have hf : q.closes f.kind = true := hclose
        have hrestore : f.align.kind.restoresIndent = true := q.restoresIndent_of_closes hf
        simp only [State.align, Nesting.modifyTop, Nesting.pop?, hrestore, if_true]
        exact .closes (by simp [Token.closes, hp, hf])

/-- A lexeme with a style settles the top frame, labels it when it is a label word, and does nothing when
it is a comment. -/
theorem takes_absorb {k : Token} {l : Lexeme} (hb : k.isBlank = false) (hstyle : k.style = l.style)
    (hs : l.style ≠ none) (hm : l.mark = if k.isLabel then some .label else none) (column : Int) (s : State) :
    let after := (Mode.absorb column l s).1
    Takes k s.nesting s.indented after.nesting after.indented := by
  intro after
  have hpunct : k.punct? = none := Token.punct?_of_style (hstyle ▸ hs)
  by_cases hc : l.style = some .comment
  · have hafter : after = s.enter l.entered := by simp only [after, Mode.absorb, hc, if_true]
    rw [hafter]
    exact .quiet (by simp [Token.isQuiet, hstyle, hc]) (by simp [Token.isLabel, hstyle, hc])
  · cases hlabel : k.isLabel with
    | true =>
      simp only [hlabel, if_true] at hm
      simp only [after, Mode.absorb, hc, if_false, State.change, hm, Option.map_some, Option.getD_some,
        Mark.change, State.apply]
      exact .label hlabel
    | false =>
      simp only [hlabel, Bool.false_eq_true, if_false] at hm
      simp only [after, Mode.absorb, hc, if_false, State.change, hm, Option.map_none, Option.getD_none,
        State.apply]
      exact .plain hlabel (Token.opens?_of_punct? hpunct) (.inl (Token.closes_of_punct? hpunct _))
        (by simp [Token.isQuiet, hb, hstyle, hc])

/-- The piece at the beginning of a text does what a token can do. -/
theorem Piece.takes_first (v : Vocabulary) (start tabSize : Nat) (before : List Char) (s : State)
    {t : List Char} (ht : t ≠ []) :
    let p := first v s.region t
    let after := (p.act tabSize before s).1
    Takes (p.toToken start) s.nesting s.indented after.nesting after.indented := by
  obtain ⟨c, t, rfl⟩ := List.exists_cons_of_ne_nil ht
  intro p after
  cases hc : Text.isBlank c with
  | true =>
    have hp : p = ⟨Text.lead (c :: t), none⟩ := first_of_isBlank v s.region t hc
    have hblank : (p.toToken start).isBlank = true := by
      rw [hp]
      exact Text.allBlank_lead _
    have hafter : after = s := by simp only [after, hp, act]
    rw [hafter]
    exact .quiet (by simp [Token.isQuiet, hblank]) (by simp [Token.isLabel, hp, toToken, style])
  | false =>
    obtain ⟨l, hl⟩ : ∃ l, Lexeme.read v [] s.region (c :: t) = l := ⟨_, rfl⟩
    have hp : p = ⟨(c :: t).take l.size, some l⟩ := hl ▸ first_of_not_isBlank v s.region t hc
    simp only [after, hp, act]
    rcases Lexeme.mark_of_read hl with ⟨q, hq, rfl⟩ | ⟨hs, hm⟩
    · have hpunct : (toToken start ⟨(c :: t).take 1, some { size := 1, mark := some (.punct q) }⟩).punct? =
          some q := by
        rw [Token.punct?_eq_some_iff, (Punct.ofChar?_eq_some_iff c q).mp hq]
        exact ⟨rfl, rfl⟩
      have htakes := takes_punct hpunct (Text.width tabSize before) s
      simpa [Mode.absorb, State.change, State.enter, State.align] using htakes
    · have hblank := not_allBlank_first v s.region t hc
      rw [first_of_not_isBlank v s.region t hc, hl] at hblank
      refine takes_absorb ?_ rfl hs ?_ _ s
      · exact hblank
      · rw [hm]
        simp [Token.isLabel, toToken, style]

namespace Takes

variable {k : Token} {n n' : Nesting} {i i' : Int}

/-- A token closes a frame exactly when it fits the top frame and that is not the root. -/
theorem depth_lt_iff (h : Takes k n i n' i') :
    n'.depth < n.depth ↔ n.inner ≠ [] ∧ k.closes n.top.kind = true := by
  cases h with
  | quiet hquiet =>
    simp [Token.closes_of_punct? (Token.punct?_of_isQuiet hquiet)]
  | plain _ _ hkeep =>
    rw [Nesting.depth_modifyTop]
    rcases hkeep with hclose | hinner
    · simp [hclose]
    · simp [hinner]
  | label hlabel =>
    rw [Nesting.depth_modifyTop, Nesting.depth_modifyTop]
    simp [Token.closes_of_punct? (Token.punct?_of_isLabel hlabel)]
  | opens kind width hopen =>
    have hclose : k.closes n.top.kind ≠ true := by
      intro hclose
      rw [Token.opens?_of_closes hclose] at hopen
      cases hopen
    rw [Nesting.depth_push, Nesting.depth_modifyTop]
    exact ⟨fun h => by omega, fun h => absurd h.2 hclose⟩
  | closes hclose => simp [Nesting.depth, Nesting.top, hclose]

end Takes

/-! ## A run is a walk -/

/-- The state in which a token is read: the one before it, or that one with a line started. -/
inductive Readies (s : State) : State → Prop
  | same : Readies s s
  | line (indentation : Nat) : Readies s (s.startLine (clampColumn indentation))

/-- Moments that lead from one state to another, each of which does what a token can do. -/
inductive Walk : State → List Moment → State → Prop
  | done {s} : Walk s [] s
  | take {s ready next last k ms} : Readies s ready →
      Takes k ready.nesting ready.indented next.nesting next.indented → Walk next ms last →
      Walk s (⟨s, k, next⟩ :: ms) last

theorem Walk.append {s t u : State} {ms ns : List Moment} (h : Walk s ms t) (h' : Walk t ns u) :
    Walk s (ms ++ ns) u := by
  induction h with
  | done => exact h'
  | take hready htakes _ ih => exact .take hready htakes (ih h')

namespace Mode

variable (m : Mode)

theorem readies_prepare (tabSize : Nat) (c : Cursor) (s : State) :
    Readies s (prepare (.faithful tabSize) c s) := by
  unfold prepare
  split
  · exact .line _
  · exact .same

theorem map_token_momentsFrom (c : Cursor) (s : State) :
    (m.momentsFrom c s).map Moment.token = (m.readAll (.faithful m.tabSize) c s).tokens := by
  apply List.ext_getElem?
  intro i
  simp [momentsFrom, Function.comp_def]

theorem moments_append (s : State) (us vs : List (List Char)) :
    m.moments s (us ++ vs) = m.moments s us ++ m.moments (m.feed s us) vs := by
  induction us generalizing s with
  | nil => rfl
  | cons u us ih =>
    rw [List.cons_append, moments, ih, moments, List.append_assoc]
    rfl

theorem momentsFrom_of_rest_eq_nil {c : Cursor} (s : State) (hc : c.rest = []) :
    m.momentsFrom c s = [] := by
  simp only [momentsFrom, readAll_of_rest_eq_nil m _ s hc, List.mapIdx_nil]

/-- Before the end of the line the loop takes the first piece of what is left and goes on behind it. -/
theorem momentsFrom_of_rest_ne_nil {c : Cursor} (s : State) (hc : c.rest ≠ []) :
    let before := c.passed.reverse ++ c.token
    let p := Piece.first m.vocabulary s.region c.rest
    let next := (p.act m.tabSize before (prepare (.faithful m.tabSize) c.mark s)).1
    m.momentsFrom c s =
      ⟨s, p.toToken (Text.byteSize before), next⟩ ::
        m.momentsFrom (c.mark.advance p.text.length) next := by
  intro before p next
  have hstep := m.step_mark_faithful m.tabSize c s hc
  simp only [region_prepare] at hstep
  have hread := m.readAll_faithful m.tabSize s hc
  have htokens := m.readAll_tokens m.tabSize c s
  rw [pieces_of_ne_nil m.vocabulary s.region hc, hread] at htokens
  obtain ⟨htoken, -⟩ := List.cons_eq_cons.mp htokens
  rw [hstep] at htoken
  simp only [momentsFrom, hread, List.mapIdx_cons, readSome, hstep]
  rw [htoken]

/-- The loop leaves the trail of the pieces that are left. -/
theorem map_momentsFrom (c : Cursor) (s : State) :
    (m.momentsFrom c s).map (fun mo => (mo.token, mo.after)) =
      trail m.tabSize (c.passed.reverse ++ c.token) (prepare (.faithful m.tabSize) c.mark s)
        (pieces m.vocabulary s.region c.rest) := by
  induction hn : c.rest.length using Nat.strongRecOn generalizing c s with
  | _ n ih =>
    by_cases hc : c.rest = []
    · rw [m.momentsFrom_of_rest_eq_nil s hc, hc, pieces_nil]
      rfl
    · let p := Piece.first m.vocabulary s.region c.rest
      let d := c.mark.advance p.text.length
      have hlt : d.rest.length < c.rest.length := Piece.length_drop_first_lt m.vocabulary s.region hc
      have htext : d.token = p.text := Piece.token_advance_first m.vocabulary s.region c
      have hbefore : d.passed.reverse ++ d.token = c.passed.reverse ++ c.token ++ p.text := by
        rw [htext]
        simp [d, Cursor.advance, Cursor.mark]
      have hne : d.token ≠ [] := htext ▸ Piece.first_text_ne_nil m.vocabulary s.region hc
      rw [m.momentsFrom_of_rest_ne_nil s hc, pieces_of_ne_nil m.vocabulary s.region hc, List.map_cons,
        ih _ (hn ▸ hlt) d _ rfl, prepare_mark_of_token_ne_nil m.tabSize _ hne, hbefore, Piece.region_act,
        region_prepare]
      rfl

/-- A line leaves the trail of its content, behind the blanks that it starts with. -/
theorem exists_map_momentsFrom_ofLine (s : State) (t : List Char) :
    ∃ blanks, (m.momentsFrom (.ofLine t) s).map (fun mo => (mo.token, mo.after)) =
        blanks ++ trail m.tabSize (Text.lead t) (m.lineState s t)
          (pieces m.vocabulary s.region (Text.trimStart t)) ∧
      blanks.length ≤ 1 ∧ (Text.lead t = [] → blanks = []) ∧
      ∀ x ∈ blanks, x.1.style = none ∧ x.1.isBlank = true ∧ x.2 = m.lineState s t := by
  have hmap : (m.momentsFrom (.ofLine t) s).map (fun mo => (mo.token, mo.after)) =
      trail m.tabSize [] (m.lineState s t) (pieces m.vocabulary s.region t) :=
    m.map_momentsFrom (.ofLine t) s
  rw [pieces_eq_lead_append] at hmap
  by_cases hlead : Text.lead t = []
  · refine ⟨[], ?_, Nat.zero_le 1, fun _ => rfl, by simp⟩
    rw [hmap, if_pos hlead, hlead]
    rfl
  · refine ⟨[(Piece.toToken 0 ⟨Text.lead t, none⟩, m.lineState s t)], ?_, Nat.le_refl 1,
      fun h => absurd h hlead, ?_⟩
    · rw [hmap, if_neg hlead]
      rfl
    · intro x hx
      rw [List.mem_singleton.mp hx]
      exact ⟨rfl, Text.allBlank_lead t, rfl⟩

/-- From wherever the loop stands in a line, it walks to the end of the line. -/
theorem walk_momentsFrom (c : Cursor) (s : State) :
    Walk s (m.momentsFrom c s) (m.readAll (.faithful m.tabSize) c s).state := by
  induction hn : c.rest.length using Nat.strongRecOn generalizing c s with
  | _ n ih =>
    by_cases hc : c.rest = []
    · rw [m.momentsFrom_of_rest_eq_nil s hc, readAll_of_rest_eq_nil m _ s hc]
      exact .done
    · have hstep := m.step_mark_faithful m.tabSize c s hc
      have htakes := Piece.takes_first m.vocabulary (Text.byteSize (c.passed.reverse ++ c.token)) m.tabSize
        (c.passed.reverse ++ c.token) (prepare (.faithful m.tabSize) c.mark s) hc
      simp only [region_prepare] at hstep htakes
      rw [m.momentsFrom_of_rest_ne_nil s hc, m.readAll_faithful m.tabSize s hc, hstep]
      refine .take (readies_prepare m.tabSize c.mark s) htakes (ih _ ?_ _ _ rfl)
      exact hn ▸ Piece.length_drop_first_lt m.vocabulary s.region hc

/-- **A run is a walk**: token after token and line after line, from the state it starts in to the one that
the lines leave. -/
theorem walk_moments (s : State) (ts : List (List Char)) : Walk s (m.moments s ts) (m.feed s ts) := by
  induction ts generalizing s with
  | nil => exact .done
  | cons t ts ih => exact (m.walk_momentsFrom (.ofLine t) s).append (ih _)

end Mode

end BraceMode
