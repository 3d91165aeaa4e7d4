import BraceMode.Proofs.Pieces

/-! What tokens do to the open frames, told without frames. Where no label word is a keyword, a token acts
through the punctuation it shows and in no other way, so the kinds of the open frames are what a plain
bracket matcher makes of the tokens: an opener is added, a closer of the innermost one takes it away and
everything else, a closer of another kind included, changes nothing. -/

namespace BraceMode

/-- Whether no label word is a keyword, so that no token marks a label. -/
def Vocabulary.Unlabelled (v : Vocabulary) : Prop := ∀ w ∈ labels, v.isKeyword w = false

instance (v : Vocabulary) : Decidable v.Unlabelled :=
  inferInstanceAs (Decidable (∀ w ∈ Vocabulary.labels, v.isKeyword w = false))

namespace Token

def punct? (k : Token) : Option Punct :=
  match k.style, k.text with
  | none, [c] => Punct.ofChar? c
  | _, _ => none

def opens? (k : Token) : Option FrameKind := k.punct?.bind Punct.opens?

def closes (k : Token) (kind : FrameKind) : Bool := k.punct?.any (·.closes kind)

def isBlank (k : Token) : Bool := Text.allBlank k.text

/-- Whether a token is blank or a comment. -/
def isQuiet (k : Token) : Bool := k.isBlank || k.style == some .comment

end Token

/-- The open brackets, innermost first, behind one more piece of punctuation. -/
def matchPunct (stack : List FrameKind) (p : Punct) : List FrameKind :=
  match p.opens?, stack with
  | some kind, _ => kind :: stack
  | none, [] => []
  | none, kind :: rest => if p.closes kind then rest else kind :: rest

def matchToken (stack : List FrameKind) (k : Token) : List FrameKind :=
  match k.punct? with
  | none => stack
  | some p => matchPunct stack p

def State.kinds (s : State) : List FrameKind := s.nesting.inner.map Frame.kind

structure State.Plain (s : State) : Prop where
  root : s.nesting.root.kind = .top
  inner : .label ∉ s.kinds

/-! ## Lexemes by what they tell the layout -/

/-- What is no word is punctuation, without a style, or has a style and marks nothing. -/
theorem Lexeme.Fixed.mark_cases {c : Char} {t : List Char} {l : Lexeme} (h : Fixed c t l) :
    (∃ p, Punct.ofChar? c = some p ∧ l = { size := 1, mark := some (.punct p) }) ∨
      l.style ≠ none ∧ l.style ≠ some .keyword ∧ l.mark = none := by
  cases h with
  | punct hp => exact .inl ⟨_, hp, rfl⟩
  | literal | number | blockComment | lineComment | operator =>
    exact .inr ⟨Option.some_ne_none _, by simp [behind, ofLiteral, ofComment], rfl⟩

theorem Lexeme.ofWord_mark {v : Vocabulary} (hv : v.Unlabelled) (kept : List Char) (c : Char)
    (t : List Char) : (ofWord v kept c t).mark = none := by
  simp only [ofWord]
  split
  · rename_i h
    obtain ⟨hk, hl⟩ := h
    have hmem : ∀ w, Vocabulary.isLabel w = true → v.isKeyword w = false := by
      intro w hw
      exact hv w (by simpa [Vocabulary.isLabel] using hw)
    unfold Vocabulary.classify at hk
    rw [hmem _ hl] at hk
    split at hk
    · contradiction
    · split at hk <;> cases hk
  · rfl

/-- A lexeme is punctuation, without a style, or it has a style and marks nothing. -/
theorem Lexeme.read_cases {v : Vocabulary} (hv : v.Unlabelled) (kept : List Char) (r : Region) (c : Char)
    (t : List Char) :
    (∃ p, Punct.ofChar? c = some p ∧
        read v kept r (c :: t) = { size := 1, mark := some (.punct p) }) ∨
      (read v kept r (c :: t)).style ≠ none ∧ (read v kept r (c :: t)).mark = none := by
  cases r with
  | literal q => exact .inr ⟨by simp [read, ofLiteral], rfl⟩
  | comment => exact .inr ⟨by simp [read, ofComment], rfl⟩
  | code =>
    rcases ofCode_cases c t with ⟨l, hfixed, hl⟩ | hword
    · simp only [read, hl]
      rcases hfixed.mark_cases with hpunct | ⟨hstyle, -, hmark⟩
      · exact .inl hpunct
      · exact .inr ⟨hstyle, hmark⟩
    · simp only [read, hword]
      exact .inr ⟨by simp [ofWord], ofWord_mark hv kept c t⟩

/-- No punctuation is blank. -/
theorem Punct.isBlank_char (p : Punct) : Text.isBlank p.char = false := by cases p <;> decide

/-! ## Pieces by what they do -/

/-- The pieces that reading makes where nothing marks a label. -/
inductive Piece.Read : Piece → Prop
  | blank {text} : Text.allBlank text = true → Read ⟨text, none⟩
  | styled {text l} : Text.allBlank text = false → l.style ≠ none → l.mark = none → Read ⟨text, some l⟩
  | punct (p : Punct) : Read ⟨[p.char], some { size := 1, mark := some (.punct p) }⟩

theorem Piece.read_first {v : Vocabulary} (hv : v.Unlabelled) (r : Region) {t : List Char} (ht : t ≠ []) :
    (first v r t).Read := by
  obtain ⟨c, t, rfl⟩ := List.exists_cons_of_ne_nil ht
  cases hc : Text.isBlank c with
  | true =>
    rw [first_of_isBlank v r t hc]
    exact .blank (Text.allBlank_lead _)
  | false =>
    have hblank := not_allBlank_first v r t hc
    rw [first_of_not_isBlank v r t hc] at hblank ⊢
    rcases Lexeme.read_cases hv [] r c t with ⟨p, hp, hl⟩ | ⟨hs, hm⟩
    · rw [hl, (Punct.ofChar?_eq_some_iff c p).mp hp]
      exact .punct p
    · exact .styled hblank hs hm

theorem read_of_mem_pieces {v : Vocabulary} (hv : v.Unlabelled) {r : Region} {t : List Char} {p : Piece}
    (h : p ∈ pieces v r t) : p.Read := by
  fun_induction pieces v r t with
  | case1 => cases h
  | case2 r t ht q ih =>
    rcases List.mem_cons.mp h with rfl | h
    · exact Piece.read_first hv r ht
    · exact ih h

/-- What a token does to the open frames and the indentation: nothing, settle the alignment of the top
frame, open a frame or close one. -/
inductive Acts (k : Token) : Nesting → Int → Nesting → Int → Prop
  | quiet {n i} : k.isQuiet = true → k.punct? = none → Acts k n i n i
  | plain {n i} : k.isQuiet = false → k.opens? = none → k.closes n.top.kind = false →
      Acts k n i (n.modifyTop .align) i
  | opens {n i} (kind : FrameKind) (column : Int) : k.isQuiet = false → k.opens? = some kind →
      Acts k n i ((n.modifyTop .align).push (.opened i column kind)) i
  | closes {root f fs i} : k.isQuiet = false → k.closes f.kind = true →
      Acts k ⟨root, f :: fs⟩ i ⟨root, fs⟩ f.indented

theorem Token.punct?_eq_some_iff (k : Token) (p : Punct) :
    k.punct? = some p ↔ k.style = none ∧ k.text = [p.char] := by
  unfold punct?
  constructor
  · intro h
    split at h
    · rename_i c hs ht
      exact ⟨hs, by rw [ht, (Punct.ofChar?_eq_some_iff c p).mp h]⟩
    · cases h
  · rintro ⟨hs, ht⟩
    rw [hs, ht]
    exact Punct.ofChar?_char p

theorem Token.punct?_of_isBlank {k : Token} (h : k.isBlank = true) : k.punct? = none := by
  cases hp : k.punct? with
  | none => rfl
  | some p =>
    rw [isBlank, ((k.punct?_eq_some_iff p).mp hp).2] at h
    simp [Text.allBlank, p.isBlank_char] at h

/-- Whatever closes a frame brings its indentation back. -/
theorem Punct.restoresIndent_of_closes {p : Punct} {kind : FrameKind} (h : p.closes kind = true) :
    kind.restoresIndent = true := by
  cases kind <;> simp_all [closes, FrameKind.restoresIndent]

@[simp] theorem Frame.kind_align (f : Frame) : f.align.kind = f.kind := rfl

/-- Punctuation behind which the top frame is settled opens a frame, closes the top one or does no more. -/
theorem acts_punct {k : Token} {q : Punct} (hk : k.isQuiet = false) (hp : k.punct? = some q) (column : Int)
    {s : State} (hroot : s.nesting.root.kind = .top) :
    let after := s.align.apply column (Mark.change s.nesting.top.kind (.punct q))
    Acts k s.nesting s.indented after.nesting after.indented := by
  intro after
  cases hopen : q.opens? with
  | some kind =>
    simp only [after, Mark.change, hopen, State.apply]
    exact .opens kind _ hk (by simp [Token.opens?, hp, hopen])
  | none =>
    cases hclose : q.closes s.nesting.top.kind with
    | false =>
      simp only [after, Mark.change, hopen, hclose, Bool.false_eq_true, if_false, State.apply]
      exact .plain hk (by simp [Token.opens?, hp, hopen]) (by simp [Token.closes, hp, hclose])
    | true =>
      simp only [after, Mark.change, hopen, hclose, if_true, State.apply]
      obtain ⟨region, ⟨root, inner⟩, indented, fresh⟩ := s
      cases inner with
      | nil =>
        have htop : q.closes .top = true := hroot ▸ hclose
        exact absurd htop (by simp)
      | cons f fs =>
        have hf : q.closes f.kind = true := hclose
        have hrestore : f.align.kind.restoresIndent = true := q.restoresIndent_of_closes hf
        simp only [State.align, Nesting.modifyTop, Nesting.pop?, hrestore, if_true]
        exact .closes hk (by simp [Token.closes, hp, hf])

theorem Piece.Read.acts {p : Piece} (hp : p.Read) (start tabSize : Nat) (before : List Char) {s : State}
    (hroot : s.nesting.root.kind = .top) :
    Acts (p.toToken start) s.nesting s.indented (p.act tabSize before s).1.nesting
      (p.act tabSize before s).1.indented := by
  cases hp with
  | @blank text hb =>
    have hk : (Piece.toToken start ⟨text, none⟩).isBlank = true := hb
    exact .quiet (by simp [Token.isQuiet, hk]) (Token.punct?_of_isBlank hk)
  | @styled text l hb hs hm =>
    obtain ⟨style, hstyle⟩ := Option.ne_none_iff_exists'.mp hs
    have hpunct : (Piece.toToken start ⟨text, some l⟩).punct? = none := by
      simp [Piece.toToken, Piece.style, hstyle, Token.punct?]
    by_cases hc : style = .comment
    · have hact : ((Piece.mk text (some l)).act tabSize before s).1 = s.enter l.entered := by
        simp [Piece.act, Mode.absorb, hstyle, hc]
      rw [hact]
      exact .quiet (by simp [Token.isQuiet, Piece.toToken, Piece.style, hstyle, hc]) hpunct
    · have hact : ((Piece.mk text (some l)).act tabSize before s).1 =
          { (s.enter l.entered).align with fresh := false } := by
        simp [Piece.act, Mode.absorb, hstyle, hc, State.change, hm, State.apply]
      rw [hact]
      refine .plain ?_ (by simp [Token.opens?, hpunct]) (by simp [Token.closes, hpunct])
      simp [Token.isQuiet, Token.isBlank, Piece.toToken, Piece.style, hb, hstyle, hc]
  | punct q =>
    let p : Piece := ⟨[q.char], some { size := 1, mark := some (.punct q) }⟩
    have hpunct : (p.toToken start).punct? = some q := by
      rw [Token.punct?_eq_some_iff]
      exact ⟨rfl, rfl⟩
    have hquiet : (p.toToken start).isQuiet = false := by
      simp [p, Piece.toToken, Piece.style, Token.isQuiet, Token.isBlank, Text.allBlank, q.isBlank_char]
    have hact : (p.act tabSize before s).1 =
        { s.align.apply (clampColumn (Text.width tabSize before)) (Mark.change s.nesting.top.kind (.punct q))
          with fresh := false } := by
      simp [p, Piece.act, Mode.absorb, State.change, State.enter, State.align]
    show Acts (p.toToken start) s.nesting s.indented (p.act tabSize before s).1.nesting
      (p.act tabSize before s).1.indented
    rw [hact]
    exact acts_punct hquiet hpunct _ hroot

/-! ## The matcher follows the frames -/

theorem Punct.opens?_of_closes {p : Punct} {kind : FrameKind} (h : p.closes kind = true) :
    p.opens? = none := by
  cases p <;> cases kind <;> first | rfl | cases h

theorem Token.opens?_of_closes {k : Token} {kind : FrameKind} (h : k.closes kind = true) :
    k.opens? = none := by
  obtain ⟨p, hp, hclose⟩ := (Option.any_eq_true _ _).mp h
  rw [opens?, hp]
  exact p.opens?_of_closes hclose

theorem matchToken_of_punct?_eq_none {k : Token} (h : k.punct? = none) (stack : List FrameKind) :
    matchToken stack k = stack := by
  simp only [matchToken, h]

theorem matchToken_of_opens {k : Token} {kind : FrameKind} (h : k.opens? = some kind)
    (stack : List FrameKind) : matchToken stack k = kind :: stack := by
  obtain ⟨p, hp, hkind⟩ := Option.bind_eq_some_iff.mp h
  simp only [matchToken, hp, matchPunct, hkind]

theorem matchToken_of_closes {k : Token} {kind : FrameKind} (h : k.closes kind = true)
    (rest : List FrameKind) : matchToken (kind :: rest) k = rest := by
  obtain ⟨p, hp, hclose⟩ := (Option.any_eq_true _ _).mp h
  simp only [matchToken, hp, matchPunct, p.opens?_of_closes hclose, hclose, if_true]

/-- A token that neither opens a bracket nor closes the innermost one changes nothing. -/
theorem matchToken_of_plain {k : Token} {stack : List FrameKind} (hopen : k.opens? = none)
    (hclose : stack.head?.any k.closes = false) : matchToken stack k = stack := by
  cases hp : k.punct? with
  | none => exact matchToken_of_punct?_eq_none hp stack
  | some p =>
    have hp' : p.opens? = none := by simpa [Token.opens?, hp] using hopen
    cases stack with
    | nil => simp only [matchToken, hp, matchPunct, hp']
    | cons kind rest =>
      have hkind : p.closes kind = false := by simpa [Token.closes, hp] using hclose
      simp [matchToken, hp, matchPunct, hp', hkind]

theorem Nesting.kinds_modifyTop_align (n : Nesting) :
    (n.modifyTop .align).inner.map Frame.kind = n.inner.map Frame.kind :=
  n.map_inner_modifyTop Frame.kind_align

theorem Nesting.root_kind_modifyTop_align (n : Nesting) :
    (n.modifyTop .align).root.kind = n.root.kind := by
  obtain ⟨root, inner⟩ := n
  cases inner <;> rfl

theorem Acts.root_kind {k : Token} {n n' : Nesting} {i i' : Int} (h : Acts k n i n' i') :
    n'.root.kind = n.root.kind := by
  cases h with
  | quiet => rfl
  | plain => exact n.root_kind_modifyTop_align
  | opens => exact n.root_kind_modifyTop_align
  | closes => rfl

theorem Acts.kinds {k : Token} {n n' : Nesting} {i i' : Int} (h : Acts k n i n' i') :
    n'.inner.map Frame.kind = matchToken (n.inner.map Frame.kind) k := by
  cases h with
  | quiet _ hpunct => rw [matchToken_of_punct?_eq_none hpunct]
  | plain _ hopen hclose =>
    rw [n.kinds_modifyTop_align, matchToken_of_plain hopen]
    obtain ⟨root, inner⟩ := n
    cases inner with
    | nil => rfl
    | cons f fs => exact hclose
  | opens kind column _ hopen =>
    rw [matchToken_of_opens hopen]
    exact congrArg (kind :: ·) n.kinds_modifyTop_align
  | closes _ hclose => exact (matchToken_of_closes hclose _).symm

/-- A closer of the innermost frame takes it away. -/
theorem Acts.of_closes {k : Token} {n n' : Nesting} {i i' : Int} {f : Frame} {fs : List Frame}
    (h : Acts k n i n' i') (hn : n.inner = f :: fs) (hk : k.closes f.kind = true) :
    n' = ⟨n.root, fs⟩ ∧ i' = f.indented := by
  cases h with
  | quiet _ hpunct => simp [Token.closes, hpunct] at hk
  | plain _ _ hclose =>
    have htop : n.top = f := by simp [Nesting.top, hn]
    rw [htop, hk] at hclose
    cases hclose
  | opens kind column _ hopen =>
    rw [Token.opens?_of_closes hk] at hopen
    cases hopen
  | closes =>
    obtain ⟨rfl, rfl⟩ := List.cons_eq_cons.mp hn
    exact ⟨rfl, rfl⟩

theorem Mode.kinds_layOut (tabSize start : Nat) (before : List Char) {s : State} {ps : List Piece}
    (hps : ∀ p ∈ ps, p.Read) (hroot : s.nesting.root.kind = .top) :
    (layOut tabSize before s ps).1.kinds = (place start ps).foldl matchToken s.kinds ∧
      (layOut tabSize before s ps).1.nesting.root.kind = .top := by
  induction ps generalizing start before s with
  | nil => exact ⟨rfl, hroot⟩
  | cons p ps ih =>
    have hacts := (hps p (by simp)).acts start tabSize before hroot
    obtain ⟨hkinds, hroot'⟩ := ih (start + Text.byteSize p.text) (before ++ p.text)
      (fun q hq => hps q (List.mem_cons_of_mem p hq)) (hacts.root_kind.trans hroot)
    refine ⟨?_, hroot'⟩
    simp only [layOut, place, List.foldl_cons, hkinds]
    congr 1
    exact hacts.kinds

/-! ## Closers by their character -/

/-- A closer is punctuation and begins nothing else. -/
theorem FrameKind.exists_punct_of_closer? {kind : FrameKind} {c : Char} (h : kind.closer? = some c) :
    ∃ p, c = Punct.char p ∧ Quote.ofChar? c = none ∧ ∀ t, Lexis.Number.starts c t = false := by
  cases kind with
  | top => cases h
  | label => cases h
  | brace => cases h; exact ⟨.rightBrace, rfl, rfl, fun t => rfl⟩
  | bracket => cases h; exact ⟨.rightBracket, rfl, rfl, fun t => rfl⟩
  | paren => cases h; exact ⟨.rightParen, rfl, rfl, fun t => rfl⟩

/-- In code the first token of a text closes a frame exactly when the text starts with the closer. -/
theorem Piece.closes_first (v : Vocabulary) (start : Nat) {c : Char} (t : List Char)
    (hc : Text.isBlank c = false) (kind : FrameKind) :
    ((first v .code (c :: t)).toToken start).closes kind = (kind.closer? == some c) := by
  rw [Bool.eq_iff_iff, beq_iff_eq]
  constructor
  · intro h
    obtain ⟨p, hp, hclose⟩ := (Option.any_eq_true _ _).mp h
    have htext : (first v .code (c :: t)).text = [p.char] := ((Token.punct?_eq_some_iff _ p).mp hp).2
    have hcut := first_text_append_drop v .code (c :: t)
    rw [htext] at hcut
    obtain ⟨rfl, -⟩ := List.cons_eq_cons.mp hcut
    exact (p.closes_iff_closer? kind).mp hclose
  · intro h
    obtain ⟨p, rfl, hquote, hnumber⟩ := kind.exists_punct_of_closer? h
    have hread : Lexeme.read v [] .code (p.char :: t) = { size := 1, mark := some (.punct p) } := by
      simp [Lexeme.read, Lexeme.ofCode, hquote, hnumber, Punct.ofChar?_char]
    have hp : ((first v .code (p.char :: t)).toToken start).punct? = some p := by
      rw [Token.punct?_eq_some_iff, first_of_not_isBlank v .code t hc, hread]
      exact ⟨rfl, rfl⟩
    rw [Token.closes, hp]
    exact (p.closes_iff_closer? kind).mpr h

/-! ## One line -/

theorem label_not_mem_matchToken {stack : List FrameKind} (h : .label ∉ stack) (k : Token) :
    .label ∉ matchToken stack k := by
  unfold matchToken
  split
  · exact h
  · rename_i p _
    unfold matchPunct
    split
    · rename_i kind hp
      have hkind : kind ≠ .label := by
        rintro rfl
        cases p <;> simp [Punct.opens?] at hp
      exact List.not_mem_cons_of_ne_of_not_mem hkind.symm h
    · exact h
    · split
      · exact fun hm => h (List.mem_cons_of_mem _ hm)
      · exact h

theorem label_not_mem_foldl_matchToken {stack : List FrameKind} (h : .label ∉ stack) (ks : List Token) :
    .label ∉ ks.foldl matchToken stack := by
  induction ks generalizing stack with
  | nil => exact h
  | cons k ks ih => exact ih (label_not_mem_matchToken h k)

theorem Frame.kind_startLine {f : Frame} (h : f.kind ≠ .label) : f.startLine.kind = f.kind := if_neg h

/-- A line that starts where no label is shown changes no kind. -/
theorem State.Plain.startLine {s : State} (h : s.Plain) (indentation : Int) :
    (s.startLine indentation).kinds = s.kinds ∧ (s.startLine indentation).Plain := by
  obtain ⟨region, ⟨root, inner⟩, indented, fresh⟩ := s
  obtain ⟨hroot, hinner⟩ := h
  cases inner with
  | nil =>
    have hlabel : root.kind ≠ .label := by
      rw [show root.kind = .top from hroot]
      exact FrameKind.noConfusion
    exact ⟨rfl, (Frame.kind_startLine hlabel).trans hroot, hinner⟩
  | cons f fs =>
    have hlabel : f.kind ≠ .label := fun hf => hinner (hf ▸ List.mem_cons_self)
    have hkinds : (f.startLine :: fs).map Frame.kind = (f :: fs).map Frame.kind := by
      simp only [List.map_cons, Frame.kind_startLine hlabel]
    refine ⟨hkinds, hroot, ?_⟩
    show .label ∉ (f.startLine :: fs).map Frame.kind
    rw [hkinds]
    exact hinner

/-- The kind of the top frame. -/
theorem State.Plain.top_kind {s : State} (h : s.Plain) : s.nesting.top.kind = s.kinds.headD .top := by
  obtain ⟨region, ⟨root, inner⟩, indented, fresh⟩ := s
  cases inner with
  | nil => exact h.root
  | cons f fs => rfl

theorem State.Plain.top_kind_ne {s : State} (h : s.Plain) : s.nesting.top.kind ≠ .label := by
  rw [h.top_kind]
  have hinner := h.inner
  cases hk : s.kinds with
  | nil => exact FrameKind.noConfusion
  | cons kind rest =>
    rw [hk] at hinner
    exact (List.ne_of_not_mem_cons hinner).symm

namespace Mode

/-- The blanks in front of a line say where it stands and do nothing else. -/
theorem readLine_spec_trimStart (m : Mode) (s : State) {t : List Char} (ht : t ≠ []) :
    ((m.readLine s t).state, (m.readLine s t).events) =
      layOut m.tabSize (Text.lead t) (m.lineState s t)
        (pieces m.vocabulary s.region (Text.trimStart t)) := by
  rw [(m.readLine_spec s ht).2.2, pieces_eq_lead_append m.vocabulary s.region t]
  split
  · rename_i h
    rw [h, List.nil_append]
  · rfl

theorem readLine_state_trimStart (m : Mode) (s : State) {t : List Char} (ht : t ≠ []) :
    (m.readLine s t).state =
      (layOut m.tabSize (Text.lead t) (m.lineState s t)
        (pieces m.vocabulary s.region (Text.trimStart t))).1 :=
  congrArg Prod.fst (m.readLine_spec_trimStart s ht)

/-- The kinds of the open frames behind a line are what the matcher makes of its content. -/
theorem kinds_readLine (m : Mode) {s : State} (hv : m.vocabulary.Unlabelled) (hs : s.Plain)
    (t : List Char) :
    let ks := place 0 (pieces m.vocabulary s.region (Text.trimStart t))
    (m.readLine s t).state.kinds = ks.foldl matchToken s.kinds ∧ (m.readLine s t).state.Plain := by
  intro ks
  by_cases ht : t = []
  · have hks : ks = [] := by simp [ks, ht, Text.trimStart, place]
    simp only [hks, ht, readLine_nil, List.foldl_nil, true_and]
    exact hs
  · obtain ⟨hkinds, hplain⟩ := hs.startLine (clampColumn (Text.indentation m.tabSize t))
    obtain ⟨hlaid, hroot⟩ := kinds_layOut m.tabSize 0 (Text.lead t)
      (fun p hp => read_of_mem_pieces hv hp) hplain.root
    have hstate : (m.readLine s t).state.kinds = ks.foldl matchToken s.kinds := by
      rw [m.readLine_state_trimStart s ht, ← hkinds]
      exact hlaid
    refine ⟨hstate, ?_, ?_⟩
    · rw [m.readLine_state_trimStart s ht]
      exact hroot
    · rw [hstate]
      exact label_not_mem_foldl_matchToken hs.inner ks

end Mode

end BraceMode
