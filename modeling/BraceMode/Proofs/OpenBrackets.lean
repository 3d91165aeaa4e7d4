import BraceMode.Proofs.Brackets

/-! The open frames are the brackets that a text leaves unmatched. A matcher that knows nothing of regions,
alignments or indentations goes over the tokens without a style, whatever line they stand on: it keeps
each opening bracket with the column where it stands and drops it at the first closer of its kind that
finds it on top. Where no label word is a keyword the frames follow it step by step, so what is known of
matching brackets is known of frames. -/

namespace BraceMode

def openerOf? : List Char → Option FrameKind
  | ['{'] => some .brace
  | ['['] => some .bracket
  | ['('] => some .paren
  | _ => none

def closerOf? : List Char → Option FrameKind
  | ['}'] => some .brace
  | [']'] => some .bracket
  | [')'] => some .paren
  | _ => none

inductive Balanced : List (List Char) → Prop
  | nil : Balanced []
  | plain {text : List Char} {texts : List (List Char)} : openerOf? text = none →
      closerOf? text = none → Balanced texts → Balanced (text :: texts)
  | group {opener closer : List Char} {kind : FrameKind} {inner rest : List (List Char)} :
      openerOf? opener = some kind → closerOf? closer = some kind → Balanced inner → Balanced rest →
      Balanced (opener :: (inner ++ closer :: rest))

section Matcher

variable {α : Type}

/-- The open brackets, innermost first, behind one more text that stands at the given place. A closer that
does not fit the innermost bracket is passed over. -/
def matchText (stack : List (FrameKind × α)) (k : List Char × α) : List (FrameKind × α) :=
  match openerOf? k.1, stack with
  | some kind, _ => (kind, k.2) :: stack
  | none, [] => []
  | none, bracket :: rest => if closerOf? k.1 = some bracket.1 then rest else bracket :: rest

def bareTexts (ks : List (Token × α)) : List (List Char × α) :=
  (ks.filter fun k => k.1.style.isNone && !k.1.isBlank).map fun k => (k.1.text, k.2)

def matchBrackets (stack : List (FrameKind × α)) (ks : List (Token × α)) : List (FrameKind × α) :=
  (bareTexts ks).foldl matchText stack

end Matcher

/-- The tokens of a line, each with its column, when `before` stands in front of them. -/
def withColumns (tabSize : Nat) (before : List Char) : List Token → List (Token × Nat)
  | [] => []
  | k :: ks => (k, Text.width tabSize before) :: withColumns tabSize (before ++ k.text) ks

def Mode.columnTokens (m : Mode) (s : State) : List (List Char) → List (Token × Nat)
  | [] => []
  | t :: ts =>
    withColumns m.tabSize [] (m.readLine s t).tokens ++ m.columnTokens (m.readLine s t).state ts

def State.brackets (s : State) : List (FrameKind × Int) :=
  s.nesting.toList.tail.map fun f => (f.kind, f.column)

/-- The brackets that tokens leave open, outermost first. -/
def unmatched (ks : List (Token × Nat)) : List (FrameKind × Nat) := (matchBrackets [] ks).reverse

/-! ## The matcher -/

section Matcher

variable {α β : Type}

theorem matchBrackets_append (stack : List (FrameKind × α)) (ks js : List (Token × α)) :
    matchBrackets stack (ks ++ js) = matchBrackets (matchBrackets stack ks) js := by
  simp only [matchBrackets, bareTexts, List.filter_append, List.map_append, List.foldl_append]

theorem matchBrackets_cons (stack : List (FrameKind × α)) (k : Token × α) (ks : List (Token × α)) :
    matchBrackets stack (k :: ks) = matchBrackets (matchBrackets stack [k]) ks :=
  matchBrackets_append stack [k] ks

theorem matchText_of_opener {k : List Char × α} {kind : FrameKind} (h : openerOf? k.1 = some kind)
    (stack : List (FrameKind × α)) : matchText stack k = (kind, k.2) :: stack := by
  simp only [matchText, h]

theorem openerOf?_of_closerOf? {text : List Char} {kind : FrameKind} (h : closerOf? text = some kind) :
    openerOf? text = none := by
  unfold closerOf? at h
  split at h <;> first | rfl | cases h

theorem matchText_of_closer {k : List Char × α} {bracket : FrameKind × α}
    (hc : closerOf? k.1 = some bracket.1) (rest : List (FrameKind × α)) :
    matchText (bracket :: rest) k = rest := by
  simp only [matchText, openerOf?_of_closerOf? hc, hc, if_true]

/-- A text that opens nothing and does not close the innermost bracket changes nothing. -/
theorem matchText_of_plain {k : List Char × α} {stack : List (FrameKind × α)}
    (ho : openerOf? k.1 = none) (hc : ∀ b ∈ stack.head?, closerOf? k.1 ≠ some b.1) :
    matchText stack k = stack := by
  cases stack with
  | nil => simp only [matchText, ho]
  | cons bracket rest => simp only [matchText, ho, hc bracket rfl, if_false]

/-- Where the brackets stand does not matter to how they match. -/
theorem matchText_map (f : α → β) (stack : List (FrameKind × α)) (k : List Char × α) :
    matchText (stack.map (Prod.map id f)) (Prod.map id f k) =
      (matchText stack k).map (Prod.map id f) := by
  cases ho : openerOf? k.1 with
  | some kind =>
    have ho' : openerOf? (Prod.map id f k).1 = some kind := ho
    rw [matchText_of_opener ho, matchText_of_opener ho']
    rfl
  | none =>
    cases stack with
    | nil => simp [matchText, ho]
    | cons bracket rest =>
      by_cases hc : closerOf? k.1 = some bracket.1
      · simp [matchText, ho, hc]
      · simp [matchText, ho, hc]

theorem bareTexts_map (f : α → β) (ks : List (Token × α)) :
    bareTexts (ks.map (Prod.map id f)) = (bareTexts ks).map (Prod.map id f) := by
  simp [bareTexts, List.filter_map, Function.comp_def]

theorem matchBrackets_map (f : α → β) (stack : List (FrameKind × α)) (ks : List (Token × α)) :
    matchBrackets (stack.map (Prod.map id f)) (ks.map (Prod.map id f)) =
      (matchBrackets stack ks).map (Prod.map id f) := by
  unfold matchBrackets
  rw [bareTexts_map]
  generalize bareTexts ks = texts
  induction texts generalizing stack with
  | nil => rfl
  | cons k texts ih => rw [List.map_cons, List.foldl_cons, List.foldl_cons, matchText_map, ih]

/-- Balanced texts leave every stack as it is: what they open they close, before they could close more. -/
theorem foldl_matchText_of_balanced {texts : List (List Char)} (h : Balanced texts)
    {ks : List (List Char × α)} (hks : ks.map Prod.fst = texts) (stack : List (FrameKind × α)) :
    ks.foldl matchText stack = stack := by
  induction h generalizing ks stack with
  | nil =>
    rw [List.map_eq_nil_iff.mp hks]
    rfl
  | plain ho hc _ ih =>
    obtain ⟨k, ks, rfl, rfl, hrest⟩ := List.map_eq_cons_iff.mp hks
    rw [List.foldl_cons, matchText_of_plain ho (by simp [hc]), ih hrest]
  | group ho hc _ _ ihinner ihrest =>
    obtain ⟨k, ks, rfl, rfl, htail⟩ := List.map_eq_cons_iff.mp hks
    obtain ⟨inner, js, rfl, hinner, hclose⟩ := List.map_eq_append_iff.mp htail
    obtain ⟨j, rest, rfl, rfl, hrest⟩ := List.map_eq_cons_iff.mp hclose
    -- The inner texts run above the opener and end there, so the closer finds it on top.
    rw [List.foldl_cons, List.foldl_append, List.foldl_cons, matchText_of_opener ho, ihinner hinner,
      matchText_of_closer hc, ihrest hrest]

theorem foldl_matchText_of_plain {ks : List (List Char × α)} {stack : List (FrameKind × α)}
    (h : ∀ k ∈ ks, openerOf? k.1 = none ∧ ∀ b ∈ stack.head?, closerOf? k.1 ≠ some b.1) :
    ks.foldl matchText stack = stack := by
  induction ks with
  | nil => rfl
  | cons k ks ih =>
    obtain ⟨⟨hopen, hclose⟩, hrest⟩ := List.forall_mem_cons.mp h
    rw [List.foldl_cons, matchText_of_plain hopen hclose, ih hrest]

end Matcher

/-! ## The matcher and the frames -/

def Nesting.entries (n : Nesting) : List (FrameKind × Int) := n.inner.map fun f => (f.kind, f.column)

theorem State.brackets_eq_reverse (s : State) : s.brackets = s.nesting.entries.reverse := by
  simp [brackets, Nesting.toList, Nesting.entries]

theorem Nesting.entries_modifyTop_align (n : Nesting) : (n.modifyTop .align).entries = n.entries :=
  n.map_inner_modifyTop fun _ => rfl

theorem openerOf?_char (p : Punct) : openerOf? [p.char] = p.opens? := by cases p <;> rfl

theorem closerOf?_char_eq_some_iff (p : Punct) (kind : FrameKind) :
    closerOf? [p.char] = some kind ↔ p.closes kind = true := by
  cases p <;> cases kind <;> decide

/-- Punctuation acts on the frames as its character acts on the brackets. -/
theorem entries_apply_punct {s : State} (hroot : s.nesting.root.kind = .top) (column : Int) (p : Punct) :
    (s.align.apply column (Mark.change s.nesting.top.kind (.punct p))).nesting.entries =
      matchText s.nesting.entries ([p.char], column) := by
  cases hopen : p.opens? with
  | some kind =>
    have hchar : openerOf? [p.char] = some kind := (openerOf?_char p).trans hopen
    rw [matchText_of_opener hchar]
    simp only [Mark.change, hopen, State.apply]
    exact congrArg ((kind, column) :: ·) s.nesting.entries_modifyTop_align
  | none =>
    have hchar : openerOf? [p.char] = none := (openerOf?_char p).trans hopen
    obtain ⟨region, ⟨root, inner⟩, indented, fresh⟩ := s
    cases inner with
    | nil =>
      -- The root is not a bracket, so at the root every closer is one too many.
      have hclose : p.closes root.kind = false := by
        rw [show root.kind = .top from hroot, Punct.closes_top]
      simp [Mark.change, hopen, Nesting.top, hclose, State.apply, State.align, Nesting.modifyTop,
        Nesting.entries, matchText, hchar]
    | cons f fs =>
      cases hclose : p.closes f.kind with
      | true =>
        have hcloser := (closerOf?_char_eq_some_iff p f.kind).mpr hclose
        simp [Mark.change, hopen, Nesting.top, hclose, State.apply, State.align, Nesting.modifyTop,
          Nesting.pop?, Nesting.entries, matchText, hchar, hcloser]
      | false =>
        have hcloser : closerOf? [p.char] ≠ some f.kind := by
          rw [ne_eq, closerOf?_char_eq_some_iff, hclose]
          exact Bool.noConfusion
        simp [Mark.change, hopen, Nesting.top, hclose, State.apply, State.align, Nesting.modifyTop,
          Frame.align, Nesting.entries, matchText, hchar, hcloser]

/-- One piece of a line acts on the frames as its token acts on the brackets. -/
theorem Piece.Read.entries {p : Piece} (hp : p.Read) (start tabSize : Nat) (before : List Char) {s : State}
    (hroot : s.nesting.root.kind = .top) :
    (p.act tabSize before s).1.nesting.entries =
      matchBrackets s.nesting.entries
        [(p.toToken start, clampColumn (Text.width tabSize before))] := by
  cases hp with
  | @blank text hb => simp [Piece.act, matchBrackets, bareTexts, Piece.toToken, Token.isBlank, hb]
  | @styled text l hb hs hm =>
    obtain ⟨style, hstyle⟩ := Option.ne_none_iff_exists'.mp hs
    have hbare : matchBrackets s.nesting.entries
        [((Piece.mk text (some l)).toToken start, clampColumn (Text.width tabSize before))] =
        s.nesting.entries := by
      simp [matchBrackets, bareTexts, Piece.toToken, Piece.style, hstyle]
    rw [hbare]
    by_cases hc : style = .comment
    · simp [Piece.act, Mode.absorb, hstyle, hc, State.enter]
    · have hact : ((Piece.mk text (some l)).act tabSize before s).1.nesting =
          s.nesting.modifyTop .align := by
        simp [Piece.act, Mode.absorb, hstyle, hc, State.change, hm, State.apply, State.align, State.enter]
      rw [hact, Nesting.entries_modifyTop_align]
  | punct q =>
    have hbare : matchBrackets s.nesting.entries
        [((Piece.mk [q.char] (some { size := 1, mark := some (.punct q) })).toToken start,
          clampColumn (Text.width tabSize before))] =
        matchText s.nesting.entries ([q.char], clampColumn (Text.width tabSize before)) := by
      simp [matchBrackets, bareTexts, Piece.toToken, Piece.style, Token.isBlank, Text.allBlank,
        q.isBlank_char]
    rw [hbare, ← entries_apply_punct hroot]
    simp [Piece.act, Mode.absorb, State.change, State.enter, State.align]

theorem entries_layOut (tabSize start : Nat) (before : List Char) {s : State} {ps : List Piece}
    (hps : ∀ p ∈ ps, p.Read) (hroot : s.nesting.root.kind = .top) :
    (layOut tabSize before s ps).1.nesting.entries =
      matchBrackets s.nesting.entries
        ((withColumns tabSize before (place start ps)).map (Prod.map id clampColumn)) := by
  induction ps generalizing start before s with
  | nil => rfl
  | cons p ps ih =>
    obtain ⟨hp, hrest⟩ := List.forall_mem_cons.mp hps
    have hroot' := (hp.acts start tabSize before hroot).root_kind.trans hroot
    simp only [layOut, place, withColumns, List.map_cons]
    rw [matchBrackets_cons, ih (start + Text.byteSize p.text) (before ++ p.text) hrest hroot',
      hp.entries start tabSize before hroot]
    rfl

/-- A line that starts where no label is shown keeps kinds and columns. -/
theorem State.Plain.entries_startLine {s : State} (h : s.Plain) (indentation : Int) :
    (s.startLine indentation).nesting.entries = s.nesting.entries := by
  obtain ⟨region, ⟨root, inner⟩, indented, fresh⟩ := s
  cases inner with
  | nil => rfl
  | cons f fs =>
    have hlabel : f.kind ≠ .label := fun hf => h.inner (hf ▸ List.mem_cons_self)
    have hentry : (f.startLine.kind, f.startLine.column) = (f.kind, f.column) := by
      rw [Frame.kind_startLine hlabel]
      rfl
    exact congrArg (· :: fs.map fun f => (f.kind, f.column)) hentry

namespace Mode

variable (m : Mode)

/-- One line. -/
theorem entries_readLine (hv : m.vocabulary.Unlabelled) {s : State} (hs : s.Plain) (t : List Char) :
    (m.readLine s t).state.nesting.entries =
      matchBrackets s.nesting.entries
        ((withColumns m.tabSize [] (m.readLine s t).tokens).map (Prod.map id clampColumn)) := by
  by_cases ht : t = []
  · rw [ht, readLine_nil]
    rfl
  · let i := clampColumn (Text.indentation m.tabSize t)
    have hps : ∀ p ∈ pieces m.vocabulary s.region t, p.Read := fun p hp => read_of_mem_pieces hv hp
    have hlaid := entries_layOut m.tabSize 0 [] hps (hs.startLine i).2.root
    rw [m.readLine_state s ht, m.readLine_tokens s t, ← hs.entries_startLine i]
    exact hlaid

/-- Line after line. -/
theorem entries_feed (hv : m.vocabulary.Unlabelled) {s : State} (hs : s.Plain) (ts : List (List Char)) :
    (m.feed s ts).nesting.entries =
        matchBrackets s.nesting.entries ((m.columnTokens s ts).map (Prod.map id clampColumn)) ∧
      (m.feed s ts).Plain := by
  induction ts generalizing s with
  | nil => exact ⟨rfl, hs⟩
  | cons t ts ih =>
    obtain ⟨hentries, hplain⟩ := ih (m.kinds_readLine hv hs t).2
    refine ⟨?_, hplain⟩
    simp only [feed, List.foldl_cons] at hentries ⊢
    rw [hentries, m.entries_readLine hv hs t, columnTokens, List.map_append, matchBrackets_append]

theorem start_plain (base : Int) : (m.start base).Plain :=
  ⟨rfl, by simp [State.kinds, start, State.start]⟩

/-- Where the texts of some more lines leave every stack like this one alone, so do the lines. -/
theorem brackets_feed_eq_self (hv : m.vocabulary.Unlabelled) {s : State} (hs : s.Plain)
    {us : List (List Char)}
    (h : ∀ ks : List (List Char × Int),
      ks.map Prod.fst = (bareTexts (m.columnTokens s us)).map Prod.fst →
      ks.foldl matchText s.nesting.entries = s.nesting.entries) :
    (m.feed s us).brackets = s.brackets := by
  have htexts : (bareTexts ((m.columnTokens s us).map (Prod.map id clampColumn))).map Prod.fst =
      (bareTexts (m.columnTokens s us)).map Prod.fst := by
    rw [bareTexts_map, List.map_map]
    rfl
  rw [State.brackets_eq_reverse, State.brackets_eq_reverse, (m.entries_feed hv hs us).1, matchBrackets,
    h _ htexts]

end Mode

end BraceMode
