import Mathlib.Data.List.Forall2
import BraceMode.Proofs.Pieces

/-! What the word tables can change. A lexeme asks the vocabulary for the class of a word and for nothing else,
and the class goes into the style of the token. The one thing that the layout learns from it is whether a
label word is a keyword. So two modes whose tables agree on the label words cut every text alike, move
through the same states and suggest the same columns, whatever other words they hold; and where their
tokens differ, each shows the class that its own table gives to the text. -/

namespace BraceMode

def Style.isWordClass : Style → Bool
  | .keyword | .atom | .variable => true
  | .number | .operator | .string | .comment => false

def Token.isWord (k : Token) : Bool := k.style.any Style.isWordClass

/-- Two tokens that stand in the same place, read with two vocabularies. They have the same style unless both
are words, and a word has the class that its vocabulary gives to the whole text. -/
structure Token.Twins (v w : Vocabulary) (j k : Token) : Prop where
  text : j.text = k.text
  start : j.start = k.start
  stop : j.stop = k.stop
  style : j.isWord = false ∨ k.isWord = false → j.style = k.style
  left : j.isWord = true → j.style = some (v.classify (String.ofList j.text))
  right : k.isWord = true → k.style = some (w.classify (String.ofList k.text))

structure HighlightedLine.Twins (v w : Vocabulary) (l k : HighlightedLine) : Prop where
  indent : l.indent = k.indent
  tokens : List.Forall₂ (Token.Twins v w) l.tokens k.tokens

def Vocabulary.AgreeOnLabels (v w : Vocabulary) : Prop := ∀ x ∈ labels, v.isKeyword x = w.isKeyword x

/-! ## Lexemes -/

namespace Vocabulary

variable (v : Vocabulary) (word : String)

theorem classify_eq_keyword_iff : v.classify word = .keyword ↔ v.isKeyword word = true := by
  unfold classify
  split
  · simp_all
  · split <;> simp_all

theorem isWordClass_classify : (v.classify word).isWordClass = true := by
  unfold classify
  split
  · rfl
  · split <;> rfl

end Vocabulary

namespace Lexeme

theorem Fixed.any_isWordClass {c : Char} {t : List Char} {l : Lexeme} (h : Fixed c t l) :
    l.style.any Style.isWordClass = false := by
  cases h <;> rfl

/-- A lexeme is the same in every vocabulary and shows no class, or it is a word in every vocabulary. -/
theorem read_eq_or_word (r : Region) (t : List Char) :
    (∃ l, l.style.any Style.isWordClass = false ∧ ∀ v, read v [] r t = l) ∨
      ∃ c u, t = c :: u ∧ ∀ v, read v [] r t = ofWord v [] c u := by
  cases r with
  | literal q => exact .inl ⟨ofLiteral q t, rfl, fun _ => rfl⟩
  | comment => exact .inl ⟨ofComment t, rfl, fun _ => rfl⟩
  | code =>
    cases t with
    | nil => exact .inl ⟨{ size := 0 }, rfl, fun _ => rfl⟩
    | cons c t =>
      rcases ofCode_cases c t with ⟨l, hfixed, hl⟩ | hword
      · exact .inl ⟨l, hfixed.any_isWordClass, fun v => hl v []⟩
      · exact .inr ⟨c, t, rfl, fun v => hword v []⟩

/-- A word marks a label in both vocabularies or in neither, if they agree on the label words. -/
theorem ofWord_mark_eq {v w : Vocabulary} (h : v.AgreeOnLabels w) (kept : List Char) (c : Char)
    (t : List Char) : (ofWord v kept c t).mark = (ofWord w kept c t).mark := by
  simp only [ofWord]
  generalize String.ofList (kept ++ (c :: t).take (1 + Lexis.run Lexis.isNameChar t)) = word
  have hlabel : v.classify word = .keyword ∧ Vocabulary.isLabel word = true ↔
      w.classify word = .keyword ∧ Vocabulary.isLabel word = true := by
    rw [v.classify_eq_keyword_iff, w.classify_eq_keyword_iff]
    refine and_congr_left fun hw => ?_
    rw [h word (List.contains_iff_mem.mp hw)]
  simp only [hlabel]

end Lexeme

/-- A lexeme acts by its mark, by the regions it enters and by whether it is a comment. -/
theorem Mode.absorb_congr {l k : Lexeme} (hmark : l.mark = k.mark) (hentered : l.entered = k.entered)
    (hcomment : l.style = some .comment ↔ k.style = some .comment) (column : Int) (s : State) :
    absorb column l s = absorb column k s := by
  simp only [absorb, hmark, hentered, hcomment]

/-! ## Pieces -/

/-- Two pieces that are read from the same text and act alike. They have the same style, which is no class
of a word, or each has the class that its vocabulary gives to the text. -/
structure Piece.Twins (v w : Vocabulary) (p q : Piece) : Prop where
  text : p.text = q.text
  regionAfter : ∀ r, p.regionAfter r = q.regionAfter r
  act : ∀ tabSize before s, p.act tabSize before s = q.act tabSize before s
  style : p.style = q.style ∧ p.style.any Style.isWordClass = false ∨
    p.style = some (v.classify (String.ofList p.text)) ∧ q.style = some (w.classify (String.ofList q.text))

namespace Piece

/-- Two words with the same first character and text behind it. -/
theorem twins_ofWord {v w : Vocabulary} (h : v.AgreeOnLabels w) (c : Char) (t : List Char) :
    Twins v w ⟨(c :: t).take (Lexeme.ofWord v [] c t).size, some (Lexeme.ofWord v [] c t)⟩
      ⟨(c :: t).take (Lexeme.ofWord w [] c t).size, some (Lexeme.ofWord w [] c t)⟩ := by
  have hmark := Lexeme.ofWord_mark_eq h [] c t
  have hcomment (u : Vocabulary) : (Lexeme.ofWord u [] c t).style ≠ some .comment := by
    intro hstyle
    have hclass : Style.comment.isWordClass = true := by
      rw [← Option.some.inj hstyle]
      exact u.isWordClass_classify _
    cases hclass
  have habsorb := Mode.absorb_congr hmark rfl (iff_of_false (hcomment v) (hcomment w))
  refine ⟨rfl, fun _ => rfl, fun tabSize before s => ?_, .inr ⟨rfl, rfl⟩⟩
  simp only [act, hmark, habsorb]

/-- The pieces that two vocabularies make of the beginning of a text. -/
theorem twins_first {v w : Vocabulary} (h : v.AgreeOnLabels w) (r : Region) (t : List Char) :
    Twins v w (first v r t) (first w r t) := by
  unfold first
  split
  · exact ⟨rfl, fun _ => rfl, fun _ _ _ => rfl, .inl ⟨rfl, rfl⟩⟩
  · rcases Lexeme.read_eq_or_word r t with ⟨l, hl, hread⟩ | ⟨c, u, rfl, hread⟩
    · rw [hread v, hread w]
      exact ⟨rfl, fun _ => rfl, fun _ _ _ => rfl, .inl ⟨rfl, hl⟩⟩
    · rw [hread v, hread w]
      exact twins_ofWord h c u

theorem Twins.toToken {v w : Vocabulary} {p q : Piece} (h : Twins v w p q) (start : Nat) :
    (p.toToken start).Twins v w (q.toToken start) := by
  have hstop : start + Text.byteSize p.text = start + Text.byteSize q.text := by rw [h.text]
  rcases h.style with ⟨hsame, hplain⟩ | ⟨hp, hq⟩
  · have hplain' : q.style.any Style.isWordClass = false := hsame ▸ hplain
    refine ⟨h.text, rfl, hstop, fun _ => hsame, fun hword => ?_, fun hword => ?_⟩
    · exact absurd hword (by simp [Token.isWord, Piece.toToken, hplain])
    · exact absurd hword (by simp [Token.isWord, Piece.toToken, hplain'])
  · refine ⟨h.text, rfl, hstop, fun hplain => ?_, fun _ => hp, fun _ => hq⟩
    rcases hplain with hplain | hplain
    · simp [Token.isWord, Piece.toToken, hp, v.isWordClass_classify] at hplain
    · simp [Token.isWord, Piece.toToken, hq, w.isWordClass_classify] at hplain

end Piece

theorem twins_pieces {v w : Vocabulary} (h : v.AgreeOnLabels w) (r : Region) (t : List Char) :
    List.Forall₂ (Piece.Twins v w) (pieces v r t) (pieces w r t) := by
  fun_induction pieces v r t with
  | case1 =>
    rw [pieces_nil]
    exact .nil
  | case2 r t ht p ih =>
    have hfirst := Piece.twins_first h r t
    rw [pieces_of_ne_nil w r ht]
    simp only [← hfirst.text, ← hfirst.regionAfter]
    exact .cons hfirst ih

/-! ## Lines -/

section Runs

variable {v w : Vocabulary} {ps qs : List Piece}

theorem twins_place (h : List.Forall₂ (Piece.Twins v w) ps qs) (start : Nat) :
    List.Forall₂ (Token.Twins v w) (place start ps) (place start qs) := by
  induction h generalizing start with
  | nil => exact .nil
  | cons hhead _ ih =>
    rw [place, place, ← hhead.text]
    exact .cons (hhead.toToken start) (ih _)

theorem layOut_eq_of_twins (h : List.Forall₂ (Piece.Twins v w) ps qs) (tabSize : Nat)
    (before : List Char) (s : State) : layOut tabSize before s ps = layOut tabSize before s qs := by
  induction h generalizing before s with
  | nil => rfl
  | cons hhead _ ih => simp only [layOut, hhead.act, hhead.text, ih]

end Runs

namespace Mode

variable {m n : Mode}

/-- One line: tokens that are twins, and one and the same state behind it. -/
theorem twins_readLine (htab : m.tabSize = n.tabSize) (h : m.vocabulary.AgreeOnLabels n.vocabulary)
    (s : State) (t : List Char) :
    List.Forall₂ (Token.Twins m.vocabulary n.vocabulary) (m.readLine s t).tokens (n.readLine s t).tokens ∧
      (m.readLine s t).state = (n.readLine s t).state := by
  have hpieces := twins_pieces h s.region t
  constructor
  · rw [m.readLine_tokens, n.readLine_tokens]
    exact twins_place hpieces 0
  · by_cases ht : t = []
    · rw [ht, readLine_nil, readLine_nil]
    · rw [m.readLine_state s ht, n.readLine_state s ht, layOut_eq_of_twins hpieces, lineState, lineState,
        htab]

/-- Line after line, both modes pass through the same states. -/
theorem twins_highlightFrom (hunit : m.indentUnit = n.indentUnit) (htab : m.tabSize = n.tabSize)
    (h : m.vocabulary.AgreeOnLabels n.vocabulary) (s : State) (ts : List (List Char)) :
    List.Forall₂ (HighlightedLine.Twins m.vocabulary n.vocabulary) (m.highlightFrom s ts)
        (n.highlightFrom s ts) ∧
      m.feed s ts = n.feed s ts := by
  induction ts generalizing s with
  | nil => exact ⟨.nil, rfl⟩
  | cons t ts ih =>
    obtain ⟨htokens, hstate⟩ := twins_readLine htab h s t
    have hindent : m.suggest s t = n.suggest s t := by simp only [suggest, hunit]
    obtain ⟨hlines, hfeed⟩ := ih (m.readLine s t).state
    rw [highlightFrom_cons, highlightFrom_cons, feed, List.foldl_cons, feed, List.foldl_cons, ← hstate]
    exact ⟨.cons ⟨hindent, htokens⟩ hlines, hfeed⟩

/-- **More words change colours and nothing else.** Take two modes of the same widths whose tables agree on
which label words are keywords and are otherwise free. For every text they suggest the same columns, cut
each line into the same tokens and end in the same state. A token that is no word in one of them has the
same style in the other, and a word has the class that the table of each gives to its whole text. -/
theorem highlight_with_other_words (hunit : m.indentUnit = n.indentUnit) (htab : m.tabSize = n.tabSize)
    (h : m.vocabulary.AgreeOnLabels n.vocabulary) (t : List Char) :
    List.Forall₂ (HighlightedLine.Twins m.vocabulary n.vocabulary) (m.highlight t) (n.highlight t) ∧
      m.feed (m.start 0) (Text.lines t) = n.feed (n.start 0) (Text.lines t) := by
  have hstart : m.start 0 = n.start 0 := by simp only [start, hunit]
  rw [highlight, highlight, ← hstart]
  exact twins_highlightFrom hunit htab h (m.start 0) (Text.lines t)

/-- Settings that make a name and an atom keywords, one of them twice, against settings with strings that are
no words; both make `case` a keyword. -/
theorem highlight_with_other_words_extras :
    let c : Settings := { extraKeywords := ["x", "len", "x", "case"] }
    let d : Settings := { extraKeywords := ["case", "a b", ""], extraAtoms := ["x", "+"] }
    let t := "f(x, \x7b\n\tcase len + 'x\\\n x' /* if */\n\x7d".toList
    ∃ m n, ofSettings c = .ok m ∧ ofSettings d = .ok n ∧ m.indentUnit = n.indentUnit ∧
      m.tabSize = n.tabSize ∧ m.vocabulary.AgreeOnLabels n.vocabulary ∧
      List.Forall₂ (HighlightedLine.Twins m.vocabulary n.vocabulary) (m.highlight t) (n.highlight t) ∧
      m.feed (m.start 0) (Text.lines t) = n.feed (n.start 0) (Text.lines t) := by
  intro c d t
  have hlabels : (Vocabulary.basic.extend c.extraKeywords c.extraAtoms).AgreeOnLabels
      (Vocabulary.basic.extend d.extraKeywords d.extraAtoms) := by
    intro x hx
    simp only [Vocabulary.labels, List.mem_cons, List.not_mem_nil, or_false] at hx
    rcases hx with rfl | rfl <;> rfl
  refine ⟨_, _, rfl, rfl, rfl, rfl, hlabels, highlight_with_other_words ?_ ?_ hlabels t⟩
  · rfl
  · rfl

end Mode

end BraceMode
