import BraceMode.Lexis.Comment
import BraceMode.Lexis.Literal
import BraceMode.Lexis.Number
import BraceMode.Lexis.Punct
import BraceMode.Lexis.Region
import BraceMode.Lexis.Vocabulary

/-! Lexemes: what stands at the beginning of a text, given the region it is read in. A lexeme says how many
characters it takes, so the text splits into `take` and `drop` and nothing is copied or lost. It depends
on the region and the text alone, never on nesting or indentation. -/

namespace BraceMode

/-- What a lexeme tells the layout: punctuation, or a label word. -/
inductive Mark where
  | punct (p : Punct)
  | label
  deriving DecidableEq, Repr

/-- `entered` lists the regions entered while reading, in order. -/
structure Lexeme where
  size : Nat
  style : Option Style := none
  mark : Option Mark := none
  entered : List Region := []
  deriving DecidableEq, Repr

namespace Lexeme

/-- The region after the lexeme when it was read in region `r`. -/
def regionAfter (l : Lexeme) (r : Region) : Region := l.entered.getLastD r

/-- The lexeme `l` behind `n` characters that enter region `r`. -/
def behind (n : Nat) (r : Region) (l : Lexeme) : Lexeme :=
  { l with size := n + l.size, entered := r :: l.entered }

/-- The body of a literal; a closing delimiter, or a line end that closes it, leads back to code. -/
def ofLiteral (q : Quote) (t : List Char) : Lexeme :=
  let body := Lexis.Literal.scan q false t
  { size := body.1
    style := some .string
    entered := if body.2.staysOpen q then [] else [.code] }

/-- The text of a block comment; its terminator leads back to code. -/
def ofComment (t : List Char) : Lexeme where
  size := Lexis.Comment.size t
  style := some .comment
  entered := if (Lexis.Comment.closing? t).isSome then [.code] else []

/-- A comment of either form, from its opening characters on. -/
def opensComment? : List Char → Option Lexeme
  | '/' :: '*' :: t => some ((ofComment t).behind 2 .comment)
  | '/' :: '/' :: t => some { size := 2 + t.length, style := some .comment }
  | _ => none

/-- A name: one character of any kind, then name characters. The word looked up starts with `kept`, the
part of the token that was read before. -/
def ofWord (v : Vocabulary) (kept : List Char) (c : Char) (t : List Char) : Lexeme :=
  let size := 1 + Lexis.run Lexis.isNameChar t
  let word := String.ofList (kept ++ (c :: t).take size)
  let style := v.classify word
  { size := size
    style := some style
    mark := if style = .keyword ∧ Vocabulary.isLabel word = true then some .label else none }

/-- The lexeme at the beginning of code. Quotes come first, then numbers, so that a point before a digit
is no punctuation, then comments, so that a slash before one is no operator. -/
def ofCode (v : Vocabulary) (kept : List Char) : List Char → Lexeme
  | [] => { size := 0 }
  | c :: t =>
    match Quote.ofChar? c with
    | some q => (ofLiteral q t).behind 1 (.literal q)
    | none =>
      if Lexis.Number.starts c t then
        { size := 1 + Lexis.Number.tailSize c t, style := some .number }
      else
        match Punct.ofChar? c with
        | some p => { size := 1, mark := some (.punct p) }
        | none =>
          match opensComment? (c :: t) with
          | some l => l
          | none =>
            if Lexis.isOperatorChar c then
              { size := 1 + Lexis.run Lexis.isOperatorChar t, style := some .operator }
            else ofWord v kept c t

def read (v : Vocabulary) (kept : List Char) (r : Region) (t : List Char) : Lexeme :=
  match r with
  | .code => ofCode v kept t
  | .literal q => ofLiteral q t
  | .comment => ofComment t

/-- The lexemes of code that are no words, from their first character and the text behind it. None of them
depends on a vocabulary. -/
inductive Fixed : Char → List Char → Lexeme → Prop
  | literal {c t q} : Quote.ofChar? c = some q → Fixed c t ((ofLiteral q t).behind 1 (.literal q))
  | number {c t} : Lexis.Number.starts c t = true →
      Fixed c t { size := 1 + Lexis.Number.tailSize c t, style := some .number }
  | punct {c t p} : Punct.ofChar? c = some p → Fixed c t { size := 1, mark := some (.punct p) }
  | blockComment {t} : Fixed '/' ('*' :: t) ((ofComment t).behind 2 .comment)
  | lineComment {t} : Fixed '/' ('/' :: t) { size := 2 + t.length, style := some .comment }
  | operator {c t} : Lexis.isOperatorChar c = true →
      Fixed c t { size := 1 + Lexis.run Lexis.isOperatorChar t, style := some .operator }

theorem opensComment?_cases {t : List Char} {l : Lexeme} (h : opensComment? t = some l) :
    (∃ u, t = '/' :: '*' :: u ∧ l = (ofComment u).behind 2 .comment) ∨
      ∃ u, t = '/' :: '/' :: u ∧ l = { size := 2 + u.length, style := some .comment } := by
  unfold opensComment? at h
  split at h
  · exact .inl ⟨_, rfl, (Option.some.inj h).symm⟩
  · exact .inr ⟨_, rfl, (Option.some.inj h).symm⟩
  · cases h

theorem fixed_of_opensComment? {c : Char} {t : List Char} {l : Lexeme} (h : opensComment? (c :: t) = some l) :
    Fixed c t l := by
  rcases opensComment?_cases h with ⟨u, hcut, rfl⟩ | ⟨u, hcut, rfl⟩
  · cases hcut
    exact .blockComment
  · cases hcut
    exact .lineComment

/-- A lexeme of code is no word and the same in every vocabulary, or it is a word in every vocabulary. -/
theorem ofCode_cases (c : Char) (t : List Char) :
    (∃ l, Fixed c t l ∧ ∀ v kept, ofCode v kept (c :: t) = l) ∨
      ∀ v kept, ofCode v kept (c :: t) = ofWord v kept c t := by
  simp only [ofCode]
  split
  · rename_i q hq
    exact .inl ⟨_, .literal hq, fun _ _ => rfl⟩
  · split
    · rename_i hnumber
      exact .inl ⟨_, .number hnumber, fun _ _ => rfl⟩
    · split
      · rename_i p hp
        exact .inl ⟨_, .punct hp, fun _ _ => rfl⟩
      · split
        · rename_i l hl
          exact .inl ⟨l, fixed_of_opensComment? hl, fun _ _ => rfl⟩
        · split
          · rename_i hoperator
            exact .inl ⟨_, .operator hoperator, fun _ _ => rfl⟩
          · exact .inr fun _ _ => rfl

/-- No quote starts a number literal, so wherever one starts it is the lexeme. -/
theorem ofCode_of_starts {c : Char} {t : List Char} (h : Lexis.Number.starts c t = true) (v : Vocabulary)
    (kept : List Char) :
    ofCode v kept (c :: t) = { size := 1 + Lexis.Number.tailSize c t, style := some .number } := by
  have hquote : Quote.ofChar? c = none := by
    cases hq : Quote.ofChar? c with
    | none => rfl
    | some q =>
      rw [(Quote.ofChar?_eq_some_iff c q).mp hq] at h
      cases q <;> cases h
  simp only [ofCode, hquote, h, if_true]

theorem Fixed.size_pos {c : Char} {t : List Char} {l : Lexeme} (h : Fixed c t l) : 0 < l.size := by
  cases h <;> simp only [behind] <;> omega

theorem ofCode_size_pos (v : Vocabulary) (kept : List Char) (c : Char) (t : List Char) :
    0 < (ofCode v kept (c :: t)).size := by
  rcases ofCode_cases c t with ⟨l, hfixed, hl⟩ | hword
  · rw [hl]
    exact hfixed.size_pos
  · rw [hword]
    simp only [ofWord]
    omega

theorem Fixed.size_le {c : Char} {t : List Char} {l : Lexeme} (h : Fixed c t l) :
    l.size ≤ (c :: t).length := by
  cases h with
  | @literal c t q hq =>
    have hbody := Lexis.Literal.scan_fst_le q false t
    simp only [behind, ofLiteral, List.length_cons]
    omega
  | number hstarts =>
    have htail := Lexis.Number.tailSize_le c t
    simp only [List.length_cons]
    omega
  | punct hp => simp
  | @blockComment t =>
    have hbody := Lexis.Comment.size_le t
    simp only [behind, ofComment, List.length_cons]
    omega
  | lineComment =>
    simp only [List.length_cons]
    omega
  | operator hoperator =>
    have hrun := Lexis.run_le Lexis.isOperatorChar t
    simp only [List.length_cons]
    omega

theorem ofCode_size_le (v : Vocabulary) (c : Char) (t : List Char) :
    (ofCode v [] (c :: t)).size ≤ (c :: t).length := by
  rcases ofCode_cases c t with ⟨l, hfixed, hl⟩ | hword
  · rw [hl]
    exact hfixed.size_le
  · have hrun := Lexis.run_le Lexis.isNameChar t
    rw [hword]
    simp only [ofWord, List.length_cons]
    omega

/-- A lexeme of a text that is not empty takes at least one character of it. -/
theorem read_size_pos (v : Vocabulary) (kept : List Char) (r : Region) (c : Char) (t : List Char) :
    0 < (read v kept r (c :: t)).size := by
  cases r with
  | code => exact ofCode_size_pos v kept c t
  | literal q => exact Lexis.Literal.scan_fst_pos q false c t
  | comment => exact Lexis.Comment.size_pos c t

end Lexeme

end BraceMode
