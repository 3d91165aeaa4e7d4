/-! Punctuation characters. They are never coloured; brackets among them open and close frames. -/

namespace BraceMode

inductive Punct where
  | leftBrace
  | rightBrace
  | leftBracket
  | rightBracket
  | leftParen
  | rightParen
  | comma
  | semicolon
  | colon
  | dot
  deriving DecidableEq, Repr

namespace Punct

def ofChar? : Char → Option Punct
  | '{' => some .leftBrace
  | '}' => some .rightBrace
  | '[' => some .leftBracket
  | ']' => some .rightBracket
  | '(' => some .leftParen
  | ')' => some .rightParen
  | ',' => some .comma
  | ';' => some .semicolon
  | ':' => some .colon
  | '.' => some .dot
  | _ => none

def char : Punct → Char
  | .leftBrace => '{'
  | .rightBrace => '}'
  | .leftBracket => '['
  | .rightBracket => ']'
  | .leftParen => '('
  | .rightParen => ')'
  | .comma => ','
  | .semicolon => ';'
  | .colon => ':'
  | .dot => '.'

theorem ofChar?_char (p : Punct) : ofChar? p.char = some p := by cases p <;> rfl

theorem ofChar?_eq_some_iff (c : Char) (p : Punct) : ofChar? c = some p ↔ c = p.char := by
  constructor
  · intro h
    unfold ofChar? at h
    split at h <;> cases h <;> rfl
  · rintro rfl
    exact ofChar?_char p

end Punct

end BraceMode
