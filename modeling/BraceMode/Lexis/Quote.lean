/-! The three marks that open a string literal. Double and single quotes know escapes and end with their
line; a back-tick knows none and runs over lines until it is closed. -/

namespace BraceMode

inductive Quote where
  | double
  | single
  | backtick
  deriving DecidableEq, Repr

namespace Quote

def char : Quote → Char
  | .double => '\x22'
  | .single => '\x27'
  | .backtick => '\x60'

def ofChar? (c : Char) : Option Quote :=
  if c = Quote.double.char then some .double
  else if c = Quote.single.char then some .single
  else if c = Quote.backtick.char then some .backtick
  else none

/-- Whether a backslash takes the next character into the literal. -/
def hasEscapes : Quote → Bool
  | .backtick => false
  | _ => true

/-- Whether a literal left open goes on in the next line. -/
def spansLines : Quote → Bool
  | .backtick => true
  | _ => false

def name : Quote → String
  | .double => "Double"
  | .single => "Single"
  | .backtick => "Backtick"

theorem ofChar?_char (q : Quote) : ofChar? q.char = some q := by cases q <;> decide

theorem ofChar?_eq_some_iff (c : Char) (q : Quote) : ofChar? c = some q ↔ c = q.char := by
  constructor
  · intro h
    unfold ofChar? at h
    split at h
    · cases h; assumption
    · split at h
      · cases h; assumption
      · split at h
        · cases h; assumption
        · cases h
  · rintro rfl
    exact ofChar?_char q

end Quote

end BraceMode
