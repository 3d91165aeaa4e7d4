/-! Settings of a mode: two widths and extra words. Both widths lie between 1 and `maxWidth`; of two bad
widths the indent unit is the one reported. -/

namespace BraceMode

def maxWidth : Nat := 64

structure Settings where
  indentUnit : Nat := 2
  tabSize : Nat := 4
  extraKeywords : List String := []
  extraAtoms : List String := []
  deriving DecidableEq, Repr

namespace Settings

/-- The settings that have a range. -/
inductive Width where
  | indentUnit
  | tabSize
  deriving DecidableEq, Repr

def Width.name : Width → String
  | .indentUnit => "indent_unit"
  | .tabSize => "tab_size"

/-- A width and the value it must not have. -/
structure OutOfRange where
  field : Width
  value : Nat
  deriving DecidableEq, Repr

def OutOfRange.message (e : OutOfRange) : String :=
  "Invalid mode configuration: " ++ e.field.name ++ " must be between 1 and " ++ toString maxWidth ++
    ", got " ++ toString e.value

/-- Whether a width is within range. -/
def inRange (n : Nat) : Bool := decide (1 ≤ n) && decide (n ≤ maxWidth)

/-- The first width that is out of range. -/
def fault? (s : Settings) : Option OutOfRange :=
  if inRange s.indentUnit = false then some ⟨.indentUnit, s.indentUnit⟩
  else if inRange s.tabSize = false then some ⟨.tabSize, s.tabSize⟩
  else none

def check (s : Settings) : Except OutOfRange Settings :=
  match s.fault? with
  | some e => .error e
  | none => .ok s

theorem fault?_eq_none_iff (s : Settings) :
    s.fault? = none ↔ inRange s.indentUnit = true ∧ inRange s.tabSize = true := by
  unfold fault?
  split
  · simp_all
  · split <;> simp_all

end Settings

end BraceMode
