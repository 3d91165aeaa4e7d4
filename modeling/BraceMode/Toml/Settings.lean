import BraceMode.Settings
import BraceMode.Toml.Document

/-! Settings as text. Every key is known, every value has the type its key asks for, and only then are the
widths checked. Written settings read back as the same settings. -/

namespace BraceMode

open Toml (Value Entries)

namespace Toml.Value

/-- An integer that a width may hold. -/
def toWidth? : Value → Option Nat
  | .integer n => if 0 ≤ n ∧ n < 0x100000000 then some n.toNat else none
  | _ => none

def toBoolean? : Value → Option Bool
  | .boolean b => some b
  | _ => none

def toString? : Value → Option String
  | .string s => some s
  | _ => none

def toWords? : Value → Option (List String)
  | .array items => items.mapM toString?
  | _ => none

end Toml.Value

namespace Settings

/-- Why a text gives no settings. -/
inductive Error where
  | malformed
  | outOfRange (e : OutOfRange)
  deriving DecidableEq, Repr

/-- The settings with one of them read from a value. -/
def set? (s : Settings) (key : String) (v : Value) : Option Settings :=
  match key with
  | "indent_unit" => v.toWidth?.map fun n => { s with indentUnit := n }
  | "tab_size" => v.toWidth?.map fun n => { s with tabSize := n }
  | "extra_keywords" => v.toWords?.map fun ws => { s with extraKeywords := ws }
  | "extra_atoms" => v.toWords?.map fun ws => { s with extraAtoms := ws }
  | _ => none

/-- The keys in the order in which a list of values gives them. -/
def keys : List String := ["indent_unit", "tab_size", "extra_keywords", "extra_atoms"]

def ofEntries? (es : Entries) : Option Settings :=
  es.foldlM (fun s e => s.set? e.1 e.2) {}

/-- Settings as a table, or as a list of values for the keys in order. -/
def ofValue? : Value → Option Settings
  | .table _ es => ofEntries? es
  | .array items => ofEntries? (keys.zip items)
  | _ => none

/-- Reads settings and checks them; a malformed text is reported before a bad width. -/
def parse (t : List Char) : Except Error Settings :=
  match Toml.parse? t >>= ofEntries? with
  | none => .error .malformed
  | some s => s.check.mapError .outOfRange

/-- A character inside a written string. -/
def writeChar (c : Char) : List Char :=
  if c = '\x22' ∨ c = '\\' then ['\\', c]
  else if Toml.isPlain c then [c]
  else '\\' :: 'u' :: (List.replicate 4 '0' ++ Nat.toDigits 16 c.toNat).drop
    (Nat.toDigits 16 c.toNat).length

def writeWords (ws : List String) : String :=
  let one (w : String) := "\"" ++ String.ofList (w.toList.flatMap writeChar) ++ "\""
  "[" ++ String.intercalate ", " (ws.map one) ++ "]"

/-- The text of a settings file, every setting written out. -/
def write (s : Settings) : String :=
  "indent_unit = " ++ toString s.indentUnit ++ "\ntab_size = " ++ toString s.tabSize ++
    "\nextra_keywords = " ++ writeWords s.extraKeywords ++
    "\nextra_atoms = " ++ writeWords s.extraAtoms ++ "\n"

end Settings

end BraceMode
