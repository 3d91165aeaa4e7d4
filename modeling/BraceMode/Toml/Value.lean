import BraceMode.Toml.Moment
import BraceMode.Toml.Number

/-! Values of a settings file. A table remembers how it came about, because that decides whether it may
still grow. -/

namespace BraceMode.Toml

/-- `inline` tables are closed; `implicit` ones were passed through by a header; `header` ones have had
their header; `dotted` ones were made by a dotted key. -/
inductive Origin where
  | inline
  | implicit
  | header
  | dotted
  deriving DecidableEq, Repr

inductive Value where
  | string (s : String)
  | integer (n : Int)
  | decimal (d : Decimal)
  | boolean (b : Bool)
  | moment (m : Moment)
  | array (items : List Value)
  | table (origin : Origin) (entries : List (String × Value))
  deriving Repr

/-- The entries of a table in the order in which they were added. -/
abbrev Entries := List (String × Value)

namespace Entries

/-- Puts a value in place of the one under `key`. -/
def replace (es : Entries) (key : String) (v : Value) : Entries :=
  es.map fun e => if e.1 = key then (key, v) else e

/-- Adds an entry; none when the key is taken. -/
def add? (es : Entries) (key : String) (v : Value) : Option Entries :=
  match es.lookup key with
  | some _ => none
  | none => some (es ++ [(key, v)])

/-- Assigns to a dotted key. Only a table that dotted keys made may be extended by one. -/
def assign? (es : Entries) (path : List String) (key : String) (v : Value) : Option Entries :=
  match path with
  | [] => es.add? key v
  | p :: ps =>
    match es.lookup p with
    | none => do es.add? p (.table .dotted (← assign? [] ps key v))
    | some (.table .dotted sub) => do return es.replace p (.table .dotted (← assign? sub ps key v))
    | some _ => none

/-- Opens a table by its header. A table has one header, and none after any other definition. -/
def openTable? (es : Entries) : List String → Option Entries
  | [] => none
  | [key] =>
    match es.lookup key with
    | none => es.add? key (.table .header [])
    | some (.table .implicit sub) => some (es.replace key (.table .header sub))
    | some _ => none
  | p :: ps =>
    match es.lookup p with
    | none => do es.add? p (.table .implicit (← openTable? [] ps))
    | some (.table .inline _) => none
    | some (.table origin sub) => do return es.replace p (.table origin (← openTable? sub ps))
    | some _ => none

/-- Changes the entries of the table at `path`, which must be there. -/
def modify? (f : Entries → Option Entries) (es : Entries) : List String → Option Entries
  | [] => f es
  | p :: ps =>
    match es.lookup p with
    | some (.table origin sub) => do return es.replace p (.table origin (← modify? f sub ps))
    | _ => none

end Entries

end BraceMode.Toml
