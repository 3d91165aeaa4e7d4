import BraceMode.Toml.Value

/-! A settings file: assignments and table headers, one to a line. Fuel is the length of the text, and every
round of a reader takes at least one character, so it never runs short. -/

namespace BraceMode.Toml

/-- The last part of a key and the path before it. -/
def splitKey? (parts : List String) : Option (List String × String) :=
  parts.getLast?.map fun last => (parts.dropLast, last)

/-- The key of an assignment and what follows the equals sign. -/
def assignee? (t : List Char) : Option ((List String × String) × List Char) := do
  let (parts, rest) ← key? t
  let key ← splitKey? parts
  match rest with
  | '=' :: rest => return (key, skipSpace rest)
  | _ => none

/-- A truth value or a number. -/
def ofWord? (word : List Char) : Option Value :=
  if word = "true".toList then some (.boolean true)
  else if word = "false".toList then some (.boolean false)
  else (integer? word).map .integer <|> (decimal? word).map .decimal

/-- A value without quotes or brackets. -/
def unquoted? (t : List Char) : Option (Value × List Char) :=
  match moment? t with
  | some (m, rest) => some (.moment m, rest)
  | none => (ofWord? (t.takeWhile isScalarChar)).map fun v => (v, t.dropWhile isScalarChar)

mutual

/-- A value; `room` more arrays and inline tables may stand in one another. -/
def value? : (fuel room : Nat) → Reader Value
  | 0, _, _ => none
  | fuel + 1, room, t =>
    match t, room with
    | '[' :: _, 0 | '{' :: _, 0 => none
    | '[' :: t, room + 1 =>
      (items? fuel room (skipTrivia false t)).map fun (vs, rest) => (.array vs, rest)
    | '{' :: t, room + 1 =>
      match skipSpace t with
      | '}' :: rest => some (.table .inline [], rest)
      | t => (entries? fuel room [] t).map fun (es, rest) => (.table .inline es, rest)
    | '\x22' :: _, _ | '\x27' :: _, _ =>
      (string? t).map fun (s, rest) => (.string (String.ofList s), rest)
    | t, _ => unquoted? t

/-- The items of an array up to its closing bracket; a comma may follow the last one. -/
def items? : (fuel room : Nat) → Reader (List Value)
  | 0, _, _ => none
  | _, _, ']' :: rest => some ([], rest)
  | fuel + 1, room, t => do
    let (v, rest) ← value? fuel room t
    match skipTrivia false rest with
    | ',' :: more =>
      let (vs, rest) ← items? fuel room (skipTrivia false more)
      return (v :: vs, rest)
    | ']' :: rest => return ([v], rest)
    | _ => none

/-- The assignments of an inline table up to its closing brace, added to `es`. -/
def entries? : (fuel room : Nat) → Entries → Reader Entries
  | 0, _, _, _ => none
  | fuel + 1, room, es, t => do
    let ((path, key), rest) ← assignee? t
    let (v, rest) ← value? fuel room rest
    let es ← es.assign? path key v
    match skipSpace rest with
    | ',' :: more => entries? fuel room es (skipSpace more)
    | '}' :: rest => return (es, rest)
    | _ => none

end

/-- What is left behind the end of a line that holds nothing more than a comment. -/
def endOfLine? (t : List Char) : Option (List Char) :=
  match skipComment (skipSpace t) with
  | [] => some []
  | rest => newline? rest

/-- A file being read: its entries and the table that assignments go to. -/
structure Draft where
  entries : Entries := []
  current : List String := []

/-- One line that is neither blank nor a comment. -/
def statement? (d : Draft) (t : List Char) : Option (Draft × List Char) :=
  match t with
  | '[' :: t => do
    let (path, rest) ← key? (skipSpace t)
    match rest with
    | ']' :: rest => return ({ entries := ← d.entries.openTable? path, current := path }, rest)
    | _ => none
  | t => do
    let ((path, key), rest) ← assignee? t
    let (v, rest) ← value? (rest.length + 1) maxNesting rest
    let entries ← d.entries.modify? (fun es => Entries.assign? es path key v) d.current
    return ({ d with entries }, rest)

def lines? : (fuel : Nat) → Draft → List Char → Option Entries
  | 0, _, _ => none
  | fuel + 1, d, t =>
    match skipSpace t with
    | [] => some d.entries
    | c :: t =>
      match endOfLine? (c :: t) with
      | some rest => lines? fuel d rest
      | none => do
        let (d, rest) ← statement? d (c :: t)
        lines? fuel d (← endOfLine? rest)

/-- The entries of a settings file; none when it is malformed. A byte order mark may lead it. -/
def parse? (t : List Char) : Option Entries :=
  let t := if t.head? = some '\uFEFF' then t.drop 1 else t
  lines? (t.length + 1) {} t

end BraceMode.Toml
