import BraceMode.Lexis.CharClass

/-! Strings and keys of a settings file. A reader takes what stands at the beginning of a text and returns
it with the rest, or refuses. -/

namespace BraceMode.Toml

abbrev Reader (α : Type) := List Char → Option (α × List Char)

/-- Blanks within a line. -/
def isSpace (c : Char) : Bool := c == ' ' || c == '\t'

def skipSpace (t : List Char) : List Char := t.dropWhile isSpace

/-- Characters that may stand for themselves in comments and strings: no control but the tab. -/
def isPlain (c : Char) : Bool := c == '\t' || (decide (0x20 ≤ c.toNat) && c.toNat != 0x7F)

/-- The line end at the beginning of a text; a carriage return counts only with its line feed. -/
def newline? : List Char → Option (List Char)
  | '\n' :: t => some t
  | '\r' :: '\n' :: t => some t
  | _ => none

def skipComment : List Char → List Char
  | '#' :: t => t.dropWhile isPlain
  | t => t

/-- Skips blanks, line ends and comments, as an array may hold them. `comment` says that the text starts
inside a comment. -/
def skipTrivia : (comment : Bool) → List Char → List Char
  | _, [] => []
  | _, '\n' :: t => skipTrivia false t
  | _, '\r' :: '\n' :: t => skipTrivia false t
  | comment, c :: t =>
    if comment then (if isPlain c then skipTrivia true t else c :: t)
    else if c = '#' then skipTrivia true t
    else if isSpace c then skipTrivia false t
    else c :: t

/-! Strings -/

def hexValue (c : Char) : Nat :=
  if Lexis.isDigit c then c.toNat - 0x30
  else if c.toNat ≤ 0x46 then c.toNat - 0x37
  else c.toNat - 0x57

/-- The number that digits of the given base write. -/
def digitsValue (base : Nat) (digits : List Char) : Nat :=
  digits.foldl (fun n c => n * base + hexValue c) 0

/-- The character with the code point that the digits write. -/
def codePoint? (digits : List Char) : Option Char :=
  let n := digitsValue 16 digits
  if digits.all Lexis.isHexDigit = true ∧ n.isValidChar then some (Char.ofNat n) else none

def shortEscape? : Char → Option Char
  | 'b' => some '\x08'
  | 't' => some '\t'
  | 'n' => some '\n'
  | 'f' => some '\x0C'
  | 'r' => some '\r'
  | '\x22' => some '\x22'
  | '\\' => some '\\'
  | _ => none

/-- The character that an escape stands for, after its backslash. -/
def escape? : Reader Char
  | 'u' :: a :: b :: c :: d :: t => (codePoint? [a, b, c, d]).map (·, t)
  | 'U' :: a :: b :: c :: d :: e :: f :: g :: h :: t => (codePoint? [a, b, c, d, e, f, g, h]).map (·, t)
  | c :: t => (shortEscape? c).map (·, t)
  | [] => none

/-- Puts a character in front of what a reader found. -/
def consRead (c : Char) (r : Option (List Char × List Char)) : Option (List Char × List Char) :=
  r.map fun (s, rest) => (c :: s, rest)

/-- The body of a string in double quotes, after the opening one. -/
def basicBody : (fuel : Nat) → Reader (List Char)
  | 0, _ => none
  | _, [] => none
  | fuel + 1, c :: t =>
    if c = '\x22' then some ([], t)
    else if c = '\\' then do
      let (x, rest) ← escape? t
      consRead x (basicBody fuel rest)
    else if isPlain c then consRead c (basicBody fuel t)
    else none

/-- The body of a string in single quotes, after the opening one. -/
def literalBody : Reader (List Char)
  | [] => none
  | c :: t =>
    if c = '\x27' then some ([], t)
    else if isPlain c then consRead c (literalBody t)
    else none

/-- The quotes at the beginning of a text that end a string of several lines: three, with up to two more
that belong to the string. -/
def closingQuotes? (q : Char) (t : List Char) : Option (List Char × List Char) :=
  let n := min 5 (Lexis.run (· == q) t)
  if 3 ≤ n then some (List.replicate (n - 3) q, t.drop n) else none

/-- Skips blanks and line ends. -/
def skipBlankLines : List Char → List Char
  | '\n' :: t => skipBlankLines t
  | '\r' :: '\n' :: t => skipBlankLines t
  | c :: t => if isSpace c then skipBlankLines t else c :: t
  | [] => []

/-- The rest behind a backslash that ends its line, with all blanks and line ends after it skipped. -/
def lineContinuation? (t : List Char) : Option (List Char) :=
  (newline? (skipSpace t)).map skipBlankLines

/-- The body of a string of several lines, after the opening quotes. Only double quotes know escapes. -/
def multilineBody (q : Char) : (fuel : Nat) → Reader (List Char)
  | 0, _ => none
  | _, [] => none
  | fuel + 1, c :: t =>
    match closingQuotes? q (c :: t) with
    | some found => some found
    | none =>
      match newline? (c :: t) with
      | some rest => consRead '\n' (multilineBody q fuel rest)
      | none =>
        if c = '\\' ∧ q = '\x22' then
          match lineContinuation? t with
          | some rest => multilineBody q fuel rest
          | none => do
            let (x, rest) ← escape? t
            consRead x (multilineBody q fuel rest)
        else if isPlain c then consRead c (multilineBody q fuel t)
        else none

/-- A line end directly behind the opening quotes does not count. -/
def multiline (q : Char) (t : List Char) : Option (List Char × List Char) :=
  multilineBody q (t.length + 1) ((newline? t).getD t)

/-- A string of one line. -/
def shortString? : Reader (List Char)
  | '\x22' :: t => basicBody (t.length + 1) t
  | '\x27' :: t => literalBody t
  | _ => none

/-- A string of any of the four forms. -/
def string? : Reader (List Char)
  | '\x22' :: '\x22' :: '\x22' :: t => multiline '\x22' t
  | '\x27' :: '\x27' :: '\x27' :: t => multiline '\x27' t
  | t => shortString? t

/-! Keys -/

def isBareKeyChar (c : Char) : Bool := c.isAlphanum || c == '-' || c == '_'

/-- One part of a key: bare or quoted. -/
def simpleKey? (t : List Char) : Option (String × List Char) :=
  match shortString? t with
  | some (s, rest) => some (String.ofList s, rest)
  | none =>
    match t.takeWhile isBareKeyChar with
    | [] => none
    | bare => some (String.ofList bare, t.dropWhile isBareKeyChar)

/-- How deep arrays and inline tables may stand in one another, and how many parts a key may have. -/
def maxNesting : Nat := 79

/-- The parts of a dotted key, at most `room` of them, with blanks around the points and behind the last
part. -/
def keyParts? : (room : Nat) → Reader (List String)
  | 0, _ => none
  | room + 1, t => do
    let (part, rest) ← simpleKey? t
    match skipSpace rest with
    | '.' :: more =>
      let (parts, rest) ← keyParts? room (skipSpace more)
      return (part :: parts, rest)
    | rest => return ([part], rest)

def key? : Reader (List String) := keyParts? maxNesting

end BraceMode.Toml
