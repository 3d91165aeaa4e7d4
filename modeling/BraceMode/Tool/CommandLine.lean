import BraceMode.Lexis.CharClass
import BraceMode.Settings
import BraceMode.Toml.Scalar
import BraceMode.Tool.World

/-! The command line: options, a subcommand, its options and its arguments. Options common to all
subcommands may stand before and behind the subcommand, once each; the later one counts. An option that
waits for its value takes the next argument that does not look like an option, and a value given in an
argument of its own is looked at only when the next option comes or the level ends. -/

namespace BraceMode.Tool

inductive Subcommand where
  | tokens
  | indent
  | reindent
  | capabilities
  deriving DecidableEq, Repr

def Subcommand.name : Subcommand → String
  | .tokens => "tokens"
  | .indent => "indent"
  | .reindent => "reindent"
  | .capabilities => "capabilities"

def Subcommand.ofName? (s : String) : Option Subcommand :=
  [.tokens, .indent, .reindent, .capabilities].find? fun c => Subcommand.name c == s

/-- A subcommand with its arguments. -/
inductive Command where
  | tokens (files : List String)
  | indent (files : List String)
  | reindent (file : String) (check : Bool)
  | capabilities (chars : List Char)
  deriving DecidableEq, Repr

structure Options where
  verbose : Bool := false
  config : Option String := none
  indentUnit : Option Nat := none
  tabSize : Option Nat := none
  deriving DecidableEq, Repr

inductive Invocation where
  | version (sub : Option Subcommand)
  | run (options : Options) (command : Command)
  deriving DecidableEq, Repr

namespace CommandLine

/-- Why reading arguments stops early. -/
inductive Stop where
  | usage
  | version (sub : Option Subcommand)
  deriving DecidableEq, Repr

/-- Options with a value. -/
inductive Setting where
  | config
  | indentUnit
  | tabSize
  | char
  deriving DecidableEq, Repr

/-- Options without one. -/
inductive Flag where
  | verbose
  | noColor
  | check
  | version
  deriving DecidableEq, Repr

/-- An option whose value is missing, or not yet looked at. -/
inductive Pending where
  | nothing
  | awaiting (s : Setting)
  | holding (s : Setting) (value : String)

/-- What stands on one level: before the subcommand, or behind it. -/
structure Level where
  sub : Option Subcommand := none
  flags : List Flag := []
  config : Option String := none
  indentUnit : Option Nat := none
  tabSize : Option Nat := none
  chars : List Char := []
  files : List String := []
  pending : Pending := .nothing

/-- A width between 1 and the greatest one, in decimal digits behind an optional plus sign. -/
def width? (s : String) : Option Nat :=
  let digits := match s.toList with
    | '+' :: t => t
    | t => t
  let n := Toml.digitsValue 10 digits
  if digits ≠ [] ∧ digits.all Lexis.isDigit = true ∧ Settings.inRange n = true then some n else none

/-- Gives an option its value. All but `--char` may be given once. -/
def Level.set? (l : Level) (s : Setting) (value : String) : Option Level :=
  match s with
  | .config =>
    if l.config.isSome || value.isEmpty then none else some { l with config := some value }
  | .indentUnit =>
    if l.indentUnit.isSome then none else (width? value).map fun n => { l with indentUnit := some n }
  | .tabSize =>
    if l.tabSize.isSome then none else (width? value).map fun n => { l with tabSize := some n }
  | .char =>
    match value.toList with
    | [c] => some { l with chars := l.chars ++ [c] }
    | _ => none

def orUsage {α : Type} : Option α → Except Stop α
  | some a => .ok a
  | none => .error .usage

/-- Looks at the value that is held back. -/
def Level.resolve (l : Level) : Except Stop Level :=
  match l.pending with
  | .nothing => .ok l
  | .awaiting _ => .error .usage
  | .holding s value => orUsage ((l.set? s value).map fun l => { l with pending := .nothing })

def Level.setFlag (l : Level) (f : Flag) : Except Stop Level :=
  if f = .version then .error (.version l.sub)
  else if l.flags.contains f then .error .usage
  else .ok { l with flags := f :: l.flags }

/-- The option that a long name stands for on this level. -/
def Level.long? (l : Level) (name : String) : Option (Flag ⊕ Setting) :=
  match name with
  | "verbose" => some (.inl .verbose)
  | "no-color" => some (.inl .noColor)
  | "version" => some (.inl .version)
  | "config" => some (.inr .config)
  | "indent-unit" => some (.inr .indentUnit)
  | "tab-size" => some (.inr .tabSize)
  | "check" => if l.sub = some .reindent then some (.inl .check) else none
  | "char" => if l.sub = some .capabilities then some (.inr .char) else none
  | _ => none

/-- A long option, without its dashes; a value may follow an equals sign. -/
def Level.long (l : Level) (arg : List Char) : Except Stop Level := do
  let l ← l.resolve
  let name := String.ofList (arg.takeWhile (· != '='))
  match l.long? name, arg.dropWhile (· != '=') with
  | some (.inl f), [] => l.setFlag f
  | some (.inr s), [] => return { l with pending := .awaiting s }
  | some (.inr s), _ :: value => orUsage (l.set? s (String.ofList value))
  | _, _ => .error .usage

/-- Short options in one argument, without the dash. The last one may be followed by its value. -/
def Level.shorts (l : Level) : List Char → Except Stop Level
  | [] => .ok l
  | 'v' :: t => do (← l.setFlag .verbose).shorts t
  | 'V' :: t => do (← l.setFlag .version).shorts t
  | ['c'] => .ok { l with pending := .awaiting .config }
  | 'c' :: '=' :: value => orUsage (l.set? .config (String.ofList value))
  | 'c' :: value => orUsage (l.set? .config (String.ofList value))
  | _ => .error .usage

/-- An argument of the subcommand. -/
def Level.positional (l : Level) (arg : String) : Except Stop Level := do
  let l ← l.resolve
  let room := match l.sub with
    | some .tokens | some .indent => true
    | some .reindent => l.files.isEmpty
    | some .capabilities | none => false
  if room && !arg.isEmpty then return { l with files := l.files ++ [arg] } else .error .usage

/-- Where the subcommand starts, when `arg` names one and may do so. -/
def Level.subcommand? (l : Level) (arg : String) : Option Subcommand :=
  match l.sub, l.pending with
  | some _, _ => none
  | none, .awaiting _ => none
  | none, _ => Subcommand.ofName? arg

/-- Reads a level: everything, or everything before the subcommand. Behind `--` (`closed`) there are no
options. -/
def Level.read (l : Level) (closed : Bool) :
    List String → Except Stop (Level × Option (Subcommand × List String))
  | [] => return (l, none)
  | arg :: more =>
    if closed then do (← l.positional arg).read true more
    else
      match l.subcommand? arg with
      | some sub => return (l, some (sub, more))
      | none =>
        match arg.toList, l.pending with
        | ['-', '-'], _ => l.read true more
        | '-' :: '-' :: t, _ => do (← l.long t).read false more
        | '-' :: c :: t, _ => do (← (← l.resolve).shorts (c :: t)).read false more
        | _, .awaiting s => { l with pending := .holding s arg }.read false more
        | _, _ => do (← l.positional arg).read false more

/-- The names of the variables that stand in for options. -/
def verboseVariable : String := "CABT_VERBOSE"

def noColorVariable : String := "CABT_NO_COLOR"

def configVariable : String := "CABT_CONFIG"

def booleanText (s : String) : Bool := s == "true" || s == "false"

/-- A variable has to make sense on every level where its option is not given. -/
def Level.variablesFit (w : World) (l : Level) : Bool :=
  (l.flags.contains .verbose || (w.environment? verboseVariable).all booleanText) &&
    (l.flags.contains .noColor || (w.environment? noColorVariable).all booleanText) &&
    (l.config.isSome || (w.environment? configVariable).all (!·.isEmpty))

/-- Ends a level: the last value is looked at, then the variables. -/
def Level.finish (w : World) (l : Level) : Except Stop Level := do
  let l ← l.resolve
  if l.variablesFit w then return l else .error .usage

/-- The command that a level behind a subcommand asks for. -/
def Level.command? (l : Level) : Option Command :=
  match l.sub, l.files with
  | some .tokens, file :: files => some (.tokens (file :: files))
  | some .indent, file :: files => some (.indent (file :: files))
  | some .reindent, [file] => some (.reindent file (l.flags.contains .check))
  | some .capabilities, _ => some (.capabilities l.chars)
  | _, _ => none

/-- The options of both levels: the inner one counts, then the outer one, then the variable. -/
def combine (w : World) (outer inner : Level) : Options where
  verbose := outer.flags.contains .verbose || inner.flags.contains .verbose ||
    w.environment? verboseVariable == some "true"
  config := inner.config.or (outer.config.or (w.environment? configVariable))
  indentUnit := inner.indentUnit.or outer.indentUnit
  tabSize := inner.tabSize.or outer.tabSize

def read (w : World) (args : List String) : Except Stop Invocation := do
  match ← Level.read {} false args with
  | (_, none) => .error .usage
  | (outer, some (sub, more)) =>
    let (inner, _) ← Level.read { sub := some sub } false more
    let inner ← inner.finish w
    let command ← orUsage inner.command?
    let outer ← outer.finish w
    return .run (combine w outer inner) command

/-- What the arguments ask for; none when they make no sense. -/
def parse? (w : World) (args : List String) : Option Invocation :=
  match read w args with
  | .ok invocation => some invocation
  | .error (.version sub) => some (.version sub)
  | .error .usage => none

end CommandLine

end BraceMode.Tool
