import BraceMode.Text.Utf8
import BraceMode.Tool.Failure
import BraceMode.Tool.LogEvent

/-! Scripts: what a command does, as data. A script writes, logs and ends; a writer decides how much of the
output it takes. A writer that refuses ends the run there and then, so nothing behind the refused write
can happen. -/

namespace BraceMode.Tool

inductive Script (α : Type) where
  | done (a : α)
  | fail (f : Failure)
  | write (text : List Char) (next : Script α)
  | flush (next : Script α)
  | log (e : LogEvent) (next : Script α)

namespace Script

variable {α β : Type}

def bind : Script α → (α → Script β) → Script β
  | .done a, k => k a
  | .fail f, _ => .fail f
  | .write text next, k => .write text (next.bind k)
  | .flush next, k => .flush (next.bind k)
  | .log e next, k => .log e (next.bind k)

instance : Monad Script where
  pure := .done
  bind := bind

@[simp] theorem done_bind (a : α) (k : α → Script β) : Script.done a >>= k = k a := rfl

theorem bind_done (s : Script α) : s >>= Script.done = s := by
  change s.bind Script.done = s
  induction s with
  | done a => rfl
  | fail f => rfl
  | write text next ih => rw [bind, ih]
  | flush next ih => rw [bind, ih]
  | log e next ih => rw [bind, ih]

theorem bind_assoc {γ : Type} (s : Script α) (k : α → Script β) (j : β → Script γ) :
    s >>= k >>= j = s >>= fun a => k a >>= j := by
  change (s.bind k).bind j = s.bind fun a => (k a).bind j
  induction s with
  | done a => rfl
  | fail f => rfl
  | write text next ih => rw [bind, bind, bind, ih]
  | flush next ih => rw [bind, bind, bind, ih]
  | log e next ih => rw [bind, bind, bind, ih]

def puts (text : List Char) : Script Unit := .write text (.done ())

def note (e : LogEvent) : Script Unit := .log e (.done ())

/-- Logs the event of a verbose run. -/
def noteIf (verbose : Bool) (e : LogEvent) : Script Unit := if verbose then note e else .done ()

def ofExcept : Except Failure α → Script α
  | .ok a => .done a
  | .error f => .fail f

end Script

/-- How output is taken. `write` returns the bytes that reach the output and the next state, or no state
when it fails; `flush` says whether everything held back can be delivered. -/
structure Writer (σ : Type) where
  write : σ → List UInt8 → List UInt8 × Option σ
  flush : σ → Bool

namespace Writer

def unlimited : Writer Unit where
  write _ bytes := (bytes, some ())
  flush _ := true

/-- Takes as many bytes as its state says and then fails. -/
def limited : Writer Nat where
  write room bytes :=
    if bytes.length ≤ room then (bytes, some (room - bytes.length)) else (bytes.take room, none)
  flush _ := true

/-- The bytes that a full device lets pile up before it has to take them. -/
def lineBuffer : Nat := 1024

/-- A full device behind a line buffer: what ends a line or fills the buffer fails at once, and anything
else fails when it is flushed. The state counts the bytes held back. -/
def full : Writer Nat where
  write held bytes :=
    if bytes.contains 0x0A ∨ lineBuffer ≤ held + bytes.length then ([], none)
    else ([], some (held + bytes.length))
  flush held := held == 0

end Writer

/-- What a run leaves behind. -/
structure Outcome (α : Type) where
  out : List UInt8 := []
  log : List LogEvent := []
  result : Except Failure α

namespace Script

variable {α σ : Type}

/-- Runs a script into a writer. -/
def run (w : Writer σ) (s : σ) : Script α → Outcome α
  | .done a => { result := .ok a }
  | .fail f => { result := .error f }
  | .write text next =>
    match w.write s (Text.encode text) with
    | (taken, some s) =>
      let rest := next.run w s
      { rest with out := taken ++ rest.out }
    | (taken, none) => { out := taken, result := .error .io }
  | .flush next => if w.flush s then next.run w s else { result := .error .io }
  | .log e next =>
    let rest := next.run w s
    { rest with log := e :: rest.log }

end Script

end BraceMode.Tool
