import BraceMode.Tool.Program

/-! What scripts leave behind on a writer that takes everything. Two scripts one after the other leave what
the first leaves and then what the second leaves, unless the first fails, which ends both. With this rule
the outcome of a command is read off the outcomes of its parts. -/

namespace BraceMode.Tool

namespace Outcome

variable {α β : Type}

def after (out : List UInt8) (log : List LogEvent) (o : Outcome α) : Outcome α :=
  ⟨out ++ o.out, log ++ o.log, o.result⟩

def andThen (o : Outcome α) (k : α → Outcome β) : Outcome β :=
  match o.result with
  | .ok a => (k a).after o.out o.log
  | .error f => ⟨o.out, o.log, .error f⟩

theorem andThen_after (out : List UInt8) (log : List LogEvent) (o : Outcome α) (k : α → Outcome β) :
    (o.after out log).andThen k = (o.andThen k).after out log := by
  obtain ⟨out', log', result⟩ := o
  cases result with
  | ok a => simp [andThen, after]
  | error f => rfl

@[simp] theorem andThen_ok (out : List UInt8) (log : List LogEvent) (a : α) (k : α → Outcome β) :
    andThen ⟨out, log, .ok a⟩ k = (k a).after out log := rfl

@[simp] theorem after_mk (out out' : List UInt8) (log log' : List LogEvent) (result : Except Failure α) :
    after out log ⟨out', log', result⟩ = ⟨out ++ out', log ++ log', result⟩ := rfl

@[simp] theorem result_after (out : List UInt8) (log : List LogEvent) (o : Outcome α) :
    (o.after out log).result = o.result := rfl

end Outcome

namespace Script

variable {α β : Type}

/-- What a script leaves behind when all its output is taken. -/
def outcome (s : Script α) : Outcome α := s.run .unlimited ()

@[simp] theorem outcome_done (a : α) : (Script.done a).outcome = ⟨[], [], .ok a⟩ := rfl

@[simp] theorem outcome_fail (f : Failure) : (Script.fail f : Script α).outcome = ⟨[], [], .error f⟩ := rfl

@[simp] theorem outcome_write (text : List Char) (next : Script α) :
    (Script.write text next).outcome = next.outcome.after (Text.encode text) [] := rfl

@[simp] theorem outcome_flush (next : Script α) : (Script.flush next).outcome = next.outcome := rfl

@[simp] theorem outcome_log (e : LogEvent) (next : Script α) :
    (Script.log e next).outcome = next.outcome.after [] [e] := rfl

theorem outcome_bind (s : Script α) (k : α → Script β) :
    (s >>= k).outcome = s.outcome.andThen fun a => (k a).outcome := by
  change (s.bind k).outcome = _
  induction s with
  | done a => rfl
  | fail f => rfl
  | write text next ih => rw [bind, outcome_write, outcome_write, ih, Outcome.andThen_after]
  | flush next ih => exact ih
  | log e next ih => rw [bind, outcome_log, outcome_log, ih, Outcome.andThen_after]

theorem outcome_puts (text : List Char) : (puts text).outcome = ⟨Text.encode text, [], .ok ()⟩ := by
  simp [puts]

theorem outcome_noteIf (verbose : Bool) (e : LogEvent) :
    (noteIf verbose e).outcome = ⟨[], if verbose then [e] else [], .ok ()⟩ := by
  cases verbose <;> rfl

/-- Lines written one after the other. -/
theorem outcome_forM_puts {γ : Type} (line : γ → List Char) (xs : List γ) :
    (xs.forM fun x => puts (line x)).outcome = ⟨Text.encode (xs.flatMap line), [], .ok ()⟩ := by
  induction xs with
  | nil => rfl
  | cons x xs ih =>
    have hcons : ((x :: xs).forM fun x => puts (line x)) =
        puts (line x) >>= fun _ => xs.forM fun x => puts (line x) := rfl
    rw [hcons, outcome_bind, outcome_puts, Outcome.andThen_ok, ih, Outcome.after_mk, List.flatMap_cons,
      Text.encode_append, List.nil_append]

end Script

/-- Reading a file that holds a text. -/
theorem readSource_of_decode? {w : World} {file : String} {bytes : List UInt8} {source : List Char}
    (hfile : w.find? file = some (.file bytes)) (hsource : Text.decode? bytes = some source) :
    readSource w file = .log (.readingSource file) (.done source) := by
  simp only [readSource, hfile, Script.note, hsource]
  rfl

/-- The outcome of re-indenting a file that holds a text. Whether it checks or writes shows only in the
output. -/
theorem outcome_reindentCommand (m : Mode) {w : World} (verbose check : Bool) {file : String}
    {bytes : List UInt8} {source : List Char} (hfile : w.find? file = some (.file bytes))
    (hsource : Text.decode? bytes = some source) :
    let changed := changedLines source (m.reindent source)
    (reindentCommand m w verbose check file).outcome =
      ⟨Text.encode (if check then changed.flatMap (changeLine file) else m.reindent source),
        .readingSource file :: if verbose then [.reindented file changed.length] else [],
        .ok changed.length⟩ := by
  intro changed
  have hfinish : (do
      Script.noteIf verbose (.reindented file changed.length)
      return changed.length : Script Nat).outcome =
      ⟨[], if verbose then [.reindented file changed.length] else [], .ok changed.length⟩ := by
    rw [Script.outcome_bind, Script.outcome_noteIf, Outcome.andThen_ok]
    simp [pure]
  rw [reindentCommand, readSource_of_decode? hfile hsource, Script.outcome_bind]
  simp only [Script.outcome_log, Script.outcome_done, Outcome.after_mk, List.append_nil,
    Outcome.andThen_ok]
  cases check with
  | true =>
    simp only [if_true]
    rw [Script.outcome_bind, writeChanges, Script.outcome_forM_puts, Outcome.andThen_ok, hfinish,
      Outcome.after_mk, Outcome.after_mk, List.append_nil]
    rfl
  | false =>
    simp only [Bool.false_eq_true, if_false]
    rw [Script.outcome_bind, Script.outcome_puts, Outcome.andThen_ok, hfinish, Outcome.after_mk,
      Outcome.after_mk, List.append_nil]
    rfl

/-- The whole command fails exactly when it checks and something changes. -/
theorem result_script_reindent (m : Mode) {w : World} (verbose check : Bool) {file : String}
    {bytes : List UInt8} {source : List Char} (hfile : w.find? file = some (.file bytes))
    (hsource : Text.decode? bytes = some source) :
    let changed := (changedLines source (m.reindent source)).length
    ((Command.reindent file check).script m w verbose).outcome.result =
      if check = true ∧ 0 < changed then .error (.checkFailed changed) else .ok () := by
  intro changed
  rw [Command.script, Script.outcome_bind, outcome_reindentCommand m verbose check hfile hsource,
    Outcome.andThen_ok, Script.outcome_bind, Script.outcome_flush, Script.outcome_done,
    Outcome.andThen_ok]
  simp only [Outcome.result_after, Bool.and_eq_true, decide_eq_true_eq, changed]
  split
  · rw [Script.outcome_fail]
  · rfl

def isMisplacedPair (m : Mode) (p : HighlightedLine × List Char) : Bool :=
  isMisplaced (Text.indentation m.tabSize p.2) p.1.indent p.2

def indentReport (m : Mode) (number : Nat) (ps : List (HighlightedLine × List Char)) : List Char :=
  (ps.zipIdx number).flatMap fun q =>
    indentLine q.2 (Text.indentation m.tabSize q.1.2) q.1.1.indent q.1.2

theorem outcome_writeIndentLines (m : Mode) (number : Nat) (ps : List (HighlightedLine × List Char)) :
    (writeIndentLines m number ps).outcome =
      ⟨Text.encode (indentReport m number ps), [], .ok (ps.countP (isMisplacedPair m))⟩ := by
  induction ps generalizing number with
  | nil => rfl
  | cons p ps ih =>
    obtain ⟨l, t⟩ := p
    rw [writeIndentLines, Script.outcome_bind, Script.outcome_puts, Outcome.andThen_ok, Script.outcome_bind,
      ih, Outcome.andThen_ok]
    simp only [pure, Script.outcome_done, Outcome.after_mk, List.append_nil, indentReport,
      List.zipIdx_cons, List.flatMap_cons, Text.encode_append, List.countP_cons, isMisplacedPair]
    rw [Nat.add_comm (List.countP _ _)]
    rfl

/-- The report on one file stands alone, without a header. -/
theorem reportFiles_singleton (w : World) (file : String) (report : String → List Char → Script Nat) :
    reportFiles w [file] report = readSource w file >>= report file := by
  have hcount (s : Script Nat) : (s >>= fun count => pure (0 + count)) = s := by
    simp only [Nat.zero_add]
    exact s.bind_done
  simp only [reportFiles, List.isEmpty_cons, Bool.false_eq_true, if_false, List.length_singleton,
    Nat.lt_irrefl, List.foldlM_cons, List.foldlM_nil]
  change (readSource w file >>= fun source => report file source >>= fun count => pure (0 + count)) >>=
    Script.done = _
  rw [Script.bind_done]
  simp only [hcount]

/-- The outcome of checking the indentation of one file that holds a text. -/
theorem outcome_indentCommand (m : Mode) {w : World} (verbose : Bool) {file : String}
    {bytes : List UInt8} {source : List Char} (hfile : w.find? file = some (.file bytes))
    (hsource : Text.decode? bytes = some source) :
    let lines := (m.highlight source).zip (Text.lines source)
    let count := lines.countP (isMisplacedPair m)
    (indentCommand m w verbose [file]).outcome =
      ⟨Text.encode (indentReport m 1 lines),
        .readingSource file :: if verbose then [.checkedIndentation file count] else [],
        .ok count⟩ := by
  intro lines count
  have hreport : (do
      let count ← writeIndentLines m 1 lines
      Script.noteIf verbose (.checkedIndentation file count)
      return count : Script Nat).outcome =
      ⟨Text.encode (indentReport m 1 lines),
        if verbose then [.checkedIndentation file count] else [], .ok count⟩ := by
    rw [Script.outcome_bind, outcome_writeIndentLines, Outcome.andThen_ok, Script.outcome_bind,
      Script.outcome_noteIf, Outcome.andThen_ok]
    simp [pure, count]
  rw [indentCommand, reportFiles_singleton, readSource_of_decode? hfile hsource, Script.outcome_bind]
  simp only [Script.outcome_log, Script.outcome_done, Outcome.after_mk, List.append_nil,
    Outcome.andThen_ok]
  rw [hreport, Outcome.after_mk]
  rfl

end BraceMode.Tool
