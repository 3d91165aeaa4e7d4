import BraceMode.Proofs.Outcomes

/-! Writers that run out of room. A writer that takes a number of bytes and then fails cuts the output there
and ends the run, and what came before is what it would have been. This holds of every script, by induction on
the script. That no file is read behind the one that is being printed is a matter of the commands, which read
a file, print what they have to say about it and go on to the next one. It shows in two ways: the log names
the files up to the one that the first byte without room belongs to, and a run cannot depend on what it does
not read. -/

namespace BraceMode.Tool

def LogEvent.source? : LogEvent → Option String
  | .readingSource path => some path
  | _ => none

def sources (log : List LogEvent) : List String := log.filterMap LogEvent.source?

/-- What a command prints about one of several files: what it prints about the file alone, under a header. -/
def filePart {α : Type} (command : List String → Script α) (files : List String) (path : String) :
    List UInt8 :=
  (if 1 < files.length then Text.encode (fileHeader path) else []) ++ ((command [path]).run .unlimited ()).out

/-- The files up to the one that byte `n` belongs to, when each file prints its part, one after the other. -/
def filesUpTo (part : String → List UInt8) : (n : Nat) → (files : List String) → List String
  | _, [] => []
  | n, path :: files =>
    if n < (part path).length then [path] else path :: filesUpTo part (n - (part path).length) files

/-- A command that is given `files`, each with its part of the output, runs out of room after `room` bytes, or
has enough. -/
structure CutShort {α : Type} (files : List String) (part : String → List UInt8) (command : World → Script α)
    (w : World) (room : Nat) : Prop where
  out : ((command w).run .limited room).out = ((command w).run .unlimited ()).out.take room
  /-- Enough room makes no difference. -/
  whole : ((command w).run .unlimited ()).out.length ≤ room →
    ((command w).run .limited room).result = ((command w).run .unlimited ()).result ∧
      ((command w).run .limited room).log = ((command w).run .unlimited ()).log
  failed : room < ((command w).run .unlimited ()).out.length →
    ((command w).run .limited room).result = .error .io ∧
      ((command w).run .limited room).log <+: ((command w).run .unlimited ()).log
  /-- The last file read is the one that the first byte without room belongs to. -/
  printing : room < ((command w).run .unlimited ()).out.length →
    sources ((command w).run .limited room).log = filesUpTo part room files ∧
      (filesUpTo part room files).flatMap part <+: ((command w).run .unlimited ()).out ∧
      (files ≠ [] → room < ((filesUpTo part room files).flatMap part).length)
  /-- What other paths lead to has no influence. -/
  unread : room < ((command w).run .unlimited ()).out.length → ∀ w' : World,
    (∀ path ∈ sources ((command w).run .limited room).log, w'.find? path = w.find? path) →
      (command w').run .limited room = (command w).run .limited room

theorem sources_after {α : Type} (out : List UInt8) (log : List LogEvent) (o : Outcome α) :
    sources (o.after out log).log = sources log ++ sources o.log := List.filterMap_append

/-! ## Any script -/

namespace Script

variable {α β : Type} {s : Script α} {k : α → Script β} {room : Nat}

theorem run_limited_write_of_le {text : List Char} (h : (Text.encode text).length ≤ room) (next : Script α) :
    (Script.write text next).run .limited room =
      (next.run .limited (room - (Text.encode text).length)).after (Text.encode text) [] := by
  simp only [run, Writer.limited, if_pos h]
  rfl

theorem run_limited_write_of_lt {text : List Char} (h : room < (Text.encode text).length) (next : Script α) :
    (Script.write text next).run .limited room = ⟨(Text.encode text).take room, [], .error .io⟩ := by
  simp only [run, Writer.limited, if_neg (Nat.not_le.mpr h)]

theorem run_limited_log (e : LogEvent) (next : Script α) :
    (Script.log e next).run .limited room = (next.run .limited room).after [] [e] := rfl

theorem length_out_write (text : List Char) (next : Script α) :
    (Script.write text next).outcome.out.length =
      (Text.encode text).length + next.outcome.out.length := List.length_append

/-- With enough room a script leaves what it leaves on a writer that takes everything. -/
theorem run_limited_of_le (h : s.outcome.out.length ≤ room) : s.run .limited room = s.outcome := by
  induction s generalizing room with
  | done a => rfl
  | fail f => rfl
  | write text next ih =>
    rw [length_out_write] at h
    rw [run_limited_write_of_le (by omega), ih (by omega), outcome_write]
  | flush next ih => exact ih h
  | log e next ih => exact congrArg (Outcome.after [] [e]) (ih h)

theorem out_run_limited (s : Script α) (room : Nat) :
    (s.run .limited room).out = s.outcome.out.take room := by
  induction s generalizing room with
  | done a => exact List.take_nil.symm
  | fail f => exact List.take_nil.symm
  | write text next ih =>
    rw [outcome_write]
    rcases Nat.lt_or_ge room (Text.encode text).length with hlt | hle
    · rw [run_limited_write_of_lt hlt]
      exact (List.take_append_of_le_length (Nat.le_of_lt hlt)).symm
    · rw [run_limited_write_of_le hle]
      simp only [Outcome.after, ih, List.take_append, List.take_of_length_le hle]
  | flush next ih => exact ih room
  | log e next ih => exact ih room

/-- Without enough room a script ends in the write that does not fit. -/
theorem failed_of_lt (h : room < s.outcome.out.length) :
    (s.run .limited room).result = .error .io ∧ (s.run .limited room).log <+: s.outcome.log := by
  induction s generalizing room with
  | done a => exact absurd h (Nat.not_lt_zero room)
  | fail f => exact absurd h (Nat.not_lt_zero room)
  | write text next ih =>
    rcases Nat.lt_or_ge room (Text.encode text).length with hlt | hle
    · rw [run_limited_write_of_lt hlt]
      exact ⟨rfl, List.nil_prefix⟩
    · rw [length_out_write] at h
      rw [run_limited_write_of_le hle, outcome_write]
      exact ih (by omega)
  | flush next ih => exact ih h
  | log e next ih =>
    obtain ⟨hresult, hlog⟩ := ih h
    exact ⟨hresult, (List.prefix_append_right_inj [e]).mpr hlog⟩

/-- Two scripts one after the other: the second has the room that the first leaves. -/
theorem run_limited_bind (s : Script α) (k : α → Script β) (room : Nat) :
    (s >>= k).run .limited room =
      (s.run .limited room).andThen fun a => (k a).run .limited (room - s.outcome.out.length) := by
  change (s.bind k).run .limited room = _
  induction s generalizing room with
  | done a => rfl
  | fail f => rfl
  | write text next ih =>
    rw [bind, length_out_write]
    rcases Nat.lt_or_ge room (Text.encode text).length with hlt | hle
    · rw [run_limited_write_of_lt hlt, run_limited_write_of_lt hlt]
      rfl
    · rw [run_limited_write_of_le hle, run_limited_write_of_le hle, ih, Outcome.andThen_after, Nat.sub_sub]
  | flush next ih => exact ih room
  | log e next ih =>
    rw [bind, run_limited_log, run_limited_log, ih, Outcome.andThen_after]
    rfl

/-- A cut in the first of two scripts does not see the second one. -/
theorem run_limited_bind_of_lt (h : room < s.outcome.out.length) (k : α → Script β) :
    (s >>= k).run .limited room = ⟨s.outcome.out.take room, (s.run .limited room).log, .error .io⟩ := by
  rw [run_limited_bind, Outcome.andThen, (failed_of_lt h).1, out_run_limited]

theorem run_limited_bind_of_le {a : α} (h : s.outcome.out.length ≤ room) (ha : s.outcome.result = .ok a)
    (k : α → Script β) :
    (s >>= k).run .limited room =
      ((k a).run .limited (room - s.outcome.out.length)).after s.outcome.out s.outcome.log := by
  rw [run_limited_bind, run_limited_of_le h, Outcome.andThen, ha]

theorem outcome_bind_of_ok {a : α} (ha : s.outcome.result = .ok a) (k : α → Script β) :
    (s >>= k).outcome = (k a).outcome.after s.outcome.out s.outcome.log := by
  rw [outcome_bind, Outcome.andThen, ha]

/-- A cut that is not in the first of two scripts is in the second one. -/
theorem exists_ok_of_lt (hle : s.outcome.out.length ≤ room) (h : room < (s >>= k).outcome.out.length) :
    ∃ a, s.outcome.result = .ok a ∧ room - s.outcome.out.length < (k a).outcome.out.length := by
  cases ha : s.outcome.result with
  | ok a =>
    rw [outcome_bind_of_ok ha, Outcome.after, List.length_append] at h
    exact ⟨a, rfl, by omega⟩
  | error f =>
    rw [outcome_bind, Outcome.andThen, ha] at h
    exact absurd h (Nat.not_lt.mpr hle)

theorem out_prefix_bind (s : Script α) (k : α → Script β) : s.outcome.out <+: (s >>= k).outcome.out := by
  rw [outcome_bind, Outcome.andThen]
  cases s.outcome.result with
  | ok a => exact List.prefix_append _ _
  | error f => exact List.prefix_rfl

/-! ## Scripts that read nothing -/

def ReadsNothing (s : Script α) : Prop := sources s.outcome.log = []

theorem ReadsNothing.bind (hs : s.ReadsNothing) (hk : ∀ a, (k a).ReadsNothing) : (s >>= k).ReadsNothing := by
  rw [ReadsNothing, outcome_bind, Outcome.andThen]
  cases s.outcome.result with
  | ok a => exact (sources_after _ _ _).trans (List.append_eq_nil_iff.mpr ⟨hs, hk a⟩)
  | error f => exact hs

theorem readsNothing_done (a : α) : (Script.done a).ReadsNothing := rfl

theorem readsNothing_puts (text : List Char) : (puts text).ReadsNothing := rfl

theorem readsNothing_noteIf (verbose : Bool) {e : LogEvent} (he : e.source? = none) :
    (noteIf verbose e).ReadsNothing := by
  rw [ReadsNothing, outcome_noteIf]
  cases verbose <;> simp [sources, he]

theorem readsNothing_forM_puts {γ : Type} (line : γ → List Char) (xs : List γ) :
    (xs.forM fun x => puts (line x)).ReadsNothing := by
  rw [ReadsNothing, outcome_forM_puts]
  rfl

/-- A script that reads nothing reads nothing when it is cut short. -/
theorem ReadsNothing.sources_run_limited (hs : s.ReadsNothing) (h : room < s.outcome.out.length) :
    sources (s.run .limited room).log = [] := by
  have hprefix : sources (s.run .limited room).log <+: sources s.outcome.log :=
    (failed_of_lt h).2.filterMap LogEvent.source?
  rwa [hs, List.prefix_nil] at hprefix

end Script

/-! ## Files one after the other -/

section

variable {β : Type} {w w' : World} {path : String} {source : List Char} {room : Nat}

theorem readSource_congr (h : w'.find? path = w.find? path) : readSource w' path = readSource w path := by
  simp only [readSource, h]

theorem readSource_cases (w : World) (path : String) :
    (∃ f, readSource w path = .fail f) ∨ (∃ f, readSource w path = .log (.readingSource path) (.fail f)) ∨
      ∃ source, readSource w path = .log (.readingSource path) (.done source) := by
  cases hfile : w.find? path with
  | none => exact .inl ⟨.inputNotFound path, by rw [readSource, hfile]⟩
  | some node =>
    cases node with
    | directory => exact .inl ⟨.inputNotFile path, by rw [readSource, hfile]⟩
    | file bytes =>
      cases hsource : Text.decode? bytes with
      | none => exact .inr (.inl ⟨.io, by simp only [readSource, hfile, hsource]; rfl⟩)
      | some source => exact .inr (.inr ⟨source, readSource_of_decode? hfile hsource⟩)

/-- Output that follows a file shows that the file was read. -/
theorem exists_source_of_lt {k : List Char → Script β}
    (h : room < (readSource w path >>= k).outcome.out.length) :
    ∃ source, readSource w path = .log (.readingSource path) (.done source) := by
  obtain ⟨f, hf⟩ | ⟨f, hf⟩ | hsource := readSource_cases w path
  · rw [hf] at h
    exact absurd h (Nat.not_lt_zero room)
  · rw [hf] at h
    exact absurd h (Nat.not_lt_zero room)
  · exact hsource

variable {report : String → List Char → Script Nat} {count total : Nat}

def reportSource (count : Nat) (report : String → List Char → Script Nat) (total : Nat) (path : String)
    (source : List Char) : Script Nat := do
  if 1 < count then Script.puts (fileHeader path)
  return total + (← report path source)

def reportEach (w : World) (count : Nat) (report : String → List Char → Script Nat) (files : List String)
    (total : Nat) : Script Nat :=
  files.foldlM (fun total path => readSource w path >>= reportSource count report total path) total

theorem reportFiles_of_ne_nil {files : List String} (h : files ≠ []) :
    reportFiles w files report = reportEach w files.length report files 0 := by
  rw [reportFiles, if_neg (by simpa using h)]
  rfl

theorem reportEach_cons (path : String) (files : List String) :
    reportEach w count report (path :: files) total =
      readSource w path >>= fun source =>
        reportSource count report total path source >>= reportEach w count report files := by
  rw [reportEach, List.foldlM_cons, Script.bind_assoc]
  rfl

theorem exists_source_of_reportEach {files : List String}
    (h : room < (reportEach w count report (path :: files) total).outcome.out.length) :
    ∃ source, readSource w path = .log (.readingSource path) (.done source) := by
  rw [reportEach_cons] at h
  exact exists_source_of_lt h

theorem reportEach_of_source (hsource : readSource w path = .log (.readingSource path) (.done source))
    (files : List String) :
    reportEach w count report (path :: files) total =
      .log (.readingSource path)
        (reportSource count report total path source >>= reportEach w count report files) := by
  rw [reportEach_cons, hsource]
  rfl

theorem out_reportSource :
    (reportSource count report total path source).outcome.out =
      (if 1 < count then Text.encode (fileHeader path) else []) ++ (report path source).outcome.out := by
  have hcount : (report path source >>= fun n => pure (total + n)).outcome.out =
      (report path source).outcome.out := by
    rw [Script.outcome_bind, Outcome.andThen]
    cases (report path source).outcome.result with
    | ok n => exact List.append_nil _
    | error f => rfl
  unfold reportSource
  split
  · rw [Script.outcome_bind, Script.outcome_puts, Outcome.andThen_ok, Outcome.after, hcount]
  · exact hcount

theorem readsNothing_reportSource (hreport : (report path source).ReadsNothing) :
    (reportSource count report total path source).ReadsNothing := by
  have hcount : (report path source >>= fun n => pure (total + n)).ReadsNothing :=
    hreport.bind fun n => Script.readsNothing_done (total + n)
  unfold reportSource
  split
  · exact (Script.readsNothing_puts _).bind fun _ => hcount
  · exact hcount

/-- A loop over files that is cut short has read the files up to the one whose part is cut. -/
theorem sources_reportEach {part : String → List UInt8}
    (hreport : ∀ path source, (report path source).ReadsNothing)
    (hpart : ∀ path source total, readSource w path = .log (.readingSource path) (.done source) →
      (reportSource count report total path source).outcome.out = part path)
    (files : List String) (h : room < (reportEach w count report files total).outcome.out.length) :
    sources ((reportEach w count report files total).run .limited room).log = filesUpTo part room files ∧
      (filesUpTo part room files).flatMap part <+: (reportEach w count report files total).outcome.out ∧
      room < ((filesUpTo part room files).flatMap part).length := by
  induction files generalizing total room with
  | nil => exact absurd h (Nat.not_lt_zero room)
  | cons path files ih =>
    obtain ⟨source, hsource⟩ := exists_source_of_reportEach h
    have hout := hpart path source total hsource
    have hnone : (reportSource count report total path source).ReadsNothing :=
      readsNothing_reportSource (hreport path source)
    rw [reportEach_of_source hsource, Script.outcome_log] at h ⊢
    rw [Script.run_limited_log, filesUpTo]
    rcases Nat.lt_or_ge room (part path).length with hlt | hle
    · rw [if_pos hlt]
      rw [List.flatMap_singleton, ← hout]
      rw [← hout] at hlt
      refine ⟨?_, Script.out_prefix_bind _ _, hlt⟩
      rw [Script.run_limited_bind_of_lt hlt]
      exact congrArg (path :: ·) (hnone.sources_run_limited hlt)
    · rw [if_neg (Nat.not_lt.mpr hle), ← hout]
      rw [← hout] at hle
      obtain ⟨next, hnext, hrest⟩ := Script.exists_ok_of_lt hle h
      obtain ⟨hsources, hprefix, hlast⟩ := ih hrest
      rw [List.flatMap_cons, ← hout]
      refine ⟨?_, ?_, ?_⟩
      · rw [Script.run_limited_bind_of_le hle hnext, sources_after, sources_after,
          (hnone : sources _ = []), hsources]
        rfl
      · rw [Script.outcome_bind_of_ok hnext]
        exact (List.prefix_append_right_inj _).mpr hprefix
      · rw [List.length_append]
        omega

/-- Nothing that such a loop does shows what the files are that it has not read. -/
theorem run_limited_reportEach_congr {files : List String}
    (h : room < (reportEach w count report files total).outcome.out.length)
    (hfind : ∀ path ∈ sources ((reportEach w count report files total).run .limited room).log,
      w'.find? path = w.find? path) :
    (reportEach w' count report files total).run .limited room =
      (reportEach w count report files total).run .limited room := by
  induction files generalizing total room with
  | nil => rfl
  | cons path files ih =>
    obtain ⟨source, hsource⟩ := exists_source_of_reportEach h
    rw [reportEach_of_source hsource] at h hfind
    rw [Script.run_limited_log, sources_after] at hfind
    have hsource' : readSource w' path = .log (.readingSource path) (.done source) :=
      (readSource_congr (hfind path List.mem_cons_self)).trans hsource
    rw [reportEach_of_source hsource, reportEach_of_source hsource', Script.run_limited_log,
      Script.run_limited_log]
    rcases Nat.lt_or_ge room (reportSource count report total path source).outcome.out.length with hlt | hle
    · rw [Script.run_limited_bind_of_lt hlt, Script.run_limited_bind_of_lt hlt]
    · obtain ⟨next, hnext, hrest⟩ := Script.exists_ok_of_lt hle h
      rw [Script.run_limited_bind_of_le hle hnext, sources_after] at hfind
      have hfiles := ih hrest fun path hpath =>
        hfind path (List.mem_append_right _ (List.mem_append_right _ hpath))
      rw [Script.run_limited_bind_of_le hle hnext, Script.run_limited_bind_of_le hle hnext, hfiles]

end

/-! ## The commands -/

theorem readsNothing_writeTokenLines (number : Nat) (ls : List HighlightedLine) :
    (writeTokenLines number ls).ReadsNothing := by
  induction ls generalizing number with
  | nil => exact Script.readsNothing_done 0
  | cons l ls ih =>
    exact (Script.readsNothing_puts _).bind fun _ => (ih (number + 1)).bind fun _ => Script.readsNothing_done _

theorem readsNothing_writeIndentLines (m : Mode) (number : Nat) (ps : List (HighlightedLine × List Char)) :
    (writeIndentLines m number ps).ReadsNothing := by
  rw [Script.ReadsNothing, outcome_writeIndentLines]
  rfl

/-- A report that counts and then notes the count. -/
theorem readsNothing_counted {s : Script Nat} (hs : s.ReadsNothing) (verbose : Bool) {e : Nat → LogEvent}
    (he : ∀ count, (e count).source? = none) :
    (do
      let count ← s
      Script.noteIf verbose (e count)
      return count : Script Nat).ReadsNothing :=
  hs.bind fun count => (Script.readsNothing_noteIf verbose (he count)).bind fun _ =>
    Script.readsNothing_done count

theorem cutShort_of {α : Type} {files : List String} {part : String → List UInt8} {command : World → Script α}
    {w : World} {room : Nat}
    (hprinting : room < (command w).outcome.out.length →
      sources ((command w).run .limited room).log = filesUpTo part room files ∧
        (filesUpTo part room files).flatMap part <+: (command w).outcome.out ∧
        (files ≠ [] → room < ((filesUpTo part room files).flatMap part).length))
    (hunread : room < (command w).outcome.out.length → ∀ w' : World,
      (∀ path ∈ sources ((command w).run .limited room).log, w'.find? path = w.find? path) →
        (command w').run .limited room = (command w).run .limited room) :
    CutShort files part command w room where
  out := Script.out_run_limited (command w) room
  whole h := by
    rw [Script.run_limited_of_le h]
    exact ⟨rfl, rfl⟩
  failed := Script.failed_of_lt
  printing := hprinting
  unread := hunread

theorem cutShort_reportFiles {report : String → List Char → Script Nat}
    (hreport : ∀ path source, (report path source).ReadsNothing) (files : List String) (w : World)
    (room : Nat) :
    CutShort files (filePart (fun files => reportFiles w files report) files)
      (fun w => reportFiles w files report) w room := by
  by_cases hfiles : files = []
  · subst hfiles
    exact cutShort_of (fun h => absurd h (Nat.not_lt_zero room)) fun h => absurd h (Nat.not_lt_zero room)
  have hpart (path : String) (source : List Char) (total : Nat)
      (hsource : readSource w path = .log (.readingSource path) (.done source)) :
      (reportSource files.length report total path source).outcome.out =
        filePart (fun files => reportFiles w files report) files path := by
    rw [out_reportSource, filePart, reportFiles_singleton, hsource]
    rfl
  apply cutShort_of
  · intro h
    rw [reportFiles_of_ne_nil hfiles] at h ⊢
    obtain ⟨hsources, hprefix, hlast⟩ := sources_reportEach hreport hpart files h
    exact ⟨hsources, hprefix, fun _ => hlast⟩
  · intro h w' hfind
    rw [reportFiles_of_ne_nil hfiles] at h hfind ⊢
    rw [reportFiles_of_ne_nil hfiles]
    exact run_limited_reportEach_congr h hfind

/-- A command for one file. -/
theorem cutShort_readSource {α : Type} {k : List Char → Script α} (hk : ∀ source, (k source).ReadsNothing)
    (file : String) (w : World) (room : Nat) :
    CutShort [file] (fun _ => ((readSource w file >>= k).run .unlimited ()).out)
      (fun w => readSource w file >>= k) w room := by
  apply cutShort_of
  · intro h
    have hfiles (part : String → List UInt8) : filesUpTo part room [file] = [file] := by
      rw [filesUpTo, filesUpTo, ite_self]
    obtain ⟨source, hsource⟩ := exists_source_of_lt h
    rw [hfiles, List.flatMap_singleton]
    rw [hsource] at h ⊢
    exact ⟨congrArg (file :: ·) ((hk source).sources_run_limited h), List.prefix_rfl, fun _ => h⟩
  · intro h w' hfind
    obtain ⟨source, hsource⟩ := exists_source_of_lt h
    have hread : file ∈ sources ((readSource w file >>= k).run .limited room).log := by
      rw [hsource]
      exact List.mem_cons_self
    rw [readSource_congr (hfind file hread)]

theorem readsNothing_capabilitiesCommand (k : Capabilities) (verbose : Bool) (chars : List Char) :
    (capabilitiesCommand k verbose chars).ReadsNothing :=
  (Script.readsNothing_forM_puts _ _).bind fun _ => Script.readsNothing_noteIf verbose rfl

/-- **A writer that runs out of room cuts the output and changes nothing else**, whatever the command and
whatever the room. What is written is the beginning of what would have been; with room for all of it the run
is the same, and otherwise it ends in an error, its log breaks off, and no file has been read behind the one
that was being printed. -/
theorem limited_writer_truncates (m : Mode) (w : World) (verbose : Bool) (room : Nat) :
    (∀ files, CutShort files (filePart (tokensCommand m w verbose) files)
      (tokensCommand m · verbose files) w room) ∧
    (∀ files, CutShort files (filePart (indentCommand m w verbose) files)
      (indentCommand m · verbose files) w room) ∧
    (∀ check file, CutShort [file] (filePart (fun _ => reindentCommand m w verbose check file) [file])
      (reindentCommand m · verbose check file) w room) ∧
    ∀ k chars, CutShort [] (fun _ => []) (fun _ => capabilitiesCommand k verbose chars) w room := by
  refine ⟨fun files => ?_, fun files => ?_, fun check file => ?_, fun k chars => ?_⟩
  · exact cutShort_reportFiles (fun path source =>
      readsNothing_counted (readsNothing_writeTokenLines 1 _) verbose fun _ => rfl) files w room
  · exact cutShort_reportFiles (fun path source =>
      readsNothing_counted (readsNothing_writeIndentLines m 1 _) verbose fun _ => rfl) files w room
  · refine cutShort_readSource (fun source => ?_) file w room
    have hnote (n : Nat) : (Script.noteIf verbose (.reindented file n) >>= fun _ => pure n).ReadsNothing :=
      (Script.readsNothing_noteIf verbose rfl).bind fun _ => Script.readsNothing_done n
    cases check with
    | true => exact (Script.readsNothing_forM_puts _ _).bind fun _ => hnote _
    | false => exact (Script.readsNothing_puts _).bind fun _ => hnote _
  · exact cutShort_of
      (fun h => ⟨(readsNothing_capabilitiesCommand k verbose chars).sources_run_limited h, List.nil_prefix,
        fun hne => absurd rfl hne⟩)
      fun _ _ _ => rfl

end BraceMode.Tool
