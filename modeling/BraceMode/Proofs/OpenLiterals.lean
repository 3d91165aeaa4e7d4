import Mathlib.Data.List.Induction
import BraceMode.Proofs.Pieces

/-! Literals that outlive their line. A literal of a quote that ends with its line is carried over the line
end by a backslash alone: the body that stays open runs to the end of the text, and its last character is
the one whose escape is still open. A line of blanks never comes to the body, so it neither closes the
literal nor carries it on: the literal stays open behind any number of blank lines. -/

namespace BraceMode

namespace Lexis.Literal

/-- An escape that is open at the end was opened by the last character, or before the text. -/
theorem getLast?_of_escaping {q : Quote} {escaped : Bool} {t : List Char}
    (h : (scan q escaped t).2 = .escaping) : t.getLast? = some '\\' ∨ t = [] ∧ escaped = true := by
  induction t generalizing escaped with
  | nil =>
    cases escaped with
    | true => exact .inr ⟨rfl, rfl⟩
    | false => cases h
  | cons c t ih =>
    unfold scan at h
    split at h
    · cases h
    · rcases ih h with hlast | ⟨rfl, hescape⟩
      · exact .inl (by simp [List.getLast?_cons, hlast])
      · simp only [Bool.and_eq_true, beq_iff_eq] at hescape
        exact .inl (by rw [hescape.2]; rfl)

/-- The body of a literal that is to end with its line stays open at a backslash only. -/
theorem getLast?_of_staysOpen {q : Quote} (hq : q.spansLines = false) {t : List Char}
    (h : (scan q false t).2.staysOpen q = true) : t.getLast? = some '\\' := by
  have hending : (scan q false t).2 = .escaping := by
    cases hs : (scan q false t).2 with
    | closed => simp [hs, Ending.staysOpen] at h
    | escaping => rfl
    | unclosed => simp [hs, Ending.staysOpen, hq] at h
  rcases getLast?_of_escaping hending with hlast | ⟨-, hfalse⟩
  · exact hlast
  · cases hfalse

end Lexis.Literal

/-! ## The piece that stays open -/

namespace Lexeme

theorem regionAfter_ofLiteral (q : Quote) (t : List Char) :
    (ofLiteral q t).regionAfter (.literal q) =
      if (Lexis.Literal.scan q false t).2.staysOpen q then .literal q else .code := by
  simp only [regionAfter, ofLiteral]
  split <;> rfl

/-- Of the lexemes of code, an opening quote leaves a literal open if the text behind it does. -/
theorem Fixed.literal_of_regionAfter {c : Char} {t : List Char} {l : Lexeme} {q : Quote} (h : Fixed c t l)
    (hopen : l.regionAfter .code = .literal q) : (Lexis.Literal.scan q false t).2.staysOpen q = true := by
  cases h with
  | @literal _ _ p hp =>
    have hbehind : ((ofLiteral p t).behind 1 (.literal p)).regionAfter .code =
        (ofLiteral p t).regionAfter (.literal p) := by
      simp only [regionAfter, behind, List.getLastD_cons]
    rw [hbehind, regionAfter_ofLiteral] at hopen
    split at hopen
    · rename_i hstays
      cases hopen
      exact hstays
    · cases hopen
  | blockComment =>
    simp only [regionAfter, behind, ofComment] at hopen
    split at hopen <;> cases hopen
  | number | punct | lineComment | operator => cases hopen

/-- A lexeme that leaves a literal open goes on with one, or is its opening quote and what follows. -/
theorem literal_of_regionAfter {v : Vocabulary} {r : Region} {c : Char} {t : List Char} {q : Quote}
    (h : (read v [] r (c :: t)).regionAfter r = .literal q) :
    (Lexis.Literal.scan q false (c :: t)).2.staysOpen q = true ∨
      (Lexis.Literal.scan q false t).2.staysOpen q = true := by
  cases r with
  | comment =>
    simp only [read, regionAfter, ofComment] at h
    split at h <;> cases h
  | literal p =>
    rw [read, regionAfter_ofLiteral] at h
    split at h
    · rename_i hopen
      cases h
      exact .inl hopen
    · cases h
  | code =>
    rcases ofCode_cases c t with ⟨l, hfixed, hl⟩ | hword
    · rw [read, hl] at h
      exact .inr (hfixed.literal_of_regionAfter h)
    · rw [read, hword] at h
      cases h

/-- A lexeme behind which a literal is open that should end with its line stands before a backslash that ends
the text. -/
theorem getLast?_of_regionAfter {v : Vocabulary} {r : Region} {c : Char} {t : List Char} {q : Quote}
    (hq : q.spansLines = false) (h : (read v [] r (c :: t)).regionAfter r = .literal q) :
    (c :: t).getLast? = some '\\' := by
  rcases literal_of_regionAfter h with hopen | hopen
  · exact Lexis.Literal.getLast?_of_staysOpen hq hopen
  · simp [List.getLast?_cons, Lexis.Literal.getLast?_of_staysOpen hq hopen]

end Lexeme

/-- Blanks leave the region as it is. -/
theorem foldl_regionAfter_of_allBlank (v : Vocabulary) (r : Region) {t : List Char}
    (h : Text.allBlank t = true) : (pieces v r t).foldl (fun r p => p.regionAfter r) r = r := by
  rw [pieces_eq_lead_append, (Text.trimStart_eq_nil_iff t).mpr h, pieces_nil]
  split <;> rfl

/-- Behind a text that is not blank, a literal that should end with its line is open at a backslash only. -/
theorem getLast?_of_foldl_regionAfter {v : Vocabulary} {r : Region} {t : List Char} {q : Quote}
    (hq : q.spansLines = false) (ht : Text.allBlank t = false)
    (h : (pieces v r t).foldl (fun r p => p.regionAfter r) r = .literal q) :
    t.getLast? = some '\\' := by
  fun_induction pieces v r t with
  | case1 => simp [Text.allBlank] at ht
  | case2 r t hne p ih =>
    rw [List.foldl_cons] at h
    have hcut := Piece.first_text_append_drop v r t
    cases hrest : Text.allBlank (t.drop p.text.length) with
    | false =>
      have hlast := ih hrest h
      rw [← hcut]
      simp [List.getLast?_append, p, hlast]
    | true =>
      -- Only blanks follow, so this piece is the one that leaves the literal open.
      rw [foldl_regionAfter_of_allBlank v _ hrest] at h
      obtain ⟨c, u, rfl⟩ := List.exists_cons_of_ne_nil hne
      cases hc : Text.isBlank c with
      | true =>
        have hp : p = ⟨Text.lead (c :: u), none⟩ := Piece.first_of_isBlank v r u hc
        have hblank : Text.allBlank p.text = true := hp ▸ Text.allBlank_lead (c :: u)
        rw [← hcut, Text.allBlank, List.all_append] at ht
        simp only [Text.allBlank] at hblank hrest
        simp [p, hblank, hrest] at ht
      | false =>
        have hp : p = _ := Piece.first_of_not_isBlank v r u hc
        rw [hp] at h
        exact Lexeme.getLast?_of_regionAfter hq h

/-! ## Lines that leave a literal open -/

namespace Mode

variable (m : Mode)

theorem region_readLine_of_allBlank (s : State) {t : List Char} (h : Text.allBlank t = true) :
    (m.readLine s t).state.region = s.region := by
  rw [m.region_readLine, foldl_regionAfter_of_allBlank m.vocabulary s.region h]

theorem getLast?_of_region_readLine {s : State} {t : List Char} {q : Quote} (hq : q.spansLines = false)
    (ht : Text.allBlank t = false) (h : (m.readLine s t).state.region = .literal q) :
    t.getLast? = some '\\' := by
  rw [m.region_readLine] at h
  exact getLast?_of_foldl_regionAfter hq ht h

/-- A run that starts in code and leaves a literal open came to it by a line that ends in a backslash, and
has read nothing but blank lines since. -/
theorem exists_backslash_of_region_feed {s : State} (hs : s.region = .code) {q : Quote}
    (hq : q.spansLines = false) {ts : List (List Char)} (h : (m.feed s ts).region = .literal q) :
    ∃ pre l blanks, ts = pre ++ l :: blanks ∧ l.getLast? = some '\\' ∧
      ∀ b ∈ blanks, Text.allBlank b = true := by
  induction ts using List.reverseRecOn with
  | nil =>
    rw [feed, List.foldl_nil, hs] at h
    cases h
  | append_singleton us t ih =>
    have hfeed : m.feed s (us ++ [t]) = (m.readLine (m.feed s us) t).state := by simp [feed]
    rw [hfeed] at h
    cases ht : Text.allBlank t with
    | false => exact ⟨us, t, [], rfl, m.getLast?_of_region_readLine hq ht h, by simp⟩
    | true =>
      rw [m.region_readLine_of_allBlank _ ht] at h
      obtain ⟨pre, l, blanks, rfl, hlast, hblank⟩ := ih h
      refine ⟨pre, l, blanks ++ [t], by simp, hlast, ?_⟩
      exact List.forall_mem_append.mpr ⟨hblank, by simpa using ht⟩

/-- **A literal ends with its line, but for a backslash and for blanks.** Let the literals of `q` end with
their line. In any state that a run reaches, a line that is not blank leaves such a literal open only when
its last character is a backslash. A blank line, the empty one included, leaves open whatever is open. So
where a run leaves a literal of `q` open, the last of its lines that is not blank ends in a backslash. -/
theorem literal_open_behind_backslash {q : Quote} (hq : q.spansLines = false) (base : Int)
    (ts : List (List Char)) (t : List Char) :
    let s := m.feed (m.start base) ts
    let after := (m.readLine s t).state
    (Text.allBlank t = false → after.region = .literal q → t.getLast? = some '\\') ∧
      (Text.allBlank t = true → after.region = s.region) ∧
      (s.region = .literal q → ∃ pre l blanks, ts = pre ++ l :: blanks ∧ l.getLast? = some '\\' ∧
        ∀ b ∈ blanks, Text.allBlank b = true) :=
  ⟨m.getLast?_of_region_readLine hq, m.region_readLine_of_allBlank _,
    m.exists_backslash_of_region_feed rfl hq⟩

/-- A single quote that is carried over a blank line by one backslash and further by another. -/
theorem literal_open_behind_backslash_twice :
    let m : Mode := {}
    let lines := ["x = 'a\\".toList, " ".toList]
    let s := m.feed (m.start 0) lines
    Quote.single.spansLines = false ∧ s.region = .literal .single ∧
      (∃ pre l blanks, lines = pre ++ l :: blanks ∧ l.getLast? = some '\\' ∧
        ∀ b ∈ blanks, Text.allBlank b = true) ∧
      (m.readLine s "\tb\\".toList).state.region = .literal .single ∧
      "\tb\\".toList.getLast? = some '\\' := by
  intro m lines s
  have hopen : s.region = .literal .single := by decide +kernel
  have hafter : (m.readLine s "\tb\\".toList).state.region = .literal .single := by decide +kernel
  obtain ⟨hlast, -, hcarried⟩ :=
    m.literal_open_behind_backslash (q := .single) rfl 0 lines "\tb\\".toList
  exact ⟨rfl, hopen, hcarried hopen, hafter, hlast (by decide +kernel) hafter⟩

/-- An empty line and a line of blanks leave a double quote open, and neither ends in a backslash. -/
theorem literal_open_behind_blank_line :
    let m : Mode := {}
    let s := m.feed (m.start 0) ["\"a\\".toList]
    ((m.readLine s []).state.region = .literal .double ∧ ([] : List Char).getLast? ≠ some '\\') ∧
      (m.readLine s "  ".toList).state.region = .literal .double ∧
      "  ".toList.getLast? ≠ some '\\' := by
  decide +kernel

end Mode

end BraceMode
