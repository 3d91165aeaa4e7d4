import Mathlib.Algebra.Ring.Parity
import Mathlib.Order.Bounds.Defs
import BraceMode.Proofs.EventLog
import BraceMode.Proofs.OpenLiterals

/-! Where literals end. The scan of a body carries one flag, whether the character in front is taken by a
backslash. Whatever has been read, the flag is the parity of the backslashes read last: a backslash that is
taken itself takes nothing, and any other character starts the count again. So the body ends with the first
delimiter behind an even number of backslashes; a back-tick is never taken. -/

namespace BraceMode

namespace Lexis.Literal

def trailingBackslashes (t : List Char) : Nat := run (· == '\\') t.reverse

/-- Whether the delimiter of `q` stands at index `i` of a body and is not taken by a backslash: the number of
backslashes directly before it is even, or it is a back-tick. -/
def ClosesAt (q : Quote) (body : List Char) (i : Nat) : Prop :=
  body[i]? = some q.char ∧ (q = .backtick ∨ Even (trailingBackslashes (body.take i)))

instance (q : Quote) (body : List Char) (i : Nat) : Decidable (ClosesAt q body i) :=
  inferInstanceAs (Decidable (_ ∧ _))

def takesNext (q : Quote) (t : List Char) : Bool := q.hasEscapes && decide (Odd (trailingBackslashes t))

/-! ## Parity -/

theorem trailingBackslashes_concat (t : List Char) (c : Char) :
    trailingBackslashes (t ++ [c]) = if c = '\\' then trailingBackslashes t + 1 else 0 := by
  by_cases hc : c = '\\' <;> simp [trailingBackslashes, run, hc]

theorem takesNext_eq_false_iff (q : Quote) (t : List Char) :
    takesNext q t = false ↔ q = .backtick ∨ Even (trailingBackslashes t) := by
  cases q <;> simp [takesNext, Quote.hasEscapes]

theorem takesNext_nil (q : Quote) : takesNext q [] = false := by
  rw [takesNext_eq_false_iff]
  exact .inr Even.zero

/-- The flag of the scan is the parity of the backslashes read last. -/
theorem takesNext_concat (q : Quote) (t : List Char) (c : Char) :
    takesNext q (t ++ [c]) = (!takesNext q t && q.hasEscapes && c == '\\') := by
  rw [takesNext, takesNext, trailingBackslashes_concat]
  by_cases hc : c = '\\'
  · cases q.hasEscapes <;> simp [hc, ← Nat.not_even_iff_odd, Nat.even_add_one]
  · simp [hc]

/-! ## The scan -/

theorem closesAt_length_iff (q : Quote) (pre : List Char) (c : Char) (t : List Char) :
    ClosesAt q (pre ++ c :: t) pre.length ↔ c = q.char ∧ takesNext q pre = false := by
  simp [ClosesAt, takesNext_eq_false_iff]

theorem closesAt_succ_iff (q : Quote) (pre : List Char) (c : Char) (t : List Char) (i : Nat) :
    ClosesAt q (pre ++ c :: t) (pre.length + (i + 1)) ↔
      ClosesAt q (pre ++ [c] ++ t) ((pre ++ [c]).length + i) := by
  rw [List.append_assoc, List.singleton_append, List.length_append, List.length_singleton, Nat.add_assoc,
    Nat.add_comm 1]

/-- Behind `pre`, the scan ends with the first delimiter that is not taken. -/
theorem scan_of_closesAt (q : Quote) (pre t : List Char) {i : Nat}
    (hat : ClosesAt q (pre ++ t) (pre.length + i))
    (hleast : ∀ j < i, ¬ClosesAt q (pre ++ t) (pre.length + j)) :
    scan q (takesNext q pre) t = (i + 1, .closed) := by
  induction t generalizing pre i with
  | nil => simp [ClosesAt] at hat
  | cons c t ih =>
    cases i with
    | zero => rw [scan, if_pos ((closesAt_length_iff q pre c t).mp hat)]
    | succ i =>
      have hfirst : ¬(c = q.char ∧ takesNext q pre = false) := by
        rw [← closesAt_length_iff q pre c t]
        exact hleast 0 (Nat.succ_pos i)
      have hrest : scan q (takesNext q (pre ++ [c])) t = (i + 1, .closed) := by
        refine ih (pre ++ [c]) ((closesAt_succ_iff q pre c t i).mp hat) fun j hj => ?_
        rw [← closesAt_succ_iff]
        exact hleast (j + 1) (Nat.succ_lt_succ hj)
      rw [scan, if_neg hfirst, ← takesNext_concat, hrest]

/-- Where every delimiter is taken, the scan takes the whole text, and the backslashes at its end tell
whether an escape is still open. -/
theorem scan_of_not_closesAt (q : Quote) (pre t : List Char)
    (hnone : ∀ i, ¬ClosesAt q (pre ++ t) (pre.length + i)) :
    scan q (takesNext q pre) t = (t.length, if takesNext q (pre ++ t) then .escaping else .unclosed) := by
  induction t generalizing pre with
  | nil => simp [scan]
  | cons c t ih =>
    have hfirst : ¬(c = q.char ∧ takesNext q pre = false) := by
      rw [← closesAt_length_iff q pre c t]
      exact hnone 0
    have hrest := ih (pre ++ [c]) fun i => (closesAt_succ_iff q pre c t i).not.mp (hnone (i + 1))
    rw [scan, if_neg hfirst, ← takesNext_concat, hrest, List.append_assoc, List.singleton_append,
      List.length_cons]

end Lexis.Literal

/-! ## The token -/

namespace Lexeme

open Lexis.Literal (ClosesAt takesNext trailingBackslashes)

theorem ofLiteral_of_closesAt {q : Quote} {t : List Char} {i : Nat} (h : IsLeast {i | ClosesAt q t i} i) :
    ofLiteral q t = { size := i + 1, style := some .string, entered := [.code] } := by
  obtain ⟨hat, hleast⟩ := h
  have hscan : Lexis.Literal.scan q (takesNext q []) t = (i + 1, .closed) := by
    refine Lexis.Literal.scan_of_closesAt q [] t ?_ ?_
    · simpa using hat
    · intro j hj hcloses
      exact Nat.not_lt.mpr (hleast (by simpa using hcloses)) hj
  rw [Lexis.Literal.takesNext_nil] at hscan
  simp [ofLiteral, hscan, Lexis.Literal.Ending.staysOpen]

theorem ofLiteral_of_not_closesAt {q : Quote} {t : List Char} (h : ∀ i, ¬ClosesAt q t i) :
    ofLiteral q t =
      { size := t.length
        style := some .string
        entered := if q = .backtick ∨ Odd (trailingBackslashes t) then [] else [.code] } := by
  have hscan := Lexis.Literal.scan_of_not_closesAt q [] t fun i => by simpa using h i
  rw [Lexis.Literal.takesNext_nil, List.nil_append] at hscan
  cases q <;> by_cases hodd : Odd (trailingBackslashes t) <;>
    simp [ofLiteral, hscan, Lexis.Literal.Ending.staysOpen, takesNext, Quote.hasEscapes, Quote.spansLines, hodd]

end Lexeme

/-- What a step does that reads a literal of `q` from state `ready` on: `opening` characters of the rest at
the cursor and then the body. -/
structure Step.ReadsLiteral (after : Step) (q : Quote) (c : Cursor) (ready : State) (opening : Nat)
    (body : List Char) : Prop where
  style : after.style = some .string
  closed : ∀ i, IsLeast {i | Lexis.Literal.ClosesAt q body i} i →
    after.cursor = c.advance (opening + (i + 1)) ∧ after.state.region = .code
  unclosed : (∀ i, ¬Lexis.Literal.ClosesAt q body i) →
    after.cursor = c.advance (opening + body.length) ∧
      after.state.region =
        if q = .backtick ∨ Odd (Lexis.Literal.trailingBackslashes body) then .literal q else .code
  nesting : after.state.nesting = ready.nesting.modifyTop .align
  events : ∀ e ∈ after.events, e.isPush = false ∧ e.isPop = false

namespace Mode

/-- A lexeme of a literal does no more to the frames than settle the top one. -/
theorem absorb_string {l : Lexeme} (hstyle : l.style = some .string) (hmark : l.mark = none) (column : Int)
    (s : State) :
    (absorb column l s).1.nesting = s.nesting.modifyTop .align ∧
      (absorb column l s).2 = Event.switches s.region l.entered := by
  simp [absorb, hstyle, State.change, hmark, State.apply, State.events, State.enter, State.align]

variable (m : Mode)

/-- A step whose lexeme is a body of a literal, or the opening quote and a body, reads a literal. -/
theorem readsLiteral_step {h : Host} {c : Cursor} {s : State} {q : Quote} {opening : Nat}
    {body : List Char} {d : Char} {t : List Char} (hend : h.atLineEnd c = false) (hrest : c.rest = d :: t)
    (hd : Text.isBlank d = false) {l : Lexeme}
    (hl : Lexeme.read m.vocabulary c.token s.region c.rest = l)
    (hsize : l.size = opening + (Lexeme.ofLiteral q body).size)
    (hstyle : l.style = some .string) (hmark : l.mark = none)
    (hafter : l.regionAfter s.region = (Lexeme.ofLiteral q body).regionAfter (.literal q)) :
    (m.step h c s).ReadsLiteral q c (prepare h c s) opening body := by
  have hstep := m.step_of_not_isBlank s hrest hd hend
  simp only [hl] at hstep
  have hregion : (m.step h c s).state.region = (Lexeme.ofLiteral q body).regionAfter (.literal q) := by
    rw [hstep, region_absorb, region_prepare, hafter]
  obtain ⟨hnesting, hevents⟩ :=
    absorb_string hstyle hmark (markColumn h (c.advance l.size) l) (prepare h c s)
  refine ⟨?_, ?_, ?_, ?_, ?_⟩
  · rw [hstep]
    exact hstyle
  · intro i hi
    have hbody := Lexeme.ofLiteral_of_closesAt hi
    rw [hbody] at hsize hregion
    exact ⟨by rw [hstep, hsize], hregion⟩
  · intro hnone
    have hbody := Lexeme.ofLiteral_of_not_closesAt hnone
    rw [hbody] at hsize hregion
    refine ⟨by rw [hstep, hsize], ?_⟩
    rw [hregion, Lexeme.regionAfter]
    split <;> rfl
  · rw [hstep]
    exact hnesting
  · rw [hstep, hevents]
    exact fun e he => Event.not_isPush_of_mem_switches he

/-- **A literal ends at the first delimiter that no backslash takes.** The body is what follows an opening
quote in code, or the rest of a line that a literal goes on in, at its first character that is not blank.
If the delimiter stands in the body behind an even number of backslashes, the step takes the body through
the first such place and is back in code. Otherwise it takes the whole body, and the literal stays open
behind an odd number of backslashes only. Back-ticks ignore backslashes and stay open until the next one.
The token is a string in each case, and no frame is opened or closed. -/
theorem literal_ends_by_parity (h : Host) (c : Cursor) (s : State) (q : Quote) (body : List Char)
    (hend : h.atLineEnd c = false) :
    (s.region = .code → c.rest = q.char :: body →
        (m.step h c s).ReadsLiteral q c (prepare h c s) 1 body) ∧
      (s.region = .literal q → c.rest = body → ∀ d t, body = d :: t → Text.isBlank d = false →
        (m.step h c s).ReadsLiteral q c (prepare h c s) 0 body) := by
  constructor
  · intro hs hrest
    have hd : Text.isBlank q.char = false := by cases q <;> rfl
    have hl : Lexeme.read m.vocabulary c.token s.region c.rest =
        (Lexeme.ofLiteral q body).behind 1 (.literal q) := by
      rw [hs, hrest]
      simp only [Lexeme.read, Lexeme.ofCode, q.ofChar?_char]
    refine m.readsLiteral_step hend hrest hd hl rfl rfl rfl ?_
    simp only [Lexeme.regionAfter, Lexeme.behind, List.getLastD_cons]
  · rintro hs hrest d t rfl hd
    have hl : Lexeme.read m.vocabulary c.token s.region c.rest = Lexeme.ofLiteral q (d :: t) := by
      rw [hs, hrest]
      rfl
    refine m.readsLiteral_step hend hrest hd hl (Nat.zero_add _).symm rfl rfl ?_
    rw [hs]

/-- Three backslashes before one quote and none before the next; and a single quote, carried over from the line
before, whose text ends in a backslash that is not taken itself. -/
theorem literal_ends_by_parity_runs :
    let m : Mode := {}
    let host := Host.faithful m.tabSize
    let body := "a\\\\\\\"b\" c".toList
    let c : Cursor := { passed := ['('], rest := Quote.double.char :: body }
    let carried : State := { m.start 0 with region := .literal .single }
    let d : Cursor := { passed := [' '], rest := "it\\'s\\\\\\".toList }
    (host.atLineEnd c = false ∧ (m.start 0).region = .code ∧
        IsLeast {i | Lexis.Literal.ClosesAt .double body i} 6 ∧
        (m.step host c (m.start 0)).cursor = c.advance 8 ∧
        (m.step host c (m.start 0)).state.region = .code) ∧
      host.atLineEnd d = false ∧ (∀ i, ¬Lexis.Literal.ClosesAt .single d.rest i) ∧
        (m.step host d carried).state.region = .literal .single := by
  intro m host body c carried d
  have hleast : IsLeast {i | Lexis.Literal.ClosesAt .double body i} 6 := by
    have hbefore : ∀ j < 6, ¬Lexis.Literal.ClosesAt .double body j := by decide +kernel
    have hat : Lexis.Literal.ClosesAt .double body 6 := by decide +kernel
    exact ⟨hat, fun j hj => Nat.not_lt.mp fun hlt => hbefore j hlt hj⟩
  have hnone (i : Nat) : ¬Lexis.Literal.ClosesAt .single d.rest i := by
    have hwithin : ∀ i < 8, ¬Lexis.Literal.ClosesAt .single d.rest i := by decide +kernel
    by_cases hi : i < 8
    · exact hwithin i hi
    · rintro ⟨hat, -⟩
      have hlen : d.rest.length = 8 := by decide +kernel
      rw [List.getElem?_eq_none (by omega)] at hat
      cases hat
  have hfresh := (m.literal_ends_by_parity host c (m.start 0) .double body rfl).1 rfl rfl
  have hcarried := (m.literal_ends_by_parity host d carried .single d.rest rfl).2 rfl rfl 'i' _ rfl
    (by decide +kernel)
  obtain ⟨hcursor, hregion⟩ := hfresh.closed 6 hleast
  refine ⟨⟨rfl, rfl, hleast, hcursor, hregion⟩, rfl, hnone, ?_⟩
  exact (hcarried.unclosed hnone).2.trans (if_pos (by decide +kernel))

end Mode

end BraceMode
