import BraceMode.Proofs.NumberGrammar
import BraceMode.Proofs.Walk

/-! Tokens stand on their own. Every rule of code that looks beyond the token it reads looks for a way to go
on, never for a reason to stop: so a token that is cut off from what follows it is read by the same rule, to
its end, and where no longer rule applied before, none applies to less text. Runs are taken as far as they
go, so two tokens of one run never stand side by side. -/

namespace BraceMode

/-- Tokens that do not belong together: not both are blanks, and not both are operators. -/
def Token.Apart (j k : Token) : Prop :=
  ¬(j.isBlank = true ∧ k.isBlank = true) ∧ ¬(j.style = some .operator ∧ k.style = some .operator)

/-! ## The measures of a text that is cut off -/

namespace Lexis

theorem run_take_run (p : Char → Bool) (t : List Char) : run p (t.take (run p t)) = run p t := by
  rw [take_run, run, List.takeWhile_takeWhile]
  simp [run]

theorem Literal.scan_take (q : Quote) (escaped : Bool) (t : List Char) :
    scan q escaped (t.take (scan q escaped t).1) = scan q escaped t := by
  induction t generalizing escaped with
  | nil => rfl
  | cons c t ih =>
    by_cases h : c = q.char ∧ escaped = false
    · simp [scan, h]
    · simp only [scan, h, if_false, List.take_succ_cons, ih]

theorem Comment.closing?_take {t : List Char} {n : Nat} (h : closing? t = some n) :
    closing? (t.take n) = some n := by
  fun_induction closing? t generalizing n with
  | case1 => cases h
  | case2 t =>
    cases h
    rfl
  | case3 c t hc ih =>
    obtain ⟨k, hk, rfl⟩ := Option.map_eq_some_iff.mp h
    rw [List.take_succ_cons, closing?, ih hk]
    · rfl
    · -- a terminator at the front of the text that is left would be one of the whole text
      intro u hstar hslash
      obtain ⟨w, rfl⟩ : '/' :: u <+: t := hslash ▸ List.take_prefix k t
      exact hc (u ++ w) hstar rfl

namespace Number

/-- What starts no literal starts none with less text behind it. -/
theorem starts_of_prefix {c : Char} {u t : List Char} (hu : u <+: t) (h : starts c t = false) :
    starts c u = false := by
  obtain ⟨rest, rfl⟩ := hu
  cases u with
  | nil =>
    rw [starts, Bool.or_eq_false_iff] at h
    simp [starts, h.1]
  | cons d u => exact h

/-- A literal that is cut off is a text of the grammar, and as such it is measured as a whole. -/
theorem tailSize_take {c : Char} {t : List Char} (h : starts c t = true) :
    starts c (t.take (tailSize c t)) = true ∧ tailSize c (t.take (tailSize c t)) = tailSize c t := by
  have hmem := (longest_of_starts h).1
  refine ⟨starts_of_mem_grammar hmem, ?_⟩
  rw [tailSize_of_mem_grammar hmem, List.length_take]
  exact Nat.min_eq_left (tailSize_le c t)

end Number

end Lexis

/-! ## A lexeme that is cut off -/

namespace Lexeme

theorem ofLiteral_take (q : Quote) (t : List Char) :
    ofLiteral q (t.take (ofLiteral q t).size) = ofLiteral q t := by
  simp only [ofLiteral, Lexis.Literal.scan_take]

theorem ofComment_take (t : List Char) : ofComment (t.take (ofComment t).size) = ofComment t := by
  cases h : Lexis.Comment.closing? t with
  | none => simp [ofComment, Lexis.Comment.size, h]
  | some n => simp [ofComment, Lexis.Comment.size, h, Lexis.Comment.closing?_take h]

/-- What opens no comment opens none with less text behind it. -/
theorem opensComment?_of_prefix {c : Char} {u t : List Char} (hu : u <+: t)
    (h : opensComment? (c :: t) = none) : opensComment? (c :: u) = none := by
  obtain ⟨rest, rfl⟩ := hu
  cases hopens : opensComment? (c :: u) with
  | none => rfl
  | some l =>
    rcases opensComment?_cases hopens with ⟨w, hcut, -⟩ | ⟨w, hcut, -⟩
    · cases hcut
      cases h
    · cases hcut
      cases h

theorem ofWord_take (v : Vocabulary) (c : Char) (t : List Char) :
    ofWord v [] c (t.take (Lexis.run Lexis.isNameChar t)) = ofWord v [] c t := by
  have htake : (c :: t.take (Lexis.run Lexis.isNameChar t)).take (1 + Lexis.run Lexis.isNameChar t) =
      (c :: t).take (1 + Lexis.run Lexis.isNameChar t) := by
    rw [Nat.add_comm, List.take_succ_cons, List.take_succ_cons, List.take_take, Nat.min_self]
  simp only [ofWord, Lexis.run_take_run, htake]

structure Plain (c : Char) (t : List Char) : Prop where
  quote : Quote.ofChar? c = none
  number : Lexis.Number.starts c t = false
  punct : Punct.ofChar? c = none
  comment : opensComment? (c :: t) = none

theorem Plain.of_prefix {c : Char} {u t : List Char} (h : Plain c t) (hu : u <+: t) : Plain c u where
  quote := h.quote
  number := Lexis.Number.starts_of_prefix hu h.number
  punct := h.punct
  comment := opensComment?_of_prefix hu h.comment

theorem Plain.ofCode_eq {c : Char} {t : List Char} (h : Plain c t) (v : Vocabulary) :
    ofCode v [] (c :: t) =
      if Lexis.isOperatorChar c then
        { size := 1 + Lexis.run Lexis.isOperatorChar t, style := some .operator }
      else ofWord v [] c t := by
  simp only [ofCode, h.quote, h.number, h.punct, h.comment, Bool.false_eq_true, if_false]

theorem ofCode_take_of_eq {v : Vocabulary} {c : Char} {t : List Char} {l : Lexeme} {n : Nat}
    (hl : ofCode v [] (c :: t) = l) (hn : l.size = 1 + n) (hcut : ofCode v [] (c :: t.take n) = l) :
    ofCode v [] ((c :: t).take (ofCode v [] (c :: t)).size) = ofCode v [] (c :: t) := by
  rw [hl, hn, Nat.add_comm, List.take_succ_cons, hcut]

/-- **A lexeme of code that is cut off is the same lexeme**, rule by rule. -/
theorem ofCode_take (v : Vocabulary) (c : Char) (t : List Char) :
    ofCode v [] ((c :: t).take (ofCode v [] (c :: t)).size) = ofCode v [] (c :: t) := by
  cases hq : Quote.ofChar? c with
  | some q =>
    have hl (u : List Char) : ofCode v [] (c :: u) = (ofLiteral q u).behind 1 (.literal q) := by
      simp only [ofCode, hq]
    refine ofCode_take_of_eq (hl t) rfl ?_
    rw [hl, ofLiteral_take]
  | none =>
    cases hstarts : Lexis.Number.starts c t with
    | true =>
      obtain ⟨hagain, htail⟩ := Lexis.Number.tailSize_take hstarts
      refine ofCode_take_of_eq (ofCode_of_starts hstarts v []) rfl ?_
      rw [ofCode_of_starts hagain, htail]
    | false =>
      cases hp : Punct.ofChar? c with
      | some p =>
        have hl {u : List Char} (hu : u <+: t) :
            ofCode v [] (c :: u) = { size := 1, mark := some (.punct p) } := by
          simp only [ofCode, hq, Lexis.Number.starts_of_prefix hu hstarts, hp, Bool.false_eq_true, if_false]
        exact ofCode_take_of_eq (hl List.prefix_rfl) rfl (hl (List.take_prefix 0 t))
      | none =>
        cases hopens : opensComment? (c :: t) with
        | some l =>
          have hl {u : List Char} (hu : u <+: t) (h : opensComment? (c :: u) = some l) :
              ofCode v [] (c :: u) = l := by
            simp only [ofCode, hq, Lexis.Number.starts_of_prefix hu hstarts, hp, h, Bool.false_eq_true, if_false]
          -- a block comment takes its own text behind two characters, a line comment all there is
          rcases opensComment?_cases hopens with ⟨u, hcut, rfl⟩ | ⟨u, hcut, rfl⟩
          · cases hcut
            refine ofCode_take_of_eq (hl List.prefix_rfl hopens) (Nat.add_assoc 1 1 _)
              (hl (List.take_prefix _ _) ?_)
            rw [Nat.add_comm, List.take_succ_cons, opensComment?, ofComment_take]
          · cases hcut
            refine ofCode_take_of_eq (hl List.prefix_rfl hopens) (Nat.add_assoc 1 1 _)
              (hl (List.take_prefix _ _) ?_)
            rw [Nat.add_comm, List.take_succ_cons, List.take_length]
            exact hopens
        | none =>
          have hplain : Plain c t := ⟨hq, hstarts, hp, hopens⟩
          have hless (n : Nat) : Plain c (t.take n) := hplain.of_prefix (List.take_prefix n t)
          cases hoperator : Lexis.isOperatorChar c with
          | true =>
            refine ofCode_take_of_eq ((hplain.ofCode_eq v).trans (if_pos hoperator)) rfl ?_
            rw [(hless _).ofCode_eq v, if_pos hoperator, Lexis.run_take_run]
          | false =>
            have hword : ¬Lexis.isOperatorChar c = true := by simp [hoperator]
            refine ofCode_take_of_eq ((hplain.ofCode_eq v).trans (if_neg hword)) rfl ?_
            rw [(hless _).ofCode_eq v, if_neg hword, ofWord_take]

/-- Only a run of operator characters is an operator. -/
theorem ofCode_of_style_operator {v : Vocabulary} {c : Char} {t : List Char}
    (h : (ofCode v [] (c :: t)).style = some .operator) :
    Lexis.isOperatorChar c = true ∧
      ofCode v [] (c :: t) = { size := 1 + Lexis.run Lexis.isOperatorChar t, style := some .operator } := by
  rcases ofCode_cases c t with ⟨l, hfixed, hl⟩ | hword
  · rw [hl] at h ⊢
    cases hfixed with
    | operator hoperator => exact ⟨hoperator, rfl⟩
    | _ => cases h
  · rw [hword] at h
    have hclass : v.classify (String.ofList ((c :: t).take (1 + Lexis.run Lexis.isNameChar t))) = .operator :=
      Option.some.inj h
    unfold Vocabulary.classify at hclass
    split at hclass
    · cases hclass
    · split at hclass <;> cases hclass

end Lexeme

/-! ## A piece alone, and pieces side by side -/

/-- The text of a piece of code, read alone, is that piece. -/
theorem pieces_first_text (v : Vocabulary) {t : List Char} (ht : t ≠ []) :
    let p := Piece.first v .code t
    pieces v .code p.text = [p] := by
  intro p
  obtain ⟨c, t, rfl⟩ := List.exists_cons_of_ne_nil ht
  have hne : p.text ≠ [] := Piece.first_text_ne_nil v .code ht
  cases hc : Text.isBlank c with
  | true =>
    have hp : p = ⟨Text.lead (c :: t), none⟩ := Piece.first_of_isBlank v .code t hc
    rw [hp] at hne ⊢
    have halone := pieces_lead_append v .code [] hne (Text.allBlank_lead (c :: t)) rfl
    rwa [List.append_nil, pieces_nil] at halone
  | false =>
    let l := Lexeme.ofCode v [] (c :: t)
    have hp : p = ⟨(c :: t).take l.size, some l⟩ := Piece.first_of_not_isBlank v .code t hc
    obtain ⟨n, hn⟩ : ∃ n, l.size = n + 1 := Nat.exists_eq_add_one.mpr (Lexeme.ofCode_size_pos v [] c t)
    have hagain : Lexeme.read v [] .code ((c :: t).take l.size) = l := Lexeme.ofCode_take v c t
    have hlength : l.size = ((c :: t).take l.size).length := by
      rw [List.length_take, Nat.min_eq_left (Lexeme.ofCode_size_le v c t)]
    rw [hp]
    rw [hn, List.take_succ_cons] at hagain hlength ⊢
    exact pieces_eq_singleton hc hagain (hn.trans hlength)

namespace Piece

/-- Blanks are taken as far as they go. -/
theorem not_allBlank_behind (v : Vocabulary) (r r' : Region) {c d : Char} {t u : List Char}
    (hblank : Text.allBlank (first v r (c :: t)).text = true)
    (hu : (c :: t).drop (first v r (c :: t)).text.length = d :: u) :
    Text.allBlank (first v r' (d :: u)).text = false := by
  cases hc : Text.isBlank c with
  | true =>
    rw [first_of_isBlank v r t hc] at hu
    exact not_allBlank_first v r' u (Lexis.not_of_drop_run hu)
  | false =>
    rw [not_allBlank_first v r t hc] at hblank
    cases hblank

/-- A piece that is an operator is a run of operator characters. -/
theorem first_of_style_operator {v : Vocabulary} {r : Region} {c : Char} {t : List Char}
    (h : (first v r (c :: t)).style = some .operator) :
    Lexis.isOperatorChar c = true ∧
      (first v r (c :: t)).text = (c :: t).take (1 + Lexis.run Lexis.isOperatorChar t) := by
  cases hc : Text.isBlank c with
  | true =>
    rw [first_of_isBlank v r t hc] at h
    cases h
  | false =>
    rw [first_of_not_isBlank v r t hc] at h ⊢
    cases r with
    | literal q => cases h
    | comment => cases h
    | code =>
      obtain ⟨hoperator, hl⟩ := Lexeme.ofCode_of_style_operator (v := v) h
      rw [Lexeme.read, hl]
      exact ⟨hoperator, rfl⟩

/-- Operator characters are taken as far as they go. -/
theorem style_behind_operator (v : Vocabulary) (r r' : Region) {c d : Char} {t u : List Char}
    (hoperator : (first v r (c :: t)).style = some .operator)
    (hu : (c :: t).drop (first v r (c :: t)).text.length = d :: u) :
    (first v r' (d :: u)).style ≠ some .operator := by
  obtain ⟨-, htext⟩ := first_of_style_operator hoperator
  have hbehind : t.drop (Lexis.run Lexis.isOperatorChar t) = d :: u := by
    rw [htext, List.length_take, ← List.drop_eq_drop_min, Nat.add_comm, List.drop_succ_cons] at hu
    exact hu
  intro hagain
  obtain ⟨hd, -⟩ := first_of_style_operator hagain
  rw [Lexis.not_of_drop_run hbehind] at hd
  cases hd

end Piece

/-- **Tokens of a line that stand side by side do not belong together.** -/
theorem isChain_place_pieces (v : Vocabulary) (start : Nat) (r : Region) (t : List Char) :
    (place start (pieces v r t)).IsChain Token.Apart := by
  fun_induction pieces v r t generalizing start with
  | case1 => exact .nil
  | case2 r t ht p ih =>
    obtain ⟨c, t, rfl⟩ := List.exists_cons_of_ne_nil ht
    rw [place]
    cases hrest : (c :: t).drop p.text.length with
    | nil =>
      rw [pieces_nil]
      exact .singleton _
    | cons d u =>
      have hmore := ih (start + Text.byteSize p.text)
      rw [hrest] at hmore
      rw [pieces_of_ne_nil v _ (List.cons_ne_nil d u)] at hmore ⊢
      refine .cons_cons ⟨?_, ?_⟩ hmore
      · rintro ⟨hblank, hagain⟩
        rw [Token.isBlank, Piece.toToken, Piece.not_allBlank_behind v r _ hblank hrest] at hagain
        cases hagain
      · rintro ⟨hoperator, hagain⟩
        exact Piece.style_behind_operator v r _ hoperator hrest hagain

/-! ## The tokens of a line -/

namespace Mode

variable (m : Mode)

/-- Every token that the loop yields is the first piece of what it still has to read. -/
theorem exists_first_of_mem_momentsFrom {c : Cursor} {s : State} {mo : Moment}
    (h : mo ∈ m.momentsFrom c s) :
    ∃ rest start, rest ≠ [] ∧
      let p := Piece.first m.vocabulary mo.before.region rest
      mo.token = p.toToken start ∧ mo.after.region = p.regionAfter mo.before.region := by
  induction hn : c.rest.length using Nat.strongRecOn generalizing c s with
  | _ n ih =>
    by_cases hc : c.rest = []
    · rw [m.momentsFrom_of_rest_eq_nil s hc] at h
      cases h
    · rw [m.momentsFrom_of_rest_ne_nil s hc] at h
      rcases List.mem_cons.mp h with rfl | h
      · refine ⟨c.rest, _, hc, rfl, ?_⟩
        rw [Piece.region_act, region_prepare]
      · have hlt := Piece.length_drop_first_lt m.vocabulary s.region hc
        exact ih _ (hn ▸ hlt) h rfl

/-- **Tokens are self-delimiting.** Take any token of a line that was read in code, and read its text alone, as
a line of its own, from any state in code: it is one token over the whole line with the same style, and it
leaves the same region behind. And no two tokens side by side are both blanks or both operators. -/
theorem tokens_are_self_delimiting (s : State) (t : List Char) :
    (∀ mo ∈ m.momentsFrom (.ofLine t) s, mo.before.region = .code → ∀ u : State, u.region = .code →
      let alone := m.readLine u mo.token.text
      alone.tokens = [⟨mo.token.text, mo.token.style, 0, Text.byteSize mo.token.text⟩] ∧
        alone.state.region = mo.after.region) ∧
    (m.readLine s t).tokens.IsChain Token.Apart := by
  constructor
  · intro mo hmo hbefore u hu alone
    obtain ⟨rest, start, hrest, htoken, hafter⟩ := m.exists_first_of_mem_momentsFrom hmo
    rw [hbefore] at htoken hafter
    have hpieces : pieces m.vocabulary u.region mo.token.text =
        [Piece.first m.vocabulary .code rest] := by
      rw [hu, htoken]
      exact pieces_first_text m.vocabulary hrest
    constructor
    · rw [m.readLine_tokens_of_pieces hpieces, htoken]
      rfl
    · rw [m.region_readLine, hpieces, hu, hafter]
      rfl
  · rw [m.readLine_tokens]
    exact isChain_place_pieces m.vocabulary 0 s.region t

/-- A number in front of an exponent without digits, read alone inside a bracket; and an open literal. -/
theorem tokens_are_self_delimiting_cut :
    let m : Mode := {}
    let t := "a+=1e+ 'b\\".toList
    let moments := m.momentsFrom (.ofLine t) (m.start 0)
    let u : State := { m.start 2 with nesting := { root := .root 2, inner := [.opened 2 5 .bracket] } }
    (∃ mo ∈ moments, mo.before.region = .code ∧ mo.token.text = ['1'] ∧
        (m.readLine u mo.token.text).tokens = [⟨['1'], some .number, 0, 1⟩]) ∧
      (∃ mo ∈ moments, mo.before.region = .code ∧ mo.after.region = .literal .single ∧
        (m.readLine u mo.token.text).state.region = .literal .single) ∧
      (m.readLine (m.start 0) t).tokens.IsChain Token.Apart := by
  intro m t moments u
  obtain ⟨halone, hapart⟩ := m.tokens_are_self_delimiting (m.start 0) t
  obtain ⟨mo, hmo, hbefore, htext, hstyle⟩ :
      ∃ mo ∈ moments, mo.before.region = .code ∧ mo.token.text = ['1'] ∧ mo.token.style = some .number := by
    decide +kernel
  obtain ⟨last, hlast, hcode, hopen⟩ :
      ∃ mo ∈ moments, mo.before.region = .code ∧ mo.after.region = .literal .single := by
    decide +kernel
  refine ⟨⟨mo, hmo, hbefore, htext, ?_⟩, ⟨last, hlast, hcode, hopen, ?_⟩, hapart⟩
  · rw [(halone mo hmo hbefore u rfl).1, htext, hstyle]
    rfl
  · rw [(halone last hlast hcode u rfl).2, hopen]

end Mode

end BraceMode
