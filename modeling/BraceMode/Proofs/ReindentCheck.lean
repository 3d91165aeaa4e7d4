import Mathlib.Data.List.Forall2
import BraceMode.Proofs.Idempotence
import BraceMode.Proofs.Outcomes

/-! What checking a file tells about re-indenting it. The check compares the lines of the source with those
of the rewritten text, pair by pair, while re-indenting writes the text itself. Lines do not show the
carriage returns that a line feed takes along, and a blank last line that goes has nothing to be compared
with. So a file that would not change always passes, but a file may pass and still change in these two
ways, and in no other. -/

namespace BraceMode

namespace Text

def returnFeed : List Char := ['\r', '\n']

def lastPart (t : List Char) : List Char := (t.reverse.takeWhile (· != '\n')).reverse

/-- What is left of a text's last part: nothing when it is blank. -/
def keptPart (part : List Char) : List Char := if allBlank part then [] else part

/-- The text with bare line feeds and without a blank end. -/
def tidied (t : List Char) : List Char := unlines (endedLines t) ++ keptPart (lastPart t)

theorem keptPart_of_allBlank {part : List Char} (h : allBlank part = true) : keptPart part = [] := if_pos h

theorem keptPart_of_not_allBlank {part : List Char} (h : allBlank part = false) : keptPart part = part := by
  simp [keptPart, h]

theorem newline_not_mem_keptPart {part : List Char} (h : '\n' ∉ part) : '\n' ∉ keptPart part := by
  unfold keptPart
  split
  · simp
  · exact h

theorem lastPart_unlines_append (ls : List (List Char)) {tail : List Char} (ht : '\n' ∉ tail) :
    lastPart (unlines ls ++ tail) = tail := by
  have htail : ∀ c ∈ tail.reverse, (c != '\n') = true := by
    intro c hc
    rw [bne_iff_ne]
    rintro rfl
    exact ht (List.mem_reverse.mp hc)
  have hlines : (unlines ls).reverse.takeWhile (· != '\n') = [] := by
    rcases List.eq_nil_or_concat ls with rfl | ⟨init, l, rfl⟩
    · rfl
    · simp [unlines]
  rw [lastPart, List.reverse_append, List.takeWhile_append_of_pos htail, hlines, List.append_nil,
    List.reverse_reverse]

theorem tidied_unlines_append {ls : List (List Char)} {tail : List Char} (hls : ∀ l ∈ ls, '\n' ∉ l)
    (ht : '\n' ∉ tail) :
    tidied (unlines ls ++ tail) = unlines (ls.map dropReturn) ++ keptPart tail := by
  rw [tidied, endedLines_unlines_append hls ht, lastPart_unlines_append ls ht]

/-- What stands in front of a line feed is the end of a line. -/
theorem append_newline_isInfix_iff {x tail : List Char} {ls : List (List Char)} (hx : '\n' ∉ x)
    (hls : ∀ l ∈ ls, '\n' ∉ l) (ht : '\n' ∉ tail) :
    x ++ ['\n'] <:+: unlines ls ++ tail ↔ ∃ l ∈ ls, x <:+ l := by
  constructor
  · rintro ⟨a, b, h⟩
    obtain ⟨as, atail, rfl, has, hatail⟩ := exists_eq_unlines_append a
    obtain ⟨bs, btail, rfl, hbs, hbtail⟩ := exists_eq_unlines_append b
    have hcut : unlines (as ++ (atail ++ x) :: bs) ++ btail = unlines ls ++ tail := by
      rw [← h]
      simp [unlines]
    have hmem : ∀ l ∈ as ++ (atail ++ x) :: bs, '\n' ∉ l := by
      intro l hl
      rcases List.mem_append.mp hl with hl | hl
      · exact has l hl
      · rcases List.mem_cons.mp hl with rfl | hl
        · simp [hatail, hx]
        · exact hbs l hl
    obtain ⟨rfl, -⟩ := unlines_append_inj hmem hls hbtail ht hcut
    exact ⟨atail ++ x, by simp, List.suffix_append atail x⟩
  · rintro ⟨l, hl, y, rfl⟩
    obtain ⟨before, after, rfl⟩ := List.append_of_mem hl
    exact ⟨unlines before ++ y, unlines after ++ tail, by simp [unlines]⟩

theorem dropReturn_eq_self_iff (l : List Char) : dropReturn l = l ↔ l.getLast? ≠ some '\r' := by
  refine ⟨fun h hr => ?_, dropReturn_eq_self⟩
  obtain ⟨k, rfl⟩ := List.getLast?_eq_some_iff.mp hr
  simp [dropReturn] at h

/-- A text is tidy when no line feed stands behind a carriage return and its last line is not a blank one
without a line feed. -/
theorem tidied_eq_self_iff (t : List Char) :
    tidied t = t ↔ ¬returnFeed <:+: t ∧ endsBlank t = false := by
  obtain ⟨ls, tail, rfl, hls, ht⟩ := exists_eq_unlines_append t
  have hreturn : ¬returnFeed <:+: unlines ls ++ tail ↔ ls.map dropReturn = ls := by
    rw [show returnFeed = ['\r'] ++ ['\n'] from rfl, append_newline_isInfix_iff (by simp) hls ht]
    simp only [List.singleton_suffix_iff_getLast?_eq_some, not_exists, not_and,
      ← ne_eq, ← dropReturn_eq_self_iff]
    conv => rhs; rhs; rw [← List.map_id ls]
    rw [List.map_inj_left]
    rfl
  have hblank : endsBlank (unlines ls ++ tail) = false ↔ keptPart tail = tail := by
    rw [← Bool.not_eq_true, endsBlank_unlines_append hls ht, keptPart]
    cases hb : allBlank tail with
    | true => simp [eq_comm]
    | false => simp
  rw [tidied_unlines_append hls ht, hreturn, hblank]
  constructor
  · exact unlines_append_inj (not_mem_of_mem_map_dropReturn hls) hls (newline_not_mem_keptPart ht) ht
  · rintro ⟨hlines, htail⟩
    rw [hlines, htail]

/-- Two carriage returns in front of a line feed leave one at the end of a line. -/
theorem not_doubleReturn_isInfix_iff {ls : List (List Char)} {tail : List Char}
    (hls : ∀ l ∈ ls, '\n' ∉ l) (ht : '\n' ∉ tail) :
    ¬doubleReturn <:+: unlines ls ++ tail ↔ ∀ l ∈ ls.map dropReturn, l.getLast? ≠ some '\r' := by
  refine ⟨getLast?_dropReturn_ne, fun h hinfix => ?_⟩
  obtain ⟨l, hl, k, rfl⟩ := (append_newline_isInfix_iff (x := ['\r', '\r']) (by simp) hls ht).mp hinfix
  refine h _ (List.mem_map_of_mem hl) ?_
  simp [dropReturn, List.getLast?_append]

end Text

namespace Tool

theorem changedFrom_eq_nil_iff (number : Nat) (ps : List (List Char × List Char)) :
    changedFrom number ps = [] ↔ ∀ p ∈ ps, p.1 = p.2 := by
  induction ps generalizing number with
  | nil => simp [changedFrom]
  | cons p ps ih =>
    obtain ⟨before, after⟩ := p
    by_cases h : before = after
    · simp [changedFrom, h, ih]
    · simp [changedFrom, h]

theorem changedFrom_append_eq_nil_iff (number : Nat) (ps qs : List (List Char × List Char)) :
    changedFrom number (ps ++ qs) = [] ↔ changedFrom number ps = [] ∧ changedFrom number qs = [] := by
  simp only [changedFrom_eq_nil_iff, List.forall_mem_append]

theorem changedFrom_zip_eq_nil_iff (number : Nat) {xs ys : List (List Char)}
    (h : xs.length = ys.length) : changedFrom number (xs.zip ys) = [] ↔ xs = ys := by
  have hpairs : xs = ys ↔ List.Forall₂ (· = ·) xs ys := by rw [List.forall₂_eq_eq_eq]
  rw [changedFrom_eq_nil_iff, hpairs, List.forall₂_iff_zip]
  exact ⟨fun hp => ⟨h, fun hab => hp _ hab⟩, fun hp p hmem => hp.2 hmem⟩

theorem changedLines_self (t : List Char) : changedLines t t = [] :=
  (changedFrom_zip_eq_nil_iff 1 rfl).mpr rfl

end Tool

namespace Mode

/-- Lines compare equal to their rewritten ones exactly when rewriting keeps them and none of them ends in
a carriage return, which the cut would take away. -/
theorem eq_map_dropReturn_reindentFrom_iff (m : Mode) (s : State) (ts : List (List Char)) :
    ts = (m.reindentFrom s ts).map Text.dropReturn ↔
      m.reindentFrom s ts = ts ∧ ∀ t ∈ ts, t.getLast? ≠ some '\r' := by
  constructor
  · intro h
    have hreturn : ∀ w ∈ m.reindentFrom s ts, w.getLast? ≠ some '\r' :=
      m.getLast?_ne_of_reindentFrom_dropReturn s (by rw [← h])
    rw [Text.map_dropReturn_eq_self hreturn] at h
    exact ⟨h.symm, h ▸ hreturn⟩
  · rintro ⟨hself, hreturn⟩
    rw [hself, Text.map_dropReturn_eq_self hreturn]

/-- A last line compares equal to its rewritten one when it is kept, and also when it goes. -/
theorem changedFrom_lastLine_eq_nil_iff (m : Mode) (s : State) (number : Nat) (tail : List Char) :
    Tool.changedFrom number ((Text.lastLine tail).zip (Text.lastLine (m.reindentLine s tail))) = [] ↔
      m.reindentLine s tail = Text.keptPart tail := by
  unfold Text.keptPart
  cases hb : Text.allBlank tail with
  | true => simp [(m.reindentLine_eq_nil_iff s tail).mpr hb, Text.lastLine, Tool.changedFrom]
  | false =>
    have htail : tail ≠ [] := by
      rintro rfl
      cases hb
    have hw := m.reindentLine_ne_nil s hb
    simp [Text.lastLine, htail, hw, Tool.changedFrom, eq_comm]

/-- No line compares unequal exactly when re-indenting does no more than tidy the text, and no line feed
stands behind two carriage returns. -/
theorem changedLines_reindent_eq_nil_iff (m : Mode) (t : List Char) :
    Tool.changedLines t (m.reindent t) = [] ↔
      m.reindent t = Text.tidied t ∧ ¬Text.doubleReturn <:+: t := by
  obtain ⟨ls, tail, rfl, hls, ht⟩ := Text.exists_eq_unlines_append t
  let ts := ls.map Text.dropReturn
  let ws := m.reindentFrom (m.start 0) ts
  let w := m.reindentLine (m.feed (m.start 0) ws) tail
  have hts : ∀ t ∈ ts, '\n' ∉ t := Text.not_mem_of_mem_map_dropReturn hls
  have hws : ∀ w ∈ ws, '\n' ∉ w := m.newline_not_mem_reindentFrom (m.start 0) hts
  have hw : '\n' ∉ w := m.newline_not_mem_reindentLine _ ht
  have hwritten : m.reindent (Text.unlines ls ++ tail) = Text.unlines ws ++ w :=
    m.reindent_unlines_append hls ht
  have hchanged : Tool.changedLines (Text.unlines ls ++ tail) (Text.unlines ws ++ w) = [] ↔
      (ws = ts ∧ ∀ t ∈ ts, t.getLast? ≠ some '\r') ∧ w = Text.keptPart tail := by
    -- Ended lines are all compared. The last part is not, when it is blank: the other side has none.
    have hlen : ts.length = (ws.map Text.dropReturn).length := by simp [ws]
    rw [Tool.changedLines, Text.lines_unlines_append hls ht, Text.lines_unlines_append hws hw,
      List.zip_append hlen, Tool.changedFrom_append_eq_nil_iff, Tool.changedFrom_zip_eq_nil_iff 1 hlen,
      m.eq_map_dropReturn_reindentFrom_iff, m.changedFrom_lastLine_eq_nil_iff]
  have htidied : Text.unlines ws ++ w = Text.tidied (Text.unlines ls ++ tail) ↔
      ws = ts ∧ w = Text.keptPart tail := by
    rw [Text.tidied_unlines_append hls ht]
    refine ⟨Text.unlines_append_inj hws hts hw (Text.newline_not_mem_keptPart ht), ?_⟩
    rintro ⟨hlines, hlast⟩
    rw [hlines, hlast]
  rw [hwritten, hchanged, htidied, Text.not_doubleReturn_isInfix_iff hls ht, and_right_comm]

end Mode

namespace Tool

/-- **What the check of a file tells.** Checking and writing return the same number `n`, and the check
succeeds exactly when it is 0. It is 0 when the text that would be written is the file, byte for byte. When
it is 0, the text written is the file exactly if no line feed of the file stands behind a carriage return
and the file does not end with a blank line without a line feed. In full, `n` is 0 exactly when writing
does no more than tidy the file and no line feed of it stands behind two carriage returns. -/
theorem reindentCommand_check_iff (m : Mode) (w : World) (verbose : Bool) (file : String)
    {bytes : List UInt8} {source : List Char} (hfile : w.find? file = some (.file bytes))
    (hsource : Text.decode? bytes = some source) :
    let checked := (reindentCommand m w verbose true file).run .unlimited ()
    let written := (reindentCommand m w verbose false file).run .unlimited ()
    let run := ((Command.reindent file true).script m w verbose).run .unlimited ()
    ∃ n, checked.result = .ok n ∧ written.result = .ok n ∧
      run.result = (if n = 0 then .ok () else .error (.checkFailed n)) ∧
      (written.out = bytes → n = 0) ∧
      (n = 0 → (written.out = bytes ↔
        ¬Text.returnFeed <:+: source ∧ Text.endsBlank source = false)) ∧
      (n = 0 ↔ written.out = Text.encode (Text.tidied source) ∧ ¬Text.doubleReturn <:+: source) := by
  intro checked written run
  let changed := changedLines source (m.reindent source)
  have hchecked : checked.result = .ok changed.length :=
    congrArg Outcome.result (outcome_reindentCommand m verbose true hfile hsource)
  have hwritten : written = _ := outcome_reindentCommand m verbose false hfile hsource
  have hrun : run.result =
      if true = true ∧ 0 < changed.length then .error (.checkFailed changed.length) else .ok () :=
    result_script_reindent m verbose true hfile hsource
  have hout : written.out = Text.encode (m.reindent source) := congrArg Outcome.out hwritten
  have hzero : changed.length = 0 ↔
      m.reindent source = Text.tidied source ∧ ¬Text.doubleReturn <:+: source := by
    rw [List.length_eq_zero_iff]
    exact m.changedLines_reindent_eq_nil_iff source
  have hbytes : written.out = bytes ↔ m.reindent source = source := by
    rw [hout, ← Text.encode_of_decode? hsource, Text.encode_inj]
  refine ⟨changed.length, hchecked, congrArg Outcome.result hwritten, ?_, ?_, ?_, ?_⟩
  · rw [hrun]
    by_cases hn : changed.length = 0
    · simp [hn]
    · simp [hn, Nat.pos_iff_ne_zero]
  · intro h
    simp only [changed, hbytes.mp h, changedLines_self, List.length_nil]
  · intro h
    rw [hbytes, (hzero.mp h).1]
    exact Text.tidied_eq_self_iff source
  · rw [hzero, hout, Text.encode_inj]

def World.holding (t : List Char) : World where
  find? _ := some (.file (Text.encode t))

/-- A block that stands where it should passes the check and is written as it is. -/
theorem reindentCommand_check_iff_block :
    let m : Mode := {}
    let source := "\x7b\n  é\n\x7d\n".toList
    let w : World := .holding source
    w.find? "a" = some (.file (Text.encode source)) ∧
      Text.decode? (Text.encode source) = some source ∧
      ((reindentCommand m w true false "a").run .unlimited ()).out = Text.encode source ∧
      (((Command.reindent "a" true).script m w true).run .unlimited ()).result = .ok () := by
  intro m source w
  have hsource : Text.decode? (Text.encode source) = some source := by decide +kernel
  obtain ⟨n, hchecked, -, hrun, -, hsame, -⟩ := reindentCommand_check_iff m w true "a" rfl hsource
  have hnone : ((reindentCommand m w true true "a").run .unlimited ()).result = .ok 0 := by decide +kernel
  obtain rfl : n = 0 := Except.ok.inj (hchecked.symm.trans hnone)
  have htidy : ¬Text.returnFeed <:+: source ∧ Text.endsBlank source = false := by decide +kernel
  exact ⟨rfl, hsource, (hsame rfl).mpr htidy, hrun⟩

/-- A blank last line without a line feed goes, and the check does not tell. -/
theorem reindentCommand_check_blank_end :
    let m : Mode := {}
    let source := "x\n ".toList
    let w : World := .holding source
    ((reindentCommand m w false true "a").run .unlimited ()).result = .ok 0 ∧
      (((Command.reindent "a" true).script m w false).run .unlimited ()).result = .ok () ∧
      ((reindentCommand m w false false "a").run .unlimited ()).out = Text.encode "x\n".toList ∧
      ((reindentCommand m w false false "a").run .unlimited ()).out ≠ Text.encode source := by
  decide +kernel

end Tool

end BraceMode
