import BraceMode.Proofs.Brackets
import BraceMode.Proofs.Rewritten

/-! Lines in block style, and what the tokens of such a line do to the open frames. A bracket that stays
open is the last thing said on its line, and one from an earlier line is closed by the first. So behind
that first token the frames of earlier lines are out of reach, every frame opened on the line carries the
line's own indentation, and at most one of them, still pending, is left at its end. -/

namespace BraceMode

def closesWithin : List FrameKind → List Token → Bool
  | [], _ => true
  | _ :: _, [] => false
  | kind :: rest, k :: ks => closesWithin (matchToken (kind :: rest) k) ks

/-- Whether `k` closes a bracket of `stack`, which was open before the tokens `pre`: none of those opened
since is open any more. -/
def closesEarlier (stack : List FrameKind) (pre : List Token) (k : Token) : Bool :=
  (pre.foldl matchToken []).isEmpty && (pre.foldl matchToken stack).head?.any k.closes

/-- A line in block style, read in state `s`: unless it is blank it starts in code, a bracket that it leaves
open is followed by blanks and comments only, and one of an earlier line is closed behind blanks only. -/
structure Mode.BlockLine (m : Mode) (s : State) (l : List Char) : Prop where
  code : Text.allBlank l = false → s.region = .code
  opensLast : ∀ pre k post, (m.readLine s l).tokens = pre ++ k :: post → ∀ kind ∈ k.opens?,
    closesWithin [kind] post = true ∨ ∀ j ∈ post, j.isQuiet = true
  closesFirst : ∀ pre k post, (m.readLine s l).tokens = pre ++ k :: post →
    closesEarlier s.kinds pre k = true → ∀ j ∈ pre, j.isBlank = true

def Mode.BlockStyle (m : Mode) (t : List Char) : Prop :=
  ∀ before l after, Text.lines t = before ++ l :: after → m.BlockLine (m.feed (m.start 0) before) l

/-! ## Block style can be checked -/

/-- Whatever is said of every element and the two sides of it is said place by place. -/
theorem forall_split_iff {α : Type} {P : List α → α → List α → Prop} (xs : List α) :
    (∀ pre x post, xs = pre ++ x :: post → P pre x post) ↔
      ∀ i : Fin xs.length, P (xs.take i) (xs.get i) (xs.drop (i + 1)) := by
  constructor
  · intro h i
    exact h _ _ _ (by simp)
  · rintro h pre x post rfl
    have hat := h ⟨pre.length, by simp⟩
    simpa using hat

instance decidableForallSplit {α : Type} {P : List α → α → List α → Prop}
    [∀ pre x post, Decidable (P pre x post)] (xs : List α) :
    Decidable (∀ pre x post, xs = pre ++ x :: post → P pre x post) :=
  decidable_of_iff' _ (forall_split_iff xs)

instance (m : Mode) (s : State) (l : List Char) : Decidable (m.BlockLine s l) :=
  decidable_of_iff
    ((Text.allBlank l = false → s.region = .code) ∧
      (∀ pre k post, (m.readLine s l).tokens = pre ++ k :: post → ∀ kind ∈ k.opens?,
        closesWithin [kind] post = true ∨ ∀ j ∈ post, j.isQuiet = true) ∧
      ∀ pre k post, (m.readLine s l).tokens = pre ++ k :: post →
        closesEarlier s.kinds pre k = true → ∀ j ∈ pre, j.isBlank = true)
    ⟨fun ⟨hcode, hopen, hclose⟩ => ⟨hcode, hopen, hclose⟩,
      fun ⟨hcode, hopen, hclose⟩ => ⟨hcode, hopen, hclose⟩⟩

instance (m : Mode) (t : List Char) : Decidable (m.BlockStyle t) :=
  inferInstanceAs (Decidable (∀ before l after, Text.lines t = before ++ l :: after →
    m.BlockLine (m.feed (m.start 0) before) l))

/-! ## The rest of a line -/

/-- What tokens keep to when the line has opened `own` and `total` is open in all: no bracket but the last
stays open, and none from an earlier line is closed. -/
structure Orderly (own total : List FrameKind) (ks : List Token) : Prop where
  opensLast : ∀ pre k post, ks = pre ++ k :: post → ∀ kind ∈ k.opens?,
    closesWithin [kind] post = true ∨ ∀ j ∈ post, j.isQuiet = true
  keepsEarlier : ∀ pre k post, ks = pre ++ k :: post → pre.foldl matchToken own = [] →
    (pre.foldl matchToken total).head?.any k.closes = false

theorem Orderly.tail {own total : List FrameKind} {k : Token} {ks : List Token}
    (h : Orderly own total (k :: ks)) : Orderly (matchToken own k) (matchToken total k) ks := by
  constructor
  · intro pre j post hks
    exact h.opensLast (k :: pre) j post (by rw [hks]; rfl)
  · intro pre j post hks
    exact h.keepsEarlier (k :: pre) j post (by rw [hks]; rfl)

/-- The frames in the middle of a line: those of the line itself, `mine`, stand on those of earlier lines,
`old`. All of `mine` is closed by the tokens `ks` to come, but for a bracket behind which nothing stands. -/
structure OnLine (root : Frame) (old : List Frame) (indent : Int) (mine : List Frame) (ks : List Token)
    (n : Nesting) (i : Int) : Prop where
  nesting : n = ⟨root, mine ++ old⟩
  at_indent : i = indent
  indented : ∀ f ∈ mine, f.indented = indent
  due : closesWithin (mine.map Frame.kind) ks = true ∨
    ∃ f, mine = [f] ∧ f.alignment = .pending ∧ ∀ j ∈ ks, j.isQuiet = true

theorem Frame.align_of_hanging {f : Frame} (h : f.alignment = .hanging) : f.align = f := by
  obtain ⟨indented, column, kind, alignment⟩ := f
  cases h
  rfl

/-- A nesting of hanging frames has nothing to settle. -/
theorem Nesting.modifyTop_align_of_hanging {root : Frame} {inner : List Frame}
    (hroot : root.alignment = .hanging) (hinner : ∀ f ∈ inner, f.alignment = .hanging) :
    Nesting.modifyTop ⟨root, inner⟩ .align = ⟨root, inner⟩ := by
  cases inner with
  | nil => simp only [modifyTop, Frame.align_of_hanging hroot]
  | cons f fs => simp only [modifyTop, Frame.align_of_hanging (hinner f List.mem_cons_self)]

@[simp] theorem closesWithin_nil (ks : List Token) : closesWithin [] ks = true := by cases ks <;> rfl

/-- A token that changes nothing is not the one that closes. -/
theorem closesWithin_of_matchToken_eq {stack : List FrameKind} {k : Token} {ks : List Token}
    (h : closesWithin stack (k :: ks) = true) (hk : matchToken stack k = stack) :
    closesWithin stack ks = true := by
  cases stack with
  | nil => exact closesWithin_nil ks
  | cons kind rest =>
    rw [closesWithin, hk] at h
    exact h

section

variable {root : Frame} {old mine : List Frame} {indent i i' : Int} {n n' : Nesting} {k : Token}
  {ks : List Token}

/-- Settling the alignment of the top frame touches frames of the line only. -/
theorem OnLine.modifyTop_align (h : OnLine root old indent mine ks n i)
    (hroot : root.alignment = .hanging) (hold : ∀ f ∈ old, f.alignment = .hanging) :
    ∃ mine', n.modifyTop .align = ⟨root, mine' ++ old⟩ ∧ mine'.map Frame.kind = mine.map Frame.kind ∧
      ∀ f ∈ mine', f.indented = indent := by
  rw [h.nesting]
  cases mine with
  | nil => exact ⟨[], Nesting.modifyTop_align_of_hanging hroot hold, rfl, by simp⟩
  | cons f fs =>
    refine ⟨f.align :: fs, rfl, rfl, ?_⟩
    exact List.forall_mem_cons.mpr ⟨h.indented f List.mem_cons_self,
      fun g hg => h.indented g (List.mem_cons_of_mem f hg)⟩

/-- A token that is neither blank nor a comment finds no bracket that is to stay open. -/
theorem OnLine.closesWithin_of_not_isQuiet (h : OnLine root old indent mine (k :: ks) n i)
    (hk : k.isQuiet = false) : closesWithin (mine.map Frame.kind) (k :: ks) = true := by
  rcases h.due with hdue | ⟨f, -, -, hquiet⟩
  · exact hdue
  · have := hquiet k List.mem_cons_self
    rw [hk] at this
    cases this

/-- One token of an orderly line. -/
theorem OnLine.step (h : OnLine root old indent mine (k :: ks) n i) (ha : Acts k n i n' i')
    (hroot : root.alignment = .hanging) (hold : ∀ f ∈ old, f.alignment = .hanging)
    (ho : Orderly (mine.map Frame.kind) (n.inner.map Frame.kind) (k :: ks)) :
    ∃ mine', OnLine root old indent mine' ks n' i' ∧
      mine'.map Frame.kind = matchToken (mine.map Frame.kind) k := by
  cases ha with
  | quiet hk hpunct =>
    have hsame := matchToken_of_punct?_eq_none hpunct (mine.map Frame.kind)
    refine ⟨mine, ⟨h.nesting, h.at_indent, h.indented, ?_⟩, hsame.symm⟩
    rcases h.due with hdue | ⟨f, hf, hpending, hquiet⟩
    · exact .inl (closesWithin_of_matchToken_eq hdue hsame)
    · exact .inr ⟨f, hf, hpending, fun j hj => hquiet j (List.mem_cons_of_mem k hj)⟩
  | plain hk hopen hclose =>
    obtain ⟨mine', hnesting, hkinds, hindented⟩ := h.modifyTop_align hroot hold
    have hhead : (mine.map Frame.kind).head?.any k.closes = false := by
      cases mine with
      | nil => rfl
      | cons f fs =>
        rw [h.nesting] at hclose
        exact hclose
    have hsame := matchToken_of_plain hopen hhead
    refine ⟨mine', ⟨hnesting, h.at_indent, hindented, .inl ?_⟩, hkinds.trans hsame.symm⟩
    rw [hkinds]
    exact closesWithin_of_matchToken_eq (h.closesWithin_of_not_isQuiet hk) hsame
  | opens kind column hk hopen =>
    obtain ⟨mine', hnesting, hkinds, hindented⟩ := h.modifyTop_align hroot hold
    have hpush := matchToken_of_opens hopen (mine.map Frame.kind)
    have hkinds' : (Frame.opened i column kind :: mine').map Frame.kind =
        matchToken (mine.map Frame.kind) k := by
      rw [hpush, List.map_cons, hkinds]
      rfl
    refine ⟨.opened i column kind :: mine', ⟨?_, h.at_indent, ?_, ?_⟩, hkinds'⟩
    · rw [hnesting]
      rfl
    · exact List.forall_mem_cons.mpr ⟨h.at_indent, hindented⟩
    · rw [hkinds']
      cases mine with
      | nil =>
        -- Only a bracket that stands on frames of earlier lines may stay open.
        have hmine' : mine' = [] := List.map_eq_nil_iff.mp hkinds
        rcases ho.opensLast [] k ks rfl kind hopen with hwithin | hquiet
        · exact .inl (hpush ▸ hwithin)
        · exact .inr ⟨.opened i column kind, by rw [hmine'], rfl, hquiet⟩
      | cons f fs => exact .inl (h.closesWithin_of_not_isQuiet hk)
  | @closes root' f fs _ hk hclose =>
    have hnesting := h.nesting
    cases mine with
    | nil =>
      have hkeep : k.closes f.kind = false := ho.keepsEarlier [] k ks rfl rfl
      rw [hclose] at hkeep
      cases hkeep
    | cons g gs =>
      cases hnesting
      have hpop := matchToken_of_closes hclose (gs.map Frame.kind)
      refine ⟨gs, ⟨rfl, h.indented f List.mem_cons_self, ?_, .inl ?_⟩, hpop.symm⟩
      · exact fun g hg => h.indented g (List.mem_cons_of_mem f hg)
      · rw [← hpop]
        exact h.closesWithin_of_not_isQuiet hk

end

/-- The tokens of an orderly line, one after the other. -/
theorem OnLine.layOut {root : Frame} {old mine : List Frame} {indent : Int} {ps : List Piece}
    {s : State} (start tabSize : Nat) (before : List Char) (hps : ∀ p ∈ ps, p.Read)
    (h : OnLine root old indent mine (place start ps) s.nesting s.indented)
    (hkind : root.kind = .top) (hroot : root.alignment = .hanging)
    (hold : ∀ f ∈ old, f.alignment = .hanging)
    (ho : Orderly (mine.map Frame.kind) s.kinds (place start ps)) :
    let after := (layOut tabSize before s ps).1
    ∃ mine', OnLine root old indent mine' [] after.nesting after.indented := by
  induction ps generalizing start before s mine with
  | nil => exact ⟨mine, h⟩
  | cons p ps ih =>
    have htop : s.nesting.root.kind = .top := by
      rw [h.nesting]
      exact hkind
    have ha := (hps p List.mem_cons_self).acts start tabSize before htop
    obtain ⟨mine', h', hkinds⟩ := h.step ha hroot hold ho
    refine ih _ _ (fun q hq => hps q (List.mem_cons_of_mem p hq)) h' ?_
    rw [hkinds, State.kinds, ha.kinds]
    exact ho.tail

/-- At the end of an orderly line at most one frame of its own is open, still pending. -/
theorem OnLine.at_end {root : Frame} {old mine : List Frame} {indent i : Int} {n : Nesting}
    (h : OnLine root old indent mine [] n i) :
    n = ⟨root, old⟩ ∨ ∃ f, n = ⟨root, f :: old⟩ ∧ f.indented = indent ∧ f.alignment = .pending := by
  rcases h.due with hdue | ⟨f, rfl, hpending, -⟩
  · cases mine with
    | nil => exact .inl h.nesting
    | cons f fs => cases hdue
  · exact .inr ⟨f, h.nesting, h.indented f List.mem_cons_self, hpending⟩

/-! ## The content of a line -/

theorem foldl_matchToken_of_isBlank {ks : List Token} (h : ∀ k ∈ ks, k.isBlank = true)
    (stack : List FrameKind) : ks.foldl matchToken stack = stack := by
  induction ks with
  | nil => rfl
  | cons k ks ih =>
    obtain ⟨hk, hks⟩ := List.forall_mem_cons.mp h
    rw [List.foldl_cons, matchToken_of_punct?_eq_none (Token.punct?_of_isBlank hk), ih hks]

namespace Mode

def contentTokens (m : Mode) (s : State) (l : List Char) : List Token :=
  place (Text.byteSize (Text.lead l)) (pieces m.vocabulary s.region (Text.trimStart l))

theorem exists_readLine_tokens (m : Mode) (s : State) (l : List Char) :
    ∃ front, (m.readLine s l).tokens = front ++ m.contentTokens s l ∧ ∀ k ∈ front, k.isBlank = true := by
  rw [m.readLine_tokens s l, pieces_eq_lead_append m.vocabulary s.region l]
  split
  · rename_i h
    exact ⟨[], by simp [contentTokens, h], by simp⟩
  · refine ⟨[Piece.toToken 0 ⟨Text.lead l, none⟩], by simp [contentTokens, place], ?_⟩
    intro k hk
    rw [List.mem_singleton.mp hk]
    exact Text.allBlank_lead l

theorem exists_contentTokens_eq_cons (m : Mode) (s : State) {l : List Char} (hc : Text.allBlank l = false) :
    ∃ k ks, m.contentTokens s l = k :: ks ∧ k.isBlank = false := by
  have hne := (Text.not_allBlank_iff l).mp hc
  obtain ⟨c, t, ht⟩ := List.exists_cons_of_ne_nil hne
  have hblank := Piece.not_allBlank_first m.vocabulary s.region t (Text.not_isBlank_of_trimStart ht)
  rw [contentTokens, pieces_of_ne_nil m.vocabulary s.region hne, ht]
  exact ⟨_, _, rfl, hblank⟩

/-- The first token of a line in code closes a frame exactly when the line starts with its closer. -/
theorem closes_contentTokens (m : Mode) {s : State} {l : List Char} {k : Token} {ks : List Token}
    (hcode : s.region = .code) (hks : m.contentTokens s l = k :: ks) (f : Frame) :
    k.closes f.kind = f.closedBy (Text.trimStart l) := by
  unfold Frame.closedBy
  cases ht : Text.trimStart l with
  | nil => simp [contentTokens, ht, place] at hks
  | cons c t =>
    rw [contentTokens, ht, pieces_of_ne_nil m.vocabulary s.region (by simp), hcode] at hks
    obtain ⟨rfl, -⟩ := List.cons_eq_cons.mp hks
    rw [Piece.closes_first m.vocabulary _ t (Text.not_isBlank_of_trimStart ht)]
    cases f.kind.closer? with
    | none => rfl
    | some d => exact BEq.comm

namespace BlockLine

variable {m : Mode} {s : State} {l : List Char} {k : Token} {ks : List Token}

theorem opensLast_content (h : m.BlockLine s l) {pre post : List Token}
    (hks : m.contentTokens s l = pre ++ k :: post) :
    ∀ kind ∈ k.opens?, closesWithin [kind] post = true ∨ ∀ j ∈ post, j.isQuiet = true := by
  obtain ⟨front, htokens, -⟩ := m.exists_readLine_tokens s l
  refine h.opensLast (front ++ pre) k post ?_
  rw [htokens, hks, List.append_assoc]

/-- Behind the first token of its content a line closes no bracket of an earlier one. -/
theorem closesEarlier_eq_false (h : m.BlockLine s l) (hks : m.contentTokens s l = k :: ks)
    (hk : k.isBlank = false) {pre post : List Token} {j : Token} (hpost : ks = pre ++ j :: post) :
    closesEarlier s.kinds (k :: pre) j = false := by
  obtain ⟨front, htokens, hfront⟩ := m.exists_readLine_tokens s l
  rw [← Bool.not_eq_true]
  intro hj
  have hblank := h.closesFirst (front ++ k :: pre) j post
    (by rw [htokens, hks, hpost, List.append_assoc]; rfl)
    (by
      unfold closesEarlier at hj ⊢
      simpa only [List.foldl_append, foldl_matchToken_of_isBlank hfront] using hj)
  rw [hblank k (List.mem_append_right front List.mem_cons_self)] at hk
  cases hk

/-- A line whose first token closes nothing is orderly. -/
theorem orderly (h : m.BlockLine s l) (hks : m.contentTokens s l = k :: ks) (hk : k.isBlank = false)
    (hclose : s.kinds.head?.any k.closes = false) : Orderly [] s.kinds (k :: ks) := by
  constructor
  · intro pre j post hpost
    exact h.opensLast_content (hks.trans hpost)
  · intro pre j post hpost hown
    cases pre with
    | nil =>
      obtain ⟨rfl, -⟩ := List.cons_eq_cons.mp hpost
      exact hclose
    | cons k' pre =>
      obtain ⟨rfl, hrest⟩ := List.cons_eq_cons.mp hpost
      have hearlier := h.closesEarlier_eq_false hks hk hrest
      rw [closesEarlier, hown] at hearlier
      exact hearlier

/-- Behind a first token that closes the innermost frame a line is orderly. -/
theorem orderly_tail (h : m.BlockLine s l) (hks : m.contentTokens s l = k :: ks) (hk : k.isBlank = false)
    (hopen : k.opens? = none) : Orderly [] (matchToken s.kinds k) ks := by
  constructor
  · intro pre j post hpost
    have hcontent : m.contentTokens s l = (k :: pre) ++ j :: post := by
      rw [hks, hpost]
      rfl
    exact h.opensLast_content hcontent
  · intro pre j post hpost hown
    have hearlier := h.closesEarlier_eq_false hks hk hpost
    rw [closesEarlier, List.foldl_cons, matchToken_of_plain hopen rfl, hown] at hearlier
    exact hearlier

end BlockLine

end Mode

end BraceMode
