import BraceMode.Proofs.ClosedGroups

/-! What the alignment of an open frame tells about its bracket. It is pending when the frame is opened, and
nothing but blanks and comments leaves it so. The first other token on the bracket's line settles it as
aligned, since the frame is then still on top; where there is none, the next line that is not empty settles
it as hanging. Settled is settled. So the alignment can be read off the tokens behind the bracket and the
lines below it, for every frame that is still open. -/

namespace BraceMode

/-- The token opened a frame inside `d` others, and nothing behind it has closed that. -/
structure Place.Opened {m : Mode} {s : State} {ts : List (List Char)} (p : Place m s ts) (d : Nat) :
    Prop where
  opens : p.here.opens = true
  depth : p.here.before.nesting.depth = d
  still : ∀ mo ∈ p.later, d < mo.after.nesting.depth

/-! ## The root hangs, and only the top frame is pending -/

structure Nesting.Settled (n : Nesting) : Prop where
  root : n.root.alignment = .hanging
  inner : ∀ f ∈ n.inner.tail, f.alignment ≠ .pending

theorem Frame.alignment_align_ne (f : Frame) : f.align.alignment ≠ .pending := by
  unfold align Alignment.settle
  split <;> simp_all

theorem Frame.alignment_of_hanging {f : Frame} (h : f.alignment = .hanging) :
    f.align.alignment = .hanging ∧ f.startLine.alignment = .hanging := by
  simp [align, startLine, Alignment.settle, h]

namespace Nesting.Settled

variable {n n' : Nesting}

theorem modifyTop {g : Frame → Frame} (hg : ∀ f, f.alignment = .hanging → (g f).alignment = .hanging)
    (h : n.Settled) : (n.modifyTop g).Settled := by
  obtain ⟨root, inner⟩ := n
  cases inner with
  | nil => exact ⟨hg root h.root, h.inner⟩
  | cons f fs => exact ⟨h.root, h.inner⟩

theorem align (h : n.Settled) :
    (n.modifyTop .align).Settled ∧ ∀ f ∈ (n.modifyTop .align).inner, f.alignment ≠ .pending := by
  refine ⟨h.modifyTop fun f hf => (Frame.alignment_of_hanging hf).1, ?_⟩
  obtain ⟨root, inner⟩ := n
  cases inner with
  | nil => simp [Nesting.modifyTop]
  | cons f fs => exact List.forall_mem_cons.mpr ⟨f.alignment_align_ne, h.inner⟩

theorem takes {k : Token} {i i' : Int} (ht : Takes k n i n' i') (h : n.Settled) : n'.Settled := by
  cases ht with
  | quiet => exact h
  | plain => exact h.align.1
  | label => exact h.align.1.modifyTop fun _ hf => hf
  | opens => exact ⟨h.align.1.root, h.align.2⟩
  | closes => exact ⟨h.root, fun f hf => h.inner f (List.mem_of_mem_tail hf)⟩

theorem readies {s ready : State} (hr : Readies s ready) (h : s.nesting.Settled) : ready.nesting.Settled := by
  cases hr with
  | same => exact h
  | line => exact h.modifyTop fun f hf => (Frame.alignment_of_hanging hf).2

theorem walk {s s' : State} {ms : List Moment} (hw : Walk s ms s') (h : s.nesting.Settled) :
    s'.nesting.Settled := by
  induction hw with
  | done => exact h
  | take hready htakes _ ih => exact ih ((h.readies hready).takes htakes)

theorem stack_tail (h : n.Settled) : ∀ f ∈ n.stack.tail, f.alignment ≠ .pending := by
  obtain ⟨root, inner⟩ := n
  cases inner with
  | nil => simp [stack]
  | cons f fs =>
    refine List.forall_mem_append.mpr ⟨h.inner, ?_⟩
    have hroot : root.alignment = .hanging := h.root
    simp [hroot]

end Nesting.Settled

theorem Mode.settled_feed (m : Mode) (base : Int) (ts : List (List Char)) :
    (m.feed (m.start base) ts).nesting.Settled := by
  have hstart : (m.start base).nesting.Settled := ⟨rfl, by simp [start, State.start]⟩
  exact hstart.walk (m.walk_moments _ ts)

/-! ## Tokens behind the bracket -/

theorem lasting_alignment {a : Alignment} (ha : a ≠ .pending) : Lasting fun f => f.alignment = a := by
  refine ⟨?_, ?_, fun _ hf => hf⟩
  · rintro f rfl
    exact if_neg ha
  · rintro f rfl
    exact if_neg ha

theorem Vocabulary.not_allBlank_of_isLabel {word : String} (h : isLabel word = true) :
    Text.allBlank word.toList = false := by
  have hlabels : ∀ w ∈ labels, Text.allBlank w.toList = false := by decide
  exact hlabels word (List.contains_iff_mem.mp h)

theorem Token.isQuiet_of_isLabel {k : Token} (h : k.isLabel = true) : k.isQuiet = false := by
  obtain ⟨hstyle, hword⟩ := Bool.and_eq_true_iff.mp h
  have hblank : Text.allBlank k.text = false := by
    simpa using Vocabulary.not_allBlank_of_isLabel hword
  simp [isQuiet, isBlank, hblank, beq_iff_eq.mp hstyle]

/-- Blanks and comments leave the open frames alone. -/
theorem Takes.eq_of_isQuiet {k : Token} {n n' : Nesting} {i i' : Int} (h : Takes k n i n' i')
    (hk : k.isQuiet = true) : n' = n := by
  cases h with
  | quiet => rfl
  | plain _ _ _ hloud => simp [hk] at hloud
  | label hlabel => simp [Token.isQuiet_of_isLabel hlabel] at hk
  | opens kind width hopen =>
    rw [Token.opens?_of_punct? (Token.punct?_of_isQuiet hk)] at hopen
    cases hopen
  | closes hclose => simp [Token.closes_of_punct? (Token.punct?_of_isQuiet hk)] at hclose

/-- Any other token settles the frame on top as aligned, if it does not close it. -/
theorem Takes.aligned_of_not_isQuiet {k : Token} {base n' : Nesting} {f : Frame} {i i' : Int}
    (h : Takes k (base.push f) i n' i') (hf : f.alignment = .pending) (hk : k.isQuiet = false)
    (hd : base.depth < n'.depth) : base.Retains (fun f => f.alignment = .aligned) n' := by
  have haligned : f.align.alignment = .aligned := by simp [Frame.align, Alignment.settle, hf]
  cases h with
  | quiet hquiet => simp [hk] at hquiet
  | plain => exact ⟨[], f.align, rfl, haligned⟩
  | label => exact ⟨[], { f.align with kind := .label }, rfl, haligned⟩
  | opens => exact ⟨[_], f.align, rfl, haligned⟩
  | closes => exact absurd hd (Nat.lt_irrefl _)

/-- Behind the bracket on its own line: as long as nothing but blanks and comments follows, nothing changes;
otherwise the frame is aligned from then on. -/
theorem Course.alignment {s last : State} {ms : List Moment} {base : Nesting} {f : Frame}
    (h : Course s ms last) (hs : s.nesting = base.push f) (hf : f.alignment = .pending)
    (hms : ∀ mo ∈ ms, base.depth < mo.after.nesting.depth) :
    ((∀ mo ∈ ms, mo.token.isQuiet = true) → last.nesting = base.push f) ∧
      ((∃ mo ∈ ms, mo.token.isQuiet = false) →
        base.Retains (fun f => f.alignment = .aligned) last.nesting) := by
  induction h with
  | done => exact ⟨fun _ => hs, by simp⟩
  | @take s next last k ms htakes hrest ih =>
    obtain ⟨hdepth, hdepths⟩ := List.forall_mem_cons.mp hms
    cases hk : k.isQuiet with
    | true =>
      obtain ⟨hquiet, hloud⟩ := ih ((htakes.eq_of_isQuiet hk).trans hs) hdepths
      simpa [hk] using And.intro hquiet hloud
    | false =>
      rw [hs] at htakes
      have hnext := htakes.aligned_of_not_isQuiet hf hk hdepth
      refine ⟨fun hquiet => ?_, fun _ => ?_⟩
      · simp [hk] at hquiet
      · exact (hnext.walk (lasting_alignment (by simp)) hrest.walk hdepths).1

/-! ## Lines below the bracket -/

namespace Mode

variable (m : Mode)

theorem feed_of_forall_eq_nil (s : State) {ts : List (List Char)} (h : ∀ t ∈ ts, t = []) :
    m.feed s ts = s := by
  induction ts with
  | nil => rfl
  | cons t ts ih =>
    obtain ⟨rfl, hts⟩ := List.forall_mem_cons.mp h
    rw [feed, List.foldl_cons, readLine_nil]
    exact ih hts

/-- The next line that is not empty settles a pending frame on top as hanging. -/
theorem hanging_feed {s : State} {base : Nesting} {f : Frame} (hs : s.nesting = base.push f)
    (hf : f.alignment = .pending) {ts : List (List Char)} (hts : ∃ t ∈ ts, t ≠ [])
    (hms : ∀ mo ∈ m.moments s ts, base.depth < mo.after.nesting.depth) :
    base.Retains (fun f => f.alignment = .hanging) (m.feed s ts).nesting := by
  have hP : Lasting fun f => f.alignment = .hanging := lasting_alignment (by simp)
  induction ts with
  | nil => simp at hts
  | cons t ts ih =>
    by_cases ht : t = []
    · have hstate : (m.readLine s t).state = s := by rw [ht, readLine_nil]
      rw [moments, ht, m.momentsFrom_of_rest_eq_nil s rfl, ← ht, hstate, List.nil_append] at hms
      have hfeed : m.feed s (t :: ts) = m.feed s ts := congrArg (m.feed · ts) hstate
      rw [hfeed]
      refine ih ?_ hms
      simpa [ht] using hts
    · -- The line start comes before the first token, so the frame hangs for all the tokens that follow.
      obtain ⟨k, next, ms, hmoments, htakes, hcourse⟩ := m.exists_momentsFrom_ofLine s ht
      have hline : base.Retains (fun f => f.alignment = .hanging) (m.lineState s t).nesting := by
        refine ⟨[], f.startLine, ?_, by simp [Frame.startLine, Alignment.settle, hf]⟩
        rw [lineState, State.startLine, hs]
        rfl
      have hwalk : Walk (m.lineState s t)
          (⟨m.lineState s t, k, next⟩ :: (ms ++ m.moments (m.readLine s t).state ts)) (m.feed s (t :: ts)) :=
        .take .same htakes (hcourse.walk.append (m.walk_moments _ ts))
      refine (hline.walk hP hwalk ?_).1
      rw [moments, hmoments] at hms
      exact List.forall_mem_cons.mpr (List.forall_mem_cons.mp hms)

end Mode

/-! ## Every open frame was opened somewhere -/

theorem Takes.depth_le {k : Token} {n n' : Nesting} {i i' : Int} (h : Takes k n i n' i') :
    n'.depth ≤ n.depth + 1 := by
  cases h with
  | quiet => omega
  | plain => simp
  | label => simp
  | opens => simp
  | closes =>
    simp only [Nesting.depth, List.length_cons]
    omega

/-- A run that ends deeper than `d` was never less deep, or has a last token at which it got so deep. -/
theorem Walk.exists_last_opening {s s' : State} {ms : List Moment} {d : Nat} (h : Walk s ms s')
    (hd : d < s'.nesting.depth) :
    (d < s.nesting.depth ∧ ∀ mo ∈ ms, d < mo.after.nesting.depth) ∨
      ∃ earlier mo later, ms = earlier ++ mo :: later ∧ mo.before.nesting.depth = d ∧ mo.opens = true ∧
        ∀ mo ∈ later, d < mo.after.nesting.depth := by
  induction h with
  | done => exact .inl ⟨hd, by simp⟩
  | @take s ready next last k ms hready htakes _ ih =>
    rcases ih hd with ⟨hnext, hall⟩ | ⟨earlier, mo, later, rfl, hmo⟩
    · by_cases hs : d < s.nesting.depth
      · exact .inl ⟨hs, List.forall_mem_cons.mpr ⟨hnext, hall⟩⟩
      · have hle := htakes.depth_le
        rw [hready.depth_eq] at hle
        have hdepth : s.nesting.depth = d := by omega
        refine .inr ⟨[], ⟨s, k, next⟩, ms, rfl, hdepth, ?_, hall⟩
        exact decide_eq_true (hdepth ▸ hnext)
    · exact .inr ⟨⟨s, k, next⟩ :: earlier, mo, later, rfl, hmo⟩

/-- A retained frame stands where the frames outside it end. -/
theorem Nesting.Retains.getElem?_toList {base n : Nesting} {P : Frame → Prop} (h : base.Retains P n) :
    ∃ f, n.toList[base.depth]? = some f ∧ P f := by
  obtain ⟨above, f, rfl, hf⟩ := h
  refine ⟨f, ?_, hf⟩
  simp [toList, depth]

namespace Mode

variable (m : Mode)

theorem exists_opened {base : Int} {ts : List (List Char)} {d : Nat} (h0 : 0 < d)
    (hd : d < (m.feed (m.start base) ts).nesting.depth) :
    ∃ p : Place m (m.start base) ts, p.Opened d := by
  rcases (m.walk_moments (m.start base) ts).exists_last_opening hd with
    ⟨hstart, -⟩ | ⟨earlier, mo, later, hms, hdepth, hopens, hlater⟩
  · have hroot : (m.start base).nesting.depth = 1 := rfl
    omega
  · obtain ⟨p, rfl, rfl⟩ := exists_place hms
    exact ⟨p, hopens, hdepth, hlater⟩

end Mode

/-- What has become of the frame at the end of the run. -/
theorem Place.Opened.alignment {m : Mode} {s : State} {ts : List (List Char)} {p : Place m s ts} {d : Nat}
    (h : p.Opened d) {f : Frame} (hf : (m.feed s ts).nesting.toList[d]? = some f) :
    ((∃ mo ∈ p.behind, mo.token.isQuiet = false) → f.alignment = .aligned) ∧
      ((∀ mo ∈ p.behind, mo.token.isQuiet = true) → (∃ t ∈ p.below, t ≠ []) → f.alignment = .hanging) ∧
      ((∀ mo ∈ p.behind, mo.token.isQuiet = true) → (∀ t ∈ p.below, t = []) → f.alignment = .pending) := by
  obtain ⟨base, c, hafter, hdepth, -, hpending⟩ := p.exists_opened h.opens
  rw [h.depth] at hdepth
  subst hdepth
  obtain ⟨hbehind, hbelow⟩ := List.forall_mem_append.mp h.still
  obtain ⟨hquiet, hloud⟩ := p.takes_course.2.alignment hafter hpending hbehind
  rw [← p.feed_line] at hquiet hloud
  have hfound {P : Frame → Prop} (hP : base.Retains P (m.feed s ts).nesting) : P f := by
    obtain ⟨g, hg, hPg⟩ := hP.getElem?_toList
    rw [hf] at hg
    cases hg
    exact hPg
  refine ⟨fun hsome => ?_, fun hnone hsome => ?_, fun hnone hempty => ?_⟩
  · refine hfound (P := fun f => f.alignment = .aligned) ?_
    rw [← p.feed_below]
    exact ((hloud hsome).walk (lasting_alignment (by simp)) (m.walk_moments _ _) hbelow).1
  · refine hfound (P := fun f => f.alignment = .hanging) ?_
    rw [← p.feed_below]
    exact m.hanging_feed (hquiet hnone) hpending hsome hbelow
  · refine hfound (P := fun f => f.alignment = .pending) ?_
    rw [← p.feed_below, m.feed_of_forall_eq_nil _ hempty]
    exact ⟨[], c, hquiet hnone, hpending⟩

/-- **The alignment tells what followed the bracket.** After any lines the root hangs, and no frame below the
top one is pending. Every frame inside the root was opened by some token of the run that nothing has closed
since. It is aligned exactly when a token that is neither blank nor a comment stands behind that one on its
line, hanging exactly when none does and a line below is not empty, and pending otherwise. -/
theorem Mode.alignment_iff_followed (m : Mode) (base : Int) (ts : List (List Char)) :
    let n := (m.feed (m.start base) ts).nesting
    n.root.alignment = .hanging ∧ (∀ f ∈ n.stack.tail, f.alignment ≠ .pending) ∧
      ∀ (d : Nat) (f : Frame), 0 < d → n.toList[d]? = some f →
        (∃ p : Place m (m.start base) ts, p.Opened d) ∧
          ∀ p : Place m (m.start base) ts, p.Opened d →
            let followed : Prop := ∃ mo ∈ p.behind, mo.token.isQuiet = false
            let resumed : Prop := ∃ t ∈ p.below, t ≠ []
            (f.alignment = .aligned ↔ followed) ∧ (f.alignment = .hanging ↔ ¬followed ∧ resumed) ∧
              (f.alignment = .pending ↔ ¬followed ∧ ¬resumed) := by
  intro n
  have hsettled : n.Settled := m.settled_feed base ts
  refine ⟨hsettled.root, hsettled.stack_tail, fun d f h0 hf => ⟨?_, fun p hp => ?_⟩⟩
  · have hlt := (List.getElem?_eq_some_iff.mp hf).1
    refine m.exists_opened h0 ?_
    simpa [Nesting.toList, Nesting.depth] using hlt
  · intro followed resumed
    obtain ⟨haligned, hhanging, hpending⟩ := hp.alignment hf
    by_cases hfollowed : followed
    · simp [haligned hfollowed, hfollowed]
    · have hquiet : ∀ mo ∈ p.behind, mo.token.isQuiet = true := by
        simpa [followed] using hfollowed
      by_cases hresumed : resumed
      · simp [hhanging hquiet hresumed, hfollowed, hresumed]
      · have hempty : ∀ t ∈ p.below, t = [] := by simpa [resumed] using hresumed
        simp [hpending hquiet hempty, hfollowed, hresumed]

-- A parenthesis with an argument behind it, a bracket with a comment and then more lines, and a brace that
-- only an empty line follows.
example :
    let m : Mode := {}
    let s := m.feed (m.start 0) ["f(a, [ /* x */".toList, [], "  \x7b // y".toList, []]
    s.nesting.toList.map Frame.alignment = [.hanging, .aligned, .hanging, .pending] := by
  decide +kernel

end BraceMode
