import BraceMode.Proofs.FrameOrigins

/-! A closed group leaves no trace. While a bracket is open nothing reaches the frames outside it: a token and
a line start touch the top frame alone, and of a frame they never touch the two columns it was opened with.
So the frames outside a bracket are retained as they are for as long as it is open, and its closer brings
them back together with the indentation that the bracket was opened in. -/

namespace BraceMode

/-- A token in the run over the lines `ts` from state `s`: the lines above its own, its own and those below,
and on its own line the moments in front of it, its own and those behind it. -/
structure Place (m : Mode) (s : State) (ts : List (List Char)) where
  above : List (List Char)
  line : List Char
  below : List (List Char)
  front : List Moment
  here : Moment
  behind : List Moment
  lines_eq : ts = above ++ line :: below
  moments_eq : m.momentsFrom (.ofLine line) (m.feed s above) = front ++ here :: behind

namespace Place

variable {m : Mode} {s : State} {ts : List (List Char)} (p : Place m s ts)

/-- The state in which the token is read. The first token of a line finds the line started. -/
def ready : State := if p.front = [] then m.lineState p.here.before p.line else p.here.before

def later : List Moment := p.behind ++ m.moments (m.feed s (p.above ++ [p.line])) p.below

end Place

def Nesting.positions (n : Nesting) : List (Int × Int) := n.stack.map fun f => (f.indented, f.column)

/-! ## The tokens of one line -/

/-- Tokens of a line that has started, each of which does what a token can do to the state before it. -/
inductive Course : State → List Moment → State → Prop
  | done {s} : Course s [] s
  | take {s next last k ms} : Takes k s.nesting s.indented next.nesting next.indented →
      Course next ms last → Course s (⟨s, k, next⟩ :: ms) last

theorem Course.walk {s last : State} {ms : List Moment} (h : Course s ms last) : Walk s ms last := by
  induction h with
  | done => exact .done
  | take htakes _ ih => exact .take .same htakes ih

/-- A course taken up at one of its tokens. -/
theorem Course.split {s last : State} {xs ys : List Moment} {mo : Moment}
    (h : Course s (xs ++ mo :: ys) last) :
    Takes mo.token mo.before.nesting mo.before.indented mo.after.nesting mo.after.indented ∧
      Course mo.after ys last := by
  induction xs generalizing s with
  | nil =>
    cases h with
    | take htakes hrest => exact ⟨htakes, hrest⟩
  | cons x xs ih =>
    cases h with
    | take _ hrest => exact ih hrest

theorem Walk.split {s last : State} {xs ys : List Moment} (h : Walk s (xs ++ ys) last) :
    ∃ between, Walk s xs between ∧ Walk between ys last := by
  induction xs generalizing s with
  | nil => exact ⟨s, .done, h⟩
  | cons x xs ih =>
    cases h with
    | take hready htakes hrest =>
      obtain ⟨between, hxs, hys⟩ := ih hrest
      exact ⟨between, .take hready htakes hxs, hys⟩

namespace Mode

variable (m : Mode)

/-- Behind the first token of a line the rest of it is a course. -/
theorem course_momentsFrom {c : Cursor} (s : State) (hc : c.token ≠ []) :
    Course s (m.momentsFrom c s) (m.readAll (.faithful m.tabSize) c s).state := by
  induction hn : c.rest.length using Nat.strongRecOn generalizing c s with
  | _ n ih =>
    by_cases hr : c.rest = []
    · rw [m.momentsFrom_of_rest_eq_nil s hr, readAll_of_rest_eq_nil m _ s hr]
      exact .done
    · have hstep := m.step_mark_faithful m.tabSize c s hr
      have hmoments := m.momentsFrom_of_rest_ne_nil s hr
      simp only [prepare_mark_of_token_ne_nil m.tabSize s hc] at hstep hmoments
      rw [hmoments, m.readAll_faithful m.tabSize s hr, hstep]
      have hlt := Piece.length_drop_first_lt m.vocabulary s.region hr
      exact .take (Piece.takes_first m.vocabulary _ m.tabSize _ s hr)
        (ih _ (hn ▸ hlt) _ (Cursor.token_ne_nil_of_rest_lt hlt) rfl)

/-- The first token of a line is read in the state with the line started, and the rest is a course. -/
theorem exists_momentsFrom_ofLine (s : State) {t : List Char} (ht : t ≠ []) :
    ∃ k next ms, m.momentsFrom (.ofLine t) s = ⟨s, k, next⟩ :: ms ∧
      Takes k (m.lineState s t).nesting (m.lineState s t).indented next.nesting next.indented ∧
      Course next ms (m.readLine s t).state := by
  have hmoments := m.momentsFrom_of_rest_ne_nil (c := .ofLine t) s ht
  have hstep := m.step_mark_faithful m.tabSize (.ofLine t) s ht
  have hread := m.readAll_faithful m.tabSize (c := .ofLine t) s ht
  refine ⟨_, _, _, hmoments, Piece.takes_first m.vocabulary _ m.tabSize _ (m.lineState s t) ht, ?_⟩
  rw [readLine, hread, hstep]
  have hlt := Piece.length_drop_first_lt m.vocabulary s.region ht
  exact m.course_momentsFrom _ (Cursor.token_ne_nil_of_rest_lt (c := .ofLine t) hlt)

end Mode

/-! ## A token in its run -/

namespace Place

variable {m : Mode} {s : State} {ts : List (List Char)} (p : Place m s ts)

theorem line_ne_nil : p.line ≠ [] := by
  intro hline
  have hmoments := p.moments_eq
  rw [hline, m.momentsFrom_of_rest_eq_nil _ rfl] at hmoments
  simp at hmoments

/-- The token does what a token can do to the state in which it is read, and so do those behind it. -/
theorem takes_course :
    Takes p.here.token p.ready.nesting p.ready.indented p.here.after.nesting p.here.after.indented ∧
      Course p.here.after p.behind (m.readLine (m.feed s p.above) p.line).state := by
  obtain ⟨k, next, ms, hmoments, htakes, hcourse⟩ :=
    m.exists_momentsFrom_ofLine (m.feed s p.above) p.line_ne_nil
  rw [p.moments_eq] at hmoments
  unfold ready
  cases hfront : p.front with
  | nil =>
    rw [hfront] at hmoments
    obtain ⟨hhere, hbehind⟩ := List.cons_eq_cons.mp hmoments
    rw [if_pos rfl, hhere, hbehind]
    exact ⟨htakes, hcourse⟩
  | cons x xs =>
    rw [hfront] at hmoments
    obtain ⟨-, hrest⟩ := List.cons_eq_cons.mp hmoments
    rw [if_neg (List.cons_ne_nil x xs)]
    exact (hrest ▸ hcourse).split

theorem feed_line : m.feed s (p.above ++ [p.line]) = (m.readLine (m.feed s p.above) p.line).state := by
  rw [m.feed_append]
  rfl

theorem feed_below : m.feed (m.feed s (p.above ++ [p.line])) p.below = m.feed s ts := by
  rw [← m.feed_append, List.append_assoc]
  exact congrArg (m.feed s) p.lines_eq.symm

/-- All that is read behind the token is a walk to the end of the run. -/
theorem walk_later : Walk p.here.after p.later (m.feed s ts) := by
  rw [← p.feed_below, later]
  refine p.takes_course.2.walk.append ?_
  rw [← p.feed_line]
  exact m.walk_moments _ p.below

end Place

/-- Every token of a run stands somewhere in it. -/
theorem Mode.exists_place {m : Mode} {s : State} {ts : List (List Char)} {earlier later : List Moment}
    {mo : Moment} (h : m.moments s ts = earlier ++ mo :: later) :
    ∃ p : Place m s ts, p.here = mo ∧ p.later = later := by
  induction ts generalizing s earlier with
  | nil => simp [moments] at h
  | cons t ts ih =>
    have hdown (before : List Moment)
        (hrest : m.moments (m.readLine s t).state ts = before ++ mo :: later) :
        ∃ p : Place m s (t :: ts), p.here = mo ∧ p.later = later := by
      obtain ⟨p, rfl, rfl⟩ := ih hrest
      exact ⟨{ p with above := t :: p.above, lines_eq := congrArg (t :: ·) p.lines_eq }, rfl, rfl⟩
    rw [moments, List.append_eq_append_iff] at h
    rcases h with ⟨before, -, hrest⟩ | ⟨behind, hline, hlater⟩
    · exact hdown before hrest
    · cases behind with
      | nil => exact hdown [] hlater.symm
      | cons x behind =>
        obtain ⟨rfl, rfl⟩ := List.cons_eq_cons.mp hlater
        exact ⟨⟨[], t, ts, earlier, mo, behind, rfl, hline⟩, rfl, rfl⟩

/-! ## Frames that are retained -/

structure Lasting (P : Frame → Prop) : Prop where
  startLine : ∀ f, P f → P f.startLine
  align : ∀ f, P f → P f.align
  relabel : ∀ f : Frame, P f → P { f with kind := .label }

/-- The frames of `base` are open just as they are, and right inside them a frame with property `P`. -/
def Nesting.Retains (base : Nesting) (P : Frame → Prop) (n : Nesting) : Prop :=
  ∃ above f, n = ⟨base.root, above ++ f :: base.inner⟩ ∧ P f

namespace Nesting.Retains

variable {base n n' : Nesting} {P : Frame → Prop}

theorem modifyTop {g : Frame → Frame} (hg : ∀ f, P f → P (g f)) (h : base.Retains P n) :
    base.Retains P (n.modifyTop g) := by
  obtain ⟨above, f, rfl, hf⟩ := h
  cases above with
  | nil => exact ⟨[], g f, rfl, hg f hf⟩
  | cons x above => exact ⟨g x :: above, f, rfl, hf⟩

theorem push (h : base.Retains P n) (x : Frame) : base.Retains P (n.push x) := by
  obtain ⟨above, f, rfl, hf⟩ := h
  exact ⟨x :: above, f, rfl, hf⟩

theorem readies (hP : Lasting P) {s ready : State} (hr : Readies s ready) (h : base.Retains P s.nesting) :
    base.Retains P ready.nesting := by
  cases hr with
  | same => exact h
  | line => exact h.modifyTop hP.startLine

/-- A token that closes a frame closes the retained one, or one inside it. -/
theorem closes {root x : Frame} {xs : List Frame} (h : base.Retains P ⟨root, x :: xs⟩) :
    (⟨root, xs⟩ : Nesting) = base ∧ P x ∨ base.Retains P ⟨root, xs⟩ := by
  obtain ⟨above, f, hn, hf⟩ := h
  obtain ⟨rfl, hinner⟩ := Nesting.mk.inj hn
  cases above with
  | nil =>
    obtain ⟨rfl, rfl⟩ := List.cons_eq_cons.mp hinner
    exact .inl ⟨rfl, hf⟩
  | cons y above =>
    obtain ⟨-, rfl⟩ := List.cons_eq_cons.mp hinner
    exact .inr ⟨above, f, rfl, hf⟩

theorem depth_lt (h : base.Retains P n) : base.depth < n.depth := by
  obtain ⟨above, f, rfl, -⟩ := h
  simp only [depth, List.length_append, List.length_cons]
  omega

/-- One token: it keeps what is retained, or it closes the retained frame and leaves the rest as it was. -/
theorem takes (hP : Lasting P) {k : Token} {i i' : Int} (ht : Takes k n i n' i') (h : base.Retains P n) :
    base.Retains P n' ∨ n' = base ∧ ∃ f, P f ∧ i' = f.indented := by
  have haligned : base.Retains P (n.modifyTop .align) := h.modifyTop hP.align
  cases ht with
  | quiet => exact .inl h
  | plain => exact .inl haligned
  | label => exact .inl (haligned.modifyTop hP.relabel)
  | opens => exact .inl (haligned.push _)
  | @closes _ f _ _ _ =>
    rcases h.closes with ⟨hn, hf⟩ | hinner
    · exact .inr ⟨hn, f, hf, rfl⟩
    · exact .inl hinner

/-- A run, for as long as it stays inside the retained frame. -/
theorem walk (hP : Lasting P) {s s' : State} {ms : List Moment} (hw : Walk s ms s')
    (h : base.Retains P s.nesting) (hms : ∀ mo ∈ ms, base.depth < mo.after.nesting.depth) :
    base.Retains P s'.nesting ∧ ∀ mo ∈ ms, base.Retains P mo.after.nesting := by
  induction hw with
  | done => exact ⟨h, by simp⟩
  | take hready htakes _ ih =>
    obtain ⟨hdepth, hrest⟩ := List.forall_mem_cons.mp hms
    rcases (h.readies hP hready).takes hP htakes with hnext | ⟨hout, -⟩
    · obtain ⟨hlast, hall⟩ := ih hnext hrest
      exact ⟨hlast, List.forall_mem_cons.mpr ⟨hnext, hall⟩⟩
    · simp only [hout, Nat.lt_irrefl] at hdepth

end Nesting.Retains

/-! ## What one token reaches -/

namespace Nesting

theorem tail_stack_modifyTop (n : Nesting) (g : Frame → Frame) :
    (n.modifyTop g).stack.tail = n.stack.tail := by
  rw [stack_modifyTop]
  cases n.stack <;> rfl

theorem positions_modifyTop (n : Nesting) {g : Frame → Frame} (hindented : ∀ f, (g f).indented = f.indented)
    (hcolumn : ∀ f, (g f).column = f.column) : (n.modifyTop g).positions = n.positions := by
  rw [positions, stack_modifyTop, positions]
  cases n.stack with
  | nil => rfl
  | cons f fs => simp [hindented, hcolumn]

end Nesting

/-- The retained frames are all below the top one, and none of them has got other columns. -/
theorem Nesting.Retains.isSuffix {base n : Nesting} {c : Frame}
    (h : base.Retains (fun f => f.indented = c.indented ∧ f.column = c.column) n) :
    base.stack <:+ n.stack.tail ∧ (base.push c).positions <:+ n.positions := by
  obtain ⟨above, f, rfl, hindented, hcolumn⟩ := h
  have hstack : stack ⟨base.root, above ++ f :: base.inner⟩ = above ++ f :: base.stack := by
    simp [stack]
  constructor
  · rw [hstack]
    cases above with
    | nil => exact List.suffix_rfl
    | cons x above => exact (List.suffix_cons f base.stack).trans (List.suffix_append above _)
  · refine ⟨above.map fun f => (f.indented, f.column), ?_⟩
    simp only [positions, hstack, List.map_append, List.map_cons, hindented, hcolumn]
    rfl

/-- A token leaves every frame but the top one as it is, and closes at most that. -/
theorem Takes.tail_stack_isSuffix {k : Token} {n n' : Nesting} {i i' : Int} (h : Takes k n i n' i') :
    n.stack.tail <:+ n'.stack := by
  have htail {n' : Nesting} (hn' : n'.stack.tail = n.stack.tail) : n.stack.tail <:+ n'.stack :=
    hn' ▸ List.tail_suffix n'.stack
  cases h with
  | quiet => exact htail rfl
  | plain => exact htail (n.tail_stack_modifyTop .align)
  | label => exact htail (by rw [Nesting.tail_stack_modifyTop, Nesting.tail_stack_modifyTop])
  | opens =>
    exact (htail (n.tail_stack_modifyTop .align)).trans (List.suffix_cons _ _)
  | closes => exact List.suffix_rfl

/-- A token changes no column that a frame was opened with. -/
theorem Takes.positions {k : Token} {n n' : Nesting} {i i' : Int} (h : Takes k n i n' i') :
    n.positions <:+ n'.positions ∨ n'.positions = n.positions.tail := by
  have haligned : (n.modifyTop .align).positions = n.positions :=
    n.positions_modifyTop (fun _ => rfl) fun _ => rfl
  cases h with
  | quiet => exact .inl List.suffix_rfl
  | plain => exact .inl (haligned ▸ List.suffix_rfl)
  | label =>
    have hlabelled := (n.modifyTop .align).positions_modifyTop (g := fun f => { f with kind := .label })
      (fun _ => rfl) fun _ => rfl
    exact .inl (hlabelled.trans haligned ▸ List.suffix_rfl)
  | opens => exact .inl (haligned ▸ List.suffix_cons _ _)
  | closes => exact .inr rfl

/-- Reading a token, its line start included, changes or closes no frame but the top one, and changes no
column that a frame was opened with. -/
structure Moment.Local (mo : Moment) : Prop where
  below_top : mo.before.nesting.stack.tail <:+ mo.after.nesting.stack
  positions : mo.before.nesting.positions <:+ mo.after.nesting.positions ∨
    mo.after.nesting.positions = mo.before.nesting.positions.tail

theorem Walk.local {s s' : State} {ms : List Moment} (hw : Walk s ms s') : ∀ mo ∈ ms, mo.Local := by
  induction hw with
  | done => simp
  | @take s ready next _ k _ hready htakes _ ih =>
    refine List.forall_mem_cons.mpr ⟨?_, ih⟩
    have hstack : ready.nesting.stack.tail = s.nesting.stack.tail ∧
        ready.nesting.positions = s.nesting.positions := by
      cases hready with
      | same => exact ⟨rfl, rfl⟩
      | line =>
        exact ⟨s.nesting.tail_stack_modifyTop .startLine,
          s.nesting.positions_modifyTop (fun _ => rfl) fun _ => rfl⟩
    exact ⟨hstack.1 ▸ htakes.tail_stack_isSuffix, hstack.2 ▸ htakes.positions⟩

/-! ## From the bracket to its closer -/

/-- A token that makes the nesting deeper opens a frame that keeps the current indentation. -/
theorem Takes.of_depth_lt {k : Token} {n n' : Nesting} {i i' : Int} (h : Takes k n i n' i')
    (hd : n.depth < n'.depth) :
    ∃ f, n' = (n.modifyTop .align).push f ∧ f.indented = i ∧ f.alignment = .pending ∧ i' = i := by
  cases h with
  | quiet => exact absurd hd (Nat.lt_irrefl _)
  | plain => exact absurd hd (by simp)
  | label => exact absurd hd (by simp)
  | opens => exact ⟨_, rfl, rfl, rfl, rfl⟩
  | closes => exact absurd hd (by simp [Nesting.depth])

namespace Place

variable {m : Mode} {s : State} {ts : List (List Char)} (p : Place m s ts)

theorem depth_ready : p.ready.nesting.depth = p.here.before.nesting.depth := by
  unfold ready
  split
  · exact p.here.before.nesting.depth_modifyTop .startLine
  · rfl

/-- The frame that the token opens, and what it is opened in. -/
theorem exists_opened (hopen : p.here.opens = true) :
    ∃ (base : Nesting) (f : Frame), p.here.after.nesting = base.push f ∧
      base.depth = p.here.before.nesting.depth ∧ f.indented = p.ready.indented ∧ f.alignment = .pending := by
  have hdepth : p.ready.nesting.depth < p.here.after.nesting.depth := by
    rw [p.depth_ready]
    exact of_decide_eq_true hopen
  obtain ⟨f, hafter, hindented, hpending, -⟩ := p.takes_course.1.of_depth_lt hdepth
  refine ⟨_, f, hafter, ?_, hindented, hpending⟩
  rw [Nesting.depth_modifyTop, p.depth_ready]

end Place

namespace Mode

variable (m : Mode)

/-- **A closed group is transparent.** Let a token open a frame, in a run over any lines from any state, and
let `pop` be the first token behind it that leaves the nesting less deep than the opener did. Then `pop`
brings back the indentation in which the frame was opened, and leaves all frames outside it, the root
included, just as they were behind the opener. In between they are all there untouched, and the frame keeps
the columns it was opened with. Of the frames that are open at any one token, it changes no other than the
top one, and the columns of none. -/
theorem closed_group_transparent {s : State} {ts : List (List Char)} (p : Place m s ts)
    (hopen : p.here.opens = true) {mid post : List Moment} {pop : Moment}
    (hlater : p.later = mid ++ pop :: post)
    (hmid : ∀ mo ∈ mid, p.here.after.nesting.depth ≤ mo.after.nesting.depth)
    (hpop : pop.after.nesting.depth < p.here.after.nesting.depth) :
    pop.after.indented = p.ready.indented ∧
      (∃ f, p.here.after.nesting.pop? = some (f, pop.after.nesting)) ∧
      (∀ mo ∈ mid, p.here.after.nesting.stack.tail <:+ mo.after.nesting.stack.tail ∧
        p.here.after.nesting.positions <:+ mo.after.nesting.positions) ∧
      ∀ mo ∈ m.moments s ts, mo.Local := by
  obtain ⟨base, c, hafter, -, hindented, -⟩ := p.exists_opened hopen
  let P : Frame → Prop := fun f => f.indented = c.indented ∧ f.column = c.column
  have hP : Lasting P := ⟨fun _ h => h, fun _ h => h, fun _ h => h⟩
  have hstart : base.Retains P p.here.after.nesting := ⟨[], c, hafter, rfl, rfl⟩
  have hdepth : p.here.after.nesting.depth = base.depth + 1 := by rw [hafter, Nesting.depth_push]
  have hwalk := p.walk_later
  rw [hlater] at hwalk
  obtain ⟨between, hfirst, hlast⟩ := hwalk.split
  obtain ⟨hbetween, hall⟩ := hstart.walk hP hfirst fun mo hmo => by
    have := hmid mo hmo
    omega
  -- The closer finds the frame still retained, and the depth behind it says that it is the one closed.
  have hclosed : pop.after.nesting = base ∧ pop.after.indented = p.ready.indented := by
    cases hlast with
    | take hready htakes =>
      rcases (hbetween.readies hP hready).takes hP htakes with hkept | ⟨hout, f, hf, hi⟩
      · have := hkept.depth_lt
        simp only at hpop
        omega
      · exact ⟨hout, hi.trans (hf.1.trans hindented)⟩
  refine ⟨hclosed.2, ⟨c, ?_⟩, fun mo hmo => ?_, (m.walk_moments s ts).local⟩
  · rw [hafter, hclosed.1, Nesting.pop?_push]
  · rw [hafter]
    exact (hall mo hmo).isSuffix

/-- A parenthesis over four lines, with a labelled block, a tab and a comment that shows a closer inside it,
in a run that starts in the middle of another text. -/
theorem closed_group_transparent_labelled :
    let m : Mode := { vocabulary := Vocabulary.basic.extend ["case"] [] }
    let s : State := { m.start 3 with indented := 9 }
    let lines := ["  g(x, \x7b".toList, "\tcase y".toList, "\x7d // )".toList, " ) z".toList]
    ∃ (p : Place m s lines) (mid post : List Moment) (pop : Moment),
      p.here.token = ⟨['('], none, 3, 4⟩ ∧ p.here.opens = true ∧ p.later = mid ++ pop :: post ∧
        (∀ mo ∈ mid, p.here.after.nesting.depth ≤ mo.after.nesting.depth) ∧
        pop.after.nesting.depth < p.here.after.nesting.depth ∧ pop.token = ⟨[')'], none, 1, 2⟩ ∧
        pop.after.indented = p.ready.indented ∧ pop.after.indented = 2 ∧
        ∃ f, p.here.after.nesting.pop? = some (f, pop.after.nesting) := by
  intro m s lines
  let ms := m.moments s lines
  let opener := ms.get ⟨2, by decide +kernel⟩
  let pop := ms.get ⟨15, by decide +kernel⟩
  have hsplit : ms = ms.take 2 ++ opener :: ms.drop 3 := by decide +kernel
  obtain ⟨p, hhere, hlater⟩ := exists_place hsplit
  have hrest : ms.drop 3 = (ms.drop 3).take 12 ++ pop :: ms.drop 16 := by decide +kernel
  have hopen : p.here.opens = true := by
    rw [hhere]
    decide +kernel
  have hmid : ∀ mo ∈ (ms.drop 3).take 12, p.here.after.nesting.depth ≤ mo.after.nesting.depth := by
    rw [hhere]
    decide +kernel
  have hpop : pop.after.nesting.depth < p.here.after.nesting.depth := by
    rw [hhere]
    decide +kernel
  obtain ⟨hindented, hbelow, -⟩ :=
    m.closed_group_transparent p hopen (hlater.trans hrest) hmid hpop
  refine ⟨p, _, _, pop, ?_, hopen, hlater.trans hrest, hmid, hpop, ?_, hindented, ?_, hbelow⟩
  · rw [hhere]
    decide +kernel
  · decide +kernel
  · decide +kernel

end Mode

end BraceMode
