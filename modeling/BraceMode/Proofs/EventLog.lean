import Mathlib.Data.List.Chain
import BraceMode.Highlight

/-! The events of a run are a faithful log of it. A switch is logged exactly where the region changes, and a
push or a pop exactly where a frame inside the root is opened or closed, each with what it takes to repeat
it. So whoever holds the log alone, and never saw a state, knows the region and the positions of the open
frames at every moment: a closer that finds nothing but the root is not in the log, and nothing that is in
the log pops a frame that was not pushed. -/

namespace BraceMode

/-- Switches that lead from one region to another. Each leaves the region that the one before it entered,
for a different one. -/
inductive Region.Leads : Region → List (Region × Region) → Region → Prop
  | stay {r} : Leads r [] r
  | switch {r next last more} : r ≠ next → Leads next more last → Leads r ((r, next) :: more) last

namespace Event

def switch? : Event → Option (Region × Region)
  | .switch source target => some (source, target)
  | .push .. | .pop _ => none

def isPush : Event → Bool
  | .push .. => true
  | .switch .. | .pop _ => false

def isPop : Event → Bool
  | .pop _ => true
  | .switch .. | .push .. => false

/-- The indentations and columns of the open frames, innermost first, behind one more event; none when a
frame is closed and none is open. -/
def replay? (frames : List (Int × Int)) : Event → Option (List (Int × Int))
  | .push _ column indented => some ((indented, column) :: frames)
  | .pop _ => frames.tail?
  | .switch .. => some frames

end Event

def Nesting.innerPositions (n : Nesting) : List (Int × Int) := n.inner.map fun f => (f.indented, f.column)

def Mode.trace (m : Mode) (s : State) : List (List Char) → List Event
  | [] => []
  | t :: ts =>
    let reading := m.readLine s t
    reading.events ++ m.trace reading.state ts

/-- Events that tell how one state became another. -/
structure Logs (s : State) (es : List Event) (s' : State) : Prop where
  regions : s.region.Leads (es.filterMap Event.switch?) s'.region
  frames : es.foldlM Event.replay? s.nesting.innerPositions = some s'.nesting.innerPositions

/-! ## Logs behind logs -/

theorem Region.Leads.append {r r' r'' : Region} {xs ys : List (Region × Region)} (h : r.Leads xs r')
    (h' : r'.Leads ys r'') : r.Leads (xs ++ ys) r'' := by
  induction h with
  | stay => exact h'
  | switch hne _ ih => exact .switch hne (ih h')

namespace Logs

variable {s s' s'' : State} {es es' : List Event}

/-- Nothing is logged where neither the region nor a position changes. -/
theorem silent (hregion : s'.region = s.region)
    (hframes : s'.nesting.innerPositions = s.nesting.innerPositions) : Logs s [] s' := by
  constructor
  · rw [hregion]
    exact .stay
  · rw [hframes]
    rfl

theorem append (h : Logs s es s') (h' : Logs s' es' s'') : Logs s (es ++ es') s'' := by
  constructor
  · rw [List.filterMap_append]
    exact h.regions.append h'.regions
  · rw [List.foldlM_append, h.frames]
    exact h'.frames

end Logs

/-! ## One step -/

/-- The switches of a walk through regions, each of which differs from the one before it. -/
theorem Event.leads_switches {r : Region} {rs : List Region} (h : (r :: rs).IsChain (· ≠ ·)) :
    r.Leads ((switches r rs).filterMap switch?) (rs.getLastD r) ∧
      ∀ frames, (switches r rs).foldlM replay? frames = some frames := by
  induction rs generalizing r with
  | nil => exact ⟨.stay, fun _ => rfl⟩
  | cons next rs ih =>
    obtain ⟨hne, hrest⟩ := List.isChain_cons_cons.mp h
    obtain ⟨hleads, hframes⟩ := ih hrest
    refine ⟨?_, hframes⟩
    rw [List.getLastD_cons]
    exact .switch hne hleads

theorem Event.not_isPush_of_mem_switches {r : Region} {rs : List Region} {e : Event} (h : e ∈ switches r rs) :
    e.isPush = false ∧ e.isPop = false := by
  induction rs generalizing r with
  | nil => cases h
  | cons next rs ih =>
    rcases List.mem_cons.mp h with rfl | h
    · exact ⟨rfl, rfl⟩
    · exact ih h

namespace State

variable (s : State)

theorem logs_startLine (indentation : Int) : Logs s [] (s.startLine indentation) :=
  .silent rfl (s.nesting.map_inner_modifyTop fun _ => rfl)

theorem logs_align : Logs s [] s.align :=
  .silent rfl (s.nesting.map_inner_modifyTop fun _ => rfl)

theorem logs_enter {rs : List Region} (h : (s.region :: rs).IsChain (· ≠ ·)) :
    Logs s (Event.switches s.region rs) (s.enter rs) :=
  ⟨(Event.leads_switches h).1, (Event.leads_switches h).2 _⟩

/-- What a change does to the frames is what its events say. A pop that finds no frame inside the root does
nothing and says nothing. -/
theorem logs_apply (column : Int) (ch : Change) : Logs s (s.events column ch) (s.apply column ch) := by
  cases ch with
  | push kind => exact ⟨.stay, rfl⟩
  | keep => exact .silent rfl rfl
  | relabel => exact .silent rfl (s.nesting.map_inner_modifyTop fun _ => rfl)
  | pop =>
    obtain ⟨region, ⟨root, inner⟩, indented, fresh⟩ := s
    cases inner with
    | nil => exact .silent rfl rfl
    | cons f fs => exact ⟨.stay, rfl⟩

end State

namespace Lexeme

theorem isChain_ofLiteral (q : Quote) (t : List Char) :
    (.literal q :: (ofLiteral q t).entered).IsChain (· ≠ ·) := by
  simp only [ofLiteral]
  split <;> simp

theorem isChain_ofComment (t : List Char) :
    (.comment :: (ofComment t).entered).IsChain (· ≠ ·) := by
  simp only [ofComment]
  split <;> simp

theorem Fixed.isChain {c : Char} {t : List Char} {l : Lexeme} (h : Fixed c t l) :
    (.code :: l.entered).IsChain (· ≠ ·) := by
  cases h with
  | @literal _ _ q _ => exact .cons_cons Region.noConfusion (isChain_ofLiteral q t)
  | blockComment => exact .cons_cons Region.noConfusion (isChain_ofComment _)
  | number | punct | lineComment | operator => exact .singleton _

/-- A lexeme never enters the region it is in. -/
theorem isChain_read (v : Vocabulary) (kept : List Char) (r : Region) (t : List Char) :
    (r :: (read v kept r t).entered).IsChain (· ≠ ·) := by
  cases r with
  | literal q => exact isChain_ofLiteral q t
  | comment => exact isChain_ofComment t
  | code =>
    cases t with
    | nil => exact .singleton _
    | cons c t =>
      rcases ofCode_cases c t with ⟨l, hfixed, hl⟩ | hword
      · rw [read, hl]
        exact hfixed.isChain
      · rw [read, hword]
        exact .singleton _

end Lexeme

namespace Mode

theorem logs_absorb (column : Int) {l : Lexeme} {s : State} (h : (s.region :: l.entered).IsChain (· ≠ ·)) :
    Logs s (absorb column l s).2 (absorb column l s).1 := by
  have hentered := s.logs_enter h
  have haligned := (s.enter l.entered).logs_align
  unfold absorb
  split
  · exact hentered
  · let aligned := (s.enter l.entered).align
    obtain ⟨hregions, hframes⟩ := hentered.append (haligned.append (aligned.logs_apply column _))
    exact ⟨hregions, hframes⟩

variable (m : Mode)

theorem logs_prepare (h : Host) (c : Cursor) (s : State) : Logs s [] (prepare h c s) := by
  unfold prepare
  split
  · exact s.logs_startLine _
  · exact .silent rfl rfl

/-- The events of a step tell what it did, whatever the host says about the line. -/
theorem logs_step (h : Host) (c : Cursor) (s : State) :
    Logs s (m.step h c s).events (m.step h c s).state := by
  have hready := logs_prepare h c s
  simp only [step]
  split
  · exact hready
  · exact hready.append (logs_absorb _ (Lexeme.isChain_read _ _ _ _))

/-! ## A run -/

theorem logs_readAll (h : Host) (c : Cursor) (s : State) :
    Logs s (m.readAll h c s).events (m.readAll h c s).state := by
  fun_induction readAll m h c s with
  | case1 => exact .silent rfl rfl
  | case2 c s _ next => exact m.logs_step h c.mark s
  | case3 c s _ next _ _ more ih => exact (m.logs_step h c.mark s).append ih

theorem trace_append (s : State) (us vs : List (List Char)) :
    m.trace s (us ++ vs) = m.trace s us ++ m.trace (m.feed s us) vs := by
  induction us generalizing s with
  | nil => rfl
  | cons u us ih =>
    rw [List.cons_append, trace, ih, trace, List.append_assoc]
    rfl

theorem logs_trace (s : State) (ts : List (List Char)) : Logs s (m.trace s ts) (m.feed s ts) := by
  induction ts generalizing s with
  | nil => exact .silent rfl rfl
  | cons t ts ih => exact (m.logs_readAll _ (.ofLine t) s).append (ih _)

end Mode

/-! ## Counting -/

namespace Event

/-- A log that can be replayed opens as many frames as it closes and leaves open. -/
theorem length_of_replay {es : List Event} {frames last : List (Int × Int)}
    (h : es.foldlM replay? frames = some last) :
    last.length + es.countP isPop = frames.length + es.countP isPush := by
  induction es generalizing frames with
  | nil =>
    cases h
    rfl
  | cons e es ih =>
    obtain ⟨next, hnext, hrest⟩ := Option.bind_eq_some_iff.mp h
    have hmore := ih hrest
    cases e with
    | switch source target =>
      cases hnext
      simpa [isPush, isPop] using hmore
    | push kind column indented =>
      cases hnext
      simp only [List.length_cons] at hmore
      simp only [List.countP_cons, isPush, isPop, if_true, Bool.false_eq_true, if_false]
      omega
    | pop kind =>
      cases frames with
      | nil => cases hnext
      | cons f fs =>
        cases hnext
        simp only [List.countP_cons, isPush, isPop, if_true, Bool.false_eq_true, if_false, List.length_cons]
        omega

/-- At no point has more been closed than was opened, if nothing was open before. -/
theorem countP_isPop_le {es : List Event} {last : List (Int × Int)} (h : es.foldlM replay? [] = some last)
    {pre : List Event} (hpre : pre <+: es) : pre.countP isPop ≤ pre.countP isPush := by
  obtain ⟨more, rfl⟩ := hpre
  rw [List.foldlM_append] at h
  obtain ⟨frames, hframes, -⟩ := Option.bind_eq_some_iff.mp h
  have hlength := length_of_replay hframes
  simp only [List.length_nil] at hlength
  omega

end Event

namespace Mode

variable (m : Mode)

/-- **The trace is a faithful log.** After any lines from a fresh buffer, the switches lead from code to the
region that the state is in. At every point the trace has closed no more frames than it has opened; and
its pushes and pops, replayed on nothing, give the indentations and columns of just the frames that are
open inside the root, in their order. So the depth is one more than the pushes less the pops. -/
theorem trace_is_faithful (base : Int) (ts : List (List Char)) :
    Region.Leads .code ((m.trace (m.start base) ts).filterMap Event.switch?)
        (m.feed (m.start base) ts).region ∧
      (∀ pre, pre <+: m.trace (m.start base) ts → pre.countP Event.isPop ≤ pre.countP Event.isPush) ∧
      (m.trace (m.start base) ts).foldlM Event.replay? [] =
        some ((m.feed (m.start base) ts).nesting.inner.map fun f => (f.indented, f.column)) ∧
      (m.feed (m.start base) ts).nesting.depth + (m.trace (m.start base) ts).countP Event.isPop =
        1 + (m.trace (m.start base) ts).countP Event.isPush := by
  obtain ⟨hregions, hframes⟩ := m.logs_trace (m.start base) ts
  refine ⟨hregions, fun pre hpre => Event.countP_isPop_le hframes hpre, hframes, ?_⟩
  generalize m.trace (m.start base) ts = log at hframes ⊢
  generalize m.feed (m.start base) ts = s at hframes ⊢
  have hlength : s.nesting.innerPositions.length + log.countP Event.isPop = 0 + log.countP Event.isPush :=
    Event.length_of_replay hframes
  have hinner : s.nesting.innerPositions.length = s.nesting.inner.length := List.length_map _
  simp only [Nesting.depth]
  omega

end Mode

end BraceMode
