import BraceMode.Proofs.Walk

/-! Columns that are kept. The root keeps the one that it started with. Every other column was clamped when a
line or a bracket brought it in, so it lies between 0 and `maxColumn`, and no run leaves that range. A suggestion
goes a unit further and may leave the range at its upper end; the sum then wraps around, to a column that is
negative. Without labels there is no other way to a negative column. -/

namespace BraceMode

def IsColumn (x : Int) : Prop := 0 ≤ x ∧ x ≤ maxColumn

theorem IsColumn.holds {x : Int} (h : IsColumn x) : HoldsColumn x := by
  unfold IsColumn at h
  unfold HoldsColumn
  omega

theorem isColumn_clampColumn (n : Nat) : IsColumn (clampColumn n) := by
  unfold IsColumn clampColumn
  omega

/-- The root hangs at `root`, and all other columns have been clamped. -/
structure Grounded (root : Int) (n : Nesting) (i : Int) : Prop where
  root : n.root.indented = root
  hanging : n.root.alignment = .hanging
  inner : ∀ f ∈ n.inner, IsColumn f.indented ∧ IsColumn f.column
  indented : IsColumn i

namespace Grounded

variable {root : Int} {n n' : Nesting} {i i' : Int}

theorem start (root : Int) : Grounded root (State.start root).nesting (State.start root).indented where
  root := rfl
  hanging := rfl
  inner := by simp [State.start]
  indented := isColumn_clampColumn 0

/-- A change of the top frame that leaves its columns alone, and a root hanging. -/
theorem modifyTop {g : Frame → Frame} (hindented : ∀ f, (g f).indented = f.indented)
    (hcolumn : ∀ f, (g f).column = f.column)
    (hhanging : ∀ f, f.alignment = .hanging → (g f).alignment = .hanging) (h : Grounded root n i) :
    Grounded root (n.modifyTop g) i := by
  obtain ⟨bottom, inner⟩ := n
  cases inner with
  | nil => exact ⟨(hindented bottom).trans h.root, hhanging bottom h.hanging, h.inner, h.indented⟩
  | cons f fs =>
    refine ⟨h.root, h.hanging, ?_, h.indented⟩
    have hinner := List.forall_mem_cons.mp h.inner
    refine List.forall_mem_cons.mpr ⟨?_, hinner.2⟩
    rw [hindented, hcolumn]
    exact hinner.1

theorem align (h : Grounded root n i) : Grounded root (n.modifyTop .align) i :=
  h.modifyTop (fun _ => rfl) (fun _ => rfl) fun _ hf => by simp [Frame.align, Alignment.settle, hf]

theorem startLine (h : Grounded root n i) : Grounded root (n.modifyTop .startLine) i :=
  h.modifyTop (fun _ => rfl) (fun _ => rfl) fun _ hf => by simp [Frame.startLine, Alignment.settle, hf]

theorem readies {s ready : State} (hr : Readies s ready) (h : Grounded root s.nesting s.indented) :
    Grounded root ready.nesting ready.indented := by
  cases hr with
  | same => exact h
  | line indentation => exact { h.startLine with indented := isColumn_clampColumn indentation }

theorem takes {k : Token} (ht : Takes k n i n' i') (h : Grounded root n i) : Grounded root n' i' := by
  cases ht with
  | quiet => exact h
  | plain => exact h.align
  | label => exact h.align.modifyTop (fun _ => rfl) (fun _ => rfl) fun _ hf => hf
  | opens kind width =>
    refine { h.align with inner := List.forall_mem_cons.mpr ⟨?_, h.align.inner⟩ }
    exact ⟨h.indented, isColumn_clampColumn width⟩
  | closes =>
    obtain ⟨hf, hfs⟩ := List.forall_mem_cons.mp h.inner
    exact ⟨h.root, h.hanging, hfs, hf.1⟩

theorem walk {s s' : State} {ms : List Moment} (hw : Walk s ms s')
    (h : Grounded root s.nesting s.indented) : Grounded root s'.nesting s'.indented := by
  induction hw with
  | done => exact h
  | take hready htakes _ ih => exact ih ((h.readies hready).takes htakes)

theorem anchor {f : Frame} (h : Grounded root n i) (hf : f ∈ n.inner) : IsColumn f.anchor :=
  Frame.anchor_of_both (h.inner f hf).1 (h.inner f hf).2

/-- A unit beyond the top frame is not left of the first column, and only a nested frame is closed. -/
theorem top_anchor {unit : Nat} (h : Grounded (-unit) n i) (hroot : n.root.kind = .top) (t : List Char) :
    0 ≤ n.top.anchor + unit ∧ n.top.anchor ≤ maxColumn ∧ (n.top.closedBy t = true → 0 ≤ n.top.anchor) := by
  obtain ⟨bottom, inner⟩ := n
  cases inner with
  | nil =>
    have hclosed : bottom.closedBy t = false := by
      simp [Frame.closedBy, show bottom.kind = .top from hroot, FrameKind.closer?]
    have hanchor : bottom.anchor = -unit := by
      rw [Frame.anchor, show bottom.alignment = .hanging from h.hanging]
      exact h.root
    show 0 ≤ bottom.anchor + unit ∧ bottom.anchor ≤ maxColumn ∧ (bottom.closedBy t = true → 0 ≤ bottom.anchor)
    rw [hclosed, hanchor]
    exact ⟨by omega, by omega, Bool.noConfusion⟩
  | cons f fs =>
    obtain ⟨hnonneg, hle⟩ : IsColumn f.anchor := h.anchor List.mem_cons_self
    have hsum : 0 ≤ f.anchor + unit := by omega
    exact ⟨hsum, hle, fun _ => hnonneg⟩

/-- The column for a line is one, unless the unit that it adds wraps around. -/
theorem columnFor {unit : Nat} (h : Grounded (-unit) n i) (hunit : unit ≤ maxWidth)
    (hroot : n.root.kind = .top) (hlabel : n.top.kind ≠ .label) (t : List Char) :
    n.top.columnFor unit t ≤ maxColumn ∧
      (0 ≤ n.top.columnFor unit t ↔ (n.top.closedBy t = false → HoldsColumn (n.top.anchor + unit))) := by
  obtain ⟨hsum, hle, hclosing⟩ := h.top_anchor hroot t
  generalize n.top = f at *
  rw [Frame.columnFor_of_not_label fun h => hlabel h.1]
  cases hclosed : f.closedBy t with
  | true => exact ⟨hle, ⟨fun _ hne => Bool.noConfusion hne, fun _ => hclosing hclosed⟩⟩
  | false =>
    by_cases hfits : f.anchor + unit ≤ maxColumn
    · have hheld : HoldsColumn (f.anchor + unit) := ⟨by omega, hfits⟩
      rw [if_neg Bool.false_ne_true, wrapColumn_of_holds hheld]
      exact ⟨hfits, ⟨fun _ _ => hheld, fun _ => hsum⟩⟩
    · have hword : (2147483647 : Int) = maxColumn := rfl
      unfold maxWidth at hunit
      rw [if_neg Bool.false_ne_true, wrapColumn_of_lt (by omega) (by omega)]
      exact ⟨by omega, ⟨fun hnonneg => by omega, fun hheld => absurd (hheld rfl).2 hfits⟩⟩

end Grounded

end BraceMode
