import Mathlib.Data.List.Forall2
import BraceMode.Proofs.OpenBrackets
import BraceMode.Proofs.Walk

/-! Where the open frames come from, and whether their kinds show it. The origin of a frame is observed from
outside: the token at which the depth rose, and whether a label word was read while the frame was on top.
A frame without a label has the kind that its bracket opens. A label makes the frame on top a brace frame
from the next line on, whatever bracket opened it, so a labelled frame shows its bracket exactly when that
is a brace; a labelled root is no longer the root by its kind. -/

namespace BraceMode

/-- How an open frame came to be: the token that opened it, none for the root, and whether a label word was
read right inside it. -/
structure Origin where
  opener : Option Token := none
  labelled : Bool := false
  deriving DecidableEq, Repr

namespace Origin

def kind? (o : Origin) : Option FrameKind :=
  match o.opener with
  | none => some .top
  | some k => openerOf? k.text

/-- Whether a kind is true to the opener: the kind it opens, or a label inside a brace. -/
def Fits (o : Origin) (kind : FrameKind) : Prop :=
  o.kind? = some kind ∨ o.kind? = some .brace ∧ kind = .label

instance (o : Origin) (kind : FrameKind) : Decidable (o.Fits kind) :=
  inferInstanceAs (Decidable (_ ∨ _))

/-- The origins of the open frames, innermost first, behind one more token. -/
def record (os : List Origin) (mo : Moment) : List Origin :=
  if mo.opens then { opener := some mo.token } :: os
  else if mo.closes then os.tail
  else if mo.token.isLabel then os.modifyHead fun o => { o with labelled := true }
  else os

end Origin

def origins (ms : List Moment) : List Origin := (ms.foldl Origin.record [{}]).reverse

/-! ## What an origin tells -/

structure Origin.Tells (o : Origin) (f : Frame) : Prop where
  opened : o.kind? ≠ none
  unlabelled : o.labelled = false → o.kind? = some f.kind
  labelled : o.labelled = true → f.kind = .brace ∨ f.kind = .label

theorem openerOf?_ne_label (text : List Char) : openerOf? text ≠ some .label := by
  unfold openerOf?
  split <;> simp

namespace Origin

theorem kind?_ne_label (o : Origin) : o.kind? ≠ some .label := by
  unfold kind?
  split
  · simp
  · exact openerOf?_ne_label _

namespace Tells

variable {o : Origin} {f : Frame}

theorem startLine (h : o.Tells f) : o.Tells f.startLine := by
  refine ⟨h.opened, fun hl => ?_, fun hl => ?_⟩
  · have hkind : f.kind ≠ .label := by
      intro hf
      exact o.kind?_ne_label (hf ▸ h.unlabelled hl)
    rw [Frame.kind_startLine hkind]
    exact h.unlabelled hl
  · rcases h.labelled hl with hf | hf
    · exact .inl (by simp [Frame.startLine, hf])
    · exact .inl (by simp [Frame.startLine, hf])

theorem align (h : o.Tells f) : o.Tells f.align := ⟨h.opened, h.unlabelled, h.labelled⟩

theorem relabel (h : o.Tells f) :
    ({ o with labelled := true } : Origin).Tells { f with kind := .label } :=
  ⟨h.opened, nofun, fun _ => .inr rfl⟩

/-- A frame is true to its opener exactly when no label was read inside it, or a brace opened it. -/
theorem fits_iff (h : o.Tells f) : o.Fits f.kind ↔ (o.labelled = true → o.kind? = some .brace) := by
  unfold Fits
  cases hl : o.labelled with
  | false => simp [h.unlabelled hl]
  | true =>
    rcases h.labelled hl with hf | hf
    · simp [hf]
    · simp [hf, o.kind?_ne_label]

end Tells

end Origin

/-! ## The origins follow the frames -/

def Nesting.stack (n : Nesting) : List Frame := n.inner ++ [n.root]

namespace Nesting

theorem toList_eq_reverse_stack (n : Nesting) : n.toList = n.stack.reverse := by
  simp [toList, stack]

theorem stack_modifyTop (n : Nesting) (g : Frame → Frame) :
    (n.modifyTop g).stack = n.stack.modifyHead g := by
  obtain ⟨root, inner⟩ := n
  cases inner <;> rfl

theorem map_const_modifyTop {α : Type} (n : Nesting) (g : Frame → Frame) (a : α) :
    (n.modifyTop g).inner.map (fun _ => a) = n.inner.map fun _ => a :=
  n.map_inner_modifyTop fun _ => rfl

end Nesting

/-- Two lists related place by place stay so when both heads are changed in a way that keeps them related. -/
theorem forall₂_modifyHead {α β : Type} {R : α → β → Prop} {g : α → α} {h : β → β}
    (hR : ∀ {a b}, R a b → R (g a) (h b)) {as : List α} {bs : List β} (has : List.Forall₂ R as bs) :
    List.Forall₂ R (as.modifyHead g) (bs.modifyHead h) := by
  cases has with
  | nil => exact .nil
  | cons hhead htail => exact .cons (hR hhead) htail

theorem openerOf?_of_opens? {k : Token} {kind : FrameKind} (h : k.opens? = some kind) :
    openerOf? k.text = some kind := by
  obtain ⟨p, hp, hopen⟩ := Option.bind_eq_some_iff.mp h
  rw [((k.punct?_eq_some_iff p).mp hp).2, openerOf?_char, hopen]

theorem Readies.depth_eq {s ready : State} (h : Readies s ready) : ready.nesting.depth = s.nesting.depth := by
  cases h with
  | same => rfl
  | line => exact s.nesting.depth_modifyTop .startLine

/-- Origins, innermost first, that belong to the open frames: each tells the kind of its frame, and the last
one alone has no opener. -/
structure Origin.Records (os : List Origin) (n : Nesting) : Prop where
  tells : List.Forall₂ Origin.Tells os n.stack
  opened : os.map (fun o => o.opener.isSome) = n.inner.map (fun _ => true) ++ [false]

namespace Origin.Records

variable {os : List Origin} {n : Nesting}

theorem modifyTop {g : Frame → Frame} (hg : ∀ {o : Origin} {f}, o.Tells f → o.Tells (g f))
    (h : Records os n) : Records os (n.modifyTop g) := by
  constructor
  · rw [Nesting.stack_modifyTop]
    simpa using forall₂_modifyHead (g := id) hg h.tells
  · rw [Nesting.map_const_modifyTop]
    exact h.opened

theorem relabel (h : Records os n) :
    Records (os.modifyHead fun o => { o with labelled := true })
      (n.modifyTop fun f => { f with kind := .label }) := by
  constructor
  · rw [Nesting.stack_modifyTop]
    exact forall₂_modifyHead Tells.relabel h.tells
  · rw [Nesting.map_const_modifyTop, ← h.opened]
    cases os <;> rfl

theorem push (h : Records os n) {k : Token} {kind : FrameKind} (hk : k.opens? = some kind) (i column : Int) :
    Records ({ opener := some k } :: os) (n.push (.opened i column kind)) := by
  have hopener : openerOf? k.text = some kind := openerOf?_of_opens? hk
  constructor
  · exact .cons ⟨by simp [kind?, hopener], fun _ => hopener, nofun⟩ h.tells
  · exact congrArg (true :: ·) h.opened

theorem tail {root f : Frame} {fs : List Frame} (h : Records os ⟨root, f :: fs⟩) :
    Records os.tail ⟨root, fs⟩ := by
  cases os with
  | nil => exact absurd h.opened (by simp)
  | cons o os =>
    obtain ⟨-, hopened⟩ := List.cons_eq_cons.mp h.opened
    cases h.tells with
    | cons _ htail => exact ⟨htail, hopened⟩

/-- A line that starts may end a label, and does nothing else to a kind. -/
theorem readies {s ready : State} (hr : Readies s ready) (h : Records os s.nesting) :
    Records os ready.nesting := by
  cases hr with
  | same => exact h
  | line => exact h.modifyTop Tells.startLine

/-- One token. -/
theorem takes {mo : Moment} {n' : Nesting} {i i' : Int} (ht : Takes mo.token n i n' i')
    (hbefore : mo.before.nesting.depth = n.depth) (hafter : mo.after.nesting.depth = n'.depth)
    (h : Records os n) : Records (record os mo) n' := by
  simp only [record, Moment.opens, Moment.closes, hbefore, hafter]
  cases ht with
  | quiet _ hlabel => simpa [hlabel] using h
  | plain hlabel => simpa [hlabel] using h.modifyTop Tells.align
  | label hlabel => simpa [hlabel] using (h.modifyTop Tells.align).relabel
  | opens kind width hopen => simpa using (h.modifyTop Tells.align).push hopen i (clampColumn width)
  | @closes root f fs _ _ =>
    have hdepth : (⟨root, f :: fs⟩ : Nesting).depth = (⟨root, fs⟩ : Nesting).depth + 1 := rfl
    have hopens (d : Nat) : ¬d + 1 < d := by omega
    simpa [hdepth, hopens] using h.tail

/-- A run, token after token. -/
theorem walk {s s' : State} {ms : List Moment} (hw : Walk s ms s') (h : Records os s.nesting) :
    Records (ms.foldl record os) s'.nesting := by
  induction hw generalizing os with
  | done => exact h
  | take hready htakes _ ih =>
    exact ih ((h.readies hready).takes htakes hready.depth_eq.symm rfl)

end Origin.Records

/-! ## Where no word is a label -/

theorem Piece.isLabel_first {v : Vocabulary} (hv : v.Unlabelled) (start : Nat) (r : Region) {t : List Char}
    (ht : t ≠ []) : ((first v r t).toToken start).isLabel = false := by
  obtain ⟨c, t, rfl⟩ := List.exists_cons_of_ne_nil ht
  cases hc : Text.isBlank c with
  | true => simp [first_of_isBlank v r t hc, Token.isLabel, toToken, style]
  | false =>
    obtain ⟨l, hl⟩ : ∃ l, Lexeme.read v [] r (c :: t) = l := ⟨_, rfl⟩
    rw [first_of_not_isBlank v r t hc, hl]
    rcases Lexeme.mark_of_read hl with ⟨q, -, rfl⟩ | ⟨hs, hm⟩
    · rfl
    · rcases Lexeme.read_cases hv [] r c t with ⟨q, -, hq⟩ | ⟨-, hnone⟩
      · rw [hl] at hq
        simp [hq] at hs
      · rw [hl] at hnone
        rw [hnone] at hm
        simpa [Token.isLabel, toToken, style] using hm.symm

namespace Mode

variable (m : Mode)

theorem isLabel_of_mem_momentsFrom (hv : m.vocabulary.Unlabelled) (c : Cursor) (s : State) :
    ∀ mo ∈ m.momentsFrom c s, mo.token.isLabel = false := by
  induction hn : c.rest.length using Nat.strongRecOn generalizing c s with
  | _ n ih =>
    by_cases hc : c.rest = []
    · simp [m.momentsFrom_of_rest_eq_nil s hc]
    · rw [m.momentsFrom_of_rest_ne_nil s hc, List.forall_mem_cons]
      refine ⟨Piece.isLabel_first hv _ s.region hc, ih _ ?_ _ _ rfl⟩
      exact hn ▸ Piece.length_drop_first_lt m.vocabulary s.region hc

theorem isLabel_of_mem_moments (hv : m.vocabulary.Unlabelled) (s : State) (ts : List (List Char)) :
    ∀ mo ∈ m.moments s ts, mo.token.isLabel = false := by
  induction ts generalizing s with
  | nil => simp [moments]
  | cons t ts ih => exact List.forall_mem_append.mpr ⟨m.isLabel_of_mem_momentsFrom hv _ s, ih _⟩

end Mode

namespace Origin

theorem labelled_record {os : List Origin} {mo : Moment} (hmo : mo.token.isLabel = false)
    (h : ∀ o ∈ os, o.labelled = false) : ∀ o ∈ record os mo, o.labelled = false := by
  unfold record
  split
  · exact List.forall_mem_cons.mpr ⟨rfl, h⟩
  · split
    · exact fun o ho => h o (List.mem_of_mem_tail ho)
    · simpa [hmo] using h

theorem labelled_foldl_record {os : List Origin} {ms : List Moment}
    (hms : ∀ mo ∈ ms, mo.token.isLabel = false) (h : ∀ o ∈ os, o.labelled = false) :
    ∀ o ∈ ms.foldl record os, o.labelled = false := by
  induction ms generalizing os with
  | nil => exact h
  | cons mo ms ih =>
    obtain ⟨hmo, hrest⟩ := List.forall_mem_cons.mp hms
    exact ih hrest (labelled_record hmo h)

end Origin

namespace Mode

variable (m : Mode)

theorem records_moments (base : Int) (ts : List (List Char)) :
    Origin.Records ((m.moments (m.start base) ts).foldl Origin.record [{}])
      (m.feed (m.start base) ts).nesting := by
  have hroot : Origin.Records [{}] (m.start base).nesting :=
    ⟨.cons ⟨by simp [Origin.kind?], fun _ => rfl, nofun⟩ .nil, rfl⟩
  exact hroot.walk (m.walk_moments (m.start base) ts)

/-- The origins of a run tell the kinds of the frames it leaves, and the first one is that of the root. -/
theorem origins_tell (base : Int) (ts : List (List Char)) :
    List.Forall₂ Origin.Tells (origins (m.moments (m.start base) ts))
        (m.feed (m.start base) ts).nesting.toList ∧
      (origins (m.moments (m.start base) ts)).map (fun o => o.opener.isSome) =
        false :: (m.feed (m.start base) ts).nesting.inner.map fun _ => true := by
  have h := m.records_moments base ts
  constructor
  · rw [Nesting.toList_eq_reverse_stack, origins, List.forall₂_reverse_iff]
    exact h.tells
  · rw [origins, List.map_reverse, h.opened]
    simp

/-- The kind of the root: a label is the only thing that changes it. -/
theorem root_kind_feed (base : Int) (ts : List (List Char)) :
    let root := (m.feed (m.start base) ts).nesting.root
    root.kind = .top ∨ root.kind = .brace ∨ root.kind = .label := by
  intro root
  obtain ⟨htell, hopened⟩ := m.origins_tell base ts
  generalize origins (m.moments (m.start base) ts) = past at htell hopened
  cases htell with
  | @cons o _ os _ hroot _ =>
    obtain ⟨hnone, -⟩ := List.cons_eq_cons.mp hopened
    have hkind : o.kind? = some .top := by
      simp only [Option.isSome_eq_false_iff, Option.isNone_iff_eq_none] at hnone
      simp [Origin.kind?, hnone]
    cases hl : o.labelled with
    | false => exact .inl (Option.some.inj ((hroot.unlabelled hl).symm.trans hkind))
    | true => exact .inr (hroot.labelled hl)

/-- **Kinds stay true to their opener up to labels.** After any lines the open frames and their origins pair
up, the root first, and every frame inside the root was opened by a bracket. A frame has a kind that fits its
opener (the root that of a root, a frame opened by a brace that of a brace or of a label, a frame opened by
another bracket that of the bracket) exactly when a brace opened it or no label word was read right inside
it. All others have become brace frames, or show a label. Where no label word is a keyword, every frame has
the very kind it was opened with. -/
theorem kind_fits_opener_iff (base : Int) (ts : List (List Char)) :
    (origins (m.moments (m.start base) ts)).map (fun o => o.opener.isSome) =
        false :: (m.feed (m.start base) ts).nesting.inner.map (fun _ => true) ∧
      List.Forall₂ (fun o f => o.kind? ≠ none ∧
          (o.Fits f.kind ↔ (o.labelled = true → o.kind? = some .brace)) ∧
          (o.labelled = true → f.kind = .brace ∨ f.kind = .label))
        (origins (m.moments (m.start base) ts)) (m.feed (m.start base) ts).nesting.toList ∧
      (m.vocabulary.Unlabelled → List.Forall₂ (fun o f => o.kind? = some f.kind)
        (origins (m.moments (m.start base) ts)) (m.feed (m.start base) ts).nesting.toList) := by
  obtain ⟨htell, hopened⟩ := m.origins_tell base ts
  refine ⟨hopened, htell.imp fun o f h => ⟨h.opened, h.fits_iff, h.labelled⟩, fun hv => ?_⟩
  have hnone : ∀ o ∈ origins (m.moments (m.start base) ts), o.labelled = false := by
    intro o ho
    exact Origin.labelled_foldl_record (m.isLabel_of_mem_moments hv (m.start base) ts) (by simp) o
      (List.mem_reverse.mp ho)
  refine List.forall₂_iff_zip.mpr ⟨htell.length_eq, fun {o f} hof => ?_⟩
  have hpair := (List.forall₂_iff_zip.mp htell).2 hof
  exact hpair.unlabelled (hnone o (List.of_mem_zip hof).1)

/-- A label inside a parenthesis: on the next line the parenthesis has become a brace. -/
theorem kind_of_labelled_paren :
    let m : Mode := { vocabulary := Vocabulary.basic.extend ["case"] [] }
    let lines := ["(case".toList, "x".toList]
    let opener : Token := ⟨['('], none, 0, 1⟩
    origins (m.moments (m.start 0) lines) = [{}, { opener := some opener, labelled := true }] ∧
      (m.feed (m.start 0) lines).nesting.toList.map Frame.kind = [.top, .brace] ∧
      ¬({ opener := some opener, labelled := true } : Origin).Fits .brace := by
  decide +kernel

end Mode

end BraceMode
