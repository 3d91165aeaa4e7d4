import Mathlib.Data.List.Induction
import BraceMode.Text.Column

/-! Tab stops. The width of a text is the length of that text with its tabs written out as spaces, as long as
a word can hold that length. `Expands` says what writing a tab out means, by the stop that the spaces reach and
not by how many they are; for every text there is one way to do it, and `expand` computes it. Characters move
the column forward by one to the tab size each, so widths grow with every character and no faster than that;
and behind a stop the columns start over, so a text that ends on one adds its width to that of whatever
follows. Where the columns of the text need more than a word, nothing of this is left but the upper bound. -/

namespace BraceMode.Text

/-- The second text is the first one with every tab replaced, from left to right, by the one to `tab` spaces
that reach the next multiple of `tab`. -/
inductive Expands (tab : Nat) : List Char → List Char → Prop
  | nil : Expands tab [] []
  | char {t u : List Char} {c : Char} : Expands tab t u → c ≠ '\t' → Expands tab (t ++ [c]) (u ++ [c])
  | tab {t u : List Char} {spaces : Nat} : Expands tab t u → 1 ≤ spaces → spaces ≤ tab →
      tab ∣ u.length + spaces → Expands tab (t ++ ['\t']) (u ++ List.replicate spaces ' ')

def expand (tab : Nat) (t : List Char) : List Char :=
  t.foldl (fun u c => if c = '\t' then u ++ List.replicate (tab - u.length % tab) ' ' else u ++ [c]) []

/-- The column that a text reaches when columns have no bound. -/
def fullWidth (tab : Nat) (t : List Char) : Nat := t.foldl (stop tab) 0

/-! ## The next stop -/

/-- The spaces from a column to the next stop. -/
theorem dvd_add_spaces_iff {tab spaces : Nat} (col : Nat) (hpos : 1 ≤ spaces) (hle : spaces ≤ tab) :
    tab ∣ col + spaces ↔ spaces = tab - col % tab := by
  have hlt := Nat.mod_lt col (show 0 < tab by omega)
  have hdvd : tab ∣ col + spaces ↔ tab ∣ col % tab + spaces := by
    rw [Nat.dvd_iff_mod_eq_zero, Nat.dvd_iff_mod_eq_zero, Nat.mod_add_mod]
  rw [hdvd]
  constructor
  · -- The sum is positive and less than two multiples, so it is the first one.
    intro h
    have hmul : tab ≤ col % tab + spaces := Nat.le_of_dvd (by omega) h
    have hrest : tab ∣ col % tab + spaces - tab := Nat.dvd_sub h (Nat.dvd_refl tab)
    have hzero := Nat.eq_zero_of_dvd_of_lt hrest (by omega)
    omega
  · intro h
    exact ⟨1, by omega⟩

theorem stop_tab {tab : Nat} (htab : 0 < tab) (col : Nat) :
    stop tab col '\t' = col + (tab - col % tab) := by
  have hlt := Nat.mod_lt col htab
  rw [stop, if_pos rfl]
  omega

theorem dvd_stop_tab {tab : Nat} (htab : 0 < tab) (col : Nat) : tab ∣ stop tab col '\t' := by
  have hlt := Nat.mod_lt col htab
  rw [stop_tab htab]
  exact (dvd_add_spaces_iff col (by omega) (by omega)).mpr rfl

theorem stop_le {tab : Nat} (htab : 0 < tab) (col : Nat) (c : Char) : stop tab col c ≤ col + tab := by
  unfold stop
  split <;> omega

/-- From a column further left a character reaches no further. -/
theorem stop_mono {tab : Nat} (htab : 0 < tab) {col col' : Nat} (h : col ≤ col') (c : Char) :
    stop tab col c ≤ stop tab col' c := by
  by_cases hc : c = '\t'
  · subst hc
    have hstop (x : Nat) : stop tab x '\t' = tab * (x / tab + 1) := by
      have hsplit := Nat.div_add_mod x tab
      have hlt := Nat.mod_lt x htab
      rw [stop_tab htab, Nat.mul_succ]
      omega
    rw [hstop, hstop]
    exact Nat.mul_le_mul_left tab (Nat.succ_le_succ (Nat.div_le_div_right h))
  · simp only [stop, if_neg hc]
    omega

/-- A multiple of the tab size in front changes no tab stop. -/
theorem stop_add {tab k : Nat} (htab : 0 < tab) (hk : tab ∣ k) (col : Nat) (c : Char) :
    stop tab (k + col) c = k + stop tab col c := by
  have hmod : (k + col) % tab = col % tab := by
    rw [Nat.add_mod, Nat.mod_eq_zero_of_dvd hk, Nat.zero_add, Nat.mod_mod]
  have hlt := Nat.mod_lt col htab
  unfold stop
  split
  · rw [hmod]
    omega
  · omega

/-! ## Character after character -/

theorem foldl_stop_add {tab k : Nat} (htab : 0 < tab) (hk : tab ∣ k) (col : Nat) (t : List Char) :
    t.foldl (stop tab) (k + col) = k + t.foldl (stop tab) col := by
  induction t generalizing col with
  | nil => rfl
  | cons c t ih => rw [List.foldl_cons, List.foldl_cons, stop_add htab hk, ih]

theorem le_foldl_stop {tab : Nat} (htab : 0 < tab) (col : Nat) (t : List Char) :
    col ≤ t.foldl (stop tab) col := by
  induction t generalizing col with
  | nil => exact Nat.le_refl col
  | cons c t ih => exact Nat.le_trans (Nat.le_of_lt (lt_stop htab col c)) (ih _)

theorem foldl_stop_le {tab : Nat} (htab : 0 < tab) (col : Nat) (t : List Char) :
    t.foldl (stop tab) col ≤ col + tab * t.length := by
  induction t generalizing col with
  | nil => exact Nat.le_add_right col _
  | cons c t ih =>
    have hstep := stop_le htab col c
    have hrest := ih (stop tab col c)
    rw [List.foldl_cons, List.length_cons, Nat.mul_succ]
    omega

/-- Counting in words never gets further than counting without a bound. -/
theorem foldl_advance_le_foldl_stop {tab : Nat} (htab : 0 < tab) {col col' : Nat} (h : col ≤ col')
    (t : List Char) : t.foldl (advance tab) col ≤ t.foldl (stop tab) col' := by
  induction t generalizing col col' with
  | nil => exact h
  | cons c t ih => exact ih (Nat.le_trans (wrapWord_le _) (stop_mono htab h c))

@[simp] theorem fullWidth_nil (tab : Nat) : fullWidth tab [] = 0 := rfl

theorem fullWidth_concat (tab : Nat) (t : List Char) (c : Char) :
    fullWidth tab (t ++ [c]) = stop tab (fullWidth tab t) c := by
  rw [fullWidth, List.foldl_append]
  rfl

section

variable {tab : Nat}

theorem fullWidth_append_le (htab : 0 < tab) (t u : List Char) :
    fullWidth tab (t ++ u) ≤ fullWidth tab t + tab * u.length := by
  rw [fullWidth, List.foldl_append]
  exact foldl_stop_le htab _ u

theorem fullWidth_le_append (htab : 0 < tab) (t u : List Char) :
    fullWidth tab t ≤ fullWidth tab (t ++ u) := by
  rw [fullWidth, fullWidth, List.foldl_append]
  exact le_foldl_stop htab _ u

/-- Behind a stop the columns start over. -/
theorem fullWidth_append_of_dvd (htab : 0 < tab) {t : List Char} (h : tab ∣ fullWidth tab t) (u : List Char) :
    fullWidth tab (t ++ u) = fullWidth tab t + fullWidth tab u := by
  rw [fullWidth, List.foldl_append]
  exact foldl_stop_add htab h 0 u

theorem fullWidth_replicate (n : Nat) : fullWidth tab (List.replicate n ' ') = n := by
  induction n with
  | zero => rfl
  | succ n ih =>
    rw [List.replicate_succ', fullWidth_concat, ih]
    rfl

end

theorem width_le_fullWidth (tabSize : Nat) (t : List Char) :
    width tabSize t ≤ fullWidth (max 1 tabSize) t :=
  foldl_advance_le_foldl_stop (by omega) (Nat.le_refl 0) t

theorem width_eq_fullWidth {tabSize : Nat} {t : List Char} (h : fullWidth (max 1 tabSize) t < wordSize) :
    width tabSize t = fullWidth (max 1 tabSize) t := by
  induction t using List.reverseRecOn with
  | nil => rfl
  | append_singleton t c ih =>
    have hless := fullWidth_le_append (show 0 < max 1 tabSize by omega) t [c]
    rw [width_concat, ih (by omega), fullWidth_concat]
    rw [fullWidth_concat] at h
    exact wrapWord_of_lt h

/-- A beginning that leaves something out is narrower. -/
theorem fullWidth_lt_of_isPrefix {tab : Nat} (htab : 0 < tab) {s t : List Char} (h : s <+: t) (hne : s ≠ t) :
    fullWidth tab s < fullWidth tab t := by
  obtain ⟨u, rfl⟩ := h
  cases u with
  | nil => exact absurd (List.append_nil s).symm hne
  | cons c u =>
    have hstep : fullWidth tab s < fullWidth tab (s ++ [c]) := by
      rw [fullWidth_concat]
      exact lt_stop htab _ c
    have hrest := fullWidth_le_append htab (s ++ [c]) u
    rw [List.append_assoc, List.singleton_append] at hrest
    omega

/-! ## Tabs written out -/

theorem expand_concat (tab : Nat) (t : List Char) (c : Char) :
    expand tab (t ++ [c]) =
      if c = '\t' then expand tab t ++ List.replicate (tab - (expand tab t).length % tab) ' '
      else expand tab t ++ [c] := by
  rw [expand, List.foldl_append]
  rfl

theorem length_expand {tab : Nat} (htab : 0 < tab) (t : List Char) :
    (expand tab t).length = fullWidth tab t := by
  induction t using List.reverseRecOn with
  | nil => rfl
  | append_singleton t c ih =>
    rw [fullWidth_concat, ← ih, expand_concat]
    by_cases hc : c = '\t'
    · subst hc
      rw [if_pos rfl, List.length_append, List.length_replicate]
      exact (stop_tab htab _).symm
    · rw [if_neg hc, List.length_append]
      simp [stop, hc]

theorem expands_expand {tab : Nat} (htab : 0 < tab) (t : List Char) : Expands tab t (expand tab t) := by
  induction t using List.reverseRecOn with
  | nil => exact .nil
  | append_singleton t c ih =>
    rw [expand_concat]
    by_cases hc : c = '\t'
    · subst hc
      have hlt := Nat.mod_lt (expand tab t).length htab
      rw [if_pos rfl]
      refine .tab ih (by omega) (by omega) ?_
      exact (dvd_add_spaces_iff _ (by omega) (by omega)).mpr rfl
    · rw [if_neg hc]
      exact .char ih hc

example : expand 4 "ab\té\t\t".toList = "ab  é       ".toList := by decide

/-- A stop can be reached in one way only. -/
theorem Expands.eq_expand {tab : Nat} {t u : List Char} (h : Expands tab t u) : u = expand tab t := by
  induction h with
  | nil => rfl
  | char _ hc ih => rw [expand_concat, if_neg hc, ih]
  | tab _ hpos hle hstop ih =>
    rw [expand_concat, if_pos rfl, ← ih, ← (dvd_add_spaces_iff _ hpos hle).mp hstop]

end BraceMode.Text
