import BraceMode.Text.Lines

/-! A text cut at its line feeds. Every text is `unlines ls ++ tail` with neither `ls` nor `tail` holding a
line feed, and for only one choice of `ls` and `tail`. What `lines` answers is read off this form: each
line of `ls` without one carriage return at its end, and `tail` as it is when there is one. -/

namespace BraceMode.Text

/-- A line without the carriage return that its line feed takes along. -/
def dropReturn (l : List Char) : List Char := if l.getLast? = some '\r' then l.dropLast else l

def lastLine (tail : List Char) : List (List Char) := if tail = [] then [] else [tail]

def endedLines (t : List Char) : List (List Char) :=
  if endsLine t then lines t else (lines t).dropLast

/-- A line feed behind two carriage returns. `lines` takes one of them away and leaves the other. -/
def doubleReturn : List Char := ['\r', '\r', '\n']

/-! ## Cutting at a line feed -/

theorem length_flatten_lines_le (t : List Char) : (lines t).flatten.length ≤ t.length := by
  fun_induction lines t with
  | case1 => simp
  | case2 t ih => simp only [List.flatten_cons, List.nil_append, List.length_cons]; omega
  | case3 t ih => simp only [List.flatten_cons, List.nil_append, List.length_cons]; omega
  | case4 c t _ _ hnil ih => simp
  | case5 c t _ _ l ls hlines ih =>
    rw [hlines] at ih
    simp only [List.flatten_cons, List.cons_append, List.length_cons] at ih ⊢
    omega

theorem length_le_of_mem_lines {l t : List Char} (h : l ∈ lines t) : l.length ≤ t.length :=
  Nat.le_trans (List.sublist_flatten_of_mem h).length_le (length_flatten_lines_le t)

theorem dropReturn_cons {c : Char} {l : List Char} (h : ¬(c = '\r' ∧ l = [])) :
    dropReturn (c :: l) = c :: dropReturn l := by
  cases l with
  | nil => simp_all [dropReturn]
  | cons d l =>
    simp only [dropReturn, List.getLast?_cons_cons, List.dropLast_cons_cons]
    split <;> rfl

theorem dropReturn_eq_self {l : List Char} (h : l.getLast? ≠ some '\r') : dropReturn l = l := if_neg h

theorem not_mem_dropReturn {l : List Char} {c : Char} (h : c ∉ l) : c ∉ dropReturn l := by
  unfold dropReturn
  split
  · exact fun hm => h (List.dropLast_subset l hm)
  · exact h

theorem not_mem_of_mem_map_dropReturn {ls : List (List Char)} {c : Char} (h : ∀ l ∈ ls, c ∉ l) :
    ∀ l ∈ ls.map dropReturn, c ∉ l := by
  intro l hl
  obtain ⟨k, hk, rfl⟩ := List.mem_map.mp hl
  exact not_mem_dropReturn (h k hk)

theorem map_dropReturn_eq_self {ls : List (List Char)} (h : ∀ l ∈ ls, l.getLast? ≠ some '\r') :
    ls.map dropReturn = ls := by
  conv => rhs; rw [← List.map_id ls]
  exact List.map_congr_left fun l hl => dropReturn_eq_self (h l hl)

theorem lines_append_newline {l : List Char} (h : '\n' ∉ l) (t : List Char) :
    lines (l ++ '\n' :: t) = dropReturn l :: lines t := by
  induction l with
  | nil => simp [lines, dropReturn]
  | cons c l ih =>
    obtain ⟨hc, hl⟩ : '\n' ≠ c ∧ '\n' ∉ l := by simpa using h
    by_cases hr : c = '\r' ∧ l = []
    · obtain ⟨rfl, rfl⟩ := hr
      simp [lines, dropReturn]
    · rw [dropReturn_cons hr, List.cons_append, lines, ih hl]
      · rintro t' rfl ht
        cases l with
        | nil => exact hr ⟨rfl, rfl⟩
        | cons d l => simp_all
      · exact fun he => hc he.symm

theorem lines_of_not_mem {l : List Char} (h : '\n' ∉ l) : lines l = lastLine l := by
  induction l with
  | nil => rfl
  | cons c l ih =>
    obtain ⟨hc, hl⟩ : '\n' ≠ c ∧ '\n' ∉ l := by simpa using h
    rw [lines, ih hl]
    · cases l <;> simp [lastLine]
    · rintro t' rfl ht
      exact hl (ht ▸ List.mem_cons_self)
    · exact fun he => hc he.symm

/-- What `lines` answers for a text in cut form. -/
theorem lines_unlines_append {ls : List (List Char)} {tail : List Char} (hls : ∀ l ∈ ls, '\n' ∉ l)
    (ht : '\n' ∉ tail) : lines (unlines ls ++ tail) = ls.map dropReturn ++ lastLine tail := by
  induction ls with
  | nil => simpa using lines_of_not_mem ht
  | cons l ls ih =>
    rw [unlines_cons, List.append_assoc, List.cons_append, lines_append_newline (hls l (by simp)),
      ih fun k hk => hls k (by simp [hk])]
    rfl

theorem exists_eq_unlines_append (t : List Char) : ∃ ls tail, t = unlines ls ++ tail ∧
    (∀ l ∈ ls, '\n' ∉ l) ∧ '\n' ∉ tail := by
  induction t with
  | nil => exact ⟨[], [], rfl, by simp, by simp⟩
  | cons c t ih =>
    obtain ⟨ls, tail, rfl, hls, ht⟩ := ih
    by_cases hc : c = '\n'
    · refine ⟨[] :: ls, tail, by simp [hc], ?_, ht⟩
      intro l hl
      rcases List.mem_cons.mp hl with rfl | hl
      · simp
      · exact hls l hl
    · cases ls with
      | nil => exact ⟨[], c :: tail, by simp, by simp, by simp [ht, Ne.symm hc]⟩
      | cons l ls =>
        refine ⟨(c :: l) :: ls, tail, by simp, ?_, ht⟩
        intro k hk
        rcases List.mem_cons.mp hk with rfl | hk
        · simp [Ne.symm hc, hls l (by simp)]
        · exact hls k (by simp [hk])

/-! ## The cut form is unique -/

theorem append_newline_inj {k l : List Char} (hk : '\n' ∉ k) (hl : '\n' ∉ l) {s t : List Char}
    (h : k ++ '\n' :: s = l ++ '\n' :: t) : k = l ∧ s = t := by
  induction k generalizing l with
  | nil =>
    cases l with
    | nil => simpa using h
    | cons d l =>
      obtain ⟨rfl, -⟩ := List.cons_eq_cons.mp h
      simp at hl
  | cons c k ih =>
    cases l with
    | nil =>
      obtain ⟨rfl, -⟩ := List.cons_eq_cons.mp h
      simp at hk
    | cons d l =>
      obtain ⟨hcd, htail⟩ := List.cons_eq_cons.mp h
      obtain ⟨hkl, hst⟩ := ih (List.not_mem_of_not_mem_cons hk) (List.not_mem_of_not_mem_cons hl) htail
      exact ⟨by rw [hcd, hkl], hst⟩

theorem unlines_append_inj {ks ls : List (List Char)} {s t : List Char} (hks : ∀ k ∈ ks, '\n' ∉ k)
    (hls : ∀ l ∈ ls, '\n' ∉ l) (hs : '\n' ∉ s) (ht : '\n' ∉ t)
    (h : unlines ks ++ s = unlines ls ++ t) : ks = ls ∧ s = t := by
  induction ks generalizing ls with
  | nil =>
    cases ls with
    | nil => exact ⟨rfl, by simpa using h⟩
    | cons l ls =>
      have hm : '\n' ∈ unlines (l :: ls) ++ t := by simp
      exact absurd (h ▸ hm) (by simpa using hs)
  | cons k ks ih =>
    cases ls with
    | nil =>
      have hm : '\n' ∈ unlines (k :: ks) ++ s := by simp
      exact absurd (h ▸ hm) (by simpa using ht)
    | cons l ls =>
      simp only [unlines_cons, List.append_assoc, List.cons_append] at h
      obtain ⟨hkl, hrest⟩ := append_newline_inj (hks k (by simp)) (hls l (by simp)) h
      obtain ⟨hls', hst⟩ := ih (fun x hx => hks x (List.mem_cons_of_mem k hx))
        (fun x hx => hls x (List.mem_cons_of_mem l hx)) hrest
      exact ⟨by rw [hkl, hls'], hst⟩

/-! ## The last line -/

theorem endsLine_unlines_append {ls : List (List Char)} {tail : List Char} (ht : '\n' ∉ tail) :
    endsLine (unlines ls ++ tail) = true ↔ ls ≠ [] ∧ tail = [] := by
  rcases List.eq_nil_or_concat tail with rfl | ⟨init, c, rfl⟩
  · rcases List.eq_nil_or_concat ls with rfl | ⟨init, l, rfl⟩
    · simp [endsLine]
    · simp [endsLine, unlines, List.getLast?_append]
  · have hc : c ≠ '\n' := by rintro rfl; simp at ht
    simp [endsLine, List.getLast?_append, hc]

theorem endedLines_unlines_append {ls : List (List Char)} {tail : List Char}
    (hls : ∀ l ∈ ls, '\n' ∉ l) (ht : '\n' ∉ tail) :
    endedLines (unlines ls ++ tail) = ls.map dropReturn := by
  unfold endedLines
  rw [lines_unlines_append hls ht]
  split
  · rename_i he
    obtain ⟨-, rfl⟩ := (endsLine_unlines_append ht).mp he
    simp [lastLine]
  · rename_i he
    by_cases htail : tail = []
    · have hnil : ls = [] := by
        apply Classical.byContradiction
        intro hne
        exact he ((endsLine_unlines_append ht).mpr ⟨hne, htail⟩)
      simp [hnil, htail, lastLine]
    · simp [lastLine, htail]

theorem doubleReturn_isInfix_of_mem {ls : List (List Char)} {l tail : List Char} (hl : l ∈ ls)
    (hr : (dropReturn l).getLast? = some '\r') : doubleReturn <:+: unlines ls ++ tail := by
  have hcr : l.getLast? = some '\r' := by
    apply Classical.byContradiction
    intro hn
    exact hn (dropReturn_eq_self hn ▸ hr)
  obtain ⟨k, rfl⟩ := List.getLast?_eq_some_iff.mp hcr
  simp only [dropReturn, List.getLast?_concat, if_true, List.dropLast_concat] at hr
  obtain ⟨j, rfl⟩ := List.getLast?_eq_some_iff.mp hr
  obtain ⟨before, after, rfl⟩ := List.append_of_mem hl
  exact ⟨unlines before ++ j, unlines after ++ tail, by simp [unlines, doubleReturn]⟩

/-- Without a line feed behind two carriage returns, no line that a line feed ends keeps one. -/
theorem getLast?_dropReturn_ne {ls : List (List Char)} {tail : List Char}
    (h : ¬doubleReturn <:+: unlines ls ++ tail) : ∀ l ∈ ls.map dropReturn, l.getLast? ≠ some '\r' := by
  intro l hl hr
  obtain ⟨k, hk, rfl⟩ := List.mem_map.mp hl
  exact h (doubleReturn_isInfix_of_mem hk hr)

end BraceMode.Text
