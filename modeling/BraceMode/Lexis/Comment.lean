/-! Block comments. They do not nest: a comment ends with the first `*/` of its text. -/

namespace BraceMode.Lexis.Comment

/-- The length of `t` through its first `*/`. -/
def closing? : List Char → Option Nat
  | [] => none
  | '*' :: '/' :: _ => some 2
  | _ :: t => (closing? t).map (· + 1)

/-- The length of the comment text at the start of `t`: through the terminator, or all of `t`. -/
def size (t : List Char) : Nat := (closing? t).getD t.length

theorem closing?_pos {t : List Char} {n : Nat} (h : closing? t = some n) : 0 < n := by
  fun_cases closing? t <;> simp_all [closing?] <;> omega

theorem closing?_le {t : List Char} {n : Nat} (h : closing? t = some n) : n ≤ t.length := by
  fun_induction closing? t generalizing n with
  | case1 => cases h
  | case2 t =>
    cases h
    simp
  | case3 c t _ ih =>
    obtain ⟨k, hk, rfl⟩ := Option.map_eq_some_iff.mp h
    exact Nat.succ_le_succ (ih hk)

theorem size_le (t : List Char) : size t ≤ t.length := by
  unfold size
  cases h : closing? t with
  | none => exact Nat.le_refl _
  | some n => exact closing?_le h

theorem size_pos (c : Char) (t : List Char) : 0 < size (c :: t) := by
  unfold size
  cases h : closing? (c :: t) with
  | none => simp
  | some n => exact closing?_pos h

end BraceMode.Lexis.Comment
