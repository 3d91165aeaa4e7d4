import BraceMode.Proofs.Coverage

/-! A cursor by its byte offsets. The three parts of a cursor stand for two offsets into its line, and a move
can be made on the offsets alone: measure in bytes what it takes, each move in its own way, add that to the
position and stop at the end of the line. Nothing in this arithmetic keeps an offset from falling inside a
character, and every look at the line from there would fail; nor does it keep the sum from wrapping around,
which takes the position back. `perform?` makes the moves in this way, with every look checked. It never fails
and goes where the cursor goes, as long as a length that is given in bytes lands between two characters or past
the end and the sum with the position fits into a word. -/

namespace BraceMode

namespace Text

/-- The text between two byte offsets; none when one of them is no good or they are in the wrong order. -/
def sliceBytes? (start stop : Nat) (t : List Char) : Option (List Char) := do
  let behind ← dropBytes? start t
  let rest ← dropBytes? stop t
  if start ≤ stop then some (behind.take (behind.length - rest.length)) else none

def charOffsets (n : Nat) : List Char → List (Nat × Char)
  | [] => []
  | c :: t => (n, c) :: charOffsets (n + c.utf8Size) t

def offsetBehind (p : Char → Bool) (t : List Char) : Nat :=
  (((charOffsets 0 t).find? fun x => !p x.2).map Prod.fst).getD (byteSize t)

end Text

/-- Where a token starts in a line and where the cursor stands behind it, as byte offsets. -/
structure Offsets where
  line : List Char
  start : Nat := 0
  pos : Nat := 0
  deriving DecidableEq, Repr

namespace Offsets

def rest? (o : Offsets) : Option (List Char) := Text.dropBytes? o.pos o.line

def token? (o : Offsets) : Option (List Char) := Text.sliceBytes? o.start o.pos o.line

/-- The position `n` bytes further on, as a word holds the sum, or at the end of the line. -/
def skip (o : Offsets) (n : Nat) : Offsets :=
  { o with pos := min (Text.wrapWord (o.pos + n)) (Text.byteSize o.line) }

end Offsets

namespace Cursor

def Move.bytes (rest : List Char) : Move → Nat
  | .next => (rest.head?.map Char.utf8Size).getD 0
  | .eat c => if rest.head? = some c then c.utf8Size else 0
  | .eatWhile p => Text.offsetBehind p rest
  | .eatText t => if t.isPrefixOf rest then Text.byteSize t else 0
  | .skipToEnd => Text.byteSize rest
  | .peek | .mark | .advanceBytes _ => 0

end Cursor

/-- Makes a move on the offsets; none when it has to look at the line from an offset that is no good. -/
def Offsets.perform? (o : Offsets) : Cursor.Move → Option Offsets
  | .mark => some { o with start := o.pos }
  | .advanceBytes n => some (o.skip n)
  | m => o.rest?.map fun rest => o.skip (m.bytes rest)

namespace Cursor

def offsets (c : Cursor) : Offsets := ⟨c.line, c.start, c.pos⟩

def move? (c : Cursor) (m : Move) : Option Cursor := (c.perform? m).map Prod.snd

/-- Whether a move may be made: a number of bytes has to land between two characters or past the end, and may
not take the position out of its word. -/
def Admits (c : Cursor) : Move → Prop
  | .advanceBytes n =>
    ((Text.dropBytes? n c.rest).isSome = true ∨ Text.byteSize c.rest ≤ n) ∧ c.pos + n < Text.wordSize
  | _ => True

def AdmitsAll (c : Cursor) : List Move → Prop
  | [] => True
  | m :: ms => c.Admits m ∧ ∀ d ∈ c.move? m, d.AdmitsAll ms

instance decidableAdmits (c : Cursor) (m : Move) : Decidable (c.Admits m) :=
  match m with
  | .advanceBytes _ => inferInstanceAs (Decidable (_ ∧ _))
  | .next | .peek | .eat _ | .eatWhile _ | .eatText _ | .skipToEnd | .mark =>
    inferInstanceAs (Decidable True)

instance decidableAdmitsAll : (c : Cursor) → (ms : List Move) → Decidable (c.AdmitsAll ms)
  | _, [] => inferInstanceAs (Decidable True)
  | c, m :: ms =>
    have : DecidablePred fun d : Cursor => d.AdmitsAll ms := fun d => decidableAdmitsAll d ms
    inferInstanceAs (Decidable (c.Admits m ∧ ∀ d ∈ c.move? m, d.AdmitsAll ms))

end Cursor

/-! ## Measures in bytes -/

namespace Text

theorem sliceBytes?_byteSize (s t u : List Char) :
    sliceBytes? (byteSize s) (byteSize (s ++ t)) (s ++ t ++ u) = some t := by
  have hstart : dropBytes? (byteSize s) (s ++ t ++ u) = some (t ++ u) := by
    rw [List.append_assoc]
    exact dropBytes?_byteSize s (t ++ u)
  have hle : byteSize s ≤ byteSize (s ++ t) := by
    rw [byteSize_append]
    omega
  have hstop := dropBytes?_byteSize (s ++ t) u
  rw [sliceBytes?, hstart, hstop]
  simp only [Option.bind_eq_bind, Option.bind_some, if_pos hle, List.length_append, Nat.add_sub_cancel,
    List.take_left]

theorem getD_find?_charOffsets (p : Char → Bool) (n : Nat) (t : List Char) :
    (((charOffsets n t).find? fun x => !p x.2).map Prod.fst).getD (n + byteSize t) =
      n + byteSize (t.takeWhile p) := by
  induction t generalizing n with
  | nil => rfl
  | cons c t ih =>
    cases hc : p c with
    | true =>
      have hnext := ih (n + c.utf8Size)
      simp only [charOffsets, List.find?_cons, hc, Bool.not_true, List.takeWhile_cons, if_true,
        byteSize_cons]
      rw [← Nat.add_assoc, ← Nat.add_assoc]
      exact hnext
    | false => simp [charOffsets, hc]

/-- The first character that is not in the class stands behind the run of those that are. -/
theorem offsetBehind_eq (p : Char → Bool) (t : List Char) :
    offsetBehind p t = byteSize (t.takeWhile p) := by
  have h := getD_find?_charOffsets p 0 t
  rwa [Nat.zero_add, Nat.zero_add] at h

end Text

/-! ## One move -/

namespace Cursor

variable {c : Cursor}

theorem byteSize_line (c : Cursor) : Text.byteSize c.line = c.pos + Text.byteSize c.rest := by
  simp only [line, pos, start, Text.byteSize_append, Text.byteSize_reverse]

theorem pos_advance (c : Cursor) (n : Nat) :
    (c.advance n).pos = c.pos + Text.byteSize (c.rest.take n) := by
  simp only [advance, pos, start, Text.byteSize_append, Nat.add_assoc]

/-- What is taken from a text is no larger than the text. -/
theorem byteSize_take_le (t : List Char) (n : Nat) : Text.byteSize (t.take n) ≤ Text.byteSize t := by
  have h := Text.byteSize_append (t.take n) (t.drop n)
  rw [List.take_append_drop] at h
  omega

/-- A move takes as many bytes as it measures. -/
theorem Move.byteSize_take_size {m : Move} (hm : ∀ n, m ≠ .advanceBytes n) (rest : List Char) :
    Text.byteSize (rest.take (m.size rest)) = m.bytes rest := by
  cases m with
  | peek => rfl
  | mark => rfl
  | advanceBytes n => exact absurd rfl (hm n)
  | skipToEnd => rw [size, bytes, List.take_length]
  | next => cases rest <;> simp [size, bytes]
  | eat d =>
    simp only [size, bytes]
    split
    · rename_i hd
      obtain ⟨t, rfl⟩ := List.head?_eq_some_iff.mp hd
      simp
    · rfl
  | eatWhile p => rw [size, bytes, Lexis.take_run, Text.offsetBehind_eq]
  | eatText t =>
    simp only [size, bytes]
    split
    · rename_i ht
      obtain ⟨u, rfl⟩ := List.isPrefixOf_iff_prefix.mp ht
      rw [List.take_left]
    · rfl

/-- An admitted number of bytes is the size of a beginning of the rest, or of all of it. -/
theorem exists_split_of_admits {n : Nat} (h : c.Admits (.advanceBytes n)) :
    ∃ s u, c.rest = s ++ u ∧ Text.byteSize s = min n (Text.byteSize c.rest) := by
  rcases h.1 with hcut | hend
  · obtain ⟨u, hu⟩ := Option.isSome_iff_exists.mp hcut
    obtain ⟨s, hs, rfl⟩ := (Text.dropBytes?_eq_some_iff n c.rest u).mp hu
    refine ⟨s, u, hs, ?_⟩
    rw [hs, Text.byteSize_append]
    omega
  · exact ⟨c.rest, [], (List.append_nil _).symm, by omega⟩

theorem offsetAfter_of_lt {n : Nat} (h : c.pos + n < Text.wordSize) :
    c.offsetAfter n = c.pos + min n (Text.byteSize c.rest) := by
  rw [offsetAfter, Text.wrapWord_of_lt h, byteSize_line]
  omega

/-- A sum that does not fit into a word takes the position back. -/
theorem offsetAfter_lt {n : Nat} (hn : n < Text.wordSize) (h : Text.wordSize ≤ c.pos + n) :
    c.offsetAfter n < c.pos := by
  refine Nat.lt_of_le_of_lt (Nat.min_le_left _ _) ?_
  unfold Text.wrapWord Text.wordSize at *
  omega

theorem moveTo?_byteSize {s u : List Char} (h : c.rest = s ++ u) :
    c.moveTo? (c.pos + Text.byteSize s) = some (c.advance s.length) := by
  have hahead : c.token ++ c.rest = c.token ++ s ++ u := by rw [h, List.append_assoc]
  have hoffset : c.pos + Text.byteSize s - c.start = Text.byteSize (c.token ++ s) := by
    rw [pos, Text.byteSize_append]
    omega
  have hle : c.start ≤ c.pos + Text.byteSize s := by
    rw [pos]
    omega
  rw [moveTo?, if_pos hle, hoffset, hahead, Text.dropBytes?_byteSize, Option.map_some, advance, h,
    List.take_left, List.drop_left, List.length_append, Nat.add_sub_cancel, List.take_left]

/-- A cursor that takes bytes from the rest of its line has moved by them. -/
theorem offsets_advance {n k : Nat} (hfits : c.pos + k < Text.wordSize)
    (h : Text.byteSize (c.rest.take n) = min k (Text.byteSize c.rest)) :
    (c.advance n).offsets = c.offsets.skip k := by
  have hpos : (c.advance n).pos = min (Text.wrapWord (c.pos + k)) (Text.byteSize c.line) := by
    rw [pos_advance, h, byteSize_line, Text.wrapWord_of_lt hfits]
    omega
  simp only [offsets, Offsets.skip, line_advance, hpos]
  rfl

theorem rest?_offsets (c : Cursor) : c.offsets.rest? = some c.rest := c.dropBytes?_line.2

theorem token?_offsets (c : Cursor) : c.offsets.token? = some c.token := by
  have h := Text.sliceBytes?_byteSize c.passed.reverse c.token c.rest
  rw [Text.byteSize_append, Text.byteSize_reverse] at h
  exact h

theorem offsets_mark (c : Cursor) : c.mark.offsets = { c.offsets with start := c.pos } := by
  have hstart : c.mark.start = c.pos := by
    simp only [mark, start, pos, Text.byteSize_append, Text.byteSize_reverse, Nat.add_comm]
  have hpos : c.mark.pos = c.pos := by rw [pos, hstart]; rfl
  simp only [offsets, line_mark, hstart, hpos]

theorem move?_of_admits {n : Nat} (h : c.Admits (.advanceBytes n)) :
    ∃ k, c.move? (.advanceBytes n) = some (c.advance k) ∧
      (c.advance k).offsets = c.offsets.skip n := by
  obtain ⟨s, u, hs, hsize⟩ := exists_split_of_admits h
  refine ⟨s.length, ?_, offsets_advance h.2 ?_⟩
  · have hmove := moveTo?_byteSize hs
    rw [hsize, ← offsetAfter_of_lt h.2] at hmove
    rw [move?, perform?, hmove]
    rfl
  · rw [← hsize, hs, List.take_left]

/-- An admitted move succeeds, keeps the line and never goes back; on the offsets it goes where it goes on the
parts of the line. -/
theorem exists_move? {m : Move} (h : c.Admits m) (hline : Text.byteSize c.line < Text.wordSize) :
    ∃ d, c.move? m = some d ∧ c.offsets.perform? m = some d.offsets ∧ d.line = c.line ∧ c.pos ≤ d.pos := by
  have hforward (n : Nat) : c.pos ≤ (c.advance n).pos := by
    rw [pos_advance]
    omega
  have hmeasured (hm : ∀ n, m ≠ .advanceBytes n) :
      (c.advance (m.size c.rest)).offsets = c.offsets.skip (m.bytes c.rest) := by
    have htake := Move.byteSize_take_size hm c.rest
    have hle := byteSize_take_le c.rest (m.size c.rest)
    rw [byteSize_line] at hline
    exact offsets_advance (by omega) (by omega)
  cases m with
  | mark =>
    exact ⟨c.mark, rfl, congrArg some c.offsets_mark.symm, c.line_mark,
      Nat.le_of_eq (congrArg Offsets.pos c.offsets_mark).symm⟩
  | advanceBytes n =>
    obtain ⟨k, hmove, hoffsets⟩ := move?_of_admits h
    exact ⟨c.advance k, hmove, congrArg some hoffsets.symm, c.line_advance k, hforward k⟩
  | next | peek | eat | eatWhile | eatText | skipToEnd =>
    refine ⟨c.advance _, rfl, ?_, c.line_advance _, hforward _⟩
    simp only [Offsets.perform?, rest?_offsets, Option.map_some]
    exact congrArg some (hmeasured fun n => Move.noConfusion).symm

/-- What `eatWhile` takes is the longest beginning of the rest in its class. -/
theorem eatWhile_longest (c : Cursor) (p : Char → Bool) :
    ∃ d taken, c.move? (.eatWhile p) = some d ∧ d.token = c.token ++ taken ∧ c.rest = taken ++ d.rest ∧
      taken.all p = true ∧ ∀ s, s <+: c.rest → s.all p = true → s <+: taken := by
  refine ⟨c.advance (Lexis.run p c.rest), c.rest.takeWhile p, rfl, ?_, ?_, List.all_takeWhile,
    fun s hs hall => ?_⟩
  · simp only [advance, Lexis.take_run]
  · simp only [advance, Lexis.drop_run, List.takeWhile_append_dropWhile]
  · obtain ⟨u, hu⟩ := hs
    rw [← hu, List.takeWhile_append_of_pos (List.all_eq_true.mp hall)]
    exact List.prefix_append s _

/-! ## Move after move -/

theorem exists_foldlM_move? {ms : List Move} (h : c.AdmitsAll ms)
    (hline : Text.byteSize c.line < Text.wordSize) :
    ∃ d, ms.foldlM move? c = some d ∧ ms.foldlM Offsets.perform? c.offsets = some d.offsets ∧
      d.line = c.line := by
  induction ms generalizing c with
  | nil => exact ⟨c, rfl, rfl, rfl⟩
  | cons m ms ih =>
    obtain ⟨d, hmove, hperform, hsame, -⟩ := exists_move? h.1 hline
    obtain ⟨e, hrun, hoffsets, hlast⟩ := ih (h.2 d hmove) (hsame ▸ hline)
    refine ⟨e, ?_, ?_, hlast.trans hsame⟩
    · rw [List.foldlM_cons, hmove]
      exact hrun
    · rw [List.foldlM_cons, hperform]
      exact hoffsets

end Cursor

end BraceMode
