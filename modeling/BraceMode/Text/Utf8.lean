/-! Texts as UTF-8 bytes. Offsets into a line are byte offsets, measured by `byteSize`, which adds up
over concatenation; output is a list of bytes, so a writer may stop inside a character. -/

namespace BraceMode.Text

/-- The number of bytes a text takes. -/
def byteSize (t : List Char) : Nat := t.foldl (fun n c => n + c.utf8Size) 0

def encode (t : List Char) : List UInt8 := t.flatMap String.utf8EncodeChar

/-- The text that the bytes stand for, if they are valid. -/
def decode? (bytes : List UInt8) : Option (List Char) :=
  (String.fromUTF8? ⟨bytes.toArray⟩).map String.toList

/-- Reads the beginning of an encoded text: a last character that is cut short shows as U+FFFD. -/
def decodeCut (bytes : List UInt8) : List Char :=
  let cuts := [0, 1, 2, 3].filterMap fun n =>
    (decode? (bytes.take (bytes.length - n))).map fun t => (t, n)
  match cuts with
  | [] => ['\uFFFD']
  | (t, 0) :: _ => t
  | (t, _) :: _ => t ++ ['\uFFFD']

theorem foldl_byteSize (n : Nat) (t : List Char) :
    t.foldl (fun n c => n + c.utf8Size) n = n + byteSize t := by
  induction t generalizing n with
  | nil => rfl
  | cons c t ih =>
    simp only [byteSize, List.foldl_cons] at ih ⊢
    rw [ih, ih (0 + c.utf8Size)]
    omega

@[simp] theorem byteSize_nil : byteSize [] = 0 := rfl

@[simp] theorem byteSize_cons (c : Char) (t : List Char) :
    byteSize (c :: t) = c.utf8Size + byteSize t := by
  rw [byteSize, List.foldl_cons, foldl_byteSize, Nat.zero_add]

@[simp] theorem byteSize_append (s t : List Char) : byteSize (s ++ t) = byteSize s + byteSize t := by
  rw [byteSize, List.foldl_append, foldl_byteSize]
  rfl

theorem byteSize_pos {t : List Char} (h : t ≠ []) : 0 < byteSize t := by
  cases t with
  | nil => exact absurd rfl h
  | cons c t => have := c.utf8Size_pos; simp only [byteSize_cons]; omega

theorem length_le_byteSize (t : List Char) : t.length ≤ byteSize t := by
  induction t with
  | nil => exact Nat.le_refl 0
  | cons c t ih => have := c.utf8Size_pos; simp only [List.length_cons, byteSize_cons]; omega

@[simp] theorem encode_append (s t : List Char) : encode (s ++ t) = encode s ++ encode t := by
  simp [encode]

theorem length_encode (t : List Char) : (encode t).length = byteSize t := by
  induction t with
  | nil => rfl
  | cons c t ih =>
    have h : encode (c :: t) = String.utf8EncodeChar c ++ encode t := rfl
    rw [h, List.length_append, ih, String.length_utf8EncodeChar, byteSize_cons]

theorem encode_inj {s t : List Char} : encode s = encode t ↔ s = t := by
  refine ⟨fun h => ?_, congrArg encode⟩
  have hbytes : (String.ofList s).toByteArray = (String.ofList t).toByteArray := by
    rw [String.toByteArray_ofList, String.toByteArray_ofList]
    exact congrArg List.toByteArray h
  rw [← String.toList_ofList (l := s), String.toByteArray_inj.mp hbytes, String.toList_ofList]

/-- A text that is read from bytes is written as those bytes. -/
theorem encode_of_decode? {bytes : List UInt8} {t : List Char} (h : decode? bytes = some t) :
    encode t = bytes := by
  obtain ⟨s, hs, rfl⟩ := Option.map_eq_some_iff.mp h
  have hbytes : s.toByteArray = ⟨bytes.toArray⟩ := by
    unfold String.fromUTF8? at hs
    split at hs
    · cases hs; rfl
    · cases hs
  have hencode : (encode s.toList).toByteArray = s.toByteArray := String.utf8Encode_toList
  rw [← List.toList_data_toByteArray (l := encode s.toList), hencode, hbytes]

/-- A text that is written is read again. -/
theorem decode?_encode (t : List Char) : decode? (encode t) = some t := by
  have hbytes : (⟨(encode t).toArray⟩ : ByteArray) = (String.ofList t).toByteArray := by
    rw [String.toByteArray_ofList]
    exact ByteArray.ext (congrArg List.toArray List.toList_data_toByteArray.symm)
  rw [decode?, hbytes, String.fromUTF8?, dif_pos (String.ofList t).isValidUTF8]
  exact congrArg some (String.toList_ofList (l := t))

/-- The text behind its first `n` bytes; none when `n` falls inside a character or behind the text. -/
def dropBytes? : Nat → List Char → Option (List Char)
  | 0, t => some t
  | _ + 1, [] => none
  | n + 1, c :: t => if c.utf8Size ≤ n + 1 then dropBytes? (n + 1 - c.utf8Size) t else none

end BraceMode.Text
