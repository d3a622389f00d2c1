namespace FormLetter.Text

/-- Bytes in UTF-8. -/
def size8 : List Char → Nat
  | [] => 0
  | c :: cs => c.utf8Size + size8 cs

/-- Units of a character in UTF-16. -/
def units16 (c : Char) : Nat :=
  if c.toNat < 0x10000 then 1 else 2

/-- Units in UTF-16. -/
def size16 : List Char → Nat
  | [] => 0
  | c :: cs => units16 c + size16 cs

/-- Bytes of the characters that start before an offset in UTF-16 units. -/
def bytesBefore (offset : Nat) : List Char → Nat
  | [] => 0
  | c :: cs => if offset = 0 then 0 else c.utf8Size + bytesBefore (offset - units16 c) cs

@[simp] theorem size8_append : size8 (as ++ bs) = size8 as + size8 bs := by
  induction as with
  | nil => simp [size8]
  | cons c as ih =>
    rw [List.cons_append, size8, size8, ih]
    omega

@[simp] theorem size16_append : size16 (as ++ bs) = size16 as + size16 bs := by
  induction as with
  | nil => simp [size16]
  | cons c as ih =>
    rw [List.cons_append, size16, size16, ih]
    omega

theorem units16_pos (c : Char) : 0 < units16 c := by
  unfold units16
  split <;> decide

/-- The characters before the offset where a text ends are those of the text. -/
theorem bytesBefore_size16 (front rest : List Char) :
    bytesBefore (size16 front) (front ++ rest) = size8 front := by
  induction front with
  | nil => cases rest <;> simp [bytesBefore, size16, size8]
  | cons c front ih =>
    have := units16_pos c
    rw [List.cons_append, size16, bytesBefore, if_neg (by omega), Nat.add_sub_cancel_left,
      ih, size8]

end FormLetter.Text
