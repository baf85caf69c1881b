import GoLowering.Source.Text

/-!
# Texts in UTF-8

The bytes of a text, and byte positions that lie between two of its characters.
-/

namespace GoLowering.Source

variable {cs before after : List Char} {c : Char}

/-- A text in UTF-8. -/
def bytes (cs : List Char) : List UInt8 := cs.flatMap String.utf8EncodeChar

@[simp] theorem bytes_nil : bytes [] = [] := rfl

@[simp] theorem bytes_cons (c : Char) (cs : List Char) :
    bytes (c :: cs) = String.utf8EncodeChar c ++ bytes cs := by
  simp [bytes]

@[simp] theorem bytes_append (a b : List Char) : bytes (a ++ b) = bytes a ++ bytes b := by
  simp [bytes]

@[simp] theorem byteLength_nil : byteLength [] = 0 := rfl

@[simp] theorem byteLength_cons (c : Char) (cs : List Char) :
    byteLength (c :: cs) = c.utf8Size + byteLength cs := rfl

@[simp] theorem byteLength_append (a b : List Char) :
    byteLength (a ++ b) = byteLength a + byteLength b := by
  induction a with
  | nil => simp
  | cons c a ih => simp [ih, Nat.add_assoc]

/-- Every character takes a byte at least. -/
theorem length_le_byteLength (cs : List Char) : cs.length ≤ byteLength cs := by
  induction cs with
  | nil => exact Nat.le_refl _
  | cons c cs ih =>
    have := c.utf8Size_pos
    rw [List.length_cons, byteLength_cons]
    omega

@[simp] theorem length_bytes (cs : List Char) : (bytes cs).length = byteLength cs := by
  induction cs with
  | nil => rfl
  | cons c cs ih => simp [ih, String.length_utf8EncodeChar]

theorem byteLength_toList (text : String) : byteLength text.toList = text.utf8ByteSize := by
  have hlist : text.toByteArray = text.toList.utf8Encode := by
    rw [← String.toByteArray_ofList, String.ofList_toList]
  rw [← length_bytes, ← String.size_toByteArray, hlist]
  simp [bytes, List.utf8Encode]

/-! ## Characters of one byte and of more -/

theorem encode_of_lt {c : Char} (h : c.toNat < 128) :
    String.utf8EncodeChar c = [UInt8.ofNat c.toNat] := by
  have hsmall : c.toNat ≤ 127 := Nat.le_of_lt_succ h
  simp [String.utf8EncodeChar, hsmall]

/-- The bytes of a longer character are no characters by themselves. -/
theorem le_of_mem_encode {c : Char} {b : UInt8} (h : 128 ≤ c.toNat)
    (hb : b ∈ String.utf8EncodeChar c) : 128 ≤ b.toNat := by
  have hlarge : ¬c.val.toNat ≤ 127 := Nat.not_le.mpr h
  have hvalid : c.val.toNat < 0x110000 := by
    rcases c.valid with hv | hv <;> omega
  have hlead {n : Nat} (hlow : 128 ≤ n) (hhigh : n < 256) : 128 ≤ (UInt8.ofNat n).toNat := by
    rw [UInt8.toNat_ofNat']
    omega
  unfold String.utf8EncodeChar at hb
  simp only [hlarge, if_false] at hb
  split at hb
  · simp only [List.mem_cons, List.not_mem_nil, or_false] at hb
    rcases hb with rfl | rfl <;> exact hlead (by omega) (by omega)
  split at hb
  · simp only [List.mem_cons, List.not_mem_nil, or_false] at hb
    rcases hb with rfl | rfl | rfl <;> exact hlead (by omega) (by omega)
  · simp only [List.mem_cons, List.not_mem_nil, or_false] at hb
    rcases hb with rfl | rfl | rfl | rfl <;> exact hlead (by omega) (by omega)

/-- Only a newline has the byte of a newline in it. -/
theorem count_newline_encode (c : Char) :
    (String.utf8EncodeChar c).count 10 = if c = '\n' then 1 else 0 := by
  by_cases hc : c = '\n'
  · subst hc; rfl
  rw [if_neg hc, List.count_eq_zero]
  intro hmem
  by_cases hsmall : c.toNat < 128
  · rw [encode_of_lt hsmall, List.mem_singleton] at hmem
    have hcode := congrArg UInt8.toNat hmem
    rw [UInt8.toNat_ofNat', show (10 : UInt8).toNat = 10 from rfl] at hcode
    exact hc (Char.toNat_inj.mp (by rw [show ('\n').toNat = 10 from rfl]; omega))
  · exact absurd (le_of_mem_encode (Nat.not_lt.mp hsmall) hmem) (by decide)

theorem count_newline_bytes (cs : List Char) : (bytes cs).count 10 = cs.count '\n' := by
  induction cs with
  | nil => rfl
  | cons c cs ih => simp [ih, count_newline_encode, List.count_cons, Nat.add_comm]

end GoLowering.Source
