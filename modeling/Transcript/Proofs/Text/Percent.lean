import Mathlib.Logic.Function.Basic
import Transcript.Text.Percent

/-!
# Reading percent-encoded names

What was written by `encode` is read back by `decode`, byte by byte (`decode_encode`). So no two
texts are written in the same way (`encode_injective`). What is written has few kinds of letters
(`is_name_letter_of_mem`) and is never empty.
-/

namespace Transcript.Text.Percent

/-- A digit is read back. -/
theorem value_digit : ∀ n, n < 16 → value? (digit n) = some n := by decide

/-- Plain bytes are below the range of two bytes, and the sign for the others is not among them. -/
theorem plain_bounds {b : UInt8} (h : isPlain b = true) :
    b.toNat < 0x80 ∧ b.toNat ≠ '%'.toNat := by
  simp only [isPlain, Bool.or_eq_true, Bool.and_eq_true, decide_eq_true_eq, beq_iff_eq,
    UInt8.le_iff_toNat_le, ← UInt8.toNat_inj, UInt8.reduceToNat] at h
  have hsign : '%'.toNat = 0x25 := rfl
  omega

/-- The character of a plain byte tells the byte. -/
theorem to_nat_of_plain {b : UInt8} (h : isPlain b = true) :
    (Char.ofNat b.toNat).toNat = b.toNat := by
  have hvalid : b.toNat.isValidChar := .inl (Nat.lt_trans (plain_bounds h).1 (by decide))
  rw [Char.ofNat, dif_pos hvalid]
  rfl

/-- What is read where no byte is written with digits. -/
theorem decode_bytes_cons {c : Char} (hc : c ≠ '%') (s : List Char) :
    decodeBytes (c :: s) = (decodeBytes s).bind fun bs =>
      if c.toNat < 0x80 && isPlain (UInt8.ofNat c.toNat) then some (UInt8.ofNat c.toNat :: bs)
      else none := by
  rw [decodeBytes.eq_3 c s (fun _ _ _ h => absurd h hc)]
  rfl

/-- A byte is read back, and what follows it is read on its own. -/
theorem decode_bytes_encode_byte (b : UInt8) (s : List Char) :
    decodeBytes (encodeByte b ++ s) = (decodeBytes s).map (b :: ·) := by
  unfold encodeByte
  split
  · rename_i hplain
    obtain ⟨hlt, hsign⟩ := plain_bounds hplain
    have hchar := to_nat_of_plain hplain
    have hopen : Char.ofNat b.toNat ≠ '%' := fun heq => hsign (hchar ▸ congrArg Char.toNat heq)
    rw [List.singleton_append, decode_bytes_cons hopen, hchar, UInt8.ofNat_toNat]
    simp only [hlt, hplain, decide_true, Bool.and_self, if_true]
    exact (Option.map_eq_bind ..).symm
  · have hb : b.toNat < 256 := b.toNat_lt
    have hhigh := value_digit (b.toNat / 16) (by omega)
    have hlow := value_digit (b.toNat % 16) (by omega)
    have hbyte : UInt8.ofNat (16 * (b.toNat / 16) + b.toNat % 16) = b := by
      rw [Nat.div_add_mod]
      exact UInt8.ofNat_toNat
    show decodeBytes ('%' :: digit (b.toNat / 16) :: digit (b.toNat % 16) :: s) = _
    rw [decodeBytes, hhigh, hlow]
    simp only [Option.bind_eq_bind, Option.bind_some, hbyte]
    exact (Option.map_eq_bind ..).symm

/-- A row of bytes is read back. -/
theorem decode_bytes_flat_map (bs : List UInt8) :
    decodeBytes (bs.flatMap encodeByte) = some bs := by
  induction bs with
  | nil => rfl
  | cons b bs ih => rw [List.flatMap_cons, decode_bytes_encode_byte, ih, Option.map_some]

/-- The lone sign for the empty row is not the written form of any bytes. -/
theorem flat_map_ne_lone (bs : List UInt8) : bs.flatMap encodeByte ≠ ['%'] := by
  intro hlone
  have hread := decode_bytes_flat_map bs
  have hnone : decodeBytes ['%'] = none := by decide
  rw [hlone, hnone] at hread
  cases hread

/-- What was written is read back. -/
theorem decode_encode (s : String) : decode (encode s) = some s.toUTF8.data.toList := by
  unfold decode encode
  rw [String.toList_ofList]
  generalize s.toUTF8.data.toList = bs
  cases bs with
  | nil => rfl
  | cons b bs => exact (if_neg (flat_map_ne_lone _)).trans (decode_bytes_flat_map _)

/-- No two texts are written in the same way. -/
theorem encode_injective : Function.Injective encode := by
  intro s t h
  have hread := congrArg decode h
  rw [decode_encode, decode_encode, Option.some.injEq, Array.toList_inj] at hread
  exact String.toByteArray_inj.1 (ByteArray.ext hread)

/-! ## Letters -/

/-- The letters that names are written with. -/
def isNameLetter (c : Char) : Bool := c.isAlphanum || c == '-' || c == '_' || c == '%'

/-- A hexadecimal digit is a letter of names. -/
theorem is_name_letter_digit : ∀ n, n < 16 → isNameLetter (digit n) = true := by decide

/-- A plain byte is written with one of them. -/
theorem is_name_letter_plain {b : UInt8} (h : isPlain b = true) :
    isNameLetter (Char.ofNat b.toNat) = true := by
  have hchar := to_nat_of_plain h
  simp only [isPlain, Bool.or_eq_true, Bool.and_eq_true, decide_eq_true_eq, beq_iff_eq,
    UInt8.le_iff_toNat_le, UInt8.reduceToNat] at h
  generalize hc : Char.ofNat b.toNat = c at hchar ⊢
  rw [← hchar] at h
  have hkind (h : c.isAlphanum = true) : isNameLetter c = true := by
    unfold isNameLetter
    rw [h]
    rfl
  rcases h with (((hdigit | hupper) | hlower) | rfl) | rfl
  · have hsort : c.isDigit = true := Char.isDigit_iff_toNat.2 hdigit
    exact hkind (Bool.or_eq_true_iff.2 (.inr hsort))
  · have hsort : c.isUpper = true :=
      decide_eq_true (hupper.imp UInt32.le_iff_toNat_le.2 UInt32.le_iff_toNat_le.2)
    exact hkind (Bool.or_eq_true_iff.2 (.inl (Bool.or_eq_true_iff.2 (.inl hsort))))
  · have hsort : c.isLower = true :=
      Bool.and_eq_true_iff.2 (hlower.imp (decide_eq_true <| UInt32.le_iff_toNat_le.2 ·)
        (decide_eq_true <| UInt32.le_iff_toNat_le.2 ·))
    exact hkind (Bool.or_eq_true_iff.2 (.inl (Bool.or_eq_true_iff.2 (.inr hsort))))
  · rw [← hc]
    rfl
  · rw [← hc]
    rfl

/-- A byte is written with letters of names. -/
theorem is_name_letter_of_mem_byte {b : UInt8} {c : Char} (h : c ∈ encodeByte b) :
    isNameLetter c = true := by
  unfold encodeByte at h
  split at h
  · rename_i hplain
    rw [List.mem_singleton.1 h]
    exact is_name_letter_plain hplain
  · have hb : b.toNat < 256 := b.toNat_lt
    simp only [List.mem_cons, List.not_mem_nil, or_false] at h
    rcases h with rfl | rfl | rfl
    · rfl
    · exact is_name_letter_digit _ (by omega)
    · exact is_name_letter_digit _ (by omega)

/-- Names are written with these letters only. -/
theorem is_name_letter_of_mem {s : String} {c : Char} (h : c ∈ (encode s).toList) :
    isNameLetter c = true := by
  unfold encode at h
  rw [String.toList_ofList] at h
  cases hbytes : s.toUTF8.data.toList with
  | nil =>
      rw [hbytes] at h
      rw [List.mem_singleton.1 h]
      rfl
  | cons b bs =>
      rw [hbytes] at h
      obtain ⟨byte, -, hbyte⟩ := List.mem_flatMap.1 h
      exact is_name_letter_of_mem_byte hbyte

/-- Only the empty text is written as a lone sign. -/
theorem encode_eq_sign_iff (s : String) : encode s = "%" ↔ s = "" := by
  have hempty : encode "" = "%" := by decide
  rw [← hempty, encode_injective.eq_iff]

/-- No byte is written as nothing. -/
theorem encode_byte_ne_nil (b : UInt8) : encodeByte b ≠ [] := by
  unfold encodeByte
  split <;> exact List.cons_ne_nil _ _

/-- Nothing is written as the empty name. -/
theorem encode_ne_empty (s : String) : encode s ≠ "" := by
  intro h
  have hbytes : encodeBytes s.toUTF8.data.toList = [] := by
    rw [← String.toList_ofList (l := encodeBytes _)]
    exact congrArg String.toList h
  cases hs : s.toUTF8.data.toList with
  | nil =>
      rw [hs] at hbytes
      exact List.cons_ne_nil _ _ hbytes
  | cons b bs =>
      rw [hs] at hbytes
      exact encode_byte_ne_nil b (List.append_eq_nil_iff.1 hbytes).1

end Transcript.Text.Percent
