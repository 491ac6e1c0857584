import Mathlib
import AnnotationStore.Text.Utf8
import AnnotationStore.Proofs.Bytes.Read
/-!
# Reading back well-formed text

The reader gives back every text its own UTF-8 bytes encode (`decodeBytes_toUTF8`): for each
character, the lead byte of its encoding selects the branch of `step` for its length, the
continuation bytes pass the checks (the second byte's range rules out only overlong forms,
surrogates and code points past U+10FFFF, which no character has), and the bits reassemble
to the code point.
-/

namespace AnnotationStore.Utf8

/-! ## The bytes of an encoding -/

theorem and_or_eq_add_mod (x k a : Nat) : x &&& (2 ^ k - 1) ||| 2 ^ k * a = 2 ^ k * a + x % 2 ^ k := by
  rw [Nat.and_two_pow_sub_one_eq_mod, Nat.or_comm, Nat.two_pow_add_eq_or_of_lt (Nat.mod_lt _ (by positivity))]

section Bytes
variable (x : UInt8)
@[simp] theorem toNat_lead2 : (x &&& 0x1f ||| 0xc0).toNat = 0xc0 + x.toNat % 32 := by
  simp only [UInt8.toNat_or, UInt8.toNat_and, UInt8.reduceToNat]
  exact and_or_eq_add_mod x.toNat 5 6
@[simp] theorem toNat_lead3 : (x &&& 0x0f ||| 0xe0).toNat = 0xe0 + x.toNat % 16 := by
  simp only [UInt8.toNat_or, UInt8.toNat_and, UInt8.reduceToNat]
  exact and_or_eq_add_mod x.toNat 4 14
@[simp] theorem toNat_lead4 : (x &&& 0x07 ||| 0xf0).toNat = 0xf0 + x.toNat % 8 := by
  simp only [UInt8.toNat_or, UInt8.toNat_and, UInt8.reduceToNat]
  exact and_or_eq_add_mod x.toNat 3 30
@[simp] theorem toNat_tail : (x &&& 0x3f ||| 0x80).toNat = 0x80 + x.toNat % 64 := by
  simp only [UInt8.toNat_or, UInt8.toNat_and, UInt8.reduceToNat]
  exact and_or_eq_add_mod x.toNat 6 2
end Bytes

theorem toNat_shift (c : Char) (k : UInt32) (hk : k.toNat < 32) :
    (c.val >>> k).toUInt8.toNat = c.toNat / 2 ^ k.toNat % 256 := by
  simp [UInt32.toNat_toUInt8, UInt32.toNat_shiftRight, Nat.shiftRight_eq_div_pow, Nat.mod_eq_of_lt hk]

theorem isTail_of {b : UInt8} (h : 0x80 ≤ b.toNat ∧ b.toNat ≤ 0xBF) : isTail b = true := by
  simp [isTail, UInt8.le_iff_toNat_le]
  omega

/-- One step reads back the character whose bytes start the list, and leaves the rest. -/
theorem step_encode (bad : UInt8 → Char) (c : Char) (rest : List UInt8) {l : List UInt8}
    (hl : String.utf8EncodeChar c ++ rest = l) (h : l ≠ []) :
    (step bad l h).1 = c ∧ (step bad l h).2.1 = rest := by
  have hvalid : c.toNat < 0xd800 ∨ (0xdfff < c.toNat ∧ c.toNat < 0x110000) := c.valid
  have hchar : ∀ n, n = c.toNat → Char.ofNat n = c := fun n hn => hn ▸ Char.ofNat_toNat c
  have hlow : (c.val.toUInt8).toNat = c.toNat % 256 := by
    simp only [UInt32.toNat_toUInt8]
    rfl
  -- one case per encoded length; in each, the lead byte picks the branch that decodes it
  rcases Char.utf8Size_eq c with h1 | h2 | h3 | h4
  · have hv : c.toNat ≤ 127 := by simpa [UInt32.le_iff_toNat_le] using Char.utf8Size_eq_one_iff.mp h1
    rw [String.utf8EncodeChar_eq_singleton h1, List.singleton_append] at hl
    subst hl
    simp only [step, hlow]
    split_ifs <;> first | omega | exact ⟨hchar _ (by omega), rfl⟩
  · have hv : 127 < c.toNat ∧ c.toNat ≤ 0x7ff := by
      simpa [UInt32.lt_iff_toNat_lt, UInt32.le_iff_toNat_le] using Char.utf8Size_eq_two_iff.mp h2
    rw [String.utf8EncodeChar_eq_cons_cons h2, List.cons_append, List.singleton_append] at hl
    subst hl
    have h6 : (c.val >>> 6).toUInt8.toNat = c.toNat / 64 % 256 := by simpa using toNat_shift c 6 (by decide)
    have htail := isTail_of (b := c.val.toUInt8 &&& 0x3f ||| 0x80) (by simp only [toNat_tail]; omega)
    simp only [step, toNat_lead2, toNat_tail, h6, hlow, htail]
    split_ifs <;> first | omega | exact ⟨hchar _ (by omega), rfl⟩
  · have hv : 0x7ff < c.toNat ∧ c.toNat ≤ 0xffff := by
      simpa [UInt32.lt_iff_toNat_lt, UInt32.le_iff_toNat_le] using Char.utf8Size_eq_three_iff.mp h3
    rw [String.utf8EncodeChar_eq_cons_cons_cons h3, List.cons_append, List.cons_append,
      List.singleton_append] at hl
    subst hl
    have h6 : (c.val >>> 6).toUInt8.toNat = c.toNat / 64 % 256 := by simpa using toNat_shift c 6 (by decide)
    have h12 : (c.val >>> 12).toUInt8.toNat = c.toNat / 4096 % 256 := by
      simpa using toNat_shift c 12 (by decide)
    have htail1 := isTail_of (b := (c.val >>> 6).toUInt8 &&& 0x3f ||| 0x80) (by simp only [toNat_tail]; omega)
    have htail2 := isTail_of (b := c.val.toUInt8 &&& 0x3f ||| 0x80) (by simp only [toNat_tail]; omega)
    -- the second byte stays clear of overlong forms and surrogates
    have hsecond : secondOk ((c.val >>> 12).toUInt8 &&& 0x0f ||| 0xe0) ((c.val >>> 6).toUInt8 &&& 0x3f ||| 0x80) := by
      simp only [secondOk, secondRange, ← UInt8.toNat_inj, toNat_lead3, toNat_tail, h6, h12, UInt8.reduceToNat]
      split_ifs <;> simp <;> omega
    simp only [step, toNat_lead3, toNat_tail, h6, h12, hlow, htail1, htail2, hsecond]
    -- the branch refusing the continuation bytes contradicts hsecond and the tails
    split_ifs <;> first | omega | exact ⟨hchar _ (by omega), rfl⟩ | simp_all
  · have hv : 0xffff < c.toNat := by
      simpa [UInt32.lt_iff_toNat_lt] using Char.utf8Size_eq_four_iff.mp h4
    rw [String.utf8EncodeChar_eq_cons_cons_cons_cons h4, List.cons_append, List.cons_append, List.cons_append,
      List.singleton_append] at hl
    subst hl
    have h6 : (c.val >>> 6).toUInt8.toNat = c.toNat / 64 % 256 := by simpa using toNat_shift c 6 (by decide)
    have h12 : (c.val >>> 12).toUInt8.toNat = c.toNat / 4096 % 256 := by
      simpa using toNat_shift c 12 (by decide)
    have h18 : (c.val >>> 18).toUInt8.toNat = c.toNat / 262144 % 256 := by
      simpa using toNat_shift c 18 (by decide)
    have htail1 := isTail_of (b := (c.val >>> 12).toUInt8 &&& 0x3f ||| 0x80) (by simp only [toNat_tail]; omega)
    have htail2 := isTail_of (b := (c.val >>> 6).toUInt8 &&& 0x3f ||| 0x80) (by simp only [toNat_tail]; omega)
    have htail3 := isTail_of (b := c.val.toUInt8 &&& 0x3f ||| 0x80) (by simp only [toNat_tail]; omega)
    -- the second byte stays clear of overlong forms and of code points past the last
    have hsecond : secondOk ((c.val >>> 18).toUInt8 &&& 0x07 ||| 0xf0) ((c.val >>> 12).toUInt8 &&& 0x3f ||| 0x80) := by
      simp only [secondOk, secondRange, ← UInt8.toNat_inj, toNat_lead4, toNat_tail, h12, h18, UInt8.reduceToNat]
      split_ifs <;> simp <;> omega
    simp only [step, toNat_lead4, toNat_tail, h6, h12, h18, hlow, htail1, htail2, htail3, hsecond]
    split_ifs <;> first | omega | exact ⟨hchar _ (by omega), rfl⟩ | simp_all
theorem decodeAux_of_ne_nil {bad : UInt8 → Char} {l : List UInt8} (h : l ≠ []) (acc : List Char) :
    decodeAux bad l acc = decodeAux bad (step bad l h).2.1 ((step bad l h).1 :: acc) := by
  rw [decodeAux, dif_neg h]

/-! ## Whole texts -/

theorem decodeAux_flatMap_encode (bad : UInt8 → Char) :
    ∀ (cs acc : List Char), decodeAux bad (cs.flatMap String.utf8EncodeChar) acc = acc.reverse ++ cs
  | [], acc => by
    rw [decodeAux, dif_pos (by simp)]
    simp
  | c :: cs, acc => by
    have hne : (c :: cs).flatMap String.utf8EncodeChar ≠ [] := by simp [String.utf8EncodeChar_ne_nil]
    obtain ⟨hc, hrest⟩ := step_encode bad c (cs.flatMap String.utf8EncodeChar) List.flatMap_cons.symm hne
    rw [decodeAux_of_ne_nil hne, hrest, hc, decodeAux_flatMap_encode bad cs]
    simp

theorem toList_toUTF8 (s : String) : s.toUTF8.toList = s.toList.flatMap String.utf8EncodeChar := by
  rw [ByteArray.toList_eq, String.toUTF8_eq_toByteArray]
  conv_lhs => rw [← String.ofList_toList (s := s)]
  rw [String.toByteArray_ofList, List.utf8Encode, List.toList_data_toByteArray]

/-- The text of a string's own bytes is the string. -/
theorem decodeBytes_toUTF8 (s : String) : decodeBytes s.toUTF8 = s := by
  rw [decodeBytes, decode, toList_toUTF8, decodeAux_flatMap_encode]
  simp

theorem decodeKeeping_toUTF8 (s : String) : decodeKeeping s.toUTF8 = s := by
  rw [decodeKeeping, toList_toUTF8, decodeAux_flatMap_encode]
  simp

end AnnotationStore.Utf8
