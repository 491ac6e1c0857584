import Mathlib
import AnnotationStore.Proofs.FloatOrder
/-!
# Bit patterns of binary32 numbers

Packed coordinates are binary32 numbers written as their bit patterns. Reading a pattern
back gives the number it was written from: unpacking a valid pattern (one whose NaN is the
canonical NaN, as every `Float32` has) and packing the result again gives the pattern back,
field by field (sign, biased exponent, stored mantissa), in each of the shapes `unpack`
distinguishes. So `Float32.ofBits` undoes `Float32.toBits` (`float32_ofBits_toBits`).
-/

namespace AnnotationStore.FloatBits

open Float.Model Float.Model.UnpackedFloat FloatOrder

/-! ## Packing -/

theorem toNat_append_eq {n m : Nat} (x : BitVec n) (y : BitVec m) :
    (x ++ y).toNat = x.toNat * 2 ^ m + y.toNat := by
  rw [BitVec.toNat_append, ← Nat.shiftLeft_add_eq_or_of_lt y.isLt, Nat.shiftLeft_eq]

theorem toNat_sign_toBitVec (s : Sign) : s.toBitVec.toNat = signBit s := by
  cases s <;> rfl

theorem toNat_packComponents (spec : Format) (s : Sign) (e : BitVec spec.exponentBits)
    (m : BitVec spec.mantissaBitsWithoutImplicit) :
    (packComponents spec s e m).toNat =
      signBit s * 2 ^ (spec.exponentBits + spec.mantissaBitsWithoutImplicit) +
        e.toNat * 2 ^ spec.mantissaBitsWithoutImplicit + m.toNat := by
  simp only [packComponents, toNat_append_eq, toNat_sign_toBitVec, pow_add]
  ring

/-- A valid binary32 pattern is packed back from its unpacked number. -/
theorem pack_unpack_binary32 (b : BitVec 32) (hv : Format.binary32.Valid b) :
    UnpackedFloat.pack .binary32 (UnpackedFloat.unpack .binary32 b) = b := by
  have hm := toNat_unpackMantissa_of .binary32 b
  have he := toNat_unpackExponent_of .binary32 b
  have hs := toNat_unpackSign_of .binary32 b
  have hlt := b.isLt
  have hmlt := (@unpackMantissa Format.binary32 b).isLt
  simp only [Format.binary32] at hm he hs hmlt
  apply BitVec.eq_of_toNat_eq
  unfold UnpackedFloat.unpack
  dsimp only
  split
  next hinf =>
    have he' : (@unpackExponent Format.binary32 b).toNat = 255 := by rw [hinf]; rfl
    split
    next hzero =>
      have hm' : (@unpackMantissa Format.binary32 b).toNat = 0 := by rw [hzero]; rfl
      simp only [UnpackedFloat.pack, packedInfinity, toNat_packComponents, signBit_ofBitVec]
      simp
      omega
    next hnz => rw [UnpackedFloat.pack, hv.eq_packedNaN hinf hnz]
  next hninf =>
    split
    next hsub =>
      have he' : (@unpackExponent Format.binary32 b).toNat = 0 := by rw [hsub]; rfl
      split
      next hzero =>
        have hm' : (@unpackMantissa Format.binary32 b).toNat = 0 := by rw [hzero]; rfl
        simp only [UnpackedFloat.pack, packedZero, toNat_packComponents, signBit_ofBitVec]
        simp
        omega
      next hnz =>
        -- a subnormal number: its mantissa stays below the implicit bit
        have hpos : (@unpackMantissa Format.binary32 b).toNat ≠ 0 := fun h =>
          hnz (BitVec.eq_of_toNat_eq h)
        have hlog : (@unpackMantissa Format.binary32 b).toNat.log2 < 23 := (Nat.log2_lt hpos).mpr hmlt
        simp only [UnpackedFloat.pack]
        rw [if_neg (by simp [he', Format.exponentBias]), if_neg (by simp [Format.mantissaBits]; omega)]
        simp only [toNat_packComponents, signBit_ofBitVec]
        simp
        omega
    next hnorm =>
      -- a normal number: the leading one is dropped and the exponent's bias restored
      have hne : (@unpackExponent Format.binary32 b).toNat ≠ 0 := fun h =>
        hnorm (BitVec.eq_of_toNat_eq h)
      have hne' : (@unpackExponent Format.binary32 b).toNat ≠ 255 := fun h =>
        hninf (BitVec.eq_of_toNat_eq h)
      have hone : (1#1 ++ @unpackMantissa Format.binary32 b).toNat =
          2 ^ 23 + (@unpackMantissa Format.binary32 b).toNat := by
        rw [toNat_append_eq]
        rfl
      have hlog : (1#1 ++ @unpackMantissa Format.binary32 b).toNat.log2 = 23 := by
        rw [hone, Nat.log2_eq_iff (by omega)]
        omega
      simp only [UnpackedFloat.pack]
      rw [if_neg (by simp [Format.exponentBias]; omega), if_pos (by simp [hlog, Format.mantissaBits])]
      simp only [toNat_packComponents, signBit_ofBitVec]
      simp [hone, Format.exponentBias]
      omega

/-- Reading a binary32 number's bits gives the number. -/
theorem float32_ofBits_toBits (x : Float32) : Float32.ofBits x.toBits = x := by
  obtain ⟨⟨bits, valid⟩⟩ := x
  simp only [Float32.ofBits, Float32.toBits, Float32.Model.ofBits, Float32.Model.pack,
    pack_unpack_binary32 _ valid]

end AnnotationStore.FloatBits
