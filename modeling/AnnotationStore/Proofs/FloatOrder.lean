import Mathlib
import AnnotationStore.Number.Power
/-!
# The order of binary64 values

Floats compare through their unpacked form: infinities at the ends, finite numbers of one sign
by exponent and then mantissa, the two zeros equal. `rank` places every unpacked number in a
lexicographic order that agrees with that comparison and splits the two zeros, negative zero
first. Unpacking is injective on valid bit patterns, since the sign, exponent and mantissa
fields can be read back from the unpacked number, so `key` orders the floats themselves
linearly: apart from the two zeros, one float is below another exactly when its key is.
-/

namespace AnnotationStore.FloatOrder

open Float.Model Float.Model.UnpackedFloat

/-! ## Unpacked numbers -/

/-- Where an unpacked number stands: negative infinity, negative finite numbers, the zeros,
positive finite numbers, positive infinity, and NaN apart at the top. -/
def rank : UnpackedFloat → ℤ ×ₗ ℤ ×ₗ ℤ
  | .infinity .negative => toLex (0, toLex (0, 0))
  | .finite .negative m e _ => toLex (1, toLex (-e, -(m : ℤ)))
  | .zero .negative => toLex (2, toLex (0, 0))
  | .zero .positive => toLex (3, toLex (0, 0))
  | .finite .positive m e _ => toLex (4, toLex (e, (m : ℤ)))
  | .infinity .positive => toLex (5, toLex (0, 0))
  | .notANumber => toLex (6, toLex (0, 0))

def IsZero : UnpackedFloat → Prop
  | .zero _ => True
  | _ => False

theorem isZero_iff {u : UnpackedFloat} : IsZero u ↔ ∃ s, u = .zero s := by
  cases u <;> simp [IsZero]

theorem then_eq_lt_iff {e₁ e₂ : ℤ} {m₁ m₂ : ℕ} :
    (compare e₁ e₂).then (compare m₁ m₂) = .lt ↔ toLex (e₁, (m₁ : ℤ)) < toLex (e₂, (m₂ : ℤ)) := by
  simp [Ordering.then_eq_lt, Prod.Lex.toLex_lt_toLex, compare_lt_iff_lt]

theorem then_eq_gt_iff {e₁ e₂ : ℤ} {m₁ m₂ : ℕ} :
    (compare e₁ e₂).then (compare m₁ m₂) = .gt ↔
      toLex (-e₁, -(m₁ : ℤ)) < toLex (-e₂, -(m₂ : ℤ)) := by
  simp [Ordering.then_eq_gt, Prod.Lex.toLex_lt_toLex, compare_gt_iff_gt]

theorem compare_negative_positive : compare Sign.negative Sign.positive = .lt := rfl

theorem compare_sign_self (s : Sign) : compare s s = .eq := by
  cases s <;> rfl

/-- Below one another, away from NaN, is below in rank, except between two zeros. -/
theorem lt_iff_rank_lt {u v : UnpackedFloat} (hu : u.isNaN = false) (hv : v.isNaN = false) :
    u.lt v = true ↔ rank u < rank v ∧ ¬(IsZero u ∧ IsZero v) := by
  -- the comparison is one match over both numbers; each pair of shapes is a computation
  rcases u with ⟨_ | _⟩ | _ | ⟨_ | _⟩ | ⟨_ | _, m₁, e₁, _⟩ <;>
    rcases v with ⟨_ | _⟩ | _ | ⟨_ | _⟩ | ⟨_ | _, m₂, e₂, _⟩ <;>
    simp_all [UnpackedFloat.lt, UnpackedFloat.compare, rank, IsZero, UnpackedFloat.isNaN,
      Prod.Lex.toLex_lt_toLex, then_eq_lt_iff, then_eq_gt_iff, compare_negative_positive]

theorem rank_injective : Function.Injective rank := by
  intro u v h
  rcases u with ⟨_ | _⟩ | _ | ⟨_ | _⟩ | ⟨_ | _, m₁, e₁, _⟩ <;>
    rcases v with ⟨_ | _⟩ | _ | ⟨_ | _⟩ | ⟨_ | _, m₂, e₂, _⟩ <;>
    simp_all [rank]

theorem beq_self {u : UnpackedFloat} (hu : u.isNaN = false) : u.beq u = true := by
  rcases u with ⟨_ | _⟩ | _ | ⟨_ | _⟩ | ⟨_ | _, m, e, _⟩ <;>
    simp_all [UnpackedFloat.beq, UnpackedFloat.compare, UnpackedFloat.isNaN, compare_sign_self]

theorem beq_zero_iff (u : UnpackedFloat) : u.beq (.zero .positive) = true ↔ IsZero u := by
  rcases u with ⟨_ | _⟩ | _ | ⟨_ | _⟩ | ⟨_ | _, m, e, _⟩ <;>
    simp [UnpackedFloat.beq, UnpackedFloat.compare, IsZero]

/-! ## Bit patterns -/

def signBit : Sign → ℕ
  | .negative => 1
  | .positive => 0

theorem signBit_ofBitVec (v : BitVec 1) : signBit (Sign.ofBitVec v) = v.toNat := by
  unfold Sign.ofBitVec
  split
  · rename_i h
    subst h
    rfl
  · rename_i h
    have hlt := v.isLt
    have hne : v.toNat ≠ 0 := fun h' => h (BitVec.eq_of_toNat_eq h')
    simp only [signBit]
    omega

theorem toNat_unpackMantissa_of (spec : Format) (b : BitVec spec.numBits) :
    (@unpackMantissa spec b).toNat = b.toNat % 2 ^ spec.mantissaBitsWithoutImplicit := by
  have := spec.hm
  simp [unpackMantissa]
  congr 2
  omega

theorem toNat_unpackExponent_of (spec : Format) (b : BitVec spec.numBits) :
    (@unpackExponent spec b).toNat = b.toNat / 2 ^ spec.mantissaBitsWithoutImplicit % 2 ^ spec.exponentBits := by
  have := spec.he
  simp [unpackExponent, Nat.shiftRight_eq_div_pow]
  congr 2
  omega

theorem toNat_unpackSign_of (spec : Format) (b : BitVec spec.numBits) :
    (@unpackSign spec b).toNat = b.toNat / 2 ^ (spec.mantissaBitsWithoutImplicit + spec.exponentBits) := by
  have hlt := b.isLt
  -- the sign is the one bit above the exponent and the mantissa
  have hpow : 2 ^ spec.numBits = 2 ^ (spec.mantissaBitsWithoutImplicit + spec.exponentBits) * 2 := by
    rw [← pow_succ]
    congr 1
    simp only [Format.numBits]
    omega
  have hdiv : b.toNat / 2 ^ (spec.mantissaBitsWithoutImplicit + spec.exponentBits) < 2 :=
    Nat.div_lt_of_lt_mul (by omega)
  simp [unpackSign, Nat.shiftRight_eq_div_pow]
  omega

theorem toNat_unpackMantissa (b : BitVec 64) :
    (@unpackMantissa Format.binary64 b).toNat = b.toNat % 2 ^ 52 :=
  toNat_unpackMantissa_of .binary64 b

theorem toNat_unpackExponent (b : BitVec 64) :
    (@unpackExponent Format.binary64 b).toNat = b.toNat / 2 ^ 52 % 2 ^ 11 :=
  toNat_unpackExponent_of .binary64 b

theorem toNat_unpackSign (b : BitVec 64) :
    (@unpackSign Format.binary64 b).toNat = b.toNat / 2 ^ 63 :=
  toNat_unpackSign_of .binary64 b

/-- The sign, biased exponent and stored mantissa an unpacked binary64 number comes from. -/
def fields : UnpackedFloat → ℕ × ℕ × ℕ
  | .infinity s => (signBit s, 2047, 0)
  | .zero s => (signBit s, 0, 0)
  | .finite s m e _ =>
    if m < 2 ^ 52 then (signBit s, 0, m) else (signBit s, (e + 1075).toNat, m - 2 ^ 52)
  | .notANumber => (0, 2047, 2 ^ 51)

/-- Away from NaN, the fields read back from the unpacked number are the pattern's own. -/
theorem fields_unpack (b : BitVec 64) (hnan : (UnpackedFloat.unpack .binary64 b).isNaN = false) :
    fields (UnpackedFloat.unpack .binary64 b) =
      (b.toNat / 2 ^ 63, b.toNat / 2 ^ 52 % 2 ^ 11, b.toNat % 2 ^ 52) := by
  have hm := toNat_unpackMantissa b
  have he := toNat_unpackExponent b
  have hs := toNat_unpackSign b
  have hmlt : (@unpackMantissa Format.binary64 b).toNat < 2 ^ 52 :=
    (@unpackMantissa Format.binary64 b).isLt
  -- the cases are those of `unpack`: an all-ones exponent, an all-zeros one, and the rest
  unfold UnpackedFloat.unpack at hnan ⊢
  dsimp only at hnan ⊢
  split
  next hinf =>
    have he' : (@unpackExponent Format.binary64 b).toNat = 2047 := by rw [hinf]; rfl
    split
    next hzero =>
      have hm' : (@unpackMantissa Format.binary64 b).toNat = 0 := by rw [hzero]; rfl
      simp only [fields, signBit_ofBitVec, Prod.mk.injEq]
      omega
    next hnz =>
      -- an all-ones exponent with a mantissa is NaN
      rw [if_pos hinf, if_neg hnz] at hnan
      cases hnan
  next hninf =>
    split
    next hsub =>
      have he' : (@unpackExponent Format.binary64 b).toNat = 0 := by rw [hsub]; rfl
      split
      next hzero =>
        have hm' : (@unpackMantissa Format.binary64 b).toNat = 0 := by rw [hzero]; rfl
        simp only [fields, signBit_ofBitVec, Prod.mk.injEq]
        omega
      next hnz =>
        -- a subnormal number keeps its stored mantissa, below the leading one
        simp only [fields, signBit_ofBitVec, if_pos hmlt, Prod.mk.injEq]
        omega
    next hnorm =>
      -- a normal number: the mantissa has its leading one, the exponent its bias
      have hne : (@unpackExponent Format.binary64 b).toNat ≠ 0 := fun h =>
        hnorm (BitVec.eq_of_toNat_eq h)
      have hne' : (@unpackExponent Format.binary64 b).toNat ≠ 2047 := fun h =>
        hninf (BitVec.eq_of_toNat_eq h)
      have hone : (1#1 ++ @unpackMantissa Format.binary64 b).toNat =
          2 ^ 52 + (@unpackMantissa Format.binary64 b).toNat := by
        rw [BitVec.toNat_append, ← Nat.shiftLeft_add_eq_or_of_lt hmlt]
        rfl
      have hbias : Format.binary64.exponentBias = 1023 := rfl
      simp only [fields]
      rw [hone, if_neg (by omega), hbias]
      simp only [signBit_ofBitVec, Prod.mk.injEq]
      omega

/-- NaN unpacks only from an all-ones exponent with a mantissa. -/
theorem unpack_isNaN {b : BitVec 64} (hnan : (UnpackedFloat.unpack .binary64 b).isNaN = true) :
    @unpackExponent Format.binary64 b = -1#11 ∧ @unpackMantissa Format.binary64 b ≠ 0#52 := by
  unfold UnpackedFloat.unpack at hnan
  dsimp only at hnan
  split at hnan
  next hinf =>
    split at hnan
    next => cases hnan
    next hnz => exact ⟨hinf, hnz⟩
  next =>
    split at hnan
    next =>
      split at hnan <;> cases hnan
    next => cases hnan

theorem unpack_injective {b c : BitVec 64} (hb : Format.binary64.Valid b)
    (hc : Format.binary64.Valid c)
    (h : UnpackedFloat.unpack .binary64 b = UnpackedFloat.unpack .binary64 c) : b = c := by
  cases hnan : (UnpackedFloat.unpack .binary64 b).isNaN with
  | true =>
    -- NaN has one valid pattern
    obtain ⟨hbe, hbm⟩ := unpack_isNaN hnan
    obtain ⟨hce, hcm⟩ := unpack_isNaN (h ▸ hnan)
    exact (hb.eq_packedNaN hbe hbm).trans (hc.eq_packedNaN hce hcm).symm
  | false =>
    have hfields := congrArg fields h
    rw [fields_unpack b hnan, fields_unpack c (h ▸ hnan)] at hfields
    simp only [Prod.mk.injEq] at hfields
    have hblt := b.isLt
    have hclt := c.isLt
    apply BitVec.eq_of_toNat_eq
    omega

/-! ## Floats -/

/-- The place of a float in the order of binary64 values. -/
def key (x : Float) : ℤ ×ₗ ℤ ×ₗ ℤ := rank x.toModel.unpack

theorem key_injective : Function.Injective key := by
  intro x y h
  have hunpack := rank_injective h
  obtain ⟨⟨bx, hx⟩⟩ := x
  obtain ⟨⟨bY, hy⟩⟩ := y
  have hbits : bx = bY := UInt64.toBitVec_inj.mp (unpack_injective hx hy hunpack)
  subst hbits
  rfl

/-- Away from NaN, one float is below another just when its key is, unless both are zeros. -/
theorem lt_iff_key_lt {x y : Float} (hx : x.isNaN = false) (hy : y.isNaN = false) :
    x < y ↔ key x < key y ∧ ¬(IsZero x.toModel.unpack ∧ IsZero y.toModel.unpack) :=
  decide_eq_true_iff.trans (lt_iff_rank_lt hx hy)

/-- Two floats away from NaN that are not apart are one float, or two zeros. -/
theorem eq_or_isZero_of_not_lt {x y : Float} (hx : x.isNaN = false) (hy : y.isNaN = false)
    (hxy : ¬x < y) (hyx : ¬y < x) :
    x = y ∨ (IsZero x.toModel.unpack ∧ IsZero y.toModel.unpack) := by
  by_cases hz : IsZero x.toModel.unpack ∧ IsZero y.toModel.unpack
  · exact .inr hz
  · left
    have hle : key y ≤ key x := not_lt.mp fun h => hxy ((lt_iff_key_lt hx hy).mpr ⟨h, hz⟩)
    have hge : key x ≤ key y := not_lt.mp fun h => hyx ((lt_iff_key_lt hy hx).mpr ⟨h, fun ⟨h₁, h₂⟩ => hz ⟨h₂, h₁⟩⟩)
    exact key_injective (le_antisymm hge hle)

theorem beq_self_of_not_isNaN {x : Float} (hx : x.isNaN = false) : (x == x) = true :=
  beq_self hx

theorem beq_zero_iff_isZero (x : Float) : (x == 0) = true ↔ IsZero x.toModel.unpack :=
  beq_zero_iff x.toModel.unpack

/-- A zero is negative exactly when its pattern is not all zeros. -/
theorem toBits_eq_zero_iff {x : Float} {s : Sign} (hz : x.toModel.unpack = .zero s) :
    x.toBits = 0 ↔ s = .positive := by
  have hfields := fields_unpack x.toModel.toBits.toBitVec (by rw [show unpack _ _ = _ from hz]; rfl)
  rw [show unpack _ _ = _ from hz] at hfields
  have hlt := x.toModel.toBits.toBitVec.isLt
  simp only [fields, Prod.mk.injEq] at hfields
  rw [← UInt64.toNat_inj]
  show x.toModel.toBits.toBitVec.toNat = 0 ↔ _
  cases s with
  | negative =>
    simp only [signBit] at hfields
    exact ⟨fun h => by omega, fun h => by cases h⟩
  | positive =>
    simp only [signBit] at hfields
    exact ⟨fun _ => rfl, fun _ => by omega⟩

end AnnotationStore.FloatOrder
