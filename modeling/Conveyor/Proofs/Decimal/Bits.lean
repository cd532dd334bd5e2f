/-
The bits of a finite float.

A float is made of bits by taking them apart and putting them together again, so that all bits that
stand for no number become the same. Bits that stand for a finite number are not changed by this
(`toBits_ofBits`): a number that has a leading bit, one that has none, and zero are each put
together from the sign, the exponent field and the significand field that they were taken apart
into.
-/
import Conveyor.Proofs.Decimal.Whole

set_option autoImplicit false

namespace Conveyor.Decimal

open Float.Model Float.Model.UnpackedFloat

variable {w : BitVec 64}

theorem toBitVec_ofBitVec (s : BitVec 1) : (Sign.ofBitVec s).toBitVec = s := by
  revert s
  decide

/-- The three fields of a float one after another. -/
theorem toNat_packComponents (sign : Sign) (field : BitVec 11) (fraction : BitVec 52) :
    (packComponents .binary64 sign field fraction).toNat
      = sign.toBitVec.toNat * 2 ^ 63 + field.toNat * 2 ^ 52 + fraction.toNat := by
  have upper : (sign.toBitVec ++ field).toNat = sign.toBitVec.toNat * 2 ^ 11 + field.toNat := by
    rw [BitVec.toNat_append, ← Nat.shiftLeft_add_eq_or_of_lt field.isLt, Nat.shiftLeft_eq]
  have whole : (sign.toBitVec ++ field ++ fraction).toNat
      = (sign.toBitVec ++ field).toNat * 2 ^ 52 + fraction.toNat := by
    rw [BitVec.toNat_append, ← Nat.shiftLeft_add_eq_or_of_lt fraction.isLt, Nat.shiftLeft_eq]
  show (sign.toBitVec ++ field ++ fraction).toNat = _
  rw [whole, upper]
  omega

/-- The fields of some bits, put together again. -/
theorem packComponents_fields (w : BitVec 64) : packComponents .binary64
    (Sign.ofBitVec (@unpackSign .binary64 w)) (@unpackExponent .binary64 w)
    (@unpackMantissa .binary64 w) = w := by
  refine BitVec.eq_of_toNat_eq ?_
  rw [toNat_packComponents, toBitVec_ofBitVec, toNat_unpackSign, toNat_unpackExponent,
    toNat_unpackMantissa]
  have := w.isLt
  omega

/-- Bits that stand for a finite number are put together as they were. -/
theorem pack_unpack (finite : @unpackExponent .binary64 w ≠ -1#11) :
    UnpackedFloat.pack .binary64 (UnpackedFloat.unpack .binary64 w) = w := by
  have fields := packComponents_fields w
  have below : (@unpackExponent .binary64 w).toNat ≠ 2047 :=
    fun last => finite (BitVec.eq_of_toNat_eq last)
  have range : (@unpackExponent .binary64 w).toNat < 2048 := (@unpackExponent .binary64 w).isLt
  have width : (@unpackMantissa .binary64 w).toNat < 2 ^ 52 := (@unpackMantissa .binary64 w).isLt
  unfold UnpackedFloat.unpack
  simp only
  rw [if_neg finite]
  by_cases first : @unpackExponent .binary64 w = 0#11
  -- Without a leading bit there is zero, and there are numbers that are told apart by the length of
  -- their significand.
  · rw [if_pos first]
    rw [first] at fields
    by_cases zero : @unpackMantissa .binary64 w = 0#52
    · rw [dif_pos zero]
      rw [zero] at fields
      exact fields
    · rw [dif_neg zero]
      have pos : (@unpackMantissa .binary64 w).toNat ≠ 0 :=
        fun same => zero (BitVec.eq_of_toNat_eq same)
      have short : (@unpackMantissa .binary64 w).toNat.log2 < 52 := (Nat.log2_lt pos).2 width
      unfold UnpackedFloat.pack
      simp only [exponentBias, first]
      rw [if_neg (by decide), if_neg (by show _ ≠ 53; omega), BitVec.ofNat_toNat]
      exact fields
  -- The leading bit is added to the significand and has to be taken off again.
  · rw [if_neg first]
    have normal : (1#1 ++ @unpackMantissa .binary64 w).toNat
        = (@unpackMantissa .binary64 w).toNat + 2 ^ 52 :=
      toNat_significand _
    have bits : ((@unpackMantissa .binary64 w).toNat + 2 ^ 52).log2 = 52 :=
      log2_significand (by omega)
    have field :
        (((@unpackExponent .binary64 w).toNat : Int) - ((1023 : Nat) + (52 : Nat)) +
          (1023 : Nat) + (52 : Nat)).toNat = (@unpackExponent .binary64 w).toNat := by omega
    have significand : BitVec.ofNat 52 ((@unpackMantissa .binary64 w).toNat + 2 ^ 52)
        = @unpackMantissa .binary64 w := by
      refine BitVec.eq_of_toNat_eq ?_
      rw [BitVec.toNat_ofNat]
      show _ % 2 ^ 52 = _
      omega
    unfold UnpackedFloat.pack
    simp only [exponentBias, normal, bits, field]
    rw [if_neg (by omega), if_pos (by decide), significand, BitVec.ofNat_toNat, BitVec.setWidth_eq]
    exact fields

/-- **A float that is made of bits has these bits**, if they stand for a finite number. -/
theorem toBits_ofBits {bits : UInt64} (finite : Finite (Float.ofBits bits)) :
    (Float.ofBits bits).toBits = bits := by
  have kept : @unpackExponent .binary64 bits.toBitVec ≠ -1#11 := by
    intro last
    refine finite_iff.1 finite ?_
    show unpackExponent
      (UnpackedFloat.pack .binary64 (UnpackedFloat.unpack .binary64 bits.toBitVec)) = -1#11
    unfold UnpackedFloat.unpack
    simp only
    rw [if_pos last]
    split
    · exact unpackExponent_packComponents
    · exact unpackExponent_packComponents
  exact UInt64.toBitVec_inj.1 (pack_unpack kept)

end Conveyor.Decimal
