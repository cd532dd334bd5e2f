/-
Floats that are whole numbers.

The library takes a float apart into a sign, a significand and an exponent, computes on these,
rounds, and packs the result into bits. Here its parts are tied to the exact value that is read off
the bits (`unpack_eq_unpacked`). Three facts about numbers that change between an integer and a
float follow: a finite float equals itself (`beq_self`), an integer of 64 bits has a finite float
(`finite_ofInt`), and a float that is a whole number below `2 ^ 53` equals the float of that number,
negative zero included (`beq_ofInt`). The last rests on the significand of such a number: there is
only one that has 53 bits (`significand_unique`), and neither the conversion nor the multiplication
by one that ends it rounds that (`roundWithAccuracy_normal`).
-/
import Conveyor.Json.Equal
import Mathlib

set_option autoImplicit false

namespace Conveyor.Decimal

open Float.Model Float.Model.UnpackedFloat

/-! ## The fields of a float -/

theorem toNat_unpackMantissa (w : BitVec 64) :
    (@unpackMantissa .binary64 w).toNat = w.toNat % 2 ^ 52 := by
  simp [unpackMantissa]

theorem toNat_unpackExponent (w : BitVec 64) :
    (@unpackExponent .binary64 w).toNat = w.toNat / 2 ^ 52 % 2048 := by
  simp [unpackExponent, Nat.shiftRight_eq_div_pow]

theorem toNat_unpackSign (w : BitVec 64) :
    (@unpackSign .binary64 w).toNat = w.toNat / 2 ^ 63 := by
  simp [unpackSign, Nat.shiftRight_eq_div_pow]
  have := w.isLt
  omega

/-- The sign. -/
def signOf (negative : Bool) : Sign := if negative then .negative else .positive

/-- A finite float as the library takes it apart. -/
def Binary.unpacked (b : Binary) : UnpackedFloat :=
  if h : b.significand = 0 then .zero (signOf b.negative)
  else .finite (signOf b.negative) b.significand b.exponent (Nat.pos_of_ne_zero h)

/-- A finite float. -/
def Finite (x : Float) : Prop := Binary.ofFloat? x ≠ none

theorem toNat_significand (m : BitVec 52) : (1#1 ++ m).toNat = m.toNat + 2 ^ 52 := by
  rw [BitVec.toNat_append, ← Nat.shiftLeft_add_eq_or_of_lt m.isLt, Nat.add_comm]
  rfl

theorem ofBitVec_unpackSign (w : BitVec 64) :
    Sign.ofBitVec (@unpackSign .binary64 w) = signOf (w.toNat / 2 ^ 63 == 1) := by
  have small : w.toNat / 2 ^ 63 < 2 := by
    have := w.isLt
    omega
  have zero : (@unpackSign .binary64 w = 0#1) ↔ w.toNat / 2 ^ 63 = 0 := by
    rw [← BitVec.toNat_inj, toNat_unpackSign]
    rfl
  unfold Sign.ofBitVec signOf
  by_cases h : w.toNat / 2 ^ 63 = 0
  · rw [if_pos (zero.2 h), h]
    rfl
  · have one : w.toNat / 2 ^ 63 = 1 := by omega
    rw [if_neg (h ∘ zero.1), one]
    rfl

/-- The fields of a float. -/
theorem unpackExponent_eq_iff (w : BitVec 64) (e : BitVec 11) :
    @unpackExponent .binary64 w = e ↔ w.toNat / 2 ^ 52 % 2048 = e.toNat := by
  rw [← BitVec.toNat_inj, toNat_unpackExponent]

theorem unpackMantissa_eq_zero_iff (w : BitVec 64) :
    @unpackMantissa .binary64 w = 0#52 ↔ w.toNat % 2 ^ 52 = 0 := by
  rw [← BitVec.toNat_inj, toNat_unpackMantissa]
  rfl

/-- The last exponent field is that of infinities and NaN, and the first that of numbers without a
leading bit. -/
theorem Binary.ofFields_eq_some {negative : Bool} {field fraction : Nat} {b : Binary}
    (known : ofFields negative field fraction = some b) : field ≠ 2047 ∧
      (field = 0 ∧ b = ⟨negative, fraction, -1074⟩ ∨
        field ≠ 0 ∧ b = ⟨negative, fraction + 2 ^ 52, (field : Int) - 1075⟩) := by
  rw [ofFields, Option.ite_none_left_eq_some] at known
  obtain ⟨last, known⟩ := known
  refine ⟨last, ?_⟩
  split at known
  · rename_i first
    exact .inl ⟨first, (Option.some.inj known).symm⟩
  · rename_i first
    exact .inr ⟨first, (Option.some.inj known).symm⟩

/-- Taking a float apart gives its exact value. -/
theorem unpack_eq_unpacked {x : Float} {b : Binary} (known : Binary.ofFloat? x = some b) :
    x.toModel.unpack = b.unpacked := by
  have field := unpackExponent_eq_iff x.toBits.toBitVec
  have fraction := unpackMantissa_eq_zero_iff x.toBits.toBitVec
  have sign := ofBitVec_unpackSign x.toBits.toBitVec
  have exponent := toNat_unpackExponent x.toBits.toBitVec
  have significand := toNat_unpackMantissa x.toBits.toBitVec
  simp only [UInt64.toNat_toBitVec] at field fraction sign exponent significand
  show UnpackedFloat.unpack .binary64 x.toBits.toBitVec = b.unpacked
  unfold UnpackedFloat.unpack
  simp only
  obtain ⟨last, ⟨first, rfl⟩ | ⟨first, rfl⟩⟩ := Binary.ofFields_eq_some known
  all_goals rw [if_neg fun same => last ((field (-1#11)).1 same)]
  · rw [if_pos ((field 0#11).2 first), Binary.unpacked, sign]
    simp only [fraction, significand, exponent, first]
    rfl
  · rw [if_neg fun same => first ((field 0#11).1 same), Binary.unpacked, sign]
    simp only [toNat_significand, significand, exponent]
    rw [dif_neg (by omega)]
    rfl

/-- A float with another exponent field than the last is finite. -/
theorem finite_iff {x : Float} :
    Finite x ↔ @unpackExponent .binary64 x.toBits.toBitVec ≠ -1#11 := by
  rw [ne_eq, unpackExponent_eq_iff, Finite, Binary.ofFloat?, Binary.ofFields]
  simp only [UInt64.toNat_toBitVec]
  by_cases last : x.toBits.toNat / 2 ^ 52 % 2048 = 2047
  · rw [if_pos last]
    exact iff_of_false (fun some => some rfl) fun other => other last
  · rw [if_neg last]
    refine iff_of_true ?_ last
    split <;> exact Option.some_ne_none _

/-! ## Equality -/

theorem compare_self (sign : Sign) (m : Nat) (e : Int) (pos : 0 < m) :
    (UnpackedFloat.finite sign m e pos).compare (.finite sign m e pos) = some .eq := by
  cases sign <;> simp [UnpackedFloat.compare, Ordering.then]

/-- A finite float equals itself. -/
theorem beq_self {x : Float} (finite : Finite x) : (x == x) = true :=
  Float.beq_self_iff.2 fun same => finite (by rw [same]; rfl)

/-! ## Rounding -/

theorem repeat_shiftRightOne (m k : Nat) :
    k.repeat ExtendedMantissa.shiftRightOne ⟨m * 2 ^ k, false, false⟩ = ⟨m, false, false⟩ := by
  induction k generalizing m with
  | zero => simp [Nat.repeat]
  | succ k ih =>
    have shifted := ih (m * 2)
    rw [Nat.mul_assoc, ← Nat.pow_succ'] at shifted
    rw [Nat.repeat, shifted]
    simp [ExtendedMantissa.shiftRightOne]

theorem log2_significand {m : Nat} (normal : 2 ^ 52 ≤ m ∧ m < 2 ^ 53) : m.log2 = 52 :=
  (Nat.log2_eq_iff (by omega)).2 normal

theorem log2_mul_two_pow {m : Nat} (pos : 0 < m) (k : Nat) : (m * 2 ^ k).log2 = m.log2 + k := by
  induction k with
  | zero => rw [Nat.pow_zero, Nat.mul_one, Nat.add_zero]
  | succ k ih =>
    have pos' : m * 2 ^ k ≠ 0 := Nat.ne_of_gt (Nat.mul_pos pos (Nat.two_pow_pos k))
    rw [Nat.pow_succ', Nat.mul_left_comm, Nat.log2_two_mul pos', ih, Nat.add_assoc]

/-- The exponent at which a number with a significand of 53 bits stays as it is. -/
theorem targetExponent_normal {m k : Nat} {e : Int} (normal : 2 ^ 52 ≤ m ∧ m < 2 ^ 53)
    (least : -1074 ≤ e) :
    Format.binary64.targetExponent (totalExponent (m * 2 ^ k) (e - k)) = e := by
  have min : Format.binary64.minExponent = -1074 := by decide
  have bits : Format.binary64.mantissaBits = 53 := by decide
  rw [Format.targetExponent, totalExponent, log2_mul_two_pow (by omega),
    log2_significand normal, min, bits]
  omega

/-- A number with a significand of 53 bits is shifted until the significand stands alone. -/
theorem shiftToTargetExponent_normal {m : Nat} (k : Nat) {e : Int}
    (normal : 2 ^ 52 ≤ m ∧ m < 2 ^ 53) (least : -1074 ≤ e) :
    shiftToTargetExponent .binary64 (m * 2 ^ k) (e - k) .exact = (⟨m, false, false⟩, e) := by
  rw [shiftToTargetExponent, targetExponent_normal normal least, shiftToExponent]
  have amount : (e - (e - k)).toNat = k := by omega
  simp only [amount, Prod.mk.injEq]
  exact ⟨repeat_shiftRightOne m k, by omega⟩

/-- Rounding a number that has a significand of 53 bits changes nothing. -/
theorem roundWithAccuracy_normal (sign : Sign) {m : Nat} (k : Nat) {e : Int}
    (normal : 2 ^ 52 ≤ m ∧ m < 2 ^ 53) (least : -1074 ≤ e) :
    roundWithAccuracy .binary64 sign (m * 2 ^ k) (e - k) .exact = .finite sign m e (by omega) := by
  have second := shiftToTargetExponent_normal 0 normal least
  rw [Nat.pow_zero, Nat.mul_one, Int.natCast_zero, Int.sub_zero] at second
  rw [roundWithAccuracy, shiftToTargetExponent_normal k normal least]
  simp only [ExtendedMantissa.roundedMantissa, ExtendedMantissa.accuracy,
    Accuracy.roundToNearestEven, second]
  rw [dif_neg (by omega)]

theorem exponentBias : Format.binary64.exponentBias = 1023 := by decide

/-- Packing a number with a significand of 53 bits, and taking it apart again. -/
theorem unpack_pack_normal (sign : Sign) {m : Nat} {e : Int} (normal : 2 ^ 52 ≤ m ∧ m < 2 ^ 53)
    (range : -1074 ≤ e ∧ e ≤ 971) :
    (Float.Model.pack (.finite sign m e (by omega))).unpack = .finite sign m e (by omega) := by
  -- Within its range the exponent takes a field that is neither the first nor the last one. So
  -- neither a subnormal number nor an infinity is packed, and the leading bit of the significand
  -- need not be stored.
  obtain ⟨field, known⟩ : ∃ field : Nat, field = (e + (1023 : Nat) + (52 : Nat)).toNat := ⟨_, rfl⟩
  have packed : UnpackedFloat.pack .binary64 (.finite sign m e (by omega))
      = packComponents .binary64 sign (.ofNat 11 field) (.ofNat 52 m) := by
    unfold UnpackedFloat.pack
    simp only [exponentBias, log2_significand normal, ← known]
    rw [if_neg (by omega), if_pos (by decide)]
  have same : (BitVec.ofNat 11 field).toNat = field := by
    rw [BitVec.toNat_ofNat, Nat.mod_eq_of_lt (by omega)]
  have notLast : BitVec.ofNat 11 field ≠ -1#11 := by
    rw [ne_eq, ← BitVec.toNat_inj, same, show (-1#11).toNat = 2047 from rfl]
    omega
  have notFirst : BitVec.ofNat 11 field ≠ 0#11 := by
    rw [ne_eq, ← BitVec.toNat_inj, same, BitVec.toNat_ofNat]
    omega
  have significand : (1#1 ++ BitVec.ofNat 52 m).toNat = m := by
    rw [toNat_significand, BitVec.toNat_ofNat]
    omega
  show UnpackedFloat.unpack .binary64 (UnpackedFloat.pack .binary64 _) = _
  rw [packed, UnpackedFloat.unpack]
  simp only [unpackExponent_packComponents, unpackMantissa_packComponents,
    unpackSign_packComponents, Sign.ofBitVec_toBitVec, if_neg notLast, if_neg notFirst, significand,
    same, exponentBias]
  congr 1
  omega

/-! ## Whole numbers -/

/-- A whole number below `2 ^ 53` shifted until its significand has 53 bits. -/
theorem normal_shift {n : Nat} (pos : 0 < n) (small : n < 2 ^ 53) :
    2 ^ 52 ≤ n * 2 ^ (52 - n.log2) ∧ n * 2 ^ (52 - n.log2) < 2 ^ 53 := by
  have few : n.log2 < 53 := (Nat.log2_lt (by omega)).2 small
  have shifted : (n * 2 ^ (52 - n.log2)).log2 = 52 := by
    rw [log2_mul_two_pow pos]
    omega
  have nonzero : n * 2 ^ (52 - n.log2) ≠ 0 := Nat.ne_of_gt (Nat.mul_pos pos (Nat.two_pow_pos _))
  exact (Nat.log2_eq_iff nonzero).1 shifted

/-- Rounding a whole number below `2 ^ 53` only shifts it. -/
theorem round_whole (sign : Sign) {n : Nat} (pos : 0 < n) (small : n < 2 ^ 53) :
    UnpackedFloat.round .binary64 sign n 0
      = .finite sign (n * 2 ^ (52 - n.log2)) ((n.log2 : Int) - 52)
        (Nat.mul_pos pos (Nat.two_pow_pos _)) := by
  have few : n.log2 < 53 := (Nat.log2_lt (by omega)).2 small
  have target : Format.binary64.targetExponent (totalExponent n 0) = (n.log2 : Int) - 52 := by
    have min : Format.binary64.minExponent = -1074 := by decide
    have bits : Format.binary64.mantissaBits = 53 := by decide
    rw [Format.targetExponent, totalExponent, min, bits]
    omega
  have amount : (0 - ((n.log2 : Int) - 52)).toNat = 52 - n.log2 := by omega
  have exact :=
    roundWithAccuracy_normal sign 0 (e := (n.log2 : Int) - 52) (normal_shift pos small) (by omega)
  rw [Nat.pow_zero, Nat.mul_one, Int.natCast_zero, Int.sub_zero] at exact
  rw [UnpackedFloat.round, target, decreaseExponent]
  simp only [amount, Nat.shiftLeft_eq]
  rw [← exact]
  congr 1
  omega

/-- The float of a whole number below `2 ^ 53`. -/
theorem unpack_ofNat {n : Nat} (pos : 0 < n) (small : n < 2 ^ 53) :
    (Float.ofNat n).toModel.unpack
      = .finite .positive (n * 2 ^ (52 - n.log2)) ((n.log2 : Int) - 52)
      (Nat.mul_pos pos (Nat.two_pow_pos _)) := by
  have few : n.log2 < 53 := (Nat.log2_lt (by omega)).2 small
  have normal := normal_shift pos small
  have converted : n.toUInt64.toFloat.toModel.unpack
      = .finite .positive (n * 2 ^ (52 - n.log2)) ((n.log2 : Int) - 52)
        (Nat.mul_pos pos (Nat.two_pow_pos _)) := by
    have kept : n.toUInt64.toNat = n := by
      show n % 2 ^ 64 = n
      omega
    show (Float.Model.pack (UnpackedFloat.ofInt .binary64 (n.toUInt64.toNat : Int))).unpack = _
    rw [kept, UnpackedFloat.ofInt, UnpackedFloat.normalize, show compare (n : Int) 0 = .gt from ?_]
    · simp only [Int.toNat_natCast, round_whole .positive pos small]
      exact unpack_pack_normal .positive normal (by omega)
    · exact Int.compare_eq_gt.2 (by omega)
  -- The conversion ends with a multiplication by one.
  have one : (Float.ofBits 0x3FF0000000000000).toModel.unpack
      = .finite .positive (2 ^ 52) (-52) (by decide) := rfl
  have exact := roundWithAccuracy_normal .positive 52 (e := (n.log2 : Int) - 52) normal (by omega)
  have product : Float.ofNat n = n.toUInt64.toFloat * Float.ofBits 0x3FF0000000000000 := by
    show Float.ofScientific n false 0 = _
    rw [Float.ofScientific, dif_pos ⟨small, Nat.zero_le 22⟩]
    rfl
  rw [product]
  show (Float.Model.pack (UnpackedFloat.mul .binary64 n.toUInt64.toFloat.toModel.unpack
    (Float.ofBits 0x3FF0000000000000).toModel.unpack)).unpack = _
  rw [converted, one, UnpackedFloat.mul]
  have exponent : (n.log2 : Int) - 52 + -52 = (n.log2 : Int) - 52 - (52 : Nat) := by omega
  have sign : Sign.positive * Sign.positive = Sign.positive := rfl
  rw [exponent, sign, exact]
  exact unpack_pack_normal _ normal (by omega)

/-- Zero, or a number whose exponent is at most the given one. -/
inductive UpTo (exponent : Int) : UnpackedFloat → Prop
  | zero (sign : Sign) : UpTo exponent (.zero sign)
  | finite {sign : Sign} {m : Nat} {e : Int} (pos : 0 < m) (small : e ≤ exponent) :
      UpTo exponent (.finite sign m e pos)

/-- What is small enough for the format stays finite. -/
theorem finite_pack {u : UnpackedFloat} (small : UpTo 971 u) : Finite ⟨Float.Model.pack u⟩ := by
  rw [finite_iff]
  show unpackExponent (UnpackedFloat.pack .binary64 u) ≠ -1#11
  have last : (-1#11).toNat = 2047 := rfl
  cases small with
  | zero sign =>
    rw [UnpackedFloat.pack, packedZero, unpackExponent_packComponents]
    decide
  | finite pos range =>
    rw [UnpackedFloat.pack]
    simp only [exponentBias]
    rw [if_neg (by omega)]
    split
    · rw [unpackExponent_packComponents, ne_eq, ← BitVec.toNat_inj, BitVec.toNat_ofNat, last]
      omega
    · rw [unpackExponent_packComponents]
      decide

/-- A finite float, taken apart. -/
theorem upTo_unpack {x : Float} (finite : Finite x) : UpTo 971 x.toModel.unpack := by
  obtain ⟨b, known⟩ := Option.ne_none_iff_exists'.1 finite
  rw [unpack_eq_unpacked known]
  have range : b.exponent ≤ 971 := by
    obtain ⟨last, ⟨-, rfl⟩ | ⟨-, rfl⟩⟩ := Binary.ofFields_eq_some known
    · show (-1074 : Int) ≤ 971
      decide
    · show ((x.toBits.toNat / 2 ^ 52 % 2048 : Nat) : Int) - 1075 ≤ 971
      omega
  unfold Binary.unpacked
  split
  · exact .zero _
  · exact .finite _ range

/-- What is taken apart as a number is finite. -/
theorem finite_of_upTo {x : Float} {e : Int} (small : UpTo e x.toModel.unpack) : Finite x := by
  rw [finite_iff]
  intro last
  have taken : x.toModel.unpack = UnpackedFloat.unpack .binary64 x.toBits.toBitVec := rfl
  rw [taken, UnpackedFloat.unpack] at small
  simp only [if_pos last] at small
  split at small <;> cases small

theorem finite_neg {x : Float} (finite : Finite x) : Finite x.neg := by
  refine finite_pack ?_
  have small := upTo_unpack finite
  show UpTo 971 x.toModel.unpack.neg
  generalize x.toModel.unpack = u at small ⊢
  cases small with
  | zero sign => exact .zero _
  | finite pos small => exact .finite pos small

/-- Shifting to the right makes a significand smaller. -/
theorem mantissa_repeat_le (k : Nat) (em : ExtendedMantissa) :
    (k.repeat ExtendedMantissa.shiftRightOne em).mantissa ≤ em.mantissa := by
  induction k with
  | zero => exact Nat.le_refl _
  | succ k ih => exact Nat.le_trans (Nat.div_le_self _ 2) ih

/-- Rounding adds at most one to a significand. -/
theorem roundedMantissa_le (em : ExtendedMantissa) : em.roundedMantissa ≤ em.mantissa + 1 := by
  obtain ⟨m, _ | _, _ | _⟩ := em <;>
    simp only [ExtendedMantissa.roundedMantissa, ExtendedMantissa.accuracy,
      Accuracy.roundToNearestEven] <;> omega

/-- Where the first shift of a rounding ends, for numbers of at most `bits` bits. -/
theorem shiftToTargetExponent_le {m : Nat} {e : Int} (bits : Nat) (small : m < 2 ^ bits) :
    (shiftToTargetExponent .binary64 m e .exact).1.roundedMantissa ≤ m + 1 ∧
      (shiftToTargetExponent .binary64 m e .exact).2 ≤ max (e + bits) 0 := by
  have min : Format.binary64.minExponent = -1074 := by decide
  have bits' : Format.binary64.mantissaBits = 53 := by decide
  have few : m.log2 ≤ bits := by
    rcases Nat.eq_zero_or_pos m with rfl | pos
    · exact Nat.zero_le _
    · exact Nat.le_of_lt ((Nat.log2_lt (by omega)).2 small)
  rw [shiftToTargetExponent, shiftToExponent]
  refine ⟨Nat.le_trans (roundedMantissa_le _) (Nat.succ_le_succ (mantissa_repeat_le _ _)), ?_⟩
  simp only [Format.targetExponent, totalExponent, min, bits']
  omega

/-- Rounding keeps the exponent of a number small. -/
theorem upTo_roundWithAccuracy (sign : Sign) {m : Nat} {e : Int} (small : m < 2 ^ 117)
    (low : e ≤ 0) :
    UpTo 971 (roundWithAccuracy .binary64 sign m e .exact) := by
  obtain ⟨rounded, exponent⟩ := shiftToTargetExponent_le (e := e) 117 small
  have again :=
    shiftToTargetExponent_le (m := (shiftToTargetExponent .binary64 m e .exact).1.roundedMantissa)
    (e := (shiftToTargetExponent .binary64 m e .exact).2) 118 (by omega)
  rw [roundWithAccuracy]
  simp only
  split
  · exact .zero _
  · exact .finite _ (by omega)

/-- The float of a number of more than 53 bits is made by rounding. -/
theorem ofNat_large {n : Nat} (large : 2 ^ 53 ≤ n) :
    Float.ofNat n
      = ⟨Float.Model.pack (roundWithAccuracy .binary64 .positive (n * 2 ^ 53) (-53) .exact)⟩ := by
  have model : Float.ofNat n = ⟨Float.Model.pack (UnpackedFloat.ofScientific .binary64 n 0)⟩ := by
    show Float.ofScientific n false 0 = _
    rw [Float.ofScientific, dif_neg fun fast => Nat.not_lt.2 large fast.1]
    rfl
  have bits : Format.binary64.mantissaBits = 53 := by decide
  have exponents : Format.binary64.exponentBits = 11 := rfl
  have shifted : n <<< 53 * 10 ^ (0 : Int).toNat = n * 2 ^ 53 := by
    rw [Nat.shiftLeft_eq, Int.toNat_zero, Nat.pow_zero, Nat.mul_one]
  rw [model, UnpackedFloat.ofScientific, dif_neg (by omega), exponents, if_neg (by decide),
    if_neg (by omega), if_pos (Int.le_refl 0), UnpackedFloat.mul]
  simp only [bits, shifted]
  rfl

/-- The float of a natural number of at most 64 bits is finite. -/
theorem finite_ofNat {n : Nat} (small : n < 2 ^ 64) : Finite (Float.ofNat n) := by
  rcases Nat.eq_zero_or_pos n with rfl | pos
  · exact finite_of_upTo (x := Float.ofNat 0) (e := 0) (.zero .positive)
  by_cases exact : n < 2 ^ 53
  · have few : n.log2 < 53 := (Nat.log2_lt (by omega)).2 exact
    refine finite_of_upTo (e := 0) ?_
    rw [unpack_ofNat pos exact]
    exact .finite _ (by omega)
  · have shifted : n * 2 ^ 53 < 2 ^ 117 := by omega
    rw [ofNat_large (Nat.not_lt.1 exact)]
    exact finite_pack (upTo_roundWithAccuracy _ shifted (by decide))

/-- The float of an integer of at most 64 bits is finite. -/
theorem finite_ofInt {i : Int} (small : i.natAbs < 2 ^ 64) : Finite (Float.ofInt i) := by
  cases i with
  | ofNat n => exact finite_ofNat small
  | negSucc n => exact finite_neg (finite_ofNat small)

/-- A finite float has a significand of 53 bits, or the least exponent. -/
theorem significand_of_ofFloat {x : Float} {b : Binary} (known : Binary.ofFloat? x = some b) :
    (2 ^ 52 ≤ b.significand ∧ b.significand < 2 ^ 53) ∨
      (b.significand < 2 ^ 52 ∧ b.exponent = -1074) := by
  obtain ⟨-, ⟨-, rfl⟩ | ⟨-, rfl⟩⟩ := Binary.ofFields_eq_some known
  · exact .inr ⟨Nat.mod_lt _ (by decide), rfl⟩
  · exact .inl ⟨Nat.le_add_left .., by simp only; omega⟩

/-- A whole number below `2 ^ 53` has one significand of 53 bits. -/
theorem significand_unique {s n : Nat} {e : Int} (normal : 2 ^ 52 ≤ s ∧ s < 2 ^ 53)
    (small : n < 2 ^ 53)
    (whole : (0 ≤ e ∧ n = s * 2 ^ e.toNat) ∨ (e < 0 ∧ s = n * 2 ^ (-e).toNat)) :
    0 < n ∧ s = n * 2 ^ (52 - n.log2) ∧ e = (n.log2 : Int) - 52 := by
  have bits := log2_significand normal
  rcases whole with ⟨sign, rfl⟩ | ⟨sign, rfl⟩
  · have few : (s * 2 ^ e.toNat).log2 < 53 :=
      (Nat.log2_lt (Nat.ne_of_gt (Nat.mul_pos (by omega) (Nat.two_pow_pos _)))).2 small
    rw [log2_mul_two_pow (by omega), bits] at few
    obtain rfl : e = 0 := by omega
    rw [Int.toNat_zero, Nat.pow_zero, Nat.mul_one, bits]
    exact ⟨by omega, (Nat.mul_one s).symm, rfl⟩
  · have pos : 0 < n := Nat.pos_of_ne_zero fun zero => by rw [zero, Nat.zero_mul] at normal; omega
    rw [log2_mul_two_pow pos] at bits
    have places : 52 - n.log2 = (-e).toNat := by omega
    exact ⟨pos, by rw [places], by omega⟩

/-- A whole value: shifted to the left, or with nothing behind the point. -/
theorem significand_of_isWhole {b : Binary} (whole : b.isWhole = true) :
    (0 ≤ b.exponent ∧ b.wholePart = b.significand * 2 ^ b.exponent.toNat) ∨
      (b.exponent < 0 ∧ b.significand = b.wholePart * 2 ^ (-b.exponent).toNat) := by
  rw [Binary.isWhole] at whole
  rw [Binary.wholePart]
  by_cases sign : 0 ≤ b.exponent
  · exact .inl ⟨sign, if_pos sign⟩
  · rw [if_neg sign, beq_iff_eq] at whole
    rw [if_neg sign]
    exact .inr ⟨by omega, (Nat.div_mul_cancel (Nat.dvd_of_mod_eq_zero whole)).symm⟩

/-- The float of an integer whose magnitude is below `2 ^ 53`, taken apart. -/
theorem unpack_ofInt (negative : Bool) {n : Nat} (pos : 0 < n) (small : n < 2 ^ 53) :
    (Float.ofInt (if negative then -(n : Int) else n)).toModel.unpack = .finite (signOf negative)
      (n * 2 ^ (52 - n.log2)) ((n.log2 : Int) - 52) (Nat.mul_pos pos (Nat.two_pow_pos _)) := by
  have few : n.log2 < 53 := (Nat.log2_lt (by omega)).2 small
  cases negative with
  | false => exact unpack_ofNat pos small
  | true =>
    have negated : Float.ofInt (-(n : Int)) = (Float.ofNat n).neg := by
      obtain ⟨m, rfl⟩ := Nat.exists_eq_add_of_lt pos
      rw [Nat.zero_add]
      rfl
    rw [if_pos rfl, negated]
    show (Float.Model.pack (Float.ofNat n).toModel.unpack.neg).unpack = _
    rw [unpack_ofNat pos small]
    exact unpack_pack_normal .negative (normal_shift pos small) (by omega)

/-- A number with the least exponent has something behind the point. -/
theorem subnormal_not_whole {b : Binary} (whole : b.isWhole = true)
    (subnormal : b.significand < 2 ^ 52) (least : b.exponent = -1074) : b.significand = 0 := by
  rcases significand_of_isWhole whole with ⟨sign, -⟩ | ⟨-, same⟩
  · omega
  by_contra nonzero
  have pos : 0 < b.wholePart :=
    Nat.pos_of_ne_zero fun none => nonzero (by rw [same, none, Nat.zero_mul])
  have large : 2 ^ (-b.exponent).toNat ≤ b.significand := same ▸ Nat.le_mul_of_pos_left _ pos
  have more : 2 ^ 52 < 2 ^ (-b.exponent).toNat := Nat.pow_lt_pow_right (by decide) (by omega)
  omega

theorem wholePart_eq_zero {b : Binary} (whole : b.isWhole = true) (zero : b.significand = 0) :
    b.wholePart = 0 := by
  rcases significand_of_isWhole whole with ⟨-, same⟩ | ⟨-, same⟩
  · rw [same, zero, Nat.zero_mul]
  · exact (Nat.mul_eq_zero.1 (same ▸ zero)).resolve_right (Nat.ne_of_gt (Nat.two_pow_pos _))

/-- **A float that is a whole number below `2 ^ 53` equals the float of that number.** -/
theorem beq_ofInt {x : Float} {b : Binary} {i : Int} (known : Binary.ofFloat? x = some b)
    (whole : b.whole? = some i) (small : i.natAbs < 2 ^ 53) : (x == Float.ofInt i) = true := by
  rw [Binary.whole?, Option.ite_none_right_eq_some] at whole
  obtain ⟨isWhole, value⟩ := whole
  obtain rfl : b.trunc = i := Option.some.inj value
  -- What is truncated is the whole part with the sign, and so small that it has a significand of
  -- its own.
  have size : b.trunc.natAbs = b.wholePart := by
    rw [Binary.trunc]
    split <;> omega
  rw [size] at small
  show (x.toModel.unpack.compare (Float.ofInt b.trunc).toModel.unpack == some .eq) = true
  rw [unpack_eq_unpacked known, Binary.unpacked]
  split
  · -- Both zeros equal that of the integer.
    rename_i zero
    have value : b.trunc = 0 := Int.natAbs_eq_zero.1 (size.trans (wholePart_eq_zero isWhole zero))
    rw [value]
    rfl
  · rename_i nonzero
    rcases significand_of_ofFloat known with normal | ⟨subnormal, least⟩
    · obtain ⟨pos, significand, exponent⟩ :=
        significand_unique normal small (significand_of_isWhole isWhole)
      rw [Binary.trunc, unpack_ofInt b.negative pos small]
      simp only [← significand, ← exponent, compare_self]
      rfl
    -- A subnormal number is less than one, so none but zero is whole.
    · exact absurd (subnormal_not_whole isWhole subnormal least) nonzero

end Conveyor.Decimal
