/-
The float nearest to an integer.

The float of an integer keeps the 53 leading bits, rounded once, a half going to the even neighbour
(`nearestInt`). The library shifts an integer to the right bit by bit and keeps the last bit that
fell out and whether any fell out before it; that is enough to round as the quotient is rounded
(`roundedMantissa_shifted`). Rounding up may carry into a new bit, and then everything is shifted
once more. Either way the significand that is packed has 53 bits, and a number has only one such
significand, so two floats of integers are equal exactly if their integers are rounded to the same
one (`beq_ofInt_iff`). Below `2 ^ 53` nothing is rounded, and from there on nothing is rounded to
less (`nearestInt_inj_of_small`).
-/
import Conveyor.Decimal.Rounded
import Conveyor.Proofs.Decimal.Whole

set_option autoImplicit false

namespace Conveyor.Decimal

open Float.Model Float.Model.UnpackedFloat

/-- A natural number with all but its 53 leading bits rounded away. -/
def nearestNat (n : Nat) : Nat := roundHalfEven n (2 ^ (n.log2 - 52)) * 2 ^ (n.log2 - 52)

/-- An integer with all but its 53 leading bits rounded away. -/
def nearestInt (i : Int) : Int := i.sign * nearestNat i.natAbs

/-! ## Rounded quotients -/

theorem roundHalfEven_one (n : Nat) : roundHalfEven n 1 = n := by
  rw [roundHalfEven, Nat.mod_one, Nat.div_one]
  rfl

theorem le_roundHalfEven (num den : Nat) : num / den ≤ roundHalfEven num den := by
  unfold roundHalfEven
  simp only
  split
  · exact Nat.le_refl _
  · exact Nat.le_succ _
  · split
    · exact Nat.le_refl _
    · exact Nat.le_succ _

theorem roundHalfEven_le (num den : Nat) : roundHalfEven num den ≤ num / den + 1 := by
  unfold roundHalfEven
  simp only
  split
  · exact Nat.le_succ _
  · exact Nat.le_refl _
  · split
    · exact Nat.le_succ _
    · exact Nat.le_refl _

/-- A common factor does not matter. -/
theorem roundHalfEven_mul (num den : Nat) {c : Nat} (pos : 0 < c) :
    roundHalfEven (num * c) (den * c) = roundHalfEven num den := by
  have compared : compare (2 * (num % den * c)) (den * c) = compare (2 * (num % den)) den := by
    rw [← Nat.mul_assoc]
    rcases Nat.lt_trichotomy (2 * (num % den)) den with less | same | more
    · rw [Nat.compare_eq_lt.2 less, Nat.compare_eq_lt.2 (Nat.mul_lt_mul_of_pos_right less pos)]
    · rw [same, Nat.compare_eq_eq.2 rfl, Nat.compare_eq_eq.2 rfl]
    · rw [Nat.compare_eq_gt.2 more, Nat.compare_eq_gt.2 (Nat.mul_lt_mul_of_pos_right more pos)]
  unfold roundHalfEven
  rw [Nat.mul_div_mul_right _ _ pos, Nat.mul_mod_mul_right]
  simp only [compared]

/-! ## Shifting bit by bit -/

/-- What is left of a number after some shifts to the right: the quotient, the last bit that fell
out, and whether there was a bit among those that fell out before. -/
theorem repeat_shiftRightOne_succ (n k : Nat) :
    (k + 1).repeat ExtendedMantissa.shiftRightOne ⟨n, false, false⟩
      = ⟨n / 2 ^ (k + 1), n / 2 ^ k % 2 != 0, n % 2 ^ k != 0⟩ := by
  induction k with
  | zero => simp [Nat.repeat, ExtendedMantissa.shiftRightOne, Nat.mod_one]
  | succ k ih =>
    have low : n % 2 ^ (k + 1) = n % 2 ^ k + 2 ^ k * (n / 2 ^ k % 2) := Nat.mod_pow_succ
    have sticky : ((n / 2 ^ k % 2 != 0) || (n % 2 ^ k != 0)) = (n % 2 ^ (k + 1) != 0) := by
      rw [low]
      by_cases first : n / 2 ^ k % 2 = 0
      · rw [first, Nat.mul_zero, Nat.add_zero]
        rfl
      · have bit : n / 2 ^ k % 2 = 1 := by omega
        have some : n % 2 ^ k + 2 ^ k ≠ 0 := by
          have := Nat.two_pow_pos k
          omega
        rw [bit, Nat.mul_one, (bne_iff_ne (a := n % 2 ^ k + 2 ^ k)).2 some]
        rfl
    rw [Nat.repeat, ih, ExtendedMantissa.shiftRightOne]
    simp only [Nat.div_div_eq_div_mul, ← Nat.pow_succ, sticky]

/-- **Rounding after shifts is rounding the quotient.** -/
theorem roundedMantissa_shifted (n k : Nat) :
    (k.repeat ExtendedMantissa.shiftRightOne ⟨n, false, false⟩).roundedMantissa
      = roundHalfEven n (2 ^ k) := by
  cases k with
  | zero =>
    rw [Nat.pow_zero, roundHalfEven_one]
    rfl
  | succ k =>
    -- The lower bits are those below the last one and the last one itself, which is the half.
    have low : n % 2 ^ (k + 1) = n % 2 ^ k + 2 ^ k * (n / 2 ^ k % 2) := Nat.mod_pow_succ
    have rest : n % 2 ^ k < 2 ^ k := Nat.mod_lt _ (Nat.two_pow_pos k)
    rw [repeat_shiftRightOne_succ]
    unfold roundHalfEven
    by_cases bit : n / 2 ^ k % 2 = 0
    · -- Less than a half fell out.
      have less : 2 * (n % 2 ^ (k + 1)) < 2 ^ (k + 1) := by
        rw [low, bit, Nat.pow_succ]
        omega
      simp only [bit, Nat.compare_eq_lt.2 less]
      by_cases none : n % 2 ^ k = 0
      · rw [none]
        rfl
      · rw [(bne_iff_ne (a := n % 2 ^ k)).2 none]
        rfl
    · have one : n / 2 ^ k % 2 = 1 := by omega
      by_cases none : n % 2 ^ k = 0
      · -- A half fell out, and the even neighbour is taken.
        have same : 2 * (n % 2 ^ (k + 1)) = 2 ^ (k + 1) := by
          rw [low, one, none, Nat.pow_succ]
          omega
        simp only [one, none, Nat.compare_eq_eq.2 same, ExtendedMantissa.roundedMantissa]
        show n / 2 ^ (k + 1) + n / 2 ^ (k + 1) % 2 = _
        by_cases even : n / 2 ^ (k + 1) % 2 = 0
        · simp [even]
        · have odd : n / 2 ^ (k + 1) % 2 = 1 := by omega
          simp [odd]
      · -- More than a half fell out.
        have more : 2 ^ (k + 1) < 2 * (n % 2 ^ (k + 1)) := by
          rw [low, one, Nat.pow_succ]
          omega
        rw [one, (bne_iff_ne (a := n % 2 ^ k)).2 none]
        simp only [Nat.compare_eq_gt.2 more]
        rfl

/-! ## Floats of natural numbers -/

section Large

variable {n k : Nat}

/-- The leading bits of a number, before and after rounding. -/
theorem roundHalfEven_bounds (bits : n.log2 = 52 + k) :
    2 ^ 52 ≤ roundHalfEven n (2 ^ k) ∧ roundHalfEven n (2 ^ k) ≤ 2 ^ 53 := by
  have nonzero : n ≠ 0 := by
    intro zero
    rw [zero, Nat.log2_zero] at bits
    omega
  obtain ⟨low, high⟩ := (Nat.log2_eq_iff nonzero).1 bits
  have low' : 2 ^ 52 ≤ n / 2 ^ k := by
    rw [Nat.le_div_iff_mul_le (Nat.two_pow_pos k), ← Nat.pow_add]
    exact low
  have high' : n / 2 ^ k < 2 ^ 53 := by
    rw [Nat.div_lt_iff_lt_mul (Nat.two_pow_pos k), ← Nat.pow_add, show 53 + k = 52 + k + 1 by omega]
    exact high
  exact ⟨Nat.le_trans low' (le_roundHalfEven n _), Nat.le_trans (roundHalfEven_le n _) high'⟩

/-- Rounding a number of more than 53 bits. -/
theorem roundWithAccuracy_large (sign : Sign) (bits : n.log2 = 52 + k) :
    ∃ (m s : Nat) (pos : 0 < m), (2 ^ 52 ≤ m ∧ m < 2 ^ 53) ∧ s ≤ k + 53 ∧
      roundWithAccuracy .binary64 sign (n * 2 ^ 53) (-53) .exact = .finite sign m
        ((s : Int) - 52) pos ∧
      m * 2 ^ s = roundHalfEven n (2 ^ k) * 2 ^ k * 2 ^ 52 := by
  have min : Format.binary64.minExponent = -1074 := by decide
  have width : Format.binary64.mantissaBits = 53 := by decide
  have nonzero : 0 < n := by
    refine Nat.pos_of_ne_zero fun zero => ?_
    rw [zero, Nat.log2_zero] at bits
    omega
  obtain ⟨low, high⟩ := roundHalfEven_bounds bits
  -- The first shift leaves the leading bits, rounded.
  have target : Format.binary64.targetExponent (totalExponent (n * 2 ^ 53) (-53)) = k := by
    rw [Format.targetExponent, totalExponent, log2_mul_two_pow nonzero, bits, min, width]
    omega
  have amount : ((k : Int) - -53).toNat = k + 53 := by omega
  have first : (shiftToTargetExponent .binary64 (n * 2 ^ 53) (-53) .exact).1.roundedMantissa
      = roundHalfEven n (2 ^ k) := by
    rw [shiftToTargetExponent, target, shiftToExponent]
    simp only [amount]
    show ((k + 53).repeat ExtendedMantissa.shiftRightOne ⟨n * 2 ^ 53, false, false⟩).roundedMantissa
      = _
    rw [roundedMantissa_shifted, Nat.pow_add, roundHalfEven_mul _ _ (Nat.two_pow_pos 53)]
  have place : (shiftToTargetExponent .binary64 (n * 2 ^ 53) (-53) .exact).2 = (k : Int) := by
    rw [shiftToTargetExponent, target, shiftToExponent]
    simp only [amount]
    omega
  rw [roundWithAccuracy]
  simp only [first, place]
  by_cases carried : roundHalfEven n (2 ^ k) = 2 ^ 53
  · -- The carry is a new bit, and the significand is shifted once more.
    have second :=
      shiftToTargetExponent_normal (m := 2 ^ 52) 1 (e := (k : Int) + 1) (by decide) (by omega)
    have shifted : (2 ^ 52 * 2 ^ 1 : Nat) = 2 ^ 53 := by decide
    have back : (k : Int) + 1 - ((1 : Nat) : Int) = k := by omega
    rw [shifted, back] at second
    refine ⟨2 ^ 52, k + 53, by decide, by decide, Nat.le_refl _, ?_, ?_⟩
    · simp only [carried, second]
      rw [dif_neg (by decide)]
      congr 1
      omega
    · rw [carried, Nat.pow_add]
      omega
  · have normal : 2 ^ 52 ≤ roundHalfEven n (2 ^ k) ∧ roundHalfEven n (2 ^ k) < 2 ^ 53 :=
      ⟨low, Nat.lt_of_le_of_ne high carried⟩
    have second := shiftToTargetExponent_normal 0 (e := (k : Int)) normal (by omega)
    rw [Nat.pow_zero, Nat.mul_one, Int.natCast_zero, Int.sub_zero] at second
    refine ⟨roundHalfEven n (2 ^ k), k + 52, by omega, normal, by omega, ?_, ?_⟩
    · simp only [second]
      rw [dif_neg (by omega)]
      congr 1
      omega
    · rw [Nat.pow_add, Nat.mul_assoc]

end Large

variable {n : Nat}

theorem nearestNat_of_lt (small : n < 2 ^ 53) : nearestNat n = n := by
  have few : n.log2 - 52 = 0 := by
    rcases Nat.eq_zero_or_pos n with rfl | pos
    · rfl
    · have := (Nat.log2_lt (Nat.ne_of_gt pos)).2 small
      omega
  rw [nearestNat, few, Nat.pow_zero, roundHalfEven_one, Nat.mul_one]

/-- The float of a natural number of at most 64 bits, taken apart: a significand of 53 bits and its
place. -/
theorem unpack_ofNat_nearest (pos : 0 < n) (small : n < 2 ^ 64) :
    ∃ (m s : Nat) (pos : 0 < m), (2 ^ 52 ≤ m ∧ m < 2 ^ 53) ∧ s ≤ 64 ∧
      (Float.ofNat n).toModel.unpack = .finite .positive m ((s : Int) - 52) pos ∧
      m * 2 ^ s = nearestNat n * 2 ^ 52 := by
  by_cases exact : n < 2 ^ 53
  · have few : n.log2 < 53 := (Nat.log2_lt (by omega)).2 exact
    refine ⟨_, n.log2, _, normal_shift pos exact, by omega, unpack_ofNat pos exact, ?_⟩
    rw [nearestNat_of_lt exact, Nat.mul_assoc, ← Nat.pow_add]
    congr 2
    omega
  · have some : n.log2 < 64 := (Nat.log2_lt (by omega)).2 small
    have more : 53 ≤ n.log2 := (Nat.le_log2 (by omega)).2 (by omega)
    obtain ⟨k, bits⟩ : ∃ k, n.log2 = 52 + k := ⟨n.log2 - 52, by omega⟩
    obtain ⟨m, s, pos', normal, range, rounded, value⟩ := roundWithAccuracy_large .positive bits
    refine ⟨m, s, pos', normal, by omega, ?_, ?_⟩
    · rw [ofNat_large (Nat.not_lt.1 exact), rounded]
      exact unpack_pack_normal .positive normal (by omega)
    · rw [value, nearestNat, bits, Nat.add_sub_cancel_left]

theorem nearestNat_le_of_le (large : 2 ^ 53 ≤ n) : 2 ^ 53 ≤ nearestNat n := by
  have more : 53 ≤ n.log2 := (Nat.le_log2 (by omega)).2 large
  obtain ⟨k, bits⟩ : ∃ k, n.log2 = 52 + (k + 1) := ⟨n.log2 - 53, by omega⟩
  have low := (roundHalfEven_bounds bits).1
  rw [nearestNat, bits, Nat.add_sub_cancel_left]
  calc 2 ^ 53 = 2 ^ 52 * 2 ^ 1 := by decide
    _ ≤ roundHalfEven n (2 ^ (k + 1)) * 2 ^ (k + 1) :=
      Nat.mul_le_mul low (Nat.pow_le_pow_right (by decide) (by omega))

theorem nearestNat_pos (pos : 0 < n) : 0 < nearestNat n := by
  by_cases small : n < 2 ^ 53
  · rwa [nearestNat_of_lt small]
  · have := nearestNat_le_of_le (Nat.not_lt.1 small)
    omega

/-- A number has one significand of 53 bits. -/
theorem normal_unique {m m' s s' : Nat} (normal : 2 ^ 52 ≤ m ∧ m < 2 ^ 53)
    (normal' : 2 ^ 52 ≤ m' ∧ m' < 2 ^ 53) (same : m * 2 ^ s = m' * 2 ^ s') : m = m' ∧ s = s' := by
  have bits : (m * 2 ^ s).log2 = 52 + s := by
    rw [log2_mul_two_pow (by omega), log2_significand normal]
  have bits' : (m' * 2 ^ s').log2 = 52 + s' := by
    rw [log2_mul_two_pow (by omega), log2_significand normal']
  rw [same, bits'] at bits
  obtain rfl : s = s' := by omega
  exact ⟨Nat.eq_of_mul_eq_mul_right (Nat.two_pow_pos s) same, rfl⟩

/-! ## Floats of integers -/

variable {i a b : Int}

/-- The float of an integer of at most 64 bits, taken apart. -/
theorem unpack_ofInt_nearest (nonzero : i ≠ 0) (small : i.natAbs < 2 ^ 64) :
    ∃ (m s : Nat) (pos : 0 < m), (2 ^ 52 ≤ m ∧ m < 2 ^ 53) ∧
      (Float.ofInt i).toModel.unpack = .finite (signOf (decide (i < 0))) m ((s : Int) - 52) pos ∧
      m * 2 ^ s = nearestNat i.natAbs * 2 ^ 52 := by
  obtain ⟨m, s, pos, normal, range, unpacked, value⟩ :=
    unpack_ofNat_nearest (n := i.natAbs) (by omega) small
  refine ⟨m, s, pos, normal, ?_, value⟩
  cases i with
  | ofNat n => exact unpacked
  | negSucc n =>
    have negative : decide (Int.negSucc n < 0) = true := decide_eq_true (Int.negSucc_lt_zero n)
    rw [negative]
    show (Float.Model.pack (Float.ofNat (n + 1)).toModel.unpack.neg).unpack = _
    rw [show (Float.ofNat (n + 1)).toModel.unpack = _ from unpacked]
    exact unpack_pack_normal .negative normal (by omega)

theorem nearestInt_eq_zero_iff : nearestInt i = 0 ↔ i = 0 := by
  constructor
  · intro zero
    by_contra nonzero
    have pos := nearestNat_pos (n := i.natAbs) (by omega)
    rcases Int.mul_eq_zero.1 zero with sign | none
    · exact nonzero (Int.sign_eq_zero_iff_zero.1 sign)
    · omega
  · intro zero
    rw [zero]
    rfl

/-- Integers that are not zero are rounded to the same one if their magnitudes are and their signs
are the same. -/
theorem nearestInt_eq_iff (ha : a ≠ 0) (hb : b ≠ 0) : nearestInt a = nearestInt b ↔
    decide (a < 0) = decide (b < 0) ∧ nearestNat a.natAbs = nearestNat b.natAbs := by
  have posA := nearestNat_pos (n := a.natAbs) (by omega)
  have posB := nearestNat_pos (n := b.natAbs) (by omega)
  rw [nearestInt, nearestInt]
  rcases Int.lt_or_gt_of_ne ha with negA | posA' <;> rcases Int.lt_or_gt_of_ne hb with negB | posB'
  · rw [Int.sign_eq_neg_one_of_neg negA, Int.sign_eq_neg_one_of_neg negB, decide_eq_true negA,
      decide_eq_true negB]
    simp only [true_and]
    omega
  · rw [Int.sign_eq_neg_one_of_neg negA, Int.sign_eq_one_of_pos posB', decide_eq_true negA,
      decide_eq_false (Int.not_lt.2 (Int.le_of_lt posB'))]
    simp only [Bool.true_eq_false, false_and, iff_false]
    omega
  · rw [Int.sign_eq_one_of_pos posA', Int.sign_eq_neg_one_of_neg negB, decide_eq_true negB,
      decide_eq_false (Int.not_lt.2 (Int.le_of_lt posA'))]
    simp only [Bool.false_eq_true, false_and, iff_false]
    omega
  · rw [Int.sign_eq_one_of_pos posA', Int.sign_eq_one_of_pos posB',
      decide_eq_false (Int.not_lt.2 (Int.le_of_lt posA')),
      decide_eq_false (Int.not_lt.2 (Int.le_of_lt posB'))]
    simp only [true_and]
    omega

theorem signOf_inj {p q : Bool} (same : signOf p = signOf q) : p = q := by
  cases p with
  | false => cases q with
    | false => rfl
    | true => cases same
  | true => cases q with
    | false => cases same
    | true => rfl

/-- **Floats of integers are equal exactly if the integers are rounded to the same one.** -/
theorem beq_ofInt_iff (ha : a.natAbs < 2 ^ 64) (hb : b.natAbs < 2 ^ 64) :
    (Float.ofInt a == Float.ofInt b) = true ↔ nearestInt a = nearestInt b := by
  show (Float.ofInt a).toModel.unpack.beq (Float.ofInt b).toModel.unpack = true ↔ _
  rw [beq_iff_ne_notANumber_and_eq]
  have zero : (Float.ofInt 0).toModel.unpack = .zero .positive := rfl
  -- Zero is a shape of its own, and no other integer is rounded to it.
  by_cases zeroA : a = 0
  · by_cases zeroB : b = 0
    · rw [zeroA, zeroB, zero]
      simp
    · obtain ⟨m, s, pos, -, unpacked, -⟩ := unpack_ofInt_nearest zeroB hb
      have other : ¬nearestInt a = nearestInt b := by
        rw [nearestInt_eq_zero_iff.2 zeroA, eq_comm]
        exact mt nearestInt_eq_zero_iff.1 zeroB
      rw [zeroA, zero, unpacked, ← zeroA]
      simp [other]
  · obtain ⟨m, s, pos, normal, unpacked, value⟩ := unpack_ofInt_nearest zeroA ha
    by_cases zeroB : b = 0
    · have other : ¬nearestInt a = nearestInt b := by
        rw [nearestInt_eq_zero_iff.2 zeroB]
        exact mt nearestInt_eq_zero_iff.1 zeroA
      rw [zeroB, zero, unpacked, ← zeroB]
      simp [other]
    -- Otherwise both floats are normal, and then sign and magnitude determine them.
    · obtain ⟨m', s', pos', normal', unpacked', value'⟩ := unpack_ofInt_nearest zeroB hb
      rw [unpacked, unpacked', nearestInt_eq_iff zeroA zeroB]
      constructor
      · rintro ⟨-, -, same | ⟨same, -⟩ | ⟨same, -⟩⟩
        · obtain ⟨sign, rfl, place⟩ := UnpackedFloat.finite.inj same
          obtain rfl : s = s' := by omega
          exact ⟨signOf_inj sign,
            Nat.eq_of_mul_eq_mul_right (Nat.two_pow_pos 52) (value.symm.trans value')⟩
        · exact nomatch same
        · exact nomatch same
      · rintro ⟨sign, magnitude⟩
        rw [magnitude, ← value'] at value
        obtain ⟨rfl, rfl⟩ := normal_unique normal normal' value
        rw [sign]
        simp

/-- Integers below `2 ^ 53` are not rounded. -/
theorem nearestInt_of_small (small : i.natAbs < 2 ^ 53) : nearestInt i = i := by
  rw [nearestInt, nearestNat_of_lt small, Int.sign_mul_natAbs]

/-- No other integer is rounded to one below `2 ^ 53`. -/
theorem nearestInt_inj_of_small (small : a.natAbs < 2 ^ 53) :
    nearestInt a = nearestInt b ↔ a = b := by
  constructor
  · intro same
    have few : b.natAbs < 2 ^ 53 := by
      by_contra large
      have more := nearestNat_le_of_le (Nat.not_lt.1 large)
      have size : (nearestInt b).natAbs = nearestNat b.natAbs := by
        rw [nearestInt, Int.natAbs_mul, Int.natAbs_sign_of_ne_zero (by omega), Nat.one_mul,
          Int.natAbs_natCast]
      rw [← same, nearestInt_of_small small] at size
      omega
    rwa [nearestInt_of_small small, nearestInt_of_small few] at same
  · intro same
    rw [same]

end Conveyor.Decimal
