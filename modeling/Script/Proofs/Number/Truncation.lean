import Mathlib
import Script.Number.Exact

namespace Script.Number

def signed {α : Type} [Neg α] (negative : Bool) (a : α) : α :=
  if negative then -a else a

def Exact.value? : Exact → Option ℚ
  | .finite negative significand exponent => some (signed negative (significand * 2 ^ exponent))
  | _ => none

def value? (x : Float) : Option ℚ :=
  (exact x).value?

def towardZero (q : ℚ) : ℤ :=
  if 0 ≤ q then ⌊q⌋ else ⌈q⌉

def whole? (x : Float) : Option ℤ :=
  (value? x).map towardZero

theorem towardZero_neg (q : ℚ) : towardZero (-q) = -towardZero q := by
  unfold towardZero
  rcases lt_trichotomy q 0 with hneg | rfl | hpos
  · rw [if_pos (by linarith), if_neg (by linarith), Int.floor_neg]
  · simp
  · rw [if_neg (by linarith), if_pos hpos.le, Int.ceil_neg]

theorem towardZero_signed (negative : Bool) (q : ℚ) :
    towardZero (signed negative q) = signed negative (towardZero q) := by
  cases negative with
  | false => rfl
  | true => exact towardZero_neg q

theorem pow2_eq (n : Nat) : pow2 n = 2 ^ n := rfl

theorem towardZero_natCast_mul (significand : Nat) (exponent : Int) :
    towardZero (significand * 2 ^ exponent) = wholePart significand exponent := by
  have hpos : (0 : ℚ) ≤ significand * 2 ^ exponent := by positivity
  rw [towardZero, if_pos hpos, wholePart]
  split
  · next hexponent =>
    obtain ⟨n, rfl⟩ := Int.eq_ofNat_of_zero_le hexponent
    rw [Int.toNat_natCast, pow2_eq, zpow_natCast]
    exact_mod_cast Int.floor_natCast (significand * 2 ^ n)
  · next hexponent =>
    obtain ⟨n, rfl⟩ : ∃ n : ℕ, exponent = -n := ⟨(-exponent).toNat, by omega⟩
    rw [neg_neg, Int.toNat_natCast, pow2_eq, zpow_neg, zpow_natCast, ← div_eq_mul_inv]
    exact_mod_cast Rat.floor_natCast_div_natCast significand (2 ^ n)

theorem whole?_of_finite {x : Float} {negative : Bool} {significand : Nat} {exponent : Int}
    (h : exact x = .finite negative significand exponent) :
    whole? x = some (signed negative (wholePart significand exponent : ℤ)) := by
  rw [whole?, value?, h, Exact.value?, Option.map_some, towardZero_signed, towardZero_natCast_mul]

/-- A number names the position that its whole part is. -/
theorem position?_eq_some_iff (x : Float) (position : Nat) :
    position? x = some position ↔ whole? x = some (position : ℤ) := by
  cases h : exact x with
  | nan => simp [position?, whole?, value?, Exact.value?, h]
  | infinite negative => simp [position?, whole?, value?, Exact.value?, h]
  | finite negative significand exponent =>
    rw [whole?_of_finite h, position?, h]
    dsimp only
    cases negative with
    | false => simp [signed]
    | true =>
      simp only [signed, if_true, true_and]
      split
      · next hwhole =>
        simp only [reduceCtorEq, Option.some.injEq, false_iff]
        omega
      · next hwhole =>
        simp only [Option.some.injEq]
        omega

open Float.Model Float.Model.UnpackedFloat in
/-- Bits with any exponent but the highest come back as they were. -/
theorem toNat_toBits_ofBits {n : Nat} (hn : n < 2 ^ 64) (hones : n / pow2 52 % pow2 11 ≠ 2047) :
    (Float.ofBits (UInt64.ofNat n)).toBits.toNat = n := by
  let bits : BitVec Format.binary64.numBits := BitVec.ofNat 64 n
  have hvalue : bits.toNat = n := Nat.mod_eq_of_lt hn
  have hexponent : (unpackExponent bits).toNat = n / pow2 52 % pow2 11 := by
    rw [unpackExponent, BitVec.toNat_cast, BitVec.extractLsb_toNat, hvalue,
      Nat.shiftRight_eq_div_pow]
    rfl
  have hfinite : isNaNBits bits = false := by
    rw [isNaNBits, decide_eq_false_iff_not]
    rintro ⟨hall, -⟩
    exact hones (hexponent.symm.trans (congrArg BitVec.toNat hall))
  have hbits := pack_unpack bits
  rw [hfinite, if_neg Bool.false_ne_true] at hbits
  exact (congrArg BitVec.toNat hbits).trans hvalue

theorem exact_of_fields (negative : Bool) {biased fraction : Nat} (hbiased : biased < 2047)
    (hfraction : fraction < pow2 52) :
    exact (Float.ofBits (UInt64.ofNat
        ((if negative then pow2 63 else 0) + biased * pow2 52 + fraction))) =
      if biased = 0 then .finite negative fraction leastExponent
      else .finite negative (pow2 52 + fraction) (leastExponent + biased - 1) := by
  have h11 : pow2 11 = 2048 := rfl
  have h52 : pow2 52 = 4503599627370496 := rfl
  have h63 : pow2 63 = 9223372036854775808 := rfl
  generalize hsign : (if negative then pow2 63 else 0) = sign
  have hcases : sign = 0 ∧ negative = false ∨ sign = 9223372036854775808 ∧ negative = true := by
    rw [← hsign, h63]
    cases negative <;> simp
  rw [h52] at hfraction ⊢
  generalize hbits : sign + biased * 4503599627370496 + fraction = bits
  have hexponent : bits / 4503599627370496 % 2048 = biased := by omega
  have hlow : bits % 4503599627370496 = fraction := by omega
  have hnegative : decide (9223372036854775808 ≤ bits) = negative := by
    rcases hcases with ⟨rfl, rfl⟩ | ⟨rfl, rfl⟩
    · rw [decide_eq_false_iff_not]
      omega
    · rw [decide_eq_true_iff]
      omega
  have hread := toNat_toBits_ofBits (n := bits) (by omega) (by rw [h52, h11]; omega)
  simp only [exact, hread, h11, h52, h63, hexponent, hlow, hnegative]
  rw [if_neg (by omega)]

theorem shifted_mul_zpow (significand shift : Nat) (exponent : Int) :
    ((significand * pow2 shift : Nat) : ℚ) * 2 ^ (exponent - shift) =
      significand * 2 ^ exponent := by
  rw [Nat.cast_mul, pow2_eq, Nat.cast_pow, Nat.cast_ofNat, mul_assoc, ← zpow_natCast,
    ← zpow_add₀ two_ne_zero, add_sub_cancel]

theorem shifted_lt {significand shift : Nat} (hsignificand : significand < 2 ^ 53)
    (hshift : shift ≤ 52 - significand.log2) : significand * pow2 shift < 2 ^ 53 := by
  by_cases hzero : significand = 0
  · simp [hzero]
  have hlog : significand.log2 < 53 := (Nat.log2_lt hzero).mpr hsignificand
  calc significand * pow2 shift
      < 2 ^ (significand.log2 + 1) * 2 ^ shift :=
        Nat.mul_lt_mul_of_pos_right Nat.lt_log2_self (Nat.two_pow_pos shift)
    _ = 2 ^ (significand.log2 + 1 + shift) := (pow_add 2 _ _).symm
    _ ≤ 2 ^ 53 := Nat.pow_le_pow_right (by decide) (by omega)

theorem le_shifted {significand : Nat} (hsignificand : significand < 2 ^ 53)
    (hzero : significand ≠ 0) : pow2 52 ≤ significand * pow2 (52 - significand.log2) := by
  have hlog : significand.log2 < 53 := (Nat.log2_lt hzero).mpr hsignificand
  calc pow2 52 = 2 ^ (significand.log2 + (52 - significand.log2)) := by
        rw [pow2_eq, Nat.add_sub_cancel' (by omega)]
    _ = 2 ^ significand.log2 * 2 ^ (52 - significand.log2) := pow_add 2 _ _
    _ ≤ significand * pow2 (52 - significand.log2) :=
        Nat.mul_le_mul_right _ (Nat.log2_self_le hzero)

/-- A significand of at most 53 bits is shifted until it fits, which does not change the value. -/
theorem value?_pack (negative : Bool) {significand : Nat} {exponent : Int}
    (hsignificand : significand < 2 ^ 53) (hleast : leastExponent ≤ exponent)
    (hgreatest : exponent ≤ 971) :
    value? (pack negative significand exponent) =
      some (signed negative ((significand : ℚ) * 2 ^ exponent)) := by
  have h52 : pow2 52 = 4503599627370496 := rfl
  have hlow : leastExponent = -1074 := rfl
  generalize hshift : min (52 - significand.log2) (exponent - leastExponent).toNat = shift
  have hlt := shifted_lt hsignificand (hshift ▸ Nat.min_le_left _ _)
  have hroom : (shift : Int) ≤ exponent - leastExponent := by omega
  simp only [value?, pack, hshift]
  by_cases hsmall : significand * pow2 shift < pow2 52
  · -- The shift went as far as the exponent lets it, unless there is nothing to shift.
    rw [if_pos hsmall, Nat.mod_eq_of_lt hsmall, exact_of_fields negative (by decide) hsmall,
      if_pos rfl, Exact.value?]
    by_cases hzero : significand = 0
    · simp [hzero]
    have hend : leastExponent = exponent - shift := by
      have hfar : shift ≠ 52 - significand.log2 := by
        rintro rfl
        exact absurd (le_shifted hsignificand hzero) (Nat.not_le_of_lt hsmall)
      omega
    rw [hend, shifted_mul_zpow]
  · have hfraction : significand * pow2 shift % pow2 52 = significand * pow2 shift - pow2 52 := by
      rw [Nat.mod_eq_sub_mod (Nat.le_of_not_lt hsmall), Nat.mod_eq_of_lt (by omega)]
    rw [if_neg hsmall, hfraction, exact_of_fields negative (by omega) (by omega), if_neg (by omega),
      Exact.value?]
    have hback : pow2 52 + (significand * pow2 shift - pow2 52) = significand * pow2 shift := by
      omega
    have hend : leastExponent + ((exponent - shift - leastExponent + 1).toNat : Int) - 1 =
        exponent - shift := by omega
    rw [hback, hend, shifted_mul_zpow]

theorem significand_lt {x : Float} {negative : Bool} {significand : Nat} {exponent : Int}
    (h : exact x = .finite negative significand exponent) : significand < 2 ^ 53 := by
  have hfraction : x.toBits.toNat % pow2 52 < pow2 52 := Nat.mod_lt _ (by decide)
  have h52 : pow2 52 = 4503599627370496 := rfl
  simp only [exact] at h
  split at h
  · split at h <;> cases h
  · split at h <;> cases h <;> omega

theorem wholePart_le (significand : Nat) {exponent : Int} (hexponent : ¬0 ≤ exponent) :
    wholePart significand exponent ≤ significand := by
  rw [wholePart, if_neg hexponent]
  exact Nat.div_le_self _ _

theorem intCast_signed (negative : Bool) (n : Nat) :
    ((signed negative (n : ℤ) : ℤ) : ℚ) = signed negative (n : ℚ) := by
  cases negative <;> simp [signed]

/-- Without its fraction a number stands for its whole part. -/
theorem value?_truncate (x : Float) :
    value? (truncate x) = (whole? x).map (Int.cast : ℤ → ℚ) := by
  cases h : exact x with
  | nan => simp [truncate, whole?, value?, Exact.value?, h]
  | infinite negative => simp [truncate, whole?, value?, Exact.value?, h]
  | finite negative significand exponent =>
    rw [whole?_of_finite h, Option.map_some, intCast_signed]
    simp only [truncate, h]
    split
    · next hexponent =>
      -- There is no fraction to drop.
      obtain ⟨n, rfl⟩ := Int.eq_ofNat_of_zero_le hexponent
      rw [value?, h, Exact.value?, wholePart, if_pos hexponent]
      simp [pow2_eq]
    · next hexponent =>
      have hlt : wholePart significand exponent < 2 ^ 53 :=
        Nat.lt_of_le_of_lt (wholePart_le significand hexponent) (significand_lt h)
      rw [value?_pack negative hlt (by decide) (by decide), zpow_zero, mul_one]

/-- What is no finite number has no fraction. -/
theorem truncate_of_value?_eq_none {x : Float} (h : value? x = none) : truncate x = x := by
  unfold truncate
  cases hx : exact x with
  | nan => rfl
  | infinite negative => rfl
  | finite negative significand exponent => simp [value?, hx, Exact.value?] at h

/-- One number is another without its fraction. -/
def IsTruncation (x y : Float) : Prop :=
  value? y = (whole? x).map (Int.cast : ℤ → ℚ) ∧ (value? x = none → y = x)

theorem isTruncation_truncate (x : Float) : IsTruncation x (truncate x) :=
  ⟨value?_truncate x, truncate_of_value?_eq_none⟩

end Script.Number
