import Candlestick.Proofs.Decimal.Rounding
import Candlestick.Scalar

namespace Candlestick.Decimal

open Float.Model (UnpackedFloat Format)
open Float.Model.UnpackedFloat

theorem exponentBias_eq : Format.binary64.exponentBias = 1023 := by decide

theorem toNat_append_one (f : BitVec 52) : (1#1 ++ f).toNat = hiddenBit + f.toNat := by
  have hor := Nat.two_pow_add_eq_or_of_lt f.isLt 1
  rw [Nat.mul_one] at hor
  rw [BitVec.toNat_append]
  exact hor.symm

-- The word of a finite double other than zero is that of a magnitude.
theorem normal_of_unpack {bits : BitVec Format.binary64.numBits} {sign : Sign} {m : Nat} {e : Int}
    {h : 0 < m} (hunpack : unpack .binary64 bits = .finite sign m e h) :
    (Magnitude.mk m e).Normal ∧ e ≤ 971 := by
  have hmantissa : (unpackMantissa bits).toNat < hiddenBit := (unpackMantissa bits).isLt
  have hexponent : (unpackExponent bits).toNat < 2048 := (unpackExponent bits).isLt
  have hbias := exponentBias_eq
  rw [unpack] at hunpack
  simp only at hunpack
  split at hunpack
  · split at hunpack <;> cases hunpack
  · rename_i hones
    have hne : (unpackExponent bits).toNat ≠ 2047 := fun heq => hones (BitVec.eq_of_toNat_eq heq)
    split at hunpack
    · rename_i hzero
      split at hunpack
      · cases hunpack
      · injection hunpack with _ hm he
        have hnat : (unpackExponent bits).toNat = 0 := by rw [hzero]; rfl
        have hleast : e = -1074 := by omega
        subst hm
        exact ⟨⟨by simp only; omega, hleast.ge, .inl hleast⟩, by omega⟩
    · rename_i hzero
      injection hunpack with _ hm he
      have hnat : (unpackExponent bits).toNat ≠ 0 := fun heq => hzero (BitVec.eq_of_toNat_eq heq)
      have hvalue := toNat_append_one (unpackMantissa bits)
      rw [hm] at hvalue
      exact ⟨⟨by simp only; omega, by simp only; omega, .inr (by simp only; omega)⟩, by omega⟩

-- What a number is once it is a word.
def stored (u : UnpackedFloat) : UnpackedFloat := unpack .binary64 (pack .binary64 u)

@[simp] theorem stored_infinity (sign : Sign) : stored (.infinity sign) = .infinity sign := by
  simp [stored, pack, unpack, packedInfinity]

@[simp] theorem stored_zero (sign : Sign) : stored (.zero sign) = .zero sign := by
  simp [stored, pack]

theorem toNat_append_one_pos (f : BitVec 52) : 0 < (1#1 ++ f).toNat := by
  rw [toNat_append_one]
  exact Nat.add_pos_left (Nat.two_pow_pos 52) _

theorem unpack_packComponents (sign : Sign) (exponent : BitVec 11) (mantissa : BitVec 52) :
    unpack .binary64 (packComponents .binary64 sign exponent mantissa) =
      if exponent = -1#11 then (if mantissa = 0#52 then .infinity sign else .notANumber)
      else if exponent = 0#11 then
        (if h : mantissa = 0#52 then .zero sign
        else .finite sign mantissa.toNat ((exponent.toNat : Int) - 1075 + 1)
          (by simpa [BitVec.toNat_pos, BitVec.pos_iff_ne_zero]))
      else .finite sign (1#1 ++ mantissa).toNat (exponent.toNat - 1075)
        (toNat_append_one_pos mantissa) := by
  simp only [unpack, unpackExponent_packComponents, unpackMantissa_packComponents,
    unpackSign_packComponents, Sign.ofBitVec_toBitVec, exponentBias_eq]
  rfl

-- Packing keeps a magnitude, unless it is too large.
theorem stored_finite (sign : Sign) {x : Magnitude} (hx : x.Normal) (hpos : 0 < x.significand) :
    stored (x.unpacked sign hpos) =
      if x.exponent ≤ 971 then x.unpacked sign hpos else .infinity sign := by
  obtain ⟨m, e⟩ := x
  obtain ⟨hm, he, hhidden⟩ := hx
  simp only [Magnitude.unpacked] at hm he hhidden hpos ⊢
  obtain ⟨b, hb⟩ : ∃ b : Nat, e + 1075 = b := ⟨(e + 1075).toNat, by omega⟩
  have hbiased : (e + Format.binary64.exponentBias +
      Format.binary64.mantissaBitsWithoutImplicit).toNat = b := by
    rw [exponentBias_eq]
    have hbits : Format.binary64.mantissaBitsWithoutImplicit = 52 := rfl
    omega
  have hbits : 2 ^ Format.binary64.exponentBits = 2048 := by decide
  have hwidth : Format.binary64.mantissaBits = 53 := by decide
  rw [stored, pack, hbiased, hbits, hwidth]
  by_cases hlarge : e ≤ 971
  · rw [if_pos hlarge, if_neg (by omega)]
    by_cases hnormal : hiddenBit ≤ m
    · have hlog : m.log2 + 1 = 53 := by
        rw [Nat.add_right_cancel_iff, Nat.log2_eq_iff hpos.ne']
        exact ⟨hnormal, hm⟩
      have hexponent : (BitVec.ofNat 11 b).toNat = b := by
        rw [BitVec.toNat_ofNat]
        omega
      have hones : BitVec.ofNat 11 b ≠ -1#11 := by
        intro heq
        rw [heq, show (-1#11).toNat = 2047 by decide] at hexponent
        omega
      have hzero : BitVec.ofNat 11 b ≠ 0#11 := by
        intro heq
        rw [heq, BitVec.toNat_zero] at hexponent
        omega
      rw [if_pos hlog, unpack_packComponents, if_neg hones, if_neg hzero,
        UnpackedFloat.finite.injEq]
      refine ⟨rfl, ?_, ?_⟩
      · rw [toNat_append_one, BitVec.toNat_ofNat]
        simp only [hiddenBit] at hm hnormal ⊢
        omega
      · rw [hexponent]
        omega
    · have hsmall : m < 2 ^ 52 := Nat.lt_of_not_le hnormal
      have hlog : ¬ m.log2 + 1 = 53 := by
        have hlt := (Nat.log2_lt hpos.ne').mpr hsmall
        omega
      have hmantissa : (BitVec.ofNat 52 m).toNat = m := by
        rw [BitVec.toNat_ofNat, Nat.mod_eq_of_lt hsmall]
      have hne : BitVec.ofNat 52 m ≠ 0#52 := by
        intro heq
        rw [heq] at hmantissa
        exact hpos.ne hmantissa
      rw [if_neg hlog, unpack_packComponents, if_neg (by decide), if_pos rfl, dif_neg hne,
        UnpackedFloat.finite.injEq, hhidden.resolve_right hnormal]
      exact ⟨rfl, hmantissa, rfl⟩
  · rw [if_neg hlarge, if_pos (by omega)]
    exact stored_infinity sign

-- Numbers that are not below zero and can be packed as they are.
inductive NotNegative : UnpackedFloat → Prop
  | infinity : NotNegative (.infinity .positive)
  | zero (sign : Sign) : NotNegative (.zero sign)
  | finite (x : Magnitude) (normal : x.Normal) (le : x.exponent ≤ 971) (pos : 0 < x.significand) :
      NotNegative (x.unpacked .positive pos)

theorem le_finite_iff {x y : Magnitude} (hx : 0 < x.significand) (hy : 0 < y.significand) :
    UnpackedFloat.le (x.unpacked .positive hx) (y.unpacked .positive hy) = true ↔ x.Le y := by
  rw [UnpackedFloat.le, UnpackedFloat.compare, Option.any_some, Ordering.isLE_then_iff_or,
    compare_lt_iff_lt, compare_eq_iff_eq, Nat.isLE_compare, Magnitude.Le]

namespace RoundsTo

variable {n : Nat} {k : Int} {u : UnpackedFloat} {x : Magnitude}

-- A number above zero can be rounded to zero, but not to a number below it.
theorem notNegative_stored (h : RoundsTo .positive n k u) : NotNegative (stored u) := by
  cases h with
  | zero h =>
      rw [stored_zero]
      exact .zero .positive
  | finite y hpos h =>
      rw [stored_finite .positive h.normal hpos]
      split
      · rename_i hle
        exact .finite y h.normal hle hpos
      · exact .infinity

theorem le_stored (hx : x.Normal) (hpos : 0 < x.significand) (h : RoundsTo .positive n k u)
    (hle : x.AtMost n k) :
    UnpackedFloat.le (x.unpacked .positive hpos) (stored u) = true := by
  cases h with
  | zero h => exact absurd (h x hx hle) hpos.ne'
  | finite y hy h =>
      rw [stored_finite .positive h.normal hy]
      split
      · exact (le_finite_iff hpos hy).mpr (h.le_of_atMost x hx hle)
      · rfl

theorem stored_le (hx : x.Normal) (hlarge : x.exponent ≤ 971) (hpos : 0 < x.significand)
    (h : RoundsTo .positive n k u) (hle : x.AtLeast n k) :
    UnpackedFloat.le (stored u) (x.unpacked .positive hpos) = true := by
  cases h with
  | zero h =>
      rw [stored_zero]
      rfl
  | finite y hy h =>
      have hyx := h.le_of_atLeast x hx hle
      rw [stored_finite .positive h.normal hy, if_pos (hyx.exponent_le.trans hlarge)]
      exact (le_finite_iff hy hpos).mpr hyx

theorem stored_negative_le (h : RoundsTo .negative n k u) (hpos : 0 < x.significand) :
    UnpackedFloat.le (stored u) (x.unpacked .positive hpos) = true := by
  cases h with
  | zero h =>
      rw [stored_zero]
      rfl
  | finite y hy h =>
      rw [stored_finite .negative h.normal hy]
      split <;> rfl

end RoundsTo

theorem normalize_natCast {n : Nat} (hn : n ≠ 0) (k : Int) (sign : Sign) :
    UnpackedFloat.normalize .binary64 n k sign = UnpackedFloat.round .binary64 .positive n k := by
  have hcompare : compare (n : Int) 0 = .gt := compare_gt_iff_gt.mpr (by omega)
  rw [UnpackedFloat.normalize, hcompare, Int.toNat_natCast]

theorem normalize_neg_natCast {n : Nat} (hn : n ≠ 0) (k : Int) (sign : Sign) :
    UnpackedFloat.normalize .binary64 (-n) k sign = UnpackedFloat.round .binary64 .negative n k := by
  have hcompare : compare (-n : Int) 0 = .lt := compare_lt_iff_lt.mpr (by omega)
  rw [UnpackedFloat.normalize, hcompare, Int.neg_neg, Int.toNat_natCast]

-- The significand of a magnitude in units of 2^k.
def Magnitude.aligned (x : Magnitude) (k : Int) : Nat :=
  x.significand <<< (x.exponent - k).toNat

section Operands

variable {x y : Magnitude}

theorem Magnitude.aligned_eq {k : Int} {a : Nat} (ha : k + a = x.exponent) :
    x.aligned k = x.significand * 2 ^ a := by
  have hshift : (x.exponent - k).toNat = a := by omega
  rw [aligned, hshift, Nat.shiftLeft_eq]

theorem Magnitude.aligned_pos (hpos : 0 < x.significand) (k : Int) : 0 < x.aligned k := by
  rw [aligned, Nat.shiftLeft_eq]
  exact Nat.mul_pos hpos (Nat.two_pow_pos _)

theorem le_stored_add_finite (hx : x.Normal) (hxpos : 0 < x.significand)
    (hypos : 0 < y.significand) :
    UnpackedFloat.le (x.unpacked .positive hxpos)
      (stored (add .binary64 (x.unpacked .positive hxpos) (y.unpacked .positive hypos))) = true := by
  let k := min x.exponent y.exponent
  have hne : x.aligned k + y.aligned k ≠ 0 :=
    (Nat.add_pos_left (Magnitude.aligned_pos hxpos k) _).ne'
  have hadd : add .binary64 (x.unpacked .positive hxpos) (y.unpacked .positive hypos) =
      UnpackedFloat.normalize .binary64 ((x.aligned k + y.aligned k : Nat) : Int) k .positive := rfl
  rw [hadd, normalize_natCast hne]
  refine (roundsTo_round .positive hne k).le_stored hx hxpos ?_
  obtain ⟨a, ha⟩ := Int.le.dest (min_le_left x.exponent y.exponent)
  exact ⟨a, ha, Magnitude.aligned_eq ha ▸ Nat.le_add_right _ _⟩

theorem stored_sub_finite_le (hx : x.Normal) (hlarge : x.exponent ≤ 971)
    (hxpos : 0 < x.significand) (hypos : 0 < y.significand) :
    UnpackedFloat.le
      (stored (sub .binary64 (x.unpacked .positive hxpos) (y.unpacked .positive hypos)))
      (x.unpacked .positive hxpos) = true := by
  let k := min x.exponent y.exponent
  have hsub : sub .binary64 (x.unpacked .positive hxpos) (y.unpacked .positive hypos) =
      UnpackedFloat.normalize .binary64 ((x.aligned k : Int) - y.aligned k) k .positive := rfl
  rw [hsub]
  rcases lt_trichotomy (x.aligned k) (y.aligned k) with hlt | heq | hgt
  · have hdiff : (x.aligned k : Int) - y.aligned k = -((y.aligned k - x.aligned k : Nat) : Int) := by
      omega
    have hne : y.aligned k - x.aligned k ≠ 0 := by omega
    rw [hdiff, normalize_neg_natCast hne]
    exact (roundsTo_round .negative hne k).stored_negative_le hxpos
  · rw [heq, Int.sub_self]
    change UnpackedFloat.le (stored (.zero .positive)) _ = true
    rw [stored_zero]
    rfl
  · have hdiff : (x.aligned k : Int) - y.aligned k = ((x.aligned k - y.aligned k : Nat) : Int) := by
      omega
    have hne : x.aligned k - y.aligned k ≠ 0 := by omega
    rw [hdiff, normalize_natCast hne]
    refine (roundsTo_round .positive hne k).stored_le hx hlarge hxpos ?_
    obtain ⟨a, ha⟩ := Int.le.dest (min_le_left x.exponent y.exponent)
    exact ⟨a, ha, Magnitude.aligned_eq ha ▸ Nat.sub_le _ _⟩

-- A product has more digits than a significand, or is too small to need them.
theorem le_target_mul (hx : x.Normal) (hy : y.Normal) (hxpos : 0 < x.significand)
    (hypos : 0 < y.significand) :
    x.exponent + y.exponent ≤
      target (x.significand * y.significand) (x.exponent + y.exponent) := by
  have hlog (h : 2 ^ 52 ≤ x.significand * y.significand) :
      52 ≤ (x.significand * y.significand).log2 :=
    (Nat.le_log2 (Nat.mul_pos hxpos hypos).ne').mpr h
  rw [target]
  rcases hx.hidden with hxleast | hxhidden
  · rcases hy.hidden with hyleast | hyhidden
    · omega
    · have := hlog (hyhidden.trans (Nat.le_mul_of_pos_left _ hxpos))
      omega
  · have := hlog (hxhidden.trans (Nat.le_mul_of_pos_right _ hypos))
    omega

theorem notNegative_stored_mul_finite (hx : x.Normal) (hy : y.Normal) (hxpos : 0 < x.significand)
    (hypos : 0 < y.significand) :
    NotNegative
      (stored (mul .binary64 (x.unpacked .positive hxpos) (y.unpacked .positive hypos))) :=
  (roundsTo_roundWithAccuracy .positive (Nat.mul_pos hxpos hypos).ne'
    (le_target_mul hx hy hxpos hypos)).notNegative_stored

end Operands

namespace NotNegative

variable {u v : UnpackedFloat}

theorem stored_mul (hu : NotNegative u) (hv : NotNegative v) (hufinite : u.isFinite = true)
    (hvfinite : v.isFinite = true) : NotNegative (stored (mul .binary64 u v)) := by
  cases hu with
  | infinity => cases hufinite
  | zero s =>
      cases hv with
      | infinity => cases hvfinite
      | zero t | finite y =>
          rw [mul, stored_zero]
          exact .zero _
  | finite x hx hxlarge hxpos =>
      cases hv with
      | infinity => cases hvfinite
      | zero t =>
          rw [mul, stored_zero]
          exact .zero _
      | finite y hy hylarge hypos => exact notNegative_stored_mul_finite hx hy hxpos hypos

theorem le_stored_add (hu : NotNegative u) (hv : NotNegative v) (hfinite : u.isFinite = true) :
    UnpackedFloat.le u (stored (add .binary64 u v)) = true := by
  cases hu with
  | infinity => cases hfinite
  | zero s =>
      cases hv with
      | infinity =>
          simp only [add, stored_infinity]
          rfl
      | zero t =>
          simp only [add]
          split <;> rw [stored_zero] <;> rfl
      | finite y hy hylarge hypos =>
          simp only [add]
          rw [stored_finite .positive hy hypos, if_pos hylarge]
          rfl
  | finite x hx hxlarge hxpos =>
      cases hv with
      | infinity =>
          simp only [add, stored_infinity]
          rfl
      | zero t =>
          simp only [add]
          rw [stored_finite .positive hx hxpos, if_pos hxlarge]
          exact (le_finite_iff hxpos hxpos).mpr (Magnitude.Le.refl x)
      | finite y hy hylarge hypos => exact le_stored_add_finite hx hxpos hypos

theorem stored_sub_le (hu : NotNegative u) (hv : NotNegative v) (hfinite : u.isFinite = true) :
    UnpackedFloat.le (stored (sub .binary64 u v)) u = true := by
  cases hu with
  | infinity => cases hfinite
  | zero s =>
      cases hv with
      | infinity =>
          simp only [sub, stored_infinity]
          rfl
      | zero t =>
          simp only [sub]
          split <;> rw [stored_zero] <;> rfl
      | finite y hy hylarge hypos =>
          simp only [sub]
          rw [stored_finite _ hy hypos, if_pos hylarge]
          rfl
  | finite x hx hxlarge hxpos =>
      cases hv with
      | infinity =>
          simp only [sub, stored_infinity]
          rfl
      | zero t =>
          simp only [sub]
          rw [stored_finite .positive hx hxpos, if_pos hxlarge]
          exact (le_finite_iff hxpos hxpos).mpr (Magnitude.Le.refl x)
      | finite y hy hylarge hypos => exact stored_sub_finite_le hx hxlarge hxpos hypos

-- Numbers that compare as equal compare alike with any other.
theorem le_congr (hu : NotNegative u) (hfinite : u.isFinite = true)
    (heq : UnpackedFloat.beq u v = true) (w : UnpackedFloat) :
    UnpackedFloat.le u w = UnpackedFloat.le v w ∧ UnpackedFloat.le w u = UnpackedFloat.le w v := by
  cases hu with
  | infinity => cases hfinite
  | zero s =>
      cases v with
      | notANumber => cases heq
      | infinity t | finite t => cases t <;> cases heq
      | zero t =>
          cases w with
          | notANumber | zero => exact ⟨rfl, rfl⟩
          | infinity r | finite r => cases r <;> exact ⟨rfl, rfl⟩
  | finite x hx hlarge hpos =>
      cases v with
      | notANumber => cases heq
      | zero t => cases heq
      | infinity t => cases t <;> cases heq
      | finite t m e hm =>
          cases t with
          | negative => cases heq
          | positive =>
              rw [UnpackedFloat.beq, UnpackedFloat.compare, beq_iff_eq, Option.some_inj,
                Ordering.then_eq_eq, compare_eq_iff_eq, compare_eq_iff_eq] at heq
              obtain ⟨he, hsignificand⟩ := heq
              subst he hsignificand
              exact ⟨rfl, rfl⟩

end NotNegative

section Comparison

variable {u v : UnpackedFloat}

theorem isNaN_of_compare_eq_none (h : u.compare v = none) : u.isNaN = true ∨ v.isNaN = true := by
  cases u with
  | notANumber => exact .inl rfl
  | infinity s =>
      cases v with
      | notANumber => exact .inr rfl
      | infinity t | zero t | finite t => cases s <;> cases h
  | zero s =>
      cases v with
      | notANumber => exact .inr rfl
      | infinity t | finite t => cases t <;> cases h
      | zero t => cases h
  | finite s =>
      cases v with
      | notANumber => exact .inr rfl
      | infinity t | zero t | finite t => cases s <;> cases t <;> cases h

theorem map_swap_compare : (u.compare v).map Ordering.swap = v.compare u := by
  cases u with
  | notANumber => cases v <;> rfl
  | infinity s =>
      cases v with
      | notANumber => rfl
      | infinity t | zero t | finite t => cases s <;> cases t <;> rfl
  | zero s =>
      cases v with
      | notANumber | zero t => rfl
      | infinity t | finite t => cases t <;> rfl
  | finite s m e =>
      cases v with
      | notANumber => rfl
      | infinity t | zero t => cases s <;> cases t <;> rfl
      | finite t n f =>
          cases s <;> cases t
          case negative.positive | positive.negative => rfl
          case negative.negative | positive.positive =>
            simp only [UnpackedFloat.compare, Option.map_some, Ordering.swap_then,
              Int.compare_swap, Nat.compare_swap]

end Comparison

section Doubles

variable {x y z : Float}

theorem le_iff_unpack : x ≤ y ↔ UnpackedFloat.le x.toModel.unpack y.toModel.unpack = true :=
  decide_eq_true_iff

theorem lt_iff_unpack : x < y ↔ UnpackedFloat.lt x.toModel.unpack y.toModel.unpack = true :=
  decide_eq_true_iff

-- Any two doubles compare, unless one is not a number.
theorem beq_of_not_lt (h : ¬ x < y) (hswap : ¬ y < x) :
    (x == y) = true ∨ x.isNaN = true ∨ y.isNaN = true := by
  cases horder : x.toModel.unpack.compare y.toModel.unpack with
  | none => exact .inr (isNaN_of_compare_eq_none horder)
  | some order =>
      cases order with
      | eq =>
          have heq : UnpackedFloat.beq x.toModel.unpack y.toModel.unpack = true :=
            beq_iff_eq.mpr horder
          exact .inl heq
      | lt => exact absurd (lt_iff_unpack.mpr (beq_iff_eq.mpr horder)) h
      | gt =>
          have hlt := map_swap_compare (u := x.toModel.unpack) (v := y.toModel.unpack)
          rw [horder] at hlt
          exact absurd (lt_iff_unpack.mpr (beq_iff_eq.mpr hlt.symm)) hswap

theorem notNegative_unpack (hfinite : x.isFinite = true) (h : ¬ x < Scalar.zero) :
    NotNegative x.toModel.unpack ∧ x.toModel.unpack.isFinite = true := by
  have hmodel : x.toModel.unpack.isFinite = true := hfinite
  have hnonneg : ¬ UnpackedFloat.lt x.toModel.unpack (.zero .positive) = true := by
    rwa [lt_iff_unpack] at h
  refine ⟨?_, hmodel⟩
  cases hx : x.toModel.unpack with
  | notANumber | infinity =>
      rw [hx] at hmodel
      cases hmodel
  | zero sign => exact .zero sign
  | finite sign m e hpos =>
      rw [hx] at hnonneg
      cases sign with
      | negative => exact absurd rfl hnonneg
      | positive =>
          obtain ⟨hnormal, hlarge⟩ := normal_of_unpack hx
          exact .finite ⟨m, e⟩ hnormal hlarge hpos

variable (hx : x.isFinite = true) (hxzero : ¬ x < Scalar.zero)

include hx hxzero

theorem notNegative_mul (hy : y.isFinite = true) (hyzero : ¬ y < Scalar.zero) :
    NotNegative (x * y).toModel.unpack := by
  obtain ⟨hxnonneg, hxfinite⟩ := notNegative_unpack hx hxzero
  obtain ⟨hynonneg, hyfinite⟩ := notNegative_unpack hy hyzero
  exact hxnonneg.stored_mul hynonneg hxfinite hyfinite

theorem le_add (hy : NotNegative y.toModel.unpack) : x ≤ x + y := by
  obtain ⟨hxnonneg, hxfinite⟩ := notNegative_unpack hx hxzero
  exact le_iff_unpack.mpr (hxnonneg.le_stored_add hy hxfinite)

theorem sub_le (hy : NotNegative y.toModel.unpack) : x - y ≤ x := by
  obtain ⟨hxnonneg, hxfinite⟩ := notNegative_unpack hx hxzero
  exact le_iff_unpack.mpr (hxnonneg.stored_sub_le hy hxfinite)

theorem le_iff_of_beq (h : (x == y) = true) : (x ≤ z ↔ y ≤ z) ∧ (z ≤ x ↔ z ≤ y) := by
  obtain ⟨hxnonneg, hxfinite⟩ := notNegative_unpack hx hxzero
  obtain ⟨hleft, hright⟩ := hxnonneg.le_congr hxfinite h z.toModel.unpack
  simp only [le_iff_unpack, hleft, hright, and_self]

end Doubles

end Candlestick.Decimal
