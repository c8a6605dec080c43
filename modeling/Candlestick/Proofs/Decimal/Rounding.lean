import Candlestick.Proofs.Decimal.Double

namespace Candlestick.Decimal

open Float.Model (UnpackedFloat Format totalExponent)
open Float.Model.UnpackedFloat

-- What is left of a whole number after so many shifts to the right, with what was shifted out.
def shifted (n s : Nat) : ExtendedMantissa := ExtendedMantissa.ofMantissaAndAccuracy n .exact >>> s

def rounded (n s : Nat) : Nat := (shifted n s).roundedMantissa

theorem shifted_succ (n s : Nat) : shifted n (s + 1) = (shifted n s).shiftRightOne := rfl

@[simp] theorem mantissa_shifted (n s : Nat) : (shifted n s).mantissa = n / 2 ^ s := by
  induction s with
  | zero => exact (Nat.div_one n).symm
  | succ s ih =>
      rw [shifted_succ, ExtendedMantissa.shiftRightOne, ih, Nat.div_div_eq_div_mul, ← Nat.pow_succ]

theorem bits_shifted {n s : Nat} (h : 2 ^ s ∣ n) :
    (shifted n s).roundBit = false ∧ (shifted n s).stickyBit = false := by
  induction s with
  | zero => exact ⟨rfl, rfl⟩
  | succ s ih =>
      obtain ⟨hround, hsticky⟩ := ih ((Nat.pow_dvd_pow 2 (Nat.le_succ s)).trans h)
      obtain ⟨q, rfl⟩ := h
      rw [shifted_succ, ExtendedMantissa.shiftRightOne, mantissa_shifted, hround, hsticky]
      refine ⟨?_, rfl⟩
      rw [Nat.pow_succ, Nat.mul_assoc, Nat.mul_div_cancel_left _ (Nat.two_pow_pos s)]
      simp

theorem roundedMantissa_bounds (x : ExtendedMantissa) :
    x.mantissa ≤ x.roundedMantissa ∧ x.roundedMantissa ≤ x.mantissa + 1 := by
  obtain ⟨m, round, sticky⟩ := x
  cases round <;> cases sticky <;>
    simp only [ExtendedMantissa.roundedMantissa, ExtendedMantissa.accuracy,
      Accuracy.roundToNearestEven] <;> omega

theorem rounded_of_dvd {n s : Nat} (h : 2 ^ s ∣ n) : rounded n s = n / 2 ^ s := by
  obtain ⟨hround, hsticky⟩ := bits_shifted h
  have hmantissa := mantissa_shifted n s
  rw [rounded]
  generalize shifted n s = x at hround hsticky hmantissa
  obtain ⟨m, round, sticky⟩ := x
  subst hround hsticky hmantissa
  rfl

-- Rounding does not cross a whole number.
theorem le_rounded {n s j : Nat} (h : j * 2 ^ s ≤ n) : j ≤ rounded n s := by
  have hlower := (roundedMantissa_bounds (shifted n s)).1
  rw [mantissa_shifted] at hlower
  exact ((Nat.le_div_iff_mul_le (Nat.two_pow_pos s)).mpr h).trans hlower

theorem rounded_le {n s j : Nat} (h : n ≤ j * 2 ^ s) : rounded n s ≤ j := by
  by_cases hdvd : 2 ^ s ∣ n
  · rw [rounded_of_dvd hdvd]
    exact Nat.div_le_of_le_mul (by rwa [Nat.mul_comm])
  · have hupper := (roundedMantissa_bounds (shifted n s)).2
    rw [mantissa_shifted] at hupper
    have hne : n ≠ j * 2 ^ s := fun heq => hdvd ⟨j, by rw [heq, Nat.mul_comm]⟩
    exact hupper.trans ((Nat.div_lt_iff_lt_mul (Nat.two_pow_pos s)).mpr (h.lt_of_ne hne))

-- The exponent of the doubles around n · 2^k.
def target (n : Nat) (k : Int) : Int := max (n.log2 + k - 52) (-1074)

theorem targetExponent_eq (n : Nat) (k : Int) :
    Format.binary64.targetExponent (totalExponent n k) = target n k := by
  simp only [Format.targetExponent, totalExponent, Format.mantissaBits, Format.minExponent, target]
  norm_num
  omega

theorem shiftToTarget_eq (n : Nat) (k : Int) :
    shiftToTargetExponent .binary64 n k .exact =
      (shifted n (target n k - k).toNat, k + (target n k - k).toNat) := by
  rw [shiftToTargetExponent, targetExponent_eq]
  rfl

theorem target_shiftLeft {n : Nat} (hn : n ≠ 0) (k : Int) (d : Nat) :
    target (n <<< d) (k - d) = target n k := by
  have hlog : (n <<< d).log2 = n.log2 + d := by
    rw [Nat.shiftLeft_eq, Nat.log2_eq_iff (Nat.mul_ne_zero hn (Nat.two_pow_pos d).ne'), Nat.pow_add,
      show n.log2 + d + 1 = n.log2 + 1 + d by omega, Nat.pow_add 2 (n.log2 + 1)]
    exact ⟨Nat.mul_le_mul_right _ (Nat.log2_self_le hn),
      Nat.mul_lt_mul_of_pos_right Nat.lt_log2_self (Nat.two_pow_pos d)⟩
  rw [target, target, hlog]
  push_cast
  omega

abbrev Magnitude.unpacked (x : Magnitude) (sign : Sign) (hpos : 0 < x.significand) :
    UnpackedFloat :=
  .finite sign x.significand x.exponent hpos

section Significand

variable {n : Nat} {k : Int}

theorem rounded_le_two_hiddenBit (hk : k ≤ target n k) :
    rounded n (target n k - k).toNat ≤ 2 * hiddenBit := by
  rw [target] at hk ⊢
  apply rounded_le
  have hpow : 2 ^ (n.log2 + 1) ≤ 2 ^ (53 + (max ((n.log2 : Int) + k - 52) (-1074) - k).toNat) :=
    Nat.pow_le_pow_right (by decide) (by omega)
  rw [Nat.pow_add 2 53] at hpow
  exact (Nat.lt_log2_self.trans_le hpow).le

theorem hiddenBit_le_rounded (hn : n ≠ 0) (hk : k ≤ target n k) (hmin : -1074 < target n k) :
    hiddenBit ≤ rounded n (target n k - k).toNat := by
  apply le_rounded
  have hlog : n.log2 = 52 + (target n k - k).toNat := by
    rw [target] at hk hmin ⊢
    omega
  calc hiddenBit * 2 ^ (target n k - k).toNat = 2 ^ n.log2 := by rw [hlog, Nat.pow_add]; rfl
    _ ≤ n := Nat.log2_self_le hn

-- A significand that was rounded to 2^53 is shifted once more.
theorem shiftAgain_eq {r : Nat} {t : Int} (hr : r ≤ 2 * hiddenBit) (ht : -1074 ≤ t) :
    shiftToTargetExponent .binary64 r t .exact =
      if r < 2 * hiddenBit then (shifted r 0, t) else (shifted r 1, t + 1) := by
  rw [shiftToTarget_eq]
  split
  · rename_i hlt
    have hlog : r.log2 < 53 := by
      by_cases hzero : r = 0
      · simp [hzero]
      · exact (Nat.log2_lt hzero).mpr hlt
    have hshift : (target r t - t).toNat = 0 := by
      rw [target]
      omega
    rw [hshift, Int.ofNat_zero, Int.add_zero]
  · obtain rfl : r = 2 * hiddenBit := by omega
    have hlog : (2 * hiddenBit).log2 = 53 := by decide +kernel
    have hshift : (target (2 * hiddenBit) t - t).toNat = 1 := by
      rw [target]
      omega
    rw [hshift]
    rfl

-- The magnitude that n · 2^k becomes, where it is given in units that are not too large.
theorem roundWithAccuracy_cases (sign : Sign) (hn : n ≠ 0) (hk : k ≤ target n k) :
    (roundWithAccuracy .binary64 sign n k .exact = .zero sign ∧
        rounded n (target n k - k).toNat = 0) ∨
      ∃ (y : Magnitude) (h : 0 < y.significand),
        roundWithAccuracy .binary64 sign n k .exact = y.unpacked sign h ∧ y.Normal ∧
          (y = ⟨rounded n (target n k - k).toNat, target n k⟩ ∨
            rounded n (target n k - k).toNat = 2 * hiddenBit ∧
              y = ⟨hiddenBit, target n k + 1⟩) := by
  have hfirst : shiftToTargetExponent .binary64 n k .exact =
      (shifted n (target n k - k).toNat, target n k) := by
    rw [shiftToTarget_eq]
    congr 1
    omega
  have hupper := rounded_le_two_hiddenBit hk
  have hlower := hiddenBit_le_rounded hn hk
  have hleast : -1074 ≤ target n k := le_max_right _ _
  rw [roundWithAccuracy, hfirst]
  simp only
  simp only [rounded] at hupper hlower ⊢
  generalize target n k = t at hupper hlower hleast ⊢
  generalize (shifted n (t - k).toNat).roundedMantissa = r at hupper hlower ⊢
  rw [shiftAgain_eq hupper hleast]
  by_cases hlt : r < 2 * hiddenBit
  · simp only [hlt, if_true, mantissa_shifted, Nat.pow_zero, Nat.div_one]
    by_cases hzero : r = 0
    · exact .inl ⟨dif_pos hzero, hzero⟩
    · refine .inr ⟨⟨r, t⟩, Nat.pos_of_ne_zero hzero, dif_neg hzero, ⟨hlt, hleast, ?_⟩, .inl rfl⟩
      rcases hleast.eq_or_lt with hmin | hmin
      · exact .inl hmin.symm
      · exact .inr (hlower hmin)
  · obtain rfl : r = 2 * hiddenBit := by omega
    simp only [hlt, if_false, mantissa_shifted]
    have hnormal : (Magnitude.mk hiddenBit (t + 1)).Normal :=
      ⟨by simp only [hiddenBit]; omega, by simp only; omega, .inr (le_refl _)⟩
    exact .inr ⟨⟨hiddenBit, t + 1⟩, Nat.two_pow_pos 52, rfl, hnormal, .inr ⟨trivial, rfl⟩⟩

end Significand

namespace Magnitude

-- The order of normal magnitudes.
def Le (x y : Magnitude) : Prop :=
  x.exponent < y.exponent ∨ x.exponent = y.exponent ∧ x.significand ≤ y.significand

theorem Le.refl (x : Magnitude) : x.Le x := .inr ⟨rfl, le_refl _⟩

theorem Le.exponent_le {x y : Magnitude} (h : x.Le y) : x.exponent ≤ y.exponent := by
  rcases h with hlt | ⟨heq, -⟩
  · exact hlt.le
  · exact heq.le

-- Whether a magnitude is at most, or at least, n · 2^k, given in units that are not larger.
def AtMost (x : Magnitude) (n : Nat) (k : Int) : Prop :=
  ∃ a : Nat, k + a = x.exponent ∧ x.significand * 2 ^ a ≤ n

def AtLeast (x : Magnitude) (n : Nat) (k : Int) : Prop :=
  ∃ a : Nat, k + a = x.exponent ∧ n ≤ x.significand * 2 ^ a

variable {x : Magnitude} {n : Nat} {k : Int}

theorem AtMost.shiftLeft (h : x.AtMost n k) (d : Nat) : x.AtMost (n <<< d) (k - d) := by
  obtain ⟨a, ha, hle⟩ := h
  refine ⟨a + d, by push_cast; omega, ?_⟩
  rw [Nat.pow_add, ← Nat.mul_assoc, Nat.shiftLeft_eq]
  exact Nat.mul_le_mul_right _ hle

theorem AtLeast.shiftLeft (h : x.AtLeast n k) (d : Nat) : x.AtLeast (n <<< d) (k - d) := by
  obtain ⟨a, ha, hle⟩ := h
  refine ⟨a + d, by push_cast; omega, ?_⟩
  rw [Nat.pow_add, ← Nat.mul_assoc, Nat.shiftLeft_eq]
  exact Nat.mul_le_mul_right _ hle

theorem AtMost.exponent_le (hx : x.Normal) (hn : n ≠ 0) (h : x.AtMost n k) :
    x.exponent ≤ target n k := by
  obtain ⟨a, ha, hle⟩ := h
  rw [target]
  rcases hx.hidden with hmin | hhidden
  · omega
  · have hpow : 2 ^ (52 + a) ≤ n := by
      rw [Nat.pow_add]
      exact (Nat.mul_le_mul_right _ hhidden).trans hle
    have hlog := (Nat.le_log2 hn).mpr hpow
    omega

theorem AtLeast.le_exponent (hx : x.Normal) (hn : n ≠ 0) (h : x.AtLeast n k) :
    target n k ≤ x.exponent := by
  obtain ⟨a, ha, hle⟩ := h
  have hpow : n < 2 ^ (53 + a) := by
    rw [Nat.pow_add]
    exact hle.trans_lt (Nat.mul_lt_mul_of_pos_right hx.significand_lt (Nat.two_pow_pos a))
  have hlog := (Nat.log2_lt hn).mpr hpow
  have hmin := hx.le_exponent
  rw [target]
  omega

-- A magnitude that n · 2^k can be rounded to without crossing another.
structure Follows (y : Magnitude) (n : Nat) (k : Int) : Prop where
  normal : y.Normal
  le_of_atMost : ∀ x : Magnitude, x.Normal → x.AtMost n k → x.Le y
  le_of_atLeast : ∀ x : Magnitude, x.Normal → x.AtLeast n k → y.Le x

end Magnitude

-- A result of rounding: a zero, if no magnitude but zero is at most the number, or a magnitude.
inductive RoundsTo (sign : Sign) (n : Nat) (k : Int) : UnpackedFloat → Prop
  | zero (h : ∀ x : Magnitude, x.Normal → x.AtMost n k → x.significand = 0) :
      RoundsTo sign n k (.zero sign)
  | finite (y : Magnitude) (hpos : 0 < y.significand) (h : y.Follows n k) :
      RoundsTo sign n k (y.unpacked sign hpos)

theorem roundsTo_roundWithAccuracy (sign : Sign) {n : Nat} (hn : n ≠ 0) {k : Int}
    (hk : k ≤ target n k) :
    RoundsTo sign n k (roundWithAccuracy .binary64 sign n k .exact) := by
  have hlower := hiddenBit_le_rounded hn hk
  rcases roundWithAccuracy_cases sign hn hk with ⟨hround, hzero⟩ | ⟨y, hpos, hround, hnormal, hy⟩
  · rw [hround]
    refine .zero ?_
    intro x hx h
    have hexponent := h.exponent_le hx hn
    obtain ⟨a, ha, hle⟩ := h
    have hmin := hx.le_exponent
    -- otherwise the rounded significand would have its hidden bit
    have hshift : (target n k - k).toNat = a := by
      by_contra hne
      have hhidden := hlower (by omega)
      rw [hzero] at hhidden
      exact absurd hhidden (by decide)
    have hrounded := le_rounded hle
    rw [hshift] at hzero
    omega
  · rw [hround]
    refine .finite y hpos ⟨hnormal, ?_, ?_⟩
    · intro x hx h
      have hexponent := h.exponent_le hx hn
      obtain ⟨a, ha, hle⟩ := h
      rcases hy with rfl | ⟨-, rfl⟩
      · rcases hexponent.lt_or_eq with hlt | heq
        · exact .inl hlt
        · have hshift : (target n k - k).toNat = a := by omega
          exact .inr ⟨heq, hshift ▸ le_rounded hle⟩
      · exact .inl (Int.lt_add_one_of_le hexponent)
    · intro x hx h
      have hexponent := h.le_exponent hx hn
      obtain ⟨a, ha, hle⟩ := h
      rcases hexponent.lt_or_eq with hlt | heq
      · rcases hy with rfl | ⟨-, rfl⟩
        · exact .inl hlt
        · rcases (Int.add_one_le_of_lt hlt).lt_or_eq with hlt' | heq
          · exact .inl hlt'
          · have hleast : -1074 ≤ target n k := le_max_right _ _
            exact .inr ⟨heq, hx.hidden.resolve_left (by omega)⟩
      · have hshift : (target n k - k).toNat = a := by omega
        have hrounded := rounded_le hle
        rw [hshift] at hy
        rcases hy with rfl | ⟨hlarge, -⟩
        · exact .inr ⟨heq, hrounded⟩
        · have hsmall := hx.significand_lt
          omega

theorem roundsTo_round (sign : Sign) {n : Nat} (hn : n ≠ 0) (k : Int) :
    RoundsTo sign n k (UnpackedFloat.round .binary64 sign n k) := by
  have hround : UnpackedFloat.round .binary64 sign n k =
      roundWithAccuracy .binary64 sign (n <<< (k - target n k).toNat)
        (k - (k - target n k).toNat) .exact := by
    rw [UnpackedFloat.round, targetExponent_eq]
    rfl
  have hscaled : n <<< (k - target n k).toNat ≠ 0 := by
    rw [Nat.shiftLeft_eq]
    exact Nat.mul_ne_zero hn (Nat.two_pow_pos _).ne'
  have hresult := roundsTo_roundWithAccuracy sign (k := k - (k - target n k).toNat) hscaled
    (by rw [target_shiftLeft hn]; omega)
  rw [hround]
  generalize roundWithAccuracy .binary64 sign _ _ .exact = result at hresult ⊢
  cases hresult with
  | zero h => exact .zero fun x hx hle => h x hx (hle.shiftLeft _)
  | finite y hpos h =>
      exact .finite y hpos ⟨h.normal, fun x hx hle => h.le_of_atMost x hx (hle.shiftLeft _),
        fun x hx hle => h.le_of_atLeast x hx (hle.shiftLeft _)⟩

end Candlestick.Decimal
