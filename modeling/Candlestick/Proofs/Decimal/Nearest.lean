import Candlestick.Decimal.Nearest
import Candlestick.Proofs.Decimal.Digits
import Candlestick.Proofs.Decimal.Double

namespace Candlestick.Decimal

namespace Magnitude

-- The distance from a magnitude to the end of its numbers below, in quarters of a unit.
def below (x : Magnitude) : Nat := if x.significand = hiddenBit ∧ -1074 < x.exponent then 1 else 2

-- A number at either end is at a tie, and goes to an even significand.
structure Rounds (x : Magnitude) (v : ℚ) : Prop where
  lower : (x.significand - x.below / 4 : ℚ) * 2 ^ x.exponent ≤ v
  upper : v ≤ (x.significand + 1 / 2 : ℚ) * 2 ^ x.exponent
  inner : x.significand % 2 = 1 → (x.significand - x.below / 4 : ℚ) * 2 ^ x.exponent < v ∧
    v < (x.significand + 1 / 2 : ℚ) * 2 ^ x.exponent

theorem below_le_two (x : Magnitude) : x.below ≤ 2 := by
  rw [below]
  split <;> omega

theorem cast_below_le_two (x : Magnitude) : (x.below : ℚ) ≤ 2 := by exact_mod_cast x.below_le_two

theorem below_eq_one {x : Magnitude} (h : x.significand = hiddenBit ∧ -1074 < x.exponent) :
    (x.below : ℚ) = 1 := by
  rw [below, if_pos h, Nat.cast_one]

theorem rounds_self (x : Magnitude) : x.Rounds (x.significand * 2 ^ x.exponent) := by
  have hunit : (0 : ℚ) < 2 ^ x.exponent := by positivity
  have hbelow : (0 : ℚ) < x.below := by
    rw [below]
    split <;> norm_num
  exact ⟨by nlinarith, by nlinarith, fun _ => ⟨by nlinarith, by nlinarith⟩⟩

end Magnitude

theorem roundHalfEven_eq {num den m : Nat} (hlower : 2 * (m * den) ≤ 2 * num + den)
    (hupper : 2 * num ≤ 2 * (m * den) + den)
    (hinner : m % 2 = 1 → 2 * (m * den) < 2 * num + den ∧ 2 * num < 2 * (m * den) + den)
    (hden : 0 < den) : roundHalfEven num den = m := by
  have hdivide : den * (num / den) + num % den = num := Nat.div_add_mod num den
  have hrest : num % den < den := Nat.mod_lt num hden
  rw [roundHalfEven]
  generalize num / den = whole at hdivide ⊢
  generalize num % den = rest at hdivide hrest ⊢
  subst hdivide
  -- the quotient is not more than one away from what it is rounded to
  have hle : whole ≤ m := by
    by_contra h
    have := Nat.mul_le_mul_left den (Nat.lt_of_not_le h)
    rw [Nat.mul_succ, Nat.mul_comm den m] at this
    omega
  have hge : m ≤ whole + 1 := by
    by_contra h
    have := Nat.mul_le_mul_left den (Nat.lt_of_not_le h)
    rw [Nat.mul_succ, Nat.mul_succ, Nat.mul_comm den m] at this
    omega
  obtain rfl | rfl : m = whole ∨ m = whole + 1 := by omega
  · rw [Nat.mul_comm m den] at hupper hinner
    split
    · rfl
    · split <;> omega
  · rw [Nat.add_mul, Nat.mul_comm whole den] at hlower hinner
    split
    · omega
    · split <;> omega

theorem scaleByTwo_spec (num : Nat) {den : Nat} (hden : den ≠ 0) (q : ℤ) :
    (scaleByTwo num den q).2 ≠ 0 ∧
      ((scaleByTwo num den q).1 : ℚ) / (scaleByTwo num den q).2 = num / den * 2 ^ q := by
  rw [scaleByTwo]
  split
  · rename_i h
    obtain ⟨n, rfl⟩ := Int.eq_ofNat_of_zero_le h
    refine ⟨hden, ?_⟩
    simp only [Int.toNat_natCast, zpow_natCast, Nat.pow_eq]
    push_cast
    ring
  · rename_i h
    obtain ⟨n, rfl⟩ : ∃ n : Nat, q = -(n : ℤ) := ⟨(-q).toNat, by omega⟩
    simp only [Int.neg_neg, Int.toNat_natCast, Nat.pow_eq, zpow_neg, zpow_natCast]
    refine ⟨Nat.mul_ne_zero hden (by positivity), ?_⟩
    push_cast
    field_simp

theorem two_zpow_log2_le {n : Nat} (h : n ≠ 0) : (2 : ℚ) ^ (n.log2 : ℤ) ≤ n := by
  rw [zpow_natCast]
  exact_mod_cast Nat.log2_self_le h

theorem lt_two_zpow_log2 (n : Nat) : (n : ℚ) < 2 ^ ((n.log2 : ℤ) + 1) := by
  have h : (n : ℚ) < 2 ^ (n.log2 + 1) := by exact_mod_cast Nat.lt_log2_self
  exact_mod_cast h

-- A number is below 2^53 units of its binade, and not below 2^52 of them unless they are the least.
structure IsBinade (v : ℚ) (q : ℤ) : Prop where
  le : -1074 ≤ q
  upper : v < 2 * hiddenBit * 2 ^ q
  lower : q = -1074 ∨ (hiddenBit : ℚ) * 2 ^ q ≤ v

private theorem hiddenBit_eq : (hiddenBit : ℚ) = 2 ^ (52 : ℤ) := by
  norm_num [hiddenBit]

private theorem hiddenBit_mul (q : ℤ) : (hiddenBit : ℚ) * 2 ^ q = 2 ^ (q + 52) := by
  rw [hiddenBit_eq, ← zpow_add₀ (by norm_num), add_comm]

-- The lengths of a numerator and a denominator in bits tell their quotient up to a factor of two.
theorem ratio_bounds {num den : Nat} (hnum : num ≠ 0) (hden : den ≠ 0) :
    (2 : ℚ) ^ ((num.log2 : ℤ) - den.log2 - 1) ≤ num / den ∧
      (num / den : ℚ) < 2 ^ ((num.log2 : ℤ) - den.log2 + 1) := by
  have hpos : (0 : ℚ) < den := by positivity
  rw [le_div_iff₀ hpos, div_lt_iff₀ hpos]
  constructor
  · calc (2 : ℚ) ^ ((num.log2 : ℤ) - den.log2 - 1) * den
        ≤ 2 ^ ((num.log2 : ℤ) - den.log2 - 1) * 2 ^ ((den.log2 : ℤ) + 1) := by
          gcongr
          exact (lt_two_zpow_log2 den).le
      _ = 2 ^ (num.log2 : ℤ) := by
          rw [← zpow_add₀ (by norm_num)]
          congr 1
          ring
      _ ≤ num := two_zpow_log2_le hnum
  · calc (num : ℚ) < 2 ^ ((num.log2 : ℤ) + 1) := lt_two_zpow_log2 num
      _ = 2 ^ ((num.log2 : ℤ) - den.log2 + 1) * 2 ^ (den.log2 : ℤ) := by
          rw [← zpow_add₀ (by norm_num)]
          congr 1
          ring
      _ ≤ 2 ^ ((num.log2 : ℤ) - den.log2 + 1) * den := by
          gcongr
          exact two_zpow_log2_le hden

theorem isBinade_max {v : ℚ} {q : ℤ} (hlower : (2 : ℚ) ^ (q + 52) ≤ v)
    (hupper : v < 2 ^ (q + 53)) : IsBinade v (max q (-1074)) := by
  have htwice (p : ℤ) : 2 * (hiddenBit : ℚ) * 2 ^ p = 2 ^ (p + 53) := by
    rw [mul_assoc, hiddenBit_mul, ← zpow_one_add₀ (by norm_num)]
    congr 1
    ring
  refine ⟨le_max_right _ _, ?_, ?_⟩
  · rw [htwice]
    refine hupper.trans_le (zpow_le_zpow_right₀ (by norm_num) ?_)
    omega
  · rcases le_total q (-1074) with h | h
    · exact .inl (max_eq_right h)
    · rw [max_eq_left h, hiddenBit_mul]
      exact .inr hlower

theorem isBinade_binade {num den : Nat} (hnum : num ≠ 0) (hden : den ≠ 0) :
    IsBinade (num / den) (binade num den) := by
  obtain ⟨hlower, hupper⟩ := ratio_bounds hnum hden
  rw [binade]
  obtain ⟨hd, hscaled⟩ :=
    scaleByTwo_spec num hden (-((num.log2 : ℤ) - den.log2 - 52))
  generalize hguess : (num.log2 : ℤ) - den.log2 - 52 = guess at hscaled ⊢
  rw [show (num.log2 : ℤ) - den.log2 - 1 = guess + 51 by omega] at hlower
  rw [show (num.log2 : ℤ) - den.log2 + 1 = guess + 53 by omega] at hupper
  -- the guess is right, or one too large
  have hsmaller : (scaleByTwo num den (-guess)).1 <
      hiddenBit * (scaleByTwo num den (-guess)).2 ↔ (num / den : ℚ) < 2 ^ (guess + 52) := by
    have hpos : (0 : ℚ) < (scaleByTwo num den (-guess)).2 := by
      rw [hguess] at hd
      positivity
    rw [← hiddenBit_mul, ← div_lt_iff₀ (by positivity), div_eq_mul_inv, ← zpow_neg, ← hscaled,
      div_lt_iff₀ hpos]
    exact_mod_cast Iff.rfl
  simp only [hsmaller]
  split
  · rename_i h
    exact isBinade_max (by rwa [show guess - 1 + 52 = guess + 51 by ring])
      (by rwa [show guess - 1 + 53 = guess + 52 by ring])
  · rename_i h
    exact isBinade_max (not_lt.mp h) hupper

namespace Magnitude

variable {x : Magnitude} {v : ℚ} {q : ℤ}

private theorem mul_two_zpow_le {p : ℤ} (c : ℚ) (hc : 0 ≤ c) (n : ℤ) (h : p + n ≤ q) :
    c * 2 ^ n * 2 ^ p ≤ c * 2 ^ q := by
  rw [mul_assoc, ← zpow_add₀ (by norm_num), add_comm]
  exact mul_le_mul_of_nonneg_left (zpow_le_zpow_right₀ (by norm_num) h) hc

theorem Rounds.le_exponent (hx : x.Normal) (h : x.Rounds v) (hq : IsBinade v q) :
    q ≤ x.exponent := by
  by_contra habove
  have hunit : (0 : ℚ) < 2 ^ x.exponent := by positivity
  have hsignificand : (x.significand : ℚ) + 1 ≤ 2 * hiddenBit := by
    exact_mod_cast hx.significand_lt
  have hlower := hq.lower.resolve_left (by have := hx.le_exponent; omega)
  have hstep := mul_two_zpow_le hiddenBit (by positivity) 1 (show x.exponent + 1 ≤ q by omega)
  have hupper := h.upper
  nlinarith

-- A number is in the binade of the magnitude that it rounds to, or in the one below where it is
-- rounded up to a power of two.
theorem Rounds.exponent_eq (hx : x.Normal) (h : x.Rounds v) (hq : IsBinade v q) :
    q = x.exponent ∨
      q = x.exponent - 1 ∧ x.significand = hiddenBit ∧ -1074 < x.exponent := by
  have hunit : (0 : ℚ) < 2 ^ x.exponent := by positivity
  rcases (h.le_exponent hx hq).eq_or_lt with heq | hlt
  · exact .inl heq
  · right
    have hexponent : -1074 < x.exponent := by have := hq.le; omega
    have hhidden := hx.hidden.resolve_left hexponent.ne'
    have hstep := mul_two_zpow_le (2 * hiddenBit : ℚ) (by positivity) 1
      (show q + 1 ≤ x.exponent by omega)
    have hv := hq.upper
    have hlower := h.lower
    have hpower : x.significand = hiddenBit := by
      by_contra hne
      have habove : (hiddenBit : ℚ) + 1 ≤ x.significand := by
        exact_mod_cast Nat.lt_of_le_of_ne hhidden (Ne.symm hne)
      have hbelow := x.cast_below_le_two
      nlinarith
    refine ⟨?_, hpower, hexponent⟩
    by_contra hne
    have hfar := mul_two_zpow_le (2 * hiddenBit : ℚ) (by positivity) 2
      (show q + 2 ≤ x.exponent by omega)
    have hbelow := below_eq_one ⟨hpower, hexponent⟩
    have hlarge : (1 : ℚ) ≤ hiddenBit := by norm_num [hiddenBit]
    rw [hpower, hbelow] at hlower
    nlinarith

end Magnitude

-- The same bounds for a quotient, without division.
private theorem roundHalfEven_eq_of_bounds {n d m : Nat} (hd : d ≠ 0)
    (hlower : (m - 1 / 2 : ℚ) ≤ n / d) (hupper : (n / d : ℚ) ≤ m + 1 / 2)
    (hinner : m % 2 = 1 → (m - 1 / 2 : ℚ) < n / d ∧ (n / d : ℚ) < m + 1 / 2) :
    roundHalfEven n d = m := by
  have hpos : (0 : ℚ) < d := by positivity
  rw [le_div_iff₀ hpos] at hlower
  rw [div_le_iff₀ hpos] at hupper
  rw [lt_div_iff₀ hpos, div_lt_iff₀ hpos] at hinner
  refine roundHalfEven_eq ?_ ?_ ?_ (Nat.pos_of_ne_zero hd)
  · have h : (2 * (m * d) : ℚ) ≤ 2 * n + d := by linarith
    exact_mod_cast h
  · have h : (2 * n : ℚ) ≤ 2 * (m * d) + d := by linarith
    exact_mod_cast h
  · intro hodd
    obtain ⟨hl, hu⟩ := hinner hodd
    have hl' : (2 * (m * d) : ℚ) < 2 * n + d := by linarith
    have hu' : (2 * n : ℚ) < 2 * (m * d) + d := by linarith
    exact ⟨by exact_mod_cast hl', by exact_mod_cast hu'⟩

namespace Magnitude

variable {x : Magnitude} {v : ℚ} {n d : Nat}

-- In its own units a magnitude is its significand.
theorem Rounds.roundHalfEven_eq (h : x.Rounds v) (hd : d ≠ 0)
    (hscaled : (n / d : ℚ) = v / 2 ^ x.exponent) : roundHalfEven n d = x.significand := by
  have hunit : (0 : ℚ) < 2 ^ x.exponent := by positivity
  have hbelow := x.cast_below_le_two
  apply roundHalfEven_eq_of_bounds hd <;> rw [hscaled]
  · rw [le_div_iff₀ hunit]
    have := h.lower
    nlinarith
  · rw [div_le_iff₀ hunit]
    exact h.upper
  · intro hodd
    rw [lt_div_iff₀ hunit, div_lt_iff₀ hunit]
    obtain ⟨hl, hu⟩ := h.inner hodd
    exact ⟨by nlinarith, hu⟩

-- In the units of the binade below, a power of two is twice as large.
theorem Rounds.roundHalfEven_eq_of_power (h : x.Rounds v)
    (hpower : x.significand = hiddenBit ∧ -1074 < x.exponent)
    (hv : v < 2 * hiddenBit * 2 ^ (x.exponent - 1)) (hd : d ≠ 0)
    (hscaled : (n / d : ℚ) = v / 2 ^ (x.exponent - 1)) : roundHalfEven n d = 2 * hiddenBit := by
  have hunit : (0 : ℚ) < 2 ^ (x.exponent - 1) := by positivity
  have hhalf : (2 : ℚ) ^ x.exponent = 2 * 2 ^ (x.exponent - 1) := by
    rw [← zpow_one_add₀ (by norm_num)]
    congr 1
    ring
  apply roundHalfEven_eq_of_bounds hd <;> rw [hscaled]
  · rw [le_div_iff₀ hunit]
    have hlower := h.lower
    rw [hpower.1, below_eq_one hpower, hhalf] at hlower
    push_cast
    linarith
  · rw [div_le_iff₀ hunit]
    push_cast
    linarith
  · intro hodd
    omega

-- The word of a power of two, as one of the binade below.
theorem word_eq_of_power {x : Magnitude}
    (hpower : x.significand = hiddenBit ∧ -1074 < x.exponent) :
    (Magnitude.mk (2 * hiddenBit) (x.exponent - 1)).word = x.word := by
  obtain ⟨e, he⟩ : ∃ e : Nat, x.exponent - 1 + 1074 = e :=
    ⟨(x.exponent - 1 + 1074).toNat, by omega⟩
  have he' : x.exponent + 1074 = (e + 1 : Nat) := by push_cast; omega
  rw [word, word, hpower.1]
  simp only [he, he', Int.toNat_natCast]
  ring

end Magnitude

-- However a number is written as a quotient, the word found for it is that of the magnitude it
-- rounds to.
theorem nearestWord_eq {x : Magnitude} (hx : x.Normal) {num den : Nat} (hnum : num ≠ 0)
    (hden : den ≠ 0) (h : x.Rounds (num / den)) : nearestWord num den = x.word := by
  have hbinade := isBinade_binade hnum hden
  rw [nearestWord]
  obtain ⟨hd, hscaled⟩ := scaleByTwo_spec num hden (-binade num den)
  rw [zpow_neg, ← div_eq_mul_inv] at hscaled
  rcases h.exponent_eq hx hbinade with hq | ⟨hq, hpower⟩
  · rw [hq] at hd hscaled ⊢
    simp only [h.roundHalfEven_eq hd hscaled]
  · have hv := hbinade.upper
    rw [hq] at hd hscaled hv ⊢
    simp only [h.roundHalfEven_eq_of_power hpower hv hd hscaled]
    exact Magnitude.word_eq_of_power hpower

-- The size of a number bounds its first digit.
private theorem bounds_of_digits {m : Nat} (hm : m ≠ 0) (e : ℤ) :
    (10 : ℚ) ^ ((digits m).length + e - 1 : ℤ) ≤ m * 10 ^ e ∧
      (m * 10 ^ e : ℚ) < 10 ^ ((digits m).length + e : ℤ) := by
  obtain ⟨n, hn⟩ : ∃ n, (digits m).length = n + 1 :=
    Nat.exists_eq_succ_of_ne_zero (List.length_eq_zero_iff.not.mpr (digits_ne_nil m))
  have hlower := pow_length_digits_le hm
  have hupper := lt_pow_length_digits m
  rw [hn, Nat.add_sub_cancel] at hlower
  have hlower' : (10 : ℚ) ^ (n : ℤ) ≤ m := by
    rw [zpow_natCast]
    exact_mod_cast hlower
  have hupper' : (m : ℚ) < 10 ^ ((digits m).length : ℤ) := by
    rw [zpow_natCast]
    exact_mod_cast hupper
  rw [zpow_add₀ (by norm_num) _ e]
  rw [show ((digits m).length + e - 1 : ℤ) = n + e by rw [hn]; push_cast; ring,
    zpow_add₀ (by norm_num)]
  exact ⟨by gcongr, by gcongr⟩

namespace Magnitude

variable {x : Magnitude} {v : ℚ}

theorem Normal.exponent_le (hx : x.Normal) (hword : x.word < infinityWord) : x.exponent ≤ 971 := by
  by_contra h
  obtain ⟨n, hn⟩ : ∃ n : Nat, x.exponent + 1074 = n + 2046 :=
    ⟨(x.exponent - 972).toNat, by omega⟩
  have hhidden := hx.hidden.resolve_left (by omega)
  have he : (x.exponent + 1074).toNat = n + 2046 := by omega
  rw [word, he] at hword
  simp only [infinityWord, hiddenBit] at hword hhidden
  omega

private theorem tiny_lt : (10 : ℚ) ^ (-330 : ℤ) ≤ 1 / 2 * 2 ^ (-1074 : ℤ) := by
  have h : (2 : ℕ) ^ 1075 ≤ 10 ^ 330 := by decide +kernel
  have hcast : (2 : ℚ) ^ 1075 ≤ 10 ^ 330 := by exact_mod_cast h
  have hsplit : (2 : ℚ) ^ 1075 = 2 ^ 1074 * 2 := pow_succ 2 1074
  rw [zpow_neg, zpow_neg, zpow_ofNat, zpow_ofNat, one_div, ← mul_inv, mul_comm, ← hsplit]
  exact inv_anti₀ (by positivity) hcast

private theorem huge_lt : (2 * hiddenBit : ℚ) * 2 ^ (971 : ℤ) < 10 ^ (309 : ℤ) := by
  have h : 2 * hiddenBit * 2 ^ 971 < 10 ^ 309 := by decide +kernel
  rw [zpow_ofNat, zpow_ofNat]
  exact_mod_cast h

-- What rounds to a magnitude other than zero is at least half a unit.
theorem Rounds.half_unit_le (hne : x.significand ≠ 0) (h : x.Rounds v) :
    1 / 2 * 2 ^ x.exponent ≤ v := by
  have hone : (1 : ℚ) ≤ x.significand := by exact_mod_cast Nat.one_le_iff_ne_zero.mpr hne
  have hhalf : (1 / 2 : ℚ) ≤ x.significand - x.below / 4 := by
    have hbelow := x.cast_below_le_two
    linarith
  exact (mul_le_mul_of_nonneg_right hhalf (by positivity)).trans h.lower

theorem Rounds.pos (hne : x.significand ≠ 0) (h : x.Rounds v) : 0 < v :=
  (by positivity : (0 : ℚ) < 1 / 2 * 2 ^ x.exponent).trans_le (h.half_unit_le hne)

-- Numbers that round to a finite magnitude other than zero are neither huge nor tiny.
theorem Rounds.bounds (hx : x.Normal) (hne : x.significand ≠ 0) (hword : x.word < infinityWord)
    (h : x.Rounds v) : (10 : ℚ) ^ (-330 : ℤ) ≤ v ∧ v < 10 ^ (309 : ℤ) := by
  have hsignificand : (x.significand : ℚ) + 1 ≤ 2 * hiddenBit := by
    exact_mod_cast hx.significand_lt
  constructor
  · have hunit : (2 : ℚ) ^ (-1074 : ℤ) ≤ 2 ^ x.exponent :=
      zpow_le_zpow_right₀ (by norm_num) hx.le_exponent
    calc (10 : ℚ) ^ (-330 : ℤ) ≤ 1 / 2 * 2 ^ (-1074 : ℤ) := tiny_lt
      _ ≤ 1 / 2 * 2 ^ x.exponent := mul_le_mul_of_nonneg_left hunit (by norm_num)
      _ ≤ v := h.half_unit_le hne
  · have hunit : (2 : ℚ) ^ x.exponent ≤ 2 ^ (971 : ℤ) :=
      zpow_le_zpow_right₀ (by norm_num) (hx.exponent_le hword)
    have hhalf : (x.significand + 1 / 2 : ℚ) ≤ 2 * hiddenBit := by linarith
    have hpos : (0 : ℚ) ≤ 2 * hiddenBit := by linarith
    calc v ≤ (x.significand + 1 / 2 : ℚ) * 2 ^ x.exponent := h.upper
      _ ≤ (2 * hiddenBit : ℚ) * 2 ^ x.exponent :=
          mul_le_mul_of_nonneg_right hhalf (by positivity)
      _ ≤ (2 * hiddenBit : ℚ) * 2 ^ (971 : ℤ) := mul_le_mul_of_nonneg_left hunit hpos
      _ < 10 ^ (309 : ℤ) := huge_lt

end Magnitude

theorem decimalWord_eq {x : Magnitude} (hx : x.Normal) (hne : x.significand ≠ 0)
    (hword : x.word < infinityWord) {m : Nat} {e : ℤ} (h : x.Rounds (m * 10 ^ e)) :
    decimalWord m e = x.word := by
  obtain ⟨htiny, hhuge⟩ := h.bounds hx hne hword
  have hm : m ≠ 0 := by
    rintro rfl
    have hpos : (0 : ℚ) < 10 ^ (-330 : ℤ) := by positivity
    simp only [Nat.cast_zero, zero_mul] at htiny
    linarith
  obtain ⟨hlower, hupper⟩ := bounds_of_digits hm e
  have hsize : ((digits m).length + e - 1 : ℤ) < 309 :=
    (zpow_lt_zpow_iff_right₀ (by norm_num : (1 : ℚ) < 10)).mp (hlower.trans_lt hhuge)
  have hsize' : (-330 : ℤ) < (digits m).length + e :=
    (zpow_lt_zpow_iff_right₀ (by norm_num : (1 : ℚ) < 10)).mp (htiny.trans_lt hupper)
  have hnearest : (if 0 ≤ e then nearestWord (m * Nat.pow 10 e.toNat) 1
      else nearestWord m (Nat.pow 10 (-e).toNat)) = x.word := by
    split
    · rename_i he
      obtain ⟨n, rfl⟩ := Int.eq_ofNat_of_zero_le he
      apply nearestWord_eq hx (Nat.mul_ne_zero hm (Nat.pow_pos (by decide)).ne') one_ne_zero
      simpa using h
    · rename_i he
      obtain ⟨n, rfl⟩ : ∃ n : Nat, e = -(n : ℤ) := ⟨(-e).toNat, by omega⟩
      apply nearestWord_eq hx hm (Nat.pow_pos (by decide)).ne'
      simpa [zpow_neg, ← div_eq_mul_inv] using h
  rw [decimalWord]
  simp only [hm, if_false]
  rw [if_neg (by omega), if_neg (by omega), hnearest, Nat.min_eq_right hword.le]

end Candlestick.Decimal
