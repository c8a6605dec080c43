import Candlestick.Decimal.Style
import Candlestick.Proofs.Decimal.Nearest

namespace Candlestick.Decimal

-- The number that a decimal stands for.
def Scaled.value (s : Scaled) : ℚ := ofDigits s.digits * 10 ^ s.exponent

-- At least one digit, and no zero in front.
def Scaled.Led (s : Scaled) : Prop := s.digits ≠ [] ∧ s.digits.head? ≠ some Digit.zero

namespace Scaled

theorem led_digits {d : Nat} (h : d ≠ 0) (k : ℤ) : (Scaled.mk (Decimal.digits d) k).Led :=
  ⟨digits_ne_nil d, head?_digits_ne_zero h⟩

-- How many zeros stand at the end.
private def zeros (s : Scaled) : Nat := (s.digits.reverse.takeWhile (· = Digit.zero)).length

private theorem exists_digits_eq (s : Scaled) :
    ∃ kept, s.digits = kept ++ List.replicate s.zeros Digit.zero := by
  have hzeros : s.digits.reverse.takeWhile (· = Digit.zero) =
      List.replicate s.zeros Digit.zero := by
    apply List.eq_replicate_of_mem
    intro d hd
    simpa using List.mem_takeWhile_imp (p := (· = Digit.zero)) hd
  refine ⟨(s.digits.reverse.dropWhile (· = Digit.zero)).reverse, ?_⟩
  rw [← List.reverse_inj, List.reverse_append, List.reverse_replicate, List.reverse_reverse,
    ← hzeros, List.takeWhile_append_dropWhile]

private theorem digits_eq (s : Scaled) :
    s.digits = s.trim.digits ++ List.replicate s.zeros Digit.zero := by
  obtain ⟨kept, hkept⟩ := s.exists_digits_eq
  have htrim : s.trim.digits = s.digits.take (s.digits.length - s.zeros) := rfl
  have hlength : s.digits.length = kept.length + s.zeros := by
    rw [hkept, List.length_append, List.length_replicate]
  rw [htrim, hlength, Nat.add_sub_cancel, hkept, List.take_left]

theorem value_trim (s : Scaled) : s.trim.value = s.value := by
  have hexponent : s.trim.exponent = s.exponent + s.zeros := rfl
  rw [value, value, hexponent, s.digits_eq, ofDigits_append, ofDigits_replicate_zero,
    List.length_replicate, zpow_add₀ (by norm_num), zpow_natCast]
  push_cast
  ring

theorem Led.trim {s : Scaled} (h : s.Led) : s.trim.Led := by
  have hdigits := s.digits_eq
  have hne : s.trim.digits ≠ [] := by
    intro hnil
    rw [hnil, List.nil_append] at hdigits
    apply h.2
    rw [hdigits]
    cases hzeros : s.zeros with
    | zero => exact absurd (by rw [hdigits, hzeros]; rfl) h.1
    | succ n => rfl
  refine ⟨hne, ?_⟩
  have hhead := h.2
  rwa [hdigits, List.head?_append, Option.or_of_isSome (List.isSome_head?.mpr hne)] at hhead

end Scaled

private theorem zpow_eq_div (b : ℚ) (hb : b ≠ 0) (k : ℤ) :
    b ^ k = b ^ k.toNat / b ^ (-k).toNat := by
  rw [← zpow_natCast, ← zpow_natCast, ← zpow_sub₀ hb]
  congr 1
  omega

variable {x : Magnitude} {tie : Tie}

theorem value_quarter (x : Magnitude) :
    ((Rounding.of x).num : ℚ) / (Rounding.of x).den = 2 ^ x.exponent / 4 := by
  rw [zpow_eq_div 2 (by norm_num)]
  simp only [Rounding.of, Nat.pow_eq]
  push_cast
  field_simp

theorem low_mul_quarter (hne : x.significand ≠ 0) :
    ((Rounding.of x).low : ℚ) * (2 ^ x.exponent / 4) =
      (x.significand - x.below / 4 : ℚ) * 2 ^ x.exponent := by
  have hlow : (Rounding.of x).low = 4 * x.significand - x.below := rfl
  rw [hlow, Nat.cast_sub (by have := x.below_le_two; omega)]
  push_cast
  ring

theorem high_mul_quarter (x : Magnitude) :
    ((Rounding.of x).high : ℚ) * (2 ^ x.exponent / 4) =
      (x.significand + 1 / 2 : ℚ) * 2 ^ x.exponent := by
  have hhigh : (Rounding.of x).high = 4 * x.significand + 2 := rfl
  rw [hhigh]
  push_cast
  ring

section Grid

variable (c d : Nat) (k : ℤ)

-- Quarters of a unit and units of a power of ten are both natural numbers in one smaller unit.
private theorem exists_common_unit (x : Magnitude) (k : ℤ) :
    ∃ unit : ℚ, 0 < unit ∧
      (∀ c : Nat, (c : ℚ) * (2 ^ x.exponent / 4) * unit =
        (c * ((Rounding.of x).num * Nat.pow 10 (-k).toNat) : Nat)) ∧
      ∀ d : Nat, (d * 10 ^ k : ℚ) * unit =
        (d * ((Rounding.of x).den * Nat.pow 10 k.toNat) : Nat) := by
  have hden : (0 : ℚ) < (Rounding.of x).den := by
    simp only [Rounding.of, Nat.pow_eq]
    positivity
  refine ⟨(Rounding.of x).den * 10 ^ (-k).toNat, by positivity, fun c => ?_, fun d => ?_⟩
  · rw [← value_quarter]
    push_cast [Nat.pow_eq]
    field_simp
  · rw [zpow_eq_div 10 (by norm_num)]
    push_cast [Nat.pow_eq]
    field_simp

theorem quarters_le_iff :
    (c : ℚ) * (2 ^ x.exponent / 4) ≤ d * 10 ^ k ↔
      c * ((Rounding.of x).num * Nat.pow 10 (-k).toNat) ≤
        d * ((Rounding.of x).den * Nat.pow 10 k.toNat) := by
  obtain ⟨unit, hpos, hquarters, hgrid⟩ := exists_common_unit x k
  rw [← mul_le_mul_iff_left₀ hpos, hquarters, hgrid, Nat.cast_le]

theorem le_quarters_iff :
    (d * 10 ^ k : ℚ) ≤ c * (2 ^ x.exponent / 4) ↔
      d * ((Rounding.of x).den * Nat.pow 10 k.toNat) ≤
        c * ((Rounding.of x).num * Nat.pow 10 (-k).toNat) := by
  obtain ⟨unit, hpos, hquarters, hgrid⟩ := exists_common_unit x k
  rw [← mul_le_mul_iff_left₀ hpos, hquarters, hgrid, Nat.cast_le]

end Grid

theorem rounds_of_contains (hne : x.significand ≠ 0) {d : Nat} {k : ℤ}
    (h : (Rounding.of x).contains ((Rounding.of x).num * Nat.pow 10 (-k).toNat)
      ((Rounding.of x).den * Nat.pow 10 k.toNat) d = true) : x.Rounds (d * 10 ^ k) := by
  rw [Rounding.contains] at h
  split at h
  · rename_i hclosed
    obtain ⟨hl, hh⟩ := Bool.and_eq_true_iff.mp h
    refine ⟨?_, ?_, fun hodd => ?_⟩
    · rw [← low_mul_quarter hne, quarters_le_iff]
      exact of_decide_eq_true hl
    · rw [← high_mul_quarter, le_quarters_iff]
      exact of_decide_eq_true hh
    · exact absurd hodd (by have := of_decide_eq_true hclosed; omega)
  · obtain ⟨hl, hh⟩ := Bool.and_eq_true_iff.mp h
    have hl' : (x.significand - x.below / 4 : ℚ) * 2 ^ x.exponent < d * 10 ^ k := by
      rw [← low_mul_quarter hne, ← not_le, le_quarters_iff, not_le]
      exact of_decide_eq_true hl
    have hh' : (d * 10 ^ k : ℚ) < (x.significand + 1 / 2 : ℚ) * 2 ^ x.exponent := by
      rw [← high_mul_quarter, ← not_le, quarters_le_iff, not_le]
      exact of_decide_eq_true hh
    exact ⟨hl'.le, hh'.le, fun _ => ⟨hl', hh'⟩⟩

theorem contains_of_onGrid?_eq_some {r : Rounding} {k : ℤ} {d : Nat}
    (h : r.onGrid? tie k = some d) :
    r.contains (r.num * Nat.pow 10 (-k).toNat) (r.den * Nat.pow 10 k.toNat) d = true := by
  rw [Rounding.onGrid?] at h
  split at h
  · exact absurd h (by simp)
  · obtain rfl := Option.some.inj h
    assumption
  · obtain rfl := Option.some.inj h
    assumption
  · split at h
    · obtain rfl := Option.some.inj h
      assumption
    · split at h <;> (obtain rfl := Option.some.inj h; assumption)

private theorem rounds_digits {d : Nat} {k : ℤ} (hne : x.significand ≠ 0)
    (h : x.Rounds (d * 10 ^ k)) :
    x.Rounds (Scaled.mk (digits d) k).value ∧ (Scaled.mk (digits d) k).Led := by
  have hd : d ≠ 0 := by
    rintro rfl
    have hpos := h.pos hne
    simp at hpos
  refine ⟨?_, Scaled.led_digits hd k⟩
  rw [Scaled.value]
  simpa only [ofDigits_digits] using h

-- All digits that a magnitude has.
private theorem value_expansion (x : Magnitude) :
    ((Rounding.of x).centre * (Rounding.of x).num *
        Nat.pow 10 (Rounding.of x).den.log2 / (Rounding.of x).den : Nat) *
      (10 : ℚ) ^ (-((Rounding.of x).den.log2 : ℤ)) = x.significand * 2 ^ x.exponent := by
  obtain ⟨n, hn⟩ : ∃ n, (Rounding.of x).den = 2 ^ n := by
    refine ⟨(-x.exponent).toNat + 2, ?_⟩
    simp only [Rounding.of, Nat.pow_eq]
    ring
  have hcentre : (Rounding.of x).centre = 4 * x.significand := rfl
  have hquarter := value_quarter x
  rw [hn] at hquarter ⊢
  rw [Nat.log2_two_pow, Nat.pow_eq]
  have hdvd : 2 ^ n ∣ (Rounding.of x).centre * (Rounding.of x).num * 10 ^ n :=
    Dvd.dvd.mul_left (pow_dvd_pow_of_dvd (by norm_num) n) _
  rw [Nat.cast_div hdvd (by positivity), zpow_neg, zpow_natCast, hcentre]
  push_cast at hquarter ⊢
  rw [div_eq_div_iff (by positivity) (by norm_num)] at hquarter
  field_simp
  linear_combination (x.significand : ℚ) * hquarter

-- The digits that are found spell a number that rounds to the magnitude.
theorem rounds_shortest (hne : x.significand ≠ 0) (tie : Tie) :
    x.Rounds (shortest tie x).value ∧ (shortest tie x).Led := by
  rw [shortest, Rounding.shortest]
  generalize order _ _ = p
  generalize hhit : (List.range' 1 17).findSome? _ = hit
  cases hit with
  | some s =>
      obtain ⟨n, -, hn⟩ := List.exists_of_findSome?_eq_some hhit
      obtain ⟨d, hd, rfl⟩ := Option.map_eq_some_iff.mp hn
      obtain ⟨hrounds, hled⟩ :=
        rounds_digits hne (rounds_of_contains hne (contains_of_onGrid?_eq_some hd))
      exact ⟨by simpa only [Option.getD_some, Scaled.value_trim] using hrounds, hled.trim⟩
  | none =>
      have hself := x.rounds_self
      rw [← value_expansion x] at hself
      obtain ⟨hrounds, hled⟩ := rounds_digits hne hself
      exact ⟨by simpa only [Option.getD_none, Scaled.value_trim] using hrounds, hled.trim⟩

-- The number that a numeral spells, without its sign.
def Numeral.value (n : Numeral) : ℚ := n.significand * 10 ^ n.scale

namespace Style

variable (style : Style) (negative : Bool) (s : Scaled)

@[simp] theorem negative_plain : (style.plain negative s).negative = negative := by
  rw [plain]
  split
  · rfl
  · split <;> rfl

theorem value_plain : (style.plain negative s).value = s.value := by
  rw [plain]
  split
  · rename_i h
    obtain ⟨n, hn⟩ := Int.eq_ofNat_of_zero_le h
    rw [hn, Numeral.value, Scaled.value, hn]
    simp only [Numeral.significand, Numeral.scale, Option.getD_none, Int.toNat_natCast,
      ofDigits_append, ofDigits_replicate_zero, List.length_replicate, Nat.add_zero, zero_sub,
      zpow_neg, zpow_natCast]
    split
    · simp [ofDigits, Digit.zero]
    · simp [ofDigits]
  · split
    · rename_i hneg h
      have hscale : (0 : ℤ) - (s.digits.drop (s.digits.length + s.exponent : ℤ).toNat).length =
          s.exponent := by
        rw [List.length_drop]
        omega
      rw [Numeral.value, Scaled.value]
      simp only [Numeral.significand, Numeral.scale, Option.getD_none, List.take_append_drop,
        hscale]
    · rename_i hneg h
      have hscale : (0 : ℤ) - (List.replicate (-(s.digits.length + s.exponent : ℤ)).toNat
          Digit.zero ++ s.digits).length = s.exponent := by
        rw [List.length_append, List.length_replicate]
        omega
      have hzero : ofDigits [Digit.zero] = 0 := rfl
      rw [Numeral.value, Scaled.value]
      simp only [Numeral.significand, Numeral.scale, Option.getD_none, hscale, ofDigits_append,
        ofDigits_replicate_zero, hzero, Nat.zero_mul, Nat.zero_add]

theorem value_scientific (hne : s.digits ≠ []) : (scientific negative s).value = s.value := by
  have hpos := List.length_pos_iff.mpr hne
  have hscale : (s.digits.length + s.exponent - 1 : ℤ) - (s.digits.drop 1).length =
      s.exponent := by
    rw [List.length_drop]
    omega
  rw [Numeral.value, Scaled.value, scientific]
  simp only [Numeral.significand, Numeral.scale, Option.getD_some, List.take_append_drop, hscale]

end Style

-- What the readers ask of a numeral: at least one digit in front, and no needless zero there.
theorem Style.isWhole_plain (style : Style) (negative : Bool) {s : Scaled} (h : s.Led) :
    IsWhole (style.plain negative s).whole := by
  obtain ⟨hne, hhead⟩ := h
  rw [plain]
  split
  · refine isWhole_of_head?_ne_zero (by simp [hne]) ?_
    rwa [List.head?_append, Option.or_of_isSome (List.isSome_head?.mpr hne)]
  · split
    · rename_i hsize
      obtain ⟨d, ds, hds⟩ := List.exists_cons_of_ne_nil hne
      obtain ⟨n, hn⟩ : ∃ n, (s.digits.length + s.exponent : ℤ).toNat = n + 1 :=
        ⟨(s.digits.length + s.exponent : ℤ).toNat - 1, by omega⟩
      rw [hn, hds, List.take_succ_cons]
      rw [hds] at hhead
      exact isWhole_of_head?_ne_zero (by simp) hhead
    · exact isWhole_zero

theorem Style.isWhole_scientific (negative : Bool) {s : Scaled} (h : s.Led) :
    IsWhole (scientific negative s).whole := by
  obtain ⟨hne, hhead⟩ := h
  obtain ⟨d, ds, hds⟩ := List.exists_cons_of_ne_nil hne
  rw [hds] at hhead
  rw [scientific, hds]
  exact isWhole_of_head?_ne_zero (by simp) hhead

theorem Style.exponent_plain (style : Style) (negative : Bool) (s : Scaled) :
    (style.plain negative s).exponent = none := by
  rw [plain]
  split
  · rfl
  · split <;> rfl

theorem Style.fraction_plain_ne_nil {style : Style} (hstyle : style.fraction = true)
    (negative : Bool) {s : Scaled} (h : s.digits ≠ []) :
    (style.plain negative s).fraction ≠ [] := by
  have hpos := List.length_pos_iff.mpr h
  rw [plain]
  split
  · exact List.cons_ne_nil _ _
  · split
    · rw [← List.length_pos_iff, List.length_drop]
      omega
    · simp [h]

-- Numbers in settings have a fraction and no exponent.
theorem Style.setting_numeral (negative : Bool) (x : Magnitude) :
    (setting.numeral negative x).fraction ≠ [] ∧ (setting.numeral negative x).exponent = none := by
  rw [numeral]
  split
  · exact ⟨fraction_plain_ne_nil rfl negative (by simp), setting.exponent_plain negative _⟩
  · rename_i hne
    have hled := (rounds_shortest hne setting.tie).2
    exact ⟨fraction_plain_ne_nil rfl negative hled.1, setting.exponent_plain negative _⟩

-- What a style writes for a magnitude reads back as a number that rounds to it.
structure Reads (n : Numeral) (negative : Bool) (x : Magnitude) : Prop where
  negative : n.negative = negative
  whole : IsWhole n.whole
  word : decimalWord n.significand n.scale = x.word

theorem Style.reads_numeral (style : Style) (negative : Bool) (hx : x.Normal)
    (hword : x.word < infinityWord) : Reads (style.numeral negative x) negative x := by
  rw [numeral]
  split
  · rename_i hzero
    have hx0 : x.word = 0 := by
      have hhidden := hx.hidden.resolve_right (by rw [hzero]; decide)
      rw [Magnitude.word, hhidden, hzero]
      rfl
    cases hfraction : style.fraction <;>
      exact ⟨by simp, by simpa [plain] using isWhole_zero, by
        simp [hx0, plain, hfraction, Numeral.significand, ofDigits, Digit.zero, decimalWord]⟩
  · rename_i hne
    obtain ⟨hrounds, hled⟩ := rounds_shortest hne style.tie
    dsimp only
    split
    · refine ⟨by simp, style.isWhole_plain negative hled, decimalWord_eq hx hne hword ?_⟩
      rw [← style.value_plain negative] at hrounds
      exact hrounds
    · refine ⟨rfl, isWhole_scientific negative hled, decimalWord_eq hx hne hword ?_⟩
      rw [← value_scientific negative _ hled.1] at hrounds
      exact hrounds

theorem Reads.toDouble {n : Numeral} {negative : Bool} (h : Reads n negative x) :
    n.toDouble = doubleOfWord negative x.word := by
  rw [Numeral.toDouble, nearest, h.negative, h.word]

-- Every finite double is written so that it reads back as it was, in whatever style.
theorem Style.toDouble_numeral (style : Style) {y : Float} (h : y.isFinite = true) :
    ∃ negative magnitude, Content.ofDouble y = .finite negative magnitude ∧
      (style.numeral negative magnitude).negative = negative ∧
        IsWhole (style.numeral negative magnitude).whole ∧
          (style.numeral negative magnitude).toDouble = y := by
  obtain ⟨negative, magnitude, hcontent, hx, hword, hy⟩ := exists_content_of_isFinite h
  have hreads := style.reads_numeral negative hx hword
  exact ⟨negative, magnitude, hcontent, hreads.negative, hreads.whole, hreads.toDouble.trans hy⟩

end Candlestick.Decimal
