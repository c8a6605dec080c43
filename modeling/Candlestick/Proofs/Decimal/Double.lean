import Candlestick.Decimal.Double
import Mathlib

namespace Candlestick.Decimal

open Float.Model

theorem ofBits_toBits (x : Float) : Float.ofBits x.toBits = x := by
  obtain ⟨⟨bits, valid⟩⟩ := x
  have hpack := UnpackedFloat.pack_unpack_of_valid valid
  have hmodel : Float.Model.ofBits bits = ⟨bits, valid⟩ := by
    simp only [Float.Model.ofBits, Float.Model.pack, hpack]
  exact congrArg Float.ofModel hmodel

theorem toNat_unpackExponent (bits : UInt64) :
    (@UnpackedFloat.unpackExponent .binary64 bits.toBitVec).toNat =
      bits.toNat / hiddenBit % 2048 := by
  rw [UnpackedFloat.unpackExponent_def, BitVec.extractLsb'_toNat, Nat.shiftRight_eq_div_pow]
  rfl

-- An exponent whose bits are all set is that of an infinity or of no number.
theorem isFinite_eq_false_of_unpackExponent {x : Float}
    (h : @UnpackedFloat.unpackExponent .binary64 x.toBits.toBitVec =
      -BitVec.ofNat Format.binary64.exponentBits 1) : x.isFinite = false := by
  have hunpack : x.isFinite = (UnpackedFloat.unpack .binary64 x.toBits.toBitVec).isFinite := rfl
  rw [hunpack, UnpackedFloat.unpack]
  simp only [h, if_true]
  split <;> rfl

theorem word_lt_of_isFinite {x : Float} (h : x.isFinite = true) :
    x.toBits.toNat % signWord < infinityWord := by
  by_contra hword
  have hexponent : @UnpackedFloat.unpackExponent .binary64 x.toBits.toBitVec =
      -BitVec.ofNat Format.binary64.exponentBits 1 := by
    apply BitVec.eq_of_toNat_eq
    have hones : (-BitVec.ofNat Format.binary64.exponentBits 1).toNat = 2047 := by decide
    rw [toNat_unpackExponent, hones]
    have hbits := x.toBits.toNat_lt
    simp only [infinityWord, signWord, hiddenBit] at hword ⊢
    omega
  rw [isFinite_eq_false_of_unpackExponent hexponent] at h
  exact absurd h (by decide)

theorem isFinite_of_word_lt {x : Float} (h : x.toBits.toNat % signWord < infinityWord) :
    x.isFinite = true := by
  have hunpack : x.isFinite = (UnpackedFloat.unpack .binary64 x.toBits.toBitVec).isFinite := rfl
  have hexponent : ¬ @UnpackedFloat.unpackExponent .binary64 x.toBits.toBitVec =
      -BitVec.ofNat Format.binary64.exponentBits 1 := by
    intro hones
    have hnat := toNat_unpackExponent x.toBits
    have hvalue : (-BitVec.ofNat Format.binary64.exponentBits 1).toNat = 2047 := by decide
    rw [hones, hvalue] at hnat
    simp only [infinityWord, signWord, hiddenBit] at h hnat
    omega
  rw [hunpack, UnpackedFloat.unpack]
  simp only [hexponent, if_false]
  split
  · split <;> rfl
  · rfl

theorem isInf_eq_false_of_isFinite {x : Float} (h : x.isFinite = true) : x.isInf = false := by
  have hfinite : x.toModel.unpack.isFinite = true := h
  have hinf : x.isInf = x.toModel.unpack.isInf := rfl
  rw [hinf]
  cases hx : x.toModel.unpack with
  | infinity sign =>
      rw [hx] at hfinite
      exact absurd hfinite (by simp [UnpackedFloat.isFinite])
  | notANumber | zero sign | finite sign m e hm => rfl

theorem doubleOfWord_toBits (x : Float) :
    doubleOfWord (signWord ≤ x.toBits.toNat) (x.toBits.toNat % signWord) = x := by
  have hbits := x.toBits.toNat_lt
  have hword : (if signWord ≤ x.toBits.toNat then signWord + x.toBits.toNat % signWord
      else x.toBits.toNat % signWord) = x.toBits.toNat := by
    by_cases h : signWord ≤ x.toBits.toNat
    · rw [if_pos h]
      simp only [signWord] at h ⊢
      omega
    · rw [if_neg h, Nat.mod_eq_of_lt (Nat.lt_of_not_le h)]
  rw [doubleOfWord]
  simp only [decide_eq_true_eq, hword, UInt64.ofNat_toNat]
  exact ofBits_toBits x

namespace Magnitude

-- A significand has 53 bits, or fewer at the least exponent.
structure Normal (x : Magnitude) : Prop where
  significand_lt : x.significand < 2 * hiddenBit
  le_exponent : -1074 ≤ x.exponent
  hidden : x.exponent = -1074 ∨ hiddenBit ≤ x.significand

theorem normal_ofWord (word : Nat) : (ofWord word).Normal := by
  have hmod := Nat.mod_lt word (show 0 < hiddenBit by decide)
  rw [ofWord]
  generalize word / hiddenBit = e
  split
  · exact ⟨by simp only; omega, le_refl _, .inl rfl⟩
  · exact ⟨by simp only; omega, by simp only; omega, .inr (by simp only; omega)⟩

@[simp] theorem word_ofWord (w : Nat) : (ofWord w).word = w := by
  have hdiv := Nat.div_add_mod w hiddenBit
  rw [word, ofWord]
  generalize w / hiddenBit = e at hdiv
  split
  · rename_i h
    rw [h] at hdiv
    simpa using hdiv
  · rename_i h
    obtain ⟨e, rfl⟩ := Nat.exists_eq_succ_of_ne_zero h
    have hexponent : ((e.succ : Int) - 1075 + 1074).toNat = e := by omega
    rw [Nat.mul_succ] at hdiv
    simp only [hexponent]
    rw [Nat.mul_comm e]
    omega

end Magnitude

-- A finite double is its sign with a magnitude, and these two give it back.
theorem exists_content_of_isFinite {x : Float} (h : x.isFinite = true) :
    ∃ negative magnitude, Content.ofDouble x = .finite negative magnitude ∧
      magnitude.Normal ∧ magnitude.word < infinityWord ∧
        doubleOfWord negative magnitude.word = x := by
  have hword := word_lt_of_isFinite h
  refine ⟨signWord ≤ x.toBits.toNat, .ofWord (x.toBits.toNat % signWord), ?_,
    Magnitude.normal_ofWord _, ?_, ?_⟩
  · rw [Content.ofDouble]
    simp only [hword, if_true]
  · simpa using hword
  · rw [Magnitude.word_ofWord]
    exact doubleOfWord_toBits x

-- No other double is a magnitude.
theorem ofDouble_ne_finite {x : Float} (h : x.isFinite = false) (negative : Bool)
    (magnitude : Magnitude) : Content.ofDouble x ≠ .finite negative magnitude := by
  have hword : ¬ x.toBits.toNat % signWord < infinityWord := by
    intro hlt
    rw [isFinite_of_word_lt hlt] at h
    exact absurd h (by decide)
  rw [Content.ofDouble]
  simp only [hword, if_false]
  split <;> simp

end Candlestick.Decimal
