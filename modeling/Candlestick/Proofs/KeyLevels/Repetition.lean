import Candlestick.KeyLevels.Basic
import Candlestick.Proofs.Decimal.Arithmetic
import Candlestick.Proofs.KeyLevels.Distinct

namespace Candlestick.KeyLevels

theorem inBand_of_beq {epsilon x y : Float} (hfinite : epsilon.isFinite = true)
    (hepsilon : ¬ epsilon < Scalar.zero) (hx : x.isFinite = true) (hxzero : ¬ x < Scalar.zero)
    (h : (x == y) = true) : inBand epsilon x y = true := by
  have hshare := Decimal.notNegative_mul hx hxzero hfinite hepsilon
  have hupper : y ≤ x + x * epsilon :=
    (Decimal.le_iff_of_beq hx hxzero h).1.mp (Decimal.le_add hx hxzero hshare)
  have hlower : x - x * epsilon ≤ y :=
    (Decimal.le_iff_of_beq hx hxzero h).2.mp (Decimal.sub_le hx hxzero hshare)
  simp only [inBand, Bool.and_eq_true, decide_eq_true_eq]
  exact ⟨hupper, hlower⟩

-- Of the levels that are kept, only negative ones can be equal.
theorem equal_levels_are_negative (p : Params Float) (hp : p.Valid) (levels : List Float)
    (hlevels : ∀ x ∈ levels, x.isFinite = true) :
    (distinct p.epsilon levels).Pairwise fun x y => (x == y) = true → x < Scalar.zero := by
  obtain ⟨-, hfinite, hepsilon⟩ := hp
  refine (pairwise_distinct p.epsilon levels).imp_of_mem ?_
  intro x y hx _ hband heq
  by_contra hzero
  have hlevel := hlevels x ((distinct_sublist p.epsilon levels).mem hx)
  rw [inBand_of_beq hfinite hepsilon hlevel hzero heq] at hband
  cases hband

theorem equal_levels_are_negative_mixed :
    Params.standard.Valid ∧ (∀ x ∈ [1, -1, 1, -1, 0, -0.0], Float.isFinite x = true) ∧
      (distinct Params.standard.epsilon [1, -1, 1, -1, 0, -0.0]).Pairwise
        fun x y => (x == y) = true → x < Scalar.zero := by
  have hvalid : Params.standard.Valid := by decide +kernel
  have hlevels : ∀ x ∈ [1, -1, 1, -1, 0, -0.0], Float.isFinite x = true := by decide +kernel
  exact ⟨hvalid, hlevels, equal_levels_are_negative Params.standard hvalid _ hlevels⟩

-- The band of -1 would begin at -0.995 and end at -1.005.
theorem negative_level_kept_twice :
    Params.standard.Valid ∧ Float.isFinite (-1) = true ∧
      ¬ (distinct Params.standard.epsilon [-1, -1]).Pairwise fun x y => (x == y) = false := by
  decide +kernel

end Candlestick.KeyLevels
