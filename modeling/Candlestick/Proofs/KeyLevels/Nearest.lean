import Candlestick.KeyLevels.Result
import Mathlib.Data.Nat.Find
import Mathlib.Order.Bounds.Basic

namespace Candlestick

theorem Float.ranksBelow_iff (x y : Float) :
    Scalar.ranksBelow x y = true ↔ doubleRank x ≤ doubleRank y :=
  decide_eq_true_iff

namespace KeyLevels

-- So many of the levels, in descending order, and none of the others above one of them.
structure IsTop (count : Nat) (chosen levels : List Float) : Prop where
  length_eq : chosen.length = count
  descending : chosen.Pairwise fun x y => doubleRank y ≤ doubleRank x
  exists_rest : ∃ rest, (chosen ++ rest).Perm levels ∧
    ∀ x ∈ chosen, ∀ y ∈ rest, doubleRank y ≤ doubleRank x

def descending (levels : List Float) : List Float :=
  levels.mergeSort fun x y => Scalar.ranksBelow y x

theorem pairwise_descending (levels : List Float) :
    (descending levels).Pairwise fun x y => doubleRank y ≤ doubleRank x := by
  have hsort : (descending levels).Pairwise fun x y => Scalar.ranksBelow y x = true := by
    apply List.pairwise_mergeSort
    · simp only [Float.ranksBelow_iff]
      omega
    · simp only [Bool.or_eq_true, Float.ranksBelow_iff]
      omega
  simpa only [Float.ranksBelow_iff] using hsort

theorem isTop_take_descending {count : Nat} {levels : List Float} (h : count ≤ levels.length) :
    IsTop count ((descending levels).take count) levels := by
  have hperm : (descending levels).Perm levels := List.mergeSort_perm levels _
  have hpairwise := pairwise_descending levels
  rw [← List.take_append_drop count (descending levels)] at hpairwise
  obtain ⟨hchosen, -, hrest⟩ := List.pairwise_append.mp hpairwise
  refine ⟨?_, hchosen, (descending levels).drop count, ?_, hrest⟩
  · rw [List.length_take, hperm.length_eq, Nat.min_eq_left h]
  · rwa [List.take_append_drop]

namespace Result

variable {r : Result Float} {price : Float} {limit wider : UInt32} {count more : UInt64}

def steps (r : Result Float) (limit : UInt32) : Nat := min r.levels.length limit.toNat

-- The percentages that the search may try and that have levels enough around a price.
def enough (r : Result Float) (price : Float) (limit : UInt32) (count : UInt64) : Set Nat :=
  {p | 1 ≤ p ∧ p ≤ r.steps limit ∧ count.toNat ≤ (r.around price p).length}

theorem steps_mono (h : limit ≤ wider) : r.steps limit ≤ r.steps wider := by
  have hlimit := UInt32.le_iff_toNat_le.mp h
  simp only [steps]
  omega

-- The percentages added by a wider search are larger than those of a search that finds one.
theorem isLeast_enough_of_le (h : limit ≤ wider) {p : Nat}
    (hp : IsLeast (r.enough price limit count) p) : IsLeast (r.enough price wider count) p := by
  obtain ⟨⟨hone, hsteps, hcount⟩, hleast⟩ := hp
  refine ⟨⟨hone, hsteps.trans (steps_mono h), hcount⟩, ?_⟩
  rintro q ⟨hq, -, hqcount⟩
  by_contra hlt
  exact hlt (hleast ⟨hq, by omega, hqcount⟩)

theorem enough_subset_of_le (h : count ≤ more) :
    r.enough price limit more ⊆ r.enough price limit count := by
  rintro p ⟨hone, hsteps, hcount⟩
  exact ⟨hone, hsteps, (UInt64.le_iff_toNat_le.mp h).trans hcount⟩

theorem exists_isLeast_enough (h : (r.enough price limit count).Nonempty) :
    ∃ p, IsLeast (r.enough price limit count) p := by
  classical
  exact ⟨Nat.find h, Nat.find_spec h, fun q hq => Nat.find_min' h hq⟩

section Last

variable {last : Annotated Float} (hlast : r.candles.getLast? = some last)
include hlast

theorem nearest_of_isLeast {p : Nat}
    (hp : IsLeast (r.enough last.candle.close limit count) p) :
    r.nearest limit count =
      ((descending (r.around last.candle.close p)).take count.toNat, p) := by
  obtain ⟨⟨hone, hsteps, hcount⟩, hleast⟩ := hp
  have hfind : (List.range' 1 (r.steps limit)).find?
      (fun p => count.toNat ≤ (r.around last.candle.close p).length) = some p := by
    refine List.find?_range'_eq_some.mpr ⟨by simpa using hcount, ?_, ?_⟩
    · rw [List.mem_range'_1]
      omega
    · intro q hq hlt
      simp only [Bool.not_eq_true', decide_eq_false_iff_not]
      intro hqcount
      exact absurd (hleast ⟨hq, by omega, hqcount⟩) (Nat.not_le.mpr hlt)
  rw [steps] at hfind
  rw [nearest, hlast]
  simp only [hfind]
  rfl

theorem nearest_of_enough_eq_empty (h : r.enough last.candle.close limit count = ∅) :
    r.nearest limit count = ([], r.steps limit + 1) := by
  have hfind : (List.range' 1 (r.steps limit)).find?
      (fun p => count.toNat ≤ (r.around last.candle.close p).length) = none := by
    apply List.find?_range'_eq_none.mpr
    intro p hone hlt
    simp only [Bool.not_eq_true', decide_eq_false_iff_not]
    intro hcount
    have hp : p ∈ r.enough last.candle.close limit count := ⟨hone, by omega, hcount⟩
    rw [h] at hp
    exact hp
  rw [steps] at hfind
  rw [nearest, hlast]
  simp only [hfind]
  rfl

end Last

end Result

end KeyLevels

end Candlestick
