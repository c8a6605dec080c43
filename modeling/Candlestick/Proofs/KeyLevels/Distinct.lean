import Candlestick.KeyLevels.Clustering
import Mathlib.Data.Finset.Filter
import Mathlib.Data.Fintype.Basic
import Mathlib.Data.List.Induction

namespace Candlestick.KeyLevels

variable {α : Type} [Scalar α]

def keep (epsilon : α) (kept : List α) (x : α) : List α :=
  if kept.any (inBand epsilon · x) then kept else kept ++ [x]

theorem distinct_append (epsilon : α) (xs ys : List α) :
    distinct epsilon (xs ++ ys) = ys.foldl (keep epsilon) (distinct epsilon xs) :=
  List.foldl_append

theorem distinct_concat (epsilon : α) (levels : List α) (x : α) :
    distinct epsilon (levels ++ [x]) = keep epsilon (distinct epsilon levels) x :=
  distinct_append epsilon levels [x]

theorem prefix_keep (epsilon : α) (kept : List α) (x : α) : kept <+: keep epsilon kept x := by
  unfold keep
  split
  · exact List.prefix_refl kept
  · exact List.prefix_append kept [x]

theorem prefix_foldl_keep (epsilon : α) (kept levels : List α) :
    kept <+: levels.foldl (keep epsilon) kept := by
  induction levels generalizing kept with
  | nil => exact List.prefix_refl kept
  | cons x rest ih => exact (prefix_keep epsilon kept x).trans (ih (keep epsilon kept x))

theorem prefix_distinct (epsilon : α) {xs zs : List α} (h : xs <+: zs) :
    distinct epsilon xs <+: distinct epsilon zs := by
  obtain ⟨ys, rfl⟩ := h
  rw [distinct_append]
  exact prefix_foldl_keep epsilon (distinct epsilon xs) ys

-- The first level is always kept.
theorem distinct_eq_nil_iff (epsilon : α) (levels : List α) :
    distinct epsilon levels = [] ↔ levels = [] := by
  constructor
  · intro h
    cases levels with
    | nil => rfl
    | cons x rest =>
        have hfirst := prefix_distinct epsilon (List.prefix_append [x] rest)
        rw [List.singleton_append, h, List.prefix_nil] at hfirst
        cases hfirst
  · rintro rfl
    rfl

theorem distinct_sublist (epsilon : α) (levels : List α) :
    (distinct epsilon levels).Sublist levels := by
  induction levels using List.reverseRecOn with
  | nil => exact List.Sublist.slnil
  | append_singleton levels x ih =>
      rw [distinct_concat]
      unfold keep
      split
      · exact ih.trans (List.sublist_append_left levels [x])
      · exact ih.append (List.Sublist.refl [x])

-- No level that is kept lies in the band of one kept before it.
theorem pairwise_distinct (epsilon : α) (levels : List α) :
    (distinct epsilon levels).Pairwise fun d x => inBand epsilon d x = false := by
  induction levels using List.reverseRecOn with
  | nil => exact List.Pairwise.nil
  | append_singleton levels x ih =>
      rw [distinct_concat]
      unfold keep
      split
      · exact ih
      · rename_i hany
        refine List.pairwise_append.mpr ⟨ih, List.pairwise_singleton _ _, ?_⟩
        intro d hd y hy
        obtain rfl := List.mem_singleton.mp hy
        exact Bool.eq_false_of_not_eq_true fun hband =>
          hany (List.any_eq_true.mpr ⟨d, hd, hband⟩)

theorem distinct_eq_self {epsilon : α} {levels : List α}
    (h : levels.Pairwise fun d x => inBand epsilon d x = false) :
    distinct epsilon levels = levels := by
  induction levels using List.reverseRecOn with
  | nil => rfl
  | append_singleton levels x ih =>
      obtain ⟨hlevels, -, hx⟩ := List.pairwise_append.mp h
      have hany : ¬ levels.any (inBand epsilon · x) := by
        intro hany
        obtain ⟨d, hd, hband⟩ := List.any_eq_true.mp hany
        exact absurd hband (by simp [hx d hd x (List.mem_singleton_self x)])
      rw [distinct_concat, ih hlevels, keep, if_neg hany]

theorem distinct_distinct (epsilon : α) (levels : List α) :
    distinct epsilon (distinct epsilon levels) = distinct epsilon levels :=
  distinct_eq_self (pairwise_distinct epsilon levels)

-- A set of positions that has a position if and only if the level there lies in the band of no
-- earlier level of the set.
def IsKept (epsilon : α) (levels : List α) (kept : Finset (Fin levels.length)) : Prop :=
  ∀ k, k ∈ kept ↔ ∀ d ∈ kept, d < k → inBand epsilon levels[d] levels[k] = false

-- The levels at the positions of a set, in order.
def levelsAt {β : Type} (levels : List β) (kept : Finset (Fin levels.length)) : List β :=
  ((List.finRange levels.length).filter (· ∈ kept)).map levels.get

-- The same by recursion: whether a position is in the set depends on those before it.
def Kept (epsilon : α) (levels : List α) (k : Fin levels.length) : Prop :=
  ∀ d, (_ : d < k) → Kept epsilon levels d → inBand epsilon levels[d] levels[k] = false
termination_by k

theorem exists_isKept (epsilon : α) (levels : List α) : ∃ kept, IsKept epsilon levels kept := by
  classical
  refine ⟨Finset.univ.filter (Kept epsilon levels), ?_⟩
  intro k
  simp only [Finset.mem_filter, Finset.mem_univ, true_and]
  rw [Kept]
  exact forall_congr' fun d => ⟨fun h hd hlt => h hlt hd, fun h hlt hd => h hd hlt⟩

private theorem mem_take_finRange {n j : Nat} (d : Fin n) :
    d ∈ (List.finRange n).take j ↔ d < j := by
  rw [List.mem_take_iff_getElem]
  constructor
  · rintro ⟨i, hi, rfl⟩
    simp only [List.getElem_finRange]
    exact (Nat.lt_min.mp hi).1
  · intro h
    exact ⟨d, by simpa using h, by simp⟩

namespace IsKept

variable {epsilon : α} {levels : List α} {kept other : Finset (Fin levels.length)}

theorem unique (h : IsKept epsilon levels kept) (hother : IsKept epsilon levels other) :
    other = kept := by
  ext k
  induction k using WellFoundedLT.induction with
  | ind k ih =>
      rw [h k, hother k]
      refine forall_congr' fun d => ⟨?_, ?_⟩
      · intro hd hmem hlt
        exact hd ((ih d hlt).mpr hmem) hlt
      · intro hd hmem hlt
        exact hd ((ih d hlt).mp hmem) hlt

theorem exists_of_notMem (h : IsKept epsilon levels kept) {k : Fin levels.length} (hk : k ∉ kept) :
    ∃ d ∈ kept, d < k ∧ inBand epsilon levels[d] levels[k] = true := by
  simpa [h k] using hk

-- Of the first levels, those at the first positions of the set are kept.
theorem distinct_take (h : IsKept epsilon levels kept) {j : Nat} (hj : j ≤ levels.length) :
    distinct epsilon (levels.take j) =
      (((List.finRange levels.length).take j).filter (· ∈ kept)).map levels.get := by
  induction j with
  | zero => simp [distinct]
  | succ j ih =>
      have hlt : j < levels.length := hj
      have hprevious := ih hlt.le
      have hany : (distinct epsilon (levels.take j)).any (inBand epsilon · levels[j]) ↔
          (⟨j, hlt⟩ : Fin levels.length) ∉ kept := by
        rw [hprevious, h ⟨j, hlt⟩]
        simp [mem_take_finRange, Fin.lt_def, and_left_comm]
      rw [List.take_succ_eq_append_getElem hlt,
        List.take_succ_eq_append_getElem (by simpa using hlt), distinct_concat, keep,
        List.filter_append, List.map_append, ← hprevious]
      by_cases hk : (⟨j, hlt⟩ : Fin levels.length) ∈ kept
      · rw [if_neg (hany.not.mpr (not_not.mpr hk))]
        simp [hk]
      · rw [if_pos (hany.mpr hk)]
        simp [hk]

theorem distinct_eq (h : IsKept epsilon levels kept) :
    distinct epsilon levels = levelsAt levels kept := by
  have htake := h.distinct_take (le_refl levels.length)
  rwa [List.take_length, List.take_of_length_le (by simp)] at htake

end IsKept

-- Dropping keeps the levels at the one set of positions that the bands determine, in order. It may
-- be done in parts, and doing it again changes nothing.
theorem distinct_keeps_unique_positions (epsilon : α) (levels : List α) :
    (∃ kept, IsKept epsilon levels kept ∧ (∀ other, IsKept epsilon levels other → other = kept) ∧
        distinct epsilon levels = levelsAt levels kept ∧
        (∀ k ∈ kept, ∀ d ∈ kept, d < k → inBand epsilon levels[d] levels[k] = false) ∧
        ∀ k ∉ kept, ∃ d ∈ kept, d < k ∧ inBand epsilon levels[d] levels[k] = true) ∧
      (∀ more, distinct epsilon (levels ++ more) =
        distinct epsilon (distinct epsilon levels ++ more)) ∧
      distinct epsilon (distinct epsilon levels) = distinct epsilon levels := by
  refine ⟨?_, ?_, distinct_distinct epsilon levels⟩
  · obtain ⟨kept, h⟩ := exists_isKept epsilon levels
    refine ⟨kept, h, fun other hother => h.unique hother, h.distinct_eq, ?_, ?_⟩
    · intro k hk
      exact (h k).mp hk
    · intro k hk
      exact h.exists_of_notMem hk
  · intro more
    rw [distinct_append, distinct_append, distinct_distinct]

end Candlestick.KeyLevels
