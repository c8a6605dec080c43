import Candlestick.KeyLevels.Clustering
import Mathlib.Algebra.Order.Field.Rat
import Mathlib.Data.List.Induction
import Mathlib.Data.Nat.Find
import Mathlib.Order.Bounds.Basic

namespace Candlestick.KeyLevels

variable {α : Type} [Scalar α]

section Placing

variable (tolerance : α)

-- Adds a level to the first merged level that lies in its band.
def place (x : α) : List α → List α
  | [] => [x]
  | a :: rest => if inBand tolerance x a then mean a x :: rest else a :: place x rest

-- The number of that merged level; where there is none, the number of merged levels.
def slot (merged : List α) (x : α) : Nat := merged.findIdx (inBand tolerance x)

theorem absorb_concat (anchor : α) (levels : List α) (x : α) :
    absorb tolerance anchor (levels ++ [x]) =
      if inBand tolerance x (absorb tolerance anchor levels).1 then
        (mean (absorb tolerance anchor levels).1 x, (absorb tolerance anchor levels).2)
      else ((absorb tolerance anchor levels).1, (absorb tolerance anchor levels).2 ++ [x]) := by
  induction levels generalizing anchor with
  | nil => rfl
  | cons y rest ih =>
      rw [List.cons_append, absorb, absorb]
      split
      · exact ih (mean anchor y)
      · rw [ih anchor]
        by_cases h : inBand tolerance x (absorb tolerance anchor rest).1
        · rw [if_pos h, if_pos h]
        · rw [if_neg h, if_neg h]
          rfl

-- The anchors of the rounds before have met every earlier level when a round comes to the last
-- level, so that it is compared with the merged levels of those before it.
theorem mergeWithin_concat (levels : List α) (x : α) :
    mergeWithin tolerance (levels ++ [x]) = place tolerance x (mergeWithin tolerance levels) := by
  induction levels using mergeWithin.induct tolerance with
  | case1 => simp [mergeWithin, absorb, place]
  | case2 y rest ih =>
      rw [List.cons_append, mergeWithin, mergeWithin, absorb_concat, place]
      split
      · rfl
      · rw [ih]

theorem getElem?_place (merged : List α) (x : α) (m : Nat) :
    (place tolerance x merged)[m]? =
      if m = slot tolerance merged x then some ((merged[m]?.map (mean · x)).getD x)
      else merged[m]? := by
  induction merged generalizing m with
  | nil => cases m <;> simp [place, slot]
  | cons a rest ih =>
      rw [place, slot, List.findIdx_cons]
      by_cases h : inBand tolerance x a
      · rw [if_pos h, h]
        cases m <;> simp
      · rw [if_neg h, Bool.eq_false_of_not_eq_true h]
        cases m with
        | zero => simp
        | succ m =>
            rw [List.getElem?_cons_succ, ih m]
            simp only [cond_false, Nat.add_right_cancel_iff]
            rfl

theorem length_place_le (merged : List α) (x : α) :
    (place tolerance x merged).length ≤ merged.length + 1 := by
  induction merged with
  | nil => exact le_refl 1
  | cons a rest ih =>
      rw [place]
      split
      · exact Nat.le_succ _
      · exact Nat.succ_le_succ ih

theorem place_eq_append {merged : List α} {x : α}
    (h : ∀ a ∈ merged, inBand tolerance x a = false) : place tolerance x merged = merged ++ [x] := by
  induction merged with
  | nil => rfl
  | cons a rest ih =>
      rw [place, if_neg (by simp [h a]), ih fun b hb => h b (List.mem_cons_of_mem a hb)]
      rfl

theorem length_mergeWithin_le (levels : List α) :
    (mergeWithin tolerance levels).length ≤ levels.length := by
  induction levels using List.reverseRecOn with
  | nil => simp [mergeWithin]
  | append_singleton levels x ih =>
      rw [mergeWithin_concat, List.length_append]
      exact (length_place_le tolerance _ x).trans (Nat.succ_le_succ ih)

theorem mergeWithin_eq_nil_iff (levels : List α) :
    mergeWithin tolerance levels = [] ↔ levels = [] := by
  cases levels <;> simp [mergeWithin]

-- Levels that are not near to one another stay as they are.
theorem mergeWithin_eq_self {levels : List α}
    (h : levels.Pairwise fun x y => inBand tolerance y x = false) :
    mergeWithin tolerance levels = levels := by
  induction levels using List.reverseRecOn with
  | nil => simp [mergeWithin]
  | append_singleton levels x ih =>
      obtain ⟨hlevels, -, hx⟩ := List.pairwise_append.mp h
      rw [mergeWithin_concat, ih hlevels]
      exact place_eq_append tolerance fun a ha => hx a ha x (List.mem_singleton_self x)

end Placing

-- The first level, moved to its mean with each next one in turn.
def runningMean : List α → Option α
  | [] => none
  | x :: rest => some (rest.foldl mean x)

theorem runningMean_concat (levels : List α) (x : α) :
    runningMean (levels ++ [x]) = some (((runningMean levels).map (mean · x)).getD x) := by
  cases levels <;> simp [runningMean]

-- The levels of one cluster among those at the first positions, where every position has the number
-- of its cluster.
def members {β : Type} (levels : List β) (cluster : Nat → Nat) (m count : Nat) : List β :=
  ((List.range count).filter (cluster · = m)).filterMap (levels[·]?)

theorem members_succ {β : Type} (levels : List β) (cluster : Nat → Nat) (m : Nat) {i : Nat}
    (h : i < levels.length) :
    members levels cluster m (i + 1) =
      members levels cluster m i ++ if cluster i = m then [levels[i]] else [] := by
  rw [members, List.range_succ, List.filter_append, List.filterMap_append]
  by_cases hm : cluster i = m <;> simp [members, hm, h]

-- What a cluster amounts to when the level at a position has its turn.
def valueAt (levels : List α) (cluster : Nat → Nat) (m position : Nat) : Option α :=
  runningMean (members levels cluster m position)

-- A cluster has a value as soon as it has a position.
theorem exists_mem_valueAt_iff (levels : List α) (cluster : Nat → Nat) (m position : Nat) :
    (∃ a, a ∈ valueAt levels cluster m position) ↔
      ∃ i < position, i < levels.length ∧ cluster i = m := by
  have hmember (x : α) : x ∈ members levels cluster m position ↔
      ∃ i < position, cluster i = m ∧ levels[i]? = some x := by
    simp [members, and_assoc]
  constructor
  · rintro ⟨a, ha⟩
    cases hlevels : members levels cluster m position with
    | nil =>
        rw [valueAt, hlevels] at ha
        cases ha
    | cons x rest =>
        obtain ⟨i, hi, hm, hx⟩ := (hmember x).mp (hlevels ▸ List.mem_cons_self)
        exact ⟨i, hi, (List.getElem?_eq_some_iff.mp hx).1, hm⟩
  · rintro ⟨i, hi, hlt, hm⟩
    have hx := (hmember levels[i]).mpr ⟨i, hi, hm, List.getElem?_eq_getElem hlt⟩
    cases hlevels : members levels cluster m position with
    | nil =>
        rw [hlevels] at hx
        cases hx
    | cons x rest => exact ⟨rest.foldl mean x, by rw [valueAt, hlevels]; rfl⟩

def IsFirst (levels : List α) (cluster : Nat → Nat) (m position : Nat) : Prop :=
  IsLeast {i | i < levels.length ∧ cluster i = m} position

-- Every position belongs to one of as many clusters as there are merged levels.
structure Clusters (tolerance : α) (levels merged : List α) (cluster : Nat → Nat) : Prop where
  lt_length : ∀ i < levels.length, cluster i < merged.length
  -- no cluster is empty, and they are numbered by their first positions
  exists_first : ∀ m < merged.length, ∃ i, IsFirst levels cluster m i
  first_lt_first : ∀ m n i j, m < n → IsFirst levels cluster m i → IsFirst levels cluster n j → i < j
  merged_eq : ∀ m, merged[m]? = valueAt levels cluster m levels.length
  -- a level that is not the first of its cluster had the cluster's value in its band
  absorbed : ∀ (i : Nat) (_ : i < levels.length), ∀ a ∈ valueAt levels cluster (cluster i) i,
    inBand tolerance levels[i] a = true
  -- and none of the values of the clusters before
  passed : ∀ (i : Nat) (_ : i < levels.length), ∀ m < cluster i,
    ∃ a ∈ valueAt levels cluster m i, inBand tolerance levels[i] a = false

section Numbering

variable (tolerance : α) (levels : List α)

-- The number of the cluster that the level at a position goes to.
def clusterOf (position : Nat) : Nat :=
  match levels[position]? with
  | some x => slot tolerance (mergeWithin tolerance (levels.take position)) x
  | none => 0

theorem clusterOf_eq {i : Nat} (h : i < levels.length) :
    clusterOf tolerance levels i =
      slot tolerance (mergeWithin tolerance (levels.take i)) levels[i] := by
  rw [clusterOf, List.getElem?_eq_getElem h]

-- At each turn the values of the clusters are what merging makes of the levels before.
theorem valueAt_clusterOf (m : Nat) {i : Nat} (h : i ≤ levels.length) :
    valueAt levels (clusterOf tolerance levels) m i =
      (mergeWithin tolerance (levels.take i))[m]? := by
  induction i with
  | zero => simp [valueAt, members, runningMean, mergeWithin]
  | succ i ih =>
      have hlt : i < levels.length := h
      rw [List.take_succ_eq_append_getElem hlt, mergeWithin_concat, getElem?_place,
        ← clusterOf_eq tolerance levels hlt, ← ih hlt.le, valueAt, members_succ _ _ _ hlt]
      by_cases hm : clusterOf tolerance levels i = m
      · rw [if_pos hm, if_pos hm.symm, runningMean_concat]
        rfl
      · rw [if_neg hm, if_neg (Ne.symm hm), List.append_nil]
        rfl

theorem exists_valueAt_of_lt {m i : Nat} (h : i < levels.length)
    (hm : m < clusterOf tolerance levels i) :
    ∃ a ∈ valueAt levels (clusterOf tolerance levels) m i,
      inBand tolerance levels[i] a = false := by
  rw [clusterOf_eq tolerance levels h] at hm
  have hlength : m < (mergeWithin tolerance (levels.take i)).length :=
    hm.trans_le List.findIdx_le_length
  refine ⟨(mergeWithin tolerance (levels.take i))[m], ?_, ?_⟩
  · rw [valueAt_clusterOf tolerance levels m h.le]
    exact List.getElem?_eq_getElem hlength
  · exact List.not_of_lt_findIdx hm

theorem getElem?_mergeWithin (m : Nat) :
    (mergeWithin tolerance levels)[m]? =
      valueAt levels (clusterOf tolerance levels) m levels.length := by
  rw [valueAt_clusterOf tolerance levels m (le_refl levels.length), List.take_length]

theorem clusters_mergeWithin :
    Clusters tolerance levels (mergeWithin tolerance levels) (clusterOf tolerance levels) where
  lt_length := by
    intro i hi
    obtain ⟨a, ha⟩ := (exists_mem_valueAt_iff levels (clusterOf tolerance levels) _ _).mpr
      ⟨i, hi, hi, rfl⟩
    rw [← getElem?_mergeWithin tolerance levels] at ha
    exact (List.getElem?_eq_some_iff.mp ha).1
  exists_first := by
    intro m hm
    have hvalue := List.getElem?_eq_getElem hm
    rw [getElem?_mergeWithin tolerance levels] at hvalue
    obtain ⟨i, -, hi⟩ := (exists_mem_valueAt_iff _ _ _ _).mp ⟨_, hvalue⟩
    classical
    exact ⟨Nat.find ⟨i, hi⟩, Nat.find_spec ⟨i, hi⟩, fun j hj => Nat.find_min' ⟨i, hi⟩ hj⟩
  first_lt_first := by
    rintro m n i j hmn ⟨-, hleast⟩ ⟨⟨hj, rfl⟩, -⟩
    obtain ⟨a, ha, -⟩ := exists_valueAt_of_lt tolerance levels hj hmn
    obtain ⟨k, hkj, hk⟩ := (exists_mem_valueAt_iff _ _ _ _).mp ⟨a, ha⟩
    exact (hleast hk).trans_lt hkj
  merged_eq := getElem?_mergeWithin tolerance levels
  absorbed := by
    intro i hi a ha
    rw [valueAt_clusterOf tolerance levels _ hi.le, clusterOf_eq tolerance levels hi] at ha
    obtain ⟨hlt, rfl⟩ := List.getElem?_eq_some_iff.mp ha
    exact List.findIdx_getElem
  passed := by
    intro i hi m hm
    exact exists_valueAt_of_lt tolerance levels hi hm

end Numbering

-- Merging loses no level and counts none twice: each merged level is the running mean of a cluster
-- of positions. It gives no more levels than it was given, none only if it was given none, and
-- leaves levels as they are if none is near to a later one.
theorem merge_forms_clusters (epsilon : α) (levels : List α) :
    (∃ cluster, Clusters (Scalar.ofCount 3 * epsilon) levels (merge epsilon levels) cluster) ∧
      (merge epsilon levels).length ≤ levels.length ∧
      (merge epsilon levels = [] ↔ levels = []) ∧
      ((levels.Pairwise fun x y => inBand (Scalar.ofCount 3 * epsilon) y x = false) →
        merge epsilon levels = levels) :=
  ⟨⟨_, clusters_mergeWithin _ levels⟩, length_mergeWithin_le _ levels,
    mergeWithin_eq_nil_iff _ levels, mergeWithin_eq_self _⟩

theorem merge_forms_clusters_apart :
    ([100, 200, 400] : List Rat).Pairwise
        (fun x y => inBand (Scalar.ofCount 3 * (1 / 200)) y x = false) ∧
      merge (1 / 200 : Rat) [100, 200, 400] = [100, 200, 400] := by
  have h : ([100, 200, 400] : List Rat).Pairwise
      fun x y => inBand (Scalar.ofCount 3 * (1 / 200)) y x = false := by decide +kernel
  exact ⟨h, (merge_forms_clusters _ _).2.2.2 h⟩

-- The last level is near the mean of the first and the third, though not near the first.
example : merge (1 / 200 : Rat) [100, 200, 101, 102] = [405 / 4, 200] := by
  cbv

end Candlestick.KeyLevels
