import Candlestick.KeyLevels.Clustering
import Mathlib.Computability.StateTransition

namespace Candlestick.KeyLevels

open StateTransition

variable {α : Type} [Scalar α]

-- The list, and the positions of the two levels that are compared next.
structure InPlace (α : Type) where
  levels : List α
  anchor : Nat
  candidate : Nat

namespace InPlace

-- After a deletion the same position is looked at again. Once there are no more candidates, the
-- next level is the anchor, and the one after it the first candidate.
def step? (tolerance : α) (s : InPlace α) : Option (InPlace α) :=
  if ha : s.anchor < s.levels.length then
    if hc : s.candidate < s.levels.length then
      if inBand tolerance s.levels[s.candidate] s.levels[s.anchor] then
        let merged := mean s.levels[s.anchor] s.levels[s.candidate]
        some { s with levels := (s.levels.set s.anchor merged).eraseIdx s.candidate }
      else some { s with candidate := s.candidate + 1 }
    else some { s with anchor := s.anchor + 1, candidate := s.anchor + 1 + 1 }
  else none

def start (levels : List α) : InPlace α := ⟨levels, 0, 1⟩

-- Between two passes: levels that were anchors, and the others.
def between (before levels : List α) : InPlace α :=
  ⟨before ++ levels, before.length, before.length + 1⟩

-- In a pass: levels that were anchors, the anchor, levels that the anchor left over, and levels it
-- is still to be compared with.
def within (before : List α) (anchor : α) (passed rest : List α) : InPlace α :=
  ⟨before ++ anchor :: (passed ++ rest), before.length, before.length + 1 + passed.length⟩

theorem step?_between_nil (tolerance : α) (before : List α) :
    step? tolerance (between before []) = none := by
  simp [step?, between]

theorem step?_within_nil (tolerance anchor : α) (before passed : List α) :
    step? tolerance (within before anchor passed []) =
      some (between (before ++ [anchor]) passed) := by
  have ha : before.length < (before ++ anchor :: (passed ++ [])).length := by simp
  have hc : ¬ before.length + 1 + passed.length <
      (before ++ anchor :: (passed ++ [])).length := by simp; omega
  rw [within, step?, dif_pos ha, dif_neg hc]
  simp [between]

theorem step?_within_cons (tolerance anchor x : α) (before passed rest : List α) :
    step? tolerance (within before anchor passed (x :: rest)) =
      some (if inBand tolerance x anchor then within before (mean anchor x) passed rest
        else within before anchor (passed ++ [x]) rest) := by
  have ha : before.length < (before ++ anchor :: (passed ++ x :: rest)).length := by simp
  have hc : before.length + 1 + passed.length <
      (before ++ anchor :: (passed ++ x :: rest)).length := by simp; omega
  have hanchor : (before ++ anchor :: (passed ++ x :: rest))[before.length] = anchor := by simp
  have hcandidate :
      (before ++ anchor :: (passed ++ x :: rest))[before.length + 1 + passed.length] = x := by
    simp [List.getElem_append_right, Nat.add_assoc, Nat.add_comm 1]
  rw [within, step?, dif_pos ha, dif_pos hc]
  simp only [hanchor, hcandidate, within]
  by_cases h : inBand tolerance x anchor
  · simp [h, Nat.add_assoc, Nat.add_comm 1, List.eraseIdx_append_of_length_le]
  · simp [h, Nat.add_assoc]

-- A pass does to the anchor and the levels after it what `absorb` does.
theorem reaches_absorb (tolerance anchor : α) (before passed rest : List α) :
    Reaches (step? tolerance) (within before anchor passed rest)
      (within before (absorb tolerance anchor rest).1
        (passed ++ (absorb tolerance anchor rest).2) []) := by
  induction rest generalizing anchor passed with
  | nil =>
      rw [absorb, List.append_nil]
      exact .refl
  | cons x rest ih =>
      have hstep := step?_within_cons tolerance anchor x before passed rest
      rw [absorb]
      split at hstep <;> rename_i hband
      · rw [if_pos hband]
        exact .head hstep (ih (mean anchor x) passed)
      · rw [if_neg hband]
        have hrest := ih anchor (passed ++ [x])
        rw [List.append_assoc] at hrest
        exact .head hstep hrest

theorem reaches_mergeWithin (tolerance : α) (before levels : List α) :
    Reaches (step? tolerance) (between before levels)
      (between (before ++ mergeWithin tolerance levels) []) := by
  induction levels using mergeWithin.induct tolerance generalizing before with
  | case1 =>
      rw [mergeWithin, List.append_nil]
      exact .refl
  | case2 x rest ih =>
      have hpass := reaches_absorb tolerance x before [] rest
      have hnext := step?_within_nil tolerance (absorb tolerance x rest).1 before
        (absorb tolerance x rest).2
      have hrest := ih (before ++ [(absorb tolerance x rest).1])
      rw [List.append_assoc, List.singleton_append] at hrest
      rw [mergeWithin]
      exact hpass.trans (.head hnext hrest)

end InPlace

-- Merging in rounds, as the loop goes on: the levels that have come out of it, and those left over.
structure Rounds (α : Type) where
  merged : List α
  remaining : List α

namespace Rounds

def step? (tolerance : α) : Rounds α → Option (Rounds α)
  | ⟨_, []⟩ => none
  | ⟨merged, x :: rest⟩ =>
    some ⟨merged ++ [(absorb tolerance x rest).1], (absorb tolerance x rest).2⟩

def start (levels : List α) : Rounds α := ⟨[], levels⟩

theorem reaches_mergeWithin (tolerance : α) (merged levels : List α) :
    Reaches (step? tolerance) ⟨merged, levels⟩ ⟨merged ++ mergeWithin tolerance levels, []⟩ := by
  induction levels using mergeWithin.induct tolerance generalizing merged with
  | case1 =>
      rw [mergeWithin, List.append_nil]
      exact .refl
  | case2 x rest ih =>
      have hrest := ih (merged ++ [(absorb tolerance x rest).1])
      rw [List.append_assoc, List.singleton_append] at hrest
      rw [mergeWithin]
      exact .head rfl hrest

end Rounds

-- Both ways of merging come to an end, and with the same list.
theorem eval_inPlace_eq_merge (epsilon : α) (levels : List α) :
    (eval (InPlace.step? (Scalar.ofCount 3 * epsilon)) (InPlace.start levels)).map
        InPlace.levels = .some (merge epsilon levels) ∧
      (eval (Rounds.step? (Scalar.ofCount 3 * epsilon)) (Rounds.start levels)).map
        Rounds.merged = .some (merge epsilon levels) := by
  constructor
  · have hreach := InPlace.reaches_mergeWithin (Scalar.ofCount 3 * epsilon) [] levels
    have hend := mem_eval.mpr ⟨hreach, InPlace.step?_between_nil _ _⟩
    have hstart : InPlace.start levels = InPlace.between [] levels := rfl
    rw [hstart, Part.eq_some_iff.mpr hend, Part.map_some, InPlace.between]
    simp [merge]
  · have hreach := Rounds.reaches_mergeWithin (Scalar.ofCount 3 * epsilon) [] levels
    have hend := mem_eval.mpr ⟨hreach, rfl⟩
    rw [Rounds.start, Part.eq_some_iff.mpr hend, Part.map_some]
    simp [merge]

end Candlestick.KeyLevels
