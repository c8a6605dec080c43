import Candlestick.Scalar

namespace Candlestick.KeyLevels

variable {α : Type} [Scalar α]

-- Whether a value lies in the band of a level, which is a share of the level wide on either side.
-- So one of two levels may lie in the band of the other, and not the other way round.
def inBand (tolerance level value : α) : Bool :=
  level + level * tolerance ≥ value && value ≥ level - level * tolerance

-- Drops each level that lies in the band of one kept before it.
def distinct (epsilon : α) (levels : List α) : List α :=
  levels.foldl (fun kept x => if kept.any (inBand epsilon · x) then kept else kept ++ [x]) []

def mean (x y : α) : α := (x + y) / Scalar.ofCount 2

-- Moves an anchor to its mean with each level in turn whose band it lies in; the other levels are
-- left over.
def absorb (tolerance : α) : α → List α → α × List α
  | anchor, [] => (anchor, [])
  | anchor, x :: rest =>
    if inBand tolerance x anchor then absorb tolerance (mean anchor x) rest
    else
      let (anchor, left) := absorb tolerance anchor rest
      (anchor, x :: left)

theorem length_absorb_le (tolerance anchor : α) (levels : List α) :
    (absorb tolerance anchor levels).2.length ≤ levels.length := by
  induction levels generalizing anchor with
  | nil => simp [absorb]
  | cons x rest ih =>
    rw [absorb]
    split
    · exact Nat.le_succ_of_le (ih _)
    · exact Nat.succ_le_succ (ih _)

-- Each level absorbs what it can of those after it, and the levels left over go on in the same
-- way. An average moves while it absorbs, so the order of the levels counts.
def mergeWithin (tolerance : α) : List α → List α
  | [] => []
  | x :: rest => (absorb tolerance x rest).1 :: mergeWithin tolerance (absorb tolerance x rest).2
termination_by levels => levels.length
decreasing_by exact Nat.lt_succ_of_le (length_absorb_le tolerance x rest)

-- Bands are three times as wide here as for dropping.
def merge (epsilon : α) (levels : List α) : List α :=
  mergeWithin (Scalar.ofCount 3 * epsilon) levels

end Candlestick.KeyLevels
