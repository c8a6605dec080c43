import Candlestick.Checked
import Candlestick.KeyLevels.Clustering
import Candlestick.KeyLevels.Result
import Candlestick.Token

namespace Candlestick

namespace KeyLevels

structure Params (α : Type) where
  -- how many candles to either side are neighbours
  window : UInt64
  -- the width of a band, as a share of its level
  epsilon : α

-- What can be wrong with parameters; the first of these that is, if several are.
inductive Violation (α : Type) where
  | noWindow
  | epsilon (value : α)
  deriving DecidableEq, Repr

def Violation.message : Violation Float → String
  | noWindow => "이웃 캔들 수는 0보다 커야 합니다"
  | epsilon value =>
    "epsilon은 0 이상의 유한한 값이어야 합니다: " ++ Decimal.Style.message.write value

namespace Params

variable {α : Type} [Scalar α]

def standard : Params Float := ⟨3, 0.005⟩

def Valid (p : Params α) : Prop :=
  p.window ≠ 0 ∧ Scalar.isFinite p.epsilon = true ∧ ¬ p.epsilon < Scalar.zero

instance (p : Params α) : Decidable p.Valid := inferInstanceAs (Decidable (_ ∧ _ ∧ _))

def violation? (p : Params α) : Option (Violation α) :=
  if p.window = 0 then some .noWindow
  else if p.Valid then none
  else some (.epsilon p.epsilon)

theorem violation?_eq_none {p : Params α} : p.violation? = none ↔ p.Valid := by
  by_cases h : p.Valid
  · simp [violation?, h, h.1]
  · by_cases hw : p.window = 0 <;> simp [violation?, h, hw]

instance : Checked (Params Float) where
  Valid := Valid
  refusal? p := p.violation?.map Violation.message
  refusal?_eq_none := Option.map_eq_none_iff.trans violation?_eq_none

end Params

end KeyLevels

-- An analysis with its parameters.
structure KeyLevels (α : Type) [Scalar α] where
  params : KeyLevels.Params α
  valid : params.Valid

namespace KeyLevels

variable {α : Type} [Scalar α]

def build (p : Params Float) : Except AnalysisError (KeyLevels Float) :=
  Checked.build p fun valid => ⟨p, valid⟩

def message (k : KeyLevels Float) : String :=
  "KeyLevelAnalyzer(window=" ++ Decimal.writeNat k.params.window.toNat ++
    ", epsilon=" ++ Decimal.Style.message.write k.params.epsilon ++ ")"

-- The neighbours of a candle: as many before it as the window is wide, itself, and one fewer after
-- it.
def neighbours (window index : Nat) (candles : List (Candle α)) : List (Candle α) :=
  (candles.drop (index - window)).take (2 * window)

-- A candle among its neighbours is a low if none is lower, and a high if none is higher. It is
-- neither if it could be both.
def classify (c : Candle α) (neighbours : List (Candle α)) : Pivot :=
  match neighbours.any (c.low > ·.low), neighbours.any (c.high < ·.high) with
  | false, true => .low
  | true, false => .high
  | _, _ => .unchanged

-- A candle with too few candles around it is no pivot.
def pivotOf (window : Nat) (candles : List (Candle α)) (index : Nat) : Pivot :=
  if h : window ≤ index ∧ index + window < candles.length then
    have : index < candles.length := by omega
    classify candles[index] (neighbours window index candles)
  else .unchanged

def pivotAt (k : KeyLevels α) (candles : List (Candle α)) (index : Nat) : Pivot :=
  pivotOf k.params.window.toNat candles index

def stage : String := "키 레벨 검출 중 취소"

-- Labels each candle with its pivot, looking at the token before each.
def label (k : KeyLevels α) (token : Token) (candles : List (Candle α)) :
    Except AnalysisError (List (Annotated α)) :=
  candles.zipIdx.mapM fun (c, index) => do
    token.check stage
    return { c.annotated with pivot := k.pivotAt candles index }

-- The price at which the market turned.
def turn? (c : Annotated α) : Option α :=
  match c.pivot with
  | .high => some c.candle.high
  | .low => some c.candle.low
  | .unchanged => none

def turns (candles : List (Annotated α)) : List α := candles.filterMap turn?

def run (k : KeyLevels α) (token : Token) (candles : List (Candle α)) :
    Except AnalysisError (Result α) := do
  let labelled ← k.label token candles
  return ⟨labelled, merge k.params.epsilon (distinct k.params.epsilon (turns labelled))⟩

end KeyLevels

end Candlestick
