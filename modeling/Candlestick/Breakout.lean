import Candlestick.KeyLevels.Basic

namespace Candlestick

-- The price of a pivot: its close, or the price at which the market turned.
inductive ZonePrice where
  | close
  | extreme
  deriving DecidableEq, Repr

namespace ZonePrice

def all : List ZonePrice := [close, extreme]

def name : ZonePrice → String
  | close => "close"
  | extreme => "extreme"

def ofName? (name : String) : Option ZonePrice := all.find? (·.name = name)

end ZonePrice

namespace Breakout

structure Params (α : Type) where
  -- how many candles before the current one are looked at
  back : UInt64
  -- how many candles are left out at either end
  window : UInt64
  -- how many pivots make a zone
  count : UInt64
  -- how far the pivots of a flat zone may be from their average, and how far a close has to be
  width : α
  price : ZonePrice

-- What can be wrong with parameters; the first of these that is, if several are.
inductive Violation (α : Type) where
  | noCandles
  | noCount
  | reach (back window : UInt64)
  | width (value : α)
  deriving DecidableEq, Repr

def Violation.message : Violation Float → String
  | noCandles => "back_candles와 window는 0보다 커야 합니다"
  | noCount => "돌파 판정 피벗 개수는 0보다 커야 합니다"
  | reach back window =>
    "back_candles와 window가 너무 큽니다: back=" ++ Decimal.writeNat back.toNat ++
      ", window=" ++ Decimal.writeNat window.toNat
  | width value =>
    "구간 폭은 0 이상의 유한한 값이어야 합니다: " ++ Decimal.Style.message.write value

namespace Params

variable {α : Type} [Scalar α]

def standard : Params Float := ⟨30, 30, 10, 0.0002, .close⟩

-- How many candles a signal takes in: those looked at before it, and those left out at either end.
def reach (p : Params α) : Nat := p.back.toNat + 2 * p.window.toNat

def Valid (p : Params α) : Prop :=
  (p.back ≠ 0 ∧ p.window ≠ 0) ∧ p.count ≠ 0 ∧ p.reach < UInt64.size ∧
    Scalar.isFinite p.width = true ∧ ¬ p.width < Scalar.zero

instance (p : Params α) : Decidable p.Valid :=
  inferInstanceAs (Decidable ((_ ∧ _) ∧ _ ∧ _ ∧ _ ∧ _))

def violation? (p : Params α) : Option (Violation α) :=
  if p.back = 0 ∨ p.window = 0 then some .noCandles
  else if p.count = 0 then some .noCount
  else if UInt64.size ≤ p.reach then some (.reach p.back p.window)
  else if p.Valid then none
  else some (.width p.width)

theorem violation?_eq_none {p : Params α} : p.violation? = none ↔ p.Valid := by
  by_cases h : p.Valid
  · have hz : ¬(p.back = 0 ∨ p.window = 0) := fun h' => h'.elim h.1.1 h.1.2
    rw [violation?, if_neg hz, if_neg h.2.1, if_neg (Nat.not_le.mpr h.2.2.1), if_pos h]
    simp [h]
  · simp only [violation?, h, if_false]
    split
    · simp
    · split
      · simp
      · split <;> simp

instance : Checked (Params Float) where
  Valid := Valid
  refusal? p := p.violation?.map Violation.message
  refusal?_eq_none := Option.map_eq_none_iff.trans violation?_eq_none

end Params

end Breakout

-- An analysis with its parameters, and the analysis that finds its pivots.
structure Breakout (α : Type) [Scalar α] where
  params : Breakout.Params α
  pivots : KeyLevels α
  valid : params.Valid

namespace Breakout

variable {α : Type} [Scalar α]

def build (p : Params Float) (pivots : KeyLevels Float) : Except AnalysisError (Breakout Float) :=
  Checked.build p fun valid => ⟨p, pivots, valid⟩

def message (b : Breakout Float) : String :=
  "BreakoutAnalyzer(back=" ++ Decimal.writeNat b.params.back.toNat ++
    ", window=" ++ Decimal.writeNat b.params.window.toNat ++
    ", count=" ++ Decimal.writeNat b.params.count.toNat ++
    ", zone=" ++ Decimal.Style.message.write b.params.width ++ ")"

-- The sum of numbers, added from the first one on.
def sum : List α → α
  | [] => Scalar.zero
  | x :: rest => rest.foldl (· + ·) x

-- The average of exactly `count` numbers, if none is further from it than `width`.
def flatAverage? (values : List α) (count : Nat) (width : α) : Option α :=
  if values.length = count ∧ count ≠ 0 then
    let average := sum values / Scalar.ofCount count
    if values.all fun x => Scalar.abs (average - x) ≤ width then some average else none
  else none

def priceOf (price : ZonePrice) (c : Annotated α) : α :=
  match price, c.pivot with
  | .extreme, .high => c.candle.high
  | .extreme, .low => c.candle.low
  | _, _ => c.candle.close

-- The prices of the last `count` pivots of a kind, or of all if there are fewer.
def lastPrices (price : ZonePrice) (count : Nat) (pivot : Pivot) (zone : List (Annotated α)) :
    List α :=
  let prices := (zone.filter (·.pivot = pivot)).map (priceOf price)
  prices.drop (prices.length - count)

-- The candles in which pivots are looked for.
def zone (p : Params α) (candles : List (Annotated α)) (index : Nat) : List (Annotated α) :=
  (candles.drop (index - p.back.toNat - p.window.toNat)).take
    (candles.length - index - p.window.toNat)

-- The price at which the last pivots of a kind are level, if they are.
def level? (p : Params α) (pivot : Pivot) (zone : List (Annotated α)) : Option α :=
  flatAverage? (lastPrices p.price p.count.toNat pivot zone) p.count.toNat p.width

-- Whether a close is clearly below the lows of a zone.
def fallsThrough (p : Params α) (zone : List (Annotated α)) (close : α) : Bool :=
  (level? p .low zone).any fun support => support - close > p.width

-- Whether a close is clearly above the highs of a zone.
def breaksThrough (p : Params α) (zone : List (Annotated α)) (close : α) : Bool :=
  (level? p .high zone).any fun resistance => close - resistance > p.width

-- Whether there are enough candles around an index.
def InRange (p : Params α) (length index : Nat) : Prop :=
  p.back.toNat + p.window.toNat < index ∧ index + p.window.toNat ≤ length

instance (p : Params α) (length index : Nat) : Decidable (InRange p length index) :=
  inferInstanceAs (Decidable (_ ∧ _))

-- The window is not empty, so that an index in range is one of a candle.
theorem lt_of_inRange {p : Params α} (valid : p.Valid) {length index : Nat}
    (h : InRange p length index) : index < length := by
  have hw : p.window.toNat ≠ 0 := fun h => valid.1.2 (UInt64.toNat_inj.mp h)
  have := h.2
  omega

-- A close that breaks out on both sides counts as bullish.
def signalAt (b : Breakout α) (candles : List (Annotated α)) (index : Nat) : Signal :=
  if h : InRange b.params candles.length index then
    let zone := zone b.params candles index
    have := lt_of_inRange b.valid h
    let close := candles[index].candle.close
    if breaksThrough b.params zone close then .bullish
    else if fallsThrough b.params zone close then .bearish
    else .noChange
  else .noChange

-- Labels candles that have pivots with their signals; other labels are reset.
def mark (b : Breakout α) (candles : List (Annotated α)) : List (Annotated α) :=
  candles.zipIdx.map fun (c, index) =>
    { c.candle.annotated with pivot := c.pivot, breakout := b.signalAt candles index }

-- The token is looked at while the pivots are found, and not after that.
def run (b : Breakout α) (token : Token) (candles : List (Candle α)) :
    Except AnalysisError (List (Annotated α)) :=
  return b.mark (← b.pivots.run token candles).candles

end Breakout

end Candlestick
