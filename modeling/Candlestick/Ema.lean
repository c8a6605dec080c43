import Candlestick.Candle
import Candlestick.Checked
import Candlestick.Token

namespace Candlestick

namespace Ema

structure Params where
  period : UInt64
  deriving DecidableEq, Repr

-- What can be wrong with parameters.
inductive Violation where
  | noPeriod
  deriving DecidableEq, Repr

def Violation.message : Violation → String
  | noPeriod => "EMA 기간은 0보다 커야 합니다"

namespace Params

def standard : Params := ⟨10⟩

def Valid (p : Params) : Prop := p.period ≠ 0

instance (p : Params) : Decidable p.Valid := inferInstanceAs (Decidable (_ ≠ _))

def violation? (p : Params) : Option Violation := if p.Valid then none else some .noPeriod

theorem violation?_eq_none {p : Params} : p.violation? = none ↔ p.Valid := by
  by_cases h : p.Valid <;> simp [violation?, h]

instance : Checked Params where
  Valid := Valid
  refusal? p := p.violation?.map Violation.message
  refusal?_eq_none := Option.map_eq_none_iff.trans violation?_eq_none

end Params

end Ema

-- An analysis with its parameters.
structure Ema where
  params : Ema.Params
  valid : params.Valid

namespace Ema

def build (p : Params) : Except AnalysisError Ema := Checked.build p fun valid => ⟨p, valid⟩

def message (e : Ema) : String :=
  "EmaAnalyzer(period=" ++ Decimal.writeNat e.params.period.toNat ++ ")"

variable {α : Type} [Scalar α]

-- The share of the distance that one step covers.
def multiplier (α : Type) [Scalar α] (e : Ema) : α :=
  Scalar.ofCount 2 / (Scalar.ofCount e.params.period.toNat + Scalar.ofCount 1)

-- The average after one more close.
def next (multiplier ema close : α) : α := (close - ema) * multiplier + ema

def stage : String := "EMA 계산 중 취소"

-- Goes on from an average, looking at the token before each candle.
def follow (multiplier : α) (token : Token) :
    α → List (Candle α) → Except AnalysisError (List (Annotated α))
  | _, [] => return []
  | ema, c :: rest => do
    token.check stage
    let ema := next multiplier ema c.close
    return { c.annotated with ema } :: (← follow multiplier token ema rest)

-- The first candle is labelled without a look at the token.
def run (e : Ema) (token : Token) : List (Candle α) → Except AnalysisError (List (Annotated α))
  | [] => return []
  | c :: rest => do
    let followed ← follow (e.multiplier α) token c.close rest
    return { c.annotated with ema := c.close } :: followed

end Ema

end Candlestick
