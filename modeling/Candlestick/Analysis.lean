import Candlestick.Breakout
import Candlestick.Ema
import Candlestick.Output
import Candlestick.Resolver
import Candlestick.Source

namespace Candlestick

inductive Analysis (α : Type) [Scalar α] where
  | ema (analysis : Ema)
  | keyLevels (analysis : KeyLevels α)
  | breakout (analysis : Breakout α)

namespace Analysis

variable {α : Type} [Scalar α]

def algorithm : Analysis α → Algorithm
  | ema _ => .ema
  | keyLevels _ => .keyLevels
  | breakout _ => .breakout

def run (token : Token) (candles : List (Candle α)) : Analysis α → Except AnalysisError (Output α)
  | ema e => .candles <$> e.run token candles
  | keyLevels k => .keyLevels <$> k.run token candles
  | breakout b => .candles <$> b.run token candles

end Analysis

-- An analysis of the candles that a source has for a request.
structure RangeAnalysis (α : Type) [Scalar α] where
  source : Source α
  analysis : Analysis α

namespace RangeAnalysis

variable {α : Type} [Scalar α]

def algorithm (a : RangeAnalysis α) : Algorithm := a.analysis.algorithm

-- The result, and the token as the fetch left it. If the fetch fails, its error is the result,
-- cancelled or not.
def run (a : RangeAnalysis α) (request : Request) (token : Token) :
    Except AnalysisError (Output α) × Token :=
  let delivery := a.source.fetch request.query
  let token := token.after delivery
  match delivery.result with
  | .error cause => (.error (.fetch cause), token)
  | .ok candles => (a.analysis.run token candles, token)

-- An output without the declared shape is an error.
def runAs (a : RangeAnalysis α) (shape : Shape) (request : Request) (token : Token) :
    Except AnalysisError (shape.Value α) × Token :=
  let (result, token) := a.run request token
  (result.bind (Output.narrow shape), token)

-- The analysis answers the requests for its algorithm.
def rule (a : RangeAnalysis α) : Rule Request (RangeAnalysis α) :=
  ⟨a.algorithm.message, fun request => request.algorithm = a.algorithm, a⟩

end RangeAnalysis

end Candlestick
