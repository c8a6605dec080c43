import Candlestick.Analysis
import Candlestick.Resolver
import Candlestick.Settings.Basic

namespace Candlestick

structure Runner (α : Type) [Scalar α] where
  analyses : List (RangeAnalysis α)

namespace Runner

variable {α : Type} [Scalar α]

def resolver (r : Runner α) : Resolver Request (RangeAnalysis α) :=
  ⟨r.analyses.map RangeAnalysis.rule⟩

def resolve (r : Runner α) (request : Request) : Except AnalysisError (RangeAnalysis α) :=
  match r.resolver.resolve request with
  | .ok rule => .ok rule.handler
  | .error e => .error (.noMatch e)

def run (r : Runner α) (request : Request) (token : Token) :
    Except AnalysisError (Output α) × Token :=
  match r.resolve request with
  | .ok analysis => analysis.run request token
  | .error e => (.error e, token)

-- An output without the declared shape gives an empty value; all other errors stay.
def runAs (r : Runner α) (shape : Shape) (request : Request) (token : Token) :
    Except AnalysisError (shape.Value α) × Token :=
  let (result, token) := r.run request token
  (result.map fun output => (output.narrow? shape).getD (Shape.empty α shape), token)

-- Runs requests one after the other.
def runMany (r : Runner α) (token : Token) :
    List Request → List (Except AnalysisError (Output α)) × Token
  | [] => ([], token)
  | request :: rest =>
    let (result, token) := r.run request token
    let (results, token) := r.runMany token rest
    (result :: results, token)

-- All three analyses over one source. The breakouts are those of the pivots that the key-level
-- analysis finds.
def ofSettings (settings : Settings) (source : Source Float) :
    Except AnalysisError (Runner Float) := do
  (Checked.check settings).mapError .ofSettings
  let ema ← Ema.build settings.ema
  let keyLevels ← KeyLevels.build settings.keyLevels
  let breakout ← Breakout.build settings.breakout keyLevels
  return ⟨[⟨source, .ema ema⟩, ⟨source, .keyLevels keyLevels⟩, ⟨source, .breakout breakout⟩]⟩

end Runner

end Candlestick
