import Candlestick.KeyLevels.Result
import Candlestick.Error

namespace Candlestick

inductive Output (α : Type) where
  | candles (labelled : List (Annotated α))
  | keyLevels (result : KeyLevels.Result α)

inductive Shape where
  | annotated
  | plain
  | keyLevels
  deriving DecidableEq, Repr

namespace Shape

def name : Shape → String
  | annotated => "candles"
  | plain => "plain_candles"
  | keyLevels => "key_levels"

-- What a caller gets who declares the shape.
abbrev Value (α : Type) : Shape → Type
  | annotated => List (Annotated α)
  | plain => List (Candle α)
  | keyLevels => KeyLevels.Result α

def empty (α : Type) : (shape : Shape) → shape.Value α
  | annotated => []
  | plain => []
  | keyLevels => ⟨[], []⟩

end Shape

namespace Output

variable {α : Type}

def shape : Output α → Shape
  | candles _ => .annotated
  | keyLevels _ => .keyLevels

def labelled : Output α → List (Annotated α)
  | candles labelled => labelled
  | keyLevels result => result.candles

-- Every output has candles; levels come from a key-level analysis alone.
def narrow? (shape : Shape) (output : Output α) : Option (shape.Value α) :=
  match shape, output with
  | .annotated, output => some output.labelled
  | .plain, output => some (output.labelled.map Annotated.candle)
  | .keyLevels, keyLevels result => some result
  | .keyLevels, candles _ => none

def narrow (shape : Shape) (output : Output α) : Except AnalysisError (shape.Value α) :=
  match output.narrow? shape with
  | some value => .ok value
  | none => .error (.mismatch shape.name output.shape.name)

end Output

end Candlestick
