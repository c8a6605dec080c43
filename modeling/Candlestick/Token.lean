import Candlestick.Error

namespace Candlestick

structure Token where
  cancelled : Bool
  deriving DecidableEq, Repr

namespace Token

def fresh : Token := ⟨false⟩

def cancel (_ : Token) : Token := ⟨true⟩

-- Passes unless the token is cancelled; the error names the stage that is given up.
def check (token : Token) (stage : String) : Except AnalysisError Unit :=
  if token.cancelled then .error (.cancelled stage) else .ok ()

end Token

end Candlestick
