import Candlestick.Decimal.Digits
import Candlestick.Error
import Candlestick.Text.Shown

namespace Candlestick

structure Rule (Args H : Type) where
  name : String
  accepts : Args → Bool
  handler : H

-- A rule as it is shown for inspection.
def Rule.shown {Args : Type} (rule : Rule Args Nat) : String :=
  "Predicated \x7b name: " ++ Text.shown rule.name ++
    ", handler: " ++ Decimal.writeNat rule.handler ++ " \x7d"

structure Resolver (Args H : Type) where
  rules : List (Rule Args H)

namespace Resolver

variable {Args H : Type}

def size (r : Resolver Args H) : Nat := r.rules.length

def isEmpty (r : Resolver Args H) : Bool := r.rules.isEmpty

def names (r : Resolver Args H) : List String := r.rules.map Rule.name

def resolve (r : Resolver Args H) (args : Args) : Except NoMatch (Rule Args H) :=
  match r.rules.find? (·.accepts args) with
  | some rule => .ok rule
  | none => .error ⟨r.names⟩

end Resolver

end Candlestick
