import Candlestick.Candle
import Candlestick.Request
import Candlestick.Token

namespace Candlestick

-- What a source gives, and whether the operation was cancelled while it was at work.
structure Delivery (α : Type) where
  result : Except FetchError (List (Candle α))
  cancels : Bool

def Delivery.of {α : Type} (result : Except FetchError (List (Candle α))) : Delivery α :=
  ⟨result, false⟩

-- The token after a delivery.
def Token.after {α : Type} (token : Token) (delivery : Delivery α) : Token :=
  if delivery.cancels then token.cancel else token

-- A source that answers by itself.
structure Feed (α : Type) where
  name : String
  covers : Query → Bool
  fetch : Query → Delivery α

namespace Feed

variable {α : Type}

-- Covers everything and never has it.
def failing (name reason : String) : Feed α :=
  ⟨name, fun _ => true, fun _ => .of (.error (.failed reason))⟩

-- Gives the same candles for every query, and the operation is cancelled meanwhile.
def interrupting (name : String) (candles : List (Candle α)) : Feed α :=
  ⟨name, fun _ => true, fun _ => ⟨.ok candles, true⟩⟩

end Feed

inductive Source (α : Type) where
  | feed (feed : Feed α)
  | firstOf (sources : List (Source α))

namespace Source

variable {α : Type}

mutual

def name : Source α → String
  | feed f => f.name
  | firstOf sources => "resolver[" ++ ", ".intercalate (names sources) ++ "]"

def names : List (Source α) → List String
  | [] => []
  | s :: rest => s.name :: names rest

end

mutual

def covers (query : Query) : Source α → Bool
  | feed f => f.covers query
  | firstOf sources => anyCovers query sources

def anyCovers (query : Query) : List (Source α) → Bool
  | [] => false
  | s :: rest => s.covers query || anyCovers query rest

end

mutual

def fetch (query : Query) : Source α → Delivery α
  | feed f => f.fetch query
  | firstOf sources => (fetchFirst? query sources).getD (.of (.error (.noMatch ⟨names sources⟩)))

-- What the first source that covers the query gives.
def fetchFirst? (query : Query) : List (Source α) → Option (Delivery α)
  | [] => none
  | s :: rest => if s.covers query then some (s.fetch query) else fetchFirst? query rest

end

end Source

end Candlestick
