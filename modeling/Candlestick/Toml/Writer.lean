import Candlestick.Decimal.Style
import Candlestick.Sheet
import Candlestick.Toml.Value

namespace Candlestick.Toml

-- Not every count is an integer that can be written. Texts are names that need no escapes.
def renderSimple? : Simple → Option (List Char)
  | .text s => some ('"' :: s.toList ++ ['"'])
  | .count n => if n.toNat < integerBound then some (Decimal.natText n.toNat) else none
  | .real x => some (Decimal.Style.setting.render x)

def renderRecord? : Record → Option (List Char)
  | [] => some []
  | (name, simple) :: rest =>
    return name.toList ++ " = ".toList ++ (← renderSimple? simple) ++ '\n' :: (← renderRecord? rest)

def renderTable? (name : String) (r : Record) : Option (List Char) :=
  return '[' :: name.toList ++ "]\n".toList ++ (← renderRecord? r)

-- An empty line stands between a table and the next.
def renderTables? : List (String × Record) → Option (List Char)
  | [] => some []
  | [(name, r)] => renderTable? name r
  | (name, r) :: rest => return (← renderTable? name r) ++ '\n' :: (← renderTables? rest)

def write? (sheet : Sheet) : Option String :=
  String.ofList <$> match sheet with
    | .single r => renderRecord? r
    | .tables rs => renderTables? rs

end Candlestick.Toml
