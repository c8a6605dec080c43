import Candlestick.Json.Writer
import Candlestick.Sheet

namespace Candlestick.Json.Value

def ofSimple : Simple → Value
  | .text s => ofString s
  | .count n => ofNat n.toNat
  | .real x => ofDouble x

def ofRecord (r : Record) : Value := record (r.map fun (name, simple) => (name, ofSimple simple))

def ofSheet : Sheet → Value
  | .single r => ofRecord r
  | .tables rs => record (rs.map fun (name, r) => (name, ofRecord r))

end Candlestick.Json.Value
