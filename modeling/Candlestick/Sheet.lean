namespace Candlestick

inductive Simple where
  | text (s : String)
  | count (n : UInt64)
  | real (x : Float)

abbrev Record := List (String × Simple)

-- What a document of either format writes: one record, or one under each of some names.
inductive Sheet where
  | single (record : Record)
  | tables (records : List (String × Record))

end Candlestick
