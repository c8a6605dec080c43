import Candlestick.Fields
import Candlestick.Sheet
import Candlestick.Toml.Reader

namespace Candlestick

-- A name that is a key without marks around it.
def IsBareName (name : String) : Prop := name ≠ "" ∧ name.toList.all Toml.isKeyChar = true

instance (name : String) : Decidable (IsBareName name) := inferInstanceAs (Decidable (_ ∧ _))

-- A text that stands between marks as it is.
def IsPlainText (s : String) : Prop :=
  s ≠ "" ∧ s.toList.all (fun c => Toml.Quoted.isTextChar c && c ≠ '"' && c ≠ '\\') = true

instance (s : String) : Decidable (IsPlainText s) := inferInstanceAs (Decidable (_ ∧ _))

def Simple.Plain : Simple → Prop
  | text s => IsPlainText s
  | count _ => True
  | real x => x.isFinite = true

structure Record.Plain (r : Record) : Prop where
  bare : ∀ field ∈ r, IsBareName field.1
  plain : ∀ field ∈ r, field.2.Plain
  nodup : (r.map Prod.fst).Nodup

-- The names of the tables are told apart too.
inductive Sheet.Plain : Sheet → Prop where
  | single {r : Record} (h : Record.Plain r) : (single r).Plain
  | tables {rs : List (String × Record)} (bare : ∀ table ∈ rs, IsBareName table.1)
      (plain : ∀ table ∈ rs, Record.Plain table.2) (nodup : (rs.map Prod.fst).Nodup) :
      (tables rs).Plain

-- How the parts of a sheet stand in a kind of document, so that they are read from there.
structure Encoding (V : Type) [Datum V] where
  simple : Simple → V
  record : List (String × V) → V
  label?_text (s : String) : Datum.label? (simple (.text s)) = some s
  count?_count (n : UInt64) : Datum.count? (simple (.count n)) = some n
  real?_real {x : Float} (h : x.isFinite = true) : Datum.real? (simple (.real x)) = some x
  fields?_record (size : Nat) (entries : List (String × V)) :
    Datum.fields? size (record entries) = some (.named entries)

namespace Encoding

variable {V : Type} [Datum V] (e : Encoding V)

def ofRecord (r : Record) : V := e.record (r.map fun (name, simple) => (name, e.simple simple))

def ofSheet : Sheet → V
  | .single r => e.ofRecord r
  | .tables rs => e.record (rs.map fun (name, r) => (name, e.ofRecord r))

end Encoding

end Candlestick
