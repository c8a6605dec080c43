import Candlestick.Toml.Value

namespace Candlestick.Toml

-- How a table came about. It is defined once, by its header or by the dotted keys that go through
-- it, and a header may still define one that longer headers have brought about.
inductive Origin where
  | header
  | implied
  | dotted
  deriving DecidableEq

-- A table under construction. Tables of a list are added one by one, and only the last can grow.
inductive Node where
  | value (v : Value)
  | table (origin : Origin) (entries : List (String × Node))
  | list (init : List (List (String × Node))) (last : List (String × Node))

abbrev Entries := List (String × Node)

namespace Entries

def replace (key : String) (node : Node) : Entries → Entries
  | [] => [(key, node)]
  | entry :: rest => if entry.1 = key then (key, node) :: rest else entry :: replace key node rest

-- Changes the table at the end of a path; tables that are missing on the way come about. A dotted
-- path does not go through a table that has a header.
def update? (dotted : Bool) (change? : Origin → Entries → Option Entries) :
    List String → Origin → Entries → Option Entries
  | [], origin, entries => change? origin entries
  | key :: path, _, entries =>
    match entries.lookup key with
    | none => do
      let origin := if dotted then Origin.dotted else .implied
      return entries ++ [(key, .table origin (← update? dotted change? path origin []))]
    | some (.value _) => none
    | some (.table origin inner) =>
      if dotted && origin = .header then none
      else do
        return replace key (.table origin (← update? dotted change? path origin inner)) entries
    | some (.list init last) => do
      return replace key (.list init (← update? dotted change? path .header last)) entries

-- Defines a key in the table that the keys before it lead to. Where there are such keys, the table
-- must be theirs alone.
def define? (entries : Entries) (path : List String) (key : String) (v : Value) : Option Entries :=
  let add? (origin : Origin) (entries : Entries) : Option Entries :=
    if !path.isEmpty && origin ≠ .dotted then none
    else if (entries.lookup key).isSome then none
    else some (entries ++ [(key, .value v)])
  update? true add? path .header entries

end Entries

-- A definition: a path of keys with a value.
structure Definition where
  path : List String
  value : Value

namespace Definition

def add? (d : Definition) (entries : Entries) : Option Entries := do
  entries.define? d.path.dropLast (← d.path.getLast?) d.value

def addAll? (ds : List Definition) (entries : Entries) : Option Entries :=
  ds.foldlM (fun entries d => d.add? entries) entries

end Definition

-- A header: of a table, or of the next table of a list.
structure Header where
  isList : Bool
  path : List String

namespace Header

-- Adds the table of a header with what is defined under it.
def open? (h : Header) (ds : List Definition) (entries : Entries) : Option Entries := do
  let key ← h.path.getLast?
  let place? (_ : Origin) (parent : Entries) : Option Entries :=
    match h.isList, parent.lookup key with
    | false, none => do return parent ++ [(key, .table .header (← Definition.addAll? ds []))]
    | false, some (.table .implied inner) => do
      return parent.replace key (.table .header (← Definition.addAll? ds inner))
    | true, none => do return parent ++ [(key, .list [] (← Definition.addAll? ds []))]
    | true, some (.list init last) => do
      return parent.replace key (.list (init ++ [last]) (← Definition.addAll? ds []))
    | _, _ => none
  entries.update? false place? h.path.dropLast .header

end Header

mutual

def Node.toValue : Node → Value
  | .value v => v
  | .table _ entries => .table (entriesToValues entries)
  | .list init last => .array (tablesToValues init ++ [.table (entriesToValues last)])

def entriesToValues : List (String × Node) → List (String × Value)
  | [] => []
  | (key, node) :: rest => (key, node.toValue) :: entriesToValues rest

def tablesToValues : List (List (String × Node)) → List Value
  | [] => []
  | entries :: rest => .table (entriesToValues entries) :: tablesToValues rest

end

-- A table that is written on one line.
def inlineTable? (ds : List Definition) : Option Value := do
  return .table (entriesToValues (← Definition.addAll? ds []))

-- A document: what is defined before the first header, and each header with what is defined under
-- it.
def document? (top : List Definition) (tables : List (Header × List Definition)) :
    Option Value := do
  let start ← Definition.addAll? top []
  let entries ← tables.foldlM (fun entries (h, ds) => h.open? ds entries) start
  return .table (entriesToValues entries)

end Candlestick.Toml
