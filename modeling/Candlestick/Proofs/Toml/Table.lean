import Candlestick.Toml.Table
import Mathlib.Data.List.Nodup
import Mathlib.Tactic.Common

namespace Candlestick.Toml

theorem define?_key {entries : Entries} {key : String} (h : entries.lookup key = none) (v : Value) :
    entries.define? [] key v = some (entries ++ [(key, .value v)]) := by
  simp [Entries.define?, Entries.update?, h]

theorem lookup_eq_none {entries : Entries} {key : String} (h : key ∉ entries.map Prod.fst) :
    entries.lookup key = none := by
  rw [List.lookup_eq_none_iff]
  rintro ⟨k, node⟩ hmem
  have hne : key ≠ k := fun he => h (List.mem_map.mpr ⟨_, hmem, he.symm⟩)
  simpa using hne

-- Keys that are told apart are added one after the other.
theorem foldlM_append {β : Type} {step : Entries → β → Option Entries} {entry : β → String × Node}
    {bs : List β}
    (hstep : ∀ b ∈ bs, ∀ entries : Entries, (entry b).1 ∉ entries.map Prod.fst →
      step entries b = some (entries ++ [entry b]))
    (entries : Entries) (h : (entries.map Prod.fst ++ bs.map fun b => (entry b).1).Nodup) :
    bs.foldlM step entries = some (entries ++ bs.map entry) := by
  induction bs generalizing entries with
  | nil => simp
  | cons b bs ih =>
      have hname : (entry b).1 ∉ entries.map Prod.fst := by
        intro hmem
        exact List.disjoint_of_nodup_append h hmem (by simp)
      have hrest := ih (fun x hx => hstep x (by simp [hx])) (entries ++ [entry b])
        (by simpa using h)
      rw [List.foldlM_cons, hstep b (by simp) entries hname]
      simpa using hrest

-- What lines of keys with their values define, and the entries that they make.
def lineDefinitions (entries : List (String × Value)) : List Definition :=
  entries.map fun (name, v) => ⟨[name], v⟩

def valueEntries (entries : List (String × Value)) : Entries :=
  entries.map fun (name, v) => (name, .value v)

theorem addAll?_lineDefinitions (start : Entries) {entries : List (String × Value)}
    (h : (start.map Prod.fst ++ entries.map Prod.fst).Nodup) :
    Definition.addAll? (lineDefinitions entries) start = some (start ++ valueEntries entries) := by
  rw [Definition.addAll?, lineDefinitions, List.foldlM_map]
  refine foldlM_append (fun entry _ entries hname => ?_) start h
  exact define?_key (lookup_eq_none hname) _

-- Tables with their names, as headers with definitions, and as the entries that these make.
abbrev NamedTables := List (String × List (String × Value))

def tableHeaders (tables : NamedTables) : List (Header × List Definition) :=
  tables.map fun (name, entries) => (⟨false, [name]⟩, lineDefinitions entries)

def tableEntries (tables : NamedTables) : Entries :=
  tables.map fun (name, entries) => (name, .table .header (valueEntries entries))

theorem open?_lineDefinitions {name : String} {entries : List (String × Value)}
    (hkeys : (entries.map Prod.fst).Nodup) {start : Entries} (h : name ∉ start.map Prod.fst) :
    Header.open? ⟨false, [name]⟩ (lineDefinitions entries) start =
      some (start ++ [(name, .table .header (valueEntries entries))]) := by
  have hadd : Definition.addAll? (lineDefinitions entries) [] = some ([] ++ valueEntries entries) :=
    addAll?_lineDefinitions [] (by simpa using hkeys)
  simp [Header.open?, Entries.update?, lookup_eq_none h, hadd]

theorem foldlM_open?_tableHeaders (start : Entries) {tables : NamedTables}
    (hkeys : ∀ table ∈ tables, (table.2.map Prod.fst).Nodup)
    (h : (start.map Prod.fst ++ tables.map Prod.fst).Nodup) :
    (tableHeaders tables).foldlM (fun entries (h, ds) => h.open? ds entries) start =
      some (start ++ tableEntries tables) := by
  rw [tableHeaders, List.foldlM_map]
  refine foldlM_append (fun table htable entries hname => ?_) start h
  exact open?_lineDefinitions (hkeys table htable) hname

theorem entriesToValues_eq_map (entries : Entries) :
    entriesToValues entries = entries.map fun entry => (entry.1, entry.2.toValue) := by
  induction entries with
  | nil => rfl
  | cons entry entries ih => rw [entriesToValues, ih, List.map_cons]

theorem entriesToValues_valueEntries (entries : List (String × Value)) :
    entriesToValues (valueEntries entries) = entries := by
  rw [entriesToValues_eq_map, valueEntries, List.map_map]
  exact List.map_id _

theorem entriesToValues_tableEntries (tables : NamedTables) :
    entriesToValues (tableEntries tables) =
      tables.map fun (name, entries) => (name, .table entries) := by
  rw [entriesToValues_eq_map, tableEntries, List.map_map]
  simp only [Function.comp_def, Node.toValue, entriesToValues_valueEntries]

theorem document?_eq {top : List (String × Value)} {tables : NamedTables}
    (hnames : (top.map Prod.fst ++ tables.map Prod.fst).Nodup)
    (hkeys : ∀ table ∈ tables, (table.2.map Prod.fst).Nodup) :
    document? (lineDefinitions top) (tableHeaders tables) =
      some (.table (top ++ tables.map fun (name, entries) => (name, .table entries))) := by
  have htop : Definition.addAll? (lineDefinitions top) [] = some ([] ++ valueEntries top) :=
    addAll?_lineDefinitions [] (by simpa using (List.nodup_append.mp hnames).1)
  have hopen := foldlM_open?_tableHeaders (valueEntries top) hkeys
    (by simpa [valueEntries, Function.comp_def] using hnames)
  rw [List.nil_append] at htop
  rw [document?, htop]
  simp only [Option.bind_eq_bind, Option.bind_some, hopen, Option.pure_def]
  rw [entriesToValues_eq_map, List.map_append, ← entriesToValues_eq_map, ← entriesToValues_eq_map,
    entriesToValues_valueEntries, entriesToValues_tableEntries]

end Candlestick.Toml
