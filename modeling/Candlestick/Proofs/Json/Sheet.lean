import Candlestick.Json.Sheet
import Candlestick.Proofs.Decimal.Shortest
import Candlestick.Proofs.Json.Written
import Candlestick.Proofs.Sheet

namespace Candlestick.Json

open Decimal

theorem exists_ofDouble_eq {x : Float} (h : x.isFinite = true) :
    ∃ n : Numeral, Value.ofDouble x = .number n ∧ IsWhole n.whole ∧ n.toDouble = x := by
  obtain ⟨negative, magnitude, hcontent, -, hwhole, hx⟩ := Style.document.toDouble_numeral h
  exact ⟨_, by rw [Value.ofDouble, hcontent], hwhole, hx⟩

theorem real?_ofDouble {x : Float} (h : x.isFinite = true) : (Value.ofDouble x).real? = some x := by
  obtain ⟨n, hn, -, hx⟩ := exists_ofDouble_eq h
  rw [hn, Value.real?, hx]
  simp [h]

theorem count?_ofNat (n : UInt64) : (Value.ofNat n.toNat).count? = some n := by
  have hn := n.toNat_lt
  have hsignificand : (Numeral.ofNat n.toNat).significand = n.toNat := by
    rw [Numeral.significand, Numeral.ofNat, List.append_nil, ofDigits_digits]
  have hsize : n.toNat < UInt64.size := hn
  rw [Value.ofNat, Value.count?, Numeral.count?, hsignificand]
  simp [Numeral.isWhole, Numeral.ofNat, hsize]

-- A member with its name, which is there.
def member (entry : String × Value) : Text × Value := (some entry.1, entry.2)

theorem mapM_member (entries : List (String × Value)) :
    (entries.map member).mapM (fun (m : Text × Value) => m.1.bind fun name => some (name, m.2)) =
      some entries := by
  induction entries with
  | nil => rfl
  | cons entry entries ih =>
      rw [List.map_cons, List.mapM_cons, ih]
      rfl

theorem fields?_record (size : Nat) (entries : List (String × Value)) :
    (Value.record entries).fields? size = some (.named entries) := by
  have hfields : (Value.record entries).fields? size =
      ((entries.map member).mapM fun (m : Text × Value) =>
        m.1.bind fun name => some (name, m.2)).bind fun named => some (.named named) := rfl
  rw [hfields, mapM_member]
  rfl

def encoding : Encoding Value where
  simple := Value.ofSimple
  record := Value.record
  label?_text _ := rfl
  count?_count := count?_ofNat
  real?_real := real?_ofDouble
  fields?_record := fields?_record

theorem ofSheet_encoding (sheet : Sheet) : encoding.ofSheet sheet = Value.ofSheet sheet := by
  cases sheet <;> rfl

theorem writable_ofSimple {simple : Simple} (h : simple.Plain) :
    Writable (Value.ofSimple simple) := by
  cases simple with
  | text s => exact rfl
  | count n => exact isWhole_digits _
  | real x =>
      obtain ⟨n, hn, hwhole, -⟩ := exists_ofDouble_eq h
      rw [Value.ofSimple, hn]
      exact hwhole

theorem writable_record {entries : List (String × Value)}
    (h : ∀ entry ∈ entries, Writable entry.2) : Writable (Value.record entries) := by
  rw [Value.record, Writable]
  induction entries with
  | nil => trivial
  | cons entry entries ih =>
      exact ⟨rfl, h entry (by simp), ih fun other hother => h other (by simp [hother])⟩

theorem writable_ofRecord {r : Record} (h : r.Plain) : Writable (Value.ofRecord r) := by
  apply writable_record
  rintro _ hentry
  obtain ⟨field, hfield, rfl⟩ := List.mem_map.mp hentry
  exact writable_ofSimple (h.plain field hfield)

theorem writable_ofSheet {sheet : Sheet} (h : sheet.Plain) : Writable (Value.ofSheet sheet) := by
  cases h with
  | single hr => exact writable_ofRecord hr
  | tables _ plain _ =>
      apply writable_record
      rintro _ hentry
      obtain ⟨table, htable, rfl⟩ := List.mem_map.mp hentry
      exact writable_ofRecord (plain table htable)

theorem read?_writePretty_ofSheet {sheet : Sheet} (h : sheet.Plain) :
    read? (Value.ofSheet sheet).writePretty = some (encoding.ofSheet sheet) := by
  rw [read?_writePretty (writable_ofSheet h), ofSheet_encoding]

end Candlestick.Json
