import Candlestick.Instant.Reader
import Candlestick.Instant.Text
import Candlestick.Proofs.Decimal.Digits
import Candlestick.Proofs.Instant.Calendar

namespace Candlestick.Instant

open Decimal Text

-- The clock of UTC shows a moment at that moment.
theorem ofUnix?_self (t : Instant) : ofUnix? t.seconds t.nanos = some t :=
  dif_pos ⟨t.seconds_ge, t.seconds_le, t.nanos_lt, t.leap⟩

theorem hour_lt (t : Instant) : t.hour < 24 := by
  unfold hour secondOfDay
  omega

theorem minute_lt (t : Instant) : t.minute < 60 := Nat.mod_lt _ (by decide)

theorem second_le (t : Instant) : t.second ≤ 60 := by
  have hnanos := t.nanos_lt
  have hleap := t.leap
  unfold second secondOfDay nanosPerSecond at *
  omega

theorem fraction_lt (t : Instant) : t.fraction < nanosPerSecond := Nat.mod_lt _ (by decide)

theorem ofClock?_clock (t : Instant) :
    ofClock? t.date t.hour t.minute t.second t.fraction 0 = some t := by
  have hvalid : t.date.Valid ∧ t.hour < 24 ∧ t.minute < 60 ∧ t.second ≤ 60 ∧
      t.fraction < nanosPerSecond :=
    ⟨Date.valid_ofDays _, t.hour_lt, t.minute_lt, t.second_le, t.fraction_lt⟩
  have hdays : t.date.toDays = t.seconds / 86400 := Date.toDays_ofDays _
  have hnanos := t.nanos_lt
  have hleap := t.leap
  have hseconds : 86400 * t.date.toDays + (3600 * t.hour + 60 * t.minute +
      ((if t.second = 60 then 59 else t.second : Nat) : Int)) = t.seconds := by
    rw [hdays]
    unfold second minute hour secondOfDay nanosPerSecond at *
    split <;> omega
  have hshown : (if t.second = 60 then nanosPerSecond + t.fraction else t.fraction) = t.nanos := by
    unfold second fraction secondOfDay nanosPerSecond at *
    split <;> omega
  rw [ofClock?, if_pos hvalid]
  simp only [hshown, hseconds, ofUnix?_self, Option.bind_eq_bind, Option.bind_some, Int.sub_zero]

-- What follows a blank that the reader would skip.
def EndsBlanks (rest : List Char) : Prop := ∀ c ∈ rest.head?, isBlank c = false

theorem isBlank_char (d : Digit) : isBlank d.char = false := by
  revert d
  decide

theorem endsBlanks_cons {c : Char} {rest : List Char} (h : isBlank c = false) :
    EndsBlanks (c :: rest) := by
  simpa [EndsBlanks] using h

theorem endsBlanks_chars_append {ds : List Digit} (h : ds ≠ []) (rest : List Char) :
    EndsBlanks (chars ds ++ rest) := by
  obtain ⟨d, ds, rfl⟩ := List.exists_cons_of_ne_nil h
  exact endsBlanks_cons (isBlank_char d)

theorem endsBlanks_twoDigits_append (n : Nat) (rest : List Char) :
    EndsBlanks (twoDigits n ++ rest) :=
  endsBlanks_chars_append (by simp [lastDigits]) rest

theorem EndsBlanks.skipBlanks_eq {rest : List Char} (h : EndsBlanks rest) :
    skipBlanks rest = rest := by
  cases rest with
  | nil => rfl
  | cons c rest =>
      have hc : isBlank c = false := h c rfl
      simp [skipBlanks, hc]

namespace Scan

theorem run_bind_of_run {β γ : Type} {p : Scan β} {f : β → Scan γ} {s rest : List Char} {x : β}
    (h : p.run s = some (x, rest)) : (p >>= f).run s = (f x).run rest := by
  rw [StateT.run_bind, h]
  rfl

theorem run_blanks {s : List Char} (h : EndsBlanks s) : blanks.run s = some ((), s) := by
  have hrun : blanks.run s = some ((), skipBlanks s) := rfl
  rw [hrun, h.skipBlanks_eq]

theorem run_expect (c : Char) (rest : List Char) :
    (expect c).run (c :: rest) = some ((), rest) := by
  simp [expect]

theorem run_separator {c : Char} (hc : isBlank c = false) {rest : List Char} (h : EndsBlanks rest) :
    (separator c).run (c :: rest) = some ((), rest) := by
  rw [separator, run_bind_of_run (run_blanks (endsBlanks_cons hc)),
    run_bind_of_run (run_expect c rest), run_blanks h]

theorem run_number {width : Nat} {ds : List Digit} (hne : ds ≠ []) (hle : ds.length ≤ width)
    {rest : List Char} (h : EndsDigits rest) :
    (number width).run (chars ds ++ rest) = some (ofDigits ds, rest) := by
  simp [number, takeDigits_chars_append ds h, hne, List.take_of_length_le hle,
    List.drop_of_length_le hle]
  rfl

theorem run_twoDigits {n : Nat} (hn : n < 100) {rest : List Char} (h : EndsDigits rest) :
    (number 2).run (twoDigits n ++ rest) = some (n, rest) := by
  rw [twoDigits, run_number (by simp [lastDigits]) (by simp) h,
    ofDigits_lastDigits (by simpa using hn)]

theorem run_get (s : List Char) : (get : Scan (List Char)).run s = some (s, s) := rfl

theorem run_set (s t : List Char) : (set t : Scan PUnit).run s = some (⟨⟩, t) := rfl

theorem run_year_minus {ds : List Digit} (hne : ds ≠ []) {rest : List Char} (h : EndsDigits rest) :
    year.run ('-' :: (chars ds ++ rest)) = some (-(ofDigits ds : Int), rest) := by
  have hlength : ds.length ≤ (chars ds ++ rest).length := by simp [chars]
  rw [year, run_bind_of_run (run_blanks (endsBlanks_cons (by decide))),
    run_bind_of_run (run_get _)]
  simp only
  rw [run_bind_of_run (run_set _ _), run_bind_of_run (run_number hne hlength h)]
  rfl

theorem run_year_plus {ds : List Digit} (hne : ds ≠ []) {rest : List Char} (h : EndsDigits rest) :
    year.run ('+' :: (chars ds ++ rest)) = some ((ofDigits ds : Int), rest) := by
  have hlength : ds.length ≤ (chars ds ++ rest).length := by simp [chars]
  rw [year, run_bind_of_run (run_blanks (endsBlanks_cons (by decide))),
    run_bind_of_run (run_get _)]
  simp only
  rw [run_bind_of_run (run_set _ _), run_bind_of_run (run_number hne hlength h)]
  rfl

theorem run_year_unsigned {ds : List Digit} (hne : ds ≠ []) (hfour : ds.length ≤ 4)
    {rest : List Char} (h : EndsDigits rest) :
    year.run (chars ds ++ rest) = some ((ofDigits ds : Int), rest) := by
  have hnumber := run_number hne hfour h
  rw [year, run_bind_of_run (run_blanks (endsBlanks_chars_append hne rest)),
    run_bind_of_run (run_get _)]
  obtain ⟨d, ds, rfl⟩ := List.exists_cons_of_ne_nil hne
  have hminus : d.char ≠ '-' := d.char_ne (by decide)
  have hplus : d.char ≠ '+' := d.char_ne (by decide)
  split
  · rename_i heq
    exact absurd (List.cons.inj heq).1 hminus
  · rename_i heq
    exact absurd (List.cons.inj heq).1 hplus
  · rw [run_bind_of_run hnumber]
    rfl

-- A year of four digits stands without a sign, any other with one.
theorem run_year (y : Int) {rest : List Char} (h : EndsDigits rest) :
    year.run (yearText y ++ rest) = some (y, rest) := by
  have hpadded := padded_ne_nil 4 y.natAbs
  rw [yearText, List.append_assoc]
  by_cases hneg : y < 0
  · have habs : -(y.natAbs : Int) = y := by omega
    rw [if_pos hneg, List.singleton_append, run_year_minus hpadded h, ofDigits_padded, habs]
  have habs : (y.natAbs : Int) = y := by omega
  rw [if_neg hneg]
  by_cases hlarge : 9999 < y
  · rw [if_pos hlarge, List.singleton_append, run_year_plus hpadded h, ofDigits_padded, habs]
  · have hfour : (padded 4 y.natAbs).length ≤ 4 := length_padded_le (by decide) (by omega)
    rw [if_neg hlarge, List.nil_append, run_year_unsigned hpadded hfour h, ofDigits_padded, habs]

theorem run_calendarDate (t : Instant) {rest : List Char} (h : EndsDigits rest) :
    calendarDate.run (t.dateText ++ rest) = some (t.date, rest) := by
  have hvalid : t.date.Valid := Date.valid_ofDays (t.seconds / 86400)
  have hmonth : t.date.month < 100 := Nat.lt_of_le_of_lt hvalid.2.1 (by decide)
  have hday : t.date.day < 100 :=
    Nat.lt_of_le_of_lt (hvalid.2.2.2.trans (Date.daysInMonth_le _ _)) (by decide)
  rw [dateText]
  simp only [List.append_assoc, List.cons_append]
  rw [calendarDate, run_bind_of_run (run_year _ (endsDigits_cons (by decide))),
    run_bind_of_run (run_separator (by decide) (endsBlanks_twoDigits_append _ _)),
    run_bind_of_run (run_twoDigits hmonth (endsDigits_cons (by decide))),
    run_bind_of_run (run_separator (by decide) (endsBlanks_twoDigits_append _ _)),
    run_bind_of_run (run_twoDigits hday h)]
  rfl

-- The nanoseconds that some digits after the point stand for.
theorem run_nanoseconds_point {ds : List Digit} (hne : ds ≠ []) {rest : List Char}
    (h : EndsDigits rest) :
    nanoseconds.run ('.' :: (chars ds ++ rest)) =
      some (ofDigits ((ds ++ List.replicate 9 Digit.zero).take 9), rest) := by
  rw [nanoseconds, run_bind_of_run (run_get _)]
  simp [takeDigits_chars_append ds h, hne]

-- A fraction of fewer than nine digits is one of nine with zeros at the end.
theorem run_nanoseconds_lastDigits {width m : Nat} (hpos : 0 < width) (hle : width ≤ 9)
    (hm : m < 10 ^ width) {rest : List Char} (h : EndsDigits rest) :
    nanoseconds.run ('.' :: chars (lastDigits width m) ++ rest) =
      some (m * 10 ^ (9 - width), rest) := by
  have hne : lastDigits width m ≠ [] := by
    rw [← List.length_pos_iff, length_lastDigits]
    exact hpos
  have htake : (lastDigits width m ++ List.replicate 9 Digit.zero).take 9 =
      lastDigits width m ++ List.replicate (9 - width) Digit.zero := by
    rw [List.take_append, List.take_of_length_le (by simpa using hle), length_lastDigits,
      List.take_replicate]
    congr 2
    omega
  rw [List.cons_append, run_nanoseconds_point hne h, htake, ofDigits_append,
    ofDigits_lastDigits hm, ofDigits_replicate_zero, List.length_replicate, Nat.add_zero]

theorem run_nanoseconds {n : Nat} (hn : n < nanosPerSecond) :
    nanoseconds.run (fractionText n ++ ['Z']) = some (n, ['Z']) := by
  have hz : EndsDigits ['Z'] := endsDigits_cons (by decide)
  have hbound : n < 1000000000 := hn
  rw [fractionText]
  split
  · subst n
    rfl
  split
  · rw [run_nanoseconds_lastDigits (by decide) (by decide) (by omega) hz]
    congr 2
    omega
  split
  · rw [run_nanoseconds_lastDigits (by decide) (by decide) (by omega) hz]
    congr 2
    omega
  · rw [run_nanoseconds_lastDigits (by decide) (by decide) (by omega) hz]
    congr 2
    omega

theorem endsDigits_fractionText (n : Nat) : EndsDigits (fractionText n ++ ['Z']) := by
  rw [fractionText]
  split
  · exact endsDigits_cons (by decide)
  split
  · exact endsDigits_cons (by decide)
  split <;> exact endsDigits_cons (by decide)

theorem run_offset_utc : offset.run ['Z'] = some (0, []) := rfl

theorem run_moment (t : Instant) :
    moment.run (t.dateText ++ 'T' :: (t.clockText ++ ['Z'])) = some (t, []) := by
  have hhour : t.hour < 100 := Nat.lt_trans t.hour_lt (by decide)
  have hminute : t.minute < 100 := Nat.lt_trans t.minute_lt (by decide)
  have hsecond : t.second < 100 := Nat.lt_of_le_of_lt t.second_le (by decide)
  rw [clockText]
  simp only [List.append_assoc, List.cons_append]
  rw [moment, run_bind_of_run (run_calendarDate t (endsDigits_cons (by decide))),
    run_bind_of_run (run_get _)]
  simp only
  rw [run_bind_of_run (run_set _ _),
    run_bind_of_run (run_blanks (endsBlanks_twoDigits_append _ _)),
    run_bind_of_run (run_twoDigits hhour (endsDigits_cons (by decide))),
    run_bind_of_run (run_separator (by decide) (endsBlanks_twoDigits_append _ _)),
    run_bind_of_run (run_twoDigits hminute (endsDigits_cons (by decide))),
    run_bind_of_run (run_separator (by decide) (endsBlanks_twoDigits_append _ _)),
    run_bind_of_run (run_twoDigits hsecond (endsDigits_fractionText _)),
    run_bind_of_run (run_nanoseconds t.fraction_lt),
    run_bind_of_run (run_blanks (endsBlanks_cons (by decide))), run_bind_of_run run_offset_utc,
    run_bind_of_run (run_blanks (by simp [EndsBlanks])), ofClock?_clock]
  rfl

end Scan

theorem ofText?_stamp (t : Instant) : ofText? t.stamp = some t := by
  have hmoment := Scan.run_moment t
  rw [ofText?, stamp, String.toList_ofList]
  simp only [List.append_assoc, List.cons_append, hmoment]
  rfl

end Candlestick.Instant
