import Candlestick.Proofs.Decimal.Shortest
import Candlestick.Proofs.Toml.Lines
import Candlestick.Toml.Writer

namespace Candlestick.Toml

open Decimal

def Value.ofSimple : Simple → Value
  | .text s => .text s
  | .count n => .integer n.toNat
  | .real x => .real x

def encoding : Encoding Value where
  simple := Value.ofSimple
  record := .table
  label?_text _ := rfl
  count?_count n := by simp [Datum.count?, Value.ofSimple, Value.count?]
  real?_real _ := rfl
  fields?_record _ _ := rfl

theorem readsAs_of_renderSimple? {simple : Simple} (hplain : simple.Plain) {s : List Char}
    (h : renderSimple? simple = some s) : ReadsAs (Value.ofSimple simple) s := by
  cases simple with
  | text t =>
      obtain rfl := Option.some.inj h
      exact readsAs_text hplain
  | count n =>
      obtain ⟨hn, hs⟩ := Option.ite_none_right_eq_some.mp h
      obtain rfl := Option.some.inj hs
      rw [← Numeral.render_ofNat false]
      apply readsAs_numeral (isWhole_digits _) rfl
      rw [Numeral.render_ofNat]
      exact Literal.plain?_natText hn
  | real x =>
      obtain rfl := Option.some.inj h
      obtain ⟨negative, magnitude, hcontent, -, hwhole, hx⟩ := Style.setting.toDouble_numeral hplain
      obtain ⟨hfraction, hexponent⟩ := Style.setting_numeral negative magnitude
      have hrender : Style.setting.render x =
          (Style.setting.numeral negative magnitude).render false := by
        rw [Style.render, hcontent]
        rfl
      have hinf : x.isInf = false := isInf_eq_false_of_isFinite hplain
      have hv := Literal.plain?_render hwhole hfraction hexponent (hx.symm ▸ hinf)
      rw [hx] at hv
      rw [hrender]
      exact readsAs_numeral hwhole hexponent hv

-- The entries of a record.
def recordValues (r : Record) : List (String × Value) :=
  r.map fun (name, simple) => (name, Value.ofSimple simple)

theorem map_fst_recordValues (r : Record) : (recordValues r).map Prod.fst = r.map Prod.fst := by
  rw [recordValues, List.map_map]
  rfl

section Lines

variable {s : List Char} {name : String} {top : List (String × Value)} {tables : NamedTables}

theorem endsLine_newLine (s : List Char) : EndsLine ['\n'] s :=
  ⟨[], [], ['\n'], rfl, by simp [AllBlank], .inl rfl, .inl rfl⟩

theorem allBlank_space : AllBlank [' '] := by simp [AllBlank, Quoted.isBlank]

theorem LinesText.record {r : Record} (hbare : ∀ field ∈ r, IsBareName field.1)
    (hplain : ∀ field ∈ r, field.2.Plain) {t : List Char} (ht : renderRecord? r = some t)
    (h : LinesText top tables s) : LinesText (recordValues r ++ top) tables (t ++ s) := by
  induction r generalizing t with
  | nil =>
      obtain rfl := Option.some.inj ht
      exact h
  | cons field r ih =>
      obtain ⟨name, simple⟩ := field
      simp only [renderRecord?, Option.bind_eq_bind, Option.bind_eq_some_iff, Option.pure_def,
        Option.some.injEq] at ht
      obtain ⟨text, htext, lines, hlines, rfl⟩ := ht
      have hrest := ih (fun f hf => hbare f (by simp [hf])) (fun f hf => hplain f (by simp [hf]))
        hlines
      have hline := hrest.entry allBlank_nil
        (spellsKey_of_isBareName (hbare (name, simple) (by simp))) allBlank_space allBlank_space
        (readsAs_of_renderSimple? (hplain (name, simple) (by simp)) htext) (endsLine_newLine _)
      simpa [recordValues] using hline

theorem LinesText.table {r : Record} (hr : r.Plain) (hname : IsBareName name) {t : List Char}
    (ht : renderTable? name r = some t) (h : LinesText [] tables s) :
    LinesText [] ((name, recordValues r) :: tables) (t ++ s) := by
  simp only [renderTable?, Option.bind_eq_bind, Option.bind_eq_some_iff, Option.pure_def,
    Option.some.injEq] at ht
  obtain ⟨lines, hlines, rfl⟩ := ht
  have hrecord := h.record hr.bare hr.plain hlines
  rw [List.append_nil] at hrecord
  simpa using hrecord.header allBlank_nil allBlank_nil (spellsKey_of_isBareName hname) allBlank_nil
    (endsLine_newLine _)

theorem linesText_tables {rs : List (String × Record)} (hbare : ∀ table ∈ rs, IsBareName table.1)
    (hplain : ∀ table ∈ rs, table.2.Plain) {t : List Char} (ht : renderTables? rs = some t) :
    LinesText [] (rs.map fun (name, r) => (name, recordValues r)) t := by
  induction rs using renderTables?.induct generalizing t with
  | case1 =>
      obtain rfl := Option.some.inj ht
      exact .nil
  | case2 name r =>
      have htable := LinesText.nil.table (hplain (name, r) (by simp))
        (hbare (name, r) (by simp)) ht
      rwa [List.append_nil] at htable
  | case3 name r rest hne ih =>
      rw [renderTables?.eq_3 name r rest hne] at ht
      simp only [Option.bind_eq_bind, Option.bind_eq_some_iff, Option.pure_def,
        Option.some.injEq] at ht
      obtain ⟨table, htable, tables, htables, rfl⟩ := ht
      have hrest := ih (fun x hx => hbare x (by simp [hx])) (fun x hx => hplain x (by simp [hx]))
        htables
      exact (hrest.blank (endsLine_newLine _)).table (hplain (name, r) (by simp))
        (hbare (name, r) (by simp)) htable

end Lines

theorem documentText_renderRecord? {r : Record} (hr : r.Plain) {s : List Char}
    (hs : renderRecord? r = some s) : DocumentText (recordValues r) [] s where
  lines := by simpa using LinesText.nil.record hr.bare hr.plain hs
  names_nodup := by simpa [map_fst_recordValues] using hr.nodup
  keys_nodup := by simp

theorem documentText_renderTables? {rs : List (String × Record)} (hrs : (Sheet.tables rs).Plain)
    {s : List Char} (hs : renderTables? rs = some s) :
    DocumentText [] (rs.map fun (name, r) => (name, recordValues r)) s := by
  cases hrs with
  | tables bare plain nodup =>
      refine ⟨linesText_tables bare plain hs, by simpa [Function.comp_def] using nodup, ?_⟩
      rintro _ htable
      obtain ⟨⟨name, r⟩, hr, rfl⟩ := List.mem_map.mp htable
      rw [map_fst_recordValues]
      exact (plain _ hr).nodup

-- What is written reads back as the tables of the sheet.
theorem read?_write? {sheet : Sheet} (hplain : sheet.Plain) {text : String}
    (h : write? sheet = some text) : read? text = some (encoding.ofSheet sheet) := by
  obtain ⟨s, hs, rfl⟩ := Option.map_eq_some_iff.mp h
  cases sheet with
  | single r =>
      cases hplain with
      | single hr =>
          rw [(documentText_renderRecord? hr hs).read?, List.map_nil, List.append_nil]
          rfl
  | tables rs =>
      rw [(documentText_renderTables? hplain hs).read?, List.nil_append, List.map_map]
      rfl

section Shape

-- How a written document begins.
theorem exists_of_renderRecord?_cons {name : String} {simple : Simple} {r : Record} {s : List Char}
    (h : renderRecord? ((name, simple) :: r) = some s) : ∃ rest, s = name.toList ++ rest := by
  simp only [renderRecord?, Option.bind_eq_bind, Option.bind_eq_some_iff, Option.pure_def,
    Option.some.injEq] at h
  obtain ⟨text, -, lines, -, rfl⟩ := h
  exact ⟨_, by rw [List.append_assoc, List.append_assoc]⟩

theorem exists_of_renderTable? {name : String} {r : Record} {s : List Char}
    (h : renderTable? name r = some s) : ∃ rest, s = '[' :: (name.toList ++ rest) := by
  simp only [renderTable?, Option.bind_eq_bind, Option.bind_eq_some_iff, Option.pure_def,
    Option.some.injEq] at h
  obtain ⟨lines, -, rfl⟩ := h
  exact ⟨_, by rw [List.cons_append, List.cons_append, List.append_assoc]⟩

theorem exists_of_renderTables?_cons {name : String} {r : Record} {rs : List (String × Record)}
    {s : List Char} (h : renderTables? ((name, r) :: rs) = some s) :
    ∃ rest, s = '[' :: (name.toList ++ rest) := by
  cases rs with
  | nil => exact exists_of_renderTable? h
  | cons other rs =>
      rw [renderTables?.eq_3 name r _ (by simp)] at h
      simp only [Option.bind_eq_bind, Option.bind_eq_some_iff, Option.pure_def,
        Option.some.injEq] at h
      obtain ⟨table, htable, tables, -, rfl⟩ := h
      obtain ⟨rest, rfl⟩ := exists_of_renderTable? htable
      exact ⟨_, by rw [List.cons_append, List.append_assoc]⟩

-- A document can be written if each of its values can.
theorem isSome_renderRecord? (r : Record) :
    (renderRecord? r).isSome = r.all fun field => (renderSimple? field.2).isSome := by
  induction r with
  | nil => rfl
  | cons field r ih =>
      rw [List.all_cons, ← ih, renderRecord?]
      cases renderSimple? field.2 <;> cases renderRecord? r <;> rfl

theorem isSome_renderTable? (name : String) (r : Record) :
    (renderTable? name r).isSome = (renderRecord? r).isSome := by
  rw [renderTable?]
  cases renderRecord? r <;> rfl

theorem isSome_renderTables? (rs : List (String × Record)) :
    (renderTables? rs).isSome = rs.all fun table => (renderRecord? table.2).isSome := by
  induction rs using renderTables?.induct with
  | case1 => rfl
  | case2 name r => simp [renderTables?, isSome_renderTable?]
  | case3 name r rest hne ih =>
      rw [renderTables?.eq_3 name r rest hne, List.all_cons, ← ih, ← isSome_renderTable? name]
      cases renderTable? name r <;> cases renderTables? rest <;> rfl

end Shape

end Candlestick.Toml
