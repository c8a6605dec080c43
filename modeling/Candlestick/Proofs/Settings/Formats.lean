import Candlestick.Proofs.Json.Compact
import Candlestick.Proofs.Json.Object
import Candlestick.Proofs.Settings.Gates
import Candlestick.Proofs.Settings.Given
import Candlestick.Proofs.Toml.Document

namespace Candlestick

section Records

variable {β V T : Type}

-- The entries of those fields that have something to say.
def present (fields : List (String × Option β)) : List (String × β) :=
  fields.filterMap fun (name, b?) => b?.map fun b => (name, b)

theorem forall_mem_present {fields : List (String × Option β)} {P : String × β → Prop} :
    (∀ entry ∈ present fields, P entry) ↔ ∀ field ∈ fields, ∀ b ∈ field.2, P (field.1, b) := by
  rw [present, List.forall_mem_filterMap]
  refine forall₂_congr fun field _ => ?_
  simp [Option.map_eq_some_iff]

theorem map_fst_present_sublist (fields : List (String × Option β)) :
    ((present fields).map Prod.fst).Sublist (fields.map Prod.fst) := by
  induction fields with
  | nil => exact .slnil
  | cons field fields ih =>
      obtain ⟨name, _ | b⟩ := field
      · exact ih.cons name
      · exact ih.cons_cons name

theorem filter_present {fields : List (String × Option β)} (h : (fields.map Prod.fst).Nodup)
    {name : String} {b? : Option β} (hmem : (name, b?) ∈ fields) :
    (present fields).filter (·.1 = name) = (b?.map fun b => (name, b)).toList := by
  have hother {fields : List (String × Option β)} (hname : name ∉ fields.map Prod.fst) :
      (present fields).filter (·.1 = name) = [] := by
    rw [List.filter_eq_nil_iff, forall_mem_present]
    intro field hfield b _ he
    exact hname (List.mem_map.mpr ⟨field, hfield, by simpa using he⟩)
  induction fields with
  | nil => contradiction
  | cons field fields ih =>
      rw [List.map_cons, List.nodup_cons] at h
      have hfront : (present (field :: fields)).filter (·.1 = name) =
          (present [field]).filter (·.1 = name) ++ (present fields).filter (·.1 = name) := by
        rw [← List.filter_append, present, present, present, ← List.filterMap_append]
        rfl
      rw [hfront]
      rcases List.mem_cons.mp hmem with rfl | hmem
      · rw [hother h.1]
        cases b? <;> simp [present]
      · have hne : field.1 ≠ name := fun he => h.1 (he ▸ List.mem_map_of_mem hmem)
        have hsingle : name ∉ [field].map Prod.fst := by simpa using hne.symm
        rw [hother hsingle, ih h.2 hmem]
        rfl

theorem gives_present {fields : List (String × Option β)} (h : (fields.map Prod.fst).Nodup)
    {name : String} {x? : Option T} {f : T → β} (hmem : (name, x?.map f) ∈ fields)
    (value : β → V) {Means : V → T → Prop} (hmeans : ∀ x ∈ x?, Means (value (f x)) x) :
    Gives ((present fields).map fun (name, b) => (name, value b)) name Means x? := by
  have hfilter : ((present fields).map fun (name, b) => (name, value b)).filter (·.1 = name) =
      (x?.map fun x => (name, value (f x))).toList := by
    have hfield := filter_present h hmem
    rw [List.filter_map]
    simp only [Function.comp_def, hfield]
    cases x? <;> rfl
  cases x? with
  | none => exact hfilter
  | some x => exact ⟨value (f x), hfilter, hmeans x rfl⟩

end Records

-- Counts that TOML has integers for, and numbers that JSON has.
def FitsCount (n? : Option UInt64) : Prop := ∀ n ∈ n?, n.toNat < Toml.integerBound

def FitsReal (x? : Option Float) : Prop := ∀ x ∈ x?, x.isFinite = true

section Arranged

variable {V : Type} [Datum V] (e : Encoding V)

namespace Ema.Given

variable {g : Given}

def Fits (g : Given) : Prop := FitsCount g.period

def fields (g : Given) : List (String × Option Simple) := [("period", g.period.map .count)]

theorem nodup_fields (g : Given) : (g.fields.map Prod.fst).Nodup := by simp [fields]

theorem in_present (g : Given) :
    g.In ((present g.fields).map fun (name, simple) => (name, e.simple simple)) where
  period := gives_present g.nodup_fields (by simp [fields]) e.simple fun n _ => e.count?_count n

end Ema.Given

namespace KeyLevels.Given

variable {g : Given}

def Fits (g : Given) : Prop := FitsCount g.window ∧ FitsReal g.epsilon

def fields (g : Given) : List (String × Option Simple) :=
  [("neighbor_window", g.window.map .count), ("epsilon", g.epsilon.map .real)]

theorem nodup_fields (g : Given) : (g.fields.map Prod.fst).Nodup := by simp [fields]

theorem in_present (h : g.Fits) :
    g.In ((present g.fields).map fun (name, simple) => (name, e.simple simple)) where
  window := gives_present g.nodup_fields (by simp [fields]) e.simple fun n _ => e.count?_count n
  epsilon := gives_present g.nodup_fields (by simp [fields]) e.simple fun x hx =>
    e.real?_real (h.2 x hx)

end KeyLevels.Given

namespace Breakout.Given

variable {g : Given}

def Fits (g : Given) : Prop :=
  FitsCount g.back ∧ FitsCount g.window ∧ FitsCount g.count ∧ FitsReal g.width

def fields (g : Given) : List (String × Option Simple) :=
  [("back_candles", g.back.map .count), ("window", g.window.map .count),
    ("num_candles_for_breakout", g.count.map .count), ("zone_width", g.width.map .real),
    ("zone_price", g.price.map fun p => .text p.name)]

theorem nodup_fields (g : Given) : (g.fields.map Prod.fst).Nodup := by simp [fields]

theorem in_present (h : g.Fits) :
    g.In e ((present g.fields).map fun (name, simple) => (name, e.simple simple)) where
  back := gives_present g.nodup_fields (by simp [fields]) e.simple fun n _ => e.count?_count n
  window := gives_present g.nodup_fields (by simp [fields]) e.simple fun n _ => e.count?_count n
  count := gives_present g.nodup_fields (by simp [fields]) e.simple fun n _ => e.count?_count n
  width := gives_present g.nodup_fields (by simp [fields]) e.simple fun x hx =>
    e.real?_real (h.2.2.2 x hx)
  price := gives_present g.nodup_fields (f := fun p : ZonePrice => .text p.name)
    (by simp [fields]) e.simple fun _ _ => rfl

end Breakout.Given

end Arranged

section Written

-- Values that every format can write.
def Simple.Fits : Simple → Prop
  | text s => IsPlainText s
  | count n => n.toNat < Toml.integerBound
  | real x => x.isFinite = true

theorem Simple.Fits.plain {simple : Simple} (h : simple.Fits) : simple.Plain := by
  cases simple with
  | text s => exact h
  | count n => trivial
  | real x => exact h

theorem Simple.Fits.isSome_renderSimple? {simple : Simple} (h : simple.Fits) :
    (Toml.renderSimple? simple).isSome = true := by
  cases simple with
  | text s => rfl
  | count n =>
      have hn : n.toNat < Toml.integerBound := h
      rw [Toml.renderSimple?, if_pos hn]
      rfl
  | real x => rfl

structure Renderable (fields : List (String × Option Simple)) : Prop where
  bare : ∀ field ∈ fields, IsBareName field.1
  nodup : (fields.map Prod.fst).Nodup
  fits : ∀ field ∈ fields, ∀ simple ∈ field.2, simple.Fits

namespace Renderable

variable {fields : List (String × Option Simple)}

theorem plain_present (h : Renderable fields) : Record.Plain (present fields) where
  bare := forall_mem_present.mpr fun field hfield _ _ => h.bare field hfield
  plain := forall_mem_present.mpr fun field hfield simple hs =>
    (h.fits field hfield simple hs).plain
  nodup := (map_fst_present_sublist fields).nodup h.nodup

theorem isSome_renderRecord? (h : Renderable fields) :
    (Toml.renderRecord? (present fields)).isSome = true := by
  rw [Toml.isSome_renderRecord?, List.all_eq_true]
  exact forall_mem_present.mpr fun field hfield simple hs =>
    (h.fits field hfield simple hs).isSome_renderSimple?

end Renderable

theorem Ema.Given.renderable {g : Given} (h : g.Fits) : Renderable g.fields where
  bare := by simp only [fields, List.forall_mem_cons]; decide
  nodup := g.nodup_fields
  fits := by simpa [fields, Simple.Fits, Fits, FitsCount] using h

theorem KeyLevels.Given.renderable {g : Given} (h : g.Fits) : Renderable g.fields where
  bare := by simp only [fields, List.forall_mem_cons]; decide
  nodup := g.nodup_fields
  fits := by simpa [fields, Simple.Fits, Fits, FitsCount, FitsReal] using h

theorem Breakout.Given.renderable {g : Given} (h : g.Fits) : Renderable g.fields where
  bare := by simp only [fields, List.forall_mem_cons]; decide
  nodup := g.nodup_fields
  fits := by
    simpa [fields, Simple.Fits, ZonePrice.isPlainText_name, Fits, FitsCount, FitsReal] using h

end Written

namespace Settings.Given

section Written

variable {g : Given}

def Fits (g : Given) : Prop :=
  (∀ s ∈ g.ema, s.Fits) ∧ (∀ s ∈ g.keyLevels, s.Fits) ∧ ∀ s ∈ g.breakout, s.Fits

-- The sections that are there, with the fields that are there.
def sections (g : Given) : List (String × Option (List (String × Option Simple))) :=
  [("ema", g.ema.map Ema.Given.fields), ("key_levels", g.keyLevels.map KeyLevels.Given.fields),
    ("breakout", g.breakout.map Breakout.Given.fields)]

def records (g : Given) : List (String × Record) :=
  (present g.sections).map fun (name, fields) => (name, present fields)

theorem nodup_sections (g : Given) : (g.sections.map Prod.fst).Nodup := by simp [sections]

theorem in_records {V : Type} [Datum V] (e : Encoding V) (h : g.Fits) :
    g.In e (g.records.map fun (name, r) => (name, e.ofRecord r)) := by
  obtain ⟨-, hlevels, hbreakout⟩ := h
  have hrecords : (g.records.map fun (name, r) => (name, e.ofRecord r)) =
      (present g.sections).map fun (name, fields) => (name, e.ofRecord (present fields)) := by
    rw [records, List.map_map]
    rfl
  have hgives {T : Type} {name : String} {x? : Option T}
      {f : T → List (String × Option Simple)} (hmem : (name, x?.map f) ∈ g.sections)
      {Means : V → T → Prop} (hmeans : ∀ x ∈ x?, Means (e.ofRecord (present (f x))) x) :
      Gives (g.records.map fun (name, r) => (name, e.ofRecord r)) name Means x? := by
    rw [hrecords]
    exact gives_present g.nodup_sections hmem (fun fields => e.ofRecord (present fields)) hmeans
  refine ⟨hgives (f := Ema.Given.fields) (by simp [sections]) fun s _ => ⟨_, rfl, s.in_present e⟩,
    hgives (f := KeyLevels.Given.fields) (by simp [sections]) fun s hs =>
      ⟨_, rfl, KeyLevels.Given.in_present e (hlevels s hs)⟩,
    hgives (f := Breakout.Given.fields) (by simp [sections]) fun s hs =>
      ⟨_, rfl, Breakout.Given.in_present e (hbreakout s hs)⟩⟩

theorem forall_mem_records {P : String × Record → Prop}
    (h : ∀ s ∈ g.sections, ∀ fields ∈ s.2, P (s.1, present fields)) :
    ∀ table ∈ g.records, P table :=
  List.forall_mem_map.mpr (forall_mem_present.mpr h)

theorem renderable_sections (h : g.Fits) : ∀ s ∈ g.sections, ∀ fields ∈ s.2, Renderable fields := by
  obtain ⟨hema, hlevels, hbreakout⟩ := h
  simp only [sections, List.forall_mem_cons, Option.mem_map, forall_exists_index, and_imp,
    forall_apply_eq_imp_iff₂]
  exact ⟨fun s hs => Ema.Given.renderable (hema s hs),
    fun s hs => KeyLevels.Given.renderable (hlevels s hs),
    fun s hs => Breakout.Given.renderable (hbreakout s hs), by simp⟩

theorem plain_records (h : g.Fits) : (Sheet.tables g.records).Plain := by
  have hbare : ∀ s ∈ g.sections, IsBareName s.1 := by
    simp only [sections, List.forall_mem_cons]
    decide
  refine .tables (forall_mem_records fun s hs _ _ => hbare s hs)
    (forall_mem_records fun s hs fields hfields =>
      (renderable_sections h s hs fields hfields).plain_present) ?_
  · have hnames : g.records.map Prod.fst = (present g.sections).map Prod.fst := by
      rw [records, List.map_map]
      rfl
    rw [hnames]
    exact (map_fst_present_sublist _).nodup g.nodup_sections

theorem exists_renderTables? (h : g.Fits) : ∃ s, Toml.renderTables? g.records = some s := by
  rw [← Option.isSome_iff_exists, Toml.isSome_renderTables?, List.all_eq_true]
  exact forall_mem_records fun s hs fields hfields =>
    (renderable_sections h s hs fields hfields).isSome_renderRecord?

end Written

-- The texts of a format that give just these settings.
def Spelled (g : Given) (text : String) : Format → Prop
  | .json => ∃ entries, Json.DocumentText entries text.toList ∧ g.In Json.encoding entries
  | .toml => ∃ top tables, Toml.DocumentText top tables text.toList ∧
      g.In Toml.encoding (top ++ tables.map fun (name, fields) => (name, .table fields))

variable {g : Given} {text : String} {format : Format}

theorem parse?_of_spelled (h : g.Spelled text format) :
    Part.whole.parse? text format = some g.complete := by
  cases format with
  | json =>
      obtain ⟨entries, htext, hin⟩ := h
      have hread := htext.read?
      rw [String.ofList_toList] at hread
      rw [Part.parse?, hread]
      exact hin.ofDatum? Json.encoding
  | toml =>
      obtain ⟨top, tables, htext, hin⟩ := h
      have hread := htext.read?
      rw [String.ofList_toList] at hread
      rw [Part.parse?, hread]
      exact hin.ofDatum? Toml.encoding

theorem load_of_spelled (h : g.Spelled text format) :
    Part.whole.load text (some format) =
      (Part.whole.check g.complete).map fun _ => g.complete :=
  Part.load_of_read?_eq_some (parse?_of_spelled h)

-- What is written of tables that give the settings, in whatever order and whatever else they hold.
theorem spelled_write {rs : List (String × Record)} (hplain : (Sheet.tables rs).Plain)
    (hin : g.In Json.encoding (rs.map fun (name, r) => (name, Json.encoding.ofRecord r))) :
    g.Spelled (Json.Value.ofSheet (.tables rs)).write .json := by
  refine ⟨_, ?_, hin⟩
  rw [Json.Value.write, String.toList_ofList]
  exact Json.documentText_of_spells (Json.spells_render _ (Json.writable_ofSheet hplain))

theorem spelled_write? {rs : List (String × Record)} (hplain : (Sheet.tables rs).Plain)
    (hin : g.In Toml.encoding (rs.map fun (name, r) => (name, Toml.encoding.ofRecord r)))
    (h : Toml.write? (.tables rs) = some text) : g.Spelled text .toml := by
  obtain ⟨s, hs, rfl⟩ := Option.map_eq_some_iff.mp h
  refine ⟨[], rs.map fun (name, r) => (name, Toml.recordValues r), ?_, ?_⟩
  · rw [String.toList_ofList]
    exact Toml.documentText_renderTables? hplain hs
  · rw [List.nil_append, List.map_map]
    exact hin

theorem exists_spelled (h : g.Fits) (format : Format) : ∃ text, g.Spelled text format := by
  cases format with
  | json => exact ⟨_, spelled_write (plain_records h) (in_records _ h)⟩
  | toml =>
      obtain ⟨s, hs⟩ := exists_renderTables? h
      exact ⟨String.ofList s, spelled_write? (plain_records h) (in_records _ h)
        (congrArg (Option.map String.ofList) hs)⟩

-- Of the fields of the settings, a document gives any, in any order of sections and of fields, and
-- among any other entries. In either format it is loaded as the standard settings with these fields
-- in their places, if those pass their check, and is refused as the first section that fails is if
-- they do not. Every choice of fields is spelled in both formats.
theorem formats_agree (g : Given) :
    (∀ text format, g.Spelled text format →
      (Part.whole.check g.complete = .ok () →
        Part.whole.load text (some format) = .ok g.complete) ∧
      (Part.whole.check g.complete ≠ .ok () → ∃ reason, g.complete.Fails (.invalid reason) ∧
        Part.whole.load text (some format) = .error (.invalid reason))) ∧
      (∀ json toml, g.Spelled json .json → g.Spelled toml .toml →
        Part.whole.load json (some .json) = Part.whole.load toml (some .toml)) ∧
      (g.Fits → ∀ format, ∃ text, g.Spelled text format) := by
  refine ⟨fun text format h => ⟨fun hpass => ?_, fun hfail => ?_⟩, fun json toml hjson htoml => ?_,
    exists_spelled⟩
  · rw [load_of_spelled h, hpass]
    rfl
  · obtain ⟨cause, hcause⟩ := g.complete.check_or_fails.resolve_left hfail
    have hcheck := Settings.fails_iff.mp hcause
    obtain ⟨reason, -, rfl⟩ := Checked.check_eq_error_iff.mp hcheck
    refine ⟨reason, hcause, ?_⟩
    rw [load_of_spelled h, hcheck]
    rfl
  · rw [load_of_spelled hjson, load_of_spelled htoml]

-- A window that is valid by itself, but not with the standard number of candles behind it. Its
-- section stands in front of another, and it stands among entries of other names.
theorem formats_agree_far :
    let g : Given :=
      ⟨some ⟨some 5⟩, none, some ⟨none, some 0x7fffffffffffffff, none, none, some .extreme⟩⟩
    let ema : Record := [("period", .count 5)]
    let breakout : Record := [("zone_price", .text "extreme"), ("depth", .count 2),
      ("window", .count 0x7fffffffffffffff)]
    let sheet : Sheet :=
      .tables [("note", [("window", .count 1)]), ("breakout", breakout), ("ema", ema)]
    ∃ toml, Toml.write? sheet = some toml ∧
      Part.whole.load (Json.Value.ofSheet sheet).write (some .json) =
        Part.whole.load toml (some .toml) ∧
      ∃ reason, g.complete.Fails (.invalid reason) ∧
        Part.whole.load toml (some .toml) = .error (.invalid reason) := by
  intro g ema breakout sheet
  have hplain : sheet.Plain := by
    refine .tables (by simp only [List.forall_mem_cons]; decide) ?_ (by simp)
    simp only [List.forall_mem_cons]
    refine ⟨⟨?_, ?_, by simp⟩, ⟨?_, ?_, by simp [breakout]⟩, ⟨?_, ?_, by simp [ema]⟩, by simp⟩
    all_goals simp only [breakout, ema, List.forall_mem_cons, Simple.Plain]
    all_goals first | decide | simp [(by decide : IsPlainText "extreme")]
  have hin {V : Type} [Datum V] (e : Encoding V) :
      g.In e [("note", e.ofRecord [("window", .count 1)]), ("breakout", e.ofRecord breakout),
        ("ema", e.ofRecord ema)] := by
    have hema : Ema.Given.In ⟨some 5⟩ (ema.map fun (name, simple) => (name, e.simple simple)) :=
      ⟨⟨_, rfl, e.count?_count 5⟩⟩
    have hbreakout : Breakout.Given.In e ⟨none, some 0x7fffffffffffffff, none, none, some .extreme⟩
        (breakout.map fun (name, simple) => (name, e.simple simple)) :=
      ⟨rfl, ⟨_, rfl, e.count?_count _⟩, rfl, rfl, ⟨_, rfl, rfl⟩⟩
    exact ⟨⟨e.ofRecord ema, rfl, _, rfl, hema⟩, rfl, ⟨e.ofRecord breakout, rfl, _, rfl, hbreakout⟩⟩
  obtain ⟨toml, htoml⟩ : ∃ toml, Toml.write? sheet = some toml := ⟨_, rfl⟩
  have hjson := spelled_write hplain (hin _)
  have htext := spelled_write? hplain (hin _) htoml
  have hfail : Part.whole.check g.complete ≠ .ok () := by
    intro hpass
    have hvalid := ((Part.check_whole_eq_ok_iff g.complete).mp hpass).2.2
    exact absurd hvalid.2.2.1 (by decide)
  obtain ⟨hanswer, hagree, -⟩ := formats_agree g
  exact ⟨toml, htoml, hagree _ _ hjson htext, (hanswer _ _ htext).2 hfail⟩

end Settings.Given

end Candlestick
