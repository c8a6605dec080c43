import Candlestick.Json.Records
import Candlestick.Proofs.Decimal.Double
import Candlestick.Proofs.Instant.Stamp
import Candlestick.Proofs.Json.Compact
import Candlestick.Proofs.Json.Sheet
import Mathlib.Data.List.Forall2

namespace Candlestick

open Json (Value Spells Writable)

namespace Json

-- The values that show a record: its fields under their names, in any order and among other
-- members, or in their places.
inductive Shows (fields : List (String × Value)) : Value → Prop where
  | named {entries : List (String × Value)}
      (h : (entries.filter fun e => e.1 ∈ fields.map Prod.fst).Perm fields) :
      Shows fields (.record entries)
  | placed : Shows fields (.array (fields.map Prod.snd))

theorem shows_record (fields : List (String × Value)) : Shows fields (.record fields) := by
  apply Shows.named
  rw [List.filter_eq_self.mpr fun e he => by simpa using ⟨e.2, he⟩]

theorem filter_name_eq {fields : List (String × Value)} (hnodup : (fields.map Prod.fst).Nodup)
    {name : String} {value : Value} (h : (name, value) ∈ fields) :
    fields.filter (·.1 = name) = [(name, value)] := by
  induction fields with
  | nil => simp at h
  | cons field rest ih =>
      obtain ⟨hnew, hnodup⟩ := List.nodup_cons.mp hnodup
      rcases List.mem_cons.mp h with rfl | hrest
      · have hnone : rest.filter (·.1 = name) = [] := by
          rw [List.filter_eq_nil_iff]
          rintro ⟨other, v⟩ hother heq
          obtain rfl : other = name := by simpa using heq
          exact hnew (List.mem_map.mpr ⟨_, hother, rfl⟩)
        rw [List.filter_cons_of_pos (by simp), hnone]
      · have hne : field.1 ≠ name := by
          rintro rfl
          exact hnew (List.mem_map.mpr ⟨_, hrest, rfl⟩)
        rw [List.filter_cons_of_neg (by simpa using hne), ih hnodup hrest]

-- Other members do not stand in the way of a field, and no order does.
theorem filter_name_eq_of_perm {fields entries : List (String × Value)}
    (h : (entries.filter fun e => e.1 ∈ fields.map Prod.fst).Perm fields)
    (hnodup : (fields.map Prod.fst).Nodup) {name : String} {value : Value}
    (hmem : (name, value) ∈ fields) : entries.filter (·.1 = name) = [(name, value)] := by
  have hinner : entries.filter (·.1 = name) =
      (entries.filter fun e => e.1 ∈ fields.map Prod.fst).filter (·.1 = name) := by
    rw [List.filter_filter]
    apply List.filter_congr
    rintro ⟨other, v⟩ -
    by_cases hother : other = name
    · subst hother
      simpa using ⟨value, hmem⟩
    · simp [hother]
  have hperm := h.filter (·.1 = name)
  rw [← hinner, filter_name_eq hnodup hmem] at hperm
  exact List.perm_singleton.mp hperm

-- A record that is shown has each field once, for whatever reads it.
theorem Shows.exists_fields? {fields : List (String × Value)} {v : Value} (h : Shows fields v)
    (hnodup : (fields.map Prod.fst).Nodup) :
    ∃ given : Fields Value, v.fields? fields.length = some given ∧
      ∀ {T : Type} {name : String} {value : Value} (place : Nat),
        fields[place]? = some (name, value) → ∀ read? : Value → Option T,
          given.required place name read? = read? value := by
  cases h with
  | placed =>
      refine ⟨.placed (fields.map Prod.snd), by simp [Value.fields?], ?_⟩
      intro T name value place hplace read?
      simp [Fields.required, Fields.value?, hplace]
  | @named entries h =>
      refine ⟨.named entries, fields?_record _ _, ?_⟩
      intro T name value place hplace read?
      have hentries := filter_name_eq_of_perm h hnodup (List.mem_of_getElem? hplace)
      simp [Fields.required, Fields.value?, hentries]

theorem ofDouble_of_not_isFinite {x : Float} (h : x.isFinite = false) :
    Value.ofDouble x = .null := by
  rw [Value.ofDouble]
  split
  · rename_i heq
    exact absurd heq (Decimal.ofDouble_ne_finite h _ _)
  · rfl
  · rfl

theorem real?_ofDouble_eq (x : Float) :
    (Value.ofDouble x).real? = if x.isFinite then some x else none := by
  cases h : x.isFinite with
  | true => exact real?_ofDouble h
  | false =>
      rw [ofDouble_of_not_isFinite h]
      rfl

@[simp] theorem writable_ofString (s : String) : Writable (Value.ofString s) := rfl

@[simp] theorem writable_ofDouble (x : Float) : Writable (Value.ofDouble x) := by
  cases h : x.isFinite with
  | true =>
      obtain ⟨n, hn, hwhole, -⟩ := exists_ofDouble_eq h
      rw [hn]
      exact hwhole
  | false =>
      rw [ofDouble_of_not_isFinite h]
      trivial

theorem writable_array {items : List Value} (h : ∀ v ∈ items, Writable v) :
    Writable (.array items) := by
  rw [Writable]
  induction items with
  | nil => trivial
  | cons v rest ih => exact ⟨h v (by simp), ih fun w hw => h w (by simp [hw])⟩

theorem ite_some_bind {T U : Type} (p : Prop) [Decidable p] (x : T) (f : T → Option U) :
    (if p then some x else none).bind f = if p then f x else none := by
  split <;> rfl

-- How a type stands in documents: what is written shows its value, and whatever shows a value
-- whose numbers are finite is read as that value. Where a number is not finite there is a null, and
-- nothing is read.
structure Lawful {T : Type} (write : T → Value) (read? : Value → Option T) (finite : T → Bool)
    (Shown : T → Value → Prop) : Prop where
  shown (x : T) : Shown x (write x)
  writable (x : T) : Writable (write x)
  read?_eq {x : T} {v : Value} (h : Shown x v) : read? v = if finite x then some x else none
  null_infix {x : T} (h : finite x = false) : "null".toList <:+: (write x).render

-- The same of the texts: the one that is written, one for every form of the value, and every other
-- text that spells such a form, with whatever blanks and escapes.
structure Faithful {T : Type} (write : T → Value) (read? : Value → Option T) (finite : T → Bool)
    (Shown : T → Value → Prop) : Prop where
  written {x : T} (h : finite x = true) : (Json.read? (write x).write).bind read? = some x
  rewritten {x : T} (h : finite x = true) {v : Value} (hv : Shown x v) (hw : Writable v) :
    (Json.read? v.write).bind read? = some x
  spelled {x : T} (h : finite x = true) {v : Value} (hv : Shown x v) {s : List Char}
    (hs : Spells v s) : (Json.read? (String.ofList s)).bind read? = some x
  null_infix {x : T} (h : finite x = false) : "null".toList <:+: (write x).write.toList
  refused {x : T} (h : finite x = false) : (Json.read? (write x).write).bind read? = none

namespace Lawful

variable {T : Type} {write : T → Value} {read? : Value → Option T} {finite : T → Bool}
  {Shown : T → Value → Prop}

theorem read?_write (h : Lawful write read? finite Shown) (x : T) :
    (Json.read? (write x).write).bind read? = if finite x then some x else none := by
  rw [Json.read?_write (h.writable x), Option.bind_some, h.read?_eq (h.shown x)]

theorem faithful (h : Lawful write read? finite Shown) : Faithful write read? finite Shown where
  written hx := by rw [h.read?_write, if_pos hx]
  rewritten hx _ hv hw := by
    rw [Json.read?_write hw, Option.bind_some, h.read?_eq hv, if_pos hx]
  spelled hx _ hv _ hs := by
    rw [read?_of_spells hs, Option.bind_some, h.read?_eq hv, if_pos hx]
  null_infix {x} hx := by
    have htext : (write x).write.toList = (write x).render := String.toList_ofList
    rw [htext]
    exact h.null_infix hx
  refused hx := by rw [h.read?_write, if_neg (by simp [hx])]

end Lawful

end Json

theorem Instant.ofJson?_toJson (t : Instant) : Instant.ofJson? t.toJson = some t := by
  simp only [ofJson?, toJson, Value.ofString, Value.text?, Option.bind_eq_bind, Option.bind_some,
    ofText?_stamp]

@[simp] theorem Instant.writable_toJson (t : Instant) : Writable t.toJson := rfl

theorem Signal.ofJson?_toJson (s : Signal) : Signal.ofJson? s.toJson = some s := by
  cases s <;> rfl

theorem Pivot.ofJson?_toJson (p : Pivot) : Pivot.ofJson? p.toJson = some p := by
  cases p <;> rfl

theorem Period.ofJson?_toJson (p : Period) : Period.ofJson? p.toJson = some p := by
  cases p <;> rfl

theorem Algorithm.ofJson?_toJson (a : Algorithm) : Algorithm.ofJson? a.toJson = some a := by
  cases a <;> rfl

theorem text?_ofString (s : String) : (Value.ofString s).text? = some s := rfl

namespace Candle

def finite (c : Candle Float) : Bool :=
  c.opening.isFinite && c.high.isFinite && c.low.isFinite && c.close.isFinite && c.volume.isFinite

def fields (c : Candle Float) : List (String × Value) :=
  [("time", c.time.toJson), ("open", .ofDouble c.opening), ("high", .ofDouble c.high),
    ("low", .ofDouble c.low), ("close", .ofDouble c.close), ("volume", .ofDouble c.volume)]

def Shown (c : Candle Float) (v : Value) : Prop := Json.Shows c.fields v

theorem ofJson?_of_shown {c : Candle Float} {v : Value} (h : c.Shown v) :
    ofJson? v = if c.finite then some c else none := by
  obtain ⟨given, hgiven, hrequired⟩ := h.exists_fields? (by simp [fields])
  have hgiven : v.fields? 6 = some given := hgiven
  rw [ofJson?, hgiven]
  simp only [Option.bind_eq_bind, Option.bind_some, hrequired 0 rfl, hrequired 1 rfl,
    hrequired 2 rfl, hrequired 3 rfl, hrequired 4 rfl, hrequired 5 rfl, Instant.ofJson?_toJson,
    Json.real?_ofDouble_eq, Json.ite_some_bind, finite, Bool.and_eq_true, ite_and]
  rfl

theorem mem_fields_null {c : Candle Float} (h : c.finite = false) :
    ∃ name, (name, Value.null) ∈ c.fields := by
  simp only [finite, Bool.and_eq_false_iff] at h
  obtain (((h | h) | h) | h) | h := h
  · exact ⟨"open", by simp [fields, Json.ofDouble_of_not_isFinite h]⟩
  · exact ⟨"high", by simp [fields, Json.ofDouble_of_not_isFinite h]⟩
  · exact ⟨"low", by simp [fields, Json.ofDouble_of_not_isFinite h]⟩
  · exact ⟨"close", by simp [fields, Json.ofDouble_of_not_isFinite h]⟩
  · exact ⟨"volume", by simp [fields, Json.ofDouble_of_not_isFinite h]⟩

@[simp] theorem writable_toJson (c : Candle Float) : Writable c.toJson := by
  apply Json.writable_record
  simp

theorem lawful : Json.Lawful toJson ofJson? finite Shown where
  shown c := Json.shows_record c.fields
  writable := writable_toJson
  read?_eq := ofJson?_of_shown
  null_infix {c} h := by
    obtain ⟨name, hnull⟩ := mem_fields_null h
    exact Json.render_infix_record hnull

-- Each candle has a form of its own.
def ListShown (candles : List (Candle Float)) (v : Value) : Prop :=
  ∃ items, v = .array items ∧ List.Forall₂ Shown candles items

theorem mapM_ofJson?_of_shown {candles : List (Candle Float)} {items : List Value}
    (h : List.Forall₂ Shown candles items) :
    items.mapM ofJson? = if candles.all finite then some candles else none := by
  induction h with
  | nil => rfl
  | @cons c v candles items hc _ ih =>
      simp only [List.mapM_cons, ofJson?_of_shown hc, ih, Option.bind_eq_bind, Json.ite_some_bind,
        List.all_cons, Bool.and_eq_true, ite_and]
      rfl

theorem list_lawful : Json.Lawful listToJson listOfJson? (·.all finite) ListShown where
  shown candles := ⟨_, rfl, by
    rw [List.forall₂_map_right_iff]
    exact List.forall₂_same.mpr fun c _ => lawful.shown c⟩
  writable candles := Json.writable_array (by simp)
  read?_eq := by
    rintro candles _ ⟨items, rfl, h⟩
    exact mapM_ofJson?_of_shown h
  null_infix {candles} h := by
    obtain ⟨c, hc, hfinite⟩ := List.all_eq_false.mp h
    exact (lawful.null_infix (by simpa using hfinite)).trans
      (Json.render_infix_array (List.mem_map_of_mem hc))

end Candle

namespace Annotated

def finite (c : Annotated Float) : Bool := c.candle.finite && c.ema.isFinite

-- The fields, with the candle as it is given.
def fields (c : Annotated Float) (candle : Value) : List (String × Value) :=
  [("candle", candle), ("ema", .ofDouble c.ema), ("trend_signal", c.trend.toJson),
    ("breakout_signal", c.breakout.toJson), ("pivot", c.pivot.toJson)]

-- The candle may be shown in one form and the record around it in another.
def Shown (c : Annotated Float) (v : Value) : Prop :=
  ∃ candle, c.candle.Shown candle ∧ Json.Shows (c.fields candle) v

theorem ofJson?_of_shown {c : Annotated Float} {v : Value} (h : c.Shown v) :
    ofJson? v = if c.finite then some c else none := by
  obtain ⟨candle, hcandle, hfields⟩ := h
  obtain ⟨given, hgiven, hrequired⟩ := hfields.exists_fields? (by simp [fields])
  have hgiven : v.fields? 5 = some given := hgiven
  rw [ofJson?, hgiven]
  simp only [Option.bind_eq_bind, Option.bind_some, hrequired 0 rfl, hrequired 1 rfl,
    hrequired 2 rfl, hrequired 3 rfl, hrequired 4 rfl, Candle.ofJson?_of_shown hcandle,
    Json.real?_ofDouble_eq, Signal.ofJson?_toJson, Pivot.ofJson?_toJson, Json.ite_some_bind, finite,
    Bool.and_eq_true, ite_and]
  rfl

theorem lawful : Json.Lawful toJson ofJson? finite Shown where
  shown c := ⟨_, Candle.lawful.shown c.candle, Json.shows_record _⟩
  writable c := by
    apply Json.writable_record
    simp [Signal.toJson, Pivot.toJson]
  read?_eq := ofJson?_of_shown
  null_infix {c} h := by
    simp only [finite, Bool.and_eq_false_iff] at h
    rcases h with hcandle | hema
    · exact (Candle.lawful.null_infix hcandle).trans
        (Json.render_infix_record (List.mem_cons_self ..))
    · have hnull : ("ema", Value.null) ∈ c.fields c.candle.toJson := by
        simp [fields, Json.ofDouble_of_not_isFinite hema]
      exact Json.render_infix_record hnull

end Annotated

namespace Query

def fields (q : Query) : List (String × Value) :=
  [("ticker", .ofString q.ticker), ("start", q.start.toJson), ("end", q.finish.toJson),
    ("period", q.period.toJson)]

def Shown (q : Query) (v : Value) : Prop := Json.Shows q.fields v

theorem ofJson?_of_shown {q : Query} {v : Value} (h : q.Shown v) : ofJson? v = some q := by
  obtain ⟨given, hgiven, hrequired⟩ := h.exists_fields? (by simp [fields])
  have hgiven : v.fields? 4 = some given := hgiven
  rw [ofJson?, hgiven]
  simp only [Option.bind_eq_bind, Option.bind_some, hrequired 0 rfl, hrequired 1 rfl,
    hrequired 2 rfl, hrequired 3 rfl, text?_ofString, Instant.ofJson?_toJson,
    Period.ofJson?_toJson]
  rfl

theorem lawful : Json.Lawful toJson ofJson? (fun _ => true) Shown where
  shown q := Json.shows_record q.fields
  writable q := by
    apply Json.writable_record
    simp [Period.toJson]
  read?_eq h := ofJson?_of_shown h
  null_infix h := absurd h (by decide)

end Query

namespace Request

def fields (r : Request) : List (String × Value) :=
  [("ticker", .ofString r.ticker), ("start", r.start.toJson), ("end", r.finish.toJson),
    ("period", r.period.toJson), ("algorithm", r.algorithm.toJson)]

def Shown (r : Request) (v : Value) : Prop := Json.Shows r.fields v

theorem ofJson?_of_shown {r : Request} {v : Value} (h : r.Shown v) : ofJson? v = some r := by
  obtain ⟨given, hgiven, hrequired⟩ := h.exists_fields? (by simp [fields])
  have hgiven : v.fields? 5 = some given := hgiven
  rw [ofJson?, hgiven]
  simp only [Option.bind_eq_bind, Option.bind_some, hrequired 0 rfl, hrequired 1 rfl,
    hrequired 2 rfl, hrequired 3 rfl, hrequired 4 rfl, text?_ofString, Instant.ofJson?_toJson,
    Period.ofJson?_toJson, Algorithm.ofJson?_toJson]
  rfl

theorem lawful : Json.Lawful toJson ofJson? (fun _ => true) Shown where
  shown r := Json.shows_record r.fields
  writable r := by
    apply Json.writable_record
    simp [Period.toJson, Algorithm.toJson]
  read?_eq h := ofJson?_of_shown h
  null_infix h := absurd h (by decide)

end Request

-- Reading undoes writing, for candles and lists of them, annotated candles, queries and requests. A
-- number that is not finite is not read as another one.
theorem Json.faithful_records :
    Json.Faithful Candle.toJson Candle.ofJson? Candle.finite Candle.Shown ∧
      Json.Faithful Candle.listToJson Candle.listOfJson? (·.all Candle.finite) Candle.ListShown ∧
        Json.Faithful Annotated.toJson Annotated.ofJson? Annotated.finite Annotated.Shown ∧
          Json.Faithful Query.toJson Query.ofJson? (fun _ => true) Query.Shown ∧
            Json.Faithful Request.toJson Request.ofJson? (fun _ => true) Request.Shown :=
  ⟨Candle.lawful.faithful, Candle.list_lawful.faithful, Annotated.lawful.faithful,
    Query.lawful.faithful, Request.lawful.faithful⟩

end Candlestick
