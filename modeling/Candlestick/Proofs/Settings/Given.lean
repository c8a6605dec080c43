import Candlestick.Proofs.Settings.Sheet

namespace Candlestick

section Fields

variable {V T U : Type}

-- What entries give for a field: nothing, if its name is not there, or what the one value under its
-- name means.
def Gives (entries : List (String × V)) (name : String) (Means : V → T → Prop) : Option T → Prop
  | none => entries.filter (·.1 = name) = []
  | some x => ∃ v, entries.filter (·.1 = name) = [(name, v)] ∧ Means v x

theorem orDefault_of_gives {entries : List (String × V)} {name : String} {Means : V → T → Prop}
    {x? : Option T} (h : Gives entries name Means x?) {read? : V → Option U} {f : T → U}
    (hread : ∀ v x, Means v x → read? v = some (f x)) (place : Nat) (default : U) :
    (Fields.named entries).orDefault place name read? default =
      some ((x?.map f).getD default) := by
  cases x? with
  | none =>
      have hnone : entries.filter (·.1 = name) = [] := h
      simp [Fields.orDefault, Fields.value?, hnone]
  | some x =>
      obtain ⟨v, hv, hmeans⟩ := h
      simp [Fields.orDefault, Fields.value?, hv, hread v x hmeans]

-- A field whose value is read as it is.
theorem orDefault_of_gives_self {entries : List (String × V)} {name : String}
    {read? : V → Option T} {x? : Option T}
    (h : Gives entries name (fun v x => read? v = some x) x?) (place : Nat) (default : T) :
    (Fields.named entries).orDefault place name read? default = some (x?.getD default) := by
  have hgives := orDefault_of_gives h (f := id) (fun _ _ hv => hv) place default
  rwa [Option.map_id] at hgives

end Fields

namespace Ema

structure Given where
  period : Option UInt64

namespace Given

def complete (g : Given) : Params := { period := g.period.getD Params.standard.period }

structure In {V : Type} [Datum V] (g : Given) (entries : List (String × V)) : Prop where
  period : Gives entries "period" (fun v n => Datum.count? v = some n) g.period

end Given

end Ema

namespace KeyLevels

structure Given where
  window : Option UInt64
  epsilon : Option Float

namespace Given

def complete (g : Given) : Params Float where
  window := g.window.getD Params.standard.window
  epsilon := g.epsilon.getD Params.standard.epsilon

structure In {V : Type} [Datum V] (g : Given) (entries : List (String × V)) : Prop where
  window : Gives entries "neighbor_window" (fun v n => Datum.count? v = some n) g.window
  epsilon : Gives entries "epsilon" (fun v x => Datum.real? v = some x) g.epsilon

end Given

end KeyLevels

namespace Breakout

structure Given where
  back : Option UInt64
  window : Option UInt64
  count : Option UInt64
  width : Option Float
  price : Option ZonePrice

namespace Given

def complete (g : Given) : Params Float where
  back := g.back.getD Params.standard.back
  window := g.window.getD Params.standard.window
  count := g.count.getD Params.standard.count
  width := g.width.getD Params.standard.width
  price := g.price.getD Params.standard.price

structure In {V : Type} [Datum V] (e : Encoding V) (g : Given) (entries : List (String × V)) :
    Prop where
  back : Gives entries "back_candles" (fun v n => Datum.count? v = some n) g.back
  window : Gives entries "window" (fun v n => Datum.count? v = some n) g.window
  count : Gives entries "num_candles_for_breakout" (fun v n => Datum.count? v = some n) g.count
  width : Gives entries "zone_width" (fun v x => Datum.real? v = some x) g.width
  price : Gives entries "zone_price" (fun v p => v = e.simple (.text p.name)) g.price

end Given

end Breakout

namespace Settings

-- Sections may be missing as a whole.
structure Given where
  ema : Option Ema.Given
  keyLevels : Option KeyLevels.Given
  breakout : Option Breakout.Given

namespace Given

def complete (g : Given) : Settings where
  ema := (g.ema.map Ema.Given.complete).getD .standard
  keyLevels := (g.keyLevels.map KeyLevels.Given.complete).getD .standard
  breakout := (g.breakout.map Breakout.Given.complete).getD .standard

structure In {V : Type} [Datum V] (e : Encoding V) (g : Given) (entries : List (String × V)) :
    Prop where
  ema : Gives entries "ema" (fun v given => ∃ fields, v = e.record fields ∧ given.In fields) g.ema
  keyLevels : Gives entries "key_levels"
    (fun v given => ∃ fields, v = e.record fields ∧ given.In fields) g.keyLevels
  breakout : Gives entries "breakout"
    (fun v given => ∃ fields, v = e.record fields ∧ given.In e fields) g.breakout

end Given

end Settings

section Reading

variable {V : Type} [Datum V] (e : Encoding V) {entries : List (String × V)}

theorem Ema.Given.In.ofDatum? {g : Given} (h : g.In entries) :
    Params.ofDatum? (e.record entries) = some g.complete := by
  simp [Params.ofDatum?, e.fields?_record, orDefault_of_gives_self h.period, complete]

theorem KeyLevels.Given.In.ofDatum? {g : Given} (h : g.In entries) :
    Params.ofDatum? (e.record entries) = some g.complete := by
  simp [Params.ofDatum?, e.fields?_record, orDefault_of_gives_self h.window,
    orDefault_of_gives_self h.epsilon, complete]

theorem Breakout.Given.In.ofDatum? {g : Given} (h : g.In e entries) :
    Params.ofDatum? (e.record entries) = some g.complete := by
  have hname : ∀ v p, v = e.simple (.text p.name) → ZonePrice.ofDatum? v = some (id p) := by
    rintro _ p rfl
    exact ZonePrice.ofDatum?_text e p
  have hprice := orDefault_of_gives h.price hname 4 Params.standard.price
  rw [Option.map_id] at hprice
  simp [Params.ofDatum?, e.fields?_record, orDefault_of_gives_self h.back,
    orDefault_of_gives_self h.window, orDefault_of_gives_self h.count,
    orDefault_of_gives_self h.width, hprice, complete]

theorem Settings.Given.In.ofDatum? {g : Given} (h : g.In e entries) :
    Settings.ofDatum? (e.record entries) = some g.complete := by
  have hema (v : V) (given : Ema.Given) (hv : ∃ fields, v = e.record fields ∧ given.In fields) :
      Ema.Params.ofDatum? v = some given.complete := by
    obtain ⟨fields, rfl, hin⟩ := hv
    exact hin.ofDatum? e
  have hlevels (v : V) (given : KeyLevels.Given)
      (hv : ∃ fields, v = e.record fields ∧ given.In fields) :
      KeyLevels.Params.ofDatum? v = some given.complete := by
    obtain ⟨fields, rfl, hin⟩ := hv
    exact hin.ofDatum? e
  have hbreakout (v : V) (given : Breakout.Given)
      (hv : ∃ fields, v = e.record fields ∧ given.In e fields) :
      Breakout.Params.ofDatum? v = some given.complete := by
    obtain ⟨fields, rfl, hin⟩ := hv
    exact hin.ofDatum? e
  simp [Settings.ofDatum?, e.fields?_record, orDefault_of_gives h.ema hema,
    orDefault_of_gives h.keyLevels hlevels, orDefault_of_gives h.breakout hbreakout, complete]

end Reading

end Candlestick
