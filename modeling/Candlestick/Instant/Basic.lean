import Candlestick.Instant.Calendar

namespace Candlestick

def nanosPerSecond : Nat := 1000000000

-- Seconds since 1970-01-01T00:00:00Z and nanoseconds within the second. The years are those from
-- -262143 to 262142. Nanoseconds beyond those of a second belong to a leap second, which
-- follows the last second of a minute.
structure Instant where
  seconds : Int
  nanos : Nat
  seconds_ge : -8334601228800 ≤ seconds
  seconds_le : seconds ≤ 8210266876799
  nanos_lt : nanos < 2 * nanosPerSecond
  leap : nanosPerSecond ≤ nanos → seconds % 60 = 59
  deriving DecidableEq

namespace Instant

def ofUnix? (seconds : Int) (nanos : Nat) : Option Instant :=
  if h : -8334601228800 ≤ seconds ∧ seconds ≤ 8210266876799 ∧ nanos < 2 * nanosPerSecond ∧
      (nanosPerSecond ≤ nanos → seconds % 60 = 59) then
    some ⟨seconds, nanos, h.1, h.2.1, h.2.2.1, h.2.2.2⟩
  else none

def epoch : Instant := ⟨0, 0, by decide, by decide, by decide, by decide⟩

instance : LE Instant :=
  ⟨fun a b => a.seconds < b.seconds ∨ (a.seconds = b.seconds ∧ a.nanos ≤ b.nanos)⟩

instance : DecidableLE Instant := fun a b =>
  inferInstanceAs (Decidable (a.seconds < b.seconds ∨ (a.seconds = b.seconds ∧ a.nanos ≤ b.nanos)))

def date (t : Instant) : Date := .ofDays (t.seconds / 86400)

def secondOfDay (t : Instant) : Nat := (t.seconds % 86400).toNat

def hour (t : Instant) : Nat := t.secondOfDay / 3600

def minute (t : Instant) : Nat := t.secondOfDay / 60 % 60

-- The second within the minute, 60 in a leap second.
def second (t : Instant) : Nat := t.secondOfDay % 60 + t.nanos / nanosPerSecond

-- The nanoseconds within that second.
def fraction (t : Instant) : Nat := t.nanos % nanosPerSecond

-- The moment at which a clock, ahead of UTC by `offset` seconds, shows a date and a time of day.
-- What the clock shows has to be within the years, too.
def ofClock? (date : Date) (hour minute second fraction : Nat) (offset : Int) : Option Instant := do
  if date.Valid ∧ hour < 24 ∧ minute < 60 ∧ second ≤ 60 ∧ fraction < nanosPerSecond then
    let leap := second = 60
    let ofDay : Int := 3600 * hour + 60 * minute + if leap then 59 else second
    let nanos := if leap then nanosPerSecond + fraction else fraction
    let shown ← ofUnix? (86400 * date.toDays + ofDay) nanos
    ofUnix? (shown.seconds - offset) shown.nanos
  else none

end Instant

end Candlestick
