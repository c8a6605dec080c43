namespace Candlestick.Word

-- A step that leaves the words, or the list: nothing wraps around, and no element is made up.
inductive Fault where
  -- a sum of 2⁶⁴ or more
  | overflow
  -- a difference below zero
  | underflow
  -- a stretch that ends before it starts, or after its list
  | stretch
  -- a position after the last one of a list
  | position
  deriving DecidableEq, Repr

def add (x y : UInt64) : Except Fault UInt64 :=
  if x.toNat + y.toNat < UInt64.size then .ok (x + y) else .error .overflow

def sub (x y : UInt64) : Except Fault UInt64 :=
  if y.toNat ≤ x.toNat then .ok (x - y) else .error .underflow

-- The sum, or the largest word if that is less.
def saturatingAdd (x y : UInt64) : UInt64 := .ofNat (min (x.toNat + y.toNat) (UInt64.size - 1))

theorem toNat_saturatingAdd (x y : UInt64) :
    (saturatingAdd x y).toNat = min (x.toNat + y.toNat) (UInt64.size - 1) :=
  UInt64.toNat_ofNat_of_lt' (Nat.lt_of_le_of_lt (Nat.min_le_right _ _) (by decide))

theorem exists_add {x y : UInt64} (h : x.toNat + y.toNat < UInt64.size) :
    ∃ z, add x y = .ok z ∧ z.toNat = x.toNat + y.toNat := by
  refine ⟨x + y, if_pos h, ?_⟩
  rw [UInt64.toNat_add]
  exact Nat.mod_eq_of_lt h

theorem exists_sub {x y : UInt64} (h : y.toNat ≤ x.toNat) :
    ∃ z, sub x y = .ok z ∧ z.toNat = x.toNat - y.toNat :=
  ⟨x - y, if_pos h, UInt64.toNat_sub_of_le x y (UInt64.le_iff_toNat_le.mpr h)⟩

-- A stretch of a list, from its start up to its stop, which it does not hold.
structure Stretch where
  start : UInt64
  stop : UInt64

namespace Stretch

-- Cut off at the end of a list.
def within (s : Stretch) (length : UInt64) : Stretch := { s with stop := min s.stop length }

-- A stretch that lies in a list of a length.
structure Spans (s : Stretch) (start stop length : Nat) : Prop where
  start_eq : s.start.toNat = start
  stop_eq : s.stop.toNat = stop
  start_le : start ≤ stop
  stop_le : stop ≤ length

theorem within_eq_self {s : Stretch} {length : UInt64} (h : s.stop.toNat ≤ length.toNat) :
    s.within length = s := by
  have hmin : min s.stop length = s.stop := if_pos (UInt64.le_iff_toNat_le.mpr h)
  rw [within, hmin]

end Stretch

section Lists

variable {β : Type}

def length (xs : List β) : UInt64 := .ofNat xs.length

theorem toNat_length {xs : List β} (h : xs.length < UInt64.size) : (length xs).toNat = xs.length :=
  UInt64.toNat_ofNat_of_lt' h

def slice (xs : List β) (s : Stretch) : Except Fault (List β) :=
  if s.start ≤ s.stop ∧ s.stop.toNat ≤ xs.length then
    .ok ((xs.drop s.start.toNat).take (s.stop.toNat - s.start.toNat))
  else .error .stretch

theorem slice_of_spans {xs : List β} {s : Stretch} {start stop : Nat}
    (h : s.Spans start stop xs.length) :
    slice xs s = .ok ((xs.drop start).take (stop - start)) := by
  obtain ⟨rfl, rfl, hle, hstop⟩ := h
  exact if_pos ⟨UInt64.le_iff_toNat_le.mpr hle, hstop⟩

def entry (xs : List β) (index : UInt64) : Except Fault β :=
  if h : index.toNat < xs.length then .ok xs[index.toNat] else .error .position

end Lists

end Candlestick.Word
