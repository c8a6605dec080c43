namespace Candlestick.Decimal

abbrev Digit := Fin 10

def Digit.zero : Digit := ⟨0, by decide⟩

def Digit.char (d : Digit) : Char := Char.ofNat (48 + d.val)

def Digit.ofChar? (c : Char) : Option Digit :=
  if h : 48 ≤ c.toNat ∧ c.toNat < 58 then some ⟨c.toNat - 48, by omega⟩ else none

def isDigit (c : Char) : Bool := (Digit.ofChar? c).isSome

-- The number that digits spell, the most significant first.
def ofDigits (ds : List Digit) : Nat := ds.foldl (fun n d => 10 * n + d.val) 0

-- The digits of a number, without leading zeros; zero has one digit.
def digits (n : Nat) : List Digit :=
  if h : n < 10 then [⟨n, h⟩] else digits (n / 10) ++ [⟨n % 10, Nat.mod_lt n (by decide)⟩]
termination_by n
decreasing_by omega

-- The last `width` digits of a number.
def lastDigits : Nat → Nat → List Digit
  | 0, _ => []
  | width + 1, n => lastDigits width (n / 10) ++ [⟨n % 10, Nat.mod_lt n (by decide)⟩]

-- All digits of a number, with zeros in front where it has fewer than `width`.
def padded (width n : Nat) : List Digit :=
  let ds := digits n
  List.replicate (width - ds.length) Digit.zero ++ ds

def chars (ds : List Digit) : List Char := ds.map Digit.char

def natText (n : Nat) : List Char := chars (digits n)

def writeNat (n : Nat) : String := String.ofList (natText n)

def intText (i : Int) : List Char := if i < 0 then '-' :: natText i.natAbs else natText i.natAbs

-- The digits that a text begins with, and what follows them.
def takeDigits : List Char → List Digit × List Char
  | [] => ([], [])
  | c :: rest =>
    match Digit.ofChar? c with
    | some d => let (ds, after) := takeDigits rest; (d :: ds, after)
    | none => ([], c :: rest)

end Candlestick.Decimal
