import Candlestick.Files.Path

namespace Candlestick

-- The names on the way to a place, the last of them in front.
abbrev Place := List String

namespace Place

def here : Place := []

def root : Place := ["/"]

-- Where a path sets out.
def start (path : String) : Place := if Path.isRooted path then root else here

-- The directory above a place. The root is above itself.
def above : Place → Place
  | [] => [".."]
  | name :: rest =>
    if name = ".." then ".." :: name :: rest
    else if name = "/" then name :: rest
    else rest

def step (place : Place) (name : String) : Place :=
  if name = "." then place else if name = ".." then place.above else name :: place

-- The current directory, those above it and the root, which are there without being made.
def isStanding (place : Place) : Bool := place = root || place.all (· = "..")

end Place

end Candlestick
