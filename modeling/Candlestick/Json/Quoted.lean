import Candlestick.Text.Hex

namespace Candlestick.Json.Quoted

open Candlestick.Text

def escape (c : Char) : List Char :=
  if c = '"' then ['\\', '"']
  else if c = '\\' then ['\\', '\\']
  else if c = '\x08' then ['\\', 'b']
  else if c = '\x0c' then ['\\', 'f']
  else if c = '\n' then ['\\', 'n']
  else if c = '\r' then ['\\', 'r']
  else if c = '\t' then ['\\', 't']
  else if c.toNat < 32 then ['\\', 'u'] ++ hexChars 4 c.toNat
  else [c]

def write (s : List Char) : List Char := '"' :: s.flatMap escape ++ ['"']

-- The character that a letter after a backslash stands for.
def unescape? (c : Char) : Option Char :=
  if c = '"' ∨ c = '\\' ∨ c = '/' then some c
  else if c = 'b' then some '\x08'
  else if c = 'f' then some '\x0c'
  else if c = 'n' then some '\n'
  else if c = 'r' then some '\r'
  else if c = 't' then some '\t'
  else none

-- The code points up to the closing mark, surrogates among them, and what follows the mark.
def codePoints? : List Char → Option (List Nat × List Char)
  | [] => none
  | '"' :: rest => some ([], rest)
  | '\\' :: 'u' :: a :: b :: c :: d :: rest => do
    let (n, _) ← takeHex? 4 [a, b, c, d]
    let (points, rest) ← codePoints? rest
    return (n :: points, rest)
  | '\\' :: c :: rest => do
    let c ← unescape? c
    let (points, rest) ← codePoints? rest
    return (c.toNat :: points, rest)
  | c :: rest => do
    if c.toNat < 32 || c = '\\' then none
    let (points, rest) ← codePoints? rest
    return (c.toNat :: points, rest)

-- Joins surrogate pairs; a half that stands alone is no character.
def pair? : List Nat → Option (List Char)
  | [] => some []
  | n :: rest =>
    if 0xD800 ≤ n ∧ n < 0xDC00 then
      match rest with
      | m :: rest =>
        if 0xDC00 ≤ m ∧ m < 0xE000 then
          return Char.ofNat (0x10000 + 0x400 * (n - 0xD800) + (m - 0xDC00)) :: (← pair? rest)
        else none
      | [] => none
    else if 0xDC00 ≤ n ∧ n < 0xE000 then none
    else return Char.ofNat n :: (← pair? rest)

-- The text after an opening mark, and what follows the closing one.
def read? (s : List Char) : Option (Option String × List Char) := do
  let (points, rest) ← codePoints? s
  return ((pair? points).map String.ofList, rest)

end Candlestick.Json.Quoted
