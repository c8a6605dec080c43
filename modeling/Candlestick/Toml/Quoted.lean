import Candlestick.Text.Hex

namespace Candlestick.Toml.Quoted

open Candlestick.Text

-- The characters that may stand in a text or a comment.
def isTextChar (c : Char) : Bool := c = '\t' || (32 ≤ c.toNat && c.toNat ≠ 127)

def isBlank (c : Char) : Bool := c = ' ' || c = '\t'

-- What follows the end of a line, if the text starts with one.
def takeLineEnd? : List Char → Option (List Char)
  | '\n' :: rest => some rest
  | '\r' :: '\n' :: rest => some rest
  | _ => none

-- The character that a letter after a backslash stands for.
def unescape? (c : Char) : Option Char :=
  if c = '"' ∨ c = '\\' then some c
  else if c = 'b' then some '\x08'
  else if c = 'f' then some '\x0c'
  else if c = 'n' then some '\n'
  else if c = 'r' then some '\r'
  else if c = 't' then some '\t'
  else none

-- The character with a code point given by all of some hexadecimal digits.
def codePoint? (s : List Char) : Option Char := do
  let (n, _) ← takeHex? s.length s
  if n.isValidChar then some (Char.ofNat n) else none

-- A text on one line, up to its closing mark.
def basic? : List Char → Option (List Char × List Char)
  | [] => none
  | '"' :: rest => some ([], rest)
  | '\\' :: 'u' :: a :: b :: c :: d :: rest => do
    let x ← codePoint? [a, b, c, d]
    let (s, rest) ← basic? rest
    return (x :: s, rest)
  | '\\' :: 'U' :: a :: b :: c :: d :: e :: f :: g :: h :: rest => do
    let x ← codePoint? [a, b, c, d, e, f, g, h]
    let (s, rest) ← basic? rest
    return (x :: s, rest)
  | '\\' :: c :: rest => do
    let x ← unescape? c
    let (s, rest) ← basic? rest
    return (x :: s, rest)
  | c :: rest => do
    if c = '\\' || !isTextChar c then none
    let (s, rest) ← basic? rest
    return (c :: s, rest)

-- A text on one line without escapes.
def literal? : List Char → Option (List Char × List Char)
  | [] => none
  | '\x27' :: rest => some ([], rest)
  | c :: rest => do
    if !isTextChar c then none
    let (s, rest) ← literal? rest
    return (c :: s, rest)

-- Up to two marks before the three closing ones belong to the text.
def closing (mark : Char) (rest : List Char) : List Char × List Char :=
  let extra := ((rest.take 2).takeWhile (· = mark)).length
  (List.replicate extra mark, rest.drop extra)

-- A text on several lines. A backslash at the end of a line removes all blanks and line ends that
-- follow; while it does, `joining` is set.
def longBasic? (joining : Bool) : List Char → Option (List Char × List Char)
  | [] => none
  | '"' :: '"' :: '"' :: rest => some (closing '"' rest)
  | '\r' :: '\n' :: rest =>
    if joining then longBasic? true rest
    else do
      let (s, rest) ← longBasic? false rest
      return ('\n' :: s, rest)
  | '\\' :: 'u' :: a :: b :: c :: d :: rest => do
    let x ← codePoint? [a, b, c, d]
    let (s, rest) ← longBasic? false rest
    return (x :: s, rest)
  | '\\' :: 'U' :: a :: b :: c :: d :: e :: f :: g :: h :: rest => do
    let x ← codePoint? [a, b, c, d, e, f, g, h]
    let (s, rest) ← longBasic? false rest
    return (x :: s, rest)
  | '\\' :: c :: rest =>
    if (takeLineEnd? ((c :: rest).dropWhile isBlank)).isSome then longBasic? true (c :: rest)
    else do
      let x ← unescape? c
      let (s, rest) ← longBasic? false rest
      return (x :: s, rest)
  | c :: rest =>
    if joining && (isBlank c || c = '\n') then longBasic? true rest
    else if c = '\\' || !(isTextChar c || c = '\n') then none
    else do
      let (s, rest) ← longBasic? false rest
      return (c :: s, rest)

-- A text on several lines without escapes.
def longLiteral? : List Char → Option (List Char × List Char)
  | [] => none
  | '\x27' :: '\x27' :: '\x27' :: rest => some (closing '\x27' rest)
  | '\r' :: '\n' :: rest => do
    let (s, rest) ← longLiteral? rest
    return ('\n' :: s, rest)
  | c :: rest => do
    if !(isTextChar c || c = '\n') then none
    let (s, rest) ← longLiteral? rest
    return (c :: s, rest)

-- A line end right after the three opening marks does not belong to the text.
def skipFirstLineEnd (s : List Char) : List Char := (takeLineEnd? s).getD s

-- A text that starts here with its opening marks.
def read? : List Char → Option (List Char × List Char)
  | '"' :: '"' :: '"' :: rest => longBasic? false (skipFirstLineEnd rest)
  | '"' :: rest => basic? rest
  | '\x27' :: '\x27' :: '\x27' :: rest => longLiteral? (skipFirstLineEnd rest)
  | '\x27' :: rest => literal? rest
  | _ => none

end Candlestick.Toml.Quoted
