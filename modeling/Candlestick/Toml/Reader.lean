import Candlestick.Toml.Literal
import Candlestick.Toml.Quoted
import Candlestick.Toml.Table

namespace Candlestick.Toml

open Quoted

def skipBlanks (s : List Char) : List Char := s.dropWhile isBlank

def skipComment : List Char → List Char
  | '#' :: rest => rest.dropWhile isTextChar
  | s => s

-- Blanks and a comment, up to the end of the line or of the text.
def endLine? (s : List Char) : Option (List Char) :=
  match skipComment (skipBlanks s) with
  | [] => some []
  | rest => takeLineEnd? rest

-- Skips blanks, line ends and comments. A comment runs to the end of its line.
def skipGap? (comment : Bool) : List Char → Option (List Char)
  | [] => if comment then none else some []
  | '\r' :: '\n' :: rest => skipGap? false rest
  | c :: rest =>
    if c = '\n' then skipGap? false rest
    else if comment then if isTextChar c then skipGap? true rest else none
    else if isBlank c then skipGap? false rest
    else if c = '#' then skipGap? true rest
    else some (c :: rest)

def isKeyChar (c : Char) : Bool := c.isAlphanum || c = '-' || c = '_'

-- A key by itself, bare or between marks on one line.
def readKey? : List Char → Option (String × List Char)
  | '"' :: rest => (basic? rest).map fun (s, rest) => (String.ofList s, rest)
  | '\x27' :: rest => (literal? rest).map fun (s, rest) => (String.ofList s, rest)
  | s =>
    let (key, rest) := s.span isKeyChar
    if key.isEmpty then none else some (String.ofList key, rest)

-- Values, and keys within a path, go 79 deep at most.
def depthLimit : Nat := 80

-- Keys with points between them, and blanks around each.
def readPath? : Nat → List Char → Option (List String × List Char)
  | 0, _ => none
  | room + 1, s => do
    let (key, rest) ← readKey? (skipBlanks s)
    match skipBlanks rest with
    | '.' :: rest =>
      let (path, rest) ← readPath? room rest
      return (key :: path, rest)
    | rest => return ([key], rest)

def readKeys? (s : List Char) : Option (List String × List Char) := readPath? (depthLimit - 1) s

mutual

-- A value at the front of a text, and what follows it. Each call is given less fuel; `room` is how
-- deep values may still be nested.
def readValue? : Nat → Nat → List Char → Option (Value × List Char)
  | 0, _, _ => none
  | fuel + 1, room, s =>
    match s with
    | '[' :: rest => do
      if room ≤ 1 then none
      match ← skipGap? false rest with
      | ']' :: rest => return (.array [], rest)
      | rest =>
        let (items, rest) ← readItems? fuel (room - 1) rest
        return (.array items, rest)
    | '\x7b' :: rest => do
      if room ≤ 1 then none
      match skipBlanks rest with
      | '\x7d' :: rest => return (.table [], rest)
      | rest =>
        let (ds, rest) ← readEntries? fuel (room - 1) rest
        return (← inlineTable? ds, rest)
    | '"' :: _ => (Quoted.read? s).map fun (t, rest) => (.text (String.ofList t), rest)
    | '\x27' :: _ => (Quoted.read? s).map fun (t, rest) => (.text (String.ofList t), rest)
    | s => Literal.read? s

-- The items up to the closing bracket. A comma may stand after the last.
def readItems? : Nat → Nat → List Char → Option (List Value × List Char)
  | 0, _, _ => none
  | fuel + 1, room, s => do
    let (item, rest) ← readValue? fuel room s
    match ← skipGap? false rest with
    | ']' :: rest => return ([item], rest)
    | ',' :: rest =>
      match ← skipGap? false rest with
      | ']' :: rest => return ([item], rest)
      | rest =>
        let (items, rest) ← readItems? fuel room rest
        return (item :: items, rest)
    | _ => none

-- The definitions up to the closing brace, on one line.
def readEntries? : Nat → Nat → List Char → Option (List Definition × List Char)
  | 0, _, _ => none
  | fuel + 1, room, s => do
    let (path, rest) ← readKeys? s
    match rest with
    | '=' :: rest =>
      let (value, rest) ← readValue? fuel room (skipBlanks rest)
      match skipBlanks rest with
      | '\x7d' :: rest => return ([⟨path, value⟩], rest)
      | ',' :: rest =>
        let (ds, rest) ← readEntries? fuel room rest
        return (⟨path, value⟩ :: ds, rest)
      | _ => none
    | _ => none

end

-- A header after its opening brackets, up to the end of its line.
def readHeader? (isList : Bool) (s : List Char) : Option (Header × List Char) := do
  let (path, rest) ← readKeys? s
  match isList, rest with
  | false, ']' :: rest => return (⟨false, path⟩, ← endLine? rest)
  | true, ']' :: ']' :: rest => return (⟨true, path⟩, ← endLine? rest)
  | _, _ => none

-- A definition, up to the end of its line.
def readDefinition? (s : List Char) : Option (Definition × List Char) := do
  let (path, rest) ← readKeys? s
  match rest with
  | '=' :: rest =>
    let rest := skipBlanks rest
    let (value, rest) ← readValue? (2 * rest.length + 2) depthLimit rest
    return (⟨path, value⟩, ← endLine? rest)
  | _ => none

abbrev Tables := List (Header × List Definition)

-- The definitions before the first header, and the headers with theirs.
def readLines? : Nat → List Char → Option (List Definition × Tables)
  | 0, _ => none
  | fuel + 1, s => do
    match skipBlanks s with
    | [] => return ([], [])
    | '[' :: '[' :: rest =>
      let (header, rest) ← readHeader? true rest
      let (ds, tables) ← readLines? fuel rest
      return ([], (header, ds) :: tables)
    | '[' :: rest =>
      let (header, rest) ← readHeader? false rest
      let (ds, tables) ← readLines? fuel rest
      return ([], (header, ds) :: tables)
    | c :: rest =>
      if c = '#' ∨ c = '\n' ∨ c = '\r' then readLines? fuel (← endLine? (c :: rest))
      else
        let (d, rest) ← readDefinition? (c :: rest)
        let (ds, tables) ← readLines? fuel rest
        return (d :: ds, tables)

-- A mark for the order of bytes may stand in front.
def skipMark : List Char → List Char
  | '\ufeff' :: rest => rest
  | s => s

-- The table of a document.
def read? (text : String) : Option Value := do
  let s := skipMark text.toList
  let (top, tables) ← readLines? (s.length + 1) s
  document? top tables

end Candlestick.Toml
