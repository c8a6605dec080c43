import Candlestick.Json.Quoted
import Candlestick.Json.Value

namespace Candlestick.Json.Value

-- A text that is no string cannot be written; none of the values built here has one.
private def quoted (t : Text) : List Char := Quoted.write ((t.getD "").toList)

mutual

-- On one line, without blanks.
def render : Value → List Char
  | null => "null".toList
  | bool b => (if b then "true" else "false").toList
  | number n => n.render true
  | text t => quoted t
  | array items => '[' :: renderItems items ++ [']']
  | object members => '{' :: renderMembers members ++ ['}']

def renderItems : List Value → List Char
  | [] => []
  | [v] => v.render
  | v :: rest => v.render ++ ',' :: renderItems rest

def renderMembers : List (Text × Value) → List Char
  | [] => []
  | [(name, v)] => quoted name ++ ':' :: v.render
  | (name, v) :: rest => quoted name ++ ':' :: v.render ++ ',' :: renderMembers rest

end

private def newLine (depth : Nat) : List Char := '\n' :: List.replicate (2 * depth) ' '

mutual

-- Each item and member on a line of its own, two blanks further in than what holds it.
def layOut (depth : Nat) : Value → List Char
  | array (v :: rest) => '[' :: layOutItems (depth + 1) (v :: rest) ++ newLine depth ++ [']']
  | object (m :: rest) => '{' :: layOutMembers (depth + 1) (m :: rest) ++ newLine depth ++ ['}']
  | v => v.render

def layOutItems (depth : Nat) : List Value → List Char
  | [] => []
  | [v] => newLine depth ++ v.layOut depth
  | v :: rest => newLine depth ++ v.layOut depth ++ ',' :: layOutItems depth rest

def layOutMembers (depth : Nat) : List (Text × Value) → List Char
  | [] => []
  | [(name, v)] => newLine depth ++ quoted name ++ ':' :: ' ' :: v.layOut depth
  | (name, v) :: rest =>
    newLine depth ++ quoted name ++ ':' :: ' ' :: v.layOut depth ++ ',' :: layOutMembers depth rest

end

def write (v : Value) : String := String.ofList v.render

def writePretty (v : Value) : String := String.ofList (v.layOut 0)

end Candlestick.Json.Value
