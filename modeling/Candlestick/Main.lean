import Candlestick.CommandLine

open Candlestick

private def contentOf (bytes : ByteArray) : Content :=
  match String.fromUTF8? bytes with
  | some s => .text s
  | none => .binary

-- What cannot be read as a file may still be a directory.
private def look (files : Files) (path : String) : IO Files := do
  try
    return files.insert path (contentOf (← IO.FS.readBinFile path))
  catch
    | .inappropriateType _ 21 _ => return files.insertDirectory path
    | _ => return files

private def readFiles (paths : List String) : IO Files :=
  (paths.flatMap Path.stages).foldlM look .empty

def main (arguments : List String) : IO UInt32 := do
  let outcome := CommandLine.run arguments (← readFiles (arguments.drop 1))
  IO.print outcome.stdout
  return outcome.exitCode.toUInt32
