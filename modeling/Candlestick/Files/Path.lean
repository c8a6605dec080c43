namespace Candlestick.Path

def isRooted (path : String) : Bool := path.toList.head? = some '/'

-- Slashes beside each other count as one.
def steps (path : String) : List String :=
  ((path.toList.splitOn '/').map String.ofList).filter (· ≠ "")

-- The last step. The root and the current directory are their own.
def lastStep (path : String) : String := (steps path).getLast?.getD "."

-- Whether a path by its form is that of a directory: its last step is made of points, or has a
-- slash after it.
def isOfDirectory (path : String) : Bool :=
  path.toList.getLast? = some '/' || lastStep path = "." || lastStep path = ".."

-- The paths of what a path leads through, and the path itself.
def stages (path : String) : List String :=
  let through := (List.range path.length).filter fun n => path.toList[n]? = some '/'
  (through.map fun n => String.ofList (path.toList.take n)).filter (· ≠ "") ++ [path]

def names (path : String) : List String :=
  let names := (steps path).filter (· ≠ ".")
  if isRooted path then "/" :: names else names

-- Whether a name is that of a file, and not the directory above or the root.
def isFileName (name : String) : Bool := name ≠ ".." && name ≠ "/"

def fileName? (path : String) : Option String := (names path).getLast?.filter isFileName

-- A file name divided at its last point. A point in front divides nothing.
def divide (name : String) : String × Option String :=
  let after := (name.toList.reverse.takeWhile (· ≠ '.')).reverse
  let before := name.toList.take (name.length - after.length - 1)
  if before.isEmpty then (name, none) else (String.ofList before, some (String.ofList after))

def extension? (path : String) : Option String := do (divide (← fileName? path)).2

def stem? (path : String) : Option String := do return (divide (← fileName? path)).1

end Candlestick.Path
