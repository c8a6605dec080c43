import Candlestick.Files.Place

namespace Candlestick

-- Why a file could not be read or written.
inductive FileError where
  | missing
  | notDirectory
  | isDirectory
  | tooLong
  | nullInPath
  | notText
  deriving DecidableEq, Repr

def FileError.message : FileError → String
  | missing => "No such file or directory (os error 2)"
  | notDirectory => "Not a directory (os error 20)"
  | isDirectory => "Is a directory (os error 21)"
  | tooLong => "File name too long (os error 36)"
  | nullInPath => "file name contained an unexpected NUL byte"
  | notText => "stream did not contain valid UTF-8"

inductive Content where
  | text (s : String)
  | binary
  deriving DecidableEq, Repr

def Content.read : Content → Except FileError String
  | text s => .ok s
  | binary => .error .notText

inductive Entry where
  | file (content : Content)
  | directory
  deriving DecidableEq, Repr

-- An entry hides what follows it.
structure Files where
  entries : List (Place × Entry)
  deriving DecidableEq, Repr

namespace Files

def empty : Files := ⟨[]⟩

def get? (files : Files) (place : Place) : Option Entry :=
  if place.isStanding then some .directory else files.entries.lookup place

def put (files : Files) (place : Place) (entry : Entry) : Files :=
  ⟨(place, entry) :: files.entries⟩

-- Goes on by a step, to a new directory where there is nothing.
def extend (way : Files × Place) (name : String) : Files × Place :=
  let place := way.2.step name
  match way.1.get? place with
  | some _ => (way.1, place)
  | none => (way.1.put place .directory, place)

-- A directory and those on the way to it, as far as they are not there.
def insertDirectory (files : Files) (path : String) : Files :=
  ((Path.steps path).foldl extend (files, .start path)).1

-- A file, in place of the one before it, and the directories on the way to it.
def insert (files : Files) (path : String) (content : Content) : Files :=
  let (files, place) := (Path.steps path).dropLast.foldl extend (files, .start path)
  files.put (place.step (Path.lastStep path)) (.file content)

-- The sizes that a path stays below and that a name does not go above, in bytes.
def pathBound : Nat := 4096

def nameBound : Nat := 255

-- What keeps a path from leading anywhere, whatever files there are.
def fault? (path : String) : Option FileError :=
  if path.toList.contains '\x00' then some .nullInPath
  else if path.isEmpty then some .missing
  else if pathBound ≤ path.utf8ByteSize then some .tooLong
  else none

def follow (place : Place) (name : String) : Except FileError Place :=
  if nameBound < name.utf8ByteSize then .error .tooLong else .ok (place.step name)

-- A step that is not the last one of a path has to lead into a directory.
def enter (files : Files) (place : Place) (name : String) : Except FileError Place := do
  let place ← follow place name
  match files.get? place with
  | some .directory => .ok place
  | some (.file _) => .error .notDirectory
  | none => .error .missing

-- The directory in which the last step of a path is taken.
def base (files : Files) (path : String) : Except FileError Place :=
  match fault? path with
  | some e => .error e
  | none => (Path.steps path).dropLast.foldlM files.enter (Place.start path)

def read (files : Files) (path : String) : Except FileError String := do
  let place ← follow (← files.base path) (Path.lastStep path)
  match files.get? place with
  | some .directory => .error .isDirectory
  | some (.file content) =>
    if Path.isOfDirectory path then .error .notDirectory else content.read
  | none => .error .missing

-- Where a path takes a file.
def target (files : Files) (path : String) : Except FileError Place := do
  let base ← files.base path
  if Path.isOfDirectory path then .error .isDirectory
  else
    let place ← follow base (Path.lastStep path)
    match files.get? place with
    | some .directory => .error .isDirectory
    | _ => .ok place

-- The result, and the files after it. What a file held before is lost. No directory is made.
def write (files : Files) (path text : String) : Except FileError Unit × Files :=
  match files.target path with
  | .error e => (.error e, files)
  | .ok place => (.ok (), files.put place (.file (.text text)))

end Files

end Candlestick
