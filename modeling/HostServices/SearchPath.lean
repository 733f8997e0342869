import HostServices.MemoryHost
import HostServices.ServiceError
import HostServices.Text.Split

/-!
# Search paths

Lists of directories between colons, and the search for a native library in them. A list is
refused as a whole when one of its elements would not leave room for the file name.
-/

namespace HostServices.SearchPath

/-- What stands between elements. -/
def separator : Char := ':'

/-- What stands between the components of a path. -/
def slash : Char := '/'

/-- The longest path of the host, in bytes. -/
def longest : UInt64 := 4096

/-- The number of bytes of a text. -/
def byteLength (text : String) : UInt64 :=
  UInt64.ofNat text.utf8ByteSize

/-- The elements between separators. -/
def elements (path : String) : List String :=
  (Text.split separator path.toList).map String.ofList

/-- The elements, if each leaves room for a file name; the first that does not is the answer. -/
def accept (nameLength : UInt64) : List String → Except Fault (Except ServiceError (List String))
  | [] => .ok (.ok [])
  | e :: rest => do
    let length ← Checked.add (byteLength e) nameLength
    if longest < length then
      return .error (.pathTooLong length longest)
    else
      return (← accept nameLength rest).map (e :: ·)

/-- Split a search path. There are no elements in an empty path, nor for an empty file name. -/
def split (path : String) (nameLength : UInt64) :
    Except Fault (Except ServiceError (List String)) :=
  if path = "" ∨ nameLength = 0 then .ok (.ok []) else accept nameLength (elements path)

/-- `split`, where a refusal ends the process. -/
def splitOrExit {σ : Type} (path : String) (nameLength : UInt64) : Op σ (List String) := do
  match ← Op.check (split path nameLength) with
  | .ok found => return found
  | .error e =>
    Op.report .error .thread "search path rejected" [("error", .shown e.message)]
    Op.stop (.exit 1 s!"Error occurred during initialization of VM\n{e.message}\n")

/-- The file name of a native library. -/
def libraryFile (name : String) : String :=
  s!"lib{name}.so"

/-- The path of a file in a directory. -/
def inDirectory (directory file : String) : String :=
  if directory.toList.getLast? = some slash then directory ++ file
  else directory ++ String.singleton slash ++ file

/-- What a search asks of the file system. -/
structure Files where
  contains : String → Bool
  current : HostResult String

/-- A path that names something. -/
def Files.present (files : Files) (path : String) : Bool :=
  path != "" && files.contains path

/-- The path of a file in a directory, if it is there. -/
def probe (files : Files) (file directory : String) : Option String :=
  let path := inDirectory directory file
  if files.present path then some path else none

/-- Find a native library along a search path: one directory, or several between separators, or
the current directory if the path is empty. -/
def locate (files : Files) (search name : String) :
    Except Fault (Except ServiceError (Option String)) :=
  let file := libraryFile name
  if search = "" then
    match files.current with
    | .ok directory => .ok (.ok (probe files file directory))
    | .error e => .ok (.error (.platform "getcwd" e.errno))
  else if separator ∈ search.toList then do
    let directories ← split search (byteLength file)
    return directories.map fun ds => (ds.filter (· ≠ "")).findSome? (probe files file)
  else .ok (.ok (probe files file search))

end HostServices.SearchPath
